import AppPortKit.Foundation.Serial

/-!
# TCP connections

The state of a connection in lwIP that receiving data uses, and the operations on it that
several functions share.  The connection is established; how it was set up is not modelled.
A segment's data is the list of the payloads of its buffers.

`LWIP_ASSERT` stops the machine (`LWIP_PLATFORM_ASSERT` calls `abort`).
-/

namespace AppPortKit.Transport

/-! ## Options -/

/-- `TCP_WND`. -/
def tcpWnd : UInt16 := 5840

/-! ## Sequence numbers -/

def tcpSeqLt (a b : UInt32) : Bool := (a - b) &&& 0x80000000 != 0

def tcpSeqLeq (a b : UInt32) : Bool := !tcpSeqLt b a

def tcpSeqGt (a b : UInt32) : Bool := tcpSeqLt b a

def tcpSeqGeq (a b : UInt32) : Bool := tcpSeqLeq b a

def tcpSeqBetween (a b c : UInt32) : Bool := tcpSeqGeq a b && tcpSeqLeq a c

section Compare

open Serial

variable {base : UInt32} {a b c : Int}

/-- Numbers are compared as the positions are that they stand for, if these are near. -/
theorem tcpSeqLt_number (near : a < b + 2147483648 ∧ b ≤ a + 2147483648) :
    tcpSeqLt (number base a) (number base b) = decide (a < b) := by
  rw [tcpSeqLt, and_highBit_ne_zero, decide_eq_decide, toNat_sub_number]
  omega

theorem tcpSeqLeq_number (near : b < a + 2147483648 ∧ a ≤ b + 2147483648) :
    tcpSeqLeq (number base a) (number base b) = decide (a ≤ b) := by
  rw [tcpSeqLeq, tcpSeqLt_number near, ← decide_not, decide_eq_decide]
  exact Int.not_lt

theorem tcpSeqGt_number (near : b < a + 2147483648 ∧ a ≤ b + 2147483648) :
    tcpSeqGt (number base a) (number base b) = decide (b < a) :=
  tcpSeqLt_number near

theorem tcpSeqGeq_number (near : a < b + 2147483648 ∧ b ≤ a + 2147483648) :
    tcpSeqGeq (number base a) (number base b) = decide (b ≤ a) :=
  tcpSeqLeq_number near

theorem tcpSeqBetween_number (near : a < b + 2147483648 ∧ b ≤ a + 2147483648)
    (near' : c < a + 2147483648 ∧ a ≤ c + 2147483648) :
    tcpSeqBetween (number base a) (number base b) (number base c) =
      decide (b ≤ a ∧ a ≤ c) := by
  rw [tcpSeqBetween, tcpSeqGeq_number near, tcpSeqLeq_number near', Bool.decide_and]

end Compare

/-! ## Segments -/

/-- `struct tcp_seg`: the sequence number and the FIN flag are those of its header. -/
structure Seg where
  seqno : UInt32
  len : UInt16
  p : List (List UInt8)
  fin : Bool
  deriving DecidableEq, Repr

/-- `TCP_TCPLEN`.  A segment with SYN does not get as far as the functions that ask. -/
def Seg.tcplen (seg : Seg) : UInt32 := seg.len.toUInt32 + if seg.fin then 1 else 0

/-- The loop of `pbuf_realloc`. -/
def pbufReallocLoop : List (List UInt8) → Nat → List (List UInt8)
  | [], _ => []
  | q :: next, remLen =>
      if q.length < remLen then q :: pbufReallocLoop next (remLen - q.length)
      else [q.take remLen]

def pbufRealloc (p : List (List UInt8)) (newLen : UInt16) : List (List UInt8) :=
  if p.flatten.length ≤ newLen.toNat then p else pbufReallocLoop p newLen.toNat

/-- A segment that is cut to a length. -/
def Seg.trim (seg : Seg) (len : UInt16) : Seg := { seg with len, p := pbufRealloc seg.p len }

@[simp] theorem Seg.trim_len (seg : Seg) (len : UInt16) : (seg.trim len).len = len := rfl

/-! ## The control block -/

/-- The states of a connection that has been established, as in `enum tcp_state`. -/
inductive TcpState where
  | established
  | finWait1
  | finWait2
  | closeWait
  | closing
  | lastAck
  | timeWait
  deriving DecidableEq, Repr

/-- `state < CLOSE_WAIT`: the peer has not closed its direction. -/
def TcpState.receives : TcpState → Bool
  | .established | .finWait1 | .finWait2 => true
  | .closeWait | .closing | .lastAck | .timeWait => false

/-- The assertions of the modelled functions. -/
inductive Halt where
  /-- `insane offset!` -/
  | insaneOffset
  /-- `pbuf too short!` -/
  | pbufTooShort
  /-- `tcp_receive: segment not trimmed correctly to rcv_wnd` -/
  | notTrimmedToRcvWnd
  /-- `tcp_receive: segment not trimmed correctly to ooseq queue` -/
  | notTrimmedToOoseq
  /-- `tcp_receive: tcplen > rcv_wnd` -/
  | tcplenOverRcvWnd
  /-- `tcp_receive: ooseq tcplen > rcv_wnd` -/
  | ooseqTcplenOverRcvWnd
  /-- `new_rcv_ann_wnd <= 0xffff` -/
  | rcvAnnWndTooBig
  deriving DecidableEq, Repr

/-- The fields of `struct tcp_pcb` that receiving uses. -/
structure Pcb where
  state : TcpState
  /-- `TF_ACK_DELAY` -/
  ackDelay : Bool
  /-- `TF_ACK_NOW` -/
  ackNow : Bool
  mss : UInt16
  rcvNxt : UInt32
  rcvWnd : UInt16
  rcvAnnWnd : UInt16
  rcvAnnRightEdge : UInt32
  ooseq : List Seg
  deriving DecidableEq, Repr

namespace Pcb

def tcpAckNow (pcb : Pcb) : Pcb := { pcb with ackNow := true }

def tcpAck (pcb : Pcb) : Pcb :=
  if pcb.ackDelay then { pcb with ackDelay := false }.tcpAckNow else { pcb with ackDelay := true }

theorem tcpAck_eq (pcb : Pcb) :
    pcb.tcpAck = { pcb with ackDelay := !pcb.ackDelay, ackNow := pcb.ackNow || pcb.ackDelay } := by
  rw [tcpAck, tcpAckNow]
  cases delayed : pcb.ackDelay with
  | true => rw [Bool.or_true, Bool.not_true]; rfl
  | false => rw [Bool.or_false, Bool.not_false]; rfl

/-- How much more window would be advertised by an update now. -/
def tcpUpdateRcvAnnWnd (pcb : Pcb) : Except Halt (UInt32 × Pcb) :=
  let newRightEdge := pcb.rcvNxt + pcb.rcvWnd.toUInt32
  if tcpSeqGeq newRightEdge (pcb.rcvAnnRightEdge + (min (tcpWnd / 2) pcb.mss).toUInt32) then
    .ok (newRightEdge - pcb.rcvAnnRightEdge, { pcb with rcvAnnWnd := pcb.rcvWnd })
  else if tcpSeqGt pcb.rcvNxt pcb.rcvAnnRightEdge then .ok (0, { pcb with rcvAnnWnd := 0 })
  else
    let newRcvAnnWnd := pcb.rcvAnnRightEdge - pcb.rcvNxt
    if newRcvAnnWnd ≤ 0xffff then .ok (0, { pcb with rcvAnnWnd := newRcvAnnWnd.toUInt16 })
    else .error .rcvAnnWndTooBig

end Pcb

end AppPortKit.Transport
