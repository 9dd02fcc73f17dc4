import AppPortKit.Transport.Core

/-!
# Receiving data

The second half of `tcp_receive`: data in sequence is passed on, with the queued segments
that it makes contiguous, and data out of sequence is queued.  The options of the port leave
out selective acknowledgments and limits of the queue.
-/

namespace AppPortKit.Transport

/-- Skip the first bytes of a chain of buffers; a buffer that is skipped stays, empty. -/
def trimFront : List (List UInt8) → Nat → Except Halt (List (List UInt8))
  | [], _ => .error .pbufTooShort
  | p :: next, off =>
      if p.length < off then do
        let rest ← trimFront next (off - p.length)
        pure ([] :: rest)
      else pure (p.drop off :: next)

/-- Data before `rcv_nxt` is cut off. -/
def Seg.trimLeft (inseg : Seg) (rcvNxt : UInt32) : Except Halt Seg :=
  let off32 := rcvNxt - inseg.seqno
  if ¬off32 < 0xffff then .error .insaneOffset
  else
    let off := off32.toUInt16
    if inseg.p.flatten.length < off.toNat then .error .pbufTooShort
    else do
      let p ← trimFront inseg.p off.toNat
      pure { inseg with seqno := rcvNxt, len := inseg.len - off, p }

/-- Data beyond the window is cut off. -/
def Seg.trimToWindow (inseg : Seg) (rcvNxt : UInt32) (rcvWnd : UInt16) : Except Halt Seg :=
  if rcvWnd < inseg.tcplen.toUInt16 then
    let inseg := { inseg with fin := false }.trim rcvWnd
    if inseg.seqno + inseg.tcplen.toUInt16.toUInt32 = rcvNxt + rcvWnd.toUInt32 then .ok inseg
    else .error .notTrimmedToRcvWnd
  else .ok inseg

/-- Queued segments that a segment covers are dropped; it takes over their FIN.  `extent`
tells how far the segment is taken to go. -/
def dropCovered (extent : Seg → UInt32) : Seg → List Seg → Seg × List Seg
  | inseg, [] => (inseg, [])
  | inseg, next :: later =>
      if tcpSeqGeq (inseg.seqno + extent inseg) (next.seqno + next.len.toUInt32) then
        dropCovered extent { inseg with fin := inseg.fin || next.fin } later
      else (inseg, next :: later)

/-- A segment in sequence and the queue are made disjoint. -/
def joinOoseq (inseg : Seg) (ooseq : List Seg) : Except Halt (Seg × List Seg) :=
  if inseg.fin then .ok (inseg, [])
  else
    match dropCovered (fun inseg => inseg.tcplen.toUInt16.toUInt32) inseg ooseq with
    | (inseg, []) => .ok (inseg, [])
    | (inseg, next :: later) =>
        if tcpSeqGt (inseg.seqno + inseg.tcplen.toUInt16.toUInt32) next.seqno then
          let inseg := inseg.trim (next.seqno - inseg.seqno).toUInt16
          if inseg.seqno + inseg.tcplen.toUInt16.toUInt32 = next.seqno then
            .ok (inseg, next :: later)
          else .error .notTrimmedToOoseq
        else .ok (inseg, next :: later)

/-- What is passed to the application: `recv_data`, and `TF_GOT_FIN`. -/
structure Passed where
  data : List (List UInt8)
  gotFin : Bool
  deriving DecidableEq, Repr

/-- Nothing is passed to the application. -/
def Passed.nothing : Passed := { data := [], gotFin := false }

/-- The payload of a segment comes after what there is. -/
def Passed.add (passed : Passed) (seg : Seg) : Passed :=
  { data := if 0 < seg.p.flatten.length then passed.data ++ seg.p else passed.data
    gotFin := passed.gotFin || seg.fin }

/-- Queued segments that are in sequence now. -/
def Pcb.drainOoseq (pcb : Pcb) (passed : Passed) : List Seg → Except Halt (Passed × Pcb)
  | [] => .ok (passed, { pcb with ooseq := [] })
  | cseg :: later =>
      if cseg.seqno = pcb.rcvNxt then
        if pcb.rcvWnd.toUInt32 < cseg.tcplen then .error .ooseqTcplenOverRcvWnd
        else do
          let updated ← Pcb.tcpUpdateRcvAnnWnd
            { pcb with
              rcvNxt := pcb.rcvNxt + cseg.tcplen
              rcvWnd := pcb.rcvWnd - cseg.tcplen.toUInt16 }
          let state := if cseg.fin ∧ updated.2.state = .established then .closeWait
            else updated.2.state
          drainOoseq { updated.2 with state } (passed.add cseg) later
      else .ok (passed, { pcb with ooseq := cseg :: later })

/-- A segment that is the next in sequence. -/
def Pcb.inSequence (pcb : Pcb) (inseg : Seg) : Except Halt (Passed × Pcb) := do
  let inseg ← inseg.trimToWindow pcb.rcvNxt pcb.rcvWnd
  let joined ← joinOoseq inseg pcb.ooseq
  let tcplen := joined.1.tcplen.toUInt16
  if pcb.rcvWnd < tcplen then .error .tcplenOverRcvWnd
  else do
    let updated ← Pcb.tcpUpdateRcvAnnWnd
      { pcb with
        rcvNxt := joined.1.seqno + tcplen.toUInt32
        rcvWnd := pcb.rcvWnd - tcplen }
    let passed := Passed.nothing.add joined.1
    let drained ← updated.2.drainOoseq passed joined.2
    pure (drained.1, drained.2.tcpAck)

def tcpOosInsertSegment (cseg : Seg) (next : List Seg) : List Seg :=
  if cseg.fin then [cseg]
  else
    match dropCovered (fun cseg => cseg.len.toUInt32) cseg next with
    | (cseg, []) => [cseg]
    | (cseg, next :: later) =>
        if tcpSeqGt (cseg.seqno + cseg.len.toUInt32) next.seqno then
          cseg.trim (next.seqno - cseg.seqno).toUInt16 :: next :: later
        else cseg :: next :: later

/-- A segment is cut where another begins. -/
def Seg.trimBefore (seg : Seg) (seqno : UInt32) : Seg :=
  if tcpSeqGt (seg.seqno + seg.len.toUInt32) seqno then seg.trim (seqno - seg.seqno).toUInt16
  else seg

/-- The last segment of the queue is cut where the window ends. -/
def Seg.trimLast (seg : Seg) (rightEdge : UInt32) : Except Halt Seg :=
  if tcpSeqGt (seg.tcplen.toUInt16.toUInt32 + seg.seqno) rightEdge then
    let seg := { seg with fin := false }.trim (rightEdge - seg.seqno).toUInt16
    if seg.seqno + seg.tcplen.toUInt16.toUInt32 = rightEdge then .ok seg
    else .error .notTrimmedToRcvWnd
  else .ok seg

/-- The place of a segment is before `next`, and after the segment before it. -/
def goesBefore (seqno : UInt32) : Option Seg → Seg → Bool
  | none, next => tcpSeqLt seqno next.seqno
  | some prev, next => tcpSeqBetween seqno (prev.seqno + 1) (next.seqno - 1)

/-- The walk through the queue, with the segment before the next one.  `memory` tells
whether `tcp_seg_copy` gets memory. -/
def queueOoseq (inseg : Seg) (rightEdge : UInt32) (memory : Bool) :
    Option Seg → List Seg → Except Halt (List Seg)
  | prev, [] => .ok prev.toList
  | prev, next :: later =>
      if inseg.seqno = next.seqno then
        -- the one of both that has more data stays
        if next.len < inseg.len ∧ memory then
          .ok (prev.toList ++ tcpOosInsertSegment inseg (next :: later))
        else .ok (prev.toList ++ next :: later)
      else if goesBefore inseg.seqno prev next then
        if memory then
          .ok ((prev.map fun prev => prev.trimBefore inseg.seqno).toList ++
            tcpOosInsertSegment inseg (next :: later))
        else .ok (prev.toList ++ next :: later)
      else if later = [] ∧ tcpSeqGt inseg.seqno next.seqno then
        -- a segment with FIN has all data already
        if next.fin ∨ ¬memory then .ok (prev.toList ++ [next])
        else do
          let last ← inseg.trimLast rightEdge
          pure (prev.toList ++ [next.trimBefore inseg.seqno, last])
      else do
        let rest ← queueOoseq inseg rightEdge memory (some next) later
        pure (prev.toList ++ rest)

/-- A segment that is not the next in sequence. -/
def Pcb.outOfSequence (pcb : Pcb) (inseg : Seg) (memory : Bool) : Except Halt Pcb := do
  let ooseq ← (if pcb.ooseq = [] then .ok (if memory then [inseg] else [])
    else queueOoseq inseg (pcb.rcvNxt + pcb.rcvWnd.toUInt32) memory none pcb.ooseq)
  pure { pcb with ooseq }

/-- What `tcp_receive` has done with the data of a segment.  An empty acknowledgment is sent
last. -/
structure Accepted where
  passed : Passed
  pcb : Pcb
  emptyAck : Bool
  deriving DecidableEq, Repr

/-- The sequence number is in the window. -/
def Pcb.inWindow (pcb : Pcb) (seqno : UInt32) : Bool :=
  tcpSeqBetween seqno pcb.rcvNxt (pcb.rcvNxt + pcb.rcvWnd.toUInt32 - 1)

/-- A segment that does not begin before `rcv_nxt`, or is a duplicate. -/
def Pcb.place (pcb : Pcb) (inseg : Seg) (memory : Bool) : Except Halt Accepted :=
  if pcb.inWindow inseg.seqno then
    if pcb.rcvNxt = inseg.seqno then do
      let taken ← pcb.inSequence inseg
      pure { passed := taken.1, pcb := taken.2, emptyAck := false }
    else do
      let pcb ← pcb.outOfSequence inseg memory
      pure { passed := .nothing, pcb, emptyAck := true }
  else pure { passed := .nothing, pcb, emptyAck := true }

/-- The part of `tcp_receive` that is about data. -/
def Pcb.receiveData (pcb : Pcb) (inseg : Seg) (memory : Bool) : Except Halt Accepted :=
  let tcplen := inseg.tcplen.toUInt16
  if 0 < tcplen ∧ pcb.state.receives then
    if tcpSeqBetween pcb.rcvNxt (inseg.seqno + 1) (inseg.seqno + tcplen.toUInt32 - 1) then do
      let inseg ← inseg.trimLeft pcb.rcvNxt
      pcb.place inseg memory
    else if tcpSeqLt inseg.seqno pcb.rcvNxt then pcb.tcpAckNow.place inseg memory
    else pcb.place inseg memory
  else if pcb.inWindow inseg.seqno then
    .ok { passed := .nothing, pcb, emptyAck := false }
  else .ok { passed := .nothing, pcb := pcb.tcpAckNow, emptyAck := false }

end AppPortKit.Transport
