import AppPortKit.Foundation.Machine
import AppPortKit.Foundation.Result
import AppPortKit.Transport.Receive

/-!
# Connections and their events

Segments arrive for a connection, the application takes data and closes it, and the segments
that are sent announce the window.  What is sent is not modelled: whether a segment
acknowledges all of it is an input, and so is which of the calls that need memory or a
network interface succeed.
-/

namespace AppPortKit.Transport

/-! ## The control block -/

/-- `TCP_WND_UPDATE_THRESHOLD`. -/
def tcpWndUpdateThreshold : UInt32 := 1460

namespace Pcb

def tcpFreeOoseq (pcb : Pcb) : Pcb := { pcb with ooseq := [] }

/-- The announced edge of the window, when a header is filled in. -/
def announce (pcb : Pcb) : Pcb :=
  { pcb with rcvAnnRightEdge := pcb.rcvNxt + pcb.rcvAnnWnd.toUInt32 }

/-- `allocated` tells whether there is a buffer for the header. -/
def tcpSendEmptyAck (pcb : Pcb) (allocated sent : Bool) : Pcb :=
  if allocated then
    { pcb.announce with ackDelay := !sent, ackNow := !sent }
  else { pcb with ackDelay := true, ackNow := true }

/-- One round of the loop of `tcp_output`: `tcp_output_segment` fills in the header. -/
def tcpOutputSegment (pcb : Pcb) (sent : Bool) : Pcb :=
  if sent then { pcb.announce with ackDelay := false, ackNow := false } else pcb.announce

/-- The application has taken bytes.  The `tcp_output` at the end is an event of its own. -/
def tcpRecved (pcb : Pcb) (len : UInt16) : Except Halt Pcb := do
  let rcvWnd := pcb.rcvWnd + len
  let updated ← tcpUpdateRcvAnnWnd
    { pcb with rcvWnd := if tcpWnd < rcvWnd ∨ rcvWnd < pcb.rcvWnd then tcpWnd else rcvWnd }
  pure (if tcpWndUpdateThreshold ≤ updated.1 then updated.2.tcpAckNow else updated.2)

/-- What `tcp_process` does after `tcp_receive`, in the state that it found.  `tcp_pcb_purge`
frees the queue. -/
def afterReceive (pcb : Pcb) (found : TcpState) (gotFin allAcked : Bool) : Pcb :=
  match found with
  | .established | .closeWait =>
      if gotFin then { pcb.tcpAckNow with state := .closeWait } else pcb
  | .finWait1 =>
      if gotFin then
        if allAcked then { pcb.tcpAckNow.tcpFreeOoseq with state := .timeWait }
        else { pcb.tcpAckNow with state := .closing }
      else if allAcked then { pcb with state := .finWait2 }
      else pcb
  | .finWait2 =>
      if gotFin then { pcb.tcpAckNow.tcpFreeOoseq with state := .timeWait } else pcb
  | .closing => if allAcked then { pcb.tcpFreeOoseq with state := .timeWait } else pcb
  | .lastAck | .timeWait => pcb

end Pcb

/-- Which of the calls for a segment succeed: `tcp_seg_copy`, and the two that
`tcp_send_empty_ack` makes. -/
structure Resources where
  segCopy : Bool
  ackBuffer : Bool
  ackSent : Bool
  deriving DecidableEq, Repr

namespace Pcb

/-- `allAcked` tells whether the segment acknowledges all that was sent and nothing is left
to send. -/
def tcpProcess (pcb : Pcb) (inseg : Seg) (allAcked : Bool) (resources : Resources) :
    Except Halt (Passed × Pcb) := do
  let accepted ← pcb.receiveData inseg resources.segCopy
  let received := if accepted.emptyAck then
      accepted.pcb.tcpSendEmptyAck resources.ackBuffer resources.ackSent
    else accepted.pcb
  pure (accepted.passed,
    received.afterReceive pcb.state accepted.passed.gotFin allAcked)

def tcpTimewaitInput (pcb : Pcb) (inseg : Seg) : Pcb :=
  if 0 < inseg.tcplen.toUInt16 then pcb.tcpAckNow else pcb

/-- `queued` tells whether `tcp_send_fin` succeeds; if not, `tcp_fasttmr` tries again. -/
def tcpCloseShutdownFin (pcb : Pcb) (queued : Bool) : Pcb :=
  match pcb.state with
  | .established => if queued then { pcb with state := .finWait1 } else pcb
  | .closeWait => if queued then { pcb with state := .lastAck } else pcb
  | .finWait1 | .finWait2 | .closing | .lastAck | .timeWait => pcb

/-- `tcp_input` corrects the window for a FIN. -/
def correctRcvWnd (pcb : Pcb) : Pcb :=
  if pcb.rcvWnd ≠ tcpWnd then { pcb with rcvWnd := pcb.rcvWnd + 1 } else pcb

end Pcb

/-! ## The connection -/

/-- A control block; it is no longer `alive` when it has been freed. -/
structure Endpoint where
  pcb : Pcb
  /-- `TF_RXCLOSED` -/
  rxClosed : Bool
  alive : Bool
  deriving DecidableEq, Repr

/-- What happens to a connection. -/
inductive Event where
  /-- A segment arrives. -/
  | input (inseg : Seg) (allAcked : Bool) (resources : Resources)
  | recved (len : UInt16)
  | outputSegment (sent : Bool)
  | sendEmptyAck (allocated sent : Bool)
  /-- `tcp_slowtmr` and `pbuf_free_ooseq` drop what has waited too long. -/
  | freeOoseq
  | close (queued : Bool)
  /-- `tcp_fasttmr` closes a connection with `TF_CLOSEPEND`. -/
  | closeShutdownFin (queued : Bool)
  /-- A reset, an abort or a timeout ends the connection. -/
  | remove
  deriving DecidableEq, Repr

namespace Endpoint

/-- A segment is processed, and what it brings is passed on. -/
def tcpInput (endpoint : Endpoint) (inseg : Seg) (allAcked : Bool) (resources : Resources) :
    Except Halt (Passed × Endpoint) :=
  if endpoint.pcb.state = .timeWait then
    .ok (.nothing, { endpoint with pcb := endpoint.pcb.tcpTimewaitInput inseg })
  else do
    let processed ← endpoint.pcb.tcpProcess inseg allAcked resources
    if endpoint.pcb.state = .lastAck ∧ allAcked then
      -- `TF_CLOSED`
      pure (.nothing, { endpoint with pcb := processed.2, alive := false })
    else if processed.1.data ≠ [] ∧ endpoint.rxClosed then
      -- the peer is told that data is lost
      pure (.nothing, { endpoint with pcb := processed.2, alive := false })
    else
      let pcb := if processed.1.gotFin then processed.2.correctRcvWnd else processed.2
      pure (processed.1, { endpoint with pcb })

/-- If the application has not taken all data, the connection is reset. -/
def tcpClose (endpoint : Endpoint) (queued : Bool) : Endpoint :=
  if (endpoint.pcb.state = .established ∨ endpoint.pcb.state = .closeWait) ∧
      endpoint.pcb.rcvWnd ≠ tcpWnd then
    { endpoint with pcb := endpoint.pcb.tcpFreeOoseq, rxClosed := true, alive := false }
  else { endpoint with pcb := endpoint.pcb.tcpCloseShutdownFin queued, rxClosed := true }

/-- What an event makes of a connection, and what is passed to the application. -/
def step (endpoint : Endpoint) : Event → Except Halt (Passed × Endpoint)
  | .input inseg allAcked resources => endpoint.tcpInput inseg allAcked resources
  | .recved len => do
      let pcb ← endpoint.pcb.tcpRecved len
      pure (.nothing, { endpoint with pcb })
  | .outputSegment sent =>
      .ok (.nothing, { endpoint with pcb := endpoint.pcb.tcpOutputSegment sent })
  | .sendEmptyAck allocated sent =>
      .ok (.nothing, { endpoint with pcb := endpoint.pcb.tcpSendEmptyAck allocated sent })
  | .freeOoseq => .ok (.nothing, { endpoint with pcb := endpoint.pcb.tcpFreeOoseq })
  | .close queued => .ok (.nothing, endpoint.tcpClose queued)
  | .closeShutdownFin queued =>
      .ok (.nothing, { endpoint with pcb := endpoint.pcb.tcpCloseShutdownFin queued })
  | .remove => .ok (.nothing, { endpoint with alive := false })

end Endpoint

/-- A connection, with all that was passed to the application. -/
structure Session where
  endpoint : Endpoint
  read : List UInt8
  eof : Bool
  deriving DecidableEq, Repr

namespace Session

open Fallible

/-- The peer's first sequence number is `irs`.  A passive open has announced the window with
its SYN; after an active open an acknowledgment is due. -/
def established (irs : UInt32) (mss : UInt16) (passive : Bool) : Session where
  endpoint :=
    { pcb :=
        { state := .established
          ackDelay := false
          ackNow := !passive
          mss
          rcvNxt := irs + 1
          rcvWnd := tcpWnd
          rcvAnnWnd := tcpWnd
          rcvAnnRightEdge := if passive then irs + 1 + tcpWnd.toUInt32 else irs + 1
          ooseq := [] }
      rxClosed := false
      alive := true }
  read := []
  eof := false

/-- What is passed to the application comes after what there is. -/
def after (session : Session) (stepped : Passed × Endpoint) : Session where
  endpoint := stepped.2
  read := session.read ++ stepped.1.data.flatten
  eof := session.eof || stepped.1.gotFin

/-- Nothing happens to a connection that has ended. -/
def step (session : Session) (event : Event) : Except Halt Session :=
  if session.endpoint.alive then do
    let stepped ← session.endpoint.step event
    pure (session.after stepped)
  else .ok session

theorem step_eq_ok {session later : Session} {event : Event} (alive : session.endpoint.alive) :
    session.step event = .ok later ↔
      ∃ stepped, session.endpoint.step event = .ok stepped ∧ session.after stepped = later := by
  rw [step, if_pos alive, bind_eq_ok]
  exact exists_congr fun stepped => and_congr_right fun _ => ⟨Except.ok.inj, congrArg _⟩

/-- Nothing is passed to the application. -/
theorem after_nothing (session : Session) (endpoint : Endpoint) :
    session.after (.nothing, endpoint) = { session with endpoint } := by
  rw [after, Passed.nothing, List.flatten_nil, List.append_nil, Bool.or_false]

end Session

open Transition

/-- A failed assertion stops the machine for good. -/
def transport : Machine (Except Halt Session) Event Unit where
  step reached event := ((), reached.bind fun session => session.step event)

end AppPortKit.Transport
