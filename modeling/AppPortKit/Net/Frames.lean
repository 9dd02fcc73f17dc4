import AppPortKit.Foundation.Memory
import AppPortKit.Foundation.Result
import AppPortKit.Net.Received

/-!
# Frames

What is between lwIP's network layer and the network card: `ethernet_output` and
`ethernet_input` of lwIP, which put the Ethernet header before a packet and take it off, and
the interface of `net_glue.c`, which hands frames to the card and takes them from it.
-/

namespace AppPortKit.Net

open Fallible LinkedList Memory

/-! ## Packet buffers -/

/-- The source of `MEMCPY`. -/
def load (memory : List UInt8) (start count : Nat) : Except Fault (List UInt8) :=
  if start + count ≤ memory.length then .ok ((memory.drop start).take count)
  else .error .outOfBounds

/-- The destination of `MEMCPY`. -/
def memcpy (memory : List UInt8) (start : Nat) (bytes : List UInt8) : Except Fault (List UInt8) :=
  if start + bytes.length ≤ memory.length then .ok (overwrite memory start bytes)
  else .error .outOfBounds

namespace Pbufs

/-- `pbuf_alloc` for `PBUF_RAM`, with what the memory holds that `mem_malloc` returns, if
any. -/
def pbufAlloc (h : Pbufs) (length : UInt16) (memory : Option (Nat → UInt8)) : Option Nat × Pbufs :=
  match memory with
  | none => (none, h)
  | some held =>
      let p : Pbuf :=
        { next := none
          payload := (List.range length.toNat).map held
          totLen := length
          len := length
          ref := 1 }
      (some h.fresh,
        { h with cells := Function.update h.cells h.fresh (some p), fresh := h.fresh + 1 })

/-- The loop of `pbuf_take`. -/
def pbufTakeLoop : Nat → Pbufs → Option Nat → List UInt8 → Except Fault Pbufs
  | _, h, _, [] => .ok h
  | 0, _, _, _ :: _ => .error .endlessChain
  | _ + 1, _, none, _ :: _ => .error .pbufAssertion
  | fuel + 1, h, some p, byte :: rest => do
      let b ← h.get p
      let bufCopyLen := min (byte :: rest).length b.len.toNat
      let payload ← memcpy b.payload 0 ((byte :: rest).take bufCopyLen)
      pbufTakeLoop fuel (h.set p { b with payload }) b.next ((byte :: rest).drop bufCopyLen)

/-- `true` stands for `ERR_OK`. -/
def pbufTake (h : Pbufs) (p : Nat) (dataptr : List UInt8) (len : UInt16) :
    Except Fault (Bool × Pbufs) := do
  let b ← h.get p
  if b.totLen < len then .ok (false, h)
  else
    let data ← load dataptr 0 len.toNat
    let h ← pbufTakeLoop (h.fresh + 1) h (some p) data
    .ok (true, h)

/-- The loop of `pbuf_copy_partial`. -/
def pbufCopyPartialLoop (h : Pbufs) : Nat → Option Nat → List UInt8 →
    (len offset left copiedTotal : UInt16) → Except Fault (UInt16 × List UInt8)
  | _, none, dataptr, _, _, _, copiedTotal => .ok (copiedTotal, dataptr)
  | 0, some _, _, _, _, _, _ => .error .endlessChain
  | fuel + 1, some p, dataptr, len, offset, left, copiedTotal =>
      if len = 0 then .ok (copiedTotal, dataptr)
      else do
        let b ← h.get p
        if offset ≠ 0 ∧ offset ≥ b.len then
          pbufCopyPartialLoop h fuel b.next dataptr len (offset - b.len) left copiedTotal
        else
          let bufCopyLen := if b.len - offset > len then len else b.len - offset
          let bytes ← load b.payload offset.toNat bufCopyLen.toNat
          let dataptr ← memcpy dataptr left.toNat bytes
          pbufCopyPartialLoop h fuel b.next dataptr (len - bufCopyLen) 0 (left + bufCopyLen)
            (copiedTotal + bufCopyLen)

def pbufCopyPartial (h : Pbufs) (buf : Nat) (dataptr : List UInt8) (len offset : UInt16) :
    Except Fault (UInt16 × List UInt8) :=
  pbufCopyPartialLoop h (h.fresh + 1) (some buf) dataptr len offset 0 0

/-- `pbuf_add_header`, with what the memory before the payload holds if the buffer has room
there.  `true` stands for success. -/
def pbufAddHeader (h : Pbufs) (p : Nat) (headerSize : UInt16) (room : Option (Nat → UInt8)) :
    Except Fault (Bool × Pbufs) := do
  let b ← h.get p
  if headerSize + b.totLen < headerSize then .ok (false, h)
  else
    match room with
    | none => .ok (false, h)
    | some held =>
        .ok (true, h.set p { b with
          payload := (List.range headerSize.toNat).map held ++ b.payload
          len := b.len + headerSize
          totLen := b.totLen + headerSize })

/-- `true` stands for success. -/
def pbufRemoveHeader (h : Pbufs) (p : Nat) (headerSize : UInt16) : Except Fault (Bool × Pbufs) := do
  let b ← h.get p
  if ¬ headerSize ≤ b.len then .ok (false, h)
  else
    .ok (true, h.set p { b with
      payload := b.payload.drop headerSize.toNat
      len := b.len - headerSize
      totLen := b.totLen - headerSize })

end Pbufs

/-! ## Ethernet -/

/-- `struct eth_addr`. -/
abbrev EthAddr := { addr : List UInt8 // addr.length = 6 }

def htons (n : UInt16) : UInt16 := (n &&& 0x00ff) <<< 8 ||| (n &&& 0xff00) >>> 8

/-- A `u16_t` in memory. -/
def u16Bytes (n : UInt16) : List UInt8 := [n.toUInt8, (n >>> 8).toUInt8]

def u16At (memory : List UInt8) (start : Nat) : Except Fault UInt16 := do
  match ← load memory start 2 with
  | [low, high] => .ok (low.toUInt16 ||| high.toUInt16 <<< 8)
  | _ => .error .outOfBounds

def sizeofEthHdr : UInt16 := 14

/-- The size of `txbuf`. -/
def txbufSize : UInt16 := 1522

inductive LinkErr where
  | ok
  | buf
  deriving DecidableEq, Repr

/-- The frame that `b_net_tx` is given, if it is called, and `txbuf` afterwards. -/
def lowLevelOutput (txbuf : List UInt8) (h : Pbufs) (p : Nat) :
    Except Fault ((LinkErr × Option (List UInt8)) × List UInt8) := do
  let b ← h.get p
  if b.totLen > txbufSize then .ok ((.buf, none), txbuf)
  else
    let copied ← h.pbufCopyPartial p txbuf b.totLen 0
    let frame ← load copied.2 0 b.totLen.toNat
    .ok ((.ok, some frame), copied.2)

/-- A packet for `ethernet_output`: the buffers, the first of them, and what is in front of
its payload if it has room for a header. -/
structure Outgoing where
  pbufs : Pbufs
  p : Nat
  src : EthAddr
  dst : EthAddr
  ethType : UInt16
  room : Option (Nat → UInt8)

/-- The header that `ethernet_output` writes. -/
def writeEthHdr (payload : List UInt8) (dst src : EthAddr) (ethTypeBe : UInt16) :
    Except Fault (List UInt8) := do
  let payload ← memcpy payload 12 (u16Bytes ethTypeBe)
  let payload ← memcpy payload 0 dst.val
  memcpy payload 6 src.val

def ethernetOutput (txbuf : List UInt8) (packet : Outgoing) :
    Except Fault ((LinkErr × Option (List UInt8)) × List UInt8) := do
  let ethTypeBe := htons packet.ethType
  let added ← packet.pbufs.pbufAddHeader packet.p sizeofEthHdr packet.room
  if added.1 then
    let b ← added.2.get packet.p
    let payload ← writeEthHdr b.payload packet.dst packet.src ethTypeBe
    lowLevelOutput txbuf (added.2.set packet.p { b with payload }) packet.p
  else .ok ((.buf, none), txbuf)

/-- Where a packet is passed to: `ip4_input` or `etharp_input`. -/
inductive Upper where
  | ip4
  | arp
  deriving DecidableEq, Repr

/-- The packet that is passed up, if any, with its bytes.  The interface has the flag
`NETIF_FLAG_ETHARP`, and `ethernet_input` always returns `ERR_OK`. -/
def ethernetInput (h : Pbufs) (p : Nat) (upper : Upper → Pbufs → Nat → Except Fault Pbufs) :
    Except Fault (Option (Upper × List UInt8) × Pbufs) := do
  let b ← h.get p
  if b.len ≤ sizeofEthHdr then
    let h ← h.pbufFree p
    .ok (none, h)
  else
    let type ← u16At b.payload 12
    if type = htons 0x0800 then passUp .ip4
    else if type = htons 0x0806 then passUp .arp
    else
      let h ← h.pbufFree p
      .ok (none, h)
where
  passUp (layer : Upper) : Except Fault (Option (Upper × List UInt8) × Pbufs) := do
    let removed ← h.pbufRemoveHeader p sizeofEthHdr
    if removed.1 then
      let b ← removed.2.get p
      let h ← upper layer removed.2 p
      .ok (some (layer, b.payload), h)
    else
      let h ← h.pbufFree p
      .ok (none, h)

/-- A frame that `b_net_rx` returns, with what the memory for it holds if there is any, and
what the network layer does with a packet. -/
structure Arrival where
  frame : List UInt8
  memory : Option (Nat → UInt8)
  upper : Upper → Pbufs → Nat → Except Fault Pbufs

/-- The loop of `net_poll`: the packets that are passed up, in order. -/
def netPollLoop : List Arrival → Pbufs → Except Fault (List (Upper × List UInt8) × Pbufs)
  | [], h => .ok ([], h)
  | arrival :: rest, h =>
      if arrival.frame.length = 0 then .ok ([], h)
      else
        let len := UInt16.ofNat arrival.frame.length
        match h.pbufAlloc len arrival.memory with
        | (none, h) => netPollLoop rest h
        | (some p, h) => do
            let taken ← h.pbufTake p arrival.frame len
            let passed ← ethernetInput taken.2 p arrival.upper
            let later ← netPollLoop rest passed.2
            .ok (passed.1.toList ++ later.1, later.2)

end AppPortKit.Net
