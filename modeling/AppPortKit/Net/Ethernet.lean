import AppPortKit.Foundation.Machine
import AppPortKit.Net.Frames

/-!
# The link layer

A packet that is sent as a frame and received again is the same packet: what stood in the
buffers before, how the packet is spread over a chain, and what was sent earlier do not
matter.
-/

namespace AppPortKit.Net

open Fallible LinkedList Memory Transition

/-! ## Copying -/

theorem load_eq_ok {memory : List UInt8} {start count : Nat}
    (inside : start + count ≤ memory.length) :
    load memory start count = .ok ((memory.drop start).take count) := if_pos inside

theorem memcpy_eq_ok {memory bytes : List UInt8} {start : Nat}
    (inside : start + bytes.length ≤ memory.length) :
    memcpy memory start bytes = .ok (overwrite memory start bytes) := if_pos inside

/-- A buffer that holds the given bytes, whoever else refers to it. -/
structure Pbuf.Holds (b : Pbuf) (bytes : List UInt8) : Prop where
  content : b.payload.take b.len.toNat = bytes
  len : b.len.toNat = bytes.length

/-- A packet, as addresses and the bytes held there. -/
abbrev Pbufs.Packet (h : Pbufs) (head : Option Nat) (items : List (Nat × List UInt8)) : Prop :=
  Linked Pbuf.next Pbuf.Holds h.cells head items

theorem Pbuf.Holds.length_le {b : Pbuf} {bytes : List UInt8} (holds : b.Holds bytes) :
    bytes.length ≤ b.payload.length := by
  rw [← holds.content, List.length_take]
  exact Nat.min_le_right ..

/-- Part of the payload of a buffer. -/
theorem Pbuf.Holds.load {b : Pbuf} {bytes : List UInt8} (holds : b.Holds bytes)
    {start count : Nat} (inside : start + count ≤ bytes.length) :
    Net.load b.payload start count = .ok ((bytes.drop start).take count) := by
  rw [load_eq_ok (inside.trans holds.length_le), ← holds.content, List.drop_take, List.take_take,
    holds.len, Nat.min_eq_left (by omega)]

/-- A buffer with a header before its bytes. -/
theorem Pbuf.Holds.prepend {b b' : Pbuf} {bytes header : List UInt8} (holds : b.Holds bytes)
    (payload : b'.payload = header ++ b.payload)
    (len : b'.len.toNat = b.len.toNat + header.length) :
    b'.Holds (header ++ bytes) := by
  constructor
  · rw [payload, len, Nat.add_comm, List.take_length_add_append, holds.content]
  · rw [len, holds.len, List.length_append, Nat.add_comm]

theorem chainBytes_cons (p : Nat) (bytes : List UInt8) (rest : List (Nat × List UInt8)) :
    chainBytes ((p, bytes) :: rest) = bytes ++ chainBytes rest := List.flatMap_cons ..

namespace Pbufs

@[simp] theorem get_set (h : Pbufs) (p : Nat) (b : Pbuf) : (h.set p b).get p = .ok b :=
  get_of_cell (by simp)

@[simp] theorem set_set (h : Pbufs) (p : Nat) (b b' : Pbuf) :
    (h.set p b).set p b' = h.set p b' := by
  simp [set]

variable {h : Pbufs} {items : List (Nat × List UInt8)}

/-- How much of a buffer is copied. -/
theorem toNat_copyLen {bLen len offset : UInt16} {length : Nat} (isLength : bLen.toNat = length)
    (inBuffer : offset.toNat ≤ length) :
    (if bLen - offset > len then len else bLen - offset).toNat =
      min (length - offset.toNat) len.toNat := by
  have left : (bLen - offset).toNat = length - offset.toNat := by
    rw [UInt16.toNat_sub_of_le _ _ (UInt16.le_iff_toNat_le.mpr (by omega)), isLength]
  split
  next more =>
    have more := UInt16.lt_iff_toNat_lt.mp more
    omega
  next less =>
    have less := UInt16.le_iff_toNat_le.mp (UInt16.not_lt.mp less)
    omega

/-- `pbuf_copy_partial` copies the bytes of a packet, wherever they are in the chain. -/
theorem pbufCopyPartialLoop_of_packet {fuel : Nat} {head : Option Nat} {dataptr : List UInt8}
    {len offset left copiedTotal : UInt16} (enough : items.length ≤ fuel)
    (packet : h.Packet head items) (inside : left.toNat + len.toNat ≤ dataptr.length)
    (small : left.toNat + len.toNat < 65536) :
    pbufCopyPartialLoop h fuel head dataptr len offset left copiedTotal =
      .ok (copiedTotal +
          UInt16.ofNat (((chainBytes items).drop offset.toNat).take len.toNat).length,
        overwrite dataptr left.toNat (((chainBytes items).drop offset.toNat).take len.toNat)) := by
  induction items generalizing fuel head dataptr len offset left copiedTotal with
  | nil =>
      rw [show head = none from packet, pbufCopyPartialLoop]
      simp [chainBytes]
  | cons entry rest ih =>
      obtain ⟨p, bytes⟩ := entry
      obtain ⟨start, b, stored, holds, packet⟩ := packet
      obtain ⟨fuel, rfl⟩ : ∃ more, fuel = more + 1 := ⟨fuel - 1, by simp at enough; omega⟩
      have enough : rest.length ≤ fuel := by simpa using enough
      rw [start, pbufCopyPartialLoop, chainBytes_cons]
      split
      next finished => simp [finished]
      next nonempty =>
        rw [get_of_cell stored]
        simp only [bind, Except.bind]
        split
        next skip =>
          have past : bytes.length ≤ offset.toNat := by
            rw [← holds.len]
            exact UInt16.le_iff_toNat_le.mp skip.2
          have left : (offset - b.len).toNat = offset.toNat - bytes.length := by
            rw [UInt16.toNat_sub_of_le _ _ skip.2, holds.len]
          rw [ih enough packet inside small, left, List.drop_append,
            List.drop_eq_nil_of_le past, List.nil_append]
        next here =>
          have inBuffer : offset.toNat ≤ bytes.length := by
            rw [← holds.len]
            rcases Decidable.not_and_iff_or_not.mp here with zero | before
            · simp [Decidable.not_not.mp zero]
            · exact (UInt16.not_le.mp before |> UInt16.lt_iff_toNat_lt.mp).le
          have copyLen : (if b.len - offset > len then len else b.len - offset).toNat =
              min (bytes.length - offset.toNat) len.toNat := toNat_copyLen holds.len inBuffer
          generalize (if b.len - offset > len then len else b.len - offset) = copied at copyLen
          have chunk : ((bytes.drop offset.toNat).take copied.toNat).length = copied.toNat := by
            rw [List.length_take, List.length_drop]
            omega
          have remaining : (len - copied).toNat = len.toNat - copied.toNat :=
            UInt16.toNat_sub_of_le _ _ (UInt16.le_iff_toNat_le.mpr (by omega))
          have next : (left + copied).toNat = left.toNat + copied.toNat := by
            rw [UInt16.toNat_add, Nat.mod_eq_of_lt (by omega)]
          rw [holds.load (by omega)]
          simp only
          rw [memcpy_eq_ok (by omega)]
          simp only
          rw [ih enough packet ?_ (by omega)]
          · have split : ((bytes ++ chainBytes rest).drop offset.toNat).take len.toNat =
                (bytes.drop offset.toNat).take copied.toNat ++
                  (chainBytes rest).take (len.toNat - copied.toNat) := by
              rw [List.drop_append_of_le_length inBuffer, List.take_append, List.length_drop]
              congr 1
              · rw [List.take_eq_take_iff, List.length_drop]
                omega
              · congr 1
                omega
            rw [split, remaining, next, UInt16.toNat_zero, List.drop_zero,
              ← overwrite_overwrite (by omega), List.length_append, chunk, UInt16.ofNat_add,
              UInt16.ofNat_toNat, UInt16.add_assoc]
          · rw [length_overwrite (by omega)]
            omega

theorem pbufCopyPartial_of_packet {p : Nat} {dataptr : List UInt8} {len : UInt16}
    (below : ∀ address ∈ addresses items, address < h.fresh) (packet : h.Packet (some p) items)
    (inside : len.toNat ≤ dataptr.length) (all : len.toNat = (chainBytes items).length) :
    h.pbufCopyPartial p dataptr len 0 = .ok (len, overwrite dataptr 0 (chainBytes items)) := by
  have small := len.toNat_lt
  rw [pbufCopyPartial, pbufCopyPartialLoop_of_packet (Nat.le_succ_of_le (packet.length_le below))
    packet (by simpa using inside) (by simpa using small)]
  rw [UInt16.toNat_zero, List.drop_zero, all, List.take_length, ← all, UInt16.ofNat_toNat,
    UInt16.zero_add]

end Pbufs

/-! ## Network byte order -/

/-- Two bytes with the high one first. -/
def beU16 (high low : UInt8) : UInt16 := high.toUInt16 <<< 8 ||| low.toUInt16

theorem toNat_beU16 (high low : UInt8) : (beU16 high low).toNat = high.toNat * 256 + low.toNat := by
  have highBound := high.toNat_lt
  have lowBound := low.toNat_lt
  have fits : high.toNat <<< 8 % 65536 = high.toNat <<< 8 := by
    rw [Nat.shiftLeft_eq]
    omega
  rw [beU16, UInt16.toNat_or, UInt16.toNat_shiftLeft, UInt8.toNat_toUInt16, UInt8.toNat_toUInt16]
  simp only [UInt16.reduceToNat, Nat.reduceMod, Nat.reducePow]
  rw [fits, ← Nat.shiftLeft_add_eq_or_of_lt lowBound, Nat.shiftLeft_eq]

theorem toNat_htons (n : UInt16) : (htons n).toNat = n.toNat % 256 * 256 + n.toNat / 256 := by
  have bound := n.toNat_lt
  have low : n.toNat &&& 255 = n.toNat % 256 := Nat.and_two_pow_sub_one_eq_mod _ 8
  have high : (n.toNat &&& 65280) >>> 8 = n.toNat / 256 := by
    rw [Nat.shiftRight_and_distrib, Nat.shiftRight_eq_div_pow]
    have masked := Nat.and_two_pow_sub_one_eq_mod (n.toNat / 2 ^ 8) 8
    simp only [Nat.reducePow, Nat.reduceSub, Nat.reduceShiftRight] at masked ⊢
    omega
  rw [htons, UInt16.toNat_or, UInt16.toNat_shiftLeft, UInt16.toNat_shiftRight, UInt16.toNat_and,
    UInt16.toNat_and]
  simp only [UInt16.reduceToNat, Nat.reduceMod, Nat.reducePow]
  rw [low, high, Nat.mod_eq_of_lt, ← Nat.shiftLeft_add_eq_or_of_lt, Nat.shiftLeft_eq]
  · omega
  · rw [Nat.shiftLeft_eq]
    omega

theorem htons_inj {n m : UInt16} : htons n = htons m ↔ n = m := by
  have one := n.toNat_lt
  have two := m.toNat_lt
  rw [← UInt16.toNat_inj, ← UInt16.toNat_inj, toNat_htons, toNat_htons]
  omega

theorem u16Bytes_htons (n : UInt16) : u16Bytes (htons n) = [(n >>> 8).toUInt8, n.toUInt8] := by
  have high : n.toNat / 256 < 256 := by
    have bound := n.toNat_lt
    omega
  have low : (n.toNat % 256 * 256 + n.toNat / 256) / 256 = n.toNat % 256 := by
    rw [Nat.add_comm, Nat.add_mul_div_right _ _ (by decide), Nat.div_eq_of_lt high, Nat.zero_add]
  simp only [u16Bytes, List.cons.injEq, and_true, ← UInt8.toNat_inj, UInt16.toNat_toUInt8,
    UInt16.toNat_shiftRight, toNat_htons, Nat.shiftRight_eq_div_pow, UInt16.reduceToNat,
    Nat.reduceMod, Nat.reducePow, low]
  omega

theorem beU16_bytes (n : UInt16) : beU16 (n >>> 8).toUInt8 n.toUInt8 = n := by
  have bound := n.toNat_lt
  rw [← UInt16.toNat_inj, toNat_beU16]
  simp only [UInt16.toNat_toUInt8, UInt16.toNat_shiftRight, Nat.shiftRight_eq_div_pow,
    UInt16.reduceToNat, Nat.reduceMod, Nat.reducePow]
  omega

/-- What the type field is read as. -/
theorem htons_beU16 (first second : UInt8) :
    htons (beU16 first second) = first.toUInt16 ||| second.toUInt16 <<< 8 := by
  have one := first.toNat_lt
  have two := second.toNat_lt
  rw [UInt16.or_comm, ← beU16, ← UInt16.toNat_inj, toNat_htons, toNat_beU16, toNat_beU16]
  omega

/-! ## Frames that are sent -/

namespace Outgoing

variable {packet : Outgoing} {payload txbuf : List UInt8}

/-- The packet is a chain whose lengths are right, with room for a header. -/
structure Carries (packet : Outgoing) (payload : List UInt8) : Prop where
  chain : ∃ items, packet.pbufs.Packet (some packet.p) items ∧ chainBytes items = payload ∧
    ∀ address ∈ addresses items, address < packet.pbufs.fresh
  total : ∀ b, packet.pbufs.cells packet.p = some b → b.totLen.toNat = payload.length
  room : packet.room.isSome = true

/-- The Ethernet header: both addresses, and the type with its high byte first. -/
def header (packet : Outgoing) : List UInt8 :=
  packet.dst.val ++ (packet.src.val ++
    [(packet.ethType >>> 8).toUInt8, packet.ethType.toUInt8])

@[simp] theorem length_header (packet : Outgoing) : packet.header.length = 14 := by
  simp [header, packet.dst.property, packet.src.property]

/-- The header is written over whatever was in front of the payload. -/
theorem writeEthHdr_eq_ok (packet : Outgoing) {front : List UInt8} (rest : List UInt8)
    (room : front.length = 14) :
    writeEthHdr (front ++ rest) packet.dst packet.src (htons packet.ethType) =
      .ok (packet.header ++ rest) := by
  have dst := packet.dst.property
  have src := packet.src.property
  obtain ⟨one, two, three, rfl, isOne, isTwo, isThree⟩ : ∃ one two three : List UInt8,
      front = one ++ (two ++ three) ∧ one.length = 6 ∧ two.length = 6 ∧ three.length = 2 :=
    ⟨front.take 6, (front.drop 6).take 6, (front.drop 6).drop 6,
      by rw [List.take_append_drop, List.take_append_drop], by simp [room], by simp [room],
      by simp [room]⟩
  have type : overwrite (one ++ (two ++ three) ++ rest) 12
      [(packet.ethType >>> 8).toUInt8, packet.ethType.toUInt8] =
      [] ++ (one ++
        (two ++ ([(packet.ethType >>> 8).toUInt8, packet.ethType.toUInt8] ++ rest))) := by
    rw [← List.append_assoc, List.append_assoc _ three,
      overwrite_middle rest (by simp [isOne, isTwo]) isThree, List.append_assoc]
    rfl
  rw [writeEthHdr, u16Bytes_htons, memcpy_eq_ok (by simp; omega), type]
  simp only [bind, Except.bind]
  rw [memcpy_eq_ok (by simp; omega), overwrite_middle _ List.length_nil (isOne.trans dst.symm)]
  simp only [List.nil_append]
  rw [memcpy_eq_ok (by simp; omega), overwrite_middle _ dst (isTwo.trans src.symm), header]
  simp only [List.append_assoc]

/-- `low_level_output` sends the bytes of a packet, whatever `txbuf` held. -/
theorem lowLevelOutput_of_packet {h : Pbufs} {p : Nat} {items : List (Nat × List UInt8)} {b : Pbuf}
    (below : ∀ address ∈ addresses items, address < h.fresh) (packet : h.Packet (some p) items)
    (stored : h.cells p = some b) (total : b.totLen.toNat = (chainBytes items).length)
    (size : txbuf.length = 1522) :
    lowLevelOutput txbuf h p = .ok (
      if (chainBytes items).length ≤ 1522 then
        ((.ok, some (chainBytes items)), overwrite txbuf 0 (chainBytes items))
      else ((.buf, none), txbuf)) := by
  rw [lowLevelOutput, Pbufs.get_of_cell stored]
  simp only [bind, Except.bind]
  have bound : b.totLen > txbufSize ↔ ¬ (chainBytes items).length ≤ 1522 := by
    rw [gt_iff_lt, UInt16.lt_iff_toNat_lt, total, Nat.not_le]
    rfl
  split
  next long => rw [if_neg (bound.mp long)]
  next short =>
    have short : (chainBytes items).length ≤ 1522 := Decidable.not_not.mp (mt bound.mpr short)
    rw [Pbufs.pbufCopyPartial_of_packet below packet (by omega) total]
    simp only
    rw [load_eq_ok (by rw [length_overwrite (by omega)]; omega), total, List.drop_zero,
      take_overwrite_zero, if_pos short]

/-- `ethernet_output` sends the packet behind its header, if that is not too long. -/
theorem ethernetOutput_of_carries (carries : packet.Carries payload) (size : txbuf.length = 1522) :
    ethernetOutput txbuf packet = .ok (
      if payload.length ≤ 1508 then
        ((.ok, some (packet.header ++ payload)), overwrite txbuf 0 (packet.header ++ payload))
      else ((.buf, none), txbuf)) := by
  obtain ⟨items, chain, rfl, below⟩ := carries.chain
  obtain ⟨held, room⟩ := Option.isSome_iff_exists.mp carries.room
  cases items with
  | nil => exact absurd chain nofun
  | cons entry rest =>
      obtain ⟨p, bytes⟩ := entry
      have distinct := (List.nodup_cons.mp chain.nodup).1
      obtain ⟨start, b, stored, holds, tail⟩ := chain
      obtain rfl : packet.p = p := Option.some.inj start
      have total := carries.total b stored
      have inside : bytes.length ≤ b.totLen.toNat := by
        rw [total, chainBytes_cons, List.length_append]
        exact Nat.le_add_right ..
      have wraps : sizeofEthHdr + b.totLen < sizeofEthHdr ↔ 65522 ≤ b.totLen.toNat := by
        have bound := b.totLen.toNat_lt
        rw [UInt16.lt_iff_toNat_lt, UInt16.toNat_add]
        simp only [sizeofEthHdr, UInt16.reduceToNat]
        omega
      rw [ethernetOutput, Pbufs.pbufAddHeader, Pbufs.get_of_cell stored, room]
      simp only [bind, Except.bind]
      by_cases long : 65522 ≤ b.totLen.toNat
      · rw [if_pos (wraps.mpr long), if_neg (by omega)]
        rfl
      · have add (n : UInt16) (below : n.toNat < 65522) :
            (n + sizeofEthHdr).toNat = n.toNat + 14 := by
          rw [UInt16.toNat_add]
          exact Nat.mod_eq_of_lt (Nat.add_lt_add_right below 14)
        rw [if_neg (mt wraps.mp long)]
        simp only [↓reduceIte, Pbufs.get_set, Pbufs.set_set]
        rw [writeEthHdr_eq_ok packet _ (by simp [sizeofEthHdr])]
        let headed : Pbuf := { b with
          payload := packet.header ++ b.payload
          len := b.len + sizeofEthHdr
          totLen := b.totLen + sizeofEthHdr }
        have holds' : headed.Holds (packet.header ++ bytes) :=
          holds.prepend rfl ((add b.len (holds.len ▸ by omega)).trans (by rw [length_header]))
        have chain : (packet.pbufs.set packet.p headed).Packet (some packet.p)
            ((packet.p, packet.header ++ bytes) :: rest) :=
          ⟨rfl, headed, Function.update_self .., holds', tail.update distinct _⟩
        have content : chainBytes ((packet.p, packet.header ++ bytes) :: rest) =
            packet.header ++ chainBytes ((packet.p, bytes) :: rest) := by
          rw [chainBytes_cons, chainBytes_cons, List.append_assoc]
        have size' : (chainBytes ((packet.p, packet.header ++ bytes) :: rest)).length =
            b.totLen.toNat + 14 := by
          rw [content, List.length_append, length_header, ← total, Nat.add_comm]
        have below : ∀ address ∈ addresses ((packet.p, packet.header ++ bytes) :: rest),
            address < (packet.pbufs.set packet.p headed).fresh := below
        refine (lowLevelOutput_of_packet below chain (Function.update_self ..)
          ((add b.totLen (by omega)).trans size'.symm) size).trans ?_
        rw [size', content, total]
        congr 1
        exact if_congr (by omega) rfl rfl

end Outgoing

/-- Packets are sent one after the other: the frames that `b_net_tx` is given. -/
def transmit : List UInt8 → List Outgoing → Except Fault (List (List UInt8) × List UInt8)
  | txbuf, [] => .ok ([], txbuf)
  | txbuf, packet :: rest => do
      let sent ← ethernetOutput txbuf packet
      let later ← transmit sent.2 rest
      .ok (sent.1.2.toList ++ later.1, later.2)

/-- The frame a packet is sent as, if it is not too long. -/
def Outgoing.frame (packet : Outgoing) (payload : List UInt8) : Option (List UInt8) :=
  if payload.length ≤ 1508 then some (packet.header ++ payload) else none

theorem transmit_of_carries {packets : List (Outgoing × List UInt8)} {txbuf : List UInt8}
    (carry : ∀ packet ∈ packets, packet.1.Carries packet.2) (size : txbuf.length = 1522) :
    ∃ txbuf', transmit txbuf (packets.map Prod.fst) =
      .ok (packets.filterMap fun packet => packet.1.frame packet.2, txbuf') := by
  induction packets generalizing txbuf with
  | nil => exact ⟨txbuf, rfl⟩
  | cons packet rest ih =>
      have carries := carry packet List.mem_cons_self
      have later : ∀ other ∈ rest, other.1.Carries other.2 := fun other among =>
        carry other (List.mem_cons_of_mem _ among)
      rw [List.map_cons, transmit, Outgoing.ethernetOutput_of_carries carries size,
        List.filterMap_cons, Outgoing.frame]
      simp only [bind, Except.bind]
      by_cases short : packet.2.length ≤ 1508
      · have fits : 0 + (packet.1.header ++ packet.2).length ≤ txbuf.length := by
          rw [List.length_append, Outgoing.length_header]
          omega
        obtain ⟨txbuf', sent⟩ := ih later ((length_overwrite fits).trans size)
        rw [if_pos short, if_pos short, sent]
        exact ⟨txbuf', rfl⟩
      · obtain ⟨txbuf', sent⟩ := ih later size
        rw [if_neg short, if_neg short, sent]
        exact ⟨txbuf', rfl⟩

/-! ## Frames that are received -/

/-- The layer that packets of a type are for: IP or ARP. -/
def upperOf (ethType : UInt16) : Option Upper :=
  if ethType = 0x0800 then some .ip4 else if ethType = 0x0806 then some .arp else none

/-- What a frame is passed up as. -/
def decode (frame : List UInt8) : Option (Upper × List UInt8) :=
  if frame.length ≤ 14 then none
  else (upperOf (beU16 (frame.getD 12 0) (frame.getD 13 0))).map fun layer => (layer, frame.drop 14)

theorem decode_frame (packet : Outgoing) (payload : List UInt8) :
    decode (packet.header ++ payload) =
      if payload.length = 0 then none
      else (upperOf packet.ethType).map fun layer => (layer, payload) := by
  have dst := packet.dst.property
  have src := packet.src.property
  have high : (packet.header ++ payload).getD 12 0 = (packet.ethType >>> 8).toUInt8 := by
    rw [Outgoing.header]
    simp [List.getD, List.getElem?_append, dst, src]
  have low : (packet.header ++ payload).getD 13 0 = packet.ethType.toUInt8 := by
    rw [Outgoing.header]
    simp [List.getD, List.getElem?_append, dst, src]
  rw [decode, high, low, beU16_bytes, List.drop_left' packet.length_header, List.length_append,
    packet.length_header]
  exact if_congr (by omega) rfl rfl

/-- The packet that is passed up for a frame, if there is memory for it. -/
def Arrival.passed (arrival : Arrival) : Option (Upper × List UInt8) :=
  if arrival.memory.isSome then decode arrival.frame else none

/-- No buffer is in use that was not allocated. -/
def Pbufs.Clean (h : Pbufs) : Prop := ∀ p, h.fresh ≤ p → h.cells p = none

/-- A network layer that returns from every call. -/
def Arrival.Returns (arrival : Arrival) : Prop :=
  ∀ layer h p, ∃ h', arrival.upper layer h p = .ok h'

/-- A network layer that gives back the packets it is passed. -/
def Arrival.Releases (arrival : Arrival) : Prop :=
  ∀ layer h h' p, arrival.upper layer h p = .ok h' →
    h'.cells = Function.update h.cells p none ∧ h'.fresh = h.fresh

section Receive

variable {h : Pbufs} {p : Nat} {b : Pbuf} {frame : List UInt8} {arrival : Arrival}

/-- A packet buffer that a frame was copied to. -/
structure Pbuf.Single (b : Pbuf) (frame : List UInt8) : Prop where
  payload : b.payload = frame
  len : b.len.toNat = frame.length
  next : b.next = none
  ref : b.ref = 1

theorem u16At_eq_ok (long : 14 < frame.length) :
    u16At frame 12 = .ok (htons (beU16 (frame.getD 12 0) (frame.getD 13 0))) := by
  rw [htons_beU16, u16At, load_eq_ok (by omega)]
  rw [List.drop_eq_getElem_cons (by omega), List.drop_eq_getElem_cons (by omega),
    List.getD_eq_getElem _ _ (by omega), List.getD_eq_getElem _ _ (by omega)]
  rfl

theorem passUp_of_single (stored : h.cells p = some b) (single : b.Single frame)
    (long : 14 < frame.length) (returns : arrival.Returns) (layer : Upper) :
    ∃ h', ethernetInput.passUp h p arrival.upper layer = .ok (some (layer, frame.drop 14), h') ∧
      (arrival.Releases → h'.cells = Function.update h.cells p none ∧ h'.fresh = h.fresh) := by
  have inside : ¬ ¬ sizeofEthHdr ≤ b.len := by
    rw [Decidable.not_not, UInt16.le_iff_toNat_le, single.len]
    exact long.le
  rw [ethernetInput.passUp, Pbufs.pbufRemoveHeader, Pbufs.get_of_cell stored]
  simp only [bind, Except.bind]
  rw [if_neg inside]
  simp only [↓reduceIte, Pbufs.get_set, single.payload]
  obtain ⟨h', returned⟩ := returns layer (h.set p { b with
    payload := frame.drop sizeofEthHdr.toNat
    len := b.len - sizeofEthHdr
    totLen := b.totLen - sizeofEthHdr }) p
  rw [returned]
  refine ⟨h', rfl, fun releases => ?_⟩
  obtain ⟨cells, fresh⟩ := releases _ _ _ _ returned
  rw [cells, fresh]
  simp

/-- What `ethernet_input` does with a frame. -/
theorem ethernetInput_of_single (stored : h.cells p = some b) (single : b.Single frame)
    (returns : arrival.Returns) :
    ∃ h', ethernetInput h p arrival.upper = .ok (decode frame, h') ∧
      (arrival.Releases → h'.cells = Function.update h.cells p none ∧ h'.fresh = h.fresh) := by
  have freed := Pbufs.pbufFree_of_single stored single.ref single.next
  have short : b.len ≤ sizeofEthHdr ↔ frame.length ≤ 14 := by
    rw [UInt16.le_iff_toNat_le, single.len]
    rfl
  rw [ethernetInput, Pbufs.get_of_cell stored]
  simp only [bind, Except.bind, freed, single.payload]
  by_cases tooShort : frame.length ≤ 14
  · rw [if_pos (short.mpr tooShort), decode, if_pos tooShort]
    exact ⟨h.memFree p, rfl, fun _ => ⟨rfl, rfl⟩⟩
  · have long : 14 < frame.length := Nat.not_le.mp tooShort
    rw [if_neg (mt short.mp tooShort), u16At_eq_ok long, decode, if_neg tooShort]
    simp only [htons_inj, upperOf]
    split
    · exact passUp_of_single stored single long returns .ip4
    · split
      · exact passUp_of_single stored single long returns .arp
      · exact ⟨h.memFree p, rfl, fun _ => ⟨rfl, rfl⟩⟩

/-- `pbuf_take` fills a new buffer with a frame. -/
theorem pbufTake_of_new (stored : h.cells p = some b) (nonempty : frame ≠ []) {len : UInt16}
    (isLen : len.toNat = frame.length) (total : b.totLen = len) (sameLen : b.len = len)
    (room : b.payload.length = frame.length) :
    h.pbufTake p frame len = .ok (true, h.set p { b with payload := frame }) := by
  rw [Pbufs.pbufTake, Pbufs.get_of_cell stored]
  simp only [bind, Except.bind]
  rw [total, if_neg (UInt16.lt_irrefl len), load_eq_ok (by omega), List.drop_zero, isLen,
    List.take_length]
  obtain ⟨byte, rest, rfl⟩ := List.exists_cons_of_ne_nil nonempty
  simp only [Pbufs.pbufTakeLoop, Pbufs.get_of_cell stored, bind, Except.bind, sameLen, isLen,
    Nat.min_self, List.take_length, List.drop_length]
  rw [memcpy_eq_ok (by omega), overwrite_all room]
  simp only [total]

/-- The buffers with a frame in a new one. -/
def Pbufs.receive (h : Pbufs) (frame : List UInt8) : Pbufs :=
  let p : Pbuf :=
    { next := none
      payload := frame
      totLen := UInt16.ofNat frame.length
      len := UInt16.ofNat frame.length
      ref := 1 }
  { h with cells := Function.update h.cells h.fresh (some p), fresh := h.fresh + 1 }

theorem pbufTake_of_alloc (nonempty : frame ≠ []) (small : frame.length < 65536)
    (held : Nat → UInt8) :
    ∃ h', h.pbufAlloc (UInt16.ofNat frame.length) (some held) = (some h.fresh, h') ∧
      h'.pbufTake h.fresh frame (UInt16.ofNat frame.length) = .ok (true, h.receive frame) := by
  have len : (UInt16.ofNat frame.length).toNat = frame.length := UInt16.toNat_ofNat_of_lt' small
  refine ⟨_, rfl, ?_⟩
  rw [pbufTake_of_new (Function.update_self ..) nonempty len rfl rfl (by simp [len]), Pbufs.receive,
    Pbufs.set]
  simp

/-- A pass of the loop of `net_poll`. -/
theorem netPollLoop_cons {rest : List Arrival} (nonempty : 0 < arrival.frame.length)
    (small : arrival.frame.length < 65536) (returns : arrival.Returns) :
    ∃ h', netPollLoop (arrival :: rest) h =
        (netPollLoop rest h').map (fun later => (arrival.passed.toList ++ later.1, later.2)) ∧
      (arrival.Releases → h.Clean → h'.cells = h.cells ∧ h'.Clean) := by
  rw [netPollLoop, if_neg (Nat.pos_iff_ne_zero.mp nonempty)]
  cases memory : arrival.memory with
  | none =>
      refine ⟨h, ?_, fun _ clean => ⟨rfl, clean⟩⟩
      simp only [Pbufs.pbufAlloc, Arrival.passed, memory]
      cases netPollLoop rest h with
      | error fault => rfl
      | ok later => rfl
  | some held =>
      obtain ⟨filled, allocated, taken⟩ := pbufTake_of_alloc (h := h)
        (List.length_pos_iff.mp nonempty) small held
      obtain ⟨h', passed, released⟩ := ethernetInput_of_single (h := h.receive arrival.frame)
        (Function.update_self ..) ⟨rfl, UInt16.toNat_ofNat_of_lt' small, rfl, rfl⟩ returns
      refine ⟨h', ?_, fun releases clean => ?_⟩
      · simp only [allocated, taken, passed, bind, Except.bind, Arrival.passed, memory]
        cases netPollLoop rest h' with
        | error fault => rfl
        | ok later => rfl
      · obtain ⟨cells, fresh⟩ := released releases
        have same : h'.cells = h.cells := by
          rw [cells, Pbufs.receive, Function.update_idem, ← clean h.fresh (Nat.le_refl _),
            Function.update_eq_self]
        refine ⟨same, fun p late => ?_⟩
        rw [fresh] at late
        rw [same]
        exact clean p (Nat.le_of_succ_le late)

theorem netPollLoop_passes {arrivals : List Arrival}
    (frames : ∀ arrival ∈ arrivals, 0 < arrival.frame.length ∧ arrival.frame.length < 65536)
    (returns : ∀ arrival ∈ arrivals, arrival.Returns) :
    ∃ h', netPollLoop arrivals h = .ok (arrivals.filterMap Arrival.passed, h') ∧
      ((∀ arrival ∈ arrivals, arrival.Releases) → h.Clean → h'.cells = h.cells ∧ h'.Clean) := by
  induction arrivals generalizing h with
  | nil => exact ⟨h, rfl, fun _ clean => ⟨rfl, clean⟩⟩
  | cons arrival rest ih =>
      have ⟨notEmpty, small⟩ := frames arrival List.mem_cons_self
      obtain ⟨middle, first, kept⟩ := netPollLoop_cons (h := h) notEmpty small
        (returns arrival List.mem_cons_self)
      obtain ⟨h', later, keptLater⟩ := ih (h := middle)
        (fun other among => frames other (List.mem_cons_of_mem _ among))
        (fun other among => returns other (List.mem_cons_of_mem _ among))
      refine ⟨h', ?_, fun releases clean => ?_⟩
      · rw [first, later, List.filterMap_cons]
        cases arrival.passed with
        | none => rfl
        | some packet => rfl
      · obtain ⟨same, clean⟩ := kept (releases arrival List.mem_cons_self) clean
        rw [← same]
        exact keptLater (fun other among => releases other (List.mem_cons_of_mem _ among)) clean

end Receive

/-! ## Over the wire -/

/-- What another machine receives of a packet: packets that are neither empty nor too long,
for the layer of their type. -/
def Outgoing.received (packet : Outgoing) (payload : List UInt8) : Option (Upper × List UInt8) :=
  if 0 < payload.length ∧ payload.length ≤ 1508 then
    (upperOf packet.ethType).map fun layer => (layer, payload)
  else none

theorem Outgoing.bind_decode_frame (packet : Outgoing) (payload : List UInt8) :
    (packet.frame payload).bind decode = packet.received payload := by
  rw [frame, received]
  by_cases short : payload.length ≤ 1508
  · rw [if_pos short, Option.bind_some, decode_frame]
    by_cases empty : payload.length = 0
    · rw [if_pos empty, if_neg (by omega)]
    · rw [if_neg empty, if_pos (by omega)]
  · rw [if_neg short, if_neg (by omega)]
    rfl

/-- What is sent as frames by one machine is received from these frames by another. -/
theorem wire_round_trip {packets : List (Outgoing × List UInt8)} {txbuf : List UInt8}
    (carry : ∀ packet ∈ packets, packet.1.Carries packet.2) (size : txbuf.length = 1522) :
    ∃ frames txbuf', transmit txbuf (packets.map Prod.fst) = .ok (frames, txbuf') ∧
      ∀ (arrivals : List Arrival) (h : Pbufs), arrivals.map Arrival.frame = frames →
        (∀ arrival ∈ arrivals, arrival.memory.isSome = true ∧ arrival.Returns) →
        ∃ h', netPollLoop arrivals h =
          .ok (packets.filterMap fun packet => packet.1.received packet.2, h') := by
  obtain ⟨txbuf', sent⟩ := transmit_of_carries carry size
  refine ⟨_, txbuf', sent, fun arrivals h delivered served => ?_⟩
  have frames : ∀ arrival ∈ arrivals, 0 < arrival.frame.length ∧ arrival.frame.length < 65536 := by
    intro arrival among
    have framed := List.mem_map_of_mem (f := Arrival.frame) among
    rw [delivered] at framed
    obtain ⟨packet, _, isFrame⟩ := List.mem_filterMap.mp framed
    rw [Outgoing.frame] at isFrame
    split at isFrame
    next short =>
      rw [← Option.some.inj isFrame, List.length_append, Outgoing.length_header]
      omega
    next => cases isFrame
  obtain ⟨h', polled, _⟩ := netPollLoop_passes (h := h) frames fun arrival among =>
    (served arrival among).2
  have passed : arrivals.filterMap Arrival.passed =
      (arrivals.map Arrival.frame).filterMap decode := by
    rw [List.filterMap_map]
    refine List.filterMap_congr fun arrival among => ?_
    rw [Arrival.passed, if_pos (served arrival among).1]
    rfl
  rw [polled, passed, delivered, List.filterMap_filterMap]
  simp only [Outgoing.bind_decode_frame]
  exact ⟨h', rfl⟩

/-- An IP packet in a chain of two buffers. -/
def twoBuffers : Outgoing where
  pbufs := (Pbufs.allocChain { cells := fun _ => none, fresh := 0, freed := [] }
    [⟨[0x45, 0x00], by decide⟩, ⟨[0x14], by decide⟩]).2
  p := 1
  src := ⟨[2, 0, 0, 0, 0, 1], rfl⟩
  dst := ⟨[2, 0, 0, 0, 0, 2], rfl⟩
  ethType := 0x0800
  room := some fun _ => 0xff

theorem twoBuffers_carries : twoBuffers.Carries [0x45, 0x00, 0x14] where
  chain := ⟨[(1, [0x45, 0x00]), (0, [0x14])],
    ⟨rfl, _, rfl, ⟨rfl, rfl⟩, rfl, _, rfl, ⟨rfl, rfl⟩, rfl⟩, rfl, by decide⟩
  total b stored := by
    obtain rfl := Option.some.inj stored
    rfl
  room := rfl

/-- A network layer that gives back what it is passed. -/
def dropping (frame : List UInt8) : Arrival where
  frame := frame
  memory := some fun _ => 0
  upper _ h p := .ok (h.memFree p)

theorem dropping_returns (frame : List UInt8) : (dropping frame).Returns :=
  fun _ h p => ⟨h.memFree p, rfl⟩

theorem dropping_releases (frame : List UInt8) : (dropping frame).Releases := by
  rintro _ h _ p ⟨rfl⟩
  exact ⟨rfl, rfl⟩

theorem wire_round_trip_twoBuffers :
    ∃ frames txbuf h', transmit (List.replicate 1522 0xaa) [twoBuffers] = .ok (frames, txbuf) ∧
      netPollLoop (frames.map dropping) twoBuffers.pbufs =
        .ok ([(.ip4, [0x45, 0x00, 0x14])], h') := by
  have carry : ∀ packet ∈ [(twoBuffers, [0x45, 0x00, 0x14])], packet.1.Carries packet.2 := by
    simpa using twoBuffers_carries
  obtain ⟨frames, txbuf, sent, received⟩ :=
    wire_round_trip carry (List.length_replicate (n := 1522) (a := 0xaa))
  obtain ⟨h', polled⟩ := received (frames.map dropping) twoBuffers.pbufs
    (by simp [List.map_map, Function.comp_def, dropping])
    (List.forall_mem_map.mpr fun frame _ => ⟨rfl, dropping_returns frame⟩)
  exact ⟨frames, txbuf, h', sent, polled⟩

/-- Passes of `net_poll` one after the other. -/
def netPolls : List (List Arrival) → Pbufs →
    Except Fault (List (List (Upper × List UInt8)) × Pbufs)
  | [], h => .ok ([], h)
  | arrivals :: rest, h => do
      let polled ← netPollLoop arrivals h
      let later ← netPolls rest polled.2
      .ok (polled.1 :: later.1, later.2)

/-- Whatever the card receives, `net_poll` passes up the packets in the frames that there is
memory for, in order, and keeps no buffer that the network layer does not keep. -/
theorem netPolls_leak_nothing {polls : List (List Arrival)} {h : Pbufs} (clean : h.Clean)
    (frames : ∀ arrivals ∈ polls, ∀ arrival ∈ arrivals,
      0 < arrival.frame.length ∧ arrival.frame.length < 65536)
    (returns : ∀ arrivals ∈ polls, ∀ arrival ∈ arrivals, arrival.Returns)
    (releases : ∀ arrivals ∈ polls, ∀ arrival ∈ arrivals, arrival.Releases) :
    ∃ h', netPolls polls h = .ok (polls.map (List.filterMap Arrival.passed), h') ∧
      h'.cells = h.cells := by
  induction polls generalizing h with
  | nil => exact ⟨h, rfl, rfl⟩
  | cons arrivals rest ih =>
      obtain ⟨middle, polled, kept⟩ := netPollLoop_passes (h := h)
        (frames arrivals List.mem_cons_self) (returns arrivals List.mem_cons_self)
      obtain ⟨same, clean⟩ := kept (releases arrivals List.mem_cons_self) clean
      obtain ⟨h', later, sameLater⟩ := ih clean
        (fun others among => frames others (List.mem_cons_of_mem _ among))
        (fun others among => returns others (List.mem_cons_of_mem _ among))
        (fun others among => releases others (List.mem_cons_of_mem _ among))
      refine ⟨h', ?_, sameLater.trans same⟩
      rw [netPolls, polled]
      simp only [bind, Except.bind, later]
      rfl

theorem netPolls_leak_nothing_dropping :
    ∃ h', netPolls [[dropping [1]], [dropping (twoBuffers.header ++ [0x45, 0x00, 0x14])]]
        { cells := fun _ => none, fresh := 0, freed := [] } =
          .ok ([[], [(.ip4, [0x45, 0x00, 0x14])]], h') ∧
      h'.cells = fun _ => none :=
  netPolls_leak_nothing (fun _ _ => rfl) (by simp [dropping])
    (by simpa using ⟨dropping_returns _, dropping_returns _⟩)
    (by simpa using ⟨dropping_releases _, dropping_releases _⟩)

end AppPortKit.Net
