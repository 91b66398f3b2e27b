import AllCamera.Stream.PsDemux.Bounds

/-!
# A PES packet cut into blocks

What the demultiplexer finds in its parser list are the payloads of RTP packets, cut from the
program stream wherever the sender liked.

* `RtpOut`, `numbered`: the packets that should be sent, with numbers that count up and the marker
  on the last.
* `PesCut`: a video PES packet with one NAL unit behind a 4-byte start code, and the pieces it was
  cut into. `MsgBlock.Holds`: a block with such a piece, anything else in its buffer.
* `PesCut.skipBytes_holds`: what is in front of the sender when a NAL unit's first bytes follow the
  PES header in one block.
* `Delivers`: whatever else the buffers hold, the packets sent for the PES packet carry its NAL unit.
-/

namespace AllCamera

/-! ## The packets that are sent -/

/-- An RTP packet: the marker, the number and the payload. -/
structure RtpOut where
  marker : Bool
  seqNum : UInt16
  payload : List UInt8
  deriving DecidableEq, Repr

/-- Packets with the payloads: the numbers count up from `s`, and the last has the marker. -/
def numbered (s : UInt16) : List (List UInt8) → List RtpOut
  | [] => []
  | [p] => [⟨true, s, p⟩]
  | p :: q :: ps => ⟨false, s, p⟩ :: numbered (s + 1) (q :: ps)

theorem numbered_cons {s : UInt16} {p : List UInt8} {ps : List (List UInt8)} (h : ps ≠ []) :
    numbered s (p :: ps) = ⟨false, s, p⟩ :: numbered (s + 1) ps := by
  cases ps with
  | nil => exact absurd rfl h
  | cons q ps => rfl

theorem map_payload_numbered (s : UInt16) (ps : List (List UInt8)) :
    (numbered s ps).map RtpOut.payload = ps := by
  induction ps generalizing s with
  | nil => rfl
  | cons p ps ih =>
    cases ps with
    | nil => rfl
    | cons q ps => exact congrArg (p :: ·) (ih (s + 1))

namespace RtpPacket

/-- A header in memory is the one that a receiver reads. -/
theorem getMarker_of_bytes {m : Memory} {p : Int} {h : Head} (hm : m.read p fixedHeader = h.bytes) :
    getMarker m p = h.marker ∧ getSeqNum m p = h.seqNum := by
  have byte : ∀ k < fixedHeader, some (m (p + (k : Int))) = h.bytes[k]? := by
    intro k hk
    rw [← hm, Memory.getElem?_read _ _ _ _ hk]
  have h1 := Option.some.inj (byte 1 (by decide))
  have h2 := Option.some.inj (byte 2 (by decide))
  have h3 := Option.some.inj (byte 3 (by decide))
  refine ⟨?_, ?_⟩
  · rw [getMarker, show p + 1 = p + ((1 : Nat) : Int) from rfl, h1, UInt8.toNat_ofNat']
    cases h.marker <;> simp <;> omega
  · rw [getSeqNum, show p + 2 = p + ((2 : Nat) : Int) from rfl,
      show p + 3 = p + ((3 : Nat) : Int) from rfl, h2, h3]
    exact be16_be16Bytes h.seqNum

end RtpPacket

namespace MsgBlock

variable {b : MsgBlock}

/-- The packet in a block that is sent, as a receiver takes it: a fixed header and the payload. -/
def rtp (b : MsgBlock) : RtpOut :=
  ⟨RtpPacket.getMarker b.data b.rd, RtpPacket.getSeqNum b.data b.rd,
    b.payload.drop RtpPacket.fixedHeader⟩

theorem rtp_eq {h : RtpPacket.Head} {l : List UInt8} (hp : b.payload = h.bytes ++ l) :
    b.rtp = ⟨h.marker, h.seqNum, l⟩ := by
  have hlen := congrArg List.length hp
  rw [payload, Memory.length_read, List.length_append, RtpPacket.Head.length_bytes] at hlen
  have hread : b.data.read b.rd RtpPacket.fixedHeader = h.bytes := by
    rw [← Memory.take_read _ _ _ _ (show RtpPacket.fixedHeader ≤ b.length by omega)]
    exact (congrArg (List.take RtpPacket.fixedHeader) hp).trans
      (List.take_left' (RtpPacket.Head.length_bytes h))
  obtain ⟨hmarker, hseq⟩ := RtpPacket.getMarker_of_bytes hread
  rw [rtp, hmarker, hseq, hp, List.drop_left' (RtpPacket.Head.length_bytes h)]

theorem length_rtp (b : MsgBlock) : b.rtp.payload.length = b.length - RtpPacket.fixedHeader := by
  simp only [rtp, payload, List.length_drop, Memory.length_read]

/-- The offsets are in order and not far from each other, as in all blocks and packets. -/
def Ordered (b : MsgBlock) : Prop := b.rd ≤ b.wr ∧ b.wr - b.rd ≤ 2 ^ 32

theorem Inside.ordered (h : b.Inside) : b.Ordered := by
  obtain ⟨h1, h2, h3⟩ := h
  refine ⟨h2, ?_⟩
  simp only [blockSize] at h3
  omega

/-- `l` stored before the read pointer, which moves back to it. -/
def prepend (b : MsgBlock) (l : List UInt8) : MsgBlock :=
  ⟨b.data.write (b.rd - l.length) l, b.size, b.rd - l.length, b.wr⟩

theorem length_prepend (b : MsgBlock) (l : List UInt8) :
    (b.prepend l).length = ((b.wr - b.rd + l.length) % 2 ^ 64).toNat := by
  have h : b.wr - (b.rd - (l.length : Int)) = b.wr - b.rd + l.length := by omega
  simp only [length, prepend, h]

theorem payload_prepend (h : b.Ordered) (l : List UInt8) (hl : l.length ≤ 2 ^ 32) :
    (b.prepend l).payload = l ++ b.payload := by
  obtain ⟨h1, h2⟩ := h
  have hlen : ((b.length : Nat) : Int) = b.wr - b.rd := length_of_le h1 (by omega)
  have hlen' : (b.prepend l).length = l.length + b.length := by
    rw [length_prepend]
    omega
  rw [payload, hlen', Memory.read_add]
  congr 1
  · exact Memory.read_write _ _ _
  · simp only [prepend]
    rw [Memory.read_write_of_disjoint (.inr (Int.le_refl _)),
      show b.rd - (l.length : Int) + l.length = b.rd by omega, payload]

/-- `stampFront` puts the header in front of the bytes. -/
theorem stampFront_eq (b : MsgBlock) (head : RtpPacket.Head) :
    b.stampFront head = b.prepend head.bytes := by
  simp only [stampFront, RtpPacket.stamp_eq]
  rfl

theorem rtp_stampFront (h : b.Ordered) (head : RtpPacket.Head) :
    (b.stampFront head).rtp = ⟨head.marker, head.seqNum, b.payload⟩ := by
  rw [stampFront_eq]
  exact rtp_eq (payload_prepend h head.bytes (by rw [RtpPacket.Head.length_bytes]; decide))

/-- Bytes in front of a block, and the header in front of them. -/
theorem rtp_prepend (h : b.Inside) {l : List UInt8} (hl : l.length ≤ blockSize)
    (head : RtpPacket.Head) :
    ((b.prepend l).stampFront head).rtp = ⟨head.marker, head.seqNum, l ++ b.payload⟩ := by
  have hordered : (b.prepend l).Ordered := by
    obtain ⟨h1, h2, h3⟩ := h
    simp only [Ordered, prepend, blockSize] at hl h3 ⊢
    omega
  rw [rtp_stampFront hordered, payload_prepend h.ordered l (by simp only [blockSize] at hl; omega)]

/-- The payload behind a header in front of `l`, whatever the offsets are. -/
theorem rtp_payload_prepend (b : MsgBlock) (l : List UInt8) (head : RtpPacket.Head) :
    ((b.prepend l).stampFront head).rtp.payload = (b.data.write (b.rd - l.length) l).read
      (b.rd - l.length) (((b.prepend l).stampFront head).length - RtpPacket.fixedHeader) := by
  rw [rtp, payload, Memory.drop_read, stampFront_eq]
  simp only [prepend, RtpPacket.Head.length_bytes]
  rw [show b.rd - (l.length : Int) - RtpPacket.fixedHeader + RtpPacket.fixedHeader = b.rd - l.length
    by omega, Memory.read_write_of_disjoint (.inr (by simp))]

theorem length_stampFront_prepend (b : MsgBlock) (l : List UInt8) (head : RtpPacket.Head) :
    ((b.prepend l).stampFront head).length =
      ((b.wr - b.rd + l.length + RtpPacket.fixedHeader) % 2 ^ 64).toNat := by
  have h : (b.prepend l).wr - (b.prepend l).rd = b.wr - b.rd + l.length := by
    simp only [prepend]
    omega
  rw [stampFront_eq, length_prepend, h, RtpPacket.Head.length_bytes]

/-- It begins with as much of `l` as there is room for. -/
theorem take_rtp_prepend (b : MsgBlock) (l : List UInt8) (head : RtpPacket.Head) :
    ((b.prepend l).stampFront head).rtp.payload.take l.length =
      l.take (((b.prepend l).stampFront head).length - RtpPacket.fixedHeader) := by
  rw [rtp_payload_prepend]
  generalize ((b.prepend l).stampFront head).length - RtpPacket.fixedHeader = m
  have hwrite := Memory.read_write b.data (b.rd - l.length) l
  rcases Nat.le_total m l.length with hm | hm
  · rw [List.take_of_length_le (by rw [Memory.length_read]; exact hm), ← Memory.take_read _ _ _ _ hm,
      hwrite]
  · rw [Memory.take_read _ _ _ _ hm, hwrite, List.take_of_length_le hm]

/-- It begins with `l`, if it is not empty. -/
theorem headD_rtp_prepend (b : MsgBlock) {l : List UInt8} (hl : l ≠ []) (head : RtpPacket.Head)
    (hlen : RtpPacket.fixedHeader < ((b.prepend l).stampFront head).length) :
    ((b.prepend l).stampFront head).rtp.payload.headD 0 = l.headD 0 := by
  have htake := take_rtp_prepend b l head
  obtain ⟨k, hk⟩ := Nat.exists_eq_add_of_lt hlen
  obtain ⟨x, xs, rfl⟩ := List.exists_cons_of_ne_nil hl
  rw [hk, Nat.add_assoc, Nat.add_sub_cancel_left, List.length_cons, List.take_succ_cons] at htake
  cases hp : ((b.prepend (x :: xs)).stampFront head).rtp.payload with
  | nil =>
    rw [hp, List.take_nil] at htake
    exact absurd htake (List.cons_ne_nil _ _).symm
  | cons y ys =>
    rw [hp, List.take_succ_cons] at htake
    exact (List.cons.inj htake).1

/-- Bytes stored behind the write pointer, which moves behind them. -/
theorem payload_append (h : b.Ordered) (l : List UInt8) (hl : l.length ≤ 2 ^ 32) :
    (b.append l).payload = b.payload ++ l := by
  obtain ⟨h1, h2⟩ := h
  have hlen : ((b.length : Nat) : Int) = b.wr - b.rd := length_of_le h1 (by omega)
  have hlen' : (b.append l).length = b.length + l.length := by
    apply Int.ofNat_inj.mp
    rw [length_of_le (by simp only [append]; omega) (by simp only [append]; omega)]
    simp only [append]
    omega
  rw [payload, hlen', Memory.read_add]
  simp only [append]
  rw [Memory.read_write_of_disjoint (.inl (by omega)), show b.rd + (b.length : Int) = b.wr by omega,
    Memory.read_write, payload]

theorem append_nil (b : MsgBlock) : b.append [] = b := by
  have h : b.data.write b.wr [] = b.data := Memory.write_read b.data b.wr 0
  simp only [append, h, List.length_nil, Int.natCast_zero, Int.add_zero]

theorem payload_ofPool (buffer : Memory) (h : RtpPacket.Head) : (ofPool buffer h).payload = h.bytes := by
  have hlen : (ofPool buffer h).length = h.bytes.length := rfl
  rw [payload, hlen, ofPool, RtpPacket.stamp_eq]
  exact Memory.read_write _ _ _

/-- A packet in a block of the pool: the bytes stored behind the header, and those that were copied
if they fit. -/
theorem rtp_copy (buffer : Memory) (h : RtpPacket.Head) (l : List UInt8) (hl : l.length ≤ 3)
    (src : MsgBlock) (n : Nat) :
    (((ofPool buffer h).append l).copy src n).rtp = ⟨h.marker, h.seqNum,
      l ++ if n + l.length ≤ blockSize - RtpPacket.fixedHeader then src.data.read src.rd n else []⟩ := by
  have hpool : (ofPool buffer h).Ordered := by
    simp [Ordered, ofPool, RtpPacket.fixedHeader]
  have happend : ((ofPool buffer h).append l).Ordered := by
    simp only [Ordered, append, ofPool, RtpPacket.fixedHeader]
    omega
  have hpayload := payload_append hpool l (by omega)
  rw [payload_ofPool] at hpayload
  have hspace : ((ofPool buffer h).append l).space = blockSize - RtpPacket.fixedHeader - l.length := by
    simp only [space, append, ofPool, blockSize, RtpPacket.fixedHeader]
    omega
  rw [copy, hspace]
  by_cases hfits : n + l.length ≤ blockSize - RtpPacket.fixedHeader
  · rw [if_neg (by omega), if_pos hfits]
    have hn : (src.data.read src.rd n).length ≤ 2 ^ 32 := by
      simp only [Memory.length_read, blockSize] at hfits ⊢
      omega
    have hcopy := payload_append happend _ hn
    rw [hpayload, List.append_assoc] at hcopy
    apply rtp_eq
    rw [← hcopy]
    simp only [append, Memory.length_read]
  · rw [if_pos (by simp only [blockSize, RtpPacket.fixedHeader] at hfits ⊢; omega), if_neg hfits,
      List.append_nil]
    exact rtp_eq hpayload

/-- A write pointer that moves on over `k` bytes takes them into the packet as they are. -/
theorem skip_eq_append (b : MsgBlock) (k : Nat) :
    { b with wr := b.wr + k } = b.append (b.data.read b.wr k) := by
  rw [append, Memory.write_read, Memory.length_read]

/-- The longest payload of a block. -/
def maxPayload : Nat := blockSize - (transmitHead + RtpPacket.fixedHeader)

/-- The block holds the bytes: behind the transmit header and an RTP header, with anything else in
the rest of the buffer. -/
structure Holds (b : MsgBlock) (bytes : List UInt8) : Prop where
  inside : b.Inside
  room : ((transmitHead + RtpPacket.fixedHeader : Nat) : Int) ≤ b.rd
  payload : b.payload = bytes

variable {bytes : List UInt8}

theorem Holds.length_eq (h : b.Holds bytes) : b.length = bytes.length := by
  rw [← h.payload, length_payload]

theorem Holds.length_le (h : b.Holds bytes) : bytes.length ≤ maxPayload := by
  have hlen := h.inside.length_eq
  rw [h.length_eq] at hlen
  have hroom := h.room
  have htop := h.inside.top
  simp only [maxPayload, blockSize, transmitHead, RtpPacket.fixedHeader] at hroom htop ⊢
  omega

theorem Holds.advance (h : b.Holds bytes) {n : Nat} (hn : n ≤ bytes.length) :
    (b.advance n).Holds (bytes.drop n) := by
  have hlen := h.length_eq
  refine ⟨h.inside.advance (by omega), ?_, ?_⟩
  · have := h.room
    simp only [MsgBlock.advance]
    omega
  · rw [h.inside.payload_advance (by omega), h.payload]

theorem Holds.byte_eq (h : b.Holds bytes) {i : Nat} (hi : i < bytes.length) :
    b.byte i = bytes.getD i 0 := by
  rw [← h.payload, MsgBlock.payload, List.getD_eq_getElem?_getD,
    Memory.getElem?_read _ _ _ _ (by rw [h.length_eq]; exact hi)]
  rfl

theorem Holds.read_eq (h : b.Holds bytes) {n : Nat} (hn : n ≤ bytes.length) :
    b.data.read b.rd n = bytes.take n := by
  rw [← h.payload, MsgBlock.payload, Memory.take_read _ _ _ _ (by rw [h.length_eq]; exact hn)]

/-- A comparison inside the bytes. -/
theorem Holds.startsWith_iff (h : b.Holds bytes) {pat : List UInt8} (hn : pat.length ≤ bytes.length) :
    b.startsWith pat = true ↔ bytes.take pat.length = pat := by
  rw [startsWith, h.read_eq hn, beq_iff_eq]

/-- A block that seems to begin with the pattern holds the begin of it. -/
theorem Holds.take_prefix (h : b.Holds bytes) {pat : List UInt8} (hs : b.startsWith pat = true) :
    bytes.take pat.length <+: pat := by
  rw [startsWith, beq_iff_eq] at hs
  rcases Nat.le_total pat.length bytes.length with hn | hn
  · exact ⟨[], by rw [List.append_nil, ← h.read_eq hn, hs]⟩
  · refine ⟨b.data.read (b.rd + bytes.length) (pat.length - bytes.length), ?_⟩
    rw [List.take_of_length_le hn]
    calc bytes ++ b.data.read (b.rd + bytes.length) (pat.length - bytes.length)
        = b.data.read b.rd bytes.length ++
            b.data.read (b.rd + bytes.length) (pat.length - bytes.length) := by
          rw [h.read_eq (Nat.le_refl _), List.take_length]
      _ = b.data.read b.rd (bytes.length + (pat.length - bytes.length)) := (Memory.read_add _ _ _ _).symm
      _ = pat := by rw [Nat.add_sub_cancel' hn, hs]

/-- A block with the bytes at the begin of the payload, and `behind` in the buffer after them. -/
def holding (bytes behind : List UInt8) : MsgBlock where
  data := Memory.write (fun _ => 0) (transmitHead + RtpPacket.fixedHeader : Nat) (bytes ++ behind)
  size := blockSize
  rd := (transmitHead + RtpPacket.fixedHeader : Nat)
  wr := (transmitHead + RtpPacket.fixedHeader : Nat) + bytes.length

theorem holding_holds (behind : List UInt8) (h : bytes.length ≤ maxPayload) :
    (holding bytes behind).Holds bytes := by
  have hlen : (holding bytes behind).length = bytes.length := by
    have := length_of_le (b := holding bytes behind) (by simp only [holding]; omega)
      (by simp only [holding, maxPayload, blockSize] at h ⊢; omega)
    simp only [holding] at this ⊢
    omega
  refine ⟨⟨?_, ?_, ?_⟩, Int.le_refl _, ?_⟩
  · simp only [holding]
    omega
  · simp only [holding]
    omega
  · simp only [holding, maxPayload, blockSize, transmitHead, RtpPacket.fixedHeader] at h ⊢
    omega
  · have hread := Memory.read_write (fun _ => 0) (transmitHead + RtpPacket.fixedHeader : Nat)
      (bytes ++ behind)
    rw [payload, hlen]
    exact (Memory.read_append hread).1

end MsgBlock

/-! ## A video PES packet -/

/-- A PES header: the start code, the stream id, the packet's length, two bytes of flags and the
header data. -/
def pesHeader (streamId flag1 flag2 : UInt8) (hdr : List UInt8) (esLen : Nat) : List UInt8 :=
  packStart streamId ++ be16Bytes (.ofNat (3 + hdr.length + esLen)) ++
    [flag1, flag2, .ofNat hdr.length] ++ hdr

/-- A video PES packet with the NAL unit `nal` behind a start code, `post` behind it, and the pieces
that they were cut into, each small enough for a block. -/
structure PesCut where
  streamId : UInt8
  flag1 : UInt8
  flag2 : UInt8
  hdr : List UInt8
  nal : List UInt8
  post : List UInt8
  pieces : List (List UInt8)
  video : streamId.toNat / 16 = 14
  hdr_le : hdr.length ≤ 255
  fits : 3 + hdr.length + (4 + nal.length) < 2 ^ 16
  cut : pieces.flatten =
    pesHeader streamId flag1 flag2 hdr (4 + nal.length) ++ (startCode ++ nal ++ post)
  small : ∀ c ∈ pieces, c.length ≤ MsgBlock.maxPayload

namespace PesCut

variable (f : PesCut)

/-- The length of the PES header. -/
def headLen : Nat := 9 + f.hdr.length

/-- The length of the elementary stream: the start code and the NAL unit. -/
def esLen : Nat := 4 + f.nal.length

/-- `advanceFront` on the pieces. -/
def dropFront (n : Nat) : List (List UInt8) → List (List UInt8)
  | [] => []
  | c :: cs => c.drop n :: cs

/-- `skipBytes` on the pieces. -/
def skipPieces (n : Nat) : List (List UInt8) → List (List UInt8)
  | [] => []
  | c :: cs => if n < c.length then c.drop n :: cs else dropFront (n - c.length) cs

/-- The pieces behind the PES header, if it ends in the first two. -/
def rest : List (List UInt8) := skipPieces f.headLen f.pieces

theorem flatten_skipPieces {n : Nat} {cs : List (List UInt8)} {front : List UInt8}
    {later : List (List UInt8)} (h : skipPieces n cs = front :: later) (hpos : 0 < front.length) :
    (front :: later).flatten = cs.flatten.drop n := by
  cases cs with
  | nil => cases h
  | cons c cs =>
    rw [skipPieces] at h
    split at h
    · next hlt =>
      rw [← h, List.flatten_cons, List.flatten_cons, List.drop_append_of_le_length (by omega)]
    · next hge =>
      cases cs with
      | nil => cases h
      | cons c' cs =>
        obtain ⟨rfl, rfl⟩ := List.cons.inj h
        rw [List.length_drop] at hpos
        rw [List.flatten_cons, List.flatten_cons, List.flatten_cons, List.drop_append,
          List.drop_of_length_le (show c.length ≤ n by omega), List.nil_append,
          List.drop_append_of_le_length (by omega)]

theorem length_pesHeader (streamId flag1 flag2 : UInt8) (hdr : List UInt8) (n : Nat) :
    (pesHeader streamId flag1 flag2 hdr n).length = 9 + hdr.length := by
  simp only [pesHeader, packStart, be16Bytes, List.length_append, List.length_cons, List.length_nil]

/-- Behind the PES header comes the elementary stream. -/
theorem flatten_rest {front : List UInt8} {later : List (List UInt8)} (h : f.rest = front :: later)
    (hpos : 0 < front.length) : front ++ later.flatten = startCode ++ f.nal ++ f.post := by
  have hflat := flatten_skipPieces h hpos
  rwa [f.cut, headLen, List.drop_left' (length_pesHeader _ _ _ _ _), List.flatten_cons] at hflat

end PesCut

/-! ## The blocks behind the PES header -/

open MsgBlock (Holds)

/-- The blocks hold the pieces. -/
abbrev HoldAll (bs : List MsgBlock) (cs : List (List UInt8)) : Prop := List.Forall₂ Holds bs cs

/-- `skipBytes` leaves blocks that hold the pieces behind the header, if there is a byte of them in
the front block. -/
theorem HoldAll.skipBytes {bs : List MsgBlock} {cs : List (List UInt8)} (h : HoldAll bs cs) {n : Nat}
    {front : List UInt8} {later : List (List UInt8)}
    (hrest : PesCut.skipPieces n cs = front :: later) (hpos : 0 < front.length) :
    ∃ b bs', AllCamera.skipBytes n bs = b :: bs' ∧ b.Holds front ∧ HoldAll bs' later := by
  cases h with
  | nil => cases hrest
  | @cons b c bs cs hb hbs =>
    have h32 : b.length32 = c.length := hb.inside.length32_eq.trans hb.length_eq
    rw [PesCut.skipPieces] at hrest
    rw [AllCamera.skipBytes, h32]
    split at hrest
    · next hlt =>
      obtain ⟨rfl, rfl⟩ := List.cons.inj hrest
      rw [if_pos hlt]
      exact ⟨_, _, rfl, hb.advance (by omega), hbs⟩
    · next hge =>
      rw [if_neg hge]
      cases hbs with
      | nil => cases hrest
      | @cons b' c' bs cs hb' hbs =>
        obtain ⟨rfl, rfl⟩ := List.cons.inj hrest
        rw [List.length_drop] at hpos
        exact ⟨_, _, rfl, hb'.advance (by omega), hbs⟩

/-! ## A turn in front of a PES packet -/

namespace PesCut

variable {f : PesCut}

/-- The first nine bytes of the pieces are those of the PES header. -/
theorem take_pieces {c : List UInt8} {cs : List (List UInt8)} (h : f.pieces = c :: cs)
    (h9 : 9 ≤ c.length) : c.take 9 = packStart f.streamId ++
      be16Bytes (.ofNat (3 + f.hdr.length + f.esLen)) ++ [f.flag1, f.flag2, .ofNat f.hdr.length] := by
  have hcut := congrArg (List.take 9) f.cut
  rw [h, List.flatten_cons, List.take_append_of_le_length h9, pesHeader, List.append_assoc,
    List.append_assoc] at hcut
  exact hcut

/-- What `ProgramEStramHead` reads in a front block that holds nine bytes of the header. -/
theorem header_read {b : MsgBlock} {c : List UInt8} {cs : List (List UInt8)} (h : f.pieces = c :: cs)
    (h9 : 9 ≤ c.length) (hb : b.Holds c) :
    b.startsWith [0, 0, 1] = true ∧ b.byte 3 = f.streamId ∧ 9 + (b.byte 8).toNat = f.headLen ∧
      Demux.esLength b = f.esLen := by
  have htake := f.take_pieces h h9
  have byte : ∀ i < 9, b.byte i = (c.take 9).getD i 0 := by
    intro i hi
    rw [hb.byte_eq (by omega), List.getD_eq_getElem?_getD, List.getD_eq_getElem?_getD,
      List.getElem?_take_of_lt hi]
  have hfits := f.fits
  have hhdr := f.hdr_le
  have h8 : (b.byte 8).toNat = f.hdr.length := by
    rw [byte 8 (by decide), htake]
    show (UInt8.ofNat f.hdr.length).toNat = _
    rw [UInt8.toNat_ofNat']
    omega
  refine ⟨?_, ?_, by rw [h8, headLen], ?_⟩
  · have hthree : ([0, 0, 1] : List UInt8).length ≤ c.length := by
      simp only [List.length_cons, List.length_nil]
      omega
    rw [hb.startsWith_iff hthree]
    have := congrArg (List.take 3) htake
    rwa [List.take_take] at this
  · rw [byte 3 (by decide), htake]
    rfl
  · have hlen : b.be16At 4 = 3 + f.hdr.length + f.esLen := by
      rw [MsgBlock.be16At, byte 4 (by decide), byte 5 (by decide), htake]
      show (be16 (.ofNat _) (.ofNat _)).toNat = _
      rw [be16_be16Bytes, UInt16.toNat_ofNat', esLen]
      omega
    rw [Demux.esLength, hlen, h8, esLen]
    omega

end PesCut

namespace Demux

variable {env : Env} {d : Demux} {f : PesCut} {b : MsgBlock} {bs : List MsgBlock} {c : List UInt8}
  {cs : List (List UInt8)}

/-- Without nine bytes of the header in the front block the turn sends nothing. -/
theorem dealStep_short (hs : d.status = .pesPacket) (hl : d.list = b :: bs) (hb : b.Holds c)
    (h9 : ¬9 ≤ c.length) : (d.dealStep env).sent = d.sent := by
  rw [dealStep_pesPacket env hl hs, programEStramHead_none env hl]
  · rfl
  · rw [hb.inside.length32_eq, hb.length_eq]
    exact fun h => h9 h.2

theorem skipBlocks_sent (d : Demux) (n : Nat) (l : List MsgBlock) : (d.skipBlocks n l).sent = d.sent := by
  induction l generalizing n with
  | nil => rfl
  | cons b bs ih =>
    rw [skipBlocks]
    split_ifs
    · rfl
    · exact ih _
    · rfl

theorem sendEsVideoFrame_nil (h : d.list = []) : d.sendEsVideoFrame env = d := by
  rw [sendEsVideoFrame, sendVideo, h]

/-- The state in front of the sender of the video packet. -/
structure AtVideo (d : Demux) (f : PesCut) (blocks : List MsgBlock) (e : Demux) : Prop where
  list : e.list = skipBytes f.headLen blocks
  length : e.info.length = f.esLen
  streamId : e.info.streamId = videoStreamId
  payload : e.info.payload = d.videoPayload
  videoPayload : e.videoPayload = d.videoPayload
  sent : e.sent = d.sent
  usRtpSeq : e.usRtpSeq = d.usRtpSeq
  allocs : e.allocs = d.allocs

/-- With nine bytes of it, a packet with the stream id 0xE0 goes to the sender, and one with another
video stream id is skipped. -/
theorem dealStep_pes (env : Env) (hs : d.status = .pesPacket) (hl : d.list = b :: bs)
    (hc : f.pieces = c :: cs)
    (hb : b.Holds c) (h9 : 9 ≤ c.length) :
    (f.streamId ≠ videoStreamId → (d.dealStep env).sent = d.sent) ∧
      (f.streamId = videoStreamId → ∃ e, AtVideo d f (b :: bs) e ∧
        (d.dealStep env).sent = (e.sendEsVideoFrame env).sent) := by
  obtain ⟨hstart, hid, hhead, hes⟩ := f.header_read hc h9 hb
  have h32 : 9 ≤ b.length32 := by
    rw [hb.inside.length32_eq, hb.length_eq]
    exact h9
  have hlist := atEs_list d b
  have hinfo := atEs_info d b
  obtain ⟨hsent, hseq, hallocs⟩ := atEs_sent d b
  have hvideo := (atEs_sameCodec d b).videoPayload
  rw [hhead, hl] at hlist
  rw [hes, hid] at hinfo
  rw [dealStep_pesPacket env hl hs, programEStramHead_pes env hl hstart h32]
  have haudio : f.streamId ≠ audioStreamId := by
    intro h
    have := f.video
    rw [h] at this
    exact absurd this (by decide)
  constructor
  · intro hother
    split
    · exact hsent
    · rw [sendEs, hinfo, if_neg haudio, if_neg hother, skipunKnowFrame, skipBlocks_sent, hsent]
  · intro hid'
    refine ⟨(d.atEs b).withPayload (d.atEs b).videoPayload,
      ⟨hlist, congrArg EsFrameInfo.length hinfo, ?_, hvideo, hvideo, hsent, hseq, hallocs⟩, ?_⟩
    · exact (congrArg EsFrameInfo.streamId hinfo).trans hid'
    · split
      · next hnil =>
        rw [sendEsVideoFrame_nil (d := (d.atEs b).withPayload (d.atEs b).videoPayload) hnil]
        rfl
      · rw [sendEs, hinfo, if_neg haudio, if_pos hid']

/-- In front of the PES packet, in blocks that hold its pieces with anything else in their buffers, and
with a block in the pool or not: the turn sends packets that carry `carries`, numbered from `usRtpSeq`
on, the last one marked. -/
def Delivers (d : Demux) (f : PesCut) (pool : Bool) (carries : List (List UInt8) → Prop) : Prop :=
  ∀ (env : Env) (blocks : List MsgBlock), poolHas env d = pool → HoldAll blocks f.pieces →
    ∃ new ps, ({ d with list := blocks }.dealStep env).sent = d.sent ++ new ∧
      new.map MsgBlock.rtp = numbered d.usRtpSeq ps ∧ carries ps

/-- The payloads of packets. -/
def payloads (new : List MsgBlock) : List (List UInt8) := new.map fun b => b.rtp.payload

/-- What one pool and one choice of buffers lead to refutes it. -/
theorem not_delivers {pool : Bool} {carries : List (List UInt8) → Prop} {blocks : List MsgBlock}
    (new : List MsgBlock) (hpool : poolHas env d = pool) (hblocks : HoldAll blocks f.pieces)
    (hsent : ({ d with list := blocks }.dealStep env).sent = d.sent ++ new)
    (hnot : ¬carries (payloads new)) : ¬Delivers d f pool carries := by
  intro h
  obtain ⟨new', ps, hsent', hnumbered, hcarries⟩ := h env blocks hpool hblocks
  rw [hsent] at hsent'
  obtain rfl := List.append_cancel_left hsent'
  have hps : payloads new = ps := by
    rw [← map_payload_numbered d.usRtpSeq ps, ← hnumbered, List.map_map]
    rfl
  exact hnot (hps ▸ hcarries)

/-! ## Buffers of one's choice -/

/-- A pool with zeroed blocks or none, and zeros on the stack. -/
def Env.ofPool (pool : Bool) : Env := ⟨fun _ => if pool then some fun _ => 0 else none, fun _ => 0⟩

theorem poolHas_ofPool (pool : Bool) (d : Demux) : poolHas (Env.ofPool pool) d = pool := by
  cases pool <;> rfl

/-- Blocks with the pieces, and `behind` each piece in the buffer. -/
def holdingAll (behind : List UInt8 → List UInt8) (cs : List (List UInt8)) : List MsgBlock :=
  cs.map fun c => MsgBlock.holding c (behind c)

theorem holdAll_holdingAll (behind : List UInt8 → List UInt8) {cs : List (List UInt8)}
    (h : ∀ c ∈ cs, c.length ≤ MsgBlock.maxPayload) : HoldAll (holdingAll behind cs) cs := by
  induction cs with
  | nil => exact .nil
  | cons c cs ih =>
    obtain ⟨hc, hcs⟩ := List.forall_mem_cons.mp h
    exact .cons (MsgBlock.holding_holds (behind c) hc) (ih hcs)

/-- What `skipBytes` leaves of such blocks, also when the header ends behind the second one. -/
theorem skipBytes_holdingAll {behind : List UInt8 → List UInt8} {cs : List (List UInt8)}
    (h : ∀ c ∈ cs, c.length ≤ MsgBlock.maxPayload) {n : Nat} {b : MsgBlock} {bs : List MsgBlock}
    (hskip : skipBytes n (holdingAll behind cs) = b :: bs) :
    ∃ c k later, c ∈ cs ∧ k ≤ n ∧ (∀ x ∈ later, x.length ≤ MsgBlock.maxPayload) ∧
      b = (MsgBlock.holding c (behind c)).advance k ∧ bs = holdingAll behind later ∧
      PesCut.skipPieces n cs = c.drop k :: later := by
  cases cs with
  | nil => cases hskip
  | cons c cs =>
    obtain ⟨hc, hcs⟩ := List.forall_mem_cons.mp h
    have hb := MsgBlock.holding_holds (behind c) hc
    have h32 : (MsgBlock.holding c (behind c)).length32 = c.length :=
      hb.inside.length32_eq.trans hb.length_eq
    rw [holdingAll, List.map_cons, skipBytes, h32] at hskip
    rw [PesCut.skipPieces]
    split at hskip
    · next hlt =>
      obtain ⟨rfl, rfl⟩ := List.cons.inj hskip
      rw [if_pos hlt]
      exact ⟨c, n, cs, List.mem_cons_self .., Nat.le_refl _, hcs, rfl, rfl, rfl⟩
    · next hge =>
      rw [if_neg hge]
      cases cs with
      | nil => cases hskip
      | cons c' cs =>
        obtain ⟨rfl, rfl⟩ := List.cons.inj hskip
        obtain ⟨-, hcs'⟩ := List.forall_mem_cons.mp hcs
        exact ⟨c', n - c.length, cs, by simp, Nat.sub_le _ _, hcs', rfl, rfl, rfl⟩

section Choice

variable {carries : List (List UInt8) → Prop} {pool : Bool} (hs : d.status = .pesPacket)

include hs

/-- Less than nine bytes of the header in the front block: nothing is sent. -/
theorem not_delivers_header (h : ¬9 ≤ (f.pieces.headD []).length) (hnil : ¬carries []) :
    ¬Delivers d f pool carries := by
  have hblocks := holdAll_holdingAll (fun _ => []) f.small
  refine not_delivers [] (poolHas_ofPool pool _) hblocks ?_ hnil
  rw [List.append_nil]
  cases hpieces : f.pieces with
  | nil => rw [holdingAll, List.map_nil, dealStep_done _ (d := { d with list := [] }) rfl]
  | cons c cs =>
    rw [hpieces] at h hblocks
    cases hblocks with
    | cons hb hbs =>
      exact dealStep_short (d := { d with list := holdingAll (fun _ => []) (c :: cs) }) hs rfl hb h

variable (env) (hheader : 9 ≤ (f.pieces.headD []).length)

include hheader

/-- The turn at blocks of one's choice. -/
theorem dealStep_holdingAll (behind : List UInt8 → List UInt8) :
    (f.streamId ≠ videoStreamId →
        ({ d with list := holdingAll behind f.pieces }.dealStep env).sent = d.sent) ∧
      (f.streamId = videoStreamId → ∃ e, AtVideo d f (holdingAll behind f.pieces) e ∧
        ({ d with list := holdingAll behind f.pieces }.dealStep env).sent =
          (e.sendEsVideoFrame env).sent) := by
  have hblocks := holdAll_holdingAll behind f.small
  cases hpieces : f.pieces with
  | nil =>
    rw [hpieces] at hheader
    exact absurd hheader (by decide)
  | cons c cs =>
    rw [hpieces] at hheader hblocks
    cases hblocks with
    | cons hb hbs =>
      obtain ⟨hother, hvideo⟩ := dealStep_pes env
        (d := { d with list := holdingAll behind (c :: cs) }) hs rfl hpieces hb hheader
      refine ⟨hother, fun hid => ?_⟩
      obtain ⟨e, he, hsent⟩ := hvideo hid
      exact ⟨e, ⟨he.list, he.length, he.streamId, he.payload, he.videoPayload, he.sent, he.usRtpSeq,
        he.allocs⟩, hsent⟩

omit env

/-- A video stream id other than 0xE0: nothing is sent. -/
theorem not_delivers_streamId (hid : f.streamId ≠ videoStreamId) (hnil : ¬carries []) :
    ¬Delivers d f pool carries := by
  refine not_delivers [] (poolHas_ofPool pool _)
    (holdAll_holdingAll (fun _ => []) f.small) ?_ hnil
  rw [List.append_nil]
  exact (dealStep_holdingAll (Env.ofPool pool) hs hheader _).1 hid

end Choice

end Demux

end AllCamera
