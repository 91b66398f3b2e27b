import AllCamera.Lib.HevcNal
import AllCamera.Stream.PsDemux.Pes

/-!
# An H.265 NAL unit through the demultiplexer

A NAL unit that fits into the front block is sent behind the header of an aggregation packet, but
without the length that such a packet has in front of each NAL unit. A longer one is sent block by
block. Of the last fragment, a whole block gets its end bit in the RTP header, and one that is copied
gets its headers in the block that it is copied from.

* `sendH265EsSigleNalu_not_carried`: the one packet is two bytes longer than the NAL unit.
* `sendFuBlocks265_noEnd`: no fragment has the end bit.
* `not_delivers_hevc`: no H.265 NAL unit arrives, however its PES packet is cut.
-/

namespace AllCamera

namespace Demux

open HevcNal (EndsFragment)

variable {env : Env} {d : Demux} {n : HevcNal} {b : MsgBlock} {bs : List MsgBlock} {r : Nat}

/-! ## One packet -/

/-- The packet of a NAL unit that ends with the front block. -/
def wholeNal (d : Demux) (b : MsgBlock) : MsgBlock :=
  ((b.behindCode 4).prepend aggregationHeader).stampFront (d.head d.videoPayload true)

/-- How many bytes of the front block are copied. -/
def partNalLen (d : Demux) (b : MsgBlock) : Nat :=
  if b.startsWith startCode then minus32 d.info.length 4 else d.info.length

/-- The block that the bytes are copied from: the aggregation header was stored behind it. -/
def storedBehind (b : MsgBlock) : MsgBlock :=
  { b.behindCode 4 with data := (b.behindCode 4).data.write (b.behindCode 4).wr aggregationHeader }

/-- The packet of a NAL unit that ends inside the front block, in a block of the pool. -/
def partNal (d : Demux) (b : MsgBlock) (buffer : Memory) : MsgBlock :=
  { MsgBlock.ofPool buffer (d.head d.videoPayload true) with
    wr := (MsgBlock.ofPool buffer (d.head d.videoPayload true)).wr + (2 : Nat) }.copy
      (storedBehind b) (d.partNalLen b)

/-- What `sendH265EsSigleNalu` sends for the video stream. -/
theorem sendH265EsSigleNalu_sent (env : Env) (hl : d.list = b :: bs) (hid : d.info.streamId = videoStreamId)
    (hle : d.info.length ≤ b.length) :
    (d.info.length = b.length ∧ (d.sendH265EsSigleNalu env).sent = d.sent ++ [d.wholeNal b]) ∨
      (d.sendH265EsSigleNalu env).sent = d.sent ∨
      ∃ buffer, (d.sendH265EsSigleNalu env).sent = d.sent ++ [d.partNal b buffer] := by
  rw [sendH265EsSigleNalu, hl]
  by_cases heq : d.info.length = b.length
  · simp only [if_pos heq]
    exact .inl ⟨heq, rfl⟩
  · right
    simp only [if_neg heq, if_pos (show d.info.length < b.length by omega), if_pos hid]
    cases env.alloc d.allocs with
    | none => exact .inl rfl
    | some buffer => exact .inr ⟨buffer, rfl⟩

theorem length_wholeNal (hlen : d.info.length = 4 + n.bytes.length) (hlt : d.info.length < 2 ^ 16)
    (heq : d.info.length = b.length) : (d.wholeNal b).rtp.payload.length = n.bytes.length + 2 ∨
      (d.wholeNal b).rtp.payload.length = n.bytes.length + 6 := by
  rw [MsgBlock.length_rtp, wholeNal, MsgBlock.length_stampFront_prepend, MsgBlock.behindCode]
  have hb : b.length = ((b.wr - b.rd) % 2 ^ 64).toNat := rfl
  simp only [RtpPacket.fixedHeader, aggregationHeader, List.length_cons, List.length_nil]
  split
  · simp only [MsgBlock.advance]
    omega
  · omega

theorem length_partNal (hlen : d.info.length = 4 + n.bytes.length) (hlt : d.info.length < 2 ^ 16)
    (buffer : Memory) : (d.partNal b buffer).rtp.payload.length = n.bytes.length + 2 ∨
      (d.partNal b buffer).rtp.payload.length = n.bytes.length + 6 ∨
      ((d.partNal b buffer).rtp.payload.length = 2 ∧ 2000 < n.bytes.length) := by
  have hpart : d.partNalLen b = n.bytes.length ∨ d.partNalLen b = n.bytes.length + 4 := by
    rw [partNalLen, minus32]
    split <;> omega
  rw [partNal, MsgBlock.skip_eq_append, MsgBlock.rtp_copy _ _ _ (by rw [Memory.length_read]; decide)]
  simp only [List.length_append, Memory.length_read, MsgBlock.blockSize, RtpPacket.fixedHeader]
  split
  · rw [Memory.length_read]
    omega
  · rw [List.length_nil]
    omega

/-- A NAL unit that ends in the front block is not carried by the packet that is sent for it. -/
theorem sendH265EsSigleNalu_not_carried (hl : d.list = b :: bs)
    (hid : d.info.streamId = videoStreamId) (hlen : d.info.length = 4 + n.bytes.length)
    (hlt : d.info.length < 2 ^ 16) (hle : d.info.length ≤ b.length) :
    ∃ new, (d.sendH265EsSigleNalu env).sent = d.sent ++ new ∧ ¬n.Carried (payloads new) := by
  have hone : ∀ p : MsgBlock, n.Carried (payloads [p]) → p.rtp.payload.length = n.bytes.length ∨
      p.rtp.payload.length = n.bytes.length + 4 := fun p h => h.length_of_one
  obtain ⟨heq, hsent⟩ | hsent | ⟨buffer, hsent⟩ := sendH265EsSigleNalu_sent env hl hid hle
  · refine ⟨_, hsent, fun h => ?_⟩
    have := hone _ h
    have := length_wholeNal hlen hlt heq
    omega
  · exact ⟨[], by rw [hsent, List.append_nil], fun h => h.ne_nil rfl⟩
  · refine ⟨_, hsent, fun h => ?_⟩
    have := hone _ h
    have := length_partNal (b := b) hlen hlt buffer
    omega

/-! ## Fragments -/

/-- The packet of a whole block. -/
def wholeFu265 (d : Demux) (bStart : Bool) (nal : UInt8) (b : MsgBlock) (r : Nat) : MsgBlock :=
  fuBlock265 (b.behindCode 6) (nalTypeAt b nal) bStart (decide (r - b.length = 0))
    (d.head d.videoPayload (decide (r - b.length = 0)))

/-- The block that the bytes are copied from: the fragment's headers were stored over them. -/
def storedOver (nal : UInt8) (b : MsgBlock) : MsgBlock :=
  { b.behindCode 6 with
    data := (b.behindCode 6).data.write (b.behindCode 6).rd (fuBytes (nalTypeAt b nal) false true) }

/-- The packet of the block in which the elementary stream ends, in a block of the pool. -/
def partFu265 (d : Demux) (nal : UInt8) (b : MsgBlock) (r : Nat) (buffer : Memory) : MsgBlock :=
  { MsgBlock.ofPool buffer (d.head d.videoPayload true) with
    wr := (MsgBlock.ofPool buffer (d.head d.videoPayload true)).wr + (3 : Nat) }.copy
      (storedOver nal b) (if b.startsWith startCode then minus32 r 2 else r)

section Turn

variable (env d) (s : Bool) (nal : UInt8)

theorem fuBytes_ne_nil (nal : UInt8) (s e : Bool) : fuBytes nal s e ≠ [] := List.cons_ne_nil _ _

theorem sendFuBlocks265_zero (l : List MsgBlock) :
    (d.sendFuBlocks265 env 0 s nal l).sent = d.sent := by
  cases l with
  | nil => rfl
  | cons b bs => rw [sendFuBlocks265, if_pos rfl]

/-- A whole block is sent, and the loop goes on. -/
theorem sendFuBlocks265_whole (hr : r ≠ 0) (hall : b.length ≤ r) (bs : List MsgBlock) :
    ∃ e : Demux, e.sent = d.sent ++ [d.wholeFu265 s nal b r] ∧
      d.sendFuBlocks265 env r s nal (b :: bs) =
        e.sendFuBlocks265 env (r - b.length) false (nalTypeAt b nal) bs := by
  refine ⟨(d.log (b.codeFaults 6)).send (d.wholeFu265 s nal b r), rfl, ?_⟩
  rw [sendFuBlocks265, if_neg hr, if_pos hall]
  rfl

/-- The bytes of the last block are sent, if the pool has a block. -/
theorem sendFuBlocks265_part (hr : r ≠ 0) (hlt : ¬b.length ≤ r) (bs : List MsgBlock) :
    (d.sendFuBlocks265 env r s nal (b :: bs)).sent = d.sent ∨ ∃ buffer,
      env.alloc d.allocs = some buffer ∧
        (d.sendFuBlocks265 env r s nal (b :: bs)).sent = d.sent ++ [d.partFu265 nal b r buffer] := by
  rw [sendFuBlocks265, if_neg hr, if_neg hlt]
  cases env.alloc d.allocs with
  | none => exact .inl rfl
  | some buffer => exact .inr ⟨buffer, rfl, rfl⟩

end Turn

theorem nalTypeAt_lt {nal : UInt8} (h : nal.toNat < 64) (b : MsgBlock) : (nalTypeAt b nal).toNat < 64 := by
  rw [nalTypeAt]
  split
  · rw [nalType, UInt8.toNat_and]
    exact Nat.and_lt_two_pow _ (show 63 < 2 ^ 6 by decide)
  · exact h

/-- The end bit does not change the payload: it goes to the RTP header. -/
theorem payload_fuBlock265 (b : MsgBlock) (nal : UInt8) (s e : Bool) (head : RtpPacket.Head) :
    (fuBlock265 b nal s e head).rtp.payload =
      ((b.prepend (fuBytes nal s false)).stampFront head).rtp.payload := by
  have hblock : fuBlock265 b nal s false head = (b.prepend (fuBytes nal s false)).stampFront head := rfl
  cases e with
  | false => rw [hblock]
  | true =>
    rw [← hblock]
    have hset : fuBlock265 b nal s true head = { fuBlock265 b nal s false head with
        data := (fuBlock265 b nal s false head).data.write ((fuBlock265 b nal s false head).rd + 2)
          [(fuBlock265 b nal s false head).byte 2 ||| (1 : UInt8) <<< 6] } := rfl
    rw [hset]
    generalize fuBlock265 b nal s false head = c
    simp only [MsgBlock.rtp, MsgBlock.payload, Memory.drop_read]
    refine Memory.read_write_of_disjoint (.inr ?_)
    simp only [List.length_singleton, RtpPacket.fixedHeader]
    omega

/-- A whole block has no end bit behind its payload header. -/
theorem not_ends_wholeFu265 {nal : UInt8} (h : nal.toNat < 64) (s : Bool) :
    ¬EndsFragment (d.wholeFu265 s nal b r).rtp.payload := by
  rintro ⟨p0, p1, fu, frag, hp, -, hend⟩
  rw [wholeFu265, payload_fuBlock265] at hp
  have htake := MsgBlock.take_rtp_prepend (b.behindCode 6) (fuBytes (nalTypeAt b nal) s false)
    (d.head d.videoPayload (decide (r - b.length = 0)))
  generalize hm : (((b.behindCode 6).prepend (fuBytes (nalTypeAt b nal) s false)).stampFront
    (d.head d.videoPayload (decide (r - b.length = 0)))).length - RtpPacket.fixedHeader = m at htake
  have hthree : (fuBytes (nalTypeAt b nal) s false).length ≤ m := by
    have hlen := congrArg List.length htake
    rw [hp, List.length_take, List.length_take] at hlen
    simp only [fuBytes, List.length_cons, List.length_nil] at hlen ⊢
    omega
  rw [hp, List.take_of_length_le hthree] at htake
  have hfu : fu = nalTypeAt b nal ||| (if s then (1 : UInt8) <<< 7 else 0) ||| 0 := by
    have := congrArg (fun l : List UInt8 => l.getD 2 0) htake
    exact this
  have hbit := Nat.testBit_eq_decide_div_mod_eq (x := fu.toNat) (i := 6)
  rw [decide_eq_true (by exact hend), hfu, UInt8.toNat_or, UInt8.toNat_or, Nat.testBit_or,
    Nat.testBit_or, Nat.testBit_lt_two_pow (nalTypeAt_lt h b)] at hbit
  cases s <;> exact absurd hbit (by decide)

/-- What a zeroed block of the pool holds behind the header. -/
theorem ofPool_behind (h : RtpPacket.Head) :
    (MsgBlock.ofPool (fun _ => 0) h).data (MsgBlock.ofPool (fun _ => 0) h).wr = 0 := by
  have hbehind : ∀ l : List UInt8, l.length = RtpPacket.fixedHeader →
      Memory.write (fun _ => 0) 0 l (RtpPacket.fixedHeader : Nat) = 0 :=
    fun l hl => Memory.write_of_ge (m := fun _ => 0) (by omega)
  rw [MsgBlock.ofPool, RtpPacket.stamp_eq]
  exact hbehind h.bytes h.length_bytes

/-- A block that is copied has what its buffer held where its headers should be: no fragment type,
when that was zero. -/
theorem not_ends_partFu265 (nal : UInt8) :
    ¬EndsFragment (d.partFu265 nal b r fun _ => 0).rtp.payload := by
  rintro ⟨p0, p1, fu, frag, hp, htype, -⟩
  rw [partFu265, MsgBlock.skip_eq_append,
    MsgBlock.rtp_copy _ _ _ (by rw [Memory.length_read]), Memory.read_succ, List.cons_append] at hp
  have hzero := ofPool_behind (d.head d.videoPayload true)
  have hfirst : (0 : UInt8) = p0 := hzero.symm.trans (List.cons.inj hp).1
  rw [← hfirst] at htype
  exact absurd htype (by decide)

/-- No fragment has the end bit. -/
theorem sendFuBlocks265_noEnd (hpool : ∀ k buffer, env.alloc k = some buffer → buffer = fun _ => 0)
    (s : Bool) {nal : UInt8} (hnal : nal.toNat < 64) (bs : List MsgBlock) :
    ∃ new, (d.sendFuBlocks265 env r s nal bs).sent = d.sent ++ new ∧
      ∀ l ∈ payloads new, ¬EndsFragment l := by
  induction bs generalizing d r s nal with
  | nil => exact ⟨[], (List.append_nil _).symm, fun l hl => absurd hl List.not_mem_nil⟩
  | cons b bs ih =>
    have hnone : ∃ new, d.sent = d.sent ++ new ∧ ∀ l ∈ payloads new, ¬EndsFragment l :=
      ⟨[], (List.append_nil _).symm, fun l hl => absurd hl List.not_mem_nil⟩
    by_cases hr : r = 0
    · rw [hr, sendFuBlocks265_zero]
      exact hnone
    by_cases hall : b.length ≤ r
    · obtain ⟨e, hsent, hloop⟩ := sendFuBlocks265_whole env d s nal hr hall bs
      obtain ⟨new, hnew, hnoEnd⟩ := ih (d := e) (r := r - b.length) false (nalTypeAt_lt hnal b)
      refine ⟨d.wholeFu265 s nal b r :: new, ?_, ?_⟩
      · rw [hloop, hnew, hsent, List.append_assoc, List.singleton_append]
      · exact List.forall_mem_cons.mpr ⟨not_ends_wholeFu265 hnal s, hnoEnd⟩
    · obtain hsent | ⟨buffer, halloc, hsent⟩ := sendFuBlocks265_part env d s nal hr hall bs
      · rw [hsent]
        exact hnone
      · obtain rfl := hpool _ _ halloc
        refine ⟨_, hsent, fun l hl => ?_⟩
        rw [List.mem_singleton.mp hl]
        exact not_ends_partFu265 nal

/-- A NAL unit that goes on behind the front block is not carried by its fragments. -/
theorem sendH265EsFuNale_not_carried
    (hpool : ∀ k buffer, env.alloc k = some buffer → buffer = fun _ => 0) (hl : d.list = b :: bs)
    (hlt : b.length < d.info.length) :
    ∃ new, (d.sendH265EsFuNale env).sent = d.sent ++ new ∧ ¬n.Carried (payloads new) := by
  obtain ⟨e, hsent, hloop⟩ := sendFuBlocks265_whole env d true 0 (b := b)
    (show d.info.length ≠ 0 by omega) (by omega) bs
  obtain ⟨new, hnew, hnoEnd⟩ := sendFuBlocks265_noEnd (d := e) (r := d.info.length - b.length) hpool
    false (nalTypeAt_lt (show (0 : UInt8).toNat < 64 by decide) b) bs
  refine ⟨d.wholeFu265 true 0 b d.info.length :: new, ?_, fun h => ?_⟩
  · rw [sendH265EsFuNale, hl, hloop, hnew, hsent, List.append_assoc, List.singleton_append]
  by_cases hlong : RtpPacket.fixedHeader < (((b.behindCode 6).prepend
      (fuBytes (nalTypeAt b 0) true false)).stampFront
        (d.head d.videoPayload (decide (d.info.length - b.length = 0)))).length
  · have htype : HevcNal.typeOf ((d.wholeFu265 true 0 b d.info.length).rtp.payload.headD 0) =
        HevcNal.fragmentation := by
      rw [wholeFu265, payload_fuBlock265, MsgBlock.headD_rtp_prepend _ (fuBytes_ne_nil _ _ _) _ hlong]
      exact (by decide : HevcNal.typeOf ((49 : UInt8) <<< 1) = HevcNal.fragmentation)
    obtain ⟨l, hmem, hend⟩ := h.of_fragments htype
    exact hnoEnd l hmem hend
  · apply h.head_ne_nil
    apply List.length_eq_zero_iff.mp
    show (d.wholeFu265 true 0 b d.info.length).rtp.payload.length = 0
    rw [wholeFu265, payload_fuBlock265, MsgBlock.length_rtp]
    omega

/-! ## No NAL unit arrives -/

/-- In front of a PES packet, with an H.265 stream. -/
structure AtH265 where
  demux : Demux
  status : demux.status = .pesPacket
  videoPayload : demux.videoPayload = PayloadType.h265

/-- A PES packet with an H.265 NAL unit. -/
structure H265Cut extends PesCut where
  unit : HevcNal
  nal_eq : nal = unit.bytes

/-- `sendEsVideoFrame` of an H.265 stream chooses by the front block. -/
theorem sendEsVideoFrame_h265 (hl : d.list = b :: bs) (hv : d.videoPayload = PayloadType.h265)
    (hp : d.info.payload = PayloadType.h265) : d.sendEsVideoFrame env =
      if d.info.length ≤ b.length then d.sendH265EsSigleNalu env else d.sendH265EsFuNale env := by
  rw [sendEsVideoFrame, sendVideo, hl]
  simp only [hv, hp, if_neg (show PayloadType.h265 ≠ PayloadType.max by decide),
    if_neg (show PayloadType.h265 ≠ PayloadType.h264 by decide), if_true]

/-- The turn does not send the NAL unit, when the blocks are zeroed. -/
theorem sendEsVideoFrame_not_carried (pool : Bool) (hid : d.info.streamId = videoStreamId)
    (hv : d.videoPayload = PayloadType.h265) (hp : d.info.payload = PayloadType.h265)
    (hlen : d.info.length = 4 + n.bytes.length) (hlt : d.info.length < 2 ^ 16) :
    ∃ new, (d.sendEsVideoFrame (Env.ofPool pool)).sent = d.sent ++ new ∧
      ¬n.Carried (payloads new) := by
  have hpool : ∀ k buffer, (Env.ofPool pool).alloc k = some buffer → buffer = fun _ => 0 := by
    intro k buffer h
    cases pool with
    | false => cases h
    | true => exact (Option.some.inj h).symm
  cases hl : d.list with
  | nil =>
    exact ⟨[], by rw [sendEsVideoFrame_nil hl, List.append_nil], fun h => h.ne_nil rfl⟩
  | cons b bs =>
    rw [sendEsVideoFrame_h265 hl hv hp]
    split
    · next hle => exact sendH265EsSigleNalu_not_carried hl hid hlen hlt hle
    · next hlong => exact sendH265EsFuNale_not_carried hpool hl (Nat.not_le.mp hlong)

/-- It is enough that the front block holds nine bytes of the PES header. -/
theorem not_delivers_h265 (a : AtH265) (f : H265Cut) (pool : Bool)
    (hheader : 9 ≤ (f.pieces.headD []).length) (hid : f.streamId = videoStreamId) :
    ¬Delivers a.demux f.toPesCut pool f.unit.Carried := by
  obtain ⟨e, he, hsent⟩ := (dealStep_holdingAll (Env.ofPool pool) a.status hheader fun _ => []).2 hid
  have hlen : e.info.length = 4 + f.unit.bytes.length := by rw [he.length, PesCut.esLen, f.nal_eq]
  have hfits := f.fits
  rw [f.nal_eq] at hfits
  obtain ⟨new, hnew, hnot⟩ := sendEsVideoFrame_not_carried pool he.streamId
    (he.videoPayload.trans a.videoPayload) (he.payload.trans a.videoPayload) hlen (by omega)
  exact not_delivers new (poolHas_ofPool pool _) (holdAll_holdingAll (fun _ => []) f.small)
    (by rw [hsent, hnew, he.sent]) hnot

/-- No H.265 NAL unit is carried by the packets that are sent for it, however its PES packet is cut. -/
theorem not_delivers_hevc (a : AtH265) (f : H265Cut) (pool : Bool) :
    ¬Delivers a.demux f.toPesCut pool f.unit.Carried := by
  by_cases hheader : 9 ≤ (f.pieces.headD []).length
  · by_cases hid : f.streamId = videoStreamId
    · exact not_delivers_h265 a f pool hheader hid
    · exact not_delivers_streamId a.status hheader hid fun h => h.ne_nil rfl
  · exact not_delivers_header a.status hheader fun h => h.ne_nil rfl

/-! ## One packet and two -/

/-- A NAL unit in one block and a NAL unit in two. -/
def inOneBlock : H265Cut where
  streamId := 0xE0
  flag1 := 0x80
  flag2 := 0
  hdr := []
  nal := [0x26, 1, 0xAF]
  post := []
  pieces := [[0, 0, 1, 0xE0, 0, 10, 0x80, 0, 0, 0, 0, 0, 1, 0x26, 1, 0xAF]]
  video := rfl
  hdr_le := Nat.zero_le _
  fits := by decide
  cut := by decide
  small := by decide
  unit := ⟨0x26, 1, [0xAF], by decide⟩
  nal_eq := rfl

/-- The demultiplexer in front of a PES packet of an H.265 stream. -/
def atHevcPes : AtH265 :=
  ⟨{ init with status := .pesPacket, videoPayload := PayloadType.h265 }, rfl, rfl⟩

/-- The packet is an aggregation packet without a length. -/
theorem not_delivers_inOneBlock :
    payloads ({ atHevcPes.demux with list := holdingAll (fun _ => []) inOneBlock.pieces }.dealStep
        Env.zero).sent = [[96, 1, 0x26, 1, 0xAF]] ∧
      ¬Delivers atHevcPes.demux inOneBlock.toPesCut true inOneBlock.unit.Carried :=
  ⟨by decide, not_delivers_h265 atHevcPes inOneBlock true (by decide) rfl⟩

end Demux

end AllCamera
