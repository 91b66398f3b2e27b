import AllCamera.Stream.Rtp2Ps

/-!
# The elementary-stream frame of an H.264 frame

`CRtp2PsProcessor` writes one start code for a frame and rebuilds one NAL header in it.

* `H264Frame`: a frame of any NAL units in single and FU-A packets, with any RTP padding.
* `checkVideo_put`, `checkVideo_ok`: what `checkVideoRtpFrame` writes to the cache, and that it does
  when there is room for it.
* `handsOver_iff`: the frame that `insertVideoFrame` gets is the byte stream of the NAL units exactly
  when there is one of them and no padding.
-/

namespace AllCamera

open Nal (typeOf fuA)

/-! ## The packets of a frame -/

namespace MsgBlock

/-- What is behind the RTP header. -/
def content (b : MsgBlock) : List UInt8 := b.payload.drop b.parse.headLen

/-- A packet as the organizer hands it over: accepted by `ParsePacket`, with the padding bit
cleared. -/
structure IsStored (b : MsgBlock) : Prop where
  inside : b.Inside
  parses : b.parse.ret = .ok
  cleared : RtpPacket.padding b.data b.rd ≠ 1

variable {b : MsgBlock}

theorem IsStored.parsed_eq (h : b.IsStored) : b.parsed = b := by
  rw [parsed, parse, RtpPacket.parsePacket_data h.cleared]

theorem IsStored.headLen_le (h : b.IsStored) :
    RtpPacket.fixedHeader ≤ b.parse.headLen ∧ b.parse.headLen ≤ b.length := by
  have hlen := RtpPacket.parsePacket_headLen h.parses
  exact ⟨hlen.1, hlen.2.trans_eq h.inside.length32_eq⟩

theorem IsStored.content_eq (h : b.IsStored) : (b.advance b.parse.headLen).payload = b.content :=
  h.inside.payload_advance h.headLen_le.2

theorem IsStored.fixedHeader_le (h : b.IsStored) : ¬ b.length32 < RtpPacket.fixedHeader := by
  have := h.headLen_le
  have := h.inside.length32_eq
  omega

theorem IsStored.gotPayloadType_eq (h : b.IsStored) :
    b.gotPayloadType = RtpPacket.getPayloadType b.data b.rd := by
  rw [gotPayloadType, if_neg h.fixedHeader_le, parse, RtpPacket.parsePacket_data h.cleared]

theorem IsStored.gotTimeStamp_eq (h : b.IsStored) :
    b.gotTimeStamp = RtpPacket.getTimeStamp b.data b.rd := by
  rw [gotTimeStamp, if_neg h.fixedHeader_le, parse, RtpPacket.parsePacket_data h.cleared]

end MsgBlock

/-- A packet of the video stream with its time stamp. `padding` is how many of its last bytes are
RTP padding: the last one said so as long as the padding bit was set. -/
structure NalPacket (videoPT : UInt8) (timeStamp : UInt32) where
  block : MsgBlock
  stored : block.IsStored
  payloadType : RtpPacket.getPayloadType block.data block.rd = videoPT
  stamped : RtpPacket.getTimeStamp block.data block.rd = timeStamp
  padding : Nat
  padding_le : padding ≤ block.content.length
  count : 0 < padding → block.content.getLast?.map UInt8.toNat = some padding

namespace NalPacket

variable {videoPT : UInt8} {timeStamp : UInt32}

/-- The payload: between the RTP header and the padding. -/
def payload (p : NalPacket videoPT timeStamp) : List UInt8 :=
  p.block.content.take (p.block.content.length - p.padding)

/-- The padding bytes. -/
def pad (p : NalPacket videoPT timeStamp) : List UInt8 :=
  p.block.content.drop (p.block.content.length - p.padding)

theorem content_eq (p : NalPacket videoPT timeStamp) : p.block.content = p.payload ++ p.pad :=
  (List.take_append_drop _ _).symm

theorem length_pad (p : NalPacket videoPT timeStamp) : p.pad.length = p.padding := by
  have := p.padding_le
  rw [pad, List.length_drop]
  omega

end NalPacket

/-- An H.264 frame: NAL units that share a time stamp, in packets one after the other. With a start
code in front of each they fit into the frame cache. -/
structure H264Frame (videoPT : UInt8) where
  timeStamp : UInt32
  nals : List Nal
  packets : List (NalPacket videoPT timeStamp)
  ne_nil : nals ≠ []
  carried : CarriedAll nals (packets.map NalPacket.payload)
  fits : 4 * nals.length + nalLength nals ≤ Rtp2Ps.rtpFrameCacheSize

namespace H264Frame

variable {videoPT : UInt8}

/-- The blocks that the organizer hands over. -/
def blocks (f : H264Frame videoPT) : List MsgBlock := f.packets.map NalPacket.block

/-- What is behind their RTP headers. -/
def contents (f : H264Frame videoPT) : List (List UInt8) := f.blocks.map MsgBlock.content

/-- The RTP padding of the packets. -/
def padding (f : H264Frame videoPT) : Nat := (f.packets.map NalPacket.padding).sum

end H264Frame

namespace Rtp2Ps

/-! ## What the loop collects -/

/-- A payload that is long enough for the headers of its type. -/
def WellFormed (c : List UInt8) : Prop := c ≠ [] ∧ (typeOf (c.headD 0) = fuA → 2 ≤ c.length)

/-- What a packet adds to the cache. -/
def videoPart (bRemoveHead : Bool) (c : List UInt8) : List UInt8 :=
  if typeOf (c.headD 0) = fuA then
    (if bRemoveHead then [Nal.rebuilt (c.getD 0 0) (c.getD 1 0)] else []) ++ c.drop 2
  else c

/-- `bRemoveHead` behind a packet. -/
def keepsHead (bRemoveHead : Bool) (c : List UInt8) : Bool :=
  if typeOf (c.headD 0) = fuA then false else bRemoveHead

/-- What the packets add to the cache. -/
def collected : Bool → List (List UInt8) → List UInt8
  | _, [] => []
  | bRemoveHead, c :: cs => videoPart bRemoveHead c ++ collected (keepsHead bRemoveHead c) cs

theorem put_put (r : Rtp2Ps) (a b : List UInt8) : (r.put a).put b = r.put (a ++ b) := by
  simp only [put, Int.natCast_add, Memory.write_append, List.length_append, Nat.add_assoc]

theorem put_nil (r : Rtp2Ps) : r.put [] = r := by
  have h : r.cache.write r.writePos [] = r.cache := Memory.write_read r.cache r.writePos 0
  simp only [put, h, List.length_nil, Nat.add_zero]

theorem getD_payload {b : MsgBlock} {k : Nat} (h : k < b.length) : b.payload.getD k 0 = b.byte k := by
  rw [List.getD_eq_getElem?_getD, MsgBlock.payload, Memory.getElem?_read _ _ _ _ h]
  rfl

/-- The branches on the first byte, on the bytes behind the RTP header. -/
theorem unpack_spec {b : MsgBlock} (h : b.Inside) (hc : WellFormed b.payload) (bRemoveHead : Bool) :
    (unpack bRemoveHead b).1 ++ (unpack bRemoveHead b).2.1.payload = videoPart bRemoveHead b.payload ∧
      (unpack bRemoveHead b).2.2 = keepsHead bRemoveHead b.payload := by
  obtain ⟨hne, hlong⟩ := hc
  have hpos : 0 < b.length := by
    rw [← MsgBlock.length_payload]
    exact List.length_pos_iff.mpr hne
  have hfirst : b.payload.headD 0 = b.byte 0 := by
    rw [← getD_payload hpos]
    cases b.payload <;> rfl
  rw [unpack, videoPart, keepsHead, hfirst, typeOf, fuA, h264NaluTypeFuA]
  by_cases hfu : (b.byte 0).toNat % 32 = 28
  · rw [hfirst, MsgBlock.length_payload] at hlong
    have h2 := hlong hfu
    rw [if_pos hfu, if_pos hfu, if_pos hfu, h.payload_advance h2, getD_payload hpos,
      getD_payload (by omega)]
    exact ⟨rfl, rfl⟩
  · rw [if_neg hfu, if_neg hfu, if_neg hfu]
    exact ⟨rfl, rfl⟩

/-- The packets of a list are stored and long enough. -/
def Readable (bs : List MsgBlock) : Prop := ∀ b ∈ bs, b.IsStored ∧ WellFormed b.content

theorem Readable.head {b : MsgBlock} {bs : List MsgBlock} (h : Readable (b :: bs)) :
    b.IsStored ∧ WellFormed b.content := h b (List.mem_cons_self ..)

theorem Readable.tail {b : MsgBlock} {bs : List MsgBlock} (h : Readable (b :: bs)) : Readable bs :=
  fun c hc => h c (List.mem_cons_of_mem _ hc)

/-- The block as the loop looks at it, behind its RTP header. -/
theorem nextBlock_eq {b : MsgBlock} (h : b.IsStored) (headLen : Nat) :
    b.parsed.advance (nextHeadLen headLen b) = b.advance b.parse.headLen := by
  rw [h.parsed_eq, nextHeadLen, if_pos h.parses]

/-- `checkVideoRtpFrame` only ever writes what the packets add, one behind the other. -/
theorem checkVideo_put {bs : List MsgBlock} (h : Readable bs) {r r' : Rtp2Ps} {headLen n : Nat}
    {bRemoveHead : Bool} (hok : r.checkVideo headLen n bRemoveHead bs = (.ok, r')) :
    r' = r.put (collected bRemoveHead (bs.map MsgBlock.content)) := by
  induction bs generalizing r headLen n bRemoveHead with
  | nil =>
    obtain rfl : r = r' := (Prod.mk.inj hok).2
    exact (put_nil r).symm
  | cons b bs ih =>
    obtain ⟨hb, hc⟩ := h.head
    rw [← hb.content_eq] at hc
    obtain ⟨hpart, hkeep⟩ := unpack_spec (hb.inside.advance hb.headLen_le.2) hc bRemoveHead
    simp only [checkVideo, nextBlock_eq hb] at hok
    split at hok
    · rw [ih h.tail hok, put_put, put_put, ← List.append_assoc, hpart, hkeep, hb.content_eq]
      rfl
    · simp at hok

/-- It does so when there is room. -/
theorem checkVideo_ok {bs : List MsgBlock} (h : Readable bs) {r : Rtp2Ps} {headLen n : Nat}
    {bRemoveHead : Bool} (hn : n < 2 ^ 32)
    (hfits : (collected bRemoveHead (bs.map MsgBlock.content)).length ≤ n) :
    (r.checkVideo headLen n bRemoveHead bs).1 = .ok := by
  induction bs generalizing r headLen n bRemoveHead with
  | nil => rfl
  | cons b bs ih =>
    obtain ⟨hb, hc⟩ := h.head
    rw [← hb.content_eq] at hc
    obtain ⟨hpart, hkeep⟩ := unpack_spec (hb.inside.advance hb.headLen_le.2) hc bRemoveHead
    have hlen := congrArg List.length hpart
    rw [List.length_append, MsgBlock.length_payload, hb.content_eq] at hlen
    rw [List.map_cons, collected, List.length_append, ← hlen, ← hb.content_eq, ← hkeep] at hfits
    simp only [checkVideo, nextBlock_eq hb]
    have hminus : Demux.minus32 n (unpack bRemoveHead (b.advance b.parse.headLen)).1.length =
        n - (unpack bRemoveHead (b.advance b.parse.headLen)).1.length := by
      unfold Demux.minus32
      omega
    rw [hminus, if_pos (by omega)]
    exact ih h.tail (by omega) (by omega)

/-! ## What NAL units leave -/

theorem videoPart_fragment (bRemoveHead : Bool) (n : Nal) (fu : UInt8) (frag : List UInt8) :
    videoPart bRemoveHead (n.indicator :: fu :: frag) =
      (if bRemoveHead then [Nal.rebuilt n.indicator fu] else []) ++ frag :=
  if_pos n.typeOf_indicator

theorem keepsHead_fragment (bRemoveHead : Bool) (n : Nal) (fu : UInt8) (frag : List UInt8) :
    keepsHead bRemoveHead (n.indicator :: fu :: frag) = false :=
  if_pos n.typeOf_indicator

/-- The fragments behind the first one leave the rest of the body. -/
theorem collected_fragments {n : Nal} {body : List UInt8} {ps : List (List UInt8)}
    (h : n.Fragments body ps) (qs : List (List UInt8)) :
    collected false (ps ++ qs) = body ++ collected false qs := by
  induction h with
  | last hfu =>
    rw [List.cons_append, List.nil_append, collected, videoPart_fragment, keepsHead_fragment]
    rfl
  | middle hfu hps ih =>
    rw [List.cons_append, collected, videoPart_fragment, keepsHead_fragment, ih, List.append_assoc,
      List.append_assoc]
    rfl

/-- The packets of a NAL unit leave the NAL unit, or its body alone when a fragmented one came
before. -/
theorem collected_carried {n : Nal} {ps : List (List UInt8)} (h : n.Carried ps) (bRemoveHead : Bool) :
    ∃ keep l, (∀ qs, collected bRemoveHead (ps ++ qs) = l ++ collected keep qs) ∧
      l.length ≤ n.bytes.length ∧ (bRemoveHead = true → l = n.bytes) := by
  cases h with
  | single =>
    refine ⟨bRemoveHead, n.bytes, fun qs => ?_, Nat.le_refl _, fun _ => rfl⟩
    have hne : ¬ typeOf (n.bytes.headD 0) = fuA := n.typeOf_header_ne
    rw [List.cons_append, List.nil_append, collected, videoPart, keepsHead, if_neg hne, if_neg hne]
  | @fragments fu frag body ps hfu hbody hps =>
    refine ⟨false, (if bRemoveHead then [n.header] else []) ++ n.body, fun qs => ?_, ?_, ?_⟩
    · rw [List.cons_append, collected, videoPart_fragment, keepsHead_fragment, hfu.rebuilt_eq,
        collected_fragments hps, hbody, List.append_assoc, List.append_assoc, List.append_assoc]
    · cases bRemoveHead <;> simp
    · rintro rfl
      rfl

theorem length_collected_le {ns : List Nal} {ps : List (List UInt8)} (h : CarriedAll ns ps)
    (bRemoveHead : Bool) : (collected bRemoveHead ps).length ≤ nalLength ns := by
  induction h generalizing bRemoveHead with
  | nil => exact Nat.le_refl _
  | cons hn _ ih =>
    obtain ⟨keep, l, hl, hle, -⟩ := collected_carried hn bRemoveHead
    have := ih keep
    rw [hl, List.length_append, nalLength_cons]
    omega

theorem collected_one {n : Nal} {ps : List (List UInt8)} (h : n.Carried ps) :
    collected true ps = n.bytes := by
  obtain ⟨keep, l, hl, -, hbytes⟩ := collected_carried h true
  have hps := hl []
  rwa [List.append_nil, collected, List.append_nil, hbytes rfl] at hps

/-! ## Padding -/

theorem wellFormed_fragment (n : Nal) (fu : UInt8) (frag : List UInt8) :
    WellFormed (n.indicator :: fu :: frag) := ⟨by simp, fun _ => by simp⟩

theorem wellFormed_fragments {n : Nal} {body : List UInt8} {ps : List (List UInt8)}
    (h : n.Fragments body ps) : ∀ p ∈ ps, WellFormed p := by
  induction h with
  | last hfu =>
    intro p hp
    rw [List.mem_singleton.mp hp]
    exact wellFormed_fragment _ _ _
  | middle hfu hps ih => exact List.forall_mem_cons.mpr ⟨wellFormed_fragment _ _ _, ih⟩

theorem wellFormed_carried {n : Nal} {ps : List (List UInt8)} (h : n.Carried ps) :
    ∀ p ∈ ps, WellFormed p := by
  cases h with
  | single =>
    intro p hp
    rw [List.mem_singleton.mp hp]
    exact ⟨by simp [Nal.bytes], fun ht => absurd ht n.typeOf_header_ne⟩
  | fragments hfu hbody hps =>
    exact List.forall_mem_cons.mpr ⟨wellFormed_fragment _ _ _, wellFormed_fragments hps⟩

theorem wellFormed_carriedAll {ns : List Nal} {ps : List (List UInt8)} (h : CarriedAll ns ps) :
    ∀ p ∈ ps, WellFormed p := by
  induction h with
  | nil => simp
  | cons hn _ ih =>
    exact List.forall_mem_append.mpr ⟨wellFormed_carried hn, ih⟩

section Padding

variable {p pad : List UInt8}

theorem headD_append (h : p ≠ []) : (p ++ pad).headD 0 = p.headD 0 := by
  cases p with
  | nil => exact absurd rfl h
  | cons => rfl

theorem WellFormed.append (h : WellFormed p) : WellFormed (p ++ pad) := by
  refine ⟨by simp [h.1], fun ht => ?_⟩
  rw [headD_append h.1] at ht
  have := h.2 ht
  rw [List.length_append]
  omega

theorem keepsHead_append (h : WellFormed p) (bRemoveHead : Bool) :
    keepsHead bRemoveHead (p ++ pad) = keepsHead bRemoveHead p := by
  rw [keepsHead, keepsHead, headD_append h.1]

/-- The padding of a packet goes to the cache like the rest. -/
theorem length_videoPart_append (h : WellFormed p) (bRemoveHead : Bool) :
    (videoPart bRemoveHead (p ++ pad)).length = (videoPart bRemoveHead p).length + pad.length := by
  rw [videoPart, videoPart, headD_append h.1]
  by_cases hfu : typeOf (p.headD 0) = fuA
  · rw [if_pos hfu, if_pos hfu, List.drop_append_of_le_length (h.2 hfu)]
    have hone : ∀ x y : UInt8, (if bRemoveHead then [x] else []).length =
        (if bRemoveHead then [y] else []).length := by
      cases bRemoveHead <;> simp
    rw [List.length_append, List.length_append, List.length_append, Nat.add_assoc, hone]
  · rw [if_neg hfu, if_neg hfu, List.length_append]

end Padding

variable {videoPT : UInt8} {timeStamp : UInt32}

theorem length_collected_contents {ps : List (NalPacket videoPT timeStamp)}
    (h : ∀ p ∈ ps, WellFormed p.payload) (bRemoveHead : Bool) :
    (collected bRemoveHead (ps.map fun p => p.block.content)).length =
      (collected bRemoveHead (ps.map NalPacket.payload)).length + (ps.map NalPacket.padding).sum := by
  induction ps generalizing bRemoveHead with
  | nil => rfl
  | cons p ps ih =>
    obtain ⟨hp, hps⟩ := List.forall_mem_cons.mp h
    simp only [List.map_cons, collected, List.length_append, List.sum_cons, p.content_eq]
    rw [length_videoPart_append hp, keepsHead_append hp, ← p.length_pad, ih hps]
    omega

/-! ## A call -/

/-- Between two calls: nothing in the cache, and the configuration of the run. -/
structure Idle (videoPT : UInt8) (r : Rtp2Ps) : Prop where
  writePos : r.writePos = 0
  recvVideoPT : r.recvVideoPT = videoPT
  sendSession : r.sendSession = true

/-- The loop of `checkVideoRtpFrame` changes the cache and the write position only. -/
theorem checkVideo_frame (r : Rtp2Ps) (headLen n : Nat) (bRemoveHead : Bool) (bs : List MsgBlock) :
    ∃ cache pos, (r.checkVideo headLen n bRemoveHead bs).2 =
      { r with cache := cache, writePos := pos } := by
  induction bs generalizing r headLen n bRemoveHead with
  | nil => exact ⟨r.cache, r.writePos, rfl⟩
  | cons b bs ih =>
    simp only [checkVideo]
    split
    · obtain ⟨cache, pos, h⟩ := ih _ _ _ _
      exact ⟨cache, pos, h⟩
    · exact ⟨_, _, rfl⟩

/-- And so does the loop of `checkAudioRtpFrame`. -/
theorem checkAudio_frame (r : Rtp2Ps) (headLen n : Nat) (bs : List MsgBlock) :
    ∃ cache pos, (r.checkAudio headLen n bs).2 = { r with cache := cache, writePos := pos } := by
  induction bs generalizing r headLen n with
  | nil => exact ⟨r.cache, r.writePos, rfl⟩
  | cons b bs ih =>
    simp only [checkAudio]
    split
    · obtain ⟨cache, pos, h⟩ := ih _ _ _
      exact ⟨cache, pos, h⟩
    · exact ⟨_, _, rfl⟩

theorem deliver_frame (call : List UInt8 → Inserted) {r : Rtp2Ps} {checked : RetCode × Rtp2Ps}
    (h : ∃ cache pos, checked.2 = { r with cache := cache, writePos := pos }) :
    ∃ cache pos ins, deliver checked call =
      { r with cache := cache, writePos := pos, inserted := ins } := by
  obtain ⟨cache, pos, h⟩ := h
  rw [deliver, h]
  split
  · exact ⟨cache, pos, _, rfl⟩
  · exact ⟨cache, pos, r.inserted, rfl⟩

theorem Idle.handleRtpFrame {r : Rtp2Ps} (h : r.Idle videoPT) (bs : List MsgBlock) :
    (r.handleRtpFrame bs).Idle videoPT := by
  obtain ⟨hpos, hpt, hs⟩ := h
  cases bs with
  | nil => exact ⟨hpos, hpt, hs⟩
  | cons b bs =>
    rw [Rtp2Ps.handleRtpFrame, if_neg (not_not.mpr hpos)]
    split
    · obtain ⟨cache, pos, ins, hr⟩ := deliver_frame (fun frame => .video frame b.parsed.gotTimeStamp)
        ((r.put startCode).checkVideo_frame 0 (rtpFrameCacheSize - 4) true (b.parsed.parsed :: bs))
      rw [handleVideoRtpFrame, checkVideoRtpFrame, hr]
      exact ⟨rfl, hpt, hs⟩
    · obtain ⟨cache, pos, ins, hr⟩ := deliver_frame (fun frame => .audio frame b.parsed.gotTimeStamp)
        (r.checkAudio_frame 0 rtpFrameCacheSize (b.parsed.parsed :: bs))
      rw [handleAudioRtpFrame, checkAudioRtpFrame, hr]
      exact ⟨rfl, hpt, hs⟩

theorem idle_run (videoPT : UInt8) (cache : Memory) (before : List (List MsgBlock)) :
    ((init videoPT true cache).run before).Idle videoPT := by
  have step : ∀ (frames : List (List MsgBlock)) (r : Rtp2Ps), r.Idle videoPT →
      (r.run frames).Idle videoPT := by
    intro frames
    induction frames with
    | nil => exact fun r h => h
    | cons bs frames ih => exact fun r h => ih _ (h.handleRtpFrame bs)
  exact step before _ ⟨rfl, rfl, rfl⟩

end Rtp2Ps

namespace H264Frame

open Rtp2Ps

variable {videoPT : UInt8} (f : H264Frame videoPT)

/-- What the cache holds when every packet went there. -/
def written : List UInt8 := startCode ++ collected true f.contents

theorem wellFormed : ∀ p ∈ f.packets, WellFormed p.payload := by
  intro p hp
  exact wellFormed_carriedAll f.carried _ (List.mem_map_of_mem hp)

theorem readable : Readable f.blocks := by
  intro b hb
  obtain ⟨p, hp, rfl⟩ := List.mem_map.mp hb
  refine ⟨p.stored, ?_⟩
  rw [p.content_eq]
  exact (f.wellFormed p hp).append

theorem contents_eq : f.contents = f.packets.map fun p => p.block.content := by
  simp only [contents, blocks, List.map_map, Function.comp_def]

theorem length_written :
    f.written.length =
      4 + (collected true (f.packets.map NalPacket.payload)).length + f.padding := by
  rw [written, f.contents_eq, List.length_append, length_collected_contents f.wellFormed]
  simp only [startCode, padding, List.length_cons, List.length_nil]
  omega

theorem packets_ne_nil : f.packets ≠ [] := by
  have := f.carried.ne_nil f.ne_nil
  rwa [Ne, List.map_eq_nil_iff] at this

/-- `handleRtpFrame` takes the frame for video and gives the encapsulator what
`checkVideoRtpFrame` left. -/
theorem handleRtpFrame_eq {r : Rtp2Ps} (h : r.Idle videoPT) :
    r.handleRtpFrame f.blocks =
      (deliver ((r.put startCode).checkVideoRtpFrame f.blocks) fun frame =>
        .video frame f.timeStamp).rewind := by
  obtain ⟨p, ps, hps⟩ := List.exists_cons_of_ne_nil f.packets_ne_nil
  have hp := p.stored
  rw [blocks, hps, List.map_cons, Rtp2Ps.handleRtpFrame, if_neg (not_not.mpr h.writePos),
    hp.gotPayloadType_eq, p.payloadType, if_pos h.recvVideoPT.symm, handleVideoRtpFrame,
    hp.parsed_eq, hp.parsed_eq, hp.gotTimeStamp_eq, p.stamped]

/-- What is in the cache is what was written since its begin. -/
theorem esFrame_put {r : Rtp2Ps} (h : r.writePos = 0) (l : List UInt8) : (r.put l).esFrame = l := by
  simp only [esFrame, put, h, Nat.zero_add]
  exact Memory.read_write _ _ _

/-- A frame that was checked leaves in the cache what its packets add. -/
theorem checkVideoRtpFrame_snd {r : Rtp2Ps}
    (hok : ((r.put startCode).checkVideoRtpFrame f.blocks).1 = .ok) :
    ((r.put startCode).checkVideoRtpFrame f.blocks).2 = r.put f.written := by
  have hput := checkVideo_put f.readable (Prod.ext hok rfl)
  rw [put_put] at hput
  exact hput

/-- And `insertVideoFrame` gets it. -/
theorem inserted_of_ok {r : Rtp2Ps} (h : r.Idle videoPT)
    (hok : ((r.put startCode).checkVideoRtpFrame f.blocks).1 = .ok) :
    (r.handleRtpFrame f.blocks).inserted = r.inserted ++ [.video f.written f.timeStamp] := by
  have hsnd := f.checkVideoRtpFrame_snd hok
  rw [f.handleRtpFrame_eq h, deliver, hsnd, if_pos ⟨hok, h.sendSession⟩, rewind, Rtp2Ps.insert,
    esFrame_put h.writePos]
  rfl

/-- A frame that was not is not handed over. -/
theorem inserted_of_not_ok {r : Rtp2Ps} (h : r.Idle videoPT)
    (hok : ((r.put startCode).checkVideoRtpFrame f.blocks).1 ≠ .ok) :
    (r.handleRtpFrame f.blocks).inserted = r.inserted := by
  obtain ⟨cache, pos, hsame⟩ :=
    (r.put startCode).checkVideo_frame 0 (rtpFrameCacheSize - 4) true f.blocks
  rw [f.handleRtpFrame_eq h, deliver, if_neg fun hc => hok hc.1, checkVideoRtpFrame, hsame]
  rfl

/-- `insertVideoFrame` is called with the byte stream of the frame's NAL units. -/
def HandsOver (r : Rtp2Ps) : Prop :=
  ∃ es, (r.handleRtpFrame f.blocks).inserted = r.inserted ++ [.video es f.timeStamp] ∧
    AnnexB f.nals es

/-- The frame that is handed over is what was written. -/
theorem HandsOver.annexB {f : H264Frame videoPT} {r : Rtp2Ps} (h : r.Idle videoPT)
    (ho : f.HandsOver r) : AnnexB f.nals f.written := by
  obtain ⟨es, hins, hes⟩ := ho
  by_cases hok : ((r.put startCode).checkVideoRtpFrame f.blocks).1 = .ok
  · rw [f.inserted_of_ok h hok, List.append_cancel_left_eq] at hins
    simp only [List.cons.injEq, Inserted.video.injEq, and_true] at hins
    rwa [hins]
  · rw [f.inserted_of_not_ok h hok] at hins
    simp at hins

theorem collected_payloads {n : Nal} (hn : f.nals = [n]) :
    collected true (f.packets.map NalPacket.payload) = n.bytes := by
  have hcarried := f.carried
  rw [hn] at hcarried
  exact collected_one (CarriedAll.one.mp hcarried)

/-- Without padding, the payloads are all there is behind the RTP headers. -/
theorem contents_of_padding (h : f.padding = 0) : f.contents = f.packets.map NalPacket.payload := by
  rw [f.contents_eq]
  refine List.map_congr_left fun p hp => ?_
  have hzero : p.padding = 0 := List.sum_eq_zero_iff_forall_eq_nat.mp h _ (List.mem_map_of_mem hp)
  have hpad : p.pad = [] := List.length_eq_zero_iff.mp (p.length_pad.trans hzero)
  rw [p.content_eq, hpad, List.append_nil]

/-- One NAL unit without padding is handed over behind its start code. -/
theorem handsOver_one {r : Rtp2Ps} (h : r.Idle videoPT) {n : Nal} (hn : f.nals = [n])
    (hpad : f.padding = 0) : f.HandsOver r := by
  have hcollected : collected true f.contents = n.bytes := by
    rw [f.contents_of_padding hpad, f.collected_payloads hn]
  have hfits := f.fits
  rw [hn] at hfits
  have hroom : (collected true f.contents).length ≤ rtpFrameCacheSize - 4 := by
    rw [hcollected]
    simp only [List.length_singleton, nalLength, List.map_cons, List.map_nil, List.sum_cons,
      List.sum_nil] at hfits
    omega
  refine ⟨f.written, f.inserted_of_ok h (checkVideo_ok f.readable (by decide) hroom), ?_⟩
  rw [hn, written, hcollected]
  exact .one .four

/-- Padding goes into the byte stream of a NAL unit. -/
theorem HandsOver.padding_eq {f : H264Frame videoPT} {r : Rtp2Ps} (h : r.Idle videoPT)
    (ho : f.HandsOver r) {n : Nal} (hn : f.nals = [n]) : f.padding = 0 := by
  have hle := (ho.annexB h).length_le
  rw [f.length_written, f.collected_payloads hn, hn] at hle
  simp only [List.length_singleton, nalLength, List.map_cons, List.map_nil, List.sum_cons,
    List.sum_nil] at hle
  omega

/-- A second NAL unit has no start code. -/
theorem HandsOver.length_nals_eq {f : H264Frame videoPT} {r : Rtp2Ps} (h : r.Idle videoPT)
    (ho : f.HandsOver r) (hpad : f.padding = 0) : f.nals.length = 1 := by
  have hle := (ho.annexB h).le_length
  have hcollected := length_collected_le f.carried true
  have hpos := List.length_pos_iff.mpr f.ne_nil
  rw [f.length_written, hpad] at hle
  omega

/-- After any calls, for every frame: without RTP padding the byte stream of its NAL units is handed
over exactly when there is one NAL unit, and of one NAL unit exactly when there is no padding. -/
theorem handsOver_iff (cache : Memory) (before : List (List MsgBlock)) :
    (f.padding = 0 →
        (f.HandsOver ((init videoPT true cache).run before) ↔ f.nals.length = 1)) ∧
      (f.nals.length = 1 →
        (f.HandsOver ((init videoPT true cache).run before) ↔ f.padding = 0)) := by
  have h := idle_run videoPT cache before
  refine ⟨fun hpad => ⟨fun ho => ho.length_nals_eq h hpad, fun hone => ?_⟩,
    fun hone => ⟨fun ho => ?_, fun hpad => ?_⟩⟩
  all_goals obtain ⟨n, hn⟩ := List.length_eq_one_iff.mp hone
  · exact f.handsOver_one h hn hpad
  · exact ho.padding_eq h hn
  · exact f.handsOver_one h hn hpad

/-! ## Two NAL units -/

/-- A packet with the payload behind a fixed header, at the begin of a block. -/
def blockOf (h : RtpPacket.Head) (payload : List UInt8) : MsgBlock :=
  (MsgBlock.ofPool (fun _ => 0) h).append payload

theorem isNal_idr : 1 ≤ (0x65 : UInt8).toNat % 32 ∧ (0x65 : UInt8).toNat % 32 ≤ 23 := by decide

/-- A packet of a parameter set and one of a slice, with the same time stamp. -/
def spsIdr : H264Frame 98 where
  timeStamp := 3000
  nals := [⟨0x67, [1], by decide⟩, ⟨0x65, [2], isNal_idr⟩]
  packets := [
    ⟨blockOf ⟨98, false, 1, 3000, 7⟩ [0x67, 1], ⟨⟨by decide, by decide, by decide⟩, by decide, by decide⟩,
      by decide, by decide, 0, by decide, by decide⟩,
    ⟨blockOf ⟨98, true, 2, 3000, 7⟩ [0x65, 2], ⟨⟨by decide, by decide, by decide⟩, by decide, by decide⟩,
      by decide, by decide, 0, by decide, by decide⟩]
  ne_nil := by simp
  carried := .cons .single (.cons .single .nil)
  fits := by decide

/-- The slice follows the parameter set without a start code. -/
theorem not_handsOver_spsIdr :
    ((init 98 true fun _ => 0).handleRtpFrame spsIdr.blocks).inserted =
        [.video [0, 0, 0, 1, 0x67, 1, 0x65, 2] 3000] ∧
      ¬ spsIdr.HandsOver (init 98 true fun _ => 0) := by
  refine ⟨by decide, fun ho => ?_⟩
  have hle := (ho.annexB ⟨rfl, rfl, rfl⟩).le_length
  revert hle
  decide

end H264Frame

end AllCamera
