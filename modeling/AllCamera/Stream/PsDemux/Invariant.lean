import AllCamera.Stream.PsDemux.HandleFrame

/-!
# What every turn keeps

The constructor sets both payload types, and only `ProgramStreamMap` assigns them, when the video
payload is `PT_TYPE_MAX`. So they stay as constructed in every run (`Reach.codec`), and the senders
of H.265 are never called.

* `Same d d'`: what no sender changes.
* `dealStep_codec`: no turn changes a video payload that is known.
-/

namespace AllCamera

namespace Demux

variable (env : Env) {d d' : Demux}

/-! ## The senders -/

/-- The parse state, the payload types and the elementary stream of `d'` are those of `d`. -/
structure Same (d d' : Demux) : Prop where
  status : d'.status = d.status
  videoPayload : d'.videoPayload = d.videoPayload
  audioPayload : d'.audioPayload = d.audioPayload
  esLength : d'.info.length = d.info.length
  streamId : d'.info.streamId = d.info.streamId

theorem Same.refl (d : Demux) : Same d d := ⟨rfl, rfl, rfl, rfl, rfl⟩

theorem Same.after {d'' : Demux} (h' : Same d' d'') (h : Same d d') : Same d d'' :=
  ⟨h'.status.trans h.status, h'.videoPayload.trans h.videoPayload,
    h'.audioPayload.trans h.audioPayload, h'.esLength.trans h.esLength,
    h'.streamId.trans h.streamId⟩

theorem sendAudioBlocks_same (d : Demux) (n : Nat) (l : List MsgBlock) :
    Same d (d.sendAudioBlocks env n l) := by
  induction l generalizing d n with
  | nil => exact ⟨rfl, rfl, rfl, rfl, rfl⟩
  | cons b bs ih =>
    simp only [sendAudioBlocks]
    split
    · exact ⟨rfl, rfl, rfl, rfl, rfl⟩
    split
    · exact (ih _ _).after ⟨rfl, rfl, rfl, rfl, rfl⟩
    · split <;> exact ⟨rfl, rfl, rfl, rfl, rfl⟩

theorem skipBlocks_same (d : Demux) (n : Nat) (l : List MsgBlock) : Same d (d.skipBlocks n l) := by
  induction l generalizing d n with
  | nil => exact ⟨rfl, rfl, rfl, rfl, rfl⟩
  | cons b bs ih =>
    simp only [skipBlocks]
    split
    · exact ⟨rfl, rfl, rfl, rfl, rfl⟩
    split
    · exact ih _ _
    · exact ⟨rfl, rfl, rfl, rfl, rfl⟩

theorem sendH264EsSigleNalu_same (d : Demux) : Same d (d.sendH264EsSigleNalu env) := by
  unfold sendH264EsSigleNalu
  split
  · exact .refl d
  simp only
  split
  · exact ⟨rfl, rfl, rfl, rfl, rfl⟩
  split
  · split
    · exact ⟨rfl, rfl, rfl, rfl, rfl⟩
    · split <;> exact ⟨rfl, rfl, rfl, rfl, rfl⟩
  · exact .refl d

theorem sendFuBlocks_same (d : Demux) (n : Nat) (s : Bool) (nalu : UInt8) (l : List MsgBlock) :
    Same d (d.sendFuBlocks env n s nalu l) := by
  induction l generalizing d n s nalu with
  | nil => exact ⟨rfl, rfl, rfl, rfl, rfl⟩
  | cons b bs ih =>
    simp only [sendFuBlocks]
    split
    · exact ⟨rfl, rfl, rfl, rfl, rfl⟩
    split
    · exact (ih _ _ _ _).after ⟨rfl, rfl, rfl, rfl, rfl⟩
    · split <;> exact ⟨rfl, rfl, rfl, rfl, rfl⟩

theorem sendH265EsSigleNalu_same (d : Demux) : Same d (d.sendH265EsSigleNalu env) := by
  unfold sendH265EsSigleNalu
  split
  · exact .refl d
  simp only
  split
  · exact ⟨rfl, rfl, rfl, rfl, rfl⟩
  split
  · split
    · exact ⟨rfl, rfl, rfl, rfl, rfl⟩
    · split <;> exact ⟨rfl, rfl, rfl, rfl, rfl⟩
  · exact .refl d

theorem sendFuBlocks265_same (d : Demux) (n : Nat) (s : Bool) (nal : UInt8) (l : List MsgBlock) :
    Same d (d.sendFuBlocks265 env n s nal l) := by
  induction l generalizing d n s nal with
  | nil => exact ⟨rfl, rfl, rfl, rfl, rfl⟩
  | cons b bs ih =>
    simp only [sendFuBlocks265]
    split
    · exact ⟨rfl, rfl, rfl, rfl, rfl⟩
    split
    · exact (ih _ _ _ _).after ⟨rfl, rfl, rfl, rfl, rfl⟩
    · split <;> exact ⟨rfl, rfl, rfl, rfl, rfl⟩

theorem sendVideo_same {k : Demux → Demux} (hk : ∀ d, Same d (k d)) (d : Demux) :
    Same d (d.sendVideo env k) := by
  unfold sendVideo
  split
  · exact .refl d
  split_ifs
  · exact .refl d
  · exact sendH264EsSigleNalu_same env d
  · exact sendFuBlocks_same env d _ _ _ _
  · exact sendH265EsSigleNalu_same env d
  · exact sendFuBlocks265_same env d _ _ _ _
  · exact hk d

theorem knowFrame_same {a : Demux → Demux} (ha : ∀ d, Same d (a d)) (d : Demux) :
    Same d (d.knowFrame env a) := by
  unfold knowFrame
  split
  · exact .refl d
  simp only
  split_ifs
  · exact (sendVideo_same env (k := id) (fun d => .refl d) _).after ⟨rfl, rfl, rfl, rfl, rfl⟩
  · exact (sendVideo_same env (k := id) (fun d => .refl d) _).after ⟨rfl, rfl, rfl, rfl, rfl⟩
  · exact ⟨rfl, rfl, rfl, rfl, rfl⟩
  · exact (ha _).after ⟨rfl, rfl, rfl, rfl, rfl⟩

theorem sendEsAudioFrame_same (d : Demux) : Same d (d.sendEsAudioFrame env) := by
  unfold sendEsAudioFrame
  split
  · exact knowFrame_same env (a := id) (fun d => .refl d) d
  · have hs := sendAudioBlocks_same env d d.info.length d.list
    exact ⟨hs.status, hs.videoPayload, hs.audioPayload, hs.esLength, hs.streamId⟩

theorem programKnowFrame_same (d : Demux) : Same d (d.programKnowFrame env) :=
  knowFrame_same env (sendEsAudioFrame_same env) d

theorem sendEsVideoFrame_same (d : Demux) : Same d (d.sendEsVideoFrame env) :=
  sendVideo_same env (programKnowFrame_same env) d

/-! ## The handlers -/

/-- The payload types of `d'` are those of `d`. -/
structure SameCodec (d d' : Demux) : Prop where
  videoPayload : d'.videoPayload = d.videoPayload
  audioPayload : d'.audioPayload = d.audioPayload

theorem SameCodec.after {d'' : Demux} (h' : SameCodec d' d'') (h : SameCodec d d') :
    SameCodec d d'' :=
  ⟨h'.videoPayload.trans h.videoPayload, h'.audioPayload.trans h.audioPayload⟩

theorem Same.sameCodec (h : Same d d') : SameCodec d d' := ⟨h.videoPayload, h.audioPayload⟩

theorem skipHead_sameCodec (d : Demux) (n : Nat) (next : ParseState) :
    SameCodec d (d.skipHead n next) := by
  unfold skipHead
  split <;> exact ⟨rfl, rfl⟩

theorem sendEs_same (d : Demux) : Same d (d.sendEs env) := by
  unfold sendEs
  split
  · exact (sendEsAudioFrame_same env _).after ⟨rfl, rfl, rfl, rfl, rfl⟩
  split
  · exact (sendEsVideoFrame_same env _).after ⟨rfl, rfl, rfl, rfl, rfl⟩
  · exact skipBlocks_same d _ _

theorem parseMap_of_known (h : d.videoPayload ≠ PayloadType.max) (b : MsgBlock) (n : Nat) :
    d.parseMap b n = d := if_pos h

theorem notePes_sameCodec (d : Demux) (b : MsgBlock) : SameCodec d (d.notePes b) := ⟨rfl, rfl⟩

theorem programStreamMap_sameCodec (h : d.videoPayload ≠ PayloadType.max) :
    SameCodec d d.programStreamMap := by
  unfold programStreamMap
  split
  · exact ⟨rfl, rfl⟩
  simp only
  split_ifs
  · exact ⟨rfl, rfl⟩
  · exact ⟨rfl, rfl⟩
  · rw [parseMap_of_known (by exact h)]
    exact (skipHead_sameCodec _ _ _).after ⟨rfl, rfl⟩
  · exact ⟨rfl, rfl⟩

theorem programEStramHead_sameCodec (d : Demux) : SameCodec d (d.programEStramHead env) := by
  unfold programEStramHead
  split
  · exact ⟨rfl, rfl⟩
  rename_i b _ _
  have hskip : SameCodec d ((((d.log (b.readFaults (b.scanned [0, 0, 1]))).notePes b).skipHead
      (9 + (b.byte 8).toNat) .pesPacket)) :=
    (skipHead_sameCodec _ _ _).after ((notePes_sameCodec _ b).after ⟨rfl, rfl⟩)
  simp only
  split_ifs
  · exact hskip
  · exact (sendEs_same env _).sameCodec.after hskip
  · exact ⟨rfl, rfl⟩

/-- No turn changes the payload types once the video payload is known: every map is skipped. -/
theorem dealStep_sameCodec (h : d.videoPayload ≠ PayloadType.max) : SameCodec d (d.dealStep env) := by
  unfold dealStep
  split
  · exact ⟨rfl, rfl⟩
  split
  · unfold programStreamPackHeader
    split
    · exact ⟨rfl, rfl⟩
    simp only
    split
    · exact (skipHead_sameCodec _ _ _).after ⟨rfl, rfl⟩
    · exact ⟨rfl, rfl⟩
  · unfold programSystemPackHeader
    split
    · exact ⟨rfl, rfl⟩
    simp only
    split
    · exact (skipHead_sameCodec _ _ _).after ⟨rfl, rfl⟩
    · exact ⟨rfl, rfl⟩
  · exact programStreamMap_sameCodec h
  · unfold programPrivateHeader
    split
    · exact ⟨rfl, rfl⟩
    simp only
    split_ifs
    · exact ⟨rfl, rfl⟩
    · exact (skipHead_sameCodec _ _ _).after ⟨rfl, rfl⟩
    · exact ⟨rfl, rfl⟩
  · exact programEStramHead_sameCodec env d
  · exact (programKnowFrame_same env d).sameCodec

/-! ## Frames -/

theorem forward_sameCodec (d : Demux) (bs : List MsgBlock) : SameCodec d (d.forward bs) := by
  induction bs generalizing d with
  | nil => exact ⟨rfl, rfl⟩
  | cons b bs ih =>
    rw [forward]
    split
    · exact ⟨rfl, rfl⟩
    · exact (ih _).after ⟨rfl, rfl⟩

theorem skipRtpHeads_sameCodec (d : Demux) (bs : List MsgBlock) : SameCodec d (d.skipRtpHeads bs).2 := by
  induction bs generalizing d with
  | nil => exact ⟨rfl, rfl⟩
  | cons b bs ih =>
    rw [skipRtpHeads]
    simp only
    split
    · exact ⟨rfl, rfl⟩
    · exact (ih _).after ⟨rfl, rfl⟩

theorem skipAllRtpHead_sameCodec (d : Demux) (bs : List MsgBlock) :
    SameCodec d (d.skipAllRtpHead bs).2 := by
  unfold skipAllRtpHead
  split
  · exact ⟨rfl, rfl⟩
  simp only
  split
  · exact ⟨rfl, rfl⟩
  · exact (skipRtpHeads_sameCodec _ _).after ⟨rfl, rfl⟩

theorem beginProgramStream_sameCodec (d : Demux) (payload : UInt8) (bs : List MsgBlock) :
    SameCodec d (d.beginProgramStream payload bs) := by
  have hs := skipAllRtpHead_sameCodec { d with
    status := .packHeader, info := ⟨payload, 0, 0, 0, 0⟩, list := [] } bs
  unfold beginProgramStream
  simp only
  split
  · rename_i r hr
    rw [hr] at hs
    exact ⟨hs.videoPayload, hs.audioPayload⟩
  · rename_i r hr
    rw [hr] at hs
    exact ⟨hs.videoPayload, hs.audioPayload⟩

theorem beginFrame_sameCodec (d : Demux) (bs : List MsgBlock) : SameCodec d (d.beginFrame bs) := by
  unfold beginFrame
  simp only
  split
  · exact beginProgramStream_sameCodec d _ bs
  · exact forward_sameCodec d bs

theorem inside_of_isRtp {b : MsgBlock} (h : b.IsRtp) : b.Inside := by
  obtain ⟨h1, h2, h3, h4⟩ := h.within
  simp only [MsgBlock.transmitHead] at h1
  exact ⟨by omega, h2, by omega⟩

/-- `SkipAllRtpHead` on RTP packets: it does not fail, reads nothing outside them, and leaves blocks
with their offsets in order. -/
theorem skipRtpHeads_inv {l : List MsgBlock} (hr : ∀ b ∈ l, b.IsRtp) (h : ∀ b ∈ d.list, b.Inside)
    (hlen : d.info.length < 2 ^ 32) :
    (d.skipRtpHeads l).1 = .ok ∧ (∀ b ∈ (d.skipRtpHeads l).2.list, b.Inside) ∧
      (d.skipRtpHeads l).2.info.length < 2 ^ 32 ∧ (d.skipRtpHeads l).2.faults = d.faults ∧
      (d.skipRtpHeads l).2.sent = d.sent := by
  induction l generalizing d with
  | nil => exact ⟨rfl, h, hlen, rfl, rfl⟩
  | cons b bs ih =>
    have hb := hr b (by simp)
    have hin : b.Inside := inside_of_isRtp hb
    have hle : b.length32 ≤ b.length := Nat.mod_le _ _
    have hhead : b.parse.headLen ≤ b.length32 := (RtpPacket.parsePacket_headLen hb.parses).2
    have hreach : b.parse.reach ≤ b.length32 := RtpPacket.parsePacket_reach _ _ _
    have hadv : ({ b with data := b.parse.data }.advance b.parse.headLen).Inside :=
      have ⟨h1, h2, h3⟩ := hin.advance (n := b.parse.headLen) (by omega)
      ⟨h1, h2, h3⟩
    simp only [skipRtpHeads, hb.parses, ne_eq, not_true_eq_false, if_false]
    obtain ⟨hok, hlist, hl32, hfaults, hsent⟩ := ih (d := { (d.log (b.readFaults b.parse.reach)).log
        ({ b with data := b.parse.data }.advance b.parse.headLen).orderFaults with
      list := d.list ++ [{ b with data := b.parse.data }.advance b.parse.headLen]
      info := { d.info with length := (d.info.length +
        ({ b with data := b.parse.data }.advance b.parse.headLen).length) % 2 ^ 32 } })
      (fun c hc => hr c (List.mem_cons_of_mem _ hc)) (fun c hc => by
        rcases List.mem_append.mp hc with hc | hc
        · exact h c hc
        · exact List.mem_singleton.mp hc ▸ hadv) (Nat.mod_lt _ (by decide))
    refine ⟨hok, hlist, hl32, hfaults.trans ?_, hsent⟩
    simp only [log, hin.readFaults (show b.parse.reach ≤ b.length by omega), hadv.orderFaults,
      List.append_nil]

/-- The state before the first turn of a program stream frame. -/
theorem beginProgramStream_inv (d : Demux) (payload : UInt8) (f : RtpFrame) :
    (∀ b ∈ (d.beginProgramStream payload f.blocks).list, b.Inside) ∧
      (d.beginProgramStream payload f.blocks).info.length < 2 ^ 32 ∧
      (d.beginProgramStream payload f.blocks).faults = d.faults ∧
      (d.beginProgramStream payload f.blocks).sent = d.sent := by
  obtain ⟨b, bs, hbs⟩ := List.exists_cons_of_ne_nil f.ne_nil
  have hb := f.isRtp b (by simp [hbs])
  have hcons : { b with data := b.parse.data } :: bs = f.blocks := by rw [hb.data_eq, hbs]
  unfold beginProgramStream
  have hskip : ∀ d : Demux, d.list = [] → d.info.length = 0 →
      (d.skipAllRtpHead f.blocks).1 = .ok ∧
        (∀ b ∈ (d.skipAllRtpHead f.blocks).2.list, b.Inside) ∧
        (d.skipAllRtpHead f.blocks).2.info.length < 2 ^ 32 ∧
        (d.skipAllRtpHead f.blocks).2.faults = d.faults ∧
        (d.skipAllRtpHead f.blocks).2.sent = d.sent := by
    intro d hl h0
    have hreach : b.parse.reach ≤ b.length :=
      (RtpPacket.parsePacket_reach _ _ _).trans (Nat.mod_le _ _)
    rw [hbs, skipAllRtpHead]
    simp only [hb.parses, ne_eq, not_true_eq_false, if_false]
    rw [hcons, (inside_of_isRtp hb).readFaults hreach, log, List.append_nil]
    refine skipRtpHeads_inv f.isRtp ?_ ?_
    · intro c hc
      change c ∈ d.list at hc
      rw [hl] at hc
      cases hc
    · change d.info.length < 2 ^ 32
      omega
  obtain ⟨hok, h1, h2, h3, h4⟩ := hskip { d with
    status := .packHeader, info := ⟨payload, 0, 0, 0, 0⟩, list := [] } rfl rfl
  simp only
  split
  · rename_i r hr
    rw [hr] at h1 h2 h3 h4
    exact ⟨h1, h2, h3, h4⟩
  · rename_i c r hno hr
    rw [hr] at hok
    exact absurd hok (by simpa using hno)

/-- In every run the payload types are those that the constructor set. -/
theorem Reach.codec (h : Reach env d) :
    d.videoPayload = PayloadType.h264 ∧ d.audioPayload = PayloadType.pcmu := by
  induction h with
  | init => exact ⟨rfl, rfl⟩
  | @frame d f _ _ ih =>
    have hs := beginFrame_sameCodec d f.blocks
    exact ⟨hs.videoPayload.trans ih.1, hs.audioPayload.trans ih.2⟩
  | @turn d _ _ ih =>
    have hs := dealStep_sameCodec env (d := d) (by rw [ih.1]; decide)
    exact ⟨hs.videoPayload.trans ih.1, hs.audioPayload.trans ih.2⟩

/-! ## The turns before the PES packets -/

/-- The parse states in their order. -/
def nextStatus : ParseState → ParseState
  | .packHeader => .systemHeader
  | .systemHeader => .sysmapHeader
  | .sysmapHeader => .privateHeader
  | _ => .pesPacket

/-- The length of the header that the handler of the parse state finds at the front of `b`. -/
def headerBytes (b : MsgBlock) : ParseState → Option Nat
  | .packHeader => if b.startsWith (packStart 0xBA) then some (14 + (b.byte 13).toNat % 8) else none
  | .systemHeader => if b.startsWith (packStart 0xBB) then some (6 + b.be16At 4) else none
  | .sysmapHeader => if 10 ≤ b.length32 ∧ b.startsWith (packStart 0xBC) then some (6 + b.be16At 4)
      else none
  | .privateHeader => if 6 ≤ b.length32 ∧ (b.startsWith (packStart 0xBD) ∨
      b.startsWith (packStart 0xBE) ∨ b.startsWith (packStart 0xBF)) then some (6 + b.be16At 4)
      else none
  | _ => none

/-- How many bytes of `b` that handler looks at. -/
def headerReads (b : MsgBlock) (s : ParseState) : Nat :=
  match s, headerBytes b s with
  | .packHeader, some _ => 14
  | .packHeader, none => b.scanned (packStart 0xBA)
  | .systemHeader, some _ => 6
  | .systemHeader, none => b.scanned (packStart 0xBB)
  | .sysmapHeader, some _ => 6
  | .sysmapHeader, none => if b.length32 < 10 then 0 else b.scanned (packStart 0xBC)
  | .privateHeader, some _ => 6
  | .privateHeader, none => if b.length32 < 6 then 0 else b.scanned (packStart 0xBD)
  | _, _ => 0

theorem headerBytes_bounds {b : MsgBlock} {s : ParseState} {n : Nat} (h : headerBytes b s = some n) :
    0 < n ∧ n ≤ 2 ^ 20 := by
  have hlen : b.be16At 4 < 2 ^ 16 := UInt16.toNat_lt _
  cases s <;> simp only [headerBytes] at h <;> first | cases h | skip
  all_goals
    split at h
    · obtain rfl := Option.some.inj h
      omega
    · cases h

/-! ## The state behind a PES header -/

theorem skipHead_list (d : Demux) (n : Nat) (next : ParseState) :
    (d.skipHead n next).list = skipBytes n d.list := by
  unfold skipHead
  split
  · rename_i h
    exact h.symm
  · rename_i h
    exact h.symm

theorem skipHead_info (d : Demux) (n : Nat) (next : ParseState) :
    (d.skipHead n next).info = d.info := by
  unfold skipHead
  split <;> rfl

theorem skipHead_sent (d : Demux) (n : Nat) (next : ParseState) :
    (d.skipHead n next).sent = d.sent ∧ (d.skipHead n next).usRtpSeq = d.usRtpSeq ∧
      (d.skipHead n next).allocs = d.allocs := by
  unfold skipHead
  split <;> exact ⟨rfl, rfl, rfl⟩

/-- The state behind the PES header of `b`, in front of its elementary stream. -/
def atEs (d : Demux) (b : MsgBlock) : Demux :=
  ((d.log (b.readFaults (b.scanned [0, 0, 1]))).notePes b).skipHead (9 + (b.byte 8).toNat) .pesPacket

section AtEs

variable (d : Demux) (b : MsgBlock)

theorem atEs_list : (d.atEs b).list = skipBytes (9 + (b.byte 8).toNat) d.list := skipHead_list _ _ _

theorem atEs_info : (d.atEs b).info = { d.info with length := esLength b, streamId := b.byte 3 } :=
  skipHead_info _ _ _

theorem atEs_sameCodec : SameCodec d (d.atEs b) :=
  (skipHead_sameCodec _ _ _).after ((notePes_sameCodec _ b).after ⟨rfl, rfl⟩)

theorem atEs_sent : (d.atEs b).sent = d.sent ∧ (d.atEs b).usRtpSeq = d.usRtpSeq ∧
    (d.atEs b).allocs = d.allocs :=
  skipHead_sent _ _ _

theorem esLength_lt : esLength b < 2 ^ 32 := by
  unfold esLength
  omega

end AtEs

/-! ## The branches of a turn -/

section Branches

variable {b : MsgBlock} {bs : List MsgBlock} (hl : d.list = b :: bs)
include hl

theorem sendVideo_single {know : Demux → Demux} (hv : d.videoPayload ≠ PayloadType.max)
    (hp : d.info.payload = PayloadType.h264) (hle : d.info.length ≤ b.length) :
    d.sendVideo env know = d.sendH264EsSigleNalu env := by
  rw [sendVideo, hl]
  simp only [if_neg hv, if_pos hp, if_pos hle]

theorem sendVideo_fu {know : Demux → Demux} (hv : d.videoPayload ≠ PayloadType.max)
    (hp : d.info.payload = PayloadType.h264) (hlt : b.length < d.info.length) :
    d.sendVideo env know = d.sendH264EsFuNale env := by
  rw [sendVideo, hl]
  simp only [if_neg hv, if_pos hp, if_neg (show ¬ d.info.length ≤ b.length by omega)]

/-- The reads of `ProgramKnowFrame` at a start code. -/
def codeLog (d : Demux) (b : MsgBlock) : Demux :=
  (d.log (b.readFaults (b.scanned startCode))).log (b.readFaults 5)

/-- The types that `ProgramKnowFrame` accepts for H.264 are all types. -/
theorem programKnowFrame_video (hc : b.startsWith startCode = true) (hf : (b.byte 4).toNat < 128) :
    d.programKnowFrame env = ((d.codeLog b).withPayload PayloadType.h264).sendVideo env id := by
  have hh : (b.byte 4).toNat / 128 = 0 ∧ (h264NalUndefined < (b.byte 4).toNat % 32 ∨
      (b.byte 4).toNat % 32 < h264NalEnd) := by
    unfold h264NalUndefined h264NalEnd
    omega
  rw [programKnowFrame, knowFrame, hl]
  simp only [if_pos hc, if_pos hh]
  rfl

theorem programKnowFrame_forbidden (hc : b.startsWith startCode = true)
    (hf : 128 ≤ (b.byte 4).toNat) : d.programKnowFrame env = d.codeLog b := by
  have h0 : ∀ p, ¬ ((b.byte 4).toNat / 128 = 0 ∧ p) := by
    rintro p ⟨h, -⟩
    omega
  rw [programKnowFrame, knowFrame, hl]
  simp only [if_pos hc, if_neg (h0 _)]
  rfl

theorem programKnowFrame_audio (hc : ¬ b.startsWith startCode = true)
    (ha : d.audioPayload ≠ PayloadType.max) : d.programKnowFrame env =
      ((d.log (b.readFaults (b.scanned startCode))).withPayload PayloadType.pcmu).sendAudio env := by
  rw [programKnowFrame, knowFrame, hl]
  simp only [if_neg hc, sendEsAudioFrame]
  exact if_neg ha

/-- A turn before the PES packets: the header is skipped, if there is one. No byte is read outside
the block if the block holds what the handler looks at. -/
theorem dealStep_header (hv : d.videoPayload ≠ PayloadType.max) (hpes : d.status ≠ .pesPacket)
    (hdata : d.status ≠ .foundData) :
    ∃ fs, (b.rd + headerReads b d.status ≤ b.wr → fs = []) ∧ d.dealStep env =
      match headerBytes b d.status with
      | none => { d.log fs with status := nextStatus d.status }
      | some n => (d.log fs).skipHead n (nextStatus d.status) := by
  have hscan : ∀ id, b.scanned (packStart id) ≤ 4 := fun id => b.scanned_le _
  have two : ∀ (id : UInt8) (n : Nat), 4 ≤ n → b.rd + n ≤ b.wr →
      b.readFaults (b.scanned (packStart id)) ++ b.readFaults n = [] := fun id n hn h => by
    have := hscan id
    rw [MsgBlock.readFaults_eq_nil (by omega), MsgBlock.readFaults_eq_nil h, List.nil_append]
  unfold dealStep
  cases hs : d.status with
  | packHeader =>
    by_cases hc : b.startsWith (packStart 0xBA) = true
    · simp only [hl, programStreamPackHeader, headerReads, headerBytes, nextStatus, hc, if_true]
      exact ⟨_, two 0xBA 14 (by omega), by rw [log_log]⟩
    · simp only [hl, programStreamPackHeader, headerReads, headerBytes, nextStatus, hc]
      exact ⟨_, MsgBlock.readFaults_eq_nil, rfl⟩
  | systemHeader =>
    by_cases hc : b.startsWith (packStart 0xBB) = true
    · simp only [hl, programSystemPackHeader, headerReads, headerBytes, nextStatus, hc, if_true]
      exact ⟨_, two 0xBB 6 (by omega), by rw [log_log]⟩
    · simp only [hl, programSystemPackHeader, headerReads, headerBytes, nextStatus, hc]
      exact ⟨_, MsgBlock.readFaults_eq_nil, rfl⟩
  | sysmapHeader =>
    by_cases hlen : b.length32 < 10
    · simp only [hl, programStreamMap, headerReads, headerBytes, nextStatus, hlen,
        show ¬ 10 ≤ b.length32 by omega, if_true, false_and, if_false]
      exact ⟨[], fun _ => rfl, by simp [log, hl]⟩
    by_cases hc : b.startsWith (packStart 0xBC) = true
    · simp only [hl, programStreamMap, headerReads, headerBytes, nextStatus, hlen, hc,
        show 10 ≤ b.length32 by omega, if_true, true_and, if_false]
      refine ⟨_, two 0xBC 6 (by omega), ?_⟩
      rw [log_log, parseMap_of_known (by exact hv)]
      split
      · rename_i hnil
        simp only [skipHead, hnil]
      · rfl
    · simp only [hl, programStreamMap, headerReads, headerBytes, nextStatus, hlen, hc,
        Bool.false_eq_true, and_false, if_false]
      exact ⟨_, MsgBlock.readFaults_eq_nil, rfl⟩
  | privateHeader =>
    by_cases hlen : b.length32 < 6
    · simp only [hl, programPrivateHeader, headerReads, headerBytes, nextStatus, hlen,
        show ¬ 6 ≤ b.length32 by omega, if_true, false_and, if_false]
      exact ⟨[], fun _ => rfl, by simp [log, hl]⟩
    by_cases hc : b.startsWith (packStart 0xBD) = true ∨ b.startsWith (packStart 0xBE) = true ∨
        b.startsWith (packStart 0xBF) = true
    · simp only [hl, programPrivateHeader, headerReads, headerBytes, nextStatus, hlen, hc,
        show 6 ≤ b.length32 by omega, if_true, true_and, if_false]
      exact ⟨_, two 0xBD 6 (by omega), by rw [log_log]⟩
    · simp only [hl, programPrivateHeader, headerReads, headerBytes, nextStatus, hlen, hc,
        and_false, if_false]
      exact ⟨_, MsgBlock.readFaults_eq_nil, rfl⟩
  | pesPacket => exact absurd hs hpes
  | foundData => exact absurd hs hdata

theorem programEStramHead_pes (hp : b.startsWith [0, 0, 1] = true) (h9 : 9 ≤ b.length32) :
    d.programEStramHead env = if (d.atEs b).list = [] then d.atEs b else (d.atEs b).sendEs env := by
  rw [programEStramHead, hl]
  exact if_pos ⟨hp, h9⟩

theorem programEStramHead_none (hp : ¬ (b.startsWith [0, 0, 1] = true ∧ 9 ≤ b.length32)) :
    d.programEStramHead env =
      { d.log (b.readFaults (b.scanned [0, 0, 1])) with status := .foundData } := by
  rw [programEStramHead, hl]
  exact if_neg hp

theorem dealStep_foundData (hs : d.status = .foundData) : d.dealStep env = d.programKnowFrame env := by
  rw [dealStep, hl, hs]

theorem dealStep_pesPacket (hs : d.status = .pesPacket) : d.dealStep env = d.programEStramHead env := by
  rw [dealStep, hl, hs]

end Branches

end Demux

end AllCamera
