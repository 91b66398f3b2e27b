import AllCamera.Stream.PsDemux.Invariant

/-!
# When the loop of the demultiplexer leaves

A turn takes blocks off the list, moves the front block's read pointer on, or goes to the next
parse state, and so comes closer to the end (`rank`). The exceptions are the states with
`Stalls`: `ProgramKnowFrame` finds a start code with the forbidden bit set, or has an elementary
stream of length 0 left. The loop stays there for ever.

Read pointers may run past the write pointer (`length()` is then close to 2^64), so `rank` counts
what is left in that sense. It needs that no length wraps around, which happens where a video
elementary stream shorter than its start code is copied to a free block (`ShortEs`).

* `Shrinks l l'`: `l'` is what a handler leaves of `l`; `Shrinks.rank_lt`.
* `dealStep_rank`: a turn without `Stalls` or `ShortEs` goes down in `rank`.
* `handleReturns_iff`: `handleRtpFrame` returns exactly when no turn stalls.
-/

namespace AllCamera

/-! ## Lists that get shorter -/

/-- The read pointer may be past the write pointer, but not so far that `length()` is 0 again. -/
structure MsgBlock.Loose (b : MsgBlock) : Prop where
  base : 0 ≤ b.rd
  top : b.wr ≤ blockSize
  bound : b.rd ≤ b.wr + 2 ^ 64

/-- Only the front block has been read from. -/
def Loose : List MsgBlock → Prop
  | [] => True
  | b :: bs => b.Loose ∧ ∀ c ∈ bs, c.Inside

/-- How far the read pointer can go. -/
def slack (b : MsgBlock) : Nat := (b.wr + 2 ^ 64 - b.rd).toNat

/-- The blocks left, then what is left of the front one. -/
def listRank : List MsgBlock → Nat
  | [] => 0
  | b :: bs => (bs.length + 1) * 2 ^ 66 + slack b

/-- What a handler leaves of a list: it drops blocks, and moves the read pointer of the front block
that is left, with its own length as the limit if that block was in front before. -/
inductive Shrinks : List MsgBlock → List MsgBlock → Prop
  | nil {b : MsgBlock} {bs : List MsgBlock} : Shrinks (b :: bs) []
  | front {b c : MsgBlock} {bs : List MsgBlock} {n : Nat} : c.wr = b.wr → c.rd = b.rd + n →
      0 < n → n ≤ b.length → Shrinks (b :: bs) (c :: bs)
  | next {a b c : MsgBlock} {bs : List MsgBlock} {n : Nat} : c.wr = b.wr → c.rd = b.rd + n →
      n ≤ b.length + 2 ^ 40 → Shrinks (a :: b :: bs) (c :: bs)
  | drop {a : MsgBlock} {bs l : List MsgBlock} : Shrinks bs l → Shrinks (a :: bs) l

variable {l l' : List MsgBlock} {b : MsgBlock} {bs : List MsgBlock}

theorem MsgBlock.Inside.loose (h : b.Inside) : b.Loose :=
  ⟨h.base, h.top, by have := h.order; omega⟩

theorem MsgBlock.Loose.length_le (h : b.Loose) : b.rd + b.length ≤ b.wr + 2 ^ 64 := by
  obtain ⟨h1, h2, h3⟩ := h
  unfold MsgBlock.length MsgBlock.blockSize at *
  omega

theorem MsgBlock.Loose.slack_lt (h : b.Loose) : slack b < 2 ^ 65 := by
  obtain ⟨h1, h2, -⟩ := h
  unfold slack MsgBlock.blockSize at *
  omega

theorem Loose.tail (h : Loose (b :: bs)) : Loose bs := by
  cases bs with
  | nil => trivial
  | cons c cs => exact ⟨(h.2 c (by simp)).loose, fun x hx => h.2 x (by simp [hx])⟩

theorem listRank_tail_lt (h : Loose (b :: bs)) : listRank bs < listRank (b :: bs) := by
  cases bs with
  | nil =>
    simp only [listRank]
    omega
  | cons c cs =>
    have := (h.2 c (by simp)).loose.slack_lt
    simp only [listRank, List.length_cons]
    omega

/-- The list that is left is still loose and smaller. -/
theorem Shrinks.rank_lt (h : Shrinks l l') (hl : Loose l) : Loose l' ∧ listRank l' < listRank l := by
  induction h with
  | nil =>
    refine ⟨trivial, ?_⟩
    simp only [listRank]
    omega
  | @front b c bs n hw hr hn hlen =>
    have h1 := hl.1.length_le
    obtain ⟨h2, h3, h4⟩ := hl.1
    refine ⟨⟨⟨by omega, by omega, by omega⟩, hl.2⟩, ?_⟩
    simp only [listRank, slack, hw, hr]
    omega
  | @next a b c bs n hw hr hlen =>
    have hb := hl.2 b (by simp)
    have h1 := hb.length_le
    obtain ⟨h2, h3, h4⟩ := hb
    simp only [MsgBlock.blockSize] at h1 h4
    have hc : c.Loose := ⟨by omega, by simp only [MsgBlock.blockSize]; omega, by omega⟩
    refine ⟨⟨hc, fun x hx => hl.2 x (by simp [hx])⟩, ?_⟩
    have := hc.slack_lt
    simp only [listRank, List.length_cons]
    omega
  | drop _ ih =>
    obtain ⟨h1, h2⟩ := ih hl.tail
    exact ⟨h1, h2.trans (listRank_tail_lt hl)⟩

theorem Shrinks.tail : Shrinks (b :: bs) bs := by
  cases bs with
  | nil => exact .nil
  | cons c cs => exact .next (n := 0) rfl (by simp) (by omega)

@[simp] theorem MsgBlock.advance_zero (b : MsgBlock) : b.advance 0 = b := by
  simp [advance]

theorem skipBytes_shrinks {n : Nat} (hn : 0 < n) (hn' : n ≤ 2 ^ 20) (b : MsgBlock)
    (bs : List MsgBlock) : Shrinks (b :: bs) (skipBytes n (b :: bs)) := by
  have hle : b.length32 ≤ b.length := Nat.mod_le _ _
  by_cases hlt : n < b.length32
  · rw [skipBytes, if_pos hlt]
    exact .front (n := n) rfl rfl hn (by omega)
  · rw [skipBytes, if_neg hlt]
    cases bs with
    | nil => exact .nil
    | cons c cs => exact .next (n := n - b.length32) rfl rfl (by omega)

/-- A block is removed, or bytes of the front block are consumed. -/
def Consumes (l l' : List MsgBlock) : Prop :=
  l'.length < l.length ∨ ∃ b c bs, l = b :: bs ∧ l' = c :: bs ∧ b.rd < c.rd

theorem Consumes.length_le {l l' : List MsgBlock} (h : Consumes l l') : l'.length ≤ l.length := by
  rcases h with h | ⟨b, c, bs, rfl, rfl, -⟩
  · exact Nat.le_of_lt h
  · simp

theorem Consumes.trans {l l' l'' : List MsgBlock} (h : Consumes l l') (h' : Consumes l' l'') :
    Consumes l l'' := by
  rcases h with h | ⟨b, c, bs, rfl, rfl, hlt⟩
  · exact .inl (Nat.lt_of_le_of_lt h'.length_le h)
  · rcases h' with h' | ⟨b', c', bs', heq, rfl, hlt'⟩
    · exact .inl (by simpa using h')
    · obtain ⟨rfl, rfl⟩ := List.cons.inj heq
      exact .inr ⟨b, c', bs, rfl, rfl, hlt.trans hlt'⟩

theorem Shrinks.consumes (h : Shrinks l l') : Consumes l l' := by
  induction h with
  | nil => exact .inl (by simp)
  | @front b c bs n _ hr hn _ => exact .inr ⟨b, c, bs, rfl, rfl, by omega⟩
  | next => exact .inl (by simp)
  | drop _ ih => exact .inl (Nat.lt_succ_of_le ih.length_le)

/-- What a turn that consumes something does to the list. -/
def Falls (l l' : List MsgBlock) : Prop :=
  Consumes l l' ∧ (Loose l → Loose l' ∧ listRank l' < listRank l)

theorem Shrinks.falls (h : Shrinks l l') : Falls l l' := ⟨h.consumes, h.rank_lt⟩

/-- The list is left as it was, or shrinks. -/
def Trims (l l' : List MsgBlock) : Prop := l' = l ∨ Shrinks l l'

theorem Falls.trims {l'' : List MsgBlock} (h : Falls l l') (h' : Trims l' l'') : Falls l l'' := by
  rcases h' with rfl | h'
  · exact h
  · refine ⟨h.1.trans h'.consumes, fun hl => ?_⟩
    obtain ⟨h1, h2⟩ := h.2 hl
    obtain ⟨h3, h4⟩ := h'.rank_lt h1
    exact ⟨h3, h4.trans h2⟩

/-! ## The senders -/

namespace Demux

variable (env : Env) {d : Demux} {n : Nat}

/-- The loop of `sendEsAudioFrame`, behind a block that it already sent. -/
theorem sendAudioBlocks_shrinks (a : MsgBlock) (d : Demux) (n : Nat) (l : List MsgBlock) :
    Shrinks (a :: l) (d.sendAudioBlocks env n l).list := by
  induction l generalizing a d n with
  | nil => exact .nil
  | cons b bs ih =>
    simp only [sendAudioBlocks]
    split
    · exact .tail
    split
    · exact .drop (ih b _ _)
    · rename_i hlt
      have hnext : Shrinks (a :: b :: bs) (b.advance n :: bs) := .next (n := n) rfl rfl (by omega)
      split <;> exact hnext

theorem skipBlocks_shrinks (a : MsgBlock) (d : Demux) (n : Nat) (l : List MsgBlock) :
    Shrinks (a :: l) (d.skipBlocks n l).list := by
  induction l generalizing a d n with
  | nil => exact .nil
  | cons b bs ih =>
    simp only [skipBlocks]
    split
    · exact .tail
    split
    · exact .drop (ih b _ _)
    · exact .next (n := n) rfl rfl (by omega)

/-- The loop of `sendH264EsFuNale`, behind a block that it already sent. Its last block may be left
four bytes further on than the elementary stream goes. -/
theorem sendFuBlocks_shrinks (a : MsgBlock) (d : Demux) (n : Nat) (s : Bool) (nalu : UInt8)
    (l : List MsgBlock) : Shrinks (a :: l) (d.sendFuBlocks env n s nalu l).list := by
  induction l generalizing a d n s nalu with
  | nil => exact .nil
  | cons b bs ih =>
    simp only [sendFuBlocks]
    split
    · exact .tail
    rename_i hn
    split
    · exact .drop (ih b _ _ _ _)
    · rename_i hlt
      split
      · exact .next (n := n) rfl rfl (by omega)
      · unfold MsgBlock.behindCode
        split
        · refine .next (n := 5 + (n - 1)) rfl ?_ (by omega)
          simp only [MsgBlock.advance]
          omega
        · exact .next (n := n) rfl rfl (by omega)

/-- A video elementary stream of `n` bytes at the front of `b` is to be copied without its start
code: it is shorter than that and than the block, and a block is free for it. -/
def ShortAt (d : Demux) (b : MsgBlock) (streamId : UInt8) (n : Nat) : Prop :=
  streamId = videoStreamId ∧ b.startsWith startCode = true ∧ n < 4 ∧ n < b.length ∧
    env.alloc d.allocs ≠ none

theorem sendAudio_trims (hl : d.list = b :: bs) : Trims d.list (d.sendAudio env).list := by
  change Trims d.list (d.sendAudioBlocks env d.info.length d.list).list
  rw [hl]
  simp only [sendAudioBlocks]
  split
  · exact .inl rfl
  rename_i hn
  right
  split
  · exact sendAudioBlocks_shrinks env b _ _ _
  · have hfront : Shrinks (b :: bs) (b.advance d.info.length :: bs) :=
      .front (n := d.info.length) rfl rfl (by omega) (by omega)
    split <;> exact hfront

theorem skipunKnowFrame_trims (hl : d.list = b :: bs) : Trims d.list d.skipunKnowFrame.list := by
  unfold skipunKnowFrame
  rw [hl]
  simp only [skipBlocks]
  split
  · exact .inl rfl
  right
  split
  · exact skipBlocks_shrinks b _ _ _
  · exact .front (n := d.info.length) rfl rfl (by omega) (by omega)

theorem minus32_of_le {n k : Nat} (h : k ≤ n) (hn : n < 2 ^ 32) : minus32 n k = n - k := by
  unfold minus32
  omega

/-- `sendH264EsSigleNalu` for a stream that is not short: it takes `n` bytes off the block, if any. -/
theorem sendH264EsSigleNalu_shrinks (hl : d.list = b :: bs) (hn : d.info.length < 2 ^ 32)
    (hle : d.info.length ≤ b.length) (hshort : ¬ ShortAt env d b d.info.streamId d.info.length)
    (hpos : d.info.length = b.length ∨ 0 < d.info.length) :
    Shrinks d.list (d.sendH264EsSigleNalu env).list := by
  unfold sendH264EsSigleNalu
  rw [hl]
  simp only
  split
  · exact .tail
  rename_i hne
  have hlt : d.info.length < b.length := by omega
  have hfront : Shrinks (b :: bs) (b.advance d.info.length :: bs) :=
    .front (n := d.info.length) rfl rfl (by omega) hle
  rw [if_pos hlt]
  split
  · exact hfront
  rename_i hfree
  split
  · rename_i hv
    by_cases hc : b.startsWith startCode = true
    · have h4 : 4 ≤ d.info.length := by
        by_contra h4
        exact hshort ⟨hv, hc, by omega, hlt, by simp [hfree]⟩
      rw [MsgBlock.behindCode, if_pos hc, if_pos hc, minus32_of_le h4 hn]
      refine .front (n := d.info.length) rfl ?_ (by omega) hle
      simp only [MsgBlock.advance]
      omega
    · rw [MsgBlock.behindCode, if_neg hc, if_neg hc]
      exact hfront
  · exact hfront

/-- A stream of length 0 that is not short is left where it is. -/
theorem sendH264EsSigleNalu_zero (hl : d.list = b :: bs) (hn : d.info.length = 0)
    (hb : b.length ≠ 0) (hshort : ¬ ShortAt env d b d.info.streamId 0) :
    (d.sendH264EsSigleNalu env).list = d.list := by
  have hlt : 0 < b.length := by omega
  unfold sendH264EsSigleNalu
  rw [hl]
  simp only [hn]
  rw [if_neg (by omega), if_pos hlt]
  split
  · simp [leave]
  rename_i hfree
  split
  · rename_i hv
    have hc : ¬ b.startsWith startCode = true := fun hc =>
      hshort ⟨hv, hc, by omega, hlt, by simp [hfree]⟩
    rw [MsgBlock.behindCode, if_neg hc, if_neg hc]
    simp [leave]
  · simp [leave]

theorem sendH264EsFuNale_shrinks (hl : d.list = b :: bs) (hlt : b.length < d.info.length) :
    Shrinks d.list (d.sendH264EsFuNale env).list := by
  unfold sendH264EsFuNale
  rw [hl]
  simp only [sendFuBlocks]
  rw [if_neg (by omega), if_pos (by omega)]
  exact sendFuBlocks_shrinks env b _ _ _ _ _

/-- `sendEsVideoFrame` for H.264. -/
theorem sendVideo_trims {know : Demux → Demux} (hl : d.list = b :: bs)
    (hv : d.videoPayload ≠ PayloadType.max) (hp : d.info.payload = PayloadType.h264)
    (hn : d.info.length < 2 ^ 32) (hshort : ¬ ShortAt env d b d.info.streamId d.info.length) :
    Trims d.list (d.sendVideo env know).list ∧
      (d.info.length ≠ 0 ∨ b.length = 0 → Shrinks d.list (d.sendVideo env know).list) := by
  unfold sendVideo
  rw [hl]
  simp only [if_neg hv, if_pos hp]
  rw [← hl]
  split
  · rename_i hle
    by_cases h0 : d.info.length = 0 ∧ b.length ≠ 0
    · rw [h0.1] at hshort
      refine ⟨.inl (sendH264EsSigleNalu_zero env hl h0.1 h0.2 hshort), fun h => ?_⟩
      omega
    · have hs := sendH264EsSigleNalu_shrinks env hl hn hle hshort (by omega)
      exact ⟨.inr hs, fun _ => hs⟩
  · rename_i hlt
    have hs := sendH264EsFuNale_shrinks env hl (by omega)
    exact ⟨.inr hs, fun _ => hs⟩

/-! ## The turns that stall -/

/-- `ProgramKnowFrame` at a start code whose NAL header has the forbidden bit set, or with nothing
left of the elementary stream, sends and skips nothing. -/
def Stalls (d : Demux) : Prop :=
  d.status = .foundData ∧ ∃ b bs, d.list = b :: bs ∧
    ((b.startsWith startCode = true ∧ 128 ≤ (b.byte 4).toNat) ∨
      (d.info.length = 0 ∧ (b.startsWith startCode = false ∨ b.length ≠ 0)))

/-- The turn copies a video elementary stream that is shorter than its start code. -/
def ShortEs (d : Demux) : Prop :=
  (d.status = .pesPacket ∧ ∃ b bs c cs, d.list = b :: bs ∧
    b.startsWith [0, 0, 1] = true ∧ 9 ≤ b.length32 ∧
    skipBytes (9 + (b.byte 8).toNat) d.list = c :: cs ∧ ShortAt env d c (b.byte 3) (esLength b)) ∨
  (d.status = .foundData ∧ ∃ b bs, d.list = b :: bs ∧ (b.byte 4).toNat < 128 ∧
    ShortAt env d b d.info.streamId d.info.length)

/-- A turn that stalls leaves the list, the parse state and the elementary stream as they are. -/
theorem Stalls.dealStep (h : Stalls d) (hshort : ¬ ShortEs env d)
    (hv : d.videoPayload = PayloadType.h264) (ha : d.audioPayload = PayloadType.pcmu) :
    Stalls (d.dealStep env) := by
  obtain ⟨hs, b, bs, hl, hor⟩ := h
  have hlist : (d.programKnowFrame env).list = d.list := by
    by_cases hc : b.startsWith startCode = true
    · by_cases hf : (b.byte 4).toNat < 128
      · rw [programKnowFrame_video env hl hc hf]
        rcases hor with ⟨-, hor⟩ | ⟨h0, hor | hb⟩
        · omega
        · rw [hor] at hc
          cases hc
        have hl' : ((d.codeLog b).withPayload PayloadType.h264).list = b :: bs := hl
        rw [sendVideo_single env hl' (by change d.videoPayload ≠ _; rw [hv]; decide) rfl
          (show d.info.length ≤ b.length by omega)]
        refine sendH264EsSigleNalu_zero env hl' h0 hb fun hsa => hshort (.inr ⟨hs, b, bs, hl, hf, ?_⟩)
        rw [h0]
        exact hsa
      · rw [programKnowFrame_forbidden env hl hc (by omega)]
        rfl
    · rw [programKnowFrame_audio env hl hc (by rw [ha]; decide)]
      have h0 : d.info.length = 0 := by
        rcases hor with ⟨hor, -⟩ | ⟨h0, -⟩
        · exact absurd hor hc
        · exact h0
      change (sendAudioBlocks env _ d.info.length d.list).list = d.list
      rw [h0, hl]
      simp only [sendAudioBlocks, if_true]
  have hsame := programKnowFrame_same env d
  rw [dealStep_foundData env hl hs]
  refine ⟨hsame.status.trans hs, b, bs, hlist.trans hl, ?_⟩
  rw [hsame.esLength]
  exact hor

/-! ## The turns that do not -/

/-- What holds at every turn. -/
structure LoopInv (d : Demux) : Prop where
  loose : Loose d.list
  video : d.videoPayload = PayloadType.h264
  audio : d.audioPayload = PayloadType.pcmu
  length : d.info.length < 2 ^ 32

/-- How many parse states are still to come. -/
def statusRank : ParseState → Nat
  | .packHeader => 5
  | .systemHeader => 4
  | .sysmapHeader => 3
  | .privateHeader => 2
  | .pesPacket => 1
  | .foundData => 0

/-- What is left to do. -/
def rank (d : Demux) : Nat := listRank d.list * 8 + statusRank d.status

/-- The turn consumes something, or goes on to a later parse state (at most five times in a row). -/
def Progress (d d' : Demux) : Prop :=
  Consumes d.list d'.list ∨ (d'.list = d.list ∧ statusRank d'.status < statusRank d.status)

theorem skipHead_falls (hl : d.list = b :: bs) (hn : 0 < n) (hn' : n ≤ 2 ^ 20) (next : ParseState) :
    Falls d.list (d.skipHead n next).list := by
  rw [skipHead_list, hl]
  exact (skipBytes_shrinks hn hn' b bs).falls

theorem sendEs_trims (hl : d.list = b :: bs) (h : LoopInv d)
    (hshort : ¬ ShortAt env d b d.info.streamId d.info.length) : Trims d.list (d.sendEs env).list := by
  have hv : d.videoPayload ≠ PayloadType.max := by rw [h.video]; decide
  have ha : d.audioPayload ≠ PayloadType.max := by rw [h.audio]; decide
  unfold sendEs
  split
  · rw [sendEsAudioFrame, if_neg (show ¬ (d.withPayload d.audioPayload).audioPayload = _ from ha)]
    exact sendAudio_trims env (d := d.withPayload d.audioPayload) hl
  split
  · exact (sendVideo_trims env (d := d.withPayload d.videoPayload) hl hv h.video h.length hshort).1
  · exact skipunKnowFrame_trims hl

theorem programEStramHead_progress (hl : d.list = b :: bs) (h : LoopInv d)
    (hs : d.status = .pesPacket) (hshort : ¬ ShortEs env d) :
    Falls d.list (d.programEStramHead env).list ∨
      ((d.programEStramHead env).list = d.list ∧ (d.programEStramHead env).status = .foundData) := by
  by_cases hp : b.startsWith [0, 0, 1] = true ∧ 9 ≤ b.length32
  · left
    have hst := UInt8.toNat_lt (b.byte 8)
    have hfalls : Falls d.list (d.atEs b).list := by
      rw [atEs_list, hl]
      exact (skipBytes_shrinks (n := 9 + (b.byte 8).toNat) (by omega) (by omega) b bs).falls
    rw [programEStramHead_pes env hl hp.1 hp.2]
    split
    · exact hfalls
    · rename_i hne
      obtain ⟨c, cs, hc⟩ := List.exists_cons_of_ne_nil hne
      have hcodec := atEs_sameCodec d b
      have hinv : LoopInv (d.atEs b) := by
        refine ⟨(hfalls.2 h.loose).1, hcodec.videoPayload.trans h.video,
          hcodec.audioPayload.trans h.audio, ?_⟩
        rw [atEs_info]
        exact esLength_lt b
      refine hfalls.trims (sendEs_trims env hc hinv fun hsa => hshort (.inl
        ⟨hs, b, bs, c, cs, hl, hp.1, hp.2, by rw [← atEs_list, hc], ?_⟩))
      unfold ShortAt at hsa ⊢
      rw [atEs_info, (atEs_sent d b).2.2] at hsa
      exact hsa
  · right
    rw [programEStramHead_none env hl hp]
    exact ⟨rfl, rfl⟩

theorem programKnowFrame_shrinks (hl : d.list = b :: bs) (h : LoopInv d) (hs : d.status = .foundData)
    (hstall : ¬ Stalls d) (hshort : ¬ ShortEs env d) :
    Shrinks d.list (d.programKnowFrame env).list := by
  have hv : d.videoPayload ≠ PayloadType.max := by rw [h.video]; decide
  by_cases hc : b.startsWith startCode = true
  · by_cases hf : (b.byte 4).toNat < 128
    · rw [programKnowFrame_video env hl hc hf]
      refine (sendVideo_trims env (d := (d.codeLog b).withPayload PayloadType.h264) hl hv rfl
        h.length fun hsa => hshort (.inr ⟨hs, b, bs, hl, hf, hsa⟩)).2 ?_
      by_contra hnot
      rw [not_or, not_not] at hnot
      exact hstall ⟨hs, b, bs, hl, .inr ⟨hnot.1, .inr hnot.2⟩⟩
    · exact absurd ⟨hs, b, bs, hl, .inl ⟨hc, by omega⟩⟩ hstall
  · have h0 : d.info.length ≠ 0 := fun h0 =>
      hstall ⟨hs, b, bs, hl, .inr ⟨h0, .inl (by simpa using hc)⟩⟩
    rw [programKnowFrame_audio env hl hc (by rw [h.audio]; decide)]
    change Shrinks d.list (sendAudioBlocks env _ d.info.length d.list).list
    rw [hl]
    simp only [sendAudioBlocks]
    rw [if_neg h0]
    split
    · exact sendAudioBlocks_shrinks env b _ _ _
    · have hfront : Shrinks (b :: bs) (b.advance d.info.length :: bs) :=
        .front (n := d.info.length) rfl rfl (by omega) (by omega)
      split <;> exact hfront

/-- A turn that neither stalls nor copies a short stream consumes something or goes on to a later
parse state. -/
theorem dealStep_progress (h : LoopInv d) (hd : ¬ d.Done) (hstall : ¬ Stalls d)
    (hshort : ¬ ShortEs env d) :
    Falls d.list (d.dealStep env).list ∨ ((d.dealStep env).list = d.list ∧
      statusRank (d.dealStep env).status < statusRank d.status) := by
  obtain ⟨b, bs, hl⟩ := List.exists_cons_of_ne_nil hd
  by_cases hpes : d.status = .pesPacket
  · rw [dealStep_pesPacket env hl hpes]
    rcases programEStramHead_progress env hl h hpes hshort with hp | ⟨hp, hst⟩
    · exact .inl hp
    · exact .inr ⟨hp, by rw [hst, hpes]; decide⟩
  by_cases hdata : d.status = .foundData
  · rw [dealStep_foundData env hl hdata]
    exact .inl (programKnowFrame_shrinks env hl h hdata hstall hshort).falls
  obtain ⟨fs, -, hstep⟩ := dealStep_header env hl (by rw [h.video]; decide) hpes hdata
  rw [hstep]
  split
  · refine .inr ⟨rfl, ?_⟩
    change statusRank (nextStatus d.status) < statusRank d.status
    cases hs : d.status <;> simp_all [nextStatus, statusRank]
  · rename_i n hn
    obtain ⟨h1, h2⟩ := headerBytes_bounds hn
    exact .inl (skipHead_falls (d := d.log fs) hl h1 h2 _)

/-- The length of the elementary stream stays in 32 bits. -/
theorem dealStep_length (h : LoopInv d) : (d.dealStep env).info.length < 2 ^ 32 := by
  cases hl : d.list with
  | nil =>
    unfold dealStep
    simp only [hl]
    exact h.length
  | cons b bs =>
    by_cases hpes : d.status = .pesPacket
    · rw [dealStep_pesPacket env hl hpes]
      by_cases hp : b.startsWith [0, 0, 1] = true ∧ 9 ≤ b.length32
      · rw [programEStramHead_pes env hl hp.1 hp.2]
        split
        · rw [atEs_info]
          exact esLength_lt b
        · rw [(sendEs_same env _).esLength, atEs_info]
          exact esLength_lt b
      · rw [programEStramHead_none env hl hp]
        exact h.length
    by_cases hdata : d.status = .foundData
    · rw [dealStep_foundData env hl hdata, (programKnowFrame_same env d).esLength]
      exact h.length
    obtain ⟨fs, -, hstep⟩ := dealStep_header env hl (by rw [h.video]; decide) hpes hdata
    rw [hstep]
    split
    · exact h.length
    · rw [skipHead_info]
      exact h.length

theorem statusRank_lt (s : ParseState) : statusRank s < 8 := by cases s <;> decide

/-- A turn that neither stalls nor copies a short stream keeps the invariant and goes down in
`rank`. -/
theorem dealStep_rank (h : LoopInv d) (hd : ¬ d.Done) (hstall : ¬ Stalls d)
    (hshort : ¬ ShortEs env d) :
    LoopInv (d.dealStep env) ∧ rank (d.dealStep env) < rank d := by
  have hcodec := dealStep_sameCodec env (d := d) (by rw [h.video]; decide)
  have hstatus := statusRank_lt (d.dealStep env).status
  unfold rank
  rcases dealStep_progress env h hd hstall hshort with hp | ⟨hlist, hst⟩
  · obtain ⟨h1, h2⟩ := hp.2 h.loose
    exact ⟨⟨h1, hcodec.videoPayload.trans h.video, hcodec.audioPayload.trans h.audio,
      dealStep_length env h⟩, by omega⟩
  · rw [hlist]
    exact ⟨⟨by rw [hlist]; exact h.loose, hcodec.videoPayload.trans h.video,
      hcodec.audioPayload.trans h.audio, dealStep_length env h⟩, by omega⟩

/-! ## Frames -/

theorem loose_of_inside {l : List MsgBlock} (h : ∀ b ∈ l, b.Inside) : Loose l := by
  cases l with
  | nil => trivial
  | cons b bs => exact ⟨(h b (by simp)).loose, fun c hc => h c (List.mem_cons_of_mem _ hc)⟩

/-- A call starts with the invariant, or is done. -/
theorem Reach.beginFrame_inv (h : Reach env d) (f : RtpFrame) (hd : d.Done) :
    LoopInv (d.beginFrame f.blocks) ∨ (d.beginFrame f.blocks).Done := by
  have hcodec := beginFrame_sameCodec d f.blocks
  have hc := h.codec
  by_cases hps : (checkProgramStreamHead f.blocks).1 = true
  · left
    have heq : d.beginFrame f.blocks =
        d.beginProgramStream (checkProgramStreamHead f.blocks).2 f.blocks := by
      rw [beginFrame]
      exact if_pos hps
    obtain ⟨h1, h2, -⟩ := beginProgramStream_inv d (checkProgramStreamHead f.blocks).2 f
    exact ⟨heq ▸ loose_of_inside h1, hcodec.videoPayload.trans hc.1, hcodec.audioPayload.trans hc.2,
      heq ▸ h2⟩
  · right
    have heq : d.beginFrame f.blocks = d.forward f.blocks := by
      rw [beginFrame]
      exact if_neg hps
    have hf : ∀ (bs : List MsgBlock) (d : Demux), d.Done → (d.forward bs).Done := by
      intro bs
      induction bs with
      | nil => exact fun d h => h
      | cons b bs ih =>
        intro d h
        rw [forward]
        split
        · exact h
        · exact ih _ h
    rw [heq]
    exact hf f.blocks d hd

/-! ## Calls -/

/-- The loop is at a turn like any other, or stalls. -/
structure AtTurn (d : Demux) : Prop where
  video : d.videoPayload = PayloadType.h264
  audio : d.audioPayload = PayloadType.pcmu
  turn : LoopInv d ∨ Stalls d

theorem AtTurn.dealStep (h : AtTurn d) (hshort : ¬ ShortEs env d) (hd : ¬ d.Done) :
    AtTurn (d.dealStep env) := by
  have hcodec := dealStep_sameCodec env (d := d) (by rw [h.video]; decide)
  refine ⟨hcodec.videoPayload.trans h.video, hcodec.audioPayload.trans h.audio, ?_⟩
  by_cases hs : Stalls d
  · exact .inr (hs.dealStep env hshort h.video h.audio)
  · rcases h.turn with hi | hi
    · exact .inl (dealStep_rank env hi hd hs hshort).1
    · exact absurd hi hs

theorem Stalls.not_done (h : Stalls d) : ¬ d.Done := by
  obtain ⟨-, b, bs, hl, -⟩ := h
  unfold Done
  rw [hl]
  exact List.cons_ne_nil _ _

/-- A loop at a turn that stalls never leaves: it copies nothing, so every turn stalls. -/
theorem not_returns_of_stalls (h : AtTurn d) (hs : Stalls d)
    (hshort : Loop.Throughout (dealStep env) Done (fun d => ¬ ShortEs env d) d) :
    ¬ Loop.Returns (dealStep env) Done d := by
  rintro ⟨n, hn⟩
  induction n generalizing d with
  | zero => exact hs.not_done hn
  | succ n ih =>
    have hno := hshort.head hs.not_done
    exact ih (h.dealStep env hno hs.not_done) (hs.dealStep env hno h.video h.audio)
      (hshort.tail hs.not_done) hn

/-- A loop that leaves has no turn that stalls. -/
theorem throughout_of_returns (h : AtTurn d)
    (hshort : Loop.Throughout (dealStep env) Done (fun d => ¬ ShortEs env d) d)
    (hret : Loop.Returns (dealStep env) Done d) :
    Loop.Throughout (dealStep env) Done (fun d => ¬ Stalls d) d := by
  have hno : ¬ Stalls d := fun hs => not_returns_of_stalls env h hs hshort hret
  obtain ⟨n, hn⟩ := hret
  induction n generalizing d with
  | zero => exact .of_done hn
  | succ n ih =>
    by_cases hd : d.Done
    · exact .of_done hd
    have hat := h.dealStep env (hshort.head hd) hd
    exact .cons hno (ih hat (hshort.tail hd)
      (fun hs => not_returns_of_stalls env hat hs (hshort.tail hd) ⟨n, hn⟩) hn)

/-- A frame of one packet with one video PES packet, a start code and one byte. -/
def shortestNal : RtpFrame := .single ⟨96, true, 0, 0, 0⟩
  [0x00, 0x00, 0x01, 0xE0, 0x00, 0x08, 0x80, 0x00, 0x00, 0x00, 0x00, 0x00, 0x01, 0x65] (by decide)

/-- `ProgramKnowFrame` at a start code whose NAL header has the forbidden bit set. -/
def AtForbidden (d : Demux) : Prop :=
  d.status = .foundData ∧ ∃ b bs, d.list = b :: bs ∧ b.startsWith startCode = true ∧
    128 ≤ (b.byte 4).toNat

theorem dealStep_done (h : d.Done) : d.dealStep env = d := by
  unfold dealStep
  rw [h]

theorem AtForbidden.trap (h : AtForbidden d) : ¬ d.Done ∧ AtForbidden (d.dealStep env) := by
  obtain ⟨hs, b, bs, hl, hc, hf⟩ := h
  refine ⟨Stalls.not_done ⟨hs, b, bs, hl, .inl ⟨hc, hf⟩⟩, ?_⟩
  rw [dealStep_foundData env hl hs, programKnowFrame_forbidden env hl hc hf]
  exact ⟨hs, b, bs, hl, hc, hf⟩

end Demux

end AllCamera
