import AllCamera.Record.RecvStream
import AllCamera.Record.RtMediaBuffer
import Mathlib.Data.List.Perm.Basic

/-!
# Who has the blocks (`enqueue_tmpfs`)

* `BlockOwners`: the pool, the block that is received into, and the blocks that `write_media` has accepted;
  `enqueueDio`, `enqueueTmpfs`. `enqueueTmpfs_follows`: it is the receiver's `enqueue_tmpfs`.
* `OwnedOnce`: each block of the pool is free, received into or accepted, and only one of these.
* `ownedOnce_iff`: exactly when a call keeps that.
-/

namespace AllCamera

/-- The pool of a receiver (`attached` is whether it has one), the block that is received into, the blocks that
`write_media` has accepted from anyone, and the flag of the last block of a camera. -/
structure BlockOwners where
  attached : Bool
  buffers : RtMediaBuffer
  recvRtMediaBuff : Option Nat
  accepted : List Nat
  lastMemoryBufferFlag : Nat → Bool

/-- `RecvedFrameCount` of the block, and the results of `write` and `write_media`. -/
structure HandOver where
  recvedFrameCount : UInt32
  writeResult : UInt32
  writeMediaOk : Bool
  deriving DecidableEq, Repr

namespace BlockOwners

variable (s : BlockOwners) (h : HandOver)

/-- `release` of a block of memory. -/
def release (b : Nat) : BlockOwners :=
  { s with buffers := (s.buffers.freeBuffer (some b) false (s.lastMemoryBufferFlag b)).1 }

/-- `enqueue_dio`. -/
def enqueueDio : BlockOwners :=
  match s.recvRtMediaBuff with
  | none => s
  | some b =>
    if h.recvedFrameCount = 0 then { s.release b with recvRtMediaBuff := none }
    else if !h.writeMediaOk then { s.release b with recvRtMediaBuff := none }
    else { s with recvRtMediaBuff := none, accepted := s.accepted ++ [b] }

/-- `enqueue_tmpfs`. -/
def enqueueTmpfs (stripeWidth : UInt32) : BlockOwners × Int32 :=
  if !s.attached then (s, svsResultFailure)
  else
    match s.buffers.allocBuffer s.recvRtMediaBuff.isNone with
    | (buffers, some tmpMb) =>
      ({ { s with buffers }.enqueueDio h with recvRtMediaBuff := some tmpMb }, svsResultOk)
    | (buffers, none) =>
      match s.recvRtMediaBuff with
      | none => ({ s with buffers }, svsErrNomem)
      | some b =>
        match buffers.allocTmpfsBuffer with
        | (buffers, none) => ({ s with buffers }, svsErrNomem)
        | (buffers, some tmpfsMb) =>
          let s := { s with buffers }
          if h.writeResult ≠ stripeWidth then (s, svsResultFailure)
          else if !h.writeMediaOk then (s.release b, svsResultFailure)
          else ({ s with accepted := s.accepted ++ [tmpfsMb] }, svsResultOk)

/-- Where the blocks are. -/
def places : List Nat :=
  s.buffers.freeBufferList ++ s.buffers.tmpfsFreeBufferList ++ s.recvRtMediaBuff.toList ++ s.accepted

/-- Each block that was made is in one place, and the one that is received into has not been released. -/
structure OwnedOnce : Prop where
  once : s.places.Perm (List.range s.buffers.created)
  notReleased : ∀ b, s.recvRtMediaBuff = some b → b ∉ s.buffers.freeBufferList ∧ b ∉ s.buffers.tmpfsFreeBufferList

/-- There is no block of memory for a receiver that has one, but one of tmpfs. -/
def OnlyTmpfs : Prop :=
  s.attached = true ∧ s.buffers.initFlag = true ∧ s.recvRtMediaBuff ≠ none ∧ s.buffers.tmpfsFreeBufferList ≠ [] ∧
    (s.buffers.freeBufferList = [] ∨ s.buffers.usedTmpfsBufferFlag = true ∧
      s.buffers.freeMemoryBufferNum < s.buffers.serveLensNum - s.buffers.currServeLensNum)

variable {s h} {b : Nat}

/-! ## The pool -/

section

variable {m m' : RtMediaBuffer} {first : Bool}

/-- What `alloc_buffer` gives was the first of the free blocks. -/
theorem allocBuffer_some (h : m.allocBuffer first = (m', some b)) :
    m.freeBufferList = b :: m'.freeBufferList ∧ m'.initFlag = true ∧
      m'.tmpfsFreeBufferList = m.tmpfsFreeBufferList ∧ m'.created = m.created ∧
      (first = false →
        ¬ (m.usedTmpfsBufferFlag = true ∧ m.freeMemoryBufferNum < m.serveLensNum - m.currServeLensNum)) := by
  unfold RtMediaBuffer.allocBuffer at h
  grind

/-- When it gives none, it leaves the pool as it is. -/
theorem allocBuffer_none (h : m.allocBuffer first = (m', none)) :
    m' = m ∧ (m.initFlag = false ∨ m.freeBufferList = [] ∨ first = false ∧ m.usedTmpfsBufferFlag = true ∧
      m.freeMemoryBufferNum < m.serveLensNum - m.currServeLensNum) := by
  unfold RtMediaBuffer.allocBuffer at h
  grind

theorem allocTmpfsBuffer_some (h : m.allocTmpfsBuffer = (m', some b)) :
    m.tmpfsFreeBufferList = b :: m'.tmpfsFreeBufferList ∧ m.initFlag = true ∧ m'.initFlag = true ∧
      m'.freeBufferList = m.freeBufferList ∧ m'.created = m.created := by
  unfold RtMediaBuffer.allocTmpfsBuffer at h
  grind

theorem allocTmpfsBuffer_none (h : m.allocTmpfsBuffer = (m', none)) :
    m' = m ∧ (m.initFlag = false ∨ m.tmpfsFreeBufferList = []) := by
  unfold RtMediaBuffer.allocTmpfsBuffer at h
  grind

end

/-- A block of memory that is released is the last of the free ones. -/
theorem release_buffers (hinit : s.buffers.initFlag = true) :
    (s.release b).buffers.freeBufferList = s.buffers.freeBufferList ++ [b] ∧
      (s.release b).buffers.tmpfsFreeBufferList = s.buffers.tmpfsFreeBufferList ∧
      (s.release b).buffers.created = s.buffers.created := by
  unfold release RtMediaBuffer.freeBuffer
  simp [hinit]

/-- A block that is released is in the pool again, and nobody else's. -/
theorem released_perm (hinit : s.buffers.initFlag = true) (hb : s.recvRtMediaBuff = some b) :
    { s.release b with recvRtMediaBuff := none }.places.Perm s.places := by
  obtain ⟨hfree, htmpfs, -⟩ := release_buffers (b := b) hinit
  have haccepted : (s.release b).accepted = s.accepted := rfl
  unfold places
  dsimp only
  rw [hfree, htmpfs, haccepted, hb, List.perm_iff_count]
  intro x
  simp only [List.count_append, Option.toList, List.count_nil]
  omega

/-! ## The two ways -/

/-- `enqueue_dio` lets the block go, to the pool or to `write_media`. -/
theorem enqueueDio_places (hinit : s.buffers.initFlag = true) :
    (s.enqueueDio h).places.Perm s.places ∧ (s.enqueueDio h).recvRtMediaBuff = none ∧
      (s.enqueueDio h).buffers.created = s.buffers.created := by
  unfold enqueueDio
  cases hb : s.recvRtMediaBuff with
  | none => exact ⟨.refl _, hb, rfl⟩
  | some b =>
    obtain ⟨-, -, hcreated⟩ := release_buffers (b := b) hinit
    dsimp only
    split_ifs
    · exact ⟨released_perm hinit hb, rfl, hcreated⟩
    · exact ⟨released_perm hinit hb, rfl, hcreated⟩
    · refine ⟨?_, rfl, rfl⟩
      unfold places
      rw [hb, List.perm_iff_count]
      intro x
      simp only [List.count_append, Option.toList, List.count_nil]
      omega

/-- `enqueue_tmpfs` loses a block: one of tmpfs is taken, and it is not accepted. -/
def LosesBlock (s : BlockOwners) (h : HandOver) (stripeWidth : UInt32) : Prop :=
  s.OnlyTmpfs ∧ (h.writeResult ≠ stripeWidth ∨ h.writeMediaOk = false)

/-- A block that is received into is not free, if each is in one place. -/
theorem ownedOnce_of_perm {s' : BlockOwners} (hs : s.OwnedOnce) (hperm : s'.places.Perm s.places)
    (hcreated : s'.buffers.created = s.buffers.created) : s'.OwnedOnce := by
  have honce : s'.places.Perm (List.range s'.buffers.created) := hcreated ▸ hperm.trans hs.once
  refine ⟨honce, fun b hb => ?_⟩
  have hnodup := honce.nodup_iff.mpr List.nodup_range
  unfold places at hnodup
  rw [hb] at hnodup
  obtain ⟨hfront, -, -⟩ := List.nodup_append.mp hnodup
  obtain ⟨-, -, hne⟩ := List.nodup_append.mp hfront
  exact ⟨fun hfree => hne b (List.mem_append_left _ hfree) b (List.mem_singleton_self b) rfl,
    fun hfree => hne b (List.mem_append_right _ hfree) b (List.mem_singleton_self b) rfl⟩

/-- There is a block of memory: the other one goes its way. -/
theorem ownedOnce_dio (hs : s.OwnedOnce) {m : RtMediaBuffer} {first : Bool}
    (halloc : s.buffers.allocBuffer first = (m, some b)) :
    { { s with buffers := m }.enqueueDio h with recvRtMediaBuff := some b }.OwnedOnce := by
  obtain ⟨hfree, hinit, htmpfs, hcreated, -⟩ := allocBuffer_some halloc
  obtain ⟨hperm, hnone, hsame⟩ := enqueueDio_places (s := { s with buffers := m }) (h := h) hinit
  refine ownedOnce_of_perm hs ?_ (hsame.trans hcreated)
  unfold places at hperm ⊢
  rw [List.perm_iff_count] at hperm ⊢
  intro x
  have hcount := hperm x
  rw [hnone] at hcount
  rw [hfree]
  simp only [List.count_append, List.count_cons, List.count_nil, Option.toList, htmpfs] at hcount ⊢
  omega

/-- A block of tmpfs that is accepted. -/
theorem ownedOnce_accepted (hs : s.OwnedOnce) {m : RtMediaBuffer} (halloc : s.buffers.allocTmpfsBuffer = (m, some b)) :
    { s with buffers := m, accepted := s.accepted ++ [b] }.OwnedOnce := by
  obtain ⟨htmpfs, -, -, hfree, hcreated⟩ := allocTmpfsBuffer_some halloc
  refine ownedOnce_of_perm hs ?_ hcreated
  unfold places
  rw [List.perm_iff_count]
  intro x
  dsimp only
  rw [hfree, htmpfs]
  simp only [List.count_append, List.count_cons, List.count_nil]
  omega

/-- A block of tmpfs that is not. -/
theorem not_ownedOnce_taken (hs : s.OwnedOnce) {m : RtMediaBuffer} (halloc : s.buffers.allocTmpfsBuffer = (m, some b)) :
    ¬ { s with buffers := m }.OwnedOnce := by
  obtain ⟨htmpfs, -, -, hfree, hcreated⟩ := allocTmpfsBuffer_some halloc
  intro h
  have hlen := h.once.length_eq
  have hbefore := hs.once.length_eq
  unfold places at hlen hbefore
  rw [htmpfs] at hbefore
  simp only [List.length_append, List.length_cons, List.length_range, hfree, hcreated] at hlen hbefore
  omega

/-- A block that is released, and received into all the same. -/
theorem not_ownedOnce_release (hinit : s.buffers.initFlag = true) (hb : s.recvRtMediaBuff = some b) :
    ¬ (s.release b).OwnedOnce := by
  intro h
  have hnot := (h.notReleased b hb).1
  rw [(release_buffers hinit).1] at hnot
  exact hnot (List.mem_append_right _ (List.mem_singleton_self b))

/-! ## A call -/

section

variable {stripeWidth : UInt32} {m : RtMediaBuffer} {tmpMb tmpfsMb : Nat}

theorem enqueueTmpfs_memory (hattached : s.attached = true)
    (halloc : s.buffers.allocBuffer s.recvRtMediaBuff.isNone = (m, some tmpMb)) :
    s.enqueueTmpfs h stripeWidth =
      ({ { s with buffers := m }.enqueueDio h with recvRtMediaBuff := some tmpMb }, svsResultOk) := by
  simp [enqueueTmpfs, hattached, halloc]

theorem enqueueTmpfs_detached (hattached : s.attached = false) : (s.enqueueTmpfs h stripeWidth).1 = s := by
  simp [enqueueTmpfs, hattached]

/-- Where there is no block at all, nothing changes. -/
theorem enqueueTmpfs_none (hattached : s.attached = true)
    (halloc : s.buffers.allocBuffer s.recvRtMediaBuff.isNone = (s.buffers, none))
    (hnone : s.recvRtMediaBuff = none ∨ s.buffers.allocTmpfsBuffer = (s.buffers, none)) :
    (s.enqueueTmpfs h stripeWidth).1 = s := by
  cases hb : s.recvRtMediaBuff with
  | none =>
    rw [hb] at halloc
    simp only [enqueueTmpfs, hattached, hb, halloc, Bool.not_true, Bool.false_eq_true, if_false]
    rw [← hattached, ← hb]
  | some b =>
    have htmpfs := hnone.resolve_left (by rw [hb]; exact nofun)
    rw [hb] at halloc
    simp only [enqueueTmpfs, hattached, hb, halloc, htmpfs, Bool.not_true, Bool.false_eq_true, if_false]
    rw [← hattached, ← hb]

theorem enqueueTmpfs_tmpfs (hattached : s.attached = true)
    (halloc : s.buffers.allocBuffer s.recvRtMediaBuff.isNone = (s.buffers, none)) (hb : s.recvRtMediaBuff = some b)
    (htmpfs : s.buffers.allocTmpfsBuffer = (m, some tmpfsMb)) :
    (s.enqueueTmpfs h stripeWidth).1 =
      if h.writeResult ≠ stripeWidth then { s with buffers := m }
      else if !h.writeMediaOk then { s with buffers := m }.release b
      else { s with buffers := m, accepted := s.accepted ++ [tmpfsMb] } := by
  rw [hb] at halloc
  simp only [enqueueTmpfs, hattached, hb, halloc, htmpfs]
  simp only [Bool.not_true, Bool.false_eq_true, if_false]
  split_ifs <;> rfl

/-- **Who has the blocks.** From every state in which each block is in one place: `enqueue_tmpfs` keeps that exactly if
it does not lose a block. -/
theorem ownedOnce_iff (hs : s.OwnedOnce) (h : HandOver) (stripeWidth : UInt32) :
    (s.enqueueTmpfs h stripeWidth).1.OwnedOnce ↔ ¬ s.LosesBlock h stripeWidth := by
  unfold LosesBlock OnlyTmpfs
  by_cases hattached : s.attached = true
  · cases halloc : s.buffers.allocBuffer s.recvRtMediaBuff.isNone with
    | mk m tmpMb =>
      cases tmpMb with
      | some tmpMb =>
        rw [enqueueTmpfs_memory hattached halloc]
        obtain ⟨hfree, -, -, -, hkeep⟩ := allocBuffer_some halloc
        refine iff_of_true (ownedOnce_dio hs halloc) ?_
        rintro ⟨⟨-, -, hsome, -, hempty | hkept⟩, -⟩
        · rw [hfree] at hempty
          cases hempty
        · exact hkeep (Bool.eq_false_iff.mpr fun hnone => hsome (Option.isNone_iff_eq_none.mp hnone)) hkept
      | none =>
        obtain ⟨rfl, hnone⟩ := allocBuffer_none halloc
        cases hb : s.recvRtMediaBuff with
        | none =>
          rw [enqueueTmpfs_none hattached halloc (.inl hb)]
          exact iff_of_true hs fun hloses => hloses.1.2.2.1 rfl
        | some b =>
          cases htmpfs : s.buffers.allocTmpfsBuffer with
          | mk m' tmpfsMb =>
            cases tmpfsMb with
            | none =>
              obtain ⟨rfl, hempty⟩ := allocTmpfsBuffer_none htmpfs
              rw [enqueueTmpfs_none hattached halloc (.inr htmpfs)]
              refine iff_of_true hs ?_
              rintro ⟨⟨-, hinit, -, htmpfsFree, -⟩, -⟩
              rcases hempty with hempty | hempty
              · exact absurd hinit (by rw [hempty]; decide)
              · exact htmpfsFree hempty
            | some tmpfsMb =>
              rw [enqueueTmpfs_tmpfs hattached halloc hb htmpfs]
              obtain ⟨htmpfsFree, hinit, hinit', -⟩ := allocTmpfsBuffer_some htmpfs
              have honly : s.OnlyTmpfs := ⟨hattached, hinit, by rw [hb]; exact nofun,
                by rw [htmpfsFree]; exact nofun,
                hnone.resolve_left (by rw [hinit]; decide) |>.imp id fun h => h.2⟩
              split_ifs with hshort hrefused
              · exact iff_of_false (not_ownedOnce_taken hs htmpfs) fun hnot => hnot ⟨hb ▸ honly, .inl hshort⟩
              · exact iff_of_false (not_ownedOnce_release (s := { s with buffers := m' }) hinit' hb) fun hnot =>
                  hnot ⟨hb ▸ honly, .inr (by simpa using hrefused)⟩
              · refine iff_of_true (ownedOnce_accepted hs htmpfs) ?_
                rintro ⟨-, hwrite | hmedia⟩
                · exact hshort hwrite
                · exact hrefused (by rw [hmedia]; rfl)
  · rw [enqueueTmpfs_detached (Bool.eq_false_iff.mpr hattached)]
    exact iff_of_true hs fun hloses => hattached hloses.1.1

end

/-! ## The receiver -/

/-- The results of the pool and of the calls for the receiver; `block` is where a block is, and its memory. -/
def poolResult (s : BlockOwners) (h : HandOver) (block : Nat → UInt32 × Memory) : PoolResult where
  allocBuffer := (s.buffers.allocBuffer s.recvRtMediaBuff.isNone).2.map block
  allocTmpfsBuffer := s.buffers.allocTmpfsBuffer.2.isSome
  writeResult := h.writeResult
  writeMediaOk := h.writeMediaOk

/-- The receiver has a block when it is said here that it has. -/
def Follows (s : BlockOwners) (stream : RecvStream) : Prop :=
  s.recvRtMediaBuff.isSome = stream.recvRtMediaBuff.isSome

theorem isSome_initMediaBuffer (c : RecvConfig) (stream : RecvStream) :
    (stream.initMediaBuffer c).recvRtMediaBuff.isSome = stream.recvRtMediaBuff.isSome := by
  unfold RecvStream.initMediaBuffer
  split
  · rfl
  · rename_i b hb
    rw [hb]
    rfl

/-- `enqueue_tmpfs` of the receiver returns the same, and has a block afterwards when it has one here. -/
theorem enqueueTmpfs_follows {c : RecvConfig} {stream : RecvStream} (hattached : s.attached = true)
    (hf : s.Follows stream) (h : HandOver) (block : Nat → UInt32 × Memory) :
    (stream.enqueueTmpfs c (s.poolResult h block)).2 = (s.enqueueTmpfs h c.writeMediaDataStripeWidth).2 ∧
      (s.enqueueTmpfs h c.writeMediaDataStripeWidth).1.Follows (stream.enqueueTmpfs c (s.poolResult h block)).1 := by
  unfold Follows at hf ⊢
  unfold RecvStream.enqueueTmpfs poolResult
  cases halloc : s.buffers.allocBuffer s.recvRtMediaBuff.isNone with
  | mk m tmpMb =>
    cases tmpMb with
    | some tmpMb =>
      rw [enqueueTmpfs_memory hattached halloc]
      refine ⟨rfl, ?_⟩
      dsimp only [Option.map_some]
      rw [isSome_initMediaBuffer]
      rfl
    | none =>
      obtain ⟨rfl, -⟩ := allocBuffer_none halloc
      unfold enqueueTmpfs
      rw [hattached]
      simp only [halloc]
      cases hb : s.recvRtMediaBuff with
      | none =>
        rw [hb] at hf
        cases hblock : stream.recvRtMediaBuff with
        | some bl => rw [hblock] at hf; cases hf
        | none => simp [hblock]
      | some b =>
        rw [hb] at hf
        cases hblock : stream.recvRtMediaBuff with
        | none => rw [hblock] at hf; cases hf
        | some bl =>
          cases htmpfs : s.buffers.allocTmpfsBuffer with
          | mk m tmpfsMb =>
            cases tmpfsMb with
            | none => simp [hblock]
            | some tmpfsMb =>
              by_cases hwrite : h.writeResult = c.writeMediaDataStripeWidth
              · cases hmedia : h.writeMediaOk with
                | false => simp [hwrite, release]
                | true => simp [hwrite, isSome_initMediaBuffer]
              · simp [hwrite]

/-! ## A block of tmpfs -/

/-- There are two blocks, the one of memory is received into, and the one of tmpfs is free. -/
def oneEach : BlockOwners where
  attached := true
  buffers :=
    { RtMediaBuffer.new with initFlag := true, tmpfsFreeBufferList := [0], usedBufferList := [1], created := 2 }
  recvRtMediaBuff := some 1
  accepted := []
  lastMemoryBufferFlag := fun _ => false

theorem oneEach_ownedOnce : oneEach.OwnedOnce := ⟨.refl _, fun b hb => by obtain rfl := Option.some.inj hb; decide⟩

/-- A stripe that is written and accepted. -/
theorem ownedOnce_iff_accepted : (oneEach.enqueueTmpfs ⟨1, 4096, true⟩ 4096).1.OwnedOnce :=
  (ownedOnce_iff oneEach_ownedOnce ⟨1, 4096, true⟩ 4096).mpr fun h => absurd h.2 (by decide)

/-- One that is written in part, and one that is refused. -/
theorem not_ownedOnce_oneEach :
    ¬ (oneEach.enqueueTmpfs ⟨1, 100, true⟩ 4096).1.OwnedOnce ∧
      ¬ (oneEach.enqueueTmpfs ⟨1, 4096, false⟩ 4096).1.OwnedOnce :=
  ⟨not_ownedOnce_taken oneEach_ownedOnce rfl, not_ownedOnce_release rfl rfl⟩

end BlockOwners

end AllCamera
