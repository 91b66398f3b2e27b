import AllCamera.Record.IndexList.Windows

/-!
# The sizes of the segments

`VideoFlux` of a segment is the cumulative size at its latest update less `m_ullIndexFileSize`, which is the
size before it. `handleDBIndex` moves that mark to the current size where it cuts a record at midnight, so a
segment that grows after that is taken to be too small; and so is an older one that starts at the same time.
The mark is never above the cumulative size.

* `Opened`, `Ledger`, `note`, `noteStep`: what was written, beside the list.
* `Measured`, `NoWrap`; `Grows`, `MarkOk`.
* `Sized`, `handleDBIndex_sized`.
* `Bounded.step`, `Measured.step`; `run_noWrap`, `run_measured`; `not_measured_night`.
-/

namespace AllCamera

open Run

namespace IndexList

variable {T : IndexListConfig} {s s' : IndexList} {w : DBIndex} {a b : Int}

/-- A segment that was opened: the cumulative size before it, and at its latest update. -/
structure Opened where
  startTime : Int
  before : UInt64
  latest : UInt64
  deriving DecidableEq, Repr

/-- What was written: the segments that were opened, the cumulative size of the last call that was taken and
of the last call, and what was subtracted from what. -/
structure Ledger where
  opened : List Opened
  total : UInt64
  written : UInt64
  subtracted : List (UInt64 × UInt64)
  deriving DecidableEq, Repr

namespace Ledger

def empty : Ledger where
  opened := []
  total := 0
  written := 0
  subtracted := []

/-- The segment that was opened last grows. -/
def grow (writeSize : UInt64) (opened : List Opened) : List Opened :=
  opened.dropLast ++ (opened.getLast?.map fun o => { o with latest := writeSize }).toList

/-- What a call writes. -/
def note (T : IndexListConfig) (s : IndexList) (l : Ledger) : Act → Ledger
  | .updateLocalIndex firstTime lastTime writeSize hasName flag =>
    let subtracted :=
      if firstTime ≠ s.localIndexStartTime then
        if lastTime < firstTime ∨ hasName = false then [] else [(writeSize, s.curFileSize)]
      else [(writeSize, s.indexFileSize)]
    let l := { l with written := writeSize, subtracted := l.subtracted ++ subtracted }
    match s.updateSegments T firstTime lastTime writeSize hasName flag with
    | .error _ => l
    | .ok _ =>
      { l with
        total := writeSize
        opened :=
          if firstTime ≠ s.localIndexStartTime then l.opened ++ [⟨firstTime, l.total, writeSize⟩]
          else grow writeSize l.opened }
  | .updateDBIndex _ _ => l

end Ledger

/-- A call, with what it writes. -/
def noteStep (T : IndexListConfig) (p : IndexList × Ledger) (act : Act) : IndexList × Ledger :=
  (p.1.step T act, p.2.note T p.1 act)

/-- The segments are the last ones that were opened, each with what was written since the one before it. -/
def Measured (p : IndexList × Ledger) : Prop :=
  (p.1.localIndexList.map fun iter => (iter.startTime, iter.videoFlux)) <:+
      (p.2.opened.map fun o => (o.startTime, o.latest - o.before)) ∧
    ∀ o ∈ p.2.opened, o.before ≤ o.latest

/-- No size is subtracted from a smaller one. -/
def NoWrap (p : IndexList × Ledger) : Prop := ∀ d ∈ p.2.subtracted, d.2 ≤ d.1

/-- The cumulative size of a call. -/
def Act.writeSize : Act → Option UInt64
  | .updateLocalIndex _ _ writeSize _ _ => some writeSize
  | .updateDBIndex _ _ => none

/-- The cumulative size does not decrease. -/
def Grows (acts : List Act) : Prop := (acts.filterMap Act.writeSize).Pairwise (· ≤ ·)

instance : DecidablePred Grows := fun acts =>
  inferInstanceAs (Decidable (List.Pairwise (· ≤ ·) (acts.filterMap Act.writeSize)))

/-- Where a segment grows, the mark is where it was when the segment was opened (only a cut at midnight moves it:
`Sized`), and no older one starts at the same time. -/
def MarkOk (p : IndexList × Ledger) : Act → Prop
  | .updateLocalIndex firstTime _ _ _ _ =>
    firstTime = p.1.localIndexStartTime →
      (∀ iter ∈ p.1.localIndexList.dropLast, iter.startTime ≠ firstTime) ∧
        ∀ o ∈ p.2.opened.getLast?, p.1.indexFileSize = o.before
  | .updateDBIndex _ _ => True

instance (p : IndexList × Ledger) : ∀ act, Decidable (MarkOk p act)
  | .updateLocalIndex firstTime _ _ _ _ =>
    inferInstanceAs (Decidable (firstTime = p.1.localIndexStartTime →
      (∀ iter ∈ p.1.localIndexList.dropLast, iter.startTime ≠ firstTime) ∧
        ∀ o ∈ p.2.opened.getLast?, p.1.indexFileSize = o.before))
  | .updateDBIndex _ _ => inferInstanceAs (Decidable True)

/-! ## What `handleDBIndex` does to the sizes -/

/-- The segments and the current size stay; the mark stays, or it is moved to the current size. -/
structure Sized (s s' : IndexList) : Prop where
  localIndexList : s'.localIndexList = s.localIndexList
  curFileSize : s'.curFileSize = s.curFileSize
  indexFileSize : s'.indexFileSize = s.indexFileSize ∨ s'.indexFileSize = s.curFileSize

theorem Sized.refl (s : IndexList) : Sized s s := ⟨rfl, rfl, .inl rfl⟩

theorem Sized.trans {s'' : IndexList} (h : Sized s s') (h' : Sized s' s'') : Sized s s'' := by
  refine ⟨h'.localIndexList.trans h.localIndexList, h'.curFileSize.trans h.curFileSize, ?_⟩
  rcases h'.indexFileSize with heq | heq
  · rw [heq]
    exact h.indexFileSize
  · exact .inr (heq.trans h.curFileSize)

theorem partitionOne_sized (v : Partition) (flag : Bool) (iter : IndexInfo) :
    Sized s (s.partitionOne T v w a b flag iter).1 := by
  unfold partitionOne
  have hstart : Sized s (s.cutStart v a iter).1 := by
    unfold cutStart
    split_ifs
    · exact ⟨rfl, rfl, .inl rfl⟩
    · exact ⟨rfl, rfl, .inl rfl⟩
  generalize s.cutStart v a iter = r₁ at hstart ⊢
  obtain ⟨s₁, v₁, t, fileSize₁⟩ := r₁
  dsimp only at hstart ⊢
  have hstop : Sized s₁ (s₁.cutStop b t fileSize₁ iter).1 := by
    unfold cutStop
    split_ifs
    · exact ⟨rfl, rfl, .inl rfl⟩
    · exact .refl s₁
  generalize s₁.cutStop b t fileSize₁ iter = r₂ at hstop ⊢
  obtain ⟨s₂, u, fileSize₂⟩ := r₂
  dsimp only at hstop ⊢
  generalize (if flag = true then v₁ else { v₁ with localRecordStopFlag := iter.recordStopFlag }) = v₂
  have hsend : Sized s₂ (s₂.sendRecord T v₂ w iter t u fileSize₂).1 := by
    unfold sendRecord
    split_ifs
    · -- over midnight the mark is moved
      exact ⟨rfl, rfl, .inr rfl⟩
    · exact ⟨rfl, rfl, .inl rfl⟩
  generalize s₂.sendRecord T v₂ w iter t u fileSize₂ = r₃ at hsend ⊢
  exact hstart.trans (hstop.trans ⟨hsend.1, hsend.2, hsend.3⟩)

theorem partitionLoop_sized {segments : List IndexInfo} (flag : Bool) (v : Partition) (s : IndexList) :
    Sized s (partitionLoop T w a b flag s v segments).1 := by
  induction segments generalizing s v with
  | nil => exact .refl s
  | cons iter rest ih =>
    unfold partitionLoop
    by_cases hlt : iter.startTime < b
    case neg =>
      rw [if_neg hlt]
      exact .refl s
    rw [if_pos hlt]
    by_cases hle : iter.stopTime ≤ a
    case pos =>
      rw [if_pos hle]
      exact ih v s
    rw [if_neg hle]
    have hone := partitionOne_sized (T := T) (w := w) (s := s) (a := a) (b := b) v flag iter
    generalize s.partitionOne T v w a b flag iter = r at hone ⊢
    dsimp only
    by_cases hend : b ≤ iter.stopTime
    · rw [if_pos hend]
      exact hone
    · rw [if_neg hend]
      exact hone.trans (ih r.2 r.1)

theorem processDBIndex_sized (s : IndexList) (w : DBIndex) : Sized s (s.processDBIndex T w).1 := by
  by_cases hskip : s.skips w
  · rw [processDBIndex_skips hskip]
    exact .refl s
  have htaken : Sized s (s.takeUp w) := by
    unfold takeUp
    split_ifs
    · exact .refl s
    · exact ⟨rfl, rfl, .inl rfl⟩
  obtain ⟨r, rfl, heq, -⟩ := processDBIndex_eq (T := T) hskip
  rw [heq]
  exact htaken.trans (partitionLoop_sized _ _ _)

theorem handleLoop_sized {ws : List DBIndex} (s : IndexList) : Sized s (s.handleLoop T ws) := by
  induction ws generalizing s with
  | nil => exact .refl s
  | cons w ws ih =>
    have hone := processDBIndex_sized (T := T) s w
    unfold handleLoop
    generalize s.processDBIndex T w = r at hone ⊢
    dsimp only
    split_ifs
    · exact hone
    · refine hone.trans (Sized.trans ?_ (ih _))
      exact ⟨rfl, rfl, .inl rfl⟩
    · exact hone

/-! ## A call -/

/-- What holds of the sizes in every state. -/
structure Bounded (p : IndexList × Ledger) : Prop where
  mark : p.1.indexFileSize ≤ p.1.curFileSize
  total : p.1.curFileSize = p.2.total
  written : p.2.total ≤ p.2.written
  noWrap : NoWrap p

/-- The call, before `handleDBIndex`. -/
def Taken (T : IndexListConfig) (s : IndexList) (firstTime lastTime : Int) (writeSize : UInt64)
    (hasName flag : Bool) (s' : IndexList) : Prop :=
  ∃ s₁, s.updateSegments T firstTime lastTime writeSize hasName flag = .ok s₁ ∧
    Sized (s₁.noteSegment firstTime lastTime writeSize) s'

/-- A call of `updateLocalIndex` is refused, or the segments are brought up to date first. -/
theorem updateLocalIndex_cases (s : IndexList) (firstTime lastTime : Int) (writeSize : UInt64)
    (hasName flag : Bool) :
    (∃ e, s.updateSegments T firstTime lastTime writeSize hasName flag = .error e ∧
      (s.updateLocalIndex T firstTime lastTime writeSize hasName flag).1 = s) ∨
    Taken T s firstTime lastTime writeSize hasName flag
      (s.updateLocalIndex T firstTime lastTime writeSize hasName flag).1 := by
  unfold updateLocalIndex Taken
  cases hs₁ : s.updateSegments T firstTime lastTime writeSize hasName flag with
  | error e => exact .inl ⟨e, rfl, rfl⟩
  | ok s₁ =>
    refine .inr ⟨s₁, rfl, ?_⟩
    dsimp only
    split_ifs
    · exact .refl _
    · exact handleLoop_sized _

/-- The segment that is put at the end, and the ones that are left of those before. -/
theorem addSegment_spec (s : IndexList) (firstTime lastTime : Int) (writeSize : UInt64) (flag : Bool) :
    (s.addSegment T firstTime lastTime writeSize flag).localIndexList <:+
        s.localIndexList ++ [⟨firstTime, lastTime, writeSize - s.curFileSize, flag⟩] ∧
      (s.addSegment T firstTime lastTime writeSize flag).indexFileSize = s.curFileSize := by
  unfold addSegment
  dsimp only
  generalize s.localIndexList ++ [(⟨firstTime, lastTime, writeSize - s.curFileSize, flag⟩ : IndexInfo)] = l
  split
  · split_ifs
    · exact ⟨List.suffix_cons _ _, rfl⟩
    · exact ⟨List.suffix_refl _, rfl⟩
  · exact ⟨List.suffix_refl _, rfl⟩

/-- Where only the last segment can start at `firstTime`, it is the one that is changed. -/
theorem changeSegment_concat {firstTime lastTime : Int} {fileSize : UInt64} {flag : Bool}
    {l : List IndexInfo} {iter : IndexInfo} (hl : ∀ i ∈ l, i.startTime ≠ firstTime) :
    changeSegment firstTime lastTime fileSize flag (l ++ [iter]) =
      if iter.startTime = firstTime then
        some (l ++ [{ iter with stopTime := lastTime, videoFlux := fileSize, recordStopFlag := flag }])
      else none := by
  induction l with
  | nil =>
    simp only [List.nil_append, changeSegment]
    split_ifs <;> rfl
  | cons i l ih =>
    obtain ⟨hi, hrest⟩ := List.forall_mem_cons.mp hl
    rw [List.cons_append, changeSegment, if_neg hi, ih hrest]
    split_ifs <;> rfl

/-- No size is subtracted from a smaller one, whatever the windows are. -/
theorem Bounded.step {p : IndexList × Ledger} (h : Bounded p) {act : Act}
    (hgrows : ∀ n ∈ act.writeSize, p.2.written ≤ n) : Bounded (noteStep T p act) := by
  obtain ⟨s, l⟩ := p
  cases act with
  | updateDBIndex startTime stopTime =>
    unfold noteStep IndexList.step updateDBIndex
    dsimp only
    split_ifs
    · exact h
    · exact ⟨h.mark, h.total, h.written, h.noWrap⟩
  | updateLocalIndex firstTime lastTime writeSize hasName flag =>
    have hwritten : l.written ≤ writeSize := hgrows writeSize rfl
    have htotal : s.curFileSize ≤ writeSize := by
      rw [show s.curFileSize = l.total from h.total]
      exact UInt64.le_trans h.written hwritten
    have hnoWrap : ∀ d ∈ l.subtracted ++
        (if firstTime ≠ s.localIndexStartTime then
          if lastTime < firstTime ∨ hasName = false then [] else [(writeSize, s.curFileSize)]
        else [(writeSize, s.indexFileSize)]), d.2 ≤ d.1 := by
      intro d hd
      rcases List.mem_append.mp hd with hd | hd
      · exact h.noWrap d hd
      · split_ifs at hd
        · cases hd
        · rw [List.mem_singleton.mp hd]
          exact htotal
        · rw [List.mem_singleton.mp hd]
          exact UInt64.le_trans h.mark htotal
    unfold noteStep Ledger.note
    dsimp only
    rcases updateLocalIndex_cases (T := T) s firstTime lastTime writeSize hasName flag with
      ⟨e, he, hsame⟩ | ⟨s₁, hs₁, hsized⟩
    · -- the call is refused
      rw [he, IndexList.step, hsame]
      exact ⟨h.mark, h.total, UInt64.le_trans h.written hwritten, hnoWrap⟩
    · rw [hs₁]
      have hmark : s₁.indexFileSize ≤ writeSize := by
        unfold updateSegments at hs₁
        split_ifs at hs₁ with hnew hbad
        · obtain rfl := Except.ok.inj hs₁
          rw [(addSegment_spec s firstTime lastTime writeSize flag).2]
          exact htotal
        · split at hs₁
          · cases hs₁
          · obtain rfl := Except.ok.inj hs₁
            exact UInt64.le_trans h.mark htotal
      refine ⟨?_, hsized.curFileSize, UInt64.le_refl _, hnoWrap⟩
      show (s.updateLocalIndex T firstTime lastTime writeSize hasName flag).1.indexFileSize ≤
        (s.updateLocalIndex T firstTime lastTime writeSize hasName flag).1.curFileSize
      rw [hsized.curFileSize]
      rcases hsized.indexFileSize with heq | heq
      · rw [heq]
        exact hmark
      · exact UInt64.le_of_eq heq

theorem suffix_concat_iff {α : Type} {l l' : List α} {x y : α} :
    l ++ [x] <:+ l' ++ [y] ↔ l <:+ l' ∧ x = y := by
  refine ⟨fun ⟨t, ht⟩ => ?_, fun ⟨⟨t, ht⟩, hxy⟩ => ⟨t, by rw [← ht, hxy, List.append_assoc]⟩⟩
  rw [← List.append_assoc] at ht
  obtain ⟨hl, hxy⟩ := List.append_inj' ht rfl
  exact ⟨⟨t, hl⟩, List.singleton_inj.mp hxy⟩

/-- Another segment is opened. -/
theorem Measured.add {s : IndexList} {l : Ledger} (h : Measured (s, l)) {firstTime lastTime : Int}
    {writeSize : UInt64} {flag : Bool} {s' : IndexList} {l' : Ledger}
    (hlist : s'.localIndexList <:+
      s.localIndexList ++ [⟨firstTime, lastTime, writeSize - s.curFileSize, flag⟩])
    (hopened : l'.opened = l.opened ++ [⟨firstTime, l.total, writeSize⟩]) (htotal : s.curFileSize = l.total)
    (hle : l.total ≤ writeSize) : Measured (s', l') := by
  unfold Measured
  rw [hopened]
  refine ⟨(hlist.map _).trans ?_, fun o ho => ?_⟩
  · rw [List.map_append, List.map_append, List.map_singleton, List.map_singleton, suffix_concat_iff, htotal]
    exact ⟨h.1, rfl⟩
  · rcases List.mem_append.mp ho with ho | ho
    · exact h.2 o ho
    · rw [List.mem_singleton.mp ho]
      exact hle

/-- The last segment grows. -/
theorem Measured.grow {s : IndexList} {l : Ledger} (h : Measured (s, l)) {firstTime lastTime : Int}
    {writeSize : UInt64} {flag : Bool} {segments : List IndexInfo} {s' : IndexList} {l' : Ledger}
    (hlast : ∀ iter ∈ s.localIndexList.dropLast, iter.startTime ≠ firstTime)
    (hmark : ∀ o ∈ l.opened.getLast?, s.indexFileSize = o.before) (hle : s.indexFileSize ≤ writeSize)
    (hsegs : changeSegment firstTime lastTime (writeSize - s.indexFileSize) flag s.localIndexList =
      some segments)
    (hlist : s'.localIndexList = segments) (hopened : l'.opened = Ledger.grow writeSize l.opened) :
    Measured (s', l') := by
  obtain ⟨hmap, hbefore⟩ := h
  unfold Measured
  dsimp only at hmap hbefore ⊢
  rw [hlist, hopened]
  -- the segment was opened last
  rcases List.eq_nil_or_concat' s.localIndexList with hnil | ⟨init, iter, hconcat⟩
  · rw [hnil] at hsegs
    cases hsegs
  rw [hconcat, List.dropLast_concat] at hlast
  rw [hconcat, changeSegment_concat hlast] at hsegs
  split_ifs at hsegs with hstart
  obtain rfl := Option.some.inj hsegs
  rcases List.eq_nil_or_concat' l.opened with hnil | ⟨os, o, hos⟩
  · rw [hnil, hconcat] at hmap
    simp at hmap
  rw [hos] at hmap hbefore hmark ⊢
  rw [hconcat] at hmap
  simp only [List.map_append, List.map_singleton, suffix_concat_iff, Prod.mk.injEq] at hmap
  obtain ⟨hinit, hstarts, -⟩ := hmap
  have ho : s.indexFileSize = o.before := hmark o (by simp)
  unfold Ledger.grow
  rw [List.dropLast_concat, List.getLast?_concat]
  simp only [Option.map_some, Option.toList_some, List.map_append, List.map_singleton, suffix_concat_iff]
  refine ⟨⟨hinit, by rw [hstarts, ho]⟩, fun o' ho' => ?_⟩
  rcases List.mem_append.mp ho' with ho' | ho'
  · exact hbefore o' (List.mem_append_left _ ho')
  · rw [List.mem_singleton.mp ho', ← ho]
    exact hle

theorem Measured.step {p : IndexList × Ledger} (h : Measured p) (hbounded : Bounded p) {act : Act}
    (hgrows : ∀ n ∈ act.writeSize, p.2.written ≤ n) (hok : MarkOk p act) : Measured (noteStep T p act) := by
  obtain ⟨s, l⟩ := p
  cases act with
  | updateDBIndex startTime stopTime =>
    unfold noteStep IndexList.step updateDBIndex
    dsimp only
    split_ifs
    · exact h
    · exact h
  | updateLocalIndex firstTime lastTime writeSize hasName flag =>
    have hwritten : l.total ≤ writeSize :=
      UInt64.le_trans hbounded.written (hgrows writeSize rfl)
    have hle : s.indexFileSize ≤ writeSize := by
      refine UInt64.le_trans hbounded.mark ?_
      rw [show s.curFileSize = l.total from hbounded.total]
      exact hwritten
    unfold noteStep Ledger.note
    dsimp only
    rcases updateLocalIndex_cases (T := T) s firstTime lastTime writeSize hasName flag with
      ⟨e, he, hsame⟩ | ⟨s₁, hs₁, hsized⟩
    · rw [he, IndexList.step, hsame]
      exact h
    · have hlist := hsized.localIndexList
      rw [hs₁]
      unfold updateSegments at hs₁
      split_ifs at hs₁ with hnew hbad
      · obtain rfl := Except.ok.inj hs₁
        have hsuffix := (addSegment_spec (T := T) s firstTime lastTime writeSize flag).1
        exact h.add (hlist ▸ hsuffix) (if_pos hnew) hbounded.total hwritten
      · split at hs₁
        · cases hs₁
        · rename_i segments hsegs
          obtain rfl := Except.ok.inj hs₁
          obtain ⟨hlast, hmark⟩ := hok (not_not.mp hnew)
          exact h.grow hlast hmark hle hsegs hlist (if_neg hnew)

/-! ## Runs -/

theorem Grows.allowed {acts : List Act} (h : Grows acts) {p : IndexList × Ledger}
    (hp : ∀ n ∈ acts.filterMap Act.writeSize, p.2.written ≤ n) :
    Allowed (noteStep T) (fun p act => ∀ n ∈ act.writeSize, p.2.written ≤ n) p acts := by
  induction acts generalizing p with
  | nil => trivial
  | cons act acts ih =>
    cases act with
    | updateDBIndex startTime stopTime => exact ⟨by simp [Act.writeSize], ih h hp⟩
    | updateLocalIndex firstTime lastTime writeSize hasName flag =>
      unfold Grows at h
      simp only [List.filterMap_cons, Act.writeSize] at h hp
      obtain ⟨hfirst, hrest⟩ := List.pairwise_cons.mp h
      obtain ⟨hwritten, -⟩ := List.forall_mem_cons.mp hp
      refine ⟨by simpa [Act.writeSize] using hwritten, ih hrest ?_⟩
      have hnow : (noteStep T p (.updateLocalIndex firstTime lastTime writeSize hasName flag)).2.written =
          writeSize := by
        unfold noteStep Ledger.note
        dsimp only
        split <;> rfl
      rw [hnow]
      exact hfirst

theorem bounded_new : Bounded (new, Ledger.empty) :=
  ⟨UInt64.le_refl _, rfl, UInt64.le_refl _, fun _ hd => nomatch hd⟩

/-- In every run in which the cumulative size does not decrease, no size is subtracted from a smaller one. -/
theorem run_noWrap {acts : List Act} (hgrows : Grows acts) :
    NoWrap (run (noteStep T) (new, Ledger.empty) acts) := by
  have hallowed := hgrows.allowed (T := T) (p := (new, Ledger.empty)) fun n _ => by
    simp [Ledger.empty]
  exact (hallowed.invariant bounded_new fun p act hp hact => hp.step hact).noWrap

/-- If, besides, the mark is where it was when the segment was opened whenever a segment grows, each segment
has the size that was written since the one before it. -/
theorem run_measured {acts : List Act} (hgrows : Grows acts)
    (hok : Allowed (noteStep T) MarkOk (new, Ledger.empty) acts) :
    Measured (run (noteStep T) (new, Ledger.empty) acts) ∧
      NoWrap (run (noteStep T) (new, Ledger.empty) acts) := by
  have hallowed := hgrows.allowed (T := T) (p := (new, Ledger.empty)) fun n _ => by
    simp [Ledger.empty]
  have hnew : Measured (new, Ledger.empty) := ⟨List.nil_suffix, fun o ho => nomatch ho⟩
  obtain ⟨hmeasured, hbounded⟩ := (hallowed.and hok).invariant
    (I := fun p => Measured p ∧ Bounded p) ⟨hnew, bounded_new⟩
    fun p act hp hact => ⟨hp.1.step hp.2 hact.1 hact.2, hp.2.step hact.1⟩
  exact ⟨hmeasured, hbounded.noWrap⟩

/-- Two segments, the first one grows; the window has no midnight. -/
def noonActs : List Act :=
  [.updateDBIndex 40000 0, .updateLocalIndex 39000 41000 4096 true false,
    .updateLocalIndex 39000 42000 9000 true false, .updateLocalIndex 42100 43000 20000 true false]

theorem run_measured_noon : Measured (run (noteStep utc1970) (new, Ledger.empty) noonActs) ∧
    NoWrap (run (noteStep utc1970) (new, Ledger.empty) noonActs) :=
  run_measured (by decide) (by decide)

/-- One segment that grows over midnight, and again. -/
def longNightActs : List Act := nightActs ++ [.updateLocalIndex 85000 87100 9500 true false]

/-- The segment has the size 500, although 9500 bytes were written. -/
theorem not_measured_night : Grows longNightActs ∧
    ¬ Measured (run (noteStep utc1970) (new, Ledger.empty) longNightActs) := by
  have hflux : (run (noteStep utc1970) (new, Ledger.empty) longNightActs).1.localIndexList.map
      (fun iter => (iter.startTime, iter.videoFlux)) = [(85000, 500)] := by decide
  have hopened : (run (noteStep utc1970) (new, Ledger.empty) longNightActs).2.opened =
      [⟨85000, 0, 9500⟩] := by decide
  refine ⟨by decide, fun h => ?_⟩
  have hmap := h.1
  rw [hflux, hopened] at hmap
  exact absurd hmap (by decide)

end IndexList

end AllCamera
