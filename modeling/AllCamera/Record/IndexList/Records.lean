import AllCamera.Record.IndexList
import Mathlib.Order.Lattice
import Mathlib.Order.Defs.LinearOrder

/-!
# The records that are sent

A record is good if it starts before it ends, inside one segment and the window that it is sent for, on one
day. All are good, and no size is divided by 0 or by a negative difference, as long as a window that meets a
segment does not end before it starts (`m_dbIndexStartTime` or `m_lastLocalIndexTime` may be behind its end)
and the part of the segment that it cuts out lies in one day or in two that `mktime` divides.

* `Good`, `AllGood`; `Divides`, `Fits`, `WindowsFit`.
* `Kept`, `processDBIndex_eq`: what the records of a window do not change, and how it is processed.
* `partitionLoop_spec`, `processDBIndex_spec`, `handleLoop_spec`.
* `run_allGood`.
-/

namespace AllCamera

open Run

namespace IndexList

variable {T : IndexListConfig} {s s' : IndexList} {w : DBIndex} {a b : Int}

/-- The two times are on the same day. -/
def SameDay (T : IndexListConfig) (t u : Int) : Prop := T.tmYear t = T.tmYear u ∧ T.tmYday t = T.tmYday u

instance (t u : Int) : Decidable (SameDay T t u) := inferInstanceAs (Decidable (_ ∧ _))

/-- What is asked of a record. -/
structure Good (T : IndexListConfig) (r : UpdateRecordIndex) : Prop where
  order : r.startTime ≤ r.endTime
  segment : r.segment.startTime ≤ r.startTime ∧ r.endTime ≤ r.segment.stopTime
  window : r.window.startTime ≤ r.startTime ∧ (r.window.stopTime = 0 ∨ r.endTime ≤ r.window.stopTime)
  day : SameDay T r.startTime r.endTime

/-- All records that were sent are good, and so are the differences by which sizes were scaled. -/
structure AllGood (T : IndexListConfig) (s : IndexList) : Prop where
  sent : ∀ r ∈ s.sent, Good T r
  scaled : ∀ p ∈ s.scaled, 0 < p.1 ∧ 0 ≤ p.2

/-- The times from `t` to `u` lie in one day, or in two that `mktime` divides. -/
def Divides (T : IndexListConfig) (t u : Int) : Prop :=
  SameDay T t u ∨ T.tmYday t ≠ T.tmYday u ∧ t < T.midnight u ∧ T.midnight u ≤ u ∧
    SameDay T t (T.midnight u - 1) ∧ SameDay T (T.midnight u) u

instance (t u : Int) : Decidable (Divides T t u) := inferInstanceAs (Decidable (_ ∨ _))

/-- The window cuts a segment. -/
def Meets (a b : Int) (iter : IndexInfo) : Prop := iter.startTime < b ∧ a < iter.stopTime

instance (iter : IndexInfo) : Decidable (Meets a b iter) := inferInstanceAs (Decidable (_ ∧ _))

/-- From `a` to `b` the segments can be cut. -/
def Fits (T : IndexListConfig) (a b : Int) (segments : List IndexInfo) : Prop :=
  ∀ iter ∈ segments, Meets a b iter →
    a ≤ b ∧ Divides T (max a iter.startTime) (min b iter.stopTime)

instance (segments : List IndexInfo) : Decidable (Fits T a b segments) :=
  inferInstanceAs (Decidable (∀ iter ∈ segments, _ → _))

/-- The window ends with the segments, or before. -/
def finishes (s : IndexList) (w : DBIndex) : Prop := w.stopTime ≠ 0 ∧ w.stopTime ≤ s.localIndexStopTime

instance (s : IndexList) (w : DBIndex) : Decidable (s.finishes w) := inferInstanceAs (Decidable (_ ∧ _))

/-- Each window that is processed can be cut out of the segments; the next one is processed if the last
segment that this one meets reaches its end. -/
def WindowsFit (T : IndexListConfig) : IndexList → List DBIndex → Prop
  | _, [] => True
  | s, w :: ws =>
    (s.skips w → s.finishes w → WindowsFit T { s with dbIndexStartTime := 0 } ws) ∧
    (¬ s.skips w → Fits T (s.indexStart w) (s.indexStop w) s.localIndexList ∧
      (s.finishes w →
        (∃ iter ∈ s.localIndexList, Meets (s.indexStart w) (s.indexStop w) iter ∧
          s.indexStop w ≤ iter.stopTime) →
        WindowsFit T { s with dbIndexStartTime := 0, lastLocalIndexTime := s.indexStop w } ws))

instance decidableWindowsFit : ∀ (s : IndexList) (ws : List DBIndex), Decidable (WindowsFit T s ws)
  | _, [] => inferInstanceAs (Decidable True)
  | s, w :: ws =>
    have := decidableWindowsFit { s with dbIndexStartTime := 0 } ws
    have := decidableWindowsFit { s with dbIndexStartTime := 0, lastLocalIndexTime := s.indexStop w } ws
    inferInstanceAs (Decidable ((s.skips w → s.finishes w → WindowsFit T { s with dbIndexStartTime := 0 } ws) ∧
      (¬ s.skips w → Fits T (s.indexStart w) (s.indexStop w) s.localIndexList ∧
        (s.finishes w →
          (∃ iter ∈ s.localIndexList, Meets (s.indexStart w) (s.indexStop w) iter ∧
            s.indexStop w ≤ iter.stopTime) →
          WindowsFit T { s with dbIndexStartTime := 0, lastLocalIndexTime := s.indexStop w } ws))))

/-- What the records of a window do not change. -/
structure Kept (s s' : IndexList) : Prop where
  localIndexList : s'.localIndexList = s.localIndexList
  localIndexStopTime : s'.localIndexStopTime = s.localIndexStopTime
  dbIndexList : s'.dbIndexList = s.dbIndexList

theorem Kept.refl (s : IndexList) : Kept s s := ⟨rfl, rfl, rfl⟩

theorem Kept.trans {s'' : IndexList} (h : Kept s s') (h' : Kept s' s'') : Kept s s'' :=
  ⟨h'.localIndexList.trans h.localIndexList, h'.localIndexStopTime.trans h.localIndexStopTime,
    h'.dbIndexList.trans h.dbIndexList⟩

theorem Kept.finishes (h : Kept s s') (w : DBIndex) : s'.finishes w ↔ s.finishes w := by
  unfold IndexList.finishes
  rw [h.localIndexStopTime]

/-! ## What the parts keep -/

theorem cutStart_kept (v : Partition) (iter : IndexInfo) : Kept s (s.cutStart v a iter).1 := by
  unfold cutStart
  split_ifs
  · exact ⟨rfl, rfl, rfl⟩
  · exact ⟨rfl, rfl, rfl⟩

theorem cutStop_kept (t : Int) (fileSize : UInt64) (iter : IndexInfo) :
    Kept s (s.cutStop b t fileSize iter).1 := by
  unfold cutStop
  split_ifs
  · exact ⟨rfl, rfl, rfl⟩
  · exact .refl s

theorem sendRecord_kept (v : Partition) (iter : IndexInfo) (t u : Int) (fileSize : UInt64) :
    Kept s (s.sendRecord T v w iter t u fileSize).1 := by
  unfold sendRecord
  split_ifs
  · exact ⟨rfl, rfl, rfl⟩
  · exact ⟨rfl, rfl, rfl⟩

theorem partitionOne_kept (v : Partition) (flag : Bool) (iter : IndexInfo) :
    Kept s (s.partitionOne T v w a b flag iter).1 := by
  unfold partitionOne
  have hstart := cutStart_kept (s := s) (a := a) v iter
  generalize s.cutStart v a iter = r₁ at hstart ⊢
  obtain ⟨s₁, v₁, t, fileSize₁⟩ := r₁
  dsimp only at hstart ⊢
  have hstop := cutStop_kept (s := s₁) (b := b) t fileSize₁ iter
  generalize s₁.cutStop b t fileSize₁ iter = r₂ at hstop ⊢
  obtain ⟨s₂, u, fileSize₂⟩ := r₂
  dsimp only at hstop ⊢
  generalize (if flag = true then v₁ else { v₁ with localRecordStopFlag := iter.recordStopFlag }) = v₂
  have hsend := sendRecord_kept (T := T) (w := w) (s := s₂) v₂ iter t u fileSize₂
  generalize s₂.sendRecord T v₂ w iter t u fileSize₂ = r₃ at hsend ⊢
  exact hstart.trans (hstop.trans ⟨hsend.1, hsend.2, hsend.3⟩)

theorem partitionLoop_kept (flag : Bool) (v : Partition) (s : IndexList) (segments : List IndexInfo) :
    Kept s (partitionLoop T w a b flag s v segments).1 := by
  fun_induction partitionLoop T w a b flag s v segments with
  | case1 s => exact .refl s
  | case2 s v iter rest hlt hle ih => exact ih
  | case3 s v iter rest hlt hle s₁ v₁ hone hend =>
    have hkept := partitionOne_kept (T := T) (w := w) (s := s) (a := a) (b := b) v flag iter
    rwa [hone] at hkept
  | case4 s v iter rest hlt hle s₁ v₁ hone hend ih =>
    have hkept := partitionOne_kept (T := T) (w := w) (s := s) (a := a) (b := b) v flag iter
    rw [hone] at hkept
    exact hkept.trans ih
  | case5 s => exact .refl s

/-- The state in which the segments are cut for a window. -/
def takeUp (s : IndexList) (w : DBIndex) : IndexList :=
  if s.dbIndexStartTime ≠ 0 then s
  else { s with dbIndexStartTime := s.indexStart w, lastDBIndexTime := s.indexStart w, sentSince := false }

theorem takeUp_kept (s : IndexList) (w : DBIndex) : Kept s (s.takeUp w) := by
  unfold takeUp
  split_ifs
  · exact .refl s
  · exact ⟨rfl, rfl, rfl⟩

/-- The type of the first record that is sent for a window. -/
def operType (s : IndexList) : RecordIndexType := if s.dbIndexStartTime ≠ 0 then .update else .insert

theorem stops_iff_finishes (s : IndexList) (w : DBIndex) :
    w.stopTime ≠ 0 ∧ w.stopTime ≤ s.indexStop w ↔ s.finishes w := by
  unfold indexStop finishes
  split_ifs with h
  · rfl
  · omega

/-- `processDBIndex` of a window that is not passed over. -/
theorem processDBIndex_eq (hskip : ¬ s.skips w) :
    ∃ r, partitionLoop T w (s.indexStart w) (s.indexStop w) (decide (s.finishes w)) (s.takeUp w)
        ⟨s.operType, decide (s.finishes w)⟩ s.localIndexList = r ∧
      (s.processDBIndex T w).1 = r.1 ∧ ((s.processDBIndex T w).2 = svsResultOk ↔ r.2 = true) := by
  refine ⟨_, rfl, ?_⟩
  have hkept := takeUp_kept s w
  have hstop : (s.takeUp w).indexStop w = s.indexStop w := by
    unfold indexStop
    rw [hkept.localIndexStopTime]
  have heq : s.processDBIndex T w = (s.takeUp w).partitionDBRecordIndex T w s.operType (s.indexStart w)
      ((s.takeUp w).indexStop w)
      (decide (w.stopTime ≠ 0 ∧ w.stopTime ≤ (s.takeUp w).indexStop w)) := if_neg hskip
  rw [heq, hstop, decide_eq_decide.mpr (stops_iff_finishes s w)]
  unfold partitionDBRecordIndex
  rw [hkept.localIndexList]
  generalize partitionLoop T w (s.indexStart w) (s.indexStop w) (decide (s.finishes w)) (s.takeUp w)
    ⟨s.operType, decide (s.finishes w)⟩ s.localIndexList = r
  obtain ⟨s', localFlag⟩ := r
  cases localFlag with
  | false => exact ⟨rfl, iff_of_false (show ¬ svsResultFailure = svsResultOk by decide) (by simp)⟩
  | true => exact ⟨rfl, iff_of_true rfl rfl⟩

theorem processDBIndex_skips (hskip : s.skips w) : s.processDBIndex T w = (s, svsResultOk) := if_pos hskip

theorem processDBIndex_kept (s : IndexList) (w : DBIndex) : Kept s (s.processDBIndex T w).1 := by
  by_cases hskip : s.skips w
  · rw [processDBIndex_skips hskip]
    exact .refl s
  · obtain ⟨r, rfl, heq, -⟩ := processDBIndex_eq (T := T) hskip
    rw [heq]
    exact (takeUp_kept s w).trans (partitionLoop_kept _ _ _ _)

/-! ## The parts of `partitionOne` -/

theorem AllGood.send (h : AllGood T s) {iter : IndexInfo} (type : RecordIndexType) {t u : Int}
    (dataSize : UInt64) (flag : Bool) (htu : t ≤ u) (hseg : iter.startTime ≤ t ∧ u ≤ iter.stopTime)
    (hwin : w.startTime ≤ t ∧ (w.stopTime = 0 ∨ u ≤ w.stopTime)) (hday : SameDay T t u) :
    AllGood T (s.sendDBRecordIndex T w iter type t u dataSize flag) := by
  refine ⟨fun r hr => ?_, h.scaled⟩
  rcases List.mem_append.mp hr with hr | hr
  · exact h.sent r hr
  · rw [List.mem_singleton.mp hr]
    exact ⟨htu, hseg, hwin, hday⟩

theorem AllGood.scale (h : AllGood T s) (fileSize : UInt64) {divisor factor : Int} (hd : 0 < divisor)
    (hf : 0 ≤ factor) : AllGood T (s.scale fileSize divisor factor).1 := by
  refine ⟨h.sent, fun p hp => ?_⟩
  rcases List.mem_append.mp hp with hp | hp
  · exact h.scaled p hp
  · rw [List.mem_singleton.mp hp]
    exact ⟨hd, hf⟩

/-- The record of a segment starts in it and not before `a`. -/
theorem cutStart_spec (h : AllGood T s) (v : Partition) {iter : IndexInfo} (hmeets : a < iter.stopTime)
    (hmark : w.startTime ≤ s.dbIndexStartTime) (hw : w.startTime ≤ a) :
    AllGood T (s.cutStart v a iter).1 ∧ w.startTime ≤ (s.cutStart v a iter).1.dbIndexStartTime ∧
      (s.cutStart v a iter).2.2.1 = max a iter.startTime := by
  unfold cutStart
  split_ifs with hlt
  · exact ⟨⟨h.sent, h.scaled⟩, by dsimp only; omega, by dsimp only; omega⟩
  · exact ⟨h.scale iter.videoFlux (by omega) (by omega), hmark, by dsimp only; omega⟩

/-- It stops in it and not after `b`. -/
theorem cutStop_spec (h : AllGood T s) {iter : IndexInfo} {t : Int} (fileSize : UInt64) (ht : t ≤ b)
    (hstop : t ≤ iter.stopTime) :
    AllGood T (s.cutStop b t fileSize iter).1 ∧
      (s.cutStop b t fileSize iter).1.dbIndexStartTime = s.dbIndexStartTime ∧
      (s.cutStop b t fileSize iter).2.1 = min b iter.stopTime := by
  unfold cutStop
  split_ifs with hlt
  · exact ⟨h.scale fileSize (by omega) (by omega), rfl, by dsimp only; omega⟩
  · exact ⟨h, rfl, by dsimp only; omega⟩

/-- The record, or the two. -/
theorem sendRecord_spec (h : AllGood T s) (v : Partition) {iter : IndexInfo} {t u : Int}
    (fileSize : UInt64) (htu : t ≤ u) (hseg : iter.startTime ≤ t ∧ u ≤ iter.stopTime)
    (hwin : w.startTime ≤ t ∧ (w.stopTime = 0 ∨ u ≤ w.stopTime)) (hday : Divides T t u)
    (hmark : w.startTime ≤ s.dbIndexStartTime) :
    AllGood T (s.sendRecord T v w iter t u fileSize).1 ∧
      w.startTime ≤ (s.sendRecord T v w iter t u fileSize).1.dbIndexStartTime := by
  unfold sendRecord
  split_ifs with hyday
  · -- over midnight
    obtain ⟨-, hlt, hle, hday₁, hday₂⟩ := hday.resolve_left fun hsame => hyday hsame.2
    have hcur : AllGood T { s with indexFileSize := s.curFileSize } := ⟨h.sent, h.scaled⟩
    have hscaled : AllGood T (({ s with indexFileSize := s.curFileSize } : IndexList).scale fileSize (u - t)
        (T.midnight u - t)).1 := hcur.scale fileSize (by omega) (by omega)
    have hfirst := hscaled.send v.operType (({ s with indexFileSize := s.curFileSize } : IndexList).scale
      fileSize (u - t) (T.midnight u - t)).2 true (show t ≤ T.midnight u - 1 by omega)
      (show iter.startTime ≤ t ∧ T.midnight u - 1 ≤ iter.stopTime by omega)
      (show w.startTime ≤ t ∧ (w.stopTime = 0 ∨ T.midnight u - 1 ≤ w.stopTime) by omega) hday₁
    have hsecond := hfirst.send .insert T.unitK false hle
      (show iter.startTime ≤ T.midnight u ∧ u ≤ iter.stopTime by omega)
      (show w.startTime ≤ T.midnight u ∧ (w.stopTime = 0 ∨ u ≤ w.stopTime) by omega) hday₂
    exact ⟨⟨hsecond.sent, hsecond.scaled⟩, by dsimp only; omega⟩
  · have hsame : SameDay T t u := hday.resolve_right fun htwo => htwo.1 (not_not.mp hyday)
    exact ⟨h.send v.operType fileSize v.localRecordStopFlag htu hseg hwin hsame, hmark⟩

/-- What the loop does for a segment that the window meets. -/
theorem partitionOne_spec (h : AllGood T s) (v : Partition) {iter : IndexInfo} (flag : Bool)
    (hmeets : Meets a b iter) (hab : a ≤ b) (hiter : iter.startTime ≤ iter.stopTime)
    (hday : Divides T (max a iter.startTime) (min b iter.stopTime))
    (hw : w.startTime ≤ a ∧ (w.stopTime = 0 ∨ b ≤ w.stopTime))
    (hmark : w.startTime ≤ s.dbIndexStartTime) :
    AllGood T (s.partitionOne T v w a b flag iter).1 ∧
      w.startTime ≤ (s.partitionOne T v w a b flag iter).1.dbIndexStartTime ∧
      (s.partitionOne T v w a b flag iter).1.lastLocalIndexTime = min b iter.stopTime := by
  obtain ⟨hlt, hgt⟩ := hmeets
  unfold partitionOne
  obtain ⟨h₁, hmark₁, ht⟩ := cutStart_spec h v hgt hmark hw.1
  generalize s.cutStart v a iter = r₁ at h₁ hmark₁ ht ⊢
  obtain ⟨s₁, v₁, t, fileSize₁⟩ := r₁
  dsimp only at h₁ hmark₁ ht ⊢
  obtain ⟨h₂, hmark₂, hu⟩ := cutStop_spec h₁ fileSize₁ (show t ≤ b by omega)
    (show t ≤ iter.stopTime by omega)
  generalize s₁.cutStop b t fileSize₁ iter = r₂ at h₂ hmark₂ hu ⊢
  obtain ⟨s₂, u, fileSize₂⟩ := r₂
  dsimp only at h₂ hmark₂ hu ⊢
  generalize (if flag = true then v₁ else { v₁ with localRecordStopFlag := iter.recordStopFlag }) = v₂
  obtain ⟨h₃, hmark₃⟩ := sendRecord_spec h₂ v₂ fileSize₂ (show t ≤ u by omega)
    (show iter.startTime ≤ t ∧ u ≤ iter.stopTime by omega)
    (show w.startTime ≤ t ∧ (w.stopTime = 0 ∨ u ≤ w.stopTime) by omega) (by rw [ht, hu]; exact hday)
    (by rw [hmark₂]; exact hmark₁)
  generalize s₂.sendRecord T v₂ w iter t u fileSize₂ = r₃ at h₃ hmark₃ ⊢
  exact ⟨⟨h₃.sent, h₃.scaled⟩, hmark₃, hu⟩

/-- The loop over segments that can be cut. If it comes to the end of the window, the last record ends
there. -/
theorem partitionLoop_spec {segments : List IndexInfo} (flag : Bool)
    (hsegs : ∀ iter ∈ segments, iter.startTime ≤ iter.stopTime) (hfits : Fits T a b segments)
    (hw : w.startTime ≤ a ∧ (w.stopTime = 0 ∨ b ≤ w.stopTime)) (v : Partition) (s : IndexList)
    (h : AllGood T s) (hmark : w.startTime ≤ s.dbIndexStartTime) :
    AllGood T (partitionLoop T w a b flag s v segments).1 ∧
      w.startTime ≤ (partitionLoop T w a b flag s v segments).1.dbIndexStartTime ∧
      ((partitionLoop T w a b flag s v segments).2 = true →
        (partitionLoop T w a b flag s v segments).1.lastLocalIndexTime = b ∧
          ∃ iter ∈ segments, Meets a b iter ∧ b ≤ iter.stopTime) := by
  induction segments generalizing s v with
  | nil => exact ⟨h, hmark, fun hf => absurd hf (by simp [partitionLoop])⟩
  | cons iter rest ih =>
    obtain ⟨hiter, hrest⟩ := List.forall_mem_cons.mp hsegs
    obtain ⟨hfit, hfits'⟩ := List.forall_mem_cons.mp hfits
    unfold partitionLoop
    by_cases hlt : iter.startTime < b
    case neg =>
      rw [if_neg hlt]
      exact ⟨h, hmark, fun hf => absurd hf (by simp)⟩
    rw [if_pos hlt]
    by_cases hle : iter.stopTime ≤ a
    case pos =>
      rw [if_pos hle]
      obtain ⟨hgood, hm, hfound⟩ := ih hrest hfits' v s h hmark
      refine ⟨hgood, hm, fun hf => ?_⟩
      obtain ⟨hlast, i, hi, hmeets⟩ := hfound hf
      exact ⟨hlast, i, List.mem_cons_of_mem _ hi, hmeets⟩
    rw [if_neg hle]
    have hmeets : Meets a b iter := ⟨hlt, by omega⟩
    obtain ⟨hab, hday⟩ := hfit hmeets
    obtain ⟨hgood, hm, hlast⟩ := partitionOne_spec h v flag hmeets hab hiter hday hw hmark
    generalize s.partitionOne T v w a b flag iter = r at hgood hm hlast ⊢
    dsimp only
    by_cases hend : b ≤ iter.stopTime
    · rw [if_pos hend]
      exact ⟨hgood, hm, fun _ => ⟨by rw [hlast]; omega, iter, List.mem_cons_self, hmeets, hend⟩⟩
    · rw [if_neg hend]
      obtain ⟨hgood', hm', hfound⟩ := ih hrest hfits' r.2 r.1 hgood hm
      refine ⟨hgood', hm', fun hf => ?_⟩
      obtain ⟨hlast', i, hi, hmeets'⟩ := hfound hf
      exact ⟨hlast', i, List.mem_cons_of_mem _ hi, hmeets'⟩

/-! ## A window -/

theorem le_indexStart (hmark : s.dbIndexStartTime ≠ 0 → w.startTime ≤ s.dbIndexStartTime) :
    w.startTime ≤ s.indexStart w := by
  unfold indexStart
  split_ifs with hm hlt
  · exact hmark hm
  · omega
  · omega

theorem indexStop_le (s : IndexList) (w : DBIndex) : w.stopTime = 0 ∨ s.indexStop w ≤ w.stopTime := by
  unfold indexStop
  split_ifs with h
  · omega
  · exact .inr (Int.le_refl _)

/-- `processDBIndex` of a window that can be cut out of the segments. -/
theorem processDBIndex_spec (h : AllGood T s)
    (hsegs : ∀ iter ∈ s.localIndexList, iter.startTime ≤ iter.stopTime)
    (hmark : s.dbIndexStartTime ≠ 0 → w.startTime ≤ s.dbIndexStartTime)
    (hfits : ¬ s.skips w → Fits T (s.indexStart w) (s.indexStop w) s.localIndexList) :
    AllGood T (s.processDBIndex T w).1 ∧
      ((s.processDBIndex T w).1.dbIndexStartTime ≠ 0 →
        w.startTime ≤ (s.processDBIndex T w).1.dbIndexStartTime) ∧
      (¬ s.skips w → (s.processDBIndex T w).2 = svsResultOk →
        (s.processDBIndex T w).1.lastLocalIndexTime = s.indexStop w ∧
          ∃ iter ∈ s.localIndexList, Meets (s.indexStart w) (s.indexStop w) iter ∧
            s.indexStop w ≤ iter.stopTime) := by
  by_cases hskip : s.skips w
  · rw [processDBIndex_skips hskip]
    exact ⟨h, hmark, fun hn => absurd hskip hn⟩
  have ha := le_indexStart (s := s) (w := w) hmark
  have htaken : AllGood T (s.takeUp w) ∧ w.startTime ≤ (s.takeUp w).dbIndexStartTime := by
    unfold takeUp
    split_ifs with hm
    · exact ⟨h, hmark hm⟩
    · exact ⟨⟨h.sent, h.scaled⟩, ha⟩
  obtain ⟨r, hr, heq, hok⟩ := processDBIndex_eq (T := T) hskip
  obtain ⟨hgood, hm, hfound⟩ := partitionLoop_spec (decide (s.finishes w)) hsegs (hfits hskip)
    ⟨ha, indexStop_le s w⟩ ⟨s.operType, decide (s.finishes w)⟩ (s.takeUp w) htaken.1 htaken.2
  rw [hr] at hgood hm hfound
  rw [heq, hok]
  exact ⟨hgood, fun _ => hm, fun _ => hfound⟩

/-! ## A call -/

/-- What holds in every state. -/
structure Sound (T : IndexListConfig) (s : IndexList) : Prop where
  good : AllGood T s
  segments : ∀ iter ∈ s.localIndexList, iter.startTime ≤ iter.stopTime
  mark : s.dbIndexStartTime ≠ 0 → ∃ w ws, s.dbIndexList = w :: ws ∧ w.startTime ≤ s.dbIndexStartTime

/-- What the times of a window depend on. -/
structure SameView (s s' : IndexList) : Prop where
  localIndexList : s'.localIndexList = s.localIndexList
  localIndexStopTime : s'.localIndexStopTime = s.localIndexStopTime
  dbIndexStartTime : s'.dbIndexStartTime = s.dbIndexStartTime
  lastLocalIndexTime : s'.lastLocalIndexTime = s.lastLocalIndexTime

namespace SameView

variable (h : SameView s s') (w : DBIndex)
include h

theorem skips : s'.skips w ↔ s.skips w := by
  unfold IndexList.skips
  rw [h.localIndexStopTime]

theorem finishes : s'.finishes w ↔ s.finishes w := by
  unfold IndexList.finishes
  rw [h.localIndexStopTime]

theorem indexStart : s'.indexStart w = s.indexStart w := by
  unfold IndexList.indexStart
  rw [h.dbIndexStartTime, h.lastLocalIndexTime]

theorem indexStop : s'.indexStop w = s.indexStop w := by
  unfold IndexList.indexStop
  rw [h.localIndexStopTime]

/-- The next window is taken up in the same way. -/
theorem next (t : Int) : SameView { s with dbIndexStartTime := 0, lastLocalIndexTime := t }
    { s' with dbIndexStartTime := 0, lastLocalIndexTime := t } :=
  ⟨h.localIndexList, h.localIndexStopTime, rfl, rfl⟩

theorem skipped : SameView { s with dbIndexStartTime := 0 } { s' with dbIndexStartTime := 0 } :=
  ⟨h.localIndexList, h.localIndexStopTime, rfl, h.lastLocalIndexTime⟩

end SameView

theorem WindowsFit.congr {ws : List DBIndex} (h : WindowsFit T s ws) (hsame : SameView s s') :
    WindowsFit T s' ws := by
  induction ws generalizing s s' with
  | nil => trivial
  | cons w ws ih =>
    refine ⟨fun hs hf => ih (h.1 ((hsame.skips w).mp hs) ((hsame.finishes w).mp hf)) hsame.skipped,
      fun hs => ?_⟩
    obtain ⟨hfits, hnext⟩ := h.2 (mt (hsame.skips w).mpr hs)
    rw [hsame.indexStart w, hsame.indexStop w]
    refine ⟨by rw [hsame.localIndexList]; exact hfits, fun hf hmeets => ?_⟩
    rw [hsame.localIndexList] at hmeets
    exact ih (hnext ((hsame.finishes w).mp hf) hmeets) (hsame.next _)

/-- The loop of `handleDBIndex` over windows that can be cut out of the segments. -/
theorem handleLoop_spec {ws : List DBIndex} (h : Sound T s) (hws : s.dbIndexList = ws)
    (hfit : WindowsFit T s ws) : Sound T (s.handleLoop T ws) := by
  induction ws generalizing s with
  | nil => exact h
  | cons w ws ih =>
    have hmark : s.dbIndexStartTime ≠ 0 → w.startTime ≤ s.dbIndexStartTime := by
      intro hm
      obtain ⟨w', ws', heq, hle⟩ := h.mark hm
      rw [hws] at heq
      obtain ⟨rfl, -⟩ := List.cons.inj heq
      exact hle
    obtain ⟨hgood, hm, hnext⟩ := processDBIndex_spec h.good h.segments hmark fun hs => (hfit.2 hs).1
    have hkept := processDBIndex_kept (T := T) s w
    have hskip : s.skips w → (s.processDBIndex T w).1 = s := fun hs => by rw [processDBIndex_skips hs]
    unfold handleLoop
    generalize s.processDBIndex T w = r at hgood hkept hm hskip hnext ⊢
    dsimp only
    have hsegs : ∀ iter ∈ r.1.localIndexList, iter.startTime ≤ iter.stopTime := by
      rw [hkept.localIndexList]
      exact h.segments
    have hsame : Sound T r.1 :=
      ⟨hgood, hsegs, fun hne => ⟨w, ws, hkept.dbIndexList.trans hws, hm hne⟩⟩
    split_ifs with hret hfin
    · exact hsame
    · -- the next window
      refine ih ⟨⟨hgood.sent, hgood.scaled⟩, hsegs, fun hne => absurd rfl hne⟩ rfl ?_
      have hfin' : s.finishes w := (hkept.finishes w).mp hfin
      by_cases hs : s.skips w
      · refine (hfit.1 hs hfin').congr ⟨hkept.localIndexList, hkept.localIndexStopTime, rfl, ?_⟩
        show r.1.lastLocalIndexTime = s.lastLocalIndexTime
        rw [hskip hs]
      · obtain ⟨hlast, hmeets⟩ := hnext hs (not_not.mp hret)
        exact ((hfit.2 hs).2 hfin' hmeets).congr
          ⟨hkept.localIndexList, hkept.localIndexStopTime, rfl, hlast⟩
    · exact hsame

theorem changeSegment_spec {firstTime lastTime : Int} {fileSize : UInt64} {flag : Bool}
    {segments l : List IndexInfo} (hle : firstTime ≤ lastTime)
    (hsegs : ∀ iter ∈ segments, iter.startTime ≤ iter.stopTime)
    (hl : changeSegment firstTime lastTime fileSize flag segments = some l) :
    ∀ iter ∈ l, iter.startTime ≤ iter.stopTime := by
  induction segments generalizing l with
  | nil => cases hl
  | cons iter rest ih =>
    obtain ⟨hiter, hrest⟩ := List.forall_mem_cons.mp hsegs
    unfold changeSegment at hl
    split_ifs at hl with hstart
    · obtain rfl := Option.some.inj hl
      exact List.forall_mem_cons.mpr ⟨by dsimp only; omega, hrest⟩
    · obtain ⟨l', hl', rfl⟩ := Option.map_eq_some_iff.mp hl
      exact List.forall_mem_cons.mpr ⟨hiter, ih hrest hl'⟩

/-- After the segments have been brought up to date they still start before they end. -/
theorem updateSegments_spec (h : Sound T s) {firstTime lastTime : Int} {writeSize : UInt64}
    {hasName flag : Bool} (hle : firstTime ≤ lastTime)
    (hs' : s.updateSegments T firstTime lastTime writeSize hasName flag = .ok s') : Sound T s' := by
  unfold updateSegments at hs'
  split_ifs at hs' with hnew hbad
  · -- another segment
    obtain rfl := Except.ok.inj hs'
    have hall : ∀ iter ∈ s.localIndexList ++
        [(⟨firstTime, lastTime, writeSize - s.curFileSize, flag⟩ : IndexInfo)],
        iter.startTime ≤ iter.stopTime := by
      intro iter hiter
      rcases List.mem_append.mp hiter with hiter | hiter
      · exact h.segments iter hiter
      · rw [List.mem_singleton.mp hiter]
        exact hle
    unfold addSegment
    dsimp only
    generalize s.localIndexList ++ [(⟨firstTime, lastTime, writeSize - s.curFileSize, flag⟩ : IndexInfo)] = l
      at hall ⊢
    split
    · rename_i front next rest
      split_ifs with hdrop
      · exact ⟨⟨h.good.sent, h.good.scaled⟩, fun iter hi => hall iter (List.mem_cons_of_mem _ hi), h.mark⟩
      · exact ⟨⟨h.good.sent, h.good.scaled⟩, hall, h.mark⟩
    · exact ⟨⟨h.good.sent, h.good.scaled⟩, hall, h.mark⟩
  · -- the segment grows
    split at hs'
    · cases hs'
    rename_i l hl
    obtain rfl := Except.ok.inj hs'
    exact ⟨⟨h.good.sent, h.good.scaled⟩, changeSegment_spec hle h.segments hl, h.mark⟩

/-- A segment starts before it ends. -/
def Act.SegmentOk : Act → Prop
  | .updateLocalIndex firstTime lastTime _ _ _ => firstTime ≤ lastTime
  | .updateDBIndex _ _ => True

instance : DecidablePred Act.SegmentOk
  | .updateLocalIndex firstTime lastTime _ _ _ => inferInstanceAs (Decidable (firstTime ≤ lastTime))
  | .updateDBIndex _ _ => inferInstanceAs (Decidable True)

/-- The windows that the call processes can be cut out of the segments. -/
def Cuts (T : IndexListConfig) : IndexList → Act → Prop := Handles T fun s => WindowsFit T s s.dbIndexList

instance (s : IndexList) (act : Act) : Decidable (Cuts T s act) := decidableHandles s act

theorem setWindow_cons (startTime stopTime : Int) (w : DBIndex) (ws : List DBIndex) :
    ∃ w' ws', setWindow startTime stopTime (w :: ws) = w' :: ws' ∧ w'.startTime = w.startTime := by
  unfold setWindow
  split_ifs
  · exact ⟨_, _, rfl, rfl⟩
  · exact ⟨_, _, rfl, rfl⟩

theorem Sound.step (h : Sound T s) {act : Act} (hseg : act.SegmentOk) (hcuts : s.Cuts T act) :
    Sound T (s.step T act) := by
  refine step_of_handles h hcuts ?_ (fun s' hs' hfit => handleLoop_spec hs' rfl hfit) ?_
  · intro firstTime lastTime writeSize hasName flag s' hact hs'
    subst hact
    have hsound := updateSegments_spec h hseg hs'
    exact ⟨⟨hsound.good.sent, hsound.good.scaled⟩, hsound.segments, hsound.mark⟩
  · intro startTime stopTime
    refine ⟨⟨h.good.sent, h.good.scaled⟩, h.segments, fun hm => ?_⟩
    obtain ⟨w, ws, hlist, hle⟩ := h.mark hm
    obtain ⟨w', ws', hset, hstart⟩ := setWindow_cons startTime stopTime w ws
    exact ⟨w', ws', by rw [hlist]; exact hset, by rw [hstart]; exact hle⟩

/-- In every run in which the windows can be cut out of the segments, all records are good and all sizes are
scaled by proper differences. -/
theorem run_allGood {acts : List Act} (hseg : ∀ a ∈ acts, a.SegmentOk)
    (h : Allowed (step T) (Cuts T) new acts) : AllGood T (run (step T) new acts) := by
  have hnew : Sound T new :=
    ⟨⟨by simp [new], by simp [new]⟩, by simp [new], by simp [new]⟩
  exact ((h.and_forall hseg).invariant hnew fun s a hs ha => hs.step ha.1 ha.2).good

/-- The local time is UTC, in 1970. -/
def utc1970 : IndexListConfig where
  prorecordMaxTime := 3600
  unitK := 1024
  errParam := -1
  tmYear _ := 70
  tmYday t := t / 86400
  midnight t := t - t % 86400
  alloc _ := true

/-- One window over midnight, without an end; one segment that grows over midnight. -/
def nightActs : List Act :=
  [.updateDBIndex 86000 0, .updateLocalIndex 85000 86300 4096 true false,
    .updateLocalIndex 85000 87000 9000 true false]

theorem run_allGood_night : AllGood utc1970 (run (step utc1970) new nightActs) :=
  run_allGood (by decide) (by decide)

/-- Two windows that overlap; one segment. -/
def overlapActs : List Act :=
  [.updateDBIndex 100 200, .updateDBIndex 120 150, .updateLocalIndex 50 250 4096 true false]

/-- The second window ends before the first one does, so its record ends before it starts and its size is
multiplied by a negative difference. -/
theorem overlap_reversed : (∀ act ∈ overlapActs, act.SegmentOk) ∧
    (∃ r ∈ (run (step utc1970) new overlapActs).sent, r.endTime < r.startTime) ∧
    ¬ AllGood utc1970 (run (step utc1970) new overlapActs) := by
  have hsent : (∃ r ∈ (run (step utc1970) new overlapActs).sent, r.endTime < r.startTime) := by decide
  refine ⟨by decide, hsent, fun h => ?_⟩
  obtain ⟨r, hr, hlt⟩ := hsent
  have := (h.sent r hr).order
  omega

end IndexList

end AllCamera
