import AllCamera.Record.IndexList.Records

/-!
# The records that are updated

An UPDATE names the record that starts at `m_dbIndexStartTime`. The mark is set before it is known whether
a segment meets the window; while none does, no record is inserted that starts there. Then an UPDATE has one
to name as long as the first segment that the window meets starts after the mark, where an INSERT is sent.

* `Inserted`, `Applies`; `FirstAfter`, `Starts`.
* `sendRecord_linked`, `partitionLoop_linked`, `handleLoop_linked`.
* `run_applies`.
-/

namespace AllCamera

open Run

namespace IndexList

variable {T : IndexListConfig} {s : IndexList} {w : DBIndex} {a b : Int} {sent l : List UpdateRecordIndex}
  {r : UpdateRecordIndex}

/-- A record that starts at `t` was inserted. -/
def Inserted (sent : List UpdateRecordIndex) (t : Int) : Prop :=
  ∃ r ∈ sent, r.type = .insert ∧ r.startTime = t

/-- Each update names a record that was inserted before. -/
def Applies (sent : List UpdateRecordIndex) : Prop :=
  ∀ pre r, pre ++ [r] <+: sent → r.type = .update → Inserted pre r.startTime

/-- The first segment that is met between `a` and `b` starts after `a`. -/
def FirstAfter (a b : Int) : List IndexInfo → Prop
  | [] => True
  | iter :: rest =>
    iter.startTime < b → if iter.stopTime ≤ a then FirstAfter a b rest else a < iter.startTime

/-- If the front window was taken up and no record was sent since, the first segment that it meets starts
after the mark. -/
def FrontStarts (s : IndexList) : Prop :=
  ∀ w ∈ s.dbIndexList.head?, ¬ s.skips w → s.dbIndexStartTime ≠ 0 → s.sentSince = false →
    FirstAfter s.dbIndexStartTime (s.indexStop w) s.localIndexList

/-- The same where the call comes to the windows. -/
def Starts (T : IndexListConfig) : IndexList → Act → Prop := Handles T FrontStarts

instance decidableFirstAfter (a b : Int) : ∀ l, Decidable (FirstAfter a b l)
  | [] => inferInstanceAs (Decidable True)
  | iter :: rest =>
    have := decidableFirstAfter a b rest
    inferInstanceAs (Decidable (iter.startTime < b →
      if iter.stopTime ≤ a then FirstAfter a b rest else a < iter.startTime))

instance : DecidablePred FrontStarts := fun s =>
  inferInstanceAs (Decidable (∀ w ∈ s.dbIndexList.head?, _ → _ → _ → _))

instance (s : IndexList) (act : Act) : Decidable (Starts T s act) := decidableHandles s act

theorem Inserted.append (h : Inserted sent a) : Inserted (sent ++ l) a := by
  obtain ⟨r, hr, h⟩ := h
  exact ⟨r, List.mem_append_left _ hr, h⟩

theorem inserted_append_singleton (hr : r.type = .insert) : Inserted (sent ++ [r]) r.startTime :=
  ⟨r, by simp, hr, rfl⟩

theorem applies_nil : Applies [] := by
  intro pre r hpre
  simp at hpre

theorem Applies.append_singleton (h : Applies sent) (hr : r.type = .update → Inserted sent r.startTime) :
    Applies (sent ++ [r]) := by
  intro pre r' hpre htype
  rcases List.prefix_concat_iff.mp hpre with heq | hpre
  · -- the last record
    obtain ⟨rfl, hsame⟩ := List.append_inj' heq rfl
    obtain rfl := List.singleton_inj.mp hsame
    exact hr htype
  · exact h pre r' hpre htype

/-! ## The records of a window -/

/-- Between two calls: the record that starts at the mark was inserted, unless no record was sent since the
mark was set. -/
structure Linked (s : IndexList) : Prop where
  applies : Applies s.sent
  mark : s.dbIndexStartTime ≠ 0 → s.sentSince = true → Inserted s.sent s.dbIndexStartTime

/-- In the loop over the segments, before those that are left. -/
structure Cutting (a b : Int) (s : IndexList) (v : Partition) (segments : List IndexInfo) : Prop where
  applies : Applies s.sent
  mark : s.sentSince = true → Inserted s.sent s.dbIndexStartTime
  update : v.operType = .update → s.sentSince = true → Inserted s.sent a
  first : s.sentSince = false →
    s.dbIndexStartTime = a ∧ (v.operType = .update → FirstAfter a b segments)

/-- A record is sent, or two; then the record that starts at the mark was inserted. -/
theorem sendRecord_linked (h : Applies s.sent) (v : Partition) (iter : IndexInfo) {t u : Int}
    (fileSize : UInt64) (hupdate : v.operType = .update → Inserted s.sent t)
    (hmark : Inserted s.sent s.dbIndexStartTime ∨ v.operType = .insert ∧ t = s.dbIndexStartTime) :
    Applies (s.sendRecord T v w iter t u fileSize).1.sent ∧
      (s.sendRecord T v w iter t u fileSize).1.sentSince = true ∧
      Inserted (s.sendRecord T v w iter t u fileSize).1.sent
        (s.sendRecord T v w iter t u fileSize).1.dbIndexStartTime ∧
      s.sent <+: (s.sendRecord T v w iter t u fileSize).1.sent ∧
      (s.sendRecord T v w iter t u fileSize).2.operType = v.operType := by
  unfold sendRecord
  split_ifs with hyday
  · -- over midnight the mark is set to the second record
    refine ⟨(h.append_singleton hupdate).append_singleton fun hu => absurd hu (by simp), rfl,
      inserted_append_singleton rfl, ?_, rfl⟩
    exact (List.prefix_append _ _).trans (List.prefix_append _ _)
  · refine ⟨h.append_singleton hupdate, rfl, ?_, List.prefix_append _ _, rfl⟩
    rcases hmark with hmark | ⟨htype, rfl⟩
    · exact hmark.append
    · exact ⟨_, List.mem_append_right _ (List.mem_singleton_self _), htype, rfl⟩

/-- Where the record of a segment starts. -/
theorem cutStart_linked {v : Partition} {iter : IndexInfo} {rest : List IndexInfo}
    (h : Cutting a b s v (iter :: rest)) (hmeets : Meets a b iter) :
    (s.cutStart v a iter).1.sent = s.sent ∧
      ((s.cutStart v a iter).2.1.operType = .update →
        Inserted s.sent a ∧ (s.cutStart v a iter).2.2.1 = a) ∧
      (Inserted s.sent (s.cutStart v a iter).1.dbIndexStartTime ∨
        (s.cutStart v a iter).2.1.operType = .insert ∧
          (s.cutStart v a iter).2.2.1 = (s.cutStart v a iter).1.dbIndexStartTime) := by
  obtain ⟨hlt, hgt⟩ := hmeets
  unfold cutStart
  by_cases hstart : a < iter.startTime
  · rw [if_pos hstart]
    exact ⟨rfl, fun hu => absurd hu (by simp), .inr ⟨rfl, rfl⟩⟩
  rw [if_neg hstart]
  cases hsince : s.sentSince with
  | true => exact ⟨rfl, fun hu => ⟨h.update hu hsince, rfl⟩, .inl (h.mark hsince)⟩
  | false =>
    -- the first record since the mark was set, and it starts there
    obtain ⟨hmark, hfirst⟩ := h.first hsince
    have hinsert : v.operType = .insert := by
      cases htype : v.operType with
      | insert => rfl
      | update =>
        have hafter := hfirst htype hlt
        rw [if_neg (by omega)] at hafter
        exact absurd hafter hstart
    refine ⟨rfl, fun hu => ?_, .inr ⟨hinsert, hmark.symm⟩⟩
    rw [show v.operType = _ from hu] at hinsert
    exact absurd hinsert (by decide)

theorem cutStop_linked (t : Int) (fileSize : UInt64) (iter : IndexInfo) :
    (s.cutStop b t fileSize iter).1.sent = s.sent ∧
      (s.cutStop b t fileSize iter).1.dbIndexStartTime = s.dbIndexStartTime := by
  unfold cutStop
  split_ifs
  · exact ⟨rfl, rfl⟩
  · exact ⟨rfl, rfl⟩

/-- What the loop does for a segment that the window meets; the segments that are left may be any. -/
theorem partitionOne_linked {v : Partition} {iter : IndexInfo} {rest : List IndexInfo} (flag : Bool)
    (h : Cutting a b s v (iter :: rest)) (hmeets : Meets a b iter) (rest' : List IndexInfo) :
    Cutting a b (s.partitionOne T v w a b flag iter).1 (s.partitionOne T v w a b flag iter).2 rest' := by
  unfold partitionOne
  obtain ⟨hsent, hupdate, hmark⟩ := cutStart_linked h hmeets
  generalize s.cutStart v a iter = r₁ at hsent hupdate hmark ⊢
  obtain ⟨s₁, v₁, t, fileSize₁⟩ := r₁
  dsimp only at hsent hupdate hmark ⊢
  obtain ⟨hsent₂, hmark₂⟩ := cutStop_linked (s := s₁) (b := b) t fileSize₁ iter
  generalize s₁.cutStop b t fileSize₁ iter = r₂ at hsent₂ hmark₂ ⊢
  obtain ⟨s₂, u, fileSize₂⟩ := r₂
  dsimp only at hsent₂ hmark₂ ⊢
  have htype : (if flag = true then v₁ else { v₁ with localRecordStopFlag := iter.recordStopFlag }).operType
      = v₁.operType := by
    split_ifs <;> rfl
  generalize (if flag = true then v₁ else { v₁ with localRecordStopFlag := iter.recordStopFlag }) = v₂
    at htype ⊢
  rw [hsent] at hsent₂
  obtain ⟨happlies, hsince, hins, hpre, hop⟩ := sendRecord_linked (T := T) (w := w) (s := s₂) (t := t) (u := u)
    (by rw [hsent₂]; exact h.applies) v₂ iter fileSize₂
    (fun hu => by
      obtain ⟨hins, ha⟩ := hupdate (htype ▸ hu)
      rw [hsent₂, ha]
      exact hins)
    (by rw [hsent₂, hmark₂, htype]; exact hmark)
  generalize s₂.sendRecord T v₂ w iter t u fileSize₂ = r₃ at happlies hsince hins hpre hop ⊢
  refine ⟨happlies, fun _ => hins, fun hu _ => ?_, fun hf => nomatch (hsince.symm.trans hf : true = false)⟩
  obtain ⟨l, hl⟩ := hpre
  have hins' := (hupdate (htype ▸ hop ▸ hu)).1
  rw [← hsent₂] at hins'
  show Inserted r₃.1.sent a
  rw [← hl]
  exact hins'.append

theorem partitionLoop_linked {segments : List IndexInfo} (flag : Bool) (v : Partition) (s : IndexList)
    (h : Cutting a b s v segments) : Linked (partitionLoop T w a b flag s v segments).1 := by
  induction segments generalizing s v with
  | nil => exact ⟨h.applies, fun _ => h.mark⟩
  | cons iter rest ih =>
    unfold partitionLoop
    by_cases hlt : iter.startTime < b
    case neg =>
      rw [if_neg hlt]
      exact ⟨h.applies, fun _ => h.mark⟩
    rw [if_pos hlt]
    by_cases hle : iter.stopTime ≤ a
    case pos =>
      rw [if_pos hle]
      refine ih v s ⟨h.applies, h.mark, h.update, fun hf => ?_⟩
      obtain ⟨hmark, hfirst⟩ := h.first hf
      refine ⟨hmark, fun hu => ?_⟩
      have hafter := hfirst hu hlt
      rwa [if_pos hle] at hafter
    rw [if_neg hle]
    have hnext := partitionOne_linked (T := T) (w := w) flag h ⟨hlt, by omega⟩ rest
    generalize s.partitionOne T v w a b flag iter = r at hnext ⊢
    dsimp only
    split_ifs with hend
    · exact ⟨hnext.applies, fun _ => hnext.mark⟩
    · exact ih r.2 r.1 hnext

/-- `processDBIndex` of the front window. -/
theorem processDBIndex_linked (h : Linked s)
    (hfirst : ¬ s.skips w → s.dbIndexStartTime ≠ 0 → s.sentSince = false →
      FirstAfter s.dbIndexStartTime (s.indexStop w) s.localIndexList) :
    Linked (s.processDBIndex T w).1 := by
  by_cases hskip : s.skips w
  · rw [processDBIndex_skips hskip]
    exact h
  obtain ⟨r, rfl, heq, -⟩ := processDBIndex_eq (T := T) hskip
  rw [heq]
  refine partitionLoop_linked _ _ _ ?_
  unfold takeUp operType
  by_cases hm : s.dbIndexStartTime ≠ 0
  · -- the window is continued
    have ha : s.indexStart w = s.dbIndexStartTime := if_pos hm
    rw [if_pos hm, if_pos hm, ha]
    exact ⟨h.applies, h.mark hm, fun _ => h.mark hm, fun hf => ⟨rfl, fun _ => hfirst hskip hm hf⟩⟩
  · -- it is taken up
    rw [if_neg hm, if_neg hm]
    exact ⟨h.applies, fun hf => absurd hf (by simp), fun hu => absurd hu (by simp), fun _ => ⟨rfl, by simp⟩⟩

/-- The loop of `handleDBIndex`: only the front window can have been taken up before. -/
theorem handleLoop_linked {ws : List DBIndex} (h : Linked s)
    (hfirst : ∀ w ∈ ws.head?, ¬ s.skips w → s.dbIndexStartTime ≠ 0 → s.sentSince = false →
      FirstAfter s.dbIndexStartTime (s.indexStop w) s.localIndexList) : Linked (s.handleLoop T ws) := by
  induction ws generalizing s with
  | nil => exact h
  | cons w ws ih =>
    have hlinked := processDBIndex_linked (T := T) h (hfirst w rfl)
    unfold handleLoop
    generalize s.processDBIndex T w = r at hlinked ⊢
    dsimp only
    split_ifs
    · exact hlinked
    · exact ih ⟨hlinked.applies, fun hne => absurd rfl hne⟩ fun w' _ _ hne => absurd rfl hne
    · exact hlinked

/-! ## Runs -/

/-- The segments are brought up to date; what was sent and the mark stay. -/
theorem updateSegments_linked (h : Linked s) {s' : IndexList} {firstTime lastTime : Int}
    {writeSize : UInt64} {hasName flag : Bool}
    (hs' : s.updateSegments T firstTime lastTime writeSize hasName flag = .ok s') : Linked s' := by
  unfold updateSegments at hs'
  split_ifs at hs' with hnew hbad
  · obtain rfl := Except.ok.inj hs'
    unfold addSegment
    dsimp only
    split
    · split_ifs
      · exact ⟨h.applies, h.mark⟩
      · exact ⟨h.applies, h.mark⟩
    · exact ⟨h.applies, h.mark⟩
  · split at hs'
    · cases hs'
    · obtain rfl := Except.ok.inj hs'
      exact ⟨h.applies, h.mark⟩

theorem Linked.step (h : Linked s) {act : Act} (hstarts : s.Starts T act) : Linked (s.step T act) := by
  refine step_of_handles h hstarts ?_ (fun s' hs' hfirst => handleLoop_linked hs' hfirst) ?_
  · intro firstTime lastTime writeSize hasName flag s' _ hs'
    have hlinked := updateSegments_linked h hs'
    exact ⟨hlinked.applies, hlinked.mark⟩
  · intro startTime stopTime
    exact ⟨h.applies, h.mark⟩

/-- In every run in which a window that was taken up without a record goes on with a segment that starts
after its mark, each update names a record that was inserted before. -/
theorem run_applies {acts : List Act} (h : Allowed (step T) (Starts T) new acts) :
    Applies (run (step T) new acts).sent := by
  have hnew : Linked new := ⟨applies_nil, fun hne => absurd rfl hne⟩
  exact (h.invariant hnew fun s a hs ha => hs.step ha).applies

theorem run_applies_night : Applies (run (step utc1970) new nightActs).sent :=
  run_applies (by decide)

/-- Two windows that overlap, and a segment that ends with the first one and then grows. -/
def lateActs : List Act :=
  [.updateDBIndex 60 120, .updateDBIndex 100 0, .updateLocalIndex 50 120 4096 true false,
    .updateLocalIndex 50 130 8192 true false]

/-- The mark of the second window is set to 120, where no segment is left; then a record is updated that
starts there. -/
theorem late_not_inserted : (∀ act ∈ lateActs, act.SegmentOk) ∧
    ¬ Applies (run (step utc1970) new lateActs).sent := by
  have hsent : (run (step utc1970) new lateActs).sent.map (fun r => (r.type, r.startTime)) =
      [(.insert, 60), (.update, 120)] := by decide
  refine ⟨by decide, fun h => ?_⟩
  generalize (run (step utc1970) new lateActs).sent = sent at hsent h
  obtain ⟨first, rest, rfl, hfirst, hrest⟩ := List.map_eq_cons_iff.mp hsent
  obtain ⟨second, rest, rfl, hsecond, hrest⟩ := List.map_eq_cons_iff.mp hrest
  obtain rfl := List.map_eq_nil_iff.mp hrest
  simp only [Prod.mk.injEq] at hfirst hsecond
  obtain ⟨r, hr, -, hstart⟩ := h [first] second (List.prefix_refl _) hsecond.1
  rw [List.mem_singleton.mp hr, hfirst.2, hsecond.2] at hstart
  exact absurd hstart (by decide)

end IndexList

end AllCamera
