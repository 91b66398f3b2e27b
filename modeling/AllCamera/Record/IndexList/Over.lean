import AllCamera.Record.IndexList.Windows

/-!
# The records that are over

The last record of a window that is erased is over, and so is each record before that no later one of the
window updates, as long as the segments go on with the record that is open: while one is, the next segment
that the window meets starts before the mark, which is the start of that record, and the record is updated;
and where the window ends none is. A record that is cut at midnight in the call that erases its window is
left open, and so is one whose last update finds no block. Only records with a block count.

* `delivered`, `pastIndexes`; `Updates`, `OverBut`, `AllOver`.
* `openAt`, `Follows`, `openAfter`, `Closes`, `WindowsClose`.
* `OverBut.concat`, `sendRecord_over`, `partitionLoop_over`, `handleLoop_over`.
* `run_allOver`; `not_allOver_midnight`.
-/

namespace AllCamera

open Run

namespace IndexList

variable {T : IndexListConfig} {s s' : IndexList} {w : DBIndex} {a b : Int} {n : Nat}
  {k o : Option Int} {sent : List UpdateRecordIndex} {r : UpdateRecordIndex}

/-- `r'` updates the record `r` of the same window. -/
def Updates (r' r : UpdateRecordIndex) : Prop :=
  r'.window.startTime = r.window.startTime ∧ r'.type = .update ∧ r'.startTime = r.startTime

instance (r' r : UpdateRecordIndex) : Decidable (Updates r' r) := inferInstanceAs (Decidable (_ ∧ _ ∧ _))

/-- The records for which a block was allocated. -/
def delivered (s : IndexList) : List UpdateRecordIndex := s.sent.filter (·.allocated)

/-- The records that `RecordPastIndex` is called with: those of the type `REPORT_INDEX_TYPE_OVER`. -/
def pastIndexes (s : IndexList) : List UpdateRecordIndex := s.delivered.filter (·.isOver)

/-- Each record of the window that starts at `k` that no later one updates, and so the last one, is over and
was handed to `RecordPastIndex`. -/
def AllOver (k : Int) (s : IndexList) : Prop :=
  ∀ pre r post, s.delivered = pre ++ r :: post → r.window.startTime = k →
    (∀ r' ∈ post, ¬ Updates r' r) → r.isOver = true ∧ r ∈ s.pastIndexes

/-- A record that no later one updates is over, or it is one of the window that starts at `k` and itself
starts at `o`. -/
def OverBut (k o : Option Int) (sent : List UpdateRecordIndex) : Prop :=
  ∀ pre r post, sent = pre ++ r :: post → (∀ r' ∈ post, ¬ Updates r' r) → r.isOver = false →
    k = some r.window.startTime ∧ o = some r.startTime

/-- The start of the last record, if it is not over. -/
def openAt (s : IndexList) : Option Int :=
  s.delivered.getLast?.bind fun r => if r.isOver then none else some r.startTime

/-- The `n`-th record updates what is open, if there is a block for it. -/
def Follows (T : IndexListConfig) (n : Nat) (o : Option Int) (type : RecordIndexType) (t : Int) : Prop :=
  T.alloc n = true → ∀ t' ∈ o, type = .update ∧ t = t'

instance (n : Nat) (type : RecordIndexType) (t : Int) : Decidable (Follows T n o type t) :=
  inferInstanceAs (Decidable (_ → ∀ t' ∈ o, _ ∧ _))

/-- What is open after the `n`-th record, from `t`. -/
def openAfter (T : IndexListConfig) (n : Nat) (o : Option Int) (isOver : Bool) (t : Int) : Option Int :=
  if T.alloc n then if isOver then none else some t else o

/-- The loop over the segments: how many records there were, what is open, and its variables. -/
structure Walk where
  count : Nat
  open? : Option Int
  vars : Partition

/-- The segment goes on with the record that is open; so does the record that begins at midnight. -/
def GoesOn (T : IndexListConfig) (a b : Int) (k : Walk) (iter : IndexInfo) : Prop :=
  let t := max a iter.startTime
  let u := min b iter.stopTime
  Follows T k.count k.open? (if a < iter.startTime then .insert else k.vars.operType) t ∧
    (T.tmYday t ≠ T.tmYday u →
      Follows T (k.count + 1) (openAfter T k.count k.open? true t) .insert (T.midnight u))

instance (k : Walk) (iter : IndexInfo) : Decidable (GoesOn T a b k iter) :=
  inferInstanceAs (Decidable (_ ∧ (_ → _)))

/-- After a segment that is met. -/
def afterSegment (T : IndexListConfig) (a b : Int) (final : Bool) (k : Walk) (iter : IndexInfo) : Walk :=
  let t := max a iter.startTime
  let u := min b iter.stopTime
  let operType := if a < iter.startTime then .insert else k.vars.operType
  let flag := if final then k.vars.localRecordStopFlag else iter.recordStopFlag
  if T.tmYday t ≠ T.tmYday u then
    ⟨k.count + 2, openAfter T (k.count + 1) (openAfter T k.count k.open? true t) false (T.midnight u),
      operType, false⟩
  else ⟨k.count + 1, openAfter T k.count k.open? flag t, operType, flag⟩

/-- After the segments that are met from `a` to `b`. -/
def afterSegments (T : IndexListConfig) (a b : Int) (final : Bool) : Walk → List IndexInfo → Walk
  | k, [] => k
  | k, iter :: rest =>
    if iter.startTime < b then
      if iter.stopTime ≤ a then afterSegments T a b final k rest
      else if b ≤ iter.stopTime then afterSegment T a b final k iter
      else afterSegments T a b final (afterSegment T a b final k iter) rest
    else k

/-- From `a` to `b`: each segment goes on with what is open. -/
def Closes (T : IndexListConfig) (a b : Int) (final : Bool) : Walk → List IndexInfo → Prop
  | _, [] => True
  | k, iter :: rest =>
    iter.startTime < b →
      if iter.stopTime ≤ a then Closes T a b final k rest
      else GoesOn T a b k iter ∧
        (iter.stopTime < b → Closes T a b final (afterSegment T a b final k iter) rest)

instance decidableCloses (T : IndexListConfig) (a b : Int) (final : Bool) :
    ∀ k l, Decidable (Closes T a b final k l)
  | _, [] => inferInstanceAs (Decidable True)
  | k, iter :: rest =>
    have := decidableCloses T a b final k rest
    have := decidableCloses T a b final (afterSegment T a b final k iter) rest
    inferInstanceAs (Decidable (iter.startTime < b → if iter.stopTime ≤ a then Closes T a b final k rest
      else GoesOn T a b k iter ∧ (iter.stopTime < b → _)))

/-- The walk over the segments for a window. -/
def walk (s : IndexList) (n : Nat) (o : Option Int) (w : DBIndex) : Walk :=
  ⟨n, o, if s.dbIndexStartTime ≠ 0 then .update else .insert, s.finishes w⟩

/-- The same for each window that is processed, behind `n` records; where it ends, nothing is open. One that is
passed over and erased has nothing open. -/
def WindowsClose (T : IndexListConfig) : IndexList → Nat → Option Int → List DBIndex → Prop
  | _, _, _, [] => True
  | s, n, o, w :: ws =>
    (s.skips w → s.finishes w → o = none ∧ WindowsClose T { s with dbIndexStartTime := 0 } n none ws) ∧
    (¬ s.skips w →
      Closes T (s.indexStart w) (s.indexStop w) (s.finishes w) (s.walk n o w) s.localIndexList ∧
      (s.finishes w → ReachesEnd (s.indexStart w) (s.indexStop w) s.localIndexList →
        let k := afterSegments T (s.indexStart w) (s.indexStop w) (s.finishes w) (s.walk n o w) s.localIndexList
        k.open? = none ∧
        WindowsClose T { s with dbIndexStartTime := 0, lastLocalIndexTime := s.indexStop w } k.count none ws))

instance decidableWindowsClose (T : IndexListConfig) :
    ∀ (s : IndexList) (n : Nat) (o : Option Int) (ws : List DBIndex), Decidable (WindowsClose T s n o ws)
  | _, _, _, [] => inferInstanceAs (Decidable True)
  | s, n, o, w :: ws =>
    have := decidableWindowsClose T { s with dbIndexStartTime := 0 } n none ws
    have := decidableWindowsClose T
      { s with dbIndexStartTime := 0, lastLocalIndexTime := s.indexStop w }
      (afterSegments T (s.indexStart w) (s.indexStop w) (s.finishes w) (s.walk n o w) s.localIndexList).count
      none ws
    inferInstanceAs (Decidable ((s.skips w → s.finishes w → o = none ∧ _) ∧
      (¬ s.skips w → Closes T _ _ _ _ _ ∧
        (s.finishes w → ReachesEnd _ _ _ → _ ∧ _))))

/-- The same where the call comes to the windows. -/
def CallCloses (T : IndexListConfig) (s : IndexList) : Call → Prop
  | .act act => s.Handles T (fun s => WindowsClose T s s.sent.length s.openAt s.dbIndexList) act
  | .updateDBIndexStartTime _ => True

instance (s : IndexList) : ∀ c, Decidable (CallCloses T s c)
  | .act act => decidableHandles (P := fun s => WindowsClose T s s.sent.length s.openAt s.dbIndexList) s act
  | .updateDBIndexStartTime _ => inferInstanceAs (Decidable True)

/-! ## The records as a list -/

/-- A record of a list that has one more is that one, or is followed by it. -/
theorem mem_concat_split {pre post : List UpdateRecordIndex} {q : UpdateRecordIndex}
    (h : sent ++ [r] = pre ++ q :: post) :
    q = r ∨ ∃ post', sent = pre ++ q :: post' ∧ post = post' ++ [r] := by
  rcases List.append_eq_append_iff.mp h with ⟨l, -, hr⟩ | ⟨l, hsent, hq⟩
  · have hmem : q ∈ [r] := by
      rw [hr]
      simp
    exact .inl (List.mem_singleton.mp hmem)
  · cases l with
    | nil => exact .inl (List.cons.inj hq).1
    | cons q' post' =>
      obtain ⟨rfl, hpost⟩ := List.cons.inj hq
      exact .inr ⟨post', hsent, hpost⟩

/-- A record of the window at `k` that updates what is open. -/
theorem OverBut.concat (h : OverBut k o sent) (hk : k = some r.window.startTime)
    (ho : ∀ t ∈ o, r.type = .update ∧ r.startTime = t) :
    OverBut k (if r.isOver then none else some r.startTime) (sent ++ [r]) := by
  intro pre q post heq hpost hover
  rcases mem_concat_split heq with rfl | ⟨post', hsent, rfl⟩
  · exact ⟨hk, by simp [hover]⟩
  · obtain ⟨hkq, hoq⟩ := h pre q post' hsent (fun r' hr' => hpost r' (List.mem_append_left _ hr')) hover
    obtain ⟨htype, hstart⟩ := ho q.startTime hoq
    have hupdates : Updates r q := ⟨Option.some.inj (hk.symm.trans hkq), htype, hstart⟩
    exact absurd hupdates (hpost r (by simp))

/-- Where nothing is left, the window does not matter. -/
theorem OverBut.of_none (h : OverBut k none sent) (k' o' : Option Int) : OverBut k' o' sent := by
  intro pre r post heq hpost hover
  obtain ⟨-, hnone⟩ := h pre r post heq hpost hover
  cases hnone

theorem OverBut.of_no_window (h : OverBut none o sent) (k' o' : Option Int) : OverBut k' o' sent := by
  intro pre r post heq hpost hover
  obtain ⟨hnone, -⟩ := h pre r post heq hpost hover
  cases hnone

/-! ## A window -/

/-- In the loop over the segments for `w`: `n` records, and `o` is open. -/
structure Walking (w : DBIndex) (n : Nat) (o : Option Int) (s : IndexList) : Prop where
  overBut : OverBut (some w.startTime) o s.delivered
  openAt : s.openAt = o
  count : s.sent.length = n

/-- What the loop changes besides the records does not matter. -/
theorem Walking.congr (h : Walking w n o s) (hsent : s'.sent = s.sent) : Walking w n o s' := by
  obtain ⟨hover, hopen, hcount⟩ := h
  unfold IndexList.openAt delivered at *
  refine ⟨?_, ?_, ?_⟩
  · unfold delivered
    rwa [hsent]
  · unfold IndexList.openAt delivered
    rwa [hsent]
  · rwa [hsent]

theorem Walking.send (h : Walking w n o s) {iter : IndexInfo} {type : RecordIndexType} {t u : Int}
    {size : UInt64} {flag : Bool} (ho : Follows T n o type t) :
    Walking w (n + 1) (openAfter T n o flag t) (s.sendDBRecordIndex T w iter type t u size flag) := by
  obtain ⟨hover, hopen, rfl⟩ := h
  unfold openAfter
  by_cases halloc : T.alloc s.sent.length = true
  · rw [if_pos halloc]
    have hdelivered : (s.sendDBRecordIndex T w iter type t u size flag).delivered = s.delivered ++
        [⟨type, t, u, (if size = 0 then T.unitK else size) / T.unitK, flag, w, iter, true⟩] := by
      simp [delivered, sendDBRecordIndex, List.filter_append, halloc]
    refine ⟨?_, ?_, by simp [sendDBRecordIndex]⟩
    · rw [hdelivered]
      exact hover.concat rfl (ho halloc)
    · simp [IndexList.openAt, hdelivered]
  · -- without a block nothing changes
    rw [if_neg halloc]
    have hdelivered : (s.sendDBRecordIndex T w iter type t u size flag).delivered = s.delivered := by
      simp [delivered, sendDBRecordIndex, List.filter_append, halloc]
    refine ⟨hdelivered ▸ hover, ?_, by simp [sendDBRecordIndex]⟩
    unfold IndexList.openAt at hopen ⊢
    rwa [hdelivered]

/-- What the loop does for a segment that goes on with what is open. -/
theorem partitionOne_over {k : Walk} (h : Walking w k.count k.open? s) {iter : IndexInfo} (final : Bool)
    (hgoes : GoesOn T a b k iter) :
    Walking w (afterSegment T a b final k iter).count (afterSegment T a b final k iter).open?
        (s.partitionOne T k.vars w a b final iter).1 ∧
      (s.partitionOne T k.vars w a b final iter).2 = (afterSegment T a b final k iter).vars := by
  obtain ⟨n, o, v⟩ := k
  unfold partitionOne
  obtain ⟨hstart, htype, ht⟩ : (s.cutStart v a iter).1.sent = s.sent ∧
      (s.cutStart v a iter).2.1 =
        { v with operType := if a < iter.startTime then .insert else v.operType } ∧
      (s.cutStart v a iter).2.2.1 = max a iter.startTime := by
    unfold cutStart
    split_ifs with hlt
    · exact ⟨rfl, rfl, by dsimp only; omega⟩
    · exact ⟨rfl, rfl, by dsimp only; omega⟩
  generalize s.cutStart v a iter = r₁ at hstart htype ht ⊢
  obtain ⟨s₁, v₁, t, fileSize₁⟩ := r₁
  dsimp only at hstart htype ht ⊢
  obtain ⟨hstop, hu⟩ : (s₁.cutStop b t fileSize₁ iter).1.sent = s₁.sent ∧
      (s₁.cutStop b t fileSize₁ iter).2.1 = min b iter.stopTime := by
    unfold cutStop
    split_ifs with hlt
    · exact ⟨rfl, by dsimp only; omega⟩
    · exact ⟨rfl, by dsimp only; omega⟩
  generalize s₁.cutStop b t fileSize₁ iter = r₂ at hstop hu ⊢
  obtain ⟨s₂, u, fileSize₂⟩ := r₂
  dsimp only at hstop hu ⊢
  have hv₂ : (if final = true then v₁ else { v₁ with localRecordStopFlag := iter.recordStopFlag }) =
      ⟨if a < iter.startTime then .insert else v.operType,
        if final then v.localRecordStopFlag else iter.recordStopFlag⟩ := by
    rw [htype]
    cases final <;> rfl
  rw [hv₂]
  have h₂ : Walking w n o s₂ := h.congr (hstop.trans hstart)
  unfold sendRecord afterSegment
  unfold GoesOn at hgoes
  dsimp only at hgoes ⊢
  rw [← ht, ← hu] at hgoes ⊢
  by_cases hyday : T.tmYday t ≠ T.tmYday u
  · rw [if_pos hyday, if_pos hyday]
    have hcut : Walking w n o (({ s₂ with indexFileSize := s₂.curFileSize } : IndexList).scale fileSize₂ (u - t)
        (T.midnight u - t)).1 := h₂.congr rfl
    exact ⟨((hcut.send hgoes.1).send (hgoes.2 hyday)).congr rfl, rfl⟩
  · rw [if_neg hyday, if_neg hyday]
    exact ⟨(h₂.send hgoes.1).congr rfl, rfl⟩

/-- The loop over the segments. -/
theorem partitionLoop_over {segments : List IndexInfo} (final : Bool) {k : Walk} {s : IndexList}
    (h : Walking w k.count k.open? s) (hcloses : Closes T a b final k segments) :
    Walking w (afterSegments T a b final k segments).count (afterSegments T a b final k segments).open?
      (partitionLoop T w a b final s k.vars segments).1 := by
  induction segments generalizing k s with
  | nil => exact h
  | cons iter rest ih =>
    unfold partitionLoop afterSegments
    by_cases hlt : iter.startTime < b
    case neg =>
      rw [if_neg hlt, if_neg hlt]
      exact h
    rw [if_pos hlt, if_pos hlt]
    have hmeets := hcloses hlt
    by_cases hle : iter.stopTime ≤ a
    case pos =>
      rw [if_pos hle] at hmeets ⊢
      rw [if_pos hle]
      exact ih h hmeets
    rw [if_neg hle] at hmeets ⊢
    rw [if_neg hle]
    obtain ⟨hgoes, hnext⟩ := hmeets
    obtain ⟨hone, hv⟩ := partitionOne_over (T := T) h final hgoes
    generalize s.partitionOne T k.vars w a b final iter = r at hone hv ⊢
    dsimp only
    by_cases hb : b ≤ iter.stopTime
    · rw [if_pos hb, if_pos hb]
      exact hone
    · rw [if_neg hb, if_neg hb, hv]
      exact ih hone (hnext (Int.not_le.mp hb))

/-- `processDBIndex` of the front window. -/
theorem processDBIndex_over (h : Walking w n o s) (hskip : ¬ s.skips w)
    (hcloses : Closes T (s.indexStart w) (s.indexStop w) (s.finishes w) (s.walk n o w) s.localIndexList)
    {k : Walk} (hk : afterSegments T (s.indexStart w) (s.indexStop w) (s.finishes w) (s.walk n o w)
      s.localIndexList = k) :
    Walking w k.count k.open? (s.processDBIndex T w).1 := by
  have hwalk : Walking w n o (s.takeUp w) := by
    refine h.congr ?_
    unfold takeUp
    split_ifs <;> rfl
  obtain ⟨r, hr, heq, -⟩ := processDBIndex_eq (T := T) hskip
  rw [heq, ← hr, ← hk]
  exact partitionLoop_over (T := T) (k := s.walk n o w) (decide (s.finishes w)) hwalk hcloses

/-! ## A call -/

/-- Between two calls, what is left is open, and it is the last record of the front window. -/
def Tidy (s : IndexList) : Prop :=
  OverBut (s.dbIndexList.head?.map fun w => w.startTime) s.openAt s.delivered

theorem WindowsClose.congr {ws : List DBIndex} (h : WindowsClose T s n o ws) (hsame : SameView s s') :
    WindowsClose T s' n o ws := by
  induction ws generalizing s s' n o with
  | nil => trivial
  | cons w ws ih =>
    refine ⟨fun hs hf => ?_, fun hs => ?_⟩
    · obtain ⟨ho, hnext⟩ := h.1 ((hsame.skips w).mp hs) ((hsame.finishes w).mp hf)
      exact ⟨ho, ih hnext hsame.skipped⟩
    · obtain ⟨hloop, hnext⟩ := h.2 (mt (hsame.skips w).mpr hs)
      have hwalk : s'.walk n o w = s.walk n o w := by
        unfold walk
        simp only [hsame.dbIndexStartTime, hsame.finishes w]
      rw [hsame.indexStart w, hsame.indexStop w, hwalk, hsame.localIndexList]
      simp only [hsame.finishes w]
      refine ⟨hloop, fun hf hreach => ?_⟩
      obtain ⟨ho, hnext⟩ := hnext hf hreach
      exact ⟨ho, ih hnext ⟨rfl, hsame.localIndexStopTime, rfl, rfl⟩⟩

/-- The loop of `handleDBIndex`: where a window is erased, nothing of it is open. -/
theorem handleLoop_over {ws : List DBIndex} (h : Tidy s) (hws : s.dbIndexList = ws)
    (hcloses : WindowsClose T s s.sent.length s.openAt ws) : Tidy (s.handleLoop T ws) := by
  induction ws generalizing s with
  | nil => exact h
  | cons w ws ih =>
    have hwalk : Walking w s.sent.length s.openAt s := by
      refine ⟨?_, rfl, rfl⟩
      unfold Tidy at h
      rwa [hws] at h
    obtain ⟨hret, hdone⟩ := processDBIndex_reached (T := T) s w
    have hkept := processDBIndex_kept (T := T) s w
    have hskip : s.skips w → (s.processDBIndex T w).1 = s := fun hs => by rw [processDBIndex_skips hs]
    obtain ⟨n', o', hwalk', hend⟩ : ∃ n' o', Walking w n' o' (s.processDBIndex T w).1 ∧
        (s.finishes w → (s.processDBIndex T w).2 = svsResultOk → o' = none ∧
          WindowsClose T { (s.processDBIndex T w).1 with dbIndexList := ws, dbIndexStartTime := 0 } n' none ws) := by
      by_cases hs : s.skips w
      · refine ⟨s.sent.length, s.openAt, hwalk.congr (by rw [hskip hs]), fun hfin _ => ?_⟩
        obtain ⟨ho, hnext⟩ := hcloses.1 hs hfin
        refine ⟨ho, hnext.congr ⟨hkept.localIndexList, hkept.localIndexStopTime, rfl, ?_⟩⟩
        show (s.processDBIndex T w).1.lastLocalIndexTime = s.lastLocalIndexTime
        rw [hskip hs]
      · obtain ⟨hloop, hnext⟩ := hcloses.2 hs
        refine ⟨_, _, processDBIndex_over hwalk hs hloop rfl, fun hfin hok => ?_⟩
        have hreach := hret.mp hok hs
        obtain ⟨ho, hnext⟩ := hnext hfin hreach
        exact ⟨ho, hnext.congr ⟨hkept.localIndexList, hkept.localIndexStopTime, rfl, (hdone hs hreach).1⟩⟩
    unfold handleLoop
    generalize s.processDBIndex T w = r at hkept hwalk' hend ⊢
    dsimp only
    have htidy : Tidy r.1 := by
      unfold Tidy
      rw [hkept.dbIndexList, hws, hwalk'.openAt]
      exact hwalk'.overBut
    split_ifs with hfail hfin
    · exact htidy
    · -- the next window
      obtain ⟨rfl, hnext⟩ := hend ((hkept.finishes w).mp hfin) (not_not.mp hfail)
      obtain ⟨hover, hopen, rfl⟩ : Walking w n' none
          ({ r.1 with dbIndexList := ws, dbIndexStartTime := 0 } : IndexList) := hwalk'.congr rfl
      exact ih (hover.of_none _ _) rfl (hopen ▸ hnext)
    · exact htidy

/-- The segments are brought up to date; the windows and what was sent stay. -/
theorem updateSegments_sent {firstTime lastTime : Int} {writeSize : UInt64} {hasName flag : Bool}
    (hs' : s.updateSegments T firstTime lastTime writeSize hasName flag = .ok s') :
    s'.dbIndexList = s.dbIndexList ∧ s'.sent = s.sent := by
  unfold updateSegments at hs'
  split_ifs at hs' with hnew hbad
  · obtain rfl := Except.ok.inj hs'
    unfold addSegment
    dsimp only
    split
    · split_ifs
      · exact ⟨rfl, rfl⟩
      · exact ⟨rfl, rfl⟩
    · exact ⟨rfl, rfl⟩
  · split at hs'
    · cases hs'
    · obtain rfl := Except.ok.inj hs'
      exact ⟨rfl, rfl⟩

theorem Tidy.call (h : Tidy s) {c : Call} (hcloses : CallCloses T s c) : Tidy (s.call T c) := by
  cases c with
  | updateDBIndexStartTime startTime =>
    unfold IndexList.call updateDBIndexStartTime
    dsimp only
    split_ifs
    · exact h
    · exact h
  | act act =>
    refine step_of_handles (P := fun s => WindowsClose T s s.sent.length s.openAt s.dbIndexList) h hcloses ?_
      (fun s' hs' hclose => handleLoop_over hs' rfl hclose) ?_
    · intro firstTime lastTime writeSize hasName flag s' _ hs'
      obtain ⟨hlist, hsent⟩ := updateSegments_sent hs'
      unfold Tidy IndexList.openAt delivered at h ⊢
      rw [← hlist, ← hsent] at h
      exact h
    · intro startTime stopTime
      unfold Tidy at h ⊢
      dsimp only
      cases hlist : s.dbIndexList with
      | nil =>
        rw [hlist] at h
        exact h.of_no_window _ _
      | cons w ws =>
        obtain ⟨w', ws', hset, hstart⟩ := setWindow_cons startTime stopTime w ws
        rw [hlist] at h
        rw [hset, List.head?_cons, Option.map_some, hstart]
        exact h

/-- In every run whose segments go on with what is open, a window that is not in the list, as each that was
erased, has all its records over, but for those that were updated later. -/
theorem run_allOver {calls : List Call} (h : Allowed (call T) (CallCloses T) new calls) (k : Int)
    (hk : ∀ w ∈ (run (call T) new calls).dbIndexList, w.startTime ≠ k) :
    AllOver k (run (call T) new calls) := by
  have hnew : Tidy new := by
    intro pre r post heq
    simp [delivered, new] at heq
  have htidy := h.invariant hnew fun s c hs hc => hs.call hc
  intro pre r post heq hstart hpost
  have hover : r.isOver = true := by
    by_contra hnot
    obtain ⟨hfront, -⟩ := htidy pre r post heq hpost (Bool.not_eq_true _ ▸ hnot)
    obtain ⟨w, hw, hwr⟩ := Option.map_eq_some_iff.mp hfront
    exact hk w (List.mem_of_mem_head? hw) (hwr.trans hstart)
  exact ⟨hover, List.mem_filter.mpr ⟨by rw [heq]; simp, hover⟩⟩

/-- One window; a segment that grows, with its stop flag at last, and another one up to the end of the
window. -/
def dayCalls : List Call :=
  [.act (.updateDBIndex 100 400), .act (.updateLocalIndex 50 200 4096 true false),
    .act (.updateLocalIndex 50 250 8192 true true), .act (.updateLocalIndex 260 500 9000 true false)]

theorem run_allOver_day : AllOver 100 (run (call utc1970) new dayCalls) :=
  run_allOver (by decide) 100 (by decide)

/-- A window over midnight, and a segment beyond its end. -/
def midnightCalls : List Call :=
  [.act (.updateDBIndex 86000 86700), .act (.updateLocalIndex 85000 87000 4096 true false)]

/-- The window is erased with its last record, the one from midnight on, not over. -/
theorem not_allOver_midnight : (run (call utc1970) new midnightCalls).dbIndexList = [] ∧
    ¬ AllOver 86000 (run (call utc1970) new midnightCalls) := by
  have hsent : (run (call utc1970) new midnightCalls).delivered.map (fun r =>
      (r.type, r.startTime, r.isOver, r.window.startTime)) =
      [(.insert, 86000, true, 86000), (.insert, 86400, false, 86000)] := by decide
  refine ⟨by decide, fun h => ?_⟩
  obtain ⟨first, rest, heq, -, hrest⟩ := List.map_eq_cons_iff.mp hsent
  obtain ⟨second, rest, rfl, hsecond, hrest⟩ := List.map_eq_cons_iff.mp hrest
  obtain rfl := List.map_eq_nil_iff.mp hrest
  simp only [Prod.mk.injEq] at hsecond
  obtain ⟨hover, -⟩ := h [first] second [] heq hsecond.2.2.2 (by simp)
  rw [hsecond.2.2.1] at hover
  exact absurd hover (by decide)

end IndexList

end AllCamera
