import AllCamera.Record.IndexList.Records

/-!
# The windows that are done

The windows are processed in their order. The ones that end with the segments, or before, are erased; the
first one that does not is processed up to the end of the segments, and the ones behind it wait. That holds
as long as the segments reach the end of each window that is processed. One that ends in a gap between two
segments stays, and so do all behind it.

* `updateDBIndexStartTime`, `Call`, `call`: the calls of the egress, the third one too.
* `ReachesEnd`, `Reached`; `Settled`, `Unblocked`.
* `partitionLoop_flag`, `processDBIndex_reached`, `handleLoop_settled`; `handleLoop_stuck`.
* `run_windowsSettled`; `not_unblocked`.
-/

namespace AllCamera

open Run

namespace IndexList

variable {T : IndexListConfig} {s s' : IndexList} {w : DBIndex} {a b : Int}

/-- `updateDBIndexStartTime`. -/
def updateDBIndexStartTime (s : IndexList) (startTime : Int) : IndexList :=
  if s.dbIndexStartTime ≠ 0 ∧ s.dbIndexStartTime < startTime then
    { s with dbIndexStartTime := startTime }
  else s

/-- A call of the egress. -/
inductive Call
  | act (act : Act)
  | updateDBIndexStartTime (startTime : Int)
  deriving DecidableEq, Repr

/-- The state after a call. -/
def call (T : IndexListConfig) (s : IndexList) : Call → IndexList
  | .act act => s.step T act
  | .updateDBIndexStartTime startTime => s.updateDBIndexStartTime startTime

/-- From `a` to `b`, the segments are met until one reaches `b`. -/
def ReachesEnd (a b : Int) : List IndexInfo → Prop
  | [] => False
  | iter :: rest => iter.startTime < b ∧ (a < iter.stopTime ∧ b ≤ iter.stopTime ∨ ReachesEnd a b rest)

instance decidableReachesEnd (a b : Int) : ∀ l, Decidable (ReachesEnd a b l)
  | [] => inferInstanceAs (Decidable False)
  | iter :: rest =>
    have := decidableReachesEnd a b rest
    inferInstanceAs (Decidable (iter.startTime < b ∧
      (a < iter.stopTime ∧ b ≤ iter.stopTime ∨ ReachesEnd a b rest)))

/-- The segments reach the end of each window that is processed. -/
def Reached : IndexList → List DBIndex → Prop
  | _, [] => True
  | s, w :: ws =>
    (¬ s.skips w → ReachesEnd (s.indexStart w) (s.indexStop w) s.localIndexList) ∧
    (s.finishes w → Reached
      { s with
        dbIndexStartTime := 0
        lastLocalIndexTime := if s.skips w then s.lastLocalIndexTime else s.indexStop w } ws)

instance decidableReached : ∀ (s : IndexList) (ws : List DBIndex), Decidable (Reached s ws)
  | _, [] => inferInstanceAs (Decidable True)
  | s, w :: ws =>
    have := decidableReached
      { s with
        dbIndexStartTime := 0
        lastLocalIndexTime := if s.skips w then s.lastLocalIndexTime else s.indexStop w } ws
    inferInstanceAs (Decidable ((¬ s.skips w → _) ∧ (s.finishes w → _)))

/-- The last record is one of `w` up to `b`. -/
def ProcessedTo (s : IndexList) (w : DBIndex) (b : Int) : Prop :=
  ∃ r ∈ s.sent.getLast?, r.window = w ∧ r.endTime = b

/-- What `handleDBIndex` leaves of the windows `ws`: the first one that goes on, with a record up to the end
of the segments, and the ones behind it. -/
structure Settled (s s' : IndexList) (ws : List DBIndex) : Prop where
  windows : s'.dbIndexList = ws.dropWhile fun w => s.finishes w
  front : ∀ w ∈ s'.dbIndexList.head?, w.startTime < s.localIndexStopTime →
    s'.ProcessedTo w s.localIndexStopTime

/-- No window is left that ends with the segments, or before, and each that begins before their end has a
record up to there. -/
def Unblocked (s : IndexList) : Prop :=
  ∀ w ∈ s.dbIndexList, ¬ s.finishes w ∧
    (w.startTime < s.localIndexStopTime → ∃ r ∈ s.sent, r.window = w ∧ r.endTime = s.localIndexStopTime)

instance : DecidablePred Unblocked := fun s =>
  inferInstanceAs (Decidable (∀ w ∈ s.dbIndexList, _ ∧ (_ → ∃ r ∈ s.sent, _)))

/-! ## A window -/

theorem cutStop_eq (t : Int) (fileSize : UInt64) {iter : IndexInfo} (hb : b ≤ iter.stopTime) :
    (s.cutStop b t fileSize iter).2.1 = b := by
  unfold cutStop
  split_ifs with hlt
  · rfl
  · dsimp only
    omega

theorem sendRecord_processed (v : Partition) (iter : IndexInfo) (t u : Int) (fileSize : UInt64) :
    ProcessedTo (s.sendRecord T v w iter t u fileSize).1 w u := by
  unfold sendRecord
  split_ifs
  · exact ⟨_, List.getLast?_concat, rfl, rfl⟩
  · exact ⟨_, List.getLast?_concat, rfl, rfl⟩

/-- A segment that reaches the end of the window gives a record up to there. -/
theorem partitionOne_processed (v : Partition) (flag : Bool) (iter : IndexInfo) (hb : b ≤ iter.stopTime) :
    (s.partitionOne T v w a b flag iter).1.lastLocalIndexTime = b ∧
      ProcessedTo (s.partitionOne T v w a b flag iter).1 w b := by
  unfold partitionOne
  generalize s.cutStart v a iter = r₁
  obtain ⟨s₁, v₁, t, fileSize₁⟩ := r₁
  dsimp only
  have hu := cutStop_eq (s := s₁) t fileSize₁ hb
  generalize s₁.cutStop b t fileSize₁ iter = r₂ at hu ⊢
  obtain ⟨s₂, u, fileSize₂⟩ := r₂
  obtain rfl := hu
  exact ⟨rfl, sendRecord_processed _ iter t u fileSize₂⟩

/-- The loop says whether the segments reach the end of the window; then the last record ends there. -/
theorem partitionLoop_flag {segments : List IndexInfo} (flag : Bool) (v : Partition) (s : IndexList) :
    ((partitionLoop T w a b flag s v segments).2 = true ↔ ReachesEnd a b segments) ∧
      (ReachesEnd a b segments → (partitionLoop T w a b flag s v segments).1.lastLocalIndexTime = b ∧
        ProcessedTo (partitionLoop T w a b flag s v segments).1 w b) := by
  induction segments generalizing s v with
  | nil => exact ⟨by simp [partitionLoop, ReachesEnd], fun h => h.elim⟩
  | cons iter rest ih =>
    unfold partitionLoop ReachesEnd
    by_cases hlt : iter.startTime < b
    case neg =>
      rw [if_neg hlt]
      exact ⟨by simp [hlt], fun h => absurd h.1 hlt⟩
    rw [if_pos hlt]
    by_cases hle : iter.stopTime ≤ a
    case pos =>
      -- the segment is behind the mark
      rw [if_pos hle]
      have hno : ¬ (a < iter.stopTime ∧ b ≤ iter.stopTime) := by omega
      obtain ⟨hflag, hend⟩ := ih v s
      exact ⟨hflag.trans (by simp [hlt, hno]), fun h => hend (h.2.resolve_left hno)⟩
    rw [if_neg hle]
    have hone := partitionOne_processed (T := T) (w := w) (s := s) (a := a) (b := b) v flag iter
    generalize s.partitionOne T v w a b flag iter = r at hone ⊢
    dsimp only
    by_cases hb : b ≤ iter.stopTime
    · rw [if_pos hb]
      exact ⟨by simp [hlt, hb, Int.not_le.mp hle], fun _ => hone hb⟩
    · rw [if_neg hb]
      obtain ⟨hflag, hend⟩ := ih r.2 r.1
      refine ⟨hflag.trans (by simp [hlt, hb]), fun h => hend (h.2.resolve_left ?_)⟩
      exact fun hno => hb hno.2

/-- `processDBIndex` succeeds exactly if the window is passed over or the segments reach its end. -/
theorem processDBIndex_reached (s : IndexList) (w : DBIndex) :
    ((s.processDBIndex T w).2 = svsResultOk ↔
        (¬ s.skips w → ReachesEnd (s.indexStart w) (s.indexStop w) s.localIndexList)) ∧
      (¬ s.skips w → ReachesEnd (s.indexStart w) (s.indexStop w) s.localIndexList →
        (s.processDBIndex T w).1.lastLocalIndexTime = s.indexStop w ∧
          ProcessedTo (s.processDBIndex T w).1 w (s.indexStop w)) := by
  by_cases hskip : s.skips w
  · rw [processDBIndex_skips hskip]
    exact ⟨by simp [hskip], fun hn => absurd hskip hn⟩
  obtain ⟨r, rfl, heq, hok⟩ := processDBIndex_eq (T := T) hskip
  obtain ⟨hflag, hend⟩ := @partitionLoop_flag T w (s.indexStart w) (s.indexStop w) s.localIndexList
    (decide (s.finishes w)) ⟨s.operType, decide (s.finishes w)⟩ (s.takeUp w)
  rw [heq]
  exact ⟨hok.trans (hflag.trans ⟨fun h _ => h, fun h => h hskip⟩), fun _ => hend⟩

/-! ## The loop over the windows -/

theorem Reached.congr {ws : List DBIndex} (h : Reached s ws) (hsame : SameView s s') : Reached s' ws := by
  induction ws generalizing s s' with
  | nil => trivial
  | cons w ws ih =>
    refine ⟨fun hs => ?_, fun hf => ?_⟩
    · rw [hsame.indexStart w, hsame.indexStop w, hsame.localIndexList]
      exact h.1 (mt (hsame.skips w).mpr hs)
    · simp only [hsame.skips w, hsame.lastLocalIndexTime, hsame.indexStop w]
      exact ih (h.2 ((hsame.finishes w).mp hf)) (hsame.next _)

/-- Where the segments reach the end of each window that is processed, the windows that end with the segments
are erased, up to the first one that goes on. -/
theorem handleLoop_settled {ws : List DBIndex} (hws : s.dbIndexList = ws) (h : Reached s ws) :
    Settled s (s.handleLoop T ws) ws := by
  induction ws generalizing s with
  | nil => exact ⟨hws, fun w hw => by rw [handleLoop, hws] at hw; cases hw⟩
  | cons w ws ih =>
    obtain ⟨hret, hdone⟩ := processDBIndex_reached (T := T) s w
    have hkept := processDBIndex_kept (T := T) s w
    have hskip : s.skips w → (s.processDBIndex T w).1 = s := fun hs => by rw [processDBIndex_skips hs]
    have hok := hret.mpr h.1
    unfold handleLoop
    generalize s.processDBIndex T w = r at hkept hret hskip hdone hok ⊢
    dsimp only
    rw [if_neg (not_not.mpr hok)]
    by_cases hfin : s.finishes w
    · -- the next window
      have hfin' : r.1.finishes w := (hkept.finishes w).mpr hfin
      have hlast : r.1.lastLocalIndexTime =
          if s.skips w then s.lastLocalIndexTime else s.indexStop w := by
        split_ifs with hs
        · rw [hskip hs]
        · exact (hdone hs (h.1 hs)).1
      have hnext := ih (s := { r.1 with dbIndexList := ws, dbIndexStartTime := 0 }) rfl
        ((h.2 hfin).congr ⟨hkept.localIndexList, hkept.localIndexStopTime, rfl, hlast⟩)
      rw [if_pos (show w.stopTime ≠ 0 ∧ w.stopTime ≤ r.1.localIndexStopTime from hfin')]
      have hsame : ∀ w', ({ r.1 with dbIndexList := ws, dbIndexStartTime := 0 } : IndexList).finishes w' ↔
          s.finishes w' := hkept.finishes
      refine ⟨?_, ?_⟩
      · rw [hnext.windows, List.dropWhile_cons_of_pos (by simpa using hfin)]
        simp only [hsame]
      · rw [← hkept.localIndexStopTime]
        exact hnext.front
    · -- the window goes on
      have hfin' : ¬ r.1.finishes w := mt (hkept.finishes w).mp hfin
      rw [if_neg (show ¬ (w.stopTime ≠ 0 ∧ w.stopTime ≤ r.1.localIndexStopTime) from hfin')]
      refine ⟨?_, fun w' hw' hlt => ?_⟩
      · rw [List.dropWhile_cons_of_neg (by simpa using hfin)]
        exact hkept.dbIndexList.trans hws
      · rw [hkept.dbIndexList, hws] at hw'
        obtain rfl := Option.some.inj hw'
        have hs : ¬ s.skips w := by
          unfold skips
          unfold finishes at hfin
          omega
        have hb : s.indexStop w = s.localIndexStopTime := by
          unfold indexStop
          unfold finishes at hfin
          rw [if_pos (by omega)]
        obtain ⟨-, hprocessed⟩ := hdone hs (h.1 hs)
        rwa [hb] at hprocessed

/-- Where the segments do not reach the end of the front window, all windows stay. -/
theorem handleLoop_stuck {ws : List DBIndex} (hws : s.dbIndexList = w :: ws) (hskip : ¬ s.skips w)
    (hreach : ¬ ReachesEnd (s.indexStart w) (s.indexStop w) s.localIndexList) :
    (s.handleDBIndex T).dbIndexList = s.dbIndexList := by
  obtain ⟨hret, -⟩ := processDBIndex_reached (T := T) s w
  have hkept := processDBIndex_kept (T := T) s w
  unfold handleDBIndex
  rw [hws]
  unfold handleLoop
  generalize s.processDBIndex T w = r at hkept hret ⊢
  dsimp only
  rw [if_pos fun hok => hreach (hret.mp hok hskip)]
  exact hkept.dbIndexList.trans hws

/-! ## Runs -/

/-- After every call that comes to the windows, where the segments reach the end of each window that it
processes, the front windows that end with the segments are erased, the first that goes on has a record up
to the end of the segments, and the ones behind it are as before. -/
theorem run_windowsSettled {calls : List Call} {act : Act}
    (h : (run (call T) new calls).Handles T (fun s => Reached s s.dbIndexList) act) :
    (run (call T) new calls).Handles T (fun s => Settled s (s.handleDBIndex T) s.dbIndexList) act := by
  cases act with
  | updateDBIndex startTime stopTime => trivial
  | updateLocalIndex firstTime lastTime writeSize hasName flag =>
    unfold Handles at h ⊢
    dsimp only at h ⊢
    generalize (run (call T) new calls).updateSegments T firstTime lastTime writeSize hasName flag = r at h ⊢
    cases r with
    | error e => trivial
    | ok s' => exact fun hlt => handleLoop_settled rfl (h hlt)

theorem run_windowsSettled_night : (run (call utc1970) new (nightActs.map .act)).Handles utc1970
    (fun s => Settled s (s.handleDBIndex utc1970) s.dbIndexList)
    (.updateLocalIndex 85000 88000 12000 true false) :=
  run_windowsSettled (by decide)

/-- A window behind one without an end waits, although the segment is beyond its own end. A window that ends
in a gap between two segments stays, and so does the one behind it. -/
theorem not_unblocked :
    (¬ (run (call utc1970) new [.act (.updateDBIndex 100 0), .act (.updateDBIndex 150 200)]).Handles
      utc1970 (fun s => Unblocked (s.handleDBIndex utc1970)) (.updateLocalIndex 50 300 4096 true false)) ∧
    ¬ (run (call utc1970) new [.act (.updateDBIndex 100 200), .act (.updateDBIndex 320 0),
        .act (.updateLocalIndex 50 120 4096 true true)]).Handles
      utc1970 (fun s => Unblocked (s.handleDBIndex utc1970)) (.updateLocalIndex 300 400 8192 true false) := by
  decide

end IndexList

end AllCamera
