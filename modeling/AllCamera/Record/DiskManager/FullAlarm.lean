import AllCamera.Lib.Run
import AllCamera.Record.DiskManager

/-!
# The disk-full alarm (`diskFullDelRecord`)

* `getDiskBestStatus`, `raidBestStatus`, `diskFullDelRecord`: the code. It compares flags of disks with states of raids,
  which are numbers of one enumeration.
* `DiskErr.level`, `BestLevel`, `Started`: what the numbers stand for, and what the calls before have to do with it;
  `AlarmDue`: when an alarm is to be sent.
* `bestLevel_iff`: the levels by the number. `alarm_iff`: exactly which runs send the alarms that are to be sent.
-/

namespace AllCamera

open Run

/-- `GetDiskBestStatus`; 13 is `SVS_DISK_ERR_TYPE_MAX`. -/
def RecordRaid.getDiskBestStatus (raid : RecordRaid) (flag : Nat → DiskErr) : Nat :=
  (List.range raid.diskTotal).foldl
    (fun nBestDiskStatus i => if (flag i).value < nBestDiskStatus then (flag i).value else nBestDiskStatus) 13

namespace DiskManager

/-- What a raid counts for in `diskFullDelRecord`. -/
def raidStatus (m : DiskManager) (flags : Nat → Nat → DiskErr) (i : Nat) : Nat :=
  if (m.raidList i).raidErrType = .raidNoOutputThread then (m.raidList i).getDiskBestStatus (flags i)
  else (m.raidList i).raidErrType.value

/-- The loop of `diskFullDelRecord`. -/
def raidBestStatus (m : DiskManager) (flags : Nat → Nat → DiskErr) : Nat :=
  (List.range m.raidTotal).foldl
    (fun best i => if m.raidStatus flags i < best then m.raidStatus flags i else best)
    DiskErr.raidNoOutputThread.value

/-- `diskFullDelRecord`, which returns `SVS_RESULT_OK`: `m_diskFullStartFlag` after it, and whether it calls
`send_disk_full_alarm`. `sent` is whether that succeeds. -/
def diskFullDelRecord (m : DiskManager) (flags : Nat → Nat → DiskErr) (overwrite sent : Bool)
    (diskFullStartFlag : Bool) : Bool × Bool :=
  let best := m.raidBestStatus flags
  if best = DiskErr.ok.value then (false, false)
  else if DiskErr.raidAlarm.value ≤ best ∧ best ≤ DiskErr.raidFull.value then
    if overwrite then (if sent then true else diskFullStartFlag, true) else (diskFullStartFlag, false)
  else if diskFullStartFlag ∧ DiskErr.raidAlarmResume.value ≤ best then (diskFullStartFlag, true)
  else (diskFullStartFlag, false)

end DiskManager

/-! ## What is wanted -/

/-- How full a raid or a disk is. -/
inductive FillLevel
  | ok
  | alarmResume
  | alarm
  | full
  | unusable
  deriving DecidableEq, Repr

def DiskErr.level : DiskErr → FillLevel
  | .ok => .ok
  | .diskAlarmResume | .raidAlarmResume => .alarmResume
  | .diskAlarm | .raidAlarm => .alarm
  | .diskFull | .raidFull => .full
  | _ => .unusable

/-- The first number of a level, and the last one. -/
def FillLevel.first : FillLevel → Nat
  | .ok => 0
  | .alarmResume => 1
  | .alarm => 3
  | .full => 5
  | .unusable => 7

def FillLevel.last : FillLevel → Nat
  | .ok => 0
  | .alarmResume => 2
  | .alarm => 4
  | .full => 6
  | .unusable => 12

/-- A call of `diskFullDelRecord`: the raids and the flags of their disks. -/
structure DiskFullCall where
  manager : DiskManager
  flags : Nat → Nat → DiskErr

namespace DiskFullCall

variable (call : DiskFullCall)

/-- A raid is judged by `e`: its state, or without an output thread the flag of one of its disks. -/
def Judged (e : DiskErr) : Prop :=
  ∃ i < call.manager.raidTotal,
    if (call.manager.raidList i).raidErrType = .raidNoOutputThread then
      ∃ d < (call.manager.raidList i).diskTotal, call.flags i d = e
    else (call.manager.raidList i).raidErrType = e

/-- The best raid is at the level `l`. -/
def BestLevel (l : FillLevel) : Prop :=
  (∃ e, call.Judged e ∧ e.level = l) ∧ ∀ e, call.Judged e → l.first ≤ e.level.first

/-- Deletion is to be started. -/
def Starts : Prop := call.BestLevel .alarm ∨ call.BestLevel .full

end DiskFullCall

/-- One of these calls has started deletion, and none behind it has seen a raid that is OK. -/
def Started (before : List DiskFullCall) : Prop :=
  ∃ earlier call later, before = earlier ++ call :: later ∧ call.Starts ∧ ∀ c ∈ later, ¬ c.BestLevel .ok

/-- An alarm is to be sent by `call`, behind the calls `before`. -/
def AlarmDue (before : List DiskFullCall) (call : DiskFullCall) : Prop :=
  ¬ call.BestLevel .ok ∧ (call.Starts ∨ call.BestLevel .alarmResume ∧ Started before)

/-! ## The best number -/

section

variable {β : Type} {f : β → Nat} {l : List β} {n k : Nat}

theorem le_foldl_least : k ≤ l.foldl (fun best x => if f x < best then f x else best) n ↔ k ≤ n ∧ ∀ x ∈ l, k ≤ f x := by
  induction l generalizing n with
  | nil => simp
  | cons x l ih =>
    rw [List.foldl_cons, ih, List.forall_mem_cons]
    split <;> grind

end

namespace DiskFullCall

variable {call : DiskFullCall} {k : Nat}

/-- The number that the code finds. -/
def best (call : DiskFullCall) : Nat := call.manager.raidBestStatus call.flags

theorem le_getDiskBestStatus {raid : RecordRaid} {flag : Nat → DiskErr} :
    k ≤ raid.getDiskBestStatus flag ↔ k ≤ 13 ∧ ∀ d < raid.diskTotal, k ≤ (flag d).value := by
  rw [RecordRaid.getDiskBestStatus, le_foldl_least]
  simp only [List.mem_range]

/-- It is the least of all numbers by which a raid is judged. -/
theorem le_best : k ≤ call.best ↔ k ≤ 12 ∧ ∀ e, call.Judged e → k ≤ e.value := by
  rw [best, DiskManager.raidBestStatus, le_foldl_least]
  simp only [List.mem_range]
  have htwelve : DiskErr.raidNoOutputThread.value = 12 := rfl
  rw [htwelve]
  apply and_congr_right
  intro hk
  constructor
  · rintro h e ⟨i, hi, hjudged⟩
    have hstatus := h i hi
    unfold DiskManager.raidStatus at hstatus
    split at hjudged
    · rename_i hnone
      rw [if_pos hnone, le_getDiskBestStatus] at hstatus
      obtain ⟨d, hd, rfl⟩ := hjudged
      exact hstatus.2 d hd
    · rename_i hsome
      rw [if_neg hsome] at hstatus
      exact hjudged ▸ hstatus
  · intro h i hi
    unfold DiskManager.raidStatus
    split
    · rename_i hnone
      refine le_getDiskBestStatus.mpr ⟨by omega, fun d hd => h _ ⟨i, hi, ?_⟩⟩
      rw [if_pos hnone]
      exact ⟨d, hd, rfl⟩
    · rename_i hsome
      exact h _ ⟨i, hi, by rw [if_neg hsome]⟩

theorem level_le_iff (l : FillLevel) (e : DiskErr) : l.first ≤ e.level.first ↔ l.first ≤ e.value := by
  cases l <;> cases e <;> decide

theorem level_eq_iff (l : FillLevel) (e : DiskErr) : e.level = l ↔ l.first ≤ e.value ∧ e.value ≤ l.last := by
  cases l <;> cases e <;> decide

/-- Some raid is judged by a number that is small enough. -/
theorem exists_judged (hk : k < 12) (h : call.best ≤ k) : ∃ e, call.Judged e ∧ e.value ≤ k := by
  by_contra hnone
  have hle : k + 1 ≤ call.best := le_best.mpr ⟨hk, fun e he => by
    by_contra hlt
    exact hnone ⟨e, he, by omega⟩⟩
  omega

/-- The levels by the number. -/
theorem bestLevel_iff {l : FillLevel} (hl : l ≠ .unusable) :
    call.BestLevel l ↔ l.first ≤ call.best ∧ call.best ≤ l.last := by
  have hfirst : l.first ≤ 12 := by cases l <;> decide
  have hlast : l.last < 12 := by
    cases l
    case unusable => exact absurd rfl hl
    all_goals decide
  have hall : (∀ e, call.Judged e → l.first ≤ e.level.first) ↔ l.first ≤ call.best := by
    simp only [level_le_iff, le_best, hfirst, true_and]
  unfold BestLevel
  rw [hall, and_comm]
  apply and_congr_right
  intro hle
  constructor
  · rintro ⟨e, he, hlevel⟩
    have hbest := (le_best.mp (Nat.le_refl call.best)).2 e he
    exact hbest.trans ((level_eq_iff l e).mp hlevel).2
  · intro h
    obtain ⟨e, he, hvalue⟩ := exists_judged hlast h
    exact ⟨e, he, (level_eq_iff l e).mpr ⟨(le_best.mp hle).2 e he, hvalue⟩⟩

/-- Whether a raid is judged by the first number of a level shows where that is the best one. -/
theorem judged_iff {l : FillLevel} {e : DiskErr} (hl : l ≠ .unusable) (he : e.value = l.first)
    (h : call.BestLevel l) : call.Judged e ↔ call.best = l.first := by
  obtain ⟨hfirst, -⟩ := (bestLevel_iff hl).mp h
  constructor
  · intro hjudged
    have hbest := (le_best.mp (Nat.le_refl call.best)).2 e hjudged
    omega
  · intro hbest
    have hlt : l.first < 12 := by
      cases l
      case unusable => exact absurd rfl hl
      all_goals decide
    obtain ⟨e', hjudged, hvalue⟩ := exists_judged hlt (Nat.le_of_eq hbest)
    have hge := (le_best.mp hfirst).2 e' hjudged
    have heq : e' = e := by
      have hsame : e'.value = e.value := by omega
      revert hsame
      cases e' <;> cases e <;> decide
    exact heq ▸ hjudged

theorem usable_iff : (∃ e, call.Judged e ∧ e.level ≠ .unusable) ↔ call.best ≤ 6 := by
  have hlevel : ∀ e : DiskErr, e.level ≠ .unusable ↔ e.value ≤ 6 := fun e => by cases e <;> decide
  simp only [hlevel]
  constructor
  · rintro ⟨e, he, hvalue⟩
    exact ((le_best.mp (Nat.le_refl call.best)).2 e he).trans hvalue
  · exact fun h => exists_judged (by decide) h

end DiskFullCall

/-! ## A call -/

section

open DiskFullCall

variable {call : DiskFullCall} {before : List DiskFullCall} {startFlag : Bool}

/-- The call, with the strategy to overwrite, and where `send_disk_full_alarm` succeeds. -/
def DiskFullCall.delRecord (call : DiskFullCall) (startFlag : Bool) : Bool × Bool :=
  call.manager.diskFullDelRecord call.flags true true startFlag

/-- The numbers that are compared are those that mean it: when deletion has not been started, no flag of a disk is the
best alarm, and when it has been, no flag of a disk is the best alarm resume, and some raid can be used. -/
def NumbersFit (startFlag : Bool) (call : DiskFullCall) : Prop :=
  if startFlag then
    (∃ e, call.Judged e ∧ e.level ≠ .unusable) ∧ ¬ (call.BestLevel .alarmResume ∧ call.Judged .diskAlarmResume)
  else ¬ (call.BestLevel .alarm ∧ call.Judged .diskAlarm)

theorem delRecord_eq : call.delRecord startFlag =
    if call.best = 0 then (false, false)
    else if 4 ≤ call.best ∧ call.best ≤ 6 then (true, true)
    else (startFlag, startFlag && decide (2 ≤ call.best)) := by
  change (if call.best = 0 then (false, false) else if 4 ≤ call.best ∧ call.best ≤ 6 then (true, true)
    else if startFlag = true ∧ 2 ≤ call.best then (startFlag, true) else (startFlag, false)) = _
  cases startFlag <;> by_cases htwo : 2 ≤ call.best <;> simp [htwo]

theorem starts_iff : call.Starts ↔ 3 ≤ call.best ∧ call.best ≤ 6 := by
  unfold DiskFullCall.Starts
  rw [bestLevel_iff (by decide), bestLevel_iff (by decide)]
  simp only [FillLevel.first, FillLevel.last]
  omega

theorem bestLevel_ok : call.BestLevel .ok ↔ call.best = 0 := by
  rw [bestLevel_iff (by decide)]
  simp only [FillLevel.first, FillLevel.last]
  omega

theorem bestLevel_alarmResume : call.BestLevel .alarmResume ↔ call.best = 1 ∨ call.best = 2 := by
  rw [bestLevel_iff (by decide)]
  simp only [FillLevel.first, FillLevel.last]
  omega

theorem bestLevel_alarm : call.BestLevel .alarm ↔ call.best = 3 ∨ call.best = 4 := by
  rw [bestLevel_iff (by decide)]
  simp only [FillLevel.first, FillLevel.last]
  omega

theorem started_nil : ¬ Started [] := by
  rintro ⟨earlier, call, later, h, -⟩
  exact absurd h.symm (by simp)

theorem started_concat : Started (before ++ [call]) ↔ call.Starts ∨ ¬ call.BestLevel .ok ∧ Started before := by
  constructor
  · rintro ⟨earlier, c, later, heq, hstarts, hlater⟩
    rcases List.eq_nil_or_concat later with rfl | ⟨later, last, rfl⟩
    · obtain ⟨-, hc⟩ := List.append_inj' heq rfl
      exact .inl ((List.cons.inj hc).1 ▸ hstarts)
    · rw [List.concat_eq_append] at heq hlater
      rw [← List.cons_append, ← List.append_assoc] at heq
      obtain ⟨hbefore, hlast⟩ := List.append_inj' heq rfl
      obtain rfl := (List.cons.inj hlast).1
      exact .inr ⟨hlater _ (List.mem_append_right _ List.mem_cons_self),
        earlier, c, later, hbefore, hstarts, fun c' hc' => hlater c' (List.mem_append_left _ hc')⟩
  · rintro (hstarts | ⟨hok, earlier, c, later, rfl, hstarts, hlater⟩)
    · exact ⟨before, call, [], rfl, hstarts, List.forall_mem_nil _⟩
    · refine ⟨earlier, c, later ++ [call], by simp, hstarts, ?_⟩
      intro c' hc'
      rcases List.mem_append.mp hc' with hc' | hc'
      · exact hlater c' hc'
      · rwa [List.mem_singleton.mp hc']

theorem numbersFit_iff : NumbersFit startFlag call ↔
    if startFlag then call.best ≤ 6 ∧ call.best ≠ 1 else call.best ≠ 3 := by
  have hresume : call.BestLevel .alarmResume ∧ call.Judged .diskAlarmResume ↔ call.best = 1 := by
    constructor
    · exact fun ⟨hlevel, hjudged⟩ => (judged_iff (by decide) rfl hlevel).mp hjudged
    · intro h
      have hlevel : call.BestLevel .alarmResume := bestLevel_alarmResume.mpr (.inl h)
      exact ⟨hlevel, (judged_iff (by decide) rfl hlevel).mpr h⟩
  have halarm : call.BestLevel .alarm ∧ call.Judged .diskAlarm ↔ call.best = 3 := by
    constructor
    · exact fun ⟨hlevel, hjudged⟩ => (judged_iff (by decide) rfl hlevel).mp hjudged
    · intro h
      have hlevel : call.BestLevel .alarm := bestLevel_alarm.mpr (.inl h)
      exact ⟨hlevel, (judged_iff (by decide) rfl hlevel).mpr h⟩
  unfold NumbersFit
  rw [hresume, halarm, usable_iff]

/-- A call sends the alarm that is to be sent. -/
theorem sends_iff (h : startFlag = true ↔ Started before) :
    ((call.delRecord startFlag).2 = true ↔ AlarmDue before call) ↔ NumbersFit startFlag call := by
  unfold AlarmDue
  rw [numbersFit_iff, delRecord_eq, ← h, starts_iff, bestLevel_ok, bestLevel_alarmResume]
  cases startFlag <;> grind

/-- Then the flag says whether deletion has been started. -/
theorem startFlag_iff (h : startFlag = true ↔ Started before) (hfit : NumbersFit startFlag call) :
    (call.delRecord startFlag).1 = true ↔ Started (before ++ [call]) := by
  rw [numbersFit_iff] at hfit
  rw [started_concat, delRecord_eq, ← h, starts_iff, bestLevel_ok]
  cases startFlag <;> grind

end

/-! ## Runs -/

/-- `m_diskFullStartFlag`, and the calls so far. -/
structure DiskFullRun where
  startFlag : Bool
  before : List DiskFullCall

namespace DiskFullRun

/-- After `initialize`. -/
def init : DiskFullRun := ⟨false, []⟩

def step (s : DiskFullRun) (call : DiskFullCall) : DiskFullRun :=
  ⟨(call.delRecord s.startFlag).1, s.before ++ [call]⟩

/-- In this state, the call sends an alarm exactly if one is to be sent. -/
def Sends (s : DiskFullRun) (call : DiskFullCall) : Prop :=
  (call.delRecord s.startFlag).2 = true ↔ AlarmDue s.before call

/-- **The disk-full alarm.** In every run of calls, each sends an alarm exactly if one is to be sent, if and only if at
each of them the numbers that are compared are those that mean it. -/
theorem alarm_iff (calls : List DiskFullCall) :
    Allowed step Sends init calls ↔ Allowed step (fun s call => NumbersFit s.startFlag call) init calls := by
  have hinit : init.startFlag = true ↔ Started init.before := iff_of_false (by decide) started_nil
  refine allowed_true.congr (I := fun s => s.startFlag = true ↔ Started s.before) hinit ?_ ?_
  · exact fun s call h _ => sends_iff h
  · exact fun s call h _ hsends => startFlag_iff h ((sends_iff h).mp hsends)

/-- One raid without an output thread, whose only disk has this flag. -/
def threadless (flag : DiskErr) : DiskFullCall where
  manager := { DiskManager.opened ⟨3, 3, 3, by decide, by decide, by decide⟩ (fun _ => .new) [1] with
    raidList := fun _ => { RecordRaid.new with diskTotal := 1, raidErrType := .raidNoOutputThread } }
  flags := fun _ _ => flag

/-- No alarm for a disk at the alarm; after that for a full one, none at the alarm resume, and one for a bad disk. -/
theorem not_sends_threadless :
    ¬ Allowed step Sends init [threadless .diskAlarm] ∧
      ¬ Allowed step Sends init [threadless .diskFull, threadless .diskAlarmResume] ∧
      ¬ Allowed step Sends init [threadless .diskFull, threadless .diskBad] := by
  have hinit : init.startFlag = true ↔ Started init.before := iff_of_false (by decide) started_nil
  have hfull : NumbersFit init.startFlag (threadless .diskFull) := by
    rw [numbersFit_iff]
    decide
  have hstarted := startFlag_iff hinit hfull
  refine ⟨fun h => ?_, fun h => ?_, fun h => ?_⟩
  · have hfit := (sends_iff hinit).mp h.1
    rw [numbersFit_iff] at hfit
    exact absurd hfit (by decide)
  · have hfit := (sends_iff hstarted).mp h.2.1
    rw [numbersFit_iff] at hfit
    exact absurd hfit (by decide)
  · have hfit := (sends_iff hstarted).mp h.2.1
    rw [numbersFit_iff] at hfit
    exact absurd hfit (by decide)

end DiskFullRun

end AllCamera
