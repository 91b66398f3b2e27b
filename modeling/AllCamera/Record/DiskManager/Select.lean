import AllCamera.Record.DiskManager.Groups
import Mathlib.Data.Nat.Init

/-!
# The choice of a disk (`select_disk`)

* `FirstBest`: the first disk, in the cyclic order from `nStart` on, of those with the best flag.
  `findDisk_eq_some_iff`: what a loop of `select_disk` finds, from any start.
* `Chosen`: the disk that is to be chosen, and the state of the raid with it.
* `selectDisk_chosen`.
-/

namespace AllCamera.RecordRaid

variable {raid : RecordRaid} {freeList : List Nat} {flag : Nat → DiskErr} {nStart : Nat}

/-- The state of a raid that is written to a disk with this flag; none if it is not. -/
def stateOf : DiskErr → Option DiskErr
  | .ok => some .ok
  | .diskAlarmResume => some .raidAlarmResume
  | .diskAlarm => some .raidAlarm
  | _ => none

/-- The disk that comes `k` disks behind `nStart`. -/
def cyclic (raid : RecordRaid) (nStart k : Nat) : Nat := (nStart + k) % raid.diskTotal

/-- `d` is the first disk of the best flag, and that gives the raid the state `e`. -/
structure FirstBest (raid : RecordRaid) (flag : Nat → DiskErr) (nStart d : Nat) (e : DiskErr) : Prop where
  state : stateOf (flag d) = some e
  best : ∀ d' < raid.diskTotal, stateOf (flag d') ≠ none → (flag d).value ≤ (flag d').value
  first : ∃ k < raid.diskTotal, d = raid.cyclic nStart k ∧ ∀ j < k, flag (raid.cyclic nStart j) ≠ flag d

/-- The current disk is good. -/
def KeepsDisk (raid : RecordRaid) (flag : Nat → DiskErr) : Prop :=
  0 ≤ raid.outputDisk ∧ flag raid.outputDisk.toNat = .ok

/-- The disk that is to be chosen: the current one if it is good, and otherwise the first of the best. -/
inductive Chosen (raid : RecordRaid) (flag : Nat → DiskErr) (nStart : Nat) : Int → DiskErr → Prop
  | current : raid.KeepsDisk flag → Chosen raid flag nStart raid.outputDisk .ok
  | first {d : Nat} {e : DiskErr} : ¬ raid.KeepsDisk flag → raid.FirstBest flag nStart d e →
      Chosen raid flag nStart d e

/-- A disk is written to exactly if it gives its raid a state. -/
theorem stateOf_ne_none {e : DiskErr} : stateOf e ≠ none ↔ e = .ok ∨ e = .diskAlarmResume ∨ e = .diskAlarm := by
  cases e <;> decide

/-! ## A loop -/

theorem cyclic_lt (hdisks : 0 < raid.diskTotal) (k : Nat) : raid.cyclic nStart k < raid.diskTotal :=
  Nat.mod_lt _ hdisks

/-- Each disk comes in the first round. -/
theorem exists_cyclic (nStart : Nat) {d : Nat} (hd : d < raid.diskTotal) :
    ∃ k < raid.diskTotal, raid.cyclic nStart k = d := by
  have hmod : ∀ k, raid.cyclic nStart k = (nStart % raid.diskTotal + k) % raid.diskTotal :=
    fun k => (Nat.mod_add_mod nStart raid.diskTotal k).symm
  have hlt : nStart % raid.diskTotal < raid.diskTotal := Nat.mod_lt _ (Nat.zero_lt_of_lt hd)
  by_cases hle : nStart % raid.diskTotal ≤ d
  · refine ⟨d - nStart % raid.diskTotal, by omega, ?_⟩
    rw [hmod, Nat.add_sub_cancel' hle, Nat.mod_eq_of_lt hd]
  · -- behind the last disk
    refine ⟨d + raid.diskTotal - nStart % raid.diskTotal, by omega, ?_⟩
    rw [hmod, Nat.add_sub_cancel' (by omega), Nat.add_mod_right, Nat.mod_eq_of_lt hd]

/-- The loop goes once around. -/
theorem findDisk_eq (hdisks : 0 < raid.diskTotal) (wanted : DiskErr) :
    raid.findDisk flag nStart (nStart + raid.diskTotal - 1) wanted =
      ((List.range raid.diskTotal).map (raid.cyclic nStart)).find? fun d => flag d = wanted := by
  have hlen : nStart + raid.diskTotal - 1 + 1 - nStart = raid.diskTotal := by omega
  rw [findDisk, hlen, List.range'_eq_map_range, List.map_map]
  rfl

theorem findDisk_eq_some_iff (hdisks : 0 < raid.diskTotal) {wanted : DiskErr} {d : Nat} :
    raid.findDisk flag nStart (nStart + raid.diskTotal - 1) wanted = some d ↔ flag d = wanted ∧
      ∃ k < raid.diskTotal, d = raid.cyclic nStart k ∧ ∀ j < k, flag (raid.cyclic nStart j) ≠ wanted := by
  rw [findDisk_eq hdisks, List.find?_eq_some_iff_getElem]
  simp only [decide_eq_true_eq, List.length_map, List.length_range, List.getElem_map, List.getElem_range,
    Bool.not_eq_true', decide_eq_false_iff_not]
  constructor
  · rintro ⟨hflag, k, hk, hd, hbefore⟩
    exact ⟨hflag, k, hk, hd.symm, hbefore⟩
  · rintro ⟨hflag, k, hk, hd, hbefore⟩
    exact ⟨hflag, k, hk, hd.symm, hbefore⟩

theorem findDisk_eq_none_iff (hdisks : 0 < raid.diskTotal) {wanted : DiskErr} :
    raid.findDisk flag nStart (nStart + raid.diskTotal - 1) wanted = none ↔
      ∀ d < raid.diskTotal, flag d ≠ wanted := by
  rw [findDisk_eq hdisks, List.find?_eq_none]
  simp only [List.mem_map, List.mem_range, decide_eq_true_eq]
  constructor
  · rintro h d hd
    obtain ⟨k, hk, rfl⟩ := exists_cyclic nStart hd
    exact h _ ⟨k, hk, rfl⟩
  · rintro h _ ⟨k, -, rfl⟩
    exact h _ (cyclic_lt hdisks k)

/-- What a loop finds is the first of the best, if the loops before it have found nothing. -/
theorem firstBest_of_findDisk (hdisks : 0 < raid.diskTotal) {wanted e : DiskErr} {d : Nat}
    (h : raid.findDisk flag nStart (nStart + raid.diskTotal - 1) wanted = some d) (hstate : stateOf wanted = some e)
    (hbetter : ∀ d' < raid.diskTotal, stateOf (flag d') ≠ none → wanted.value ≤ (flag d').value) :
    raid.FirstBest flag nStart d e := by
  obtain ⟨rfl, hfirst⟩ := (findDisk_eq_some_iff hdisks).mp h
  exact ⟨hstate, hbetter, hfirst⟩

/-! ## The group -/

/-- What becomes of the disk, the state and the group of a raid, and of the free groups, when the disk `d` is chosen. -/
structure Selection (raid : RecordRaid) (freeList : List Nat) (d : Int) (e : DiskErr) (r : RecordRaid × List Nat) :
    Prop where
  outputDisk : r.1.outputDisk = d
  raidErrType : r.1.raidErrType = if raid.group = none ∧ freeList = [] then .raidNoOutputThread else e
  group : (r.1.group, r.2) = if raid.group = none then (freeList.head?, freeList.tail) else (raid.group, freeList)

theorem allocOutputThread_selection (d : Int) (e : DiskErr) :
    raid.Selection freeList d e ({ raid with outputDisk := d, raidErrType := e }.allocOutputThread freeList) := by
  unfold allocOutputThread
  by_cases hstart : 0 ≤ raid.outputThreadStartId
  · have hgroup : raid.group ≠ none := by rw [group_of_nonneg hstart]; exact nofun
    rw [if_pos hstart]
    exact ⟨rfl, (if_neg fun h => hgroup h.1).symm, (if_neg hgroup).symm⟩
  · have hgroup : raid.group = none := if_neg hstart
    rw [if_neg hstart]
    cases freeList with
    | nil => exact ⟨rfl, (if_pos ⟨hgroup, rfl⟩).symm, by rw [if_pos hgroup]; exact congrArg (·, []) hgroup⟩
    | cons start rest =>
      refine ⟨rfl, (if_neg fun h => nomatch h.2).symm, ?_⟩
      rw [if_pos hgroup]
      exact congrArg (·, rest) (if_pos (Int.natCast_nonneg start))

/-- A raid that is full gives its group back. -/
theorem freeOutputThread_full (d : Int) :
    let r := { raid with outputDisk := d, raidErrType := .raidFull }.freeOutputThread freeList
    r.1.outputDisk = d ∧ r.1.raidErrType = .raidFull ∧ r.1.group = none ∧ r.2 = freeList ++ raid.group.toList := by
  unfold freeOutputThread
  by_cases hstart : 0 ≤ raid.outputThreadStartId
  · rw [if_pos hstart, group_of_nonneg hstart]
    exact ⟨rfl, rfl, rfl, rfl⟩
  · have hgroup : raid.group = none := if_neg hstart
    rw [if_neg hstart, hgroup]
    exact ⟨rfl, rfl, if_neg hstart, (List.append_nil _).symm⟩

/-! ## `select_disk` -/

/-- What is wanted of `select_disk`. -/
structure Selects (raid : RecordRaid) (flag : Nat → DiskErr) (nStart : Nat) (freeList : List Nat)
    (r : RecordRaid × List Nat) : Prop where
  valid : 0 ≤ r.1.outputDisk ∧ r.1.outputDisk < raid.diskTotal
  usable : raid.Usable flag → ∃ d e, raid.Chosen flag nStart d e ∧ raid.Selection freeList d e r
  full : ¬ raid.Usable flag →
    r.1.raidErrType = .raidFull ∧ r.1.group = none ∧ r.2 = freeList ++ raid.group.toList

theorem selects_of_chosen {d : Int} {e : DiskErr} (hrange : 0 ≤ d ∧ d < raid.diskTotal)
    (husable : raid.Usable flag) (hchosen : raid.Chosen flag nStart d e) :
    raid.Selects flag nStart freeList
      ({ raid with outputDisk := d, raidErrType := e }.allocOutputThread freeList) := by
  have hselection : raid.Selection freeList d e
      ({ raid with outputDisk := d, raidErrType := e }.allocOutputThread freeList) := allocOutputThread_selection d e
  refine ⟨?_, fun _ => ⟨d, e, hchosen, hselection⟩, fun hnot => absurd husable hnot⟩
  rw [hselection.outputDisk]
  exact hrange

/-- A disk that a loop has found. -/
theorem selects_of_findDisk (hdisks : 0 < raid.diskTotal) (hkeep : ¬ raid.KeepsDisk flag) {wanted e : DiskErr} {d : Nat}
    (h : raid.findDisk flag nStart (nStart + raid.diskTotal - 1) wanted = some d) (hstate : stateOf wanted = some e)
    (hbetter : ∀ d' < raid.diskTotal, stateOf (flag d') ≠ none → wanted.value ≤ (flag d').value) :
    raid.Selects flag nStart freeList
      ({ raid with outputDisk := (d : Int), raidErrType := e }.allocOutputThread freeList) := by
  have hfirst := firstBest_of_findDisk hdisks h hstate hbetter
  obtain ⟨k, -, hd, -⟩ := hfirst.first
  have hlt : d < raid.diskTotal := hd ▸ cyclic_lt hdisks k
  have husable : raid.Usable flag := ⟨d, hlt, stateOf_ne_none.mp (by rw [hfirst.state]; exact nofun)⟩
  exact selects_of_chosen ⟨Int.natCast_nonneg d, by omega⟩ husable (.first hkeep hfirst)

/-- **The choice of a disk.** For every raid with disks, every state of them and every start: the current disk is kept
if it is good, and otherwise the first of the best is chosen, with its state unless no group is free; only if there is
none that can be written to, the raid is full and gives its group back. -/
theorem selectDisk_chosen (hdisks : 0 < raid.diskTotal) (hrange : raid.outputDisk < raid.diskTotal)
    (freeList : List Nat) (flag : Nat → DiskErr) (nStart : Nat) :
    raid.Selects flag nStart freeList (raid.selectDisk freeList flag nStart (nStart + raid.diskTotal - 1)) := by
  unfold selectDisk
  rw [if_neg (Nat.ne_of_gt hdisks)]
  by_cases hkeep : 0 ≤ raid.outputDisk ∧ flag raid.outputDisk.toNat = .ok
  · rw [if_pos hkeep]
    have hlt : raid.outputDisk.toNat < raid.diskTotal := by omega
    exact selects_of_chosen ⟨hkeep.1, hrange⟩ ⟨_, hlt, .inl hkeep.2⟩ (.current hkeep)
  rw [if_neg hkeep]
  -- the raid on which the loops run differs in its disk only
  have hfirst : ∃ d : Int, (0 ≤ d ∧ d < raid.diskTotal) ∧
      (if raid.outputDisk < 0 then { raid with outputDisk := 0 } else raid) = { raid with outputDisk := d } := by
    split_ifs
    · exact ⟨0, ⟨Int.le_refl 0, by omega⟩, rfl⟩
    · exact ⟨raid.outputDisk, ⟨by omega, hrange⟩, rfl⟩
  obtain ⟨d₀, hd₀, heq⟩ := hfirst
  rw [heq]
  have hsame (wanted : DiskErr) : findDisk { raid with outputDisk := d₀ } flag nStart (nStart + raid.diskTotal - 1)
      wanted = raid.findDisk flag nStart (nStart + raid.diskTotal - 1) wanted := rfl
  dsimp only
  rw [hsame, hsame, hsame]
  cases hok : raid.findDisk flag nStart (nStart + raid.diskTotal - 1) .ok with
  | some d => exact selects_of_findDisk hdisks hkeep hok rfl fun _ _ _ => Nat.zero_le _
  | none =>
  have hnotOk := (findDisk_eq_none_iff hdisks).mp hok
  cases hresume : raid.findDisk flag nStart (nStart + raid.diskTotal - 1) .diskAlarmResume with
  | some d =>
    refine selects_of_findDisk hdisks hkeep hresume rfl fun d' hd' hstate => ?_
    rcases stateOf_ne_none.mp hstate with h | h | h
    · exact absurd h (hnotOk d' hd')
    · exact Nat.le_of_eq (congrArg _ h.symm)
    · rw [h]
      decide
  | none =>
  have hnotResume := (findDisk_eq_none_iff hdisks).mp hresume
  cases halarm : raid.findDisk flag nStart (nStart + raid.diskTotal - 1) .diskAlarm with
  | some d =>
    refine selects_of_findDisk hdisks hkeep halarm rfl fun d' hd' hstate => ?_
    rcases stateOf_ne_none.mp hstate with h | h | h
    · exact absurd h (hnotOk d' hd')
    · exact absurd h (hnotResume d' hd')
    · exact Nat.le_of_eq (congrArg _ h.symm)
  | none =>
    have hnotAlarm := (findDisk_eq_none_iff hdisks).mp halarm
    have hfreed := @freeOutputThread_full raid freeList d₀
    obtain ⟨hdisk, hfull⟩ := hfreed
    refine ⟨?_, ?_, fun _ => hfull⟩
    · rw [hdisk]
      exact hd₀
    · rintro ⟨d, hd, h | h | h⟩
      · exact absurd h (hnotOk d hd)
      · exact absurd h (hnotResume d hd)
      · exact absurd h (hnotAlarm d hd)

/-- Four disks, of which the second one is written to. -/
def fourDisks : RecordRaid := { RecordRaid.new with diskTotal := 4, outputDisk := 1 }

def fourFlags (d : Nat) : DiskErr := [.diskAlarm, .diskBad, .diskFull, .diskAlarm].getD d .diskBad

/-- Behind the second one, the fourth is the first of the best. -/
theorem selectDisk_chosen_around :
    fourDisks.Selects fourFlags 1 [8, 12] (fourDisks.selectDisk [8, 12] fourFlags 1 4) ∧
      (fourDisks.selectDisk [8, 12] fourFlags 1 4).1.outputDisk = 3 :=
  ⟨selectDisk_chosen (by decide) (by decide) _ _ 1, by decide⟩

end AllCamera.RecordRaid
