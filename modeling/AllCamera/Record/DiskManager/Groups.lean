import AllCamera.Lib.Pool
import AllCamera.Lib.Run
import AllCamera.Record.DiskManager

/-!
# The groups of output threads

The raids that can be written to and the list of the free groups have each group once between them.

* `Selected`: what `select_disk` does; `selectDisk_selected`.
* `checkRaid_eq`: what a pass of the periodic check changes.
* `groups`: the manager as a pool of groups; `groups_checkRaid`: a pass takes a group, gives one back or does
  neither.
* `Settled`: a raid has a group and its capacity exactly while it is not full; `run_groups`.
-/

namespace AllCamera

open Run

namespace RecordRaid

variable {raid raid' : RecordRaid} {freeList freeList' : List Nat} {flag : Nat → DiskErr} {nStart nEnd : Nat}

/-- A disk of the raid can be written to. -/
def Usable (raid : RecordRaid) (flag : Nat → DiskErr) : Prop :=
  ∃ d < raid.diskTotal, flag d = .ok ∨ flag d = .diskAlarmResume ∨ flag d = .diskAlarm

instance : Decidable (raid.Usable flag) := inferInstanceAs (Decidable (∃ d < raid.diskTotal, _))

/-- The current disk is one of the raid, or there is none yet. -/
def DiskInRange (raid : RecordRaid) : Prop := raid.outputDisk < raid.diskTotal

/-- The disk `d` is chosen, and the raid can be used. -/
def Found (raid : RecordRaid) (flag : Nat → DiskErr) (d : Int) : Prop :=
  raid.DiskInRange → d < raid.diskTotal ∧ raid.Usable flag

/-- No disk is found; `d` stays the current one. -/
def NotFound (raid : RecordRaid) (flag : Nat → DiskErr) (d : Int) : Prop :=
  (raid.DiskInRange → d < raid.diskTotal) ∧ ¬ raid.Usable flag

/-- What `select_disk` makes of a raid and of the list of the free groups. -/
inductive Selected (raid : RecordRaid) (flag : Nat → DiskErr) (freeList : List Nat) :
    RecordRaid → List Nat → Prop
  | unchanged : raid.diskTotal = 0 → Selected raid flag freeList raid freeList
  | kept (d : Int) (e : DiskErr) : raid.Found flag d → e.value ≤ DiskErr.raidAlarm.value →
      0 ≤ raid.outputThreadStartId →
      Selected raid flag freeList { raid with outputDisk := d, raidErrType := e } freeList
  | noGroup (d : Int) : raid.Found flag d → raid.outputThreadStartId < 0 → freeList = [] →
      Selected raid flag freeList { raid with outputDisk := d, raidErrType := .raidNoOutputThread } []
  | taken (d : Int) (e : DiskErr) (start : Nat) (rest : List Nat) : raid.Found flag d →
      e.value ≤ DiskErr.raidAlarm.value → raid.outputThreadStartId < 0 → freeList = start :: rest →
      Selected raid flag freeList
        { raid with
          outputDisk := d
          raidErrType := e
          outputThreadLoad := fun _ => 0
          outputThreadStartId := start } rest
  | freed (d : Int) : raid.NotFound flag d → 0 ≤ raid.outputThreadStartId →
      Selected raid flag freeList
        { raid with
          outputDisk := d
          raidErrType := .raidFull
          outputThreadStartId := -1
          outputThreadLoad := fun _ => 0 } (freeList ++ [raid.outputThreadStartId.toNat])
  | full (d : Int) : raid.NotFound flag d → raid.outputThreadStartId < 0 →
      Selected raid flag freeList { raid with outputDisk := d, raidErrType := .raidFull } freeList

theorem allocOutputThread_selected {d : Int} (hd : raid.Found flag d) {e : DiskErr}
    (he : e.value ≤ DiskErr.raidAlarm.value) :
    Selected raid flag freeList
      (allocOutputThread { raid with outputDisk := d, raidErrType := e } freeList).1
      (allocOutputThread { raid with outputDisk := d, raidErrType := e } freeList).2 := by
  unfold allocOutputThread
  by_cases hstart : 0 ≤ raid.outputThreadStartId
  · rw [if_pos hstart]
    exact .kept d e hd he hstart
  · rw [if_neg hstart]
    cases hfree : freeList with
    | nil => exact .noGroup d hd (by omega) rfl
    | cons start rest => exact .taken d e start rest hd he (by omega) rfl

theorem freeOutputThread_selected {d : Int} (hd : raid.NotFound flag d) :
    Selected raid flag freeList
      (freeOutputThread { raid with outputDisk := d, raidErrType := .raidFull } freeList).1
      (freeOutputThread { raid with outputDisk := d, raidErrType := .raidFull } freeList).2 := by
  unfold freeOutputThread
  by_cases hstart : 0 ≤ raid.outputThreadStartId
  · rw [if_pos hstart]
    exact .freed d hd hstart
  · rw [if_neg hstart]
    exact .full d hd (by omega)

theorem findDisk_eq_some {wanted : DiskErr} {d : Nat} (hdisks : raid.diskTotal ≠ 0)
    (h : raid.findDisk flag nStart nEnd wanted = some d) : d < raid.diskTotal ∧ flag d = wanted := by
  unfold findDisk at h
  obtain ⟨m, -, rfl⟩ := List.mem_map.mp (List.mem_of_find?_eq_some h)
  exact ⟨Nat.mod_lt m (by omega), by simpa using List.find?_some h⟩

/-- The loops of `select_disk` go over all disks of the raid. -/
theorem findDisk_eq_none {wanted : DiskErr} (hstart : nStart < raid.diskTotal)
    (hend : nEnd = raid.diskTotal - 1 + nStart) (h : raid.findDisk flag nStart nEnd wanted = none)
    {d : Nat} (hd : d < raid.diskTotal) : flag d ≠ wanted := by
  unfold findDisk at h
  have hnot := List.find?_eq_none.mp h d (List.mem_map.mpr ?_)
  · simpa using hnot
  -- the loop reaches the disk `d` in its first or in its second round
  refine ⟨if nStart ≤ d then d else d + raid.diskTotal, ?_, ?_⟩
  · rw [List.mem_range'_1]
    split_ifs <;> omega
  · split_ifs
    · exact Nat.mod_eq_of_lt hd
    · rw [Nat.add_mod_right, Nat.mod_eq_of_lt hd]

theorem selectDisk_selected (hstart : raid.diskTotal ≠ 0 → nStart < raid.diskTotal)
    (hend : nEnd = raid.diskTotal - 1 + nStart) :
    Selected raid flag freeList (raid.selectDisk freeList flag nStart nEnd).1
      (raid.selectDisk freeList flag nStart nEnd).2 := by
  unfold selectDisk
  by_cases hdisks : raid.diskTotal = 0
  · rw [if_pos hdisks]
    exact .unchanged hdisks
  rw [if_neg hdisks]
  by_cases hcurrent : 0 ≤ raid.outputDisk ∧ flag raid.outputDisk.toNat = .ok
  · rw [if_pos hcurrent]
    refine allocOutputThread_selected (d := raid.outputDisk) (fun hrange => ⟨hrange, ?_⟩) (by decide)
    unfold DiskInRange at hrange
    exact ⟨raid.outputDisk.toNat, by omega, .inl hcurrent.2⟩
  rw [if_neg hcurrent]
  -- the raid on which the loops run differs in its disk only
  have hfirst : ∃ d : Int, (raid.DiskInRange → d < raid.diskTotal) ∧
      (if raid.outputDisk < 0 then { raid with outputDisk := 0 } else raid) = { raid with outputDisk := d } := by
    split_ifs
    · exact ⟨0, fun _ => by omega, rfl⟩
    · exact ⟨raid.outputDisk, fun hrange => hrange, rfl⟩
  obtain ⟨d₀, hd₀, heq⟩ := hfirst
  rw [heq]
  have hsame (wanted : DiskErr) : findDisk { raid with outputDisk := d₀ } flag nStart nEnd wanted =
      raid.findDisk flag nStart nEnd wanted := rfl
  dsimp only
  rw [hsame, hsame, hsame]
  cases hok : raid.findDisk flag nStart nEnd .ok with
  | some d =>
    obtain ⟨hlt, hd⟩ := findDisk_eq_some hdisks hok
    exact allocOutputThread_selected (fun _ => ⟨by omega, d, hlt, .inl hd⟩) (by decide)
  | none =>
  cases hresume : raid.findDisk flag nStart nEnd .diskAlarmResume with
  | some d =>
    obtain ⟨hlt, hd⟩ := findDisk_eq_some hdisks hresume
    exact allocOutputThread_selected (fun _ => ⟨by omega, d, hlt, .inr (.inl hd)⟩) (by decide)
  | none =>
  cases halarm : raid.findDisk flag nStart nEnd .diskAlarm with
  | some d =>
    obtain ⟨hlt, hd⟩ := findDisk_eq_some hdisks halarm
    exact allocOutputThread_selected (fun _ => ⟨by omega, d, hlt, .inr (.inr hd)⟩) (by decide)
  | none =>
    refine freeOutputThread_selected ⟨hd₀, ?_⟩
    rintro ⟨d, hd, hflag⟩
    have hstart := hstart hdisks
    rcases hflag with hflag | hflag | hflag
    · exact findDisk_eq_none hstart hend hok hd hflag
    · exact findDisk_eq_none hstart hend hresume hd hflag
    · exact findDisk_eq_none hstart hend halarm hd hflag

/-- The group of the raid, by its first thread. -/
def group (raid : RecordRaid) : Option Nat :=
  if 0 ≤ raid.outputThreadStartId then some raid.outputThreadStartId.toNat else none

theorem group_of_nonneg (h : 0 ≤ raid.outputThreadStartId) :
    raid.group = some raid.outputThreadStartId.toNat := if_pos h

theorem group_of_neg (h : raid.outputThreadStartId < 0) : raid.group = none := if_neg (by omega)

/-- The raid has a group and capacity exactly while it is not full. -/
structure Settled (c : DiskConfig) (raid : RecordRaid) : Prop where
  held : 0 ≤ raid.outputThreadStartId ↔ raid.raidErrType.value < DiskErr.raidFull.value
  capacity : raid.capacityCameraNum =
    if raid.raidErrType.value < DiskErr.raidFull.value then (c.maxLensPerRaid : Int) else 0

/-- The capacity that `periodCheckRaid` gives to a raid that has changed from `old` to `raid`. -/
def checkedCapacity (c : DiskConfig) (old : DiskErr) (raid : RecordRaid) : Int :=
  if DiskErr.raidFull.value ≤ raid.raidErrType.value ∧ old ≠ raid.raidErrType then 0
  else if DiskErr.raidFull.value ≤ old.value ∧ raid.raidErrType.value ≤ DiskErr.raidAlarm.value then
    c.maxLensPerRaid
  else raid.capacityCameraNum

variable {c : DiskConfig}

/-- Every transition between two consecutive states of a raid. -/
theorem Selected.settled (hsel : Selected raid flag freeList raid' freeList') (h : raid.Settled c) :
    { raid' with capacityCameraNum := checkedCapacity c raid.raidErrType raid' }.Settled c := by
  obtain ⟨hheld, hcap⟩ := h
  -- without a group the raid was full before
  have hfull : raid.outputThreadStartId < 0 →
      DiskErr.raidFull.value ≤ raid.raidErrType.value ∧ raid.capacityCameraNum = 0 := by
    intro hneg
    have hnot : ¬ raid.raidErrType.value < DiskErr.raidFull.value := fun hlt => by
      have := hheld.mpr hlt
      omega
    exact ⟨by omega, by rw [hcap, if_neg hnot]⟩
  have halarm : DiskErr.raidAlarm.value < DiskErr.raidFull.value := by decide
  cases hsel with
  | unchanged _ =>
    refine ⟨hheld, ?_⟩
    unfold checkedCapacity
    rw [if_neg (by simp), if_neg (by omega)]
    exact hcap
  | kept d e _ he hstart =>
    have hold := hheld.mp hstart
    refine ⟨iff_of_true hstart (by dsimp only; omega), ?_⟩
    unfold checkedCapacity
    dsimp only
    rw [if_neg (by omega), if_neg (by omega), if_pos (by omega), hcap, if_pos hold]
  | noGroup d _ hneg hfree =>
    obtain ⟨hold, hzero⟩ := hfull hneg
    refine ⟨iff_of_false (by dsimp only; omega) (by dsimp only; decide), ?_⟩
    unfold checkedCapacity
    dsimp only
    have hlarge : DiskErr.raidFull.value ≤ DiskErr.raidNoOutputThread.value := by decide
    rw [hzero]
    split_ifs <;> omega
  | taken d e start rest _ he hneg hfree =>
    obtain ⟨hold, hzero⟩ := hfull hneg
    refine ⟨iff_of_true (by dsimp only; omega) (by dsimp only; omega), ?_⟩
    unfold checkedCapacity
    dsimp only
    rw [if_neg (by omega), if_pos ⟨hold, he⟩, if_pos (by omega)]
  | freed d _ hstart =>
    have hold := hheld.mp hstart
    refine ⟨iff_of_false (by dsimp only; omega) (by dsimp only; omega), ?_⟩
    unfold checkedCapacity
    dsimp only
    rw [if_pos, if_neg (by omega)]
    refine ⟨Nat.le_refl _, fun heq => ?_⟩
    rw [heq] at hold
    omega
  | full d _ hneg =>
    obtain ⟨hold, hzero⟩ := hfull hneg
    refine ⟨iff_of_false (by dsimp only; omega) (by dsimp only; omega), ?_⟩
    unfold checkedCapacity
    dsimp only
    rw [hzero]
    split_ifs <;> omega

end RecordRaid

namespace DiskManager

open RecordRaid

variable {c : DiskConfig} {m : DiskManager} {flag : Nat → DiskErr} {i : Nat}

/-- What a pass over the raid `i` changes: the raid and the list as `select_disk` says, the capacity of the
raid, and the states of the open files of that raid. -/
theorem checkRaid_eq (c : DiskConfig) (m : DiskManager) (flag : Nat → DiskErr) (i : Nat) :
    ∃ raid freeList fileList, Selected (m.raidList i) flag m.freeOutputThreadIndexList raid freeList ∧
      (fileList = m.fileList ∨ ∃ e, fileList = (m.notifyExcept i e).fileList) ∧
      m.checkRaid c flag i =
        { m with
          freeOutputThreadIndexList := freeList
          raidList := Function.update m.raidList i
            { raid with capacityCameraNum := checkedCapacity c (m.raidList i).raidErrType raid }
          fileList } := by
  unfold checkRaid
  dsimp only
  generalize hold : (if (m.raidList i).outputDisk < 0 ∨ ((m.raidList i).diskTotal : Int) ≤ (m.raidList i).outputDisk
    then 0 else (m.raidList i).outputDisk.toNat) = nOldDiskIndex
  have hrange : (m.raidList i).diskTotal ≠ 0 → nOldDiskIndex < (m.raidList i).diskTotal := by
    intro hdisks
    rw [← hold]
    split_ifs <;> omega
  have hsel := @selectDisk_selected (m.raidList i) m.freeOutputThreadIndexList flag nOldDiskIndex
    ((m.raidList i).diskTotal - 1 + nOldDiskIndex) hrange rfl
  generalize (m.raidList i).selectDisk m.freeOutputThreadIndexList flag nOldDiskIndex
    ((m.raidList i).diskTotal - 1 + nOldDiskIndex) = r at hsel ⊢
  obtain ⟨raid, freeList⟩ := r
  dsimp only at hsel ⊢
  refine ⟨raid, freeList, ?_⟩
  unfold checkedCapacity
  by_cases hfull : DiskErr.raidFull.value ≤ raid.raidErrType.value ∧ (m.raidList i).raidErrType ≠ raid.raidErrType
  · rw [if_pos hfull, if_pos hfull]
    split_ifs
    · exact ⟨_, hsel, .inr ⟨_, rfl⟩, rfl⟩
    · exact ⟨_, hsel, .inl rfl, rfl⟩
  rw [if_neg hfull, if_neg hfull]
  split_ifs
  · exact ⟨_, hsel, .inl rfl, rfl⟩
  · exact ⟨_, hsel, .inr ⟨_, rfl⟩, rfl⟩
  · exact ⟨_, hsel, .inl rfl, rfl⟩

/-- The groups: those in the list wait, and each raid has at most one. -/
def groups (m : DiskManager) : Pool Nat Nat where
  free := m.freeOutputThreadIndexList
  held := fun i => (m.raidList i).group

theorem raidList_update {f : Int → RecordRaid} {raid : RecordRaid} (j : Nat) :
    Function.update f i raid j = if j = i then raid else f j := by
  by_cases hji : j = i
  · subst hji
    rw [Function.update_self, if_pos rfl]
  · rw [Function.update_of_ne (by omega), if_neg hji]

theorem held_update {f : Int → RecordRaid} {raid : RecordRaid} :
    (fun j : Nat => (Function.update f i raid j).group) =
      Function.update (fun j : Nat => (f j).group) i raid.group := by
  funext j
  rw [raidList_update, Function.update_apply]
  split_ifs <;> rfl

/-- A raid takes a group, gives its group back, or does neither. -/
theorem groups_checkRaid (c : DiskConfig) (m : DiskManager) (flag : Nat → DiskErr) (i : Nat) :
    (m.checkRaid c flag i).groups = m.groups ∨ (m.checkRaid c flag i).groups = m.groups.take i ∨
      (m.checkRaid c flag i).groups = m.groups.giveBack i := by
  obtain ⟨raid, freeList, fileList, hsel, -, heq⟩ := checkRaid_eq c m flag i
  rw [heq]
  unfold groups
  rw [held_update]
  generalize hcap : checkedCapacity c (m.raidList i).raidErrType raid = cap
  have hgroup : ({ raid with capacityCameraNum := cap } : RecordRaid).group = raid.group := rfl
  rw [hgroup]
  have hsame {list : List Nat} (h : raid.group = (m.raidList i).group) :
      (⟨list, Function.update (fun j : Nat => (m.raidList j).group) i raid.group⟩ : Pool Nat Nat) =
        ⟨list, fun j => (m.raidList j).group⟩ := by
    rw [h, Function.update_eq_self]
  cases hsel with
  | unchanged _ => exact .inl (hsame rfl)
  | kept d e _ he hstart => exact .inl (hsame rfl)
  | noGroup d _ hneg hfree =>
    rw [hfree]
    exact .inl (hsame rfl)
  | taken d e start rest _ he hneg hfree =>
    refine .inr (.inl ?_)
    unfold Pool.take
    dsimp only
    rw [group_of_neg hneg, hfree, group_of_nonneg (by dsimp only; omega)]
    rfl
  | freed d _ hstart =>
    refine .inr (.inr ?_)
    unfold Pool.giveBack
    dsimp only
    rw [group_of_nonneg hstart, group_of_neg (by dsimp only; omega)]
  | full d _ hneg => exact .inl (hsame rfl)

/-- Each group is once in the list or with a raid, and the raids are settled. -/
structure Grouped (c : DiskConfig) (m : DiskManager) : Prop where
  once : (m.groups.all (List.range m.raidTotal)).Perm
    ((List.range c.syncWorkRaidGroupNum).map fun k => k * c.outputThreadNumPerRaid)
  settled : ∀ i < m.raidTotal, (m.raidList i).Settled c

theorem raidTotal_checkRaid : (m.checkRaid c flag i).raidTotal = m.raidTotal := by
  obtain ⟨raid, freeList, fileList, -, -, heq⟩ := checkRaid_eq c m flag i
  rw [heq]

theorem Grouped.checkRaid (h : m.Grouped c) (hi : i < m.raidTotal) : (m.checkRaid c flag i).Grouped c := by
  constructor
  · have hmem := List.mem_range.mpr hi
    have hnodup : (List.range m.raidTotal).Nodup := List.nodup_range
    rw [raidTotal_checkRaid]
    obtain heq | heq | heq := groups_checkRaid c m flag i
    · rw [heq]
      exact h.once
    · rw [heq]
      exact (Pool.all_take hmem hnodup).trans h.once
    · rw [heq]
      exact (Pool.all_giveBack hmem hnodup).trans h.once
  · intro j hj
    rw [raidTotal_checkRaid] at hj
    obtain ⟨raid, freeList, fileList, hsel, -, heq⟩ := checkRaid_eq c m flag i
    rw [heq]
    dsimp only
    rw [raidList_update]
    by_cases hji : j = i
    · subst hji
      rw [if_pos rfl]
      exact hsel.settled (h.settled j hj)
    · rw [if_neg hji]
      exact h.settled j hj

theorem Grouped.periodCheckRaid (h : m.Grouped c) (flags : Nat → Nat → DiskErr) :
    (m.periodCheckRaid c flags).Grouped c := by
  unfold DiskManager.periodCheckRaid
  have hboth := List.foldlRecOn (motive := fun m' : DiskManager => m'.Grouped c ∧ m'.raidTotal = m.raidTotal)
    (List.range m.raidTotal) (fun (m : DiskManager) i => m.checkRaid c (flags i) i) ⟨h, rfl⟩
    fun m' hm' i hi => by
      obtain ⟨hgrouped, htotal⟩ := hm'
      refine ⟨hgrouped.checkRaid ?_, raidTotal_checkRaid.trans htotal⟩
      rw [htotal]
      exact List.mem_range.mp hi
  exact hboth.1

theorem raidList_opened {memory : Int → RecordRaid} {disks : List Nat} {i : Nat} (hi : i < disks.length) :
    (opened c memory disks).raidList i = { RecordRaid.new.init with diskTotal := disks.getD i 0 } := by
  unfold opened
  dsimp only
  rw [if_pos (by omega), Int.toNat_natCast]

variable (c) in
/-- After `open` every group is free and every raid is full. -/
theorem opened_grouped (memory : Int → RecordRaid) (disks : List Nat) : (opened c memory disks).Grouped c := by
  constructor
  · have hnone : (List.range disks.length).filterMap (opened c memory disks).groups.held = [] := by
      refine List.filterMap_eq_nil_iff.mpr fun i hi => ?_
      unfold groups
      dsimp only
      rw [raidList_opened (List.mem_range.mp hi)]
      rfl
    unfold Pool.all
    rw [show (opened c memory disks).raidTotal = disks.length from rfl, hnone, List.append_nil]
    exact List.Perm.refl _
  · intro i hi
    rw [raidList_opened hi]
    exact ⟨show (0 : Int) ≤ -1 ↔ DiskErr.raidFull.value < DiskErr.raidFull.value by decide, rfl⟩

/-- After every sequence of periodic checks, with whatever flags the disks have, each group is once in the list
or with a raid, and a raid has a group and its capacity exactly if its error is below `raidFull`. -/
theorem run_groups (c : DiskConfig) (memory : Int → RecordRaid) (disks : List Nat)
    (flagss : List (Nat → Nat → DiskErr)) :
    (run (periodCheckRaid c) (opened c memory disks) flagss).Grouped c :=
  run_invariant (opened_grouped c memory disks) fun _ flags h => h.periodCheckRaid flags

end DiskManager

end AllCamera
