import AllCamera.Lib.Run
import AllCamera.Record.DiskList
import Mathlib.Data.Finset.Card
import Mathlib.Data.Finset.Dedup

/-!
# The lists of disks after `refreshDiskList`

The raids are counted as their disks are seen, and the index of a disk counts the separators in front of it. The
two are the same as long as every raid of the list has a disk.

* `InUse`: the raids below `m_raidTotal`, and only these, are initialised, and each once.
* `Takes`: the list has no raid without a disk below one with a disk, and the raids have room for the disks.
* `takes_of_lists`, `exists_of_takes`: exactly then each disk is in its raid after `refreshDiskList`.
* `refreshDiskList_listed_iff`: the same for every sequence of calls.
-/

namespace AllCamera

open Run

namespace DiskRaid

theorem tryAddDisk_eq_some {statFlag : List Char → DiskErr} {info : DiskInfo} {raid raid' : DiskRaid}
    (h : raid.tryAddDisk statFlag info = some raid') :
    raid'.paths = withPath raid.paths info.diskPath ∧ raid'.inits = raid.inits ∧ raid'.disk ≠ none := by
  unfold tryAddDisk at h
  cases hdisk : raid.disk with
  | none =>
    rw [hdisk] at h
    cases h
  | some disks =>
    rw [hdisk] at h
    have hpaths : raid.paths = disks.map RecordDisk.path := by rw [paths, hdisk, Option.getD_some]
    rw [hpaths, withPath, List.length_map]
    simp only at h
    split at h
    · rename_i hmem
      cases h
      exact ⟨by rw [if_pos hmem, hpaths], rfl, by simp [hdisk]⟩
    · rename_i hmem
      rw [if_neg hmem]
      split at h
      · rename_i hfull
        cases h
        exact ⟨by rw [if_pos hfull, hpaths], rfl, by simp [hdisk]⟩
      · rename_i hfull
        cases h
        exact ⟨by rw [if_neg hfull]; exact List.map_append, rfl, by simp⟩

theorem tryAddDisk_ne_none (statFlag : List Char → DiskErr) (info : DiskInfo) {raid : DiskRaid}
    (h : raid.disk ≠ none) : raid.tryAddDisk statFlag info ≠ none := by
  obtain ⟨disks, hdisk⟩ := Option.ne_none_iff_exists'.mp h
  unfold tryAddDisk
  rw [hdisk]
  simp only
  split
  · simp
  · split <;> simp

theorem tryAddDisk_of_mem (statFlag : List Char → DiskErr) {info : DiskInfo} {raid : DiskRaid}
    (h : info.diskPath ∈ raid.paths) : raid.tryAddDisk statFlag info = some raid := by
  unfold tryAddDisk
  cases hdisk : raid.disk with
  | none => simp [paths, hdisk] at h
  | some disks =>
    have hmem : info.diskPath ∈ disks.map RecordDisk.path := by simpa [paths, hdisk] using h
    simp only [if_pos hmem]

theorem mem_withPath_of_mem {paths : List (List Char)} {path path' : List Char} (h : path' ∈ paths) :
    path' ∈ withPath paths path := by
  unfold withPath
  split
  · exact h
  · split
    · exact h
    · exact List.mem_append_left _ h

theorem nodup_withPath {paths : List (List Char)} (path : List Char) (h : paths.Nodup) :
    (withPath paths path).Nodup := by
  unfold withPath
  split
  · exact h
  · rename_i hmem
    split
    · exact h
    · exact List.nodup_append.mpr ⟨h, List.nodup_singleton path, by grind⟩

theorem length_withPath_le {paths : List (List Char)} (path : List Char) (h : paths.length ≤ lunMaxNum) :
    (withPath paths path).length ≤ lunMaxNum := by
  unfold withPath
  split
  · exact h
  · split
    · exact h
    · rw [List.length_append, List.length_singleton]
      omega

theorem withPath_of_full {paths : List (List Char)} (path : List Char) (h : lunMaxNum ≤ paths.length) :
    withPath paths path = paths := by
  rw [withPath, if_pos h, ite_self]

/-- Where there is room the path is in the raid. -/
theorem mem_withPath {paths : List (List Char)} {path path' : List Char}
    (hroom : path ∈ paths ∨ paths.length < lunMaxNum) :
    path' ∈ withPath paths path ↔ path' ∈ paths ∨ path' = path := by
  unfold withPath
  split
  · rename_i hmem
    exact ⟨.inl, fun h => h.elim id fun h => h ▸ hmem⟩
  · rename_i hmem
    have hlen : ¬lunMaxNum ≤ paths.length := by
      have := hroom.resolve_left hmem
      omega
    rw [if_neg hlen, List.mem_append, List.mem_singleton]

@[simp]
theorem paths_refreshDiskInfo (raid : DiskRaid) (diskInfoVec : List DiskInfo) :
    (raid.refreshDiskInfo diskInfoVec).paths = raid.paths := by
  have hpath (disk : RecordDisk) : (refreshDisk diskInfoVec disk).path = disk.path := by
    unfold refreshDisk
    split <;> rfl
  unfold paths refreshDiskInfo
  cases raid.disk with
  | none => rfl
  | some disks => simp [Function.comp_def, hpath]

end DiskRaid

namespace DiskLists

/-- The paths of a raid. -/
def paths (m : DiskLists) (i : Nat) : List (List Char) := (m.raidList i).paths

/-- The raids below `m_raidTotal`, and only these, are initialised, and each once. A raid has a disk once. -/
structure InUse (m : DiskLists) : Prop where
  disk_ne_none : ∀ i < m.raidTotal, (m.raidList i).disk ≠ none
  disk_eq_none : ∀ i, m.raidTotal ≤ i → (m.raidList i).disk = none
  inits_eq : ∀ i, (m.raidList i).inits = if i < m.raidTotal then 1 else 0
  nodup : ∀ i, (m.paths i).Nodup
  length_le : ∀ i, (m.paths i).length ≤ lunMaxNum

/-- The paths that a list has for a raid. -/
def pathsOf (infos : List DiskInfo) (i : Nat) : List (List Char) :=
  (infos.filter fun info => info.raidIndex = i).map DiskInfo.diskPath

/-- The raids that are new have a disk each, and a raid has room for its disks. -/
structure Takes (m : DiskLists) (infos : List DiskInfo) : Prop where
  raidIndex_lt : ∀ info ∈ infos, info.raidIndex < raidMaxNum
  hasDisk : ∀ info ∈ infos, ∀ i, m.raidTotal ≤ i → i < info.raidIndex → ∃ info' ∈ infos, info'.raidIndex = i
  room : ∀ i, (m.paths i ++ pathsOf infos i).toFinset.card ≤ lunMaxNum

/-- Each disk of the list is in its raid, which takes part, and no raid was initialised again. -/
structure Lists (m : DiskLists) (infos : List DiskInfo) : Prop where
  mem : ∀ info ∈ infos, info.diskPath ∈ m.paths info.raidIndex
  raidIndex_lt : ∀ info ∈ infos, info.raidIndex < m.raidTotal
  inits_le : ∀ i, (m.raidList i).inits ≤ 1

theorem inUse_new : InUse new where
  disk_ne_none := fun _ h => absurd h (Nat.not_lt_zero _)
  disk_eq_none := fun _ _ => rfl
  inits_eq := fun _ => rfl
  nodup := fun _ => List.nodup_nil
  length_le := fun _ => Nat.zero_le _

theorem InUse.inits_le {m : DiskLists} (h : m.InUse) (i : Nat) : (m.raidList i).inits ≤ 1 := by
  rw [h.inits_eq i]
  split <;> omega

theorem InUse.lists_nil {m : DiskLists} (h : m.InUse) : m.Lists [] := ⟨by simp, by simp, h.inits_le⟩

theorem InUse.paths_eq_nil {m : DiskLists} (h : m.InUse) {i : Nat} (hi : m.raidTotal ≤ i) : m.paths i = [] := by
  rw [paths, DiskRaid.paths, h.disk_eq_none i hi]
  rfl

section AddDisk

variable {statFlag : List Char → DiskErr} {m m' : DiskLists} {info : DiskInfo}

theorem inits_initRaid (m : DiskLists) (c i : Nat) : ((m.initRaid c).raidList i).inits =
    (m.raidList i).inits + if i = c ∧ m.raidTotal ≤ c then 1 else 0 := by
  unfold initRaid
  by_cases hc : m.raidTotal ≤ c
  · by_cases hi : i = c
    · subst hi
      simp [hc, DiskRaid.init]
    · simp [hc, hi]
  · simp [hc]

theorem raidTotal_initRaid (m : DiskLists) (c : Nat) :
    (m.initRaid c).raidTotal = if m.raidTotal ≤ c then m.raidTotal + 1 else m.raidTotal := by
  unfold initRaid
  split <;> rfl

/-- What a pass of the loop does. -/
theorem addDisk_eq_some (h : addDisk statFlag m info = some m') :
    info.raidIndex < raidMaxNum ∧ m'.raidTotal = (m.initRaid info.raidIndex).raidTotal ∧
      (∀ i, (m'.raidList i).inits = ((m.initRaid info.raidIndex).raidList i).inits) ∧
      m'.paths info.raidIndex =
        DiskRaid.withPath ((m.initRaid info.raidIndex).paths info.raidIndex) info.diskPath ∧
      (m'.raidList info.raidIndex).disk ≠ none ∧
      ∀ i, i ≠ info.raidIndex → m'.raidList i = m.raidList i := by
  unfold addDisk at h
  split at h
  · cases h
  · rename_i hlt
    obtain ⟨raid, hraid, rfl⟩ := Option.map_eq_some_iff.mp h
    obtain ⟨hpaths, hinits, hdisk⟩ := DiskRaid.tryAddDisk_eq_some hraid
    refine ⟨by omega, rfl, fun i => ?_, ?_, ?_, fun i hi => ?_⟩
    · by_cases hi : i = info.raidIndex
      · subst hi
        simpa using hinits
      · simp [hi]
    · simpa [paths] using hpaths
    · simpa using hdisk
    · simp only [ne_eq, hi, not_false_eq_true, Function.update_of_ne]
      unfold initRaid
      split <;> simp [hi]

theorem inits_le_addDisk (h : addDisk statFlag m info = some m') (i : Nat) :
    (m.raidList i).inits ≤ (m'.raidList i).inits := by
  rw [(addDisk_eq_some h).2.2.1 i, inits_initRaid]
  omega

theorem InUse.paths_initRaid (h : m.InUse) (c : Nat) : (m.initRaid c).paths c = m.paths c := by
  unfold initRaid
  split
  · rename_i hle
    rw [h.paths_eq_nil hle]
    simp [paths, DiskRaid.paths, DiskRaid.init]
  · rfl

theorem InUse.paths_addDisk (h : m.InUse) (hadd : addDisk statFlag m info = some m') (i : Nat) : m'.paths i =
    if i = info.raidIndex then DiskRaid.withPath (m.paths i) info.diskPath else m.paths i := by
  obtain ⟨-, -, -, hpaths, -, hother⟩ := addDisk_eq_some hadd
  split
  · rename_i hi
    rw [hi, hpaths, h.paths_initRaid]
  · rename_i hi
    rw [paths, hother i hi]
    rfl

theorem InUse.addDisk_ne_none (h : m.InUse) (hlt : info.raidIndex < raidMaxNum) :
    addDisk statFlag m info ≠ none := by
  have hdisk : ((m.initRaid info.raidIndex).raidList info.raidIndex).disk ≠ none := by
    unfold initRaid
    split
    · simp [DiskRaid.init]
    · exact h.disk_ne_none _ (by omega)
  rw [addDisk, if_neg (by omega)]
  intro hnone
  exact DiskRaid.tryAddDisk_ne_none statFlag info hdisk (Option.map_eq_none_iff.mp hnone)

/-- It keeps the raids in use. -/
theorem InUse.addDisk (h : m.InUse) (hadd : addDisk statFlag m info = some m')
    (hle : info.raidIndex ≤ m.raidTotal) : m'.InUse := by
  obtain ⟨-, htotal, hinits, -, hdisk, hother⟩ := addDisk_eq_some hadd
  rw [raidTotal_initRaid] at htotal
  constructor
  case disk_ne_none =>
    intro i hi
    by_cases hc : i = info.raidIndex
    · exact hc ▸ hdisk
    · rw [hother i hc]
      apply h.disk_ne_none
      split at htotal <;> omega
  case disk_eq_none =>
    intro i hi
    have hc : i ≠ info.raidIndex := by split at htotal <;> omega
    rw [hother i hc]
    apply h.disk_eq_none
    split at htotal <;> omega
  case inits_eq =>
    intro i
    rw [hinits i, inits_initRaid, h.inits_eq i]
    grind
  case nodup =>
    intro i
    rw [h.paths_addDisk hadd i]
    split
    · exact DiskRaid.nodup_withPath _ (h.nodup i)
    · exact h.nodup i
  case length_le =>
    intro i
    rw [h.paths_addDisk hadd i]
    split
    · exact DiskRaid.length_withPath_le _ (h.length_le i)
    · exact h.length_le i

theorem Lists.addDisk {infos : List DiskInfo} (h : m.InUse) (hl : m.Lists infos)
    (hadd : addDisk statFlag m info = some m') (hle : info.raidIndex ≤ m.raidTotal) : m'.Lists infos := by
  constructor
  case mem =>
    intro info' hmem
    rw [h.paths_addDisk hadd]
    split
    · exact DiskRaid.mem_withPath_of_mem (hl.mem info' hmem)
    · exact hl.mem info' hmem
  case raidIndex_lt =>
    intro info' hmem
    have hlt := hl.raidIndex_lt info' hmem
    rw [(addDisk_eq_some hadd).2.1, raidTotal_initRaid]
    split <;> omega
  case inits_le => exact (h.addDisk hadd hle).inits_le

/-- A list that begins with a disk of a raid that is there, or is the next one. -/
theorem takes_cons_iff {infos : List DiskInfo} (h : m.InUse) (hadd : addDisk statFlag m info = some m')
    (hle : info.raidIndex ≤ m.raidTotal) : m.Takes (info :: infos) ↔
      (info.diskPath ∈ m.paths info.raidIndex ∨ (m.paths info.raidIndex).length < lunMaxNum) ∧
        m'.Takes infos := by
  obtain ⟨hlt, htotal, -⟩ := addDisk_eq_some hadd
  rw [raidTotal_initRaid] at htotal
  have hpaths := h.paths_addDisk hadd
  -- the disk takes part in what its raid is to have, before or after it is added
  have hroom (hfits : info.diskPath ∈ m.paths info.raidIndex ∨
      (m.paths info.raidIndex).length < lunMaxNum) (i : Nat) :
      (m'.paths i ++ pathsOf infos i).toFinset = (m.paths i ++ pathsOf (info :: infos) i).toFinset := by
    ext path
    rw [hpaths i]
    by_cases hi : info.raidIndex = i
    · subst hi
      simp only [pathsOf, if_true, List.mem_toFinset, List.mem_append, DiskRaid.mem_withPath hfits,
        List.filter_cons, decide_true, List.map_cons, List.mem_cons]
      tauto
    · simp [pathsOf, Ne.symm hi, hi]
  constructor
  · intro ht
    have hfits : info.diskPath ∈ m.paths info.raidIndex ∨
        (m.paths info.raidIndex).length < lunMaxNum := by
      by_contra hfull
      push Not at hfull
      have hsub : (info.diskPath :: m.paths info.raidIndex).toFinset ⊆
          (m.paths info.raidIndex ++ pathsOf (info :: infos) info.raidIndex).toFinset := by
        intro path
        simp only [pathsOf, List.mem_toFinset, List.mem_append, List.filter_cons, decide_true, if_true,
          List.map_cons, List.mem_cons]
        tauto
      have hcard := (Finset.card_le_card hsub).trans (ht.room info.raidIndex)
      have hnodup : (info.diskPath :: m.paths info.raidIndex).Nodup :=
        List.nodup_cons.mpr ⟨hfull.1, h.nodup _⟩
      rw [List.toFinset_card_of_nodup hnodup, List.length_cons] at hcard
      omega
    refine ⟨hfits, ⟨?_, ?_, ?_⟩⟩
    · exact fun info' hmem => ht.raidIndex_lt info' (List.mem_cons_of_mem _ hmem)
    · intro info' hmem i hi hi'
      obtain ⟨info'', hmem'', hindex⟩ := ht.hasDisk info' (List.mem_cons_of_mem _ hmem) i
        (by split at htotal <;> omega) hi'
      obtain rfl | hmem'' := List.mem_cons.mp hmem''
      · split at htotal <;> omega
      · exact ⟨info'', hmem'', hindex⟩
    · exact fun i => hroom hfits i ▸ ht.room i
  · intro ⟨hfits, ht⟩
    constructor
    case raidIndex_lt =>
      intro info' hmem
      obtain rfl | hmem := List.mem_cons.mp hmem
      · exact hlt
      · exact ht.raidIndex_lt info' hmem
    case hasDisk =>
      intro info' hmem i hi hi'
      obtain rfl | hmem := List.mem_cons.mp hmem
      · omega
      · by_cases hnext : i = info.raidIndex
        · exact ⟨info, List.mem_cons_self, hnext.symm⟩
        · obtain ⟨info'', hmem'', hindex⟩ := ht.hasDisk info' hmem i
            (by split at htotal <;> omega) hi'
          exact ⟨info'', List.mem_cons_of_mem _ hmem'', hindex⟩
    case room => exact fun i => hroom hfits i ▸ ht.room i

/-! ### Lists that are not taken -/

/-- A raid was initialised again, or there is one at `c` that is not below `m_raidTotal`. -/
def Skipped (m : DiskLists) (c : Nat) : Prop :=
  (∃ i, 2 ≤ (m.raidList i).inits) ∨ (m.raidTotal ≤ c ∧ 1 ≤ (m.raidList c).inits)

theorem Skipped.addDisk {c : Nat} (h : m.Skipped c) (hadd : addDisk statFlag m info = some m')
    (hle : c ≤ info.raidIndex) : m'.Skipped info.raidIndex := by
  obtain ⟨-, htotal, hinits, -⟩ := addDisk_eq_some hadd
  rcases h with ⟨i, hi⟩ | ⟨hge, hinit⟩
  · exact .inl ⟨i, hi.trans (inits_le_addDisk hadd i)⟩
  · have hnew : m.raidTotal ≤ info.raidIndex := hge.trans hle
    have hindex := hinits info.raidIndex
    rw [inits_initRaid, if_pos ⟨rfl, hnew⟩] at hindex
    by_cases hc : c = info.raidIndex
    · subst hc
      exact .inl ⟨info.raidIndex, by omega⟩
    · refine .inr ⟨?_, by omega⟩
      rw [htotal, raidTotal_initRaid, if_pos hnew]
      omega

/-- Such a raid stays: the indexes of the disks only go up, and `m_raidTotal` by one. -/
theorem Skipped.foldlM {infos : List DiskInfo} (h : m.Skipped info.raidIndex)
    (hsorted : (info :: infos).Pairwise fun info info' => info.raidIndex ≤ info'.raidIndex)
    (hfold : infos.foldlM (DiskLists.addDisk statFlag) m = some m') :
    ∃ info' ∈ info :: infos, m'.Skipped info'.raidIndex := by
  induction infos generalizing m info with
  | nil =>
    cases hfold
    exact ⟨info, List.mem_cons_self, h⟩
  | cons info' infos ih =>
    rw [List.foldlM_cons] at hfold
    obtain ⟨m1, hadd, hfold⟩ := Option.bind_eq_some_iff.mp hfold
    obtain ⟨hle, hsorted⟩ := List.pairwise_cons.mp hsorted
    have h1 := h.addDisk hadd (hle info' List.mem_cons_self)
    obtain ⟨info'', hmem, h2⟩ := ih h1 hsorted hfold
    exact ⟨info'', List.mem_cons_of_mem _ hmem, h2⟩

/-- A raid was initialised again, or the one at `c` is full without `path`. -/
def Full (m : DiskLists) (c : Nat) (path : List Char) : Prop :=
  (∃ i, 2 ≤ (m.raidList i).inits) ∨
    (path ∉ m.paths c ∧ lunMaxNum ≤ (m.paths c).length ∧ 1 ≤ (m.raidList c).inits)

theorem Full.addDisk {c : Nat} {path : List Char} (h : m.Full c path)
    (hadd : addDisk statFlag m info = some m') : m'.Full c path := by
  obtain ⟨-, -, hinits, hpaths, -, hother⟩ := addDisk_eq_some hadd
  rcases h with ⟨i, hi⟩ | ⟨hmem, hlen, hinit⟩
  · exact .inl ⟨i, hi.trans (inits_le_addDisk hadd i)⟩
  · by_cases hc : c = info.raidIndex
    · subst hc
      by_cases hnew : m.raidTotal ≤ info.raidIndex
      · refine .inl ⟨info.raidIndex, ?_⟩
        rw [hinits, inits_initRaid, if_pos ⟨rfl, hnew⟩]
        omega
      · have hsame : m'.paths info.raidIndex = m.paths info.raidIndex := by
          rw [hpaths, initRaid, if_neg hnew, DiskRaid.withPath_of_full _ hlen]
        refine .inr ⟨hsame ▸ hmem, hsame ▸ hlen, hinit.trans (inits_le_addDisk hadd _)⟩
    · unfold Full paths
      rw [hother c hc]
      exact .inr ⟨hmem, hlen, hinit⟩

theorem Full.foldlM {c : Nat} {path : List Char} {infos : List DiskInfo} (h : m.Full c path)
    (hfold : infos.foldlM (DiskLists.addDisk statFlag) m = some m') : m'.Full c path := by
  induction infos generalizing m with
  | nil =>
    cases hfold
    exact h
  | cons info infos ih =>
    rw [List.foldlM_cons] at hfold
    obtain ⟨m1, hadd, hfold⟩ := Option.bind_eq_some_iff.mp hfold
    exact ih (h.addDisk hadd) hfold

end AddDisk

section Fold

variable {statFlag : List Char → DiskErr} {m m' : DiskLists} {infos : List DiskInfo}

/-- A list that is taken comes into the raids. -/
theorem exists_of_takes (h : m.InUse)
    (hsorted : infos.Pairwise fun info info' => info.raidIndex ≤ info'.raidIndex) (ht : m.Takes infos) :
    ∃ m', infos.foldlM (addDisk statFlag) m = some m' ∧ m'.InUse ∧ m'.Lists infos := by
  -- what is listed stays listed while the rest of the list is added
  suffices hall : ∀ done : List DiskInfo, m.Lists done →
      ∃ m', infos.foldlM (addDisk statFlag) m = some m' ∧ m'.InUse ∧ m'.Lists (done ++ infos) from
    hall [] h.lists_nil
  induction infos generalizing m with
  | nil =>
    intro done hdone
    exact ⟨m, rfl, h, by rwa [List.append_nil]⟩
  | cons info infos ih =>
    intro done hdone
    obtain ⟨hle, hsorted⟩ := List.pairwise_cons.mp hsorted
    have hnext : info.raidIndex ≤ m.raidTotal := by
      by_contra hgap
      obtain ⟨info', hmem, hindex⟩ := ht.hasDisk info List.mem_cons_self m.raidTotal le_rfl (by omega)
      obtain rfl | hmem := List.mem_cons.mp hmem
      · omega
      · have := hle info' hmem
        omega
    obtain ⟨m1, hadd⟩ := Option.ne_none_iff_exists'.mp
      (@InUse.addDisk_ne_none statFlag m info h (ht.raidIndex_lt info List.mem_cons_self))
    obtain ⟨hfits, ht1⟩ := (takes_cons_iff h hadd hnext).mp ht
    have h1 := h.addDisk hadd hnext
    have hdone1 := hdone.addDisk h hadd hnext
    have hlists : m1.Lists (done ++ [info]) := by
      constructor
      case mem =>
        intro info' hmem
        obtain hmem | hmem := List.mem_append.mp hmem
        · exact hdone1.mem info' hmem
        · rw [List.mem_singleton.mp hmem, h.paths_addDisk hadd, if_pos rfl]
          exact (DiskRaid.mem_withPath hfits).mpr (.inr rfl)
      case raidIndex_lt =>
        intro info' hmem
        obtain hmem | hmem := List.mem_append.mp hmem
        · exact hdone1.raidIndex_lt info' hmem
        · rw [List.mem_singleton.mp hmem, (addDisk_eq_some hadd).2.1, raidTotal_initRaid]
          split <;> omega
      case inits_le => exact hdone1.inits_le
    obtain ⟨m2, hfold, h2, hlists2⟩ := ih h1 hsorted ht1 (done ++ [info]) hlists
    refine ⟨m2, ?_, h2, by rwa [List.append_assoc] at hlists2⟩
    rw [List.foldlM_cons, hadd]
    exact hfold

/-- Only a list that is taken does. -/
theorem takes_of_lists (h : m.InUse)
    (hsorted : infos.Pairwise fun info info' => info.raidIndex ≤ info'.raidIndex)
    (hfold : infos.foldlM (addDisk statFlag) m = some m') (hlists : m'.Lists infos) : m.Takes infos := by
  induction infos generalizing m with
  | nil =>
    refine ⟨by simp, by simp, fun i => ?_⟩
    rw [pathsOf, List.filter_nil, List.map_nil, List.append_nil]
    exact (List.toFinset_card_le _).trans (h.length_le i)
  | cons info infos ih =>
    rw [List.foldlM_cons] at hfold
    obtain ⟨m1, hadd, hfold⟩ := Option.bind_eq_some_iff.mp hfold
    have hinits : ¬∃ i, 2 ≤ (m'.raidList i).inits := by
      rintro ⟨i, hi⟩
      have := hlists.inits_le i
      omega
    obtain ⟨-, htotal, hinit, -⟩ := addDisk_eq_some hadd
    have hnext : info.raidIndex ≤ m.raidTotal := by
      by_contra hgap
      have hnew : m.raidTotal ≤ info.raidIndex := by omega
      have hskipped : m1.Skipped info.raidIndex := by
        refine .inr ⟨?_, ?_⟩
        · rw [htotal, raidTotal_initRaid, if_pos hnew]
          omega
        · rw [hinit, inits_initRaid, if_pos ⟨rfl, hnew⟩]
          omega
      obtain ⟨info', hmem, hskipped⟩ := hskipped.foldlM hsorted hfold
      obtain ⟨hge, -⟩ := hskipped.resolve_left hinits
      have := hlists.raidIndex_lt info' hmem
      omega
    have h1 := h.addDisk hadd hnext
    refine (takes_cons_iff h hadd hnext).mpr ⟨?_, ?_⟩
    · by_contra hfits
      push Not at hfits
      have hsame : m1.paths info.raidIndex = m.paths info.raidIndex := by
        rw [h.paths_addDisk hadd, if_pos rfl, DiskRaid.withPath_of_full _ hfits.2]
      have hfull : m1.Full info.raidIndex info.diskPath := by
        refine .inr ⟨hsame ▸ hfits.1, hsame ▸ hfits.2, ?_⟩
        rw [h1.inits_eq, if_pos]
        rw [htotal, raidTotal_initRaid]
        split <;> omega
      obtain ⟨hmem, -⟩ := (hfull.foldlM hfold).resolve_left hinits
      exact hmem (hlists.mem info List.mem_cons_self)
    · apply ih h1 (List.pairwise_cons.mp hsorted).2 hfold
      exact
        { mem := fun info' hmem => hlists.mem info' (List.mem_cons_of_mem _ hmem)
          raidIndex_lt := fun info' hmem => hlists.raidIndex_lt info' (List.mem_cons_of_mem _ hmem)
          inits_le := hlists.inits_le }

/-- Disks that are in their raids already change nothing. -/
theorem foldlM_addDisk_of_mem (hlt : ∀ info ∈ infos, info.raidIndex < raidMaxNum)
    (hmem : ∀ info ∈ infos, info.diskPath ∈ m.paths info.raidIndex)
    (htotal : ∀ info ∈ infos, info.raidIndex < m.raidTotal) :
    infos.foldlM (addDisk statFlag) m = some m := by
  induction infos with
  | nil => rfl
  | cons info infos ih =>
    rw [List.forall_mem_cons] at hlt hmem htotal
    have hadd : addDisk statFlag m info = some m := by
      rw [addDisk, if_neg (by omega), initRaid, if_neg (by omega)]
      simp only
      rw [DiskRaid.tryAddDisk_of_mem statFlag hmem.1, Option.map_some, Function.update_eq_self]
    rw [List.foldlM_cons, hadd]
    exact ih hlt.2 hmem.2 htotal.2

end Fold

@[simp]
theorem paths_refreshDiskInfo (m : DiskLists) (diskInfoVec : List DiskInfo) (i : Nat) :
    (m.refreshDiskInfo diskInfoVec).paths i = m.paths i := by
  unfold paths refreshDiskInfo
  simp only
  split
  · exact DiskRaid.paths_refreshDiskInfo _ _
  · rfl

@[simp]
theorem raidTotal_refreshDiskInfo (m : DiskLists) (diskInfoVec : List DiskInfo) :
    (m.refreshDiskInfo diskInfoVec).raidTotal = m.raidTotal :=
  rfl

theorem InUse.refreshDiskInfo {m : DiskLists} (h : m.InUse) (diskInfoVec : List DiskInfo) :
    (m.refreshDiskInfo diskInfoVec).InUse := by
  constructor
  case disk_ne_none =>
    intro i hi
    have hdisk := h.disk_ne_none i hi
    simpa [DiskLists.refreshDiskInfo, DiskRaid.refreshDiskInfo, show i < m.raidTotal from hi] using hdisk
  case disk_eq_none =>
    intro i hi
    have hge : ¬i < m.raidTotal := Nat.not_lt.mpr hi
    simp only [DiskLists.refreshDiskInfo, if_neg hge]
    exact h.disk_eq_none i hi
  case inits_eq =>
    intro i
    rw [raidTotal_refreshDiskInfo, ← h.inits_eq i]
    simp only [DiskLists.refreshDiskInfo]
    split <;> rfl
  case nodup => exact fun i => by simpa using h.nodup i
  case length_le => exact fun i => by simpa using h.length_le i

theorem takes_refreshDiskInfo_iff {m : DiskLists} {infos : List DiskInfo} (diskInfoVec : List DiskInfo) :
    (m.refreshDiskInfo diskInfoVec).Takes infos ↔ m.Takes infos := by
  constructor
  · exact fun h => ⟨h.raidIndex_lt, h.hasDisk, fun i => by simpa using h.room i⟩
  · exact fun h => ⟨h.raidIndex_lt, h.hasDisk, fun i => by simpa using h.room i⟩

theorem refreshDiskList_eq (m : DiskLists) (call : RefreshCall) {infos : List DiskInfo}
    (hparse : parseDiskListConf call.mountOnline call.strDiskPath = some infos) :
    m.refreshDiskList call = if call.strDiskPath = [] then some m
      else infos.foldlM (addDisk call.statFlag) (m.refreshDiskInfo infos) := by
  rw [refreshDiskList, hparse, Option.bind_some]

end DiskLists

theorem parseDiskListConf_nil (mountOnline : List Char → Bool) : parseDiskListConf mountOnline [] = some [] := by
  rw [parseDiskListConf, parseLoop, dif_pos (.inl rfl)]

/-! ## The calls -/

/-- The lists and the last call; there are no lists once a call has left its memory. -/
structure RefreshRun where
  lists : Option DiskLists
  last : RefreshCall

namespace RefreshRun

/-- The manager before the first call. -/
def new : RefreshRun where
  lists := some DiskLists.new
  last := { strDiskPath := [], mountOnline := fun _ => false, statFlag := fun _ => .ok }

def step (s : RefreshRun) (call : RefreshCall) : RefreshRun where
  lists := s.lists.bind fun m => m.refreshDiskList call
  last := call

/-- After the last call each of its disks is listed, and to repeat the call changes no list. -/
def Listed (s : RefreshRun) : Prop :=
  ∃ m infos, s.lists = some m ∧
    parseDiskListConf s.last.mountOnline s.last.strDiskPath = some infos ∧ m.Lists infos ∧
    ∀ mountOnline statFlag, ∃ m', m.refreshDiskList { s.last with mountOnline, statFlag } = some m' ∧
      m'.raidTotal = m.raidTotal ∧ ∀ i, m'.paths i = m.paths i

/-- The disks of the call fit into `diskPathTemp`, and the raids take them. -/
def Takes (s : RefreshRun) (call : RefreshCall) : Prop :=
  ∃ m infos, s.lists = some m ∧ parseDiskListConf call.mountOnline call.strDiskPath = some infos ∧
    m.Takes infos

/-- The raids are in use. -/
def InUse (s : RefreshRun) : Prop := ∃ m, s.lists = some m ∧ m.InUse

theorem inUse_new : InUse new := ⟨DiskLists.new, rfl, DiskLists.inUse_new⟩

/-- To repeat a call that is listed changes no list. -/
theorem refreshDiskList_repeat {m : DiskLists} {infos : List DiskInfo} {call : RefreshCall}
    (hparse : parseDiskListConf call.mountOnline call.strDiskPath = some infos) (hlists : m.Lists infos)
    (hlt : ∀ info ∈ infos, info.raidIndex < raidMaxNum) (mountOnline : List Char → Bool)
    (statFlag : List Char → DiskErr) :
    ∃ m', m.refreshDiskList { call with mountOnline, statFlag } = some m' ∧ m'.raidTotal = m.raidTotal ∧
      ∀ i, m'.paths i = m.paths i := by
  have hplace := parseDiskListConf_place mountOnline call.mountOnline call.strDiskPath
  rw [hparse] at hplace
  obtain ⟨infos', hparse', hsame⟩ := Option.map_eq_some_iff.mp hplace
  have hmem (info' : DiskInfo) (h : info' ∈ infos') :
      ∃ info ∈ infos, info.diskPath = info'.diskPath ∧ info.raidIndex = info'.raidIndex := by
    have h' : info'.place ∈ infos.map DiskInfo.place := hsame ▸ List.mem_map_of_mem h
    obtain ⟨info, hinfo, heq⟩ := List.mem_map.mp h'
    exact ⟨info, hinfo, congrArg Prod.fst heq, congrArg Prod.snd heq⟩
  rw [DiskLists.refreshDiskList_eq m { call with mountOnline, statFlag } hparse']
  simp only
  split
  · exact ⟨m, rfl, rfl, fun _ => rfl⟩
  · refine ⟨m.refreshDiskInfo infos', ?_, rfl, fun i => DiskLists.paths_refreshDiskInfo m infos' i⟩
    apply DiskLists.foldlM_addDisk_of_mem
    · intro info' h
      obtain ⟨info, hinfo, -, hindex⟩ := hmem info' h
      exact hindex ▸ hlt info hinfo
    · intro info' h
      obtain ⟨info, hinfo, hpath, hindex⟩ := hmem info' h
      rw [DiskLists.paths_refreshDiskInfo, ← hpath, ← hindex]
      exact hlists.mem info hinfo
    · intro info' h
      obtain ⟨info, hinfo, -, hindex⟩ := hmem info' h
      exact hindex ▸ hlists.raidIndex_lt info hinfo

/-- A call leaves its disks listed exactly if the raids take them; they stay in use. -/
theorem listed_step_iff {s : RefreshRun} (h : s.InUse) (call : RefreshCall) :
    (Listed (step s call) ↔ Takes s call) ∧ (Takes s call → InUse (step s call)) := by
  obtain ⟨m, hm, huse⟩ := h
  have hlists : (step s call).lists = m.refreshDiskList call := by rw [step, hm, Option.bind_some]
  -- the two ways through a call: without a list, and with the disks of one
  have htaken {infos : List DiskInfo} (hparse : parseDiskListConf call.mountOnline call.strDiskPath = some infos)
      (ht : m.Takes infos) : ∃ m', m.refreshDiskList call = some m' ∧ m'.InUse ∧ m'.Lists infos := by
    rw [DiskLists.refreshDiskList_eq m call hparse]
    split
    · rename_i hnil
      rw [hnil, parseDiskListConf_nil] at hparse
      cases hparse
      exact ⟨m, rfl, huse, huse.lists_nil⟩
    · exact DiskLists.exists_of_takes (huse.refreshDiskInfo infos) (parseDiskListConf_sorted hparse)
        ((DiskLists.takes_refreshDiskInfo_iff infos).mpr ht)
  refine ⟨⟨?_, ?_⟩, ?_⟩
  · rintro ⟨m', infos, hm', hparse, hl, -⟩
    refine ⟨m, infos, hm, hparse, ?_⟩
    change parseDiskListConf call.mountOnline call.strDiskPath = some infos at hparse
    rw [hlists, DiskLists.refreshDiskList_eq m call hparse] at hm'
    split at hm'
    · rename_i hnil
      rw [hnil, parseDiskListConf_nil] at hparse
      cases hparse
      exact @DiskLists.takes_of_lists call.statFlag m m [] huse .nil rfl huse.lists_nil
    · have ht := DiskLists.takes_of_lists (huse.refreshDiskInfo infos) (parseDiskListConf_sorted hparse) hm' hl
      exact (DiskLists.takes_refreshDiskInfo_iff infos).mp ht
  · rintro ⟨m0, infos, hm0, hparse, ht⟩
    obtain rfl : m = m0 := Option.some.inj (hm.symm.trans hm0)
    obtain ⟨m', hm', -, hl⟩ := htaken hparse ht
    exact ⟨m', infos, hlists.trans hm', hparse, hl, refreshDiskList_repeat hparse hl ht.raidIndex_lt⟩
  · rintro ⟨m0, infos, hm0, hparse, ht⟩
    obtain rfl : m = m0 := Option.some.inj (hm.symm.trans hm0)
    obtain ⟨m', hm', huse', -⟩ := htaken hparse ht
    exact ⟨m', hlists.trans hm', huse'⟩

theorem listed_new : Listed new :=
  ⟨DiskLists.new, [], rfl, parseDiskListConf_nil _, DiskLists.inUse_new.lists_nil,
    fun _ _ => ⟨DiskLists.new, rfl, rfl, fun _ => rfl⟩⟩

/-- The index of a disk is the number of `|` in front of its path. After every call the disks of its list are in
the raids of their indexes, which take part, no raid was initialised again, and to repeat the call changes no
list, exactly if at every call the raids take its disks. -/
theorem refreshDiskList_listed_iff (calls : List RefreshCall) :
    (∀ call ∈ calls, ∀ infos, parseDiskListConf call.mountOnline call.strDiskPath = some infos →
      ∀ info ∈ infos, ∃ pre disk post, call.strDiskPath = pre ++ disk ++ post ∧
        parseDiskInfo call.mountOnline info.raidIndex disk = some info ∧
        info.raidIndex = (pre ++ disk.takeWhile (· ≠ '/')).count '|') ∧
    (Allowed step Takes new calls ↔ ∀ pre, pre <+: calls → Listed (run step new pre)) := by
  constructor
  · intro call _ infos hparse info hmem
    exact parseDiskListConf_raidIndex hparse hmem
  · exact allowed_iff_of_invariant inUse_new listed_new fun s call h _ => listed_step_iff h call

/-- The second of three raids has no disk, and all indexes are below `SVS_RAID_MAX_NUM`: the raid of `/b` is not
below `m_raidTotal`. When the call is repeated it is initialised again. -/
theorem not_listed_emptyRaid :
    let call : RefreshCall :=
      { strDiskPath := ['/', 'a', '|', '|', '/', 'b'], mountOnline := fun _ => true, statFlag := fun _ => .ok }
    ¬Listed (run step new [call]) ∧
      (∀ infos, parseDiskListConf call.mountOnline call.strDiskPath = some infos →
        ∀ info ∈ infos, info.raidIndex < raidMaxNum) ∧
      (run step new [call]).lists.map (fun m => (m.raidTotal, m.paths 2)) = some (2, [['/', 'b']]) ∧
      (run step new [call, call]).lists.map (fun m => (m.raidList 2).inits) = some 2 := by
  intro call
  have hparse : parseDiskListConf call.mountOnline call.strDiskPath =
      some [⟨['/', 'a'], false, .mountdisk, 0⟩, ⟨['/', 'b'], false, .mountdisk, 2⟩] := by
    simp [call, parseDiskListConf, parseLoop, nextDisk, nextRaidIndex, separates, parseDiskInfo, partedFlag,
      diskPathOf, endsPath, diskNameSize]
  refine ⟨?_, ?_, ?_, ?_⟩
  · intro hlisted
    obtain ⟨m, infos, hm, hinfos, ht⟩ := (listed_step_iff inUse_new call).1.mp hlisted
    obtain rfl := Option.some.inj (hparse.symm.trans hinfos)
    obtain rfl := Option.some.inj hm
    have := ht.hasDisk ⟨['/', 'b'], false, .mountdisk, 2⟩ (by simp) 1 (by decide) (by decide)
    simp at this
  · intro infos hinfos info hmem
    obtain rfl := Option.some.inj (hparse.symm.trans hinfos)
    revert info
    decide
  · have hrun : (run step new [call]).lists = DiskLists.new.refreshDiskList call := rfl
    rw [hrun, DiskLists.refreshDiskList_eq _ _ hparse]
    rfl
  · have hrun : (run step new [call, call]).lists =
        (DiskLists.new.refreshDiskList call).bind fun m => m.refreshDiskList call := rfl
    have hrefresh (m : DiskLists) := DiskLists.refreshDiskList_eq m call hparse
    rw [hrun]
    simp only [hrefresh]
    rfl

end RefreshRun

end AllCamera
