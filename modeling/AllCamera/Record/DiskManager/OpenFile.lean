import AllCamera.Record.DiskManager

/-!
# What an open of a file changes

* `Slot`, `Chosen`: the slot, the raid and the queue that `allocDisk` decides on.
* `Allocated`, `Opening`: what `allocDisk` and `openFile` can do; `allocDisk_allocated`, `openFile_opening`.
-/

namespace AllCamera

namespace RecordRaid

variable {c : DiskConfig} {raid : RecordRaid} {q : Int}

/-- The queue `q` is that of a thread of the group of the raid. -/
def InGroup (c : DiskConfig) (raid : RecordRaid) (q : Int) : Prop :=
  0 ≤ raid.outputThreadStartId ∧ raid.outputThreadStartId ≤ q ∧
    q < raid.outputThreadStartId + c.outputThreadNumPerRaid

instance : Decidable (InGroup c raid q) := inferInstanceAs (Decidable (_ ∧ _))

/-- The thread with the least load is one of the group. -/
theorem getCurrOutputThreadIndex_inGroup (h : raid.getCurrOutputThreadIndex c = some q) :
    raid.InGroup c q := by
  unfold getCurrOutputThreadIndex at h
  by_cases hstart : raid.outputThreadStartId < 0
  · rw [if_pos hstart] at h
    cases h
  rw [if_neg hstart] at h
  dsimp only at h
  have hleast := List.foldlRecOn (motive := fun least => least < c.outputThreadNumPerRaid)
    (List.range c.outputThreadNumPerRaid)
    (fun least i => if raid.outputThreadLoad i < raid.outputThreadLoad least then i else least)
    (show 0 < c.outputThreadNumPerRaid by have := c.thread_range; omega) fun least hlt i hi => by
      split_ifs
      · exact List.mem_range.mp hi
      · exact hlt
  generalize (List.range c.outputThreadNumPerRaid).foldl
    (fun least i => if raid.outputThreadLoad i < raid.outputThreadLoad least then i else least) 0 = least at h hleast
  obtain rfl := Option.some.inj h
  exact ⟨by omega, by omega, by omega⟩

end RecordRaid

/-- The two results of an open that succeeds. -/
def DiskRet.Succeeded (r : DiskRet) : Prop := r = .ok ∨ r = .changedisk

instance : DecidablePred DiskRet.Succeeded := fun _ => inferInstanceAs (Decidable (_ ∨ _))

namespace DiskManager

open RecordRaid

variable {c : DiskConfig} {m : DiskManager} {vfd : Int} {v k cursor : Nat} {loads : Nat → Option Int}

theorem findVfd_eq_some (h : m.findVfd = some v) :
    v < recordMaxLensNum ∧ (m.fileList v).vfdStatus = .free := by
  obtain ⟨j, hj, rfl⟩ := Option.map_eq_some_iff.mp h
  exact ⟨Nat.mod_lt _ (by decide), by simpa using List.find?_some hj⟩

theorem minCameraRaidIndex_lt (h : m.minCameraRaidIndex = some k) : k < m.raidTotal := by
  have hall := List.foldlRecOn (motive := fun least : Option Nat => ∀ k ∈ least, k < m.raidTotal) (b := none)
    (List.range m.raidTotal)
    (fun least (i : Nat) =>
      let raid := m.raidList i
      if DiskErr.raidFull.value ≤ raid.raidErrType.value then least
      else if raid.capacityCameraNum ≤ raid.cameraNum then least
      else
        let k := least.getD i
        if raid.raidLoad < (m.raidList k).raidLoad then some i else some k)
    (fun k hk => by cases hk) fun least hleast i hi k hk => by
      have hi := List.mem_range.mp hi
      dsimp only at hk
      split_ifs at hk
      · exact hleast k hk
      · exact hleast k hk
      · obtain rfl := Option.some.inj hk
        exact hi
      · obtain rfl := Option.some.inj hk
        cases least with
        | none => exact hi
        | some k => exact hleast k rfl
  exact hall k h

/-- The slot `v` for a caller's `vfd`: a free one that the cursor finds, or the one that the caller has. -/
inductive Slot (m : DiskManager) : Int → Nat → Nat → Prop
  | first {vfd : Int} {v : Nat} : vfd ≤ -1 → m.findVfd = some v → Slot m vfd v (v + 1)
  | again {v : Nat} : v < recordMaxLensNum → Slot m v v m.vfdCursor

theorem Slot.lt (h : m.Slot vfd v cursor) : v < recordMaxLensNum := by
  cases h with
  | first _ hfind => exact (findVfd_eq_some hfind).1
  | again hv => exact hv

theorem Slot.of_neg (h : m.Slot vfd v cursor) (hvfd : vfd ≤ -1) : m.findVfd = some v ∧ cursor = v + 1 := by
  cases h with
  | first _ hfind => exact ⟨hfind, rfl⟩
  | again _ => omega

/-- The raids with other loads. -/
def Reloaded (m : DiskManager) (raidList : Int → RecordRaid) : Prop :=
  ∀ i, ∃ load, raidList i = { m.raidList i with raidLoad := load }

theorem reloaded_refl (m : DiskManager) : m.Reloaded m.raidList := fun i => ⟨(m.raidList i).raidLoad, rfl⟩

theorem reloaded_countRaidLoad (m : DiskManager) (loads : Nat → Option Int) :
    m.Reloaded (m.countRaidLoad loads).raidList := by
  intro i
  unfold countRaidLoad
  dsimp only
  split_ifs
  · exact ⟨_, rfl⟩
  · exact ⟨_, rfl⟩

/-- The caller has no slot yet, or the raid of its slot can not be used. -/
def Fresh (m : DiskManager) (vfd : Int) : Prop :=
  0 ≤ vfd → DiskErr.raidFull.value ≤ (m.raidList (m.fileList vfd.toNat).raidIndex).raidErrType.value

/-- The raid `k` and the queue `q` for the slot `v`: a usable raid of the table and one of its threads, or those
that the slot has, if that raid can be used. -/
inductive Chosen (c : DiskConfig) (m : DiskManager) (vfd : Int) (v : Nat) : Int → Int → Prop
  | new {k : Nat} {q : Int} : m.Fresh vfd → k < m.raidTotal → (m.raidList k).InGroup c q → Chosen c m vfd v k q
  | stay : vfd = v → (m.raidList (m.fileList v).raidIndex).raidErrType.value < DiskErr.raidFull.value →
      Chosen c m vfd v (m.fileList v).raidIndex (m.fileList v).ioQueueIndex

/-- What `allocDisk` can do. -/
inductive Allocated (c : DiskConfig) (m : DiskManager) (vfd : Int) : DiskManager → Int → Int → DiskRet → Prop
  | noVfd {k : Int} : vfd ≤ -1 → m.findVfd = none → Allocated c m vfd m vfd k .novfd
  | noRaid {v cursor : Nat} {raidList : Int → RecordRaid} {k : Int} : m.Slot vfd v cursor →
      m.Reloaded raidList → m.Fresh vfd → Allocated c m vfd { m with vfdCursor := cursor, raidList } v k .noraid
  | chosen {v cursor : Nat} {raidList : Int → RecordRaid} {k q : Int} {r : DiskRet} : m.Slot vfd v cursor →
      m.Reloaded raidList → m.Chosen c vfd v k q → r.Succeeded →
      Allocated c m vfd
        ({ m with vfdCursor := cursor, raidList }.setFile v { m.fileList v with ioQueueIndex := q }) v k r

theorem allocRaid_allocated (hslot : m.Slot vfd v cursor) (hfresh : m.Fresh vfd) (raidIndex : Int) {r : DiskRet}
    (hr : r.Succeeded) :
    let o := { m with vfdCursor := cursor }.allocRaid c v raidIndex loads r
    m.Allocated c vfd o.1 o.2.1 o.2.2.1 o.2.2.2 := by
  unfold allocRaid
  have hload := reloaded_countRaidLoad m loads
  have hloaded : { m with vfdCursor := cursor }.countRaidLoad loads =
      { m with vfdCursor := cursor, raidList := (m.countRaidLoad loads).raidList } := rfl
  dsimp only
  rw [hloaded]
  generalize (m.countRaidLoad loads).raidList = raidList at hload ⊢
  cases hmin : DiskManager.minCameraRaidIndex { m with vfdCursor := cursor, raidList } with
  | none => exact .noRaid hslot hload hfresh
  | some k =>
    have hk := minCameraRaidIndex_lt hmin
    dsimp only
    cases hq : (raidList k).getCurrOutputThreadIndex c with
    | none => exact .noRaid hslot hload hfresh
    | some q =>
      refine .chosen hslot hload (.new hfresh hk ?_) hr
      have hgroup := getCurrOutputThreadIndex_inGroup hq
      obtain ⟨load, heq⟩ := hload k
      rw [heq] at hgroup
      exact hgroup

theorem setFile_eq_self : m.setFile v (m.fileList v) = m := by
  unfold setFile
  rw [Function.update_eq_self]

theorem setFile_setFile {file file' : VFile} : (m.setFile v file).setFile v file' = m.setFile v file' := by
  unfold setFile
  rw [Function.update_idem]

@[simp] theorem fileList_setFile {file : VFile} : (m.setFile v file).fileList v = file :=
  Function.update_self ..

theorem allocDisk_allocated (hvfd : vfd < recordMaxLensNum) (raidIndex : Int) :
    let o := m.allocDisk c vfd raidIndex loads
    m.Allocated c vfd o.1 o.2.1 o.2.2.1 o.2.2.2 := by
  unfold allocDisk
  by_cases hfirst : vfd ≤ -1
  · rw [if_pos hfirst]
    cases hfind : m.findVfd with
    | none => exact .noVfd hfirst hfind
    | some v => exact allocRaid_allocated (.first hfirst hfind) (fun h => by omega) raidIndex (.inl rfl)
  rw [if_neg hfirst]
  obtain ⟨v, rfl⟩ := Int.eq_ofNat_of_zero_le (show 0 ≤ vfd by omega)
  have hslot : m.Slot v v m.vfdCursor := .again (by omega)
  dsimp only
  rw [Int.toNat_natCast]
  split_ifs with husable hchange
  · have hsame := @Allocated.chosen c m v v _ _ _ _ .changedisk hslot m.reloaded_refl (.stay rfl husable) (.inr rfl)
    rwa [setFile_eq_self] at hsame
  · have hsame := @Allocated.chosen c m v v _ _ _ _ .ok hslot m.reloaded_refl (.stay rfl husable) (.inl rfl)
    rwa [setFile_eq_self] at hsame
  · refine allocRaid_allocated hslot (fun _ => ?_) _ (.inr rfl)
    rw [Int.toNat_natCast]
    omega

/-- What `openFile` can do: nothing, find no raid for the slot, fail to create the file, or open it. -/
inductive Opening (c : DiskConfig) (m : DiskManager) (cameraId : Nat) (vfd : Int) (createDir : Option FileErr)
    (createFile : Except FileErr Nat) : DiskManager → Int → DiskRet → Prop
  | refused {r : DiskRet} : vfd ≤ -1 ∧ m.findVfd = none ∨ (recordMaxLensNum : Int) ≤ vfd → ¬ r.Succeeded →
      Opening c m cameraId vfd createDir createFile m vfd r
  | noRaid {v cursor : Nat} {raidList : Int → RecordRaid} : m.Slot vfd v cursor → m.Reloaded raidList →
      m.Fresh vfd → Opening c m cameraId vfd createDir createFile { m with vfdCursor := cursor, raidList } v .noraid
  | failed {v cursor : Nat} {raidList : Int → RecordRaid} {k q d : Int} {e : FileErr} :
      m.Slot vfd v cursor → m.Reloaded raidList → m.Chosen c vfd v k q →
      createDir = some e ∨ createFile = .error e →
      Opening c m cameraId vfd createDir createFile
        ({ m with vfdCursor := cursor, raidList }.setFile v
          { m.fileList v with ioQueueIndex := q, raidIndex := k, diskIndex := d }) v (.file e)
  | done {v cursor fd : Nat} {raidList : Int → RecordRaid} {k q d : Int} {r : DiskRet} :
      m.Slot vfd v cursor → m.Reloaded raidList → m.Chosen c vfd v k q → r.Succeeded →
      createDir = none → createFile = .ok fd →
      Opening c m cameraId vfd createDir createFile
        (({ m with vfdCursor := cursor, raidList }.setFile v
          { ioQueueIndex := q, sysFd := fd, raidIndex := k, diskIndex := d, cameraId, vfdStatus := .usable }).setRaid k
            ((raidList k).increaseCameraNum c cameraId q)) v r

theorem openFile_opening (c : DiskConfig) (m : DiskManager) (cameraId : Nat) (vfd : Int)
    (loads : Nat → Option Int) (createDir : Option FileErr) (createFile : Except FileErr Nat) :
    let o := m.openFile c cameraId vfd loads createDir createFile
    m.Opening c cameraId vfd createDir createFile o.1 o.2.1 o.2.2 := by
  unfold openFile
  by_cases hlarge : (recordMaxLensNum : Int) ≤ vfd
  · rw [if_pos hlarge]
    exact .refused (.inr hlarge) (show ¬ DiskRet.param.Succeeded by decide)
  rw [if_neg hlarge]
  have halloc := @allocDisk_allocated c m vfd loads (by omega) 0
  generalize m.allocDisk c vfd 0 loads = o at halloc ⊢
  obtain ⟨m', v', k, r⟩ := o
  dsimp only at halloc ⊢
  cases halloc with
  | noVfd hfirst hfind => exact .refused (.inl ⟨hfirst, hfind⟩) (show ¬ DiskRet.novfd.Succeeded by decide)
  | noRaid hslot hload hfresh => exact .noRaid hslot hload hfresh
  | @chosen v cursor raidList k q r hslot hload hchosen hr =>
    rw [if_neg (by unfold DiskRet.Succeeded at hr; tauto), Int.toNat_natCast, fileList_setFile]
    cases hdir : createDir with
    | some e =>
      dsimp only
      rw [setFile_setFile]
      exact .failed hslot hload hchosen (.inl rfl)
    | none =>
      cases hfile : createFile with
      | error e =>
        dsimp only
        rw [setFile_setFile]
        exact .failed hslot hload hchosen (.inr rfl)
      | ok fd =>
        dsimp only
        rw [setFile_setFile]
        exact .done hslot hload hchosen hr rfl rfl

end DiskManager

end AllCamera
