import AllCamera.Lib.RefCount
import AllCamera.Record.DiskManager.Vfds

/-!
# The loads of the output threads

A raid counts the open files of each thread of its group. The table is set to zero when the raid gets a group;
files that are still open from a time when it had that group are then not in it. And a file that is opened again
on its raid keeps its queue, also if the raid has got another group.

* `queued`: the open files of a queue; `Loads`: the tables count them.
* `Accounted`: what is asked of a step; `Steady`: the queue of a file that is opened again is of the group of
  its raid, and no raid gets a group with an open file of its own.
* `accounted_iff`: under the calls of the callers the two are the same; `run_accounted`.
-/

namespace AllCamera

open Run

/-- The file is open and written by the thread `q` for the raid `k`. -/
def VFile.OnQueue (file : VFile) (k q : Int) : Prop :=
  -1 < file.sysFd ∧ file.raidIndex = k ∧ file.ioQueueIndex = q

instance {file : VFile} {k q : Int} : Decidable (file.OnQueue k q) := inferInstanceAs (Decidable (_ ∧ _))

namespace RecordRaid

variable {c : DiskConfig} {raid : RecordRaid} {q : Int} {f : UInt32 → UInt32} {cameraId : Nat}

/-- The entry of the thread `q` in the load table. -/
def loadOf (raid : RecordRaid) (q : Int) : UInt32 := raid.outputThreadLoad (q - raid.outputThreadStartId).toNat

@[simp] theorem outputThreadStartId_changeLoad :
    (raid.changeLoad c q f).outputThreadStartId = raid.outputThreadStartId := by
  unfold changeLoad
  dsimp only
  split_ifs <;> rfl

/-- The other entries of the group stay, and so does the table if the thread is not of the group. -/
theorem outputThreadLoad_changeLoad {j : Nat} (hj : j < c.outputThreadNumPerRaid) :
    (raid.changeLoad c q f).outputThreadLoad j =
      if raid.outputThreadStartId + j = q then f (raid.loadOf q) else raid.outputThreadLoad j := by
  unfold changeLoad loadOf
  dsimp only
  split_ifs
  · dsimp only
    rw [show (q - raid.outputThreadStartId).toNat = j by omega, Function.update_self]
  · dsimp only
    rw [Function.update_of_ne]
    omega
  · omega
  · rfl

theorem increaseCameraNum_eq : ∃ cameraMap cameraNum, raid.increaseCameraNum c cameraId q =
    { raid.changeLoad c q (· + 1) with cameraMap, cameraNum } := by
  unfold increaseCameraNum
  dsimp only
  split_ifs
  · exact ⟨_, _, rfl⟩
  · exact ⟨_, _, rfl⟩

theorem decreaseCameraNum_eq : ∃ cameraMap cameraNum, raid.decreaseCameraNum c cameraId q =
    { raid.changeLoad c q (· - 1) with cameraMap, cameraNum } := by
  unfold decreaseCameraNum
  dsimp only
  split_ifs
  · exact ⟨_, _, rfl⟩
  · exact ⟨_, _, rfl⟩

theorem diskInRange_changeLoad : (raid.changeLoad c q f).DiskInRange ↔ raid.DiskInRange := by
  unfold changeLoad DiskInRange
  dsimp only
  split_ifs <;> exact Iff.rfl

theorem inGroup_congr {raid' : RecordRaid} (h : raid'.outputThreadStartId = raid.outputThreadStartId) :
    raid'.InGroup c q ↔ raid.InGroup c q := by
  unfold InGroup
  rw [h]

theorem Selected.diskInRange {raid' : RecordRaid} {flag : Nat → DiskErr} {freeList freeList' : List Nat}
    (hsel : raid.Selected flag freeList raid' freeList') (h : raid.DiskInRange) : raid'.DiskInRange := by
  cases hsel with
  | unchanged _ => exact h
  | kept d e hfound _ _ => exact (hfound h).1
  | noGroup d hfound _ _ => exact (hfound h).1
  | taken d e start rest hfound _ _ _ => exact (hfound h).1
  | freed d hfound _ => exact hfound.1 h
  | full d hfound _ => exact hfound.1 h

end RecordRaid

namespace DiskManager

open RecordRaid

variable {c : DiskConfig} {m m' : DiskManager} {v : Nat} {k q : Int} {file : VFile}

/-- The number of the open files of the raid `k` on the queue `q`. -/
def queued (m : DiskManager) (k q : Int) : Nat :=
  (List.range recordMaxLensNum).countP fun v => decide ((m.fileList v).OnQueue k q)

theorem queued_le : m.queued k q ≤ recordMaxLensNum := by
  have := (List.range recordMaxLensNum).countP_le_length (p := fun v => decide ((m.fileList v).OnQueue k q))
  rwa [List.length_range] at this

theorem queued_congr (h : ∀ v, (m'.fileList v).OnQueue k q ↔ (m.fileList v).OnQueue k q) :
    m'.queued k q = m.queued k q :=
  List.countP_congr fun v _ => by simpa using h v

theorem queued_pos (hv : v < recordMaxLensNum) (h : (m.fileList v).OnQueue k q) : 0 < m.queued k q :=
  List.countP_pos_iff.mpr ⟨v, List.mem_range.mpr hv, decide_eq_true h⟩

theorem raidList_setRaid {raid : RecordRaid} (i : Int) :
    (m.setRaid k raid).raidList i = if i = k then raid else m.raidList i := Function.update_apply ..

@[simp] theorem raidList_setFile : (m.setFile v file).raidList = m.raidList := rfl

@[simp] theorem queued_setRaid {raid : RecordRaid} {k' : Int} : (m.setRaid k' raid).queued k q = m.queued k q := rfl

theorem not_onQueue (h : file.sysFd ≤ -1) : ¬ file.OnQueue k q := fun hon => by
  have := hon.1
  omega

theorem onQueue_iff (h : -1 < file.sysFd) : file.OnQueue k q ↔ file.raidIndex = k ∧ file.ioQueueIndex = q :=
  and_iff_right h

/-- A file leaves its queue, and the new one comes to its own. -/
theorem queued_setFile (hv : v < recordMaxLensNum) :
    (m.setFile v file).queued k q + (if (m.fileList v).OnQueue k q then 1 else 0) =
      m.queued k q + if file.OnQueue k q then 1 else 0 := by
  have hcount := @countP_update Nat VFile _ (List.range recordMaxLensNum) m.fileList v file
    (fun file => decide (file.OnQueue k q)) List.nodup_range (List.mem_range.mpr hv)
  simp only [decide_eq_true_eq] at hcount
  exact hcount

theorem queued_setFile_open (hv : v < recordMaxLensNum) (hclosed : (m.fileList v).sysFd ≤ -1)
    (hopen : -1 < file.sysFd) : (m.setFile v file).queued k q =
      m.queued k q + if file.raidIndex = k ∧ file.ioQueueIndex = q then 1 else 0 := by
  have hcount := @queued_setFile m v k q file hv
  rw [if_neg (not_onQueue hclosed), Nat.add_zero] at hcount
  simp only [onQueue_iff hopen] at hcount
  exact hcount

theorem queued_setFile_closed (hv : v < recordMaxLensNum) (hclosed : file.sysFd ≤ -1) :
    (m.setFile v file).queued k q + (if (m.fileList v).OnQueue k q then 1 else 0) = m.queued k q := by
  have hcount := @queued_setFile m v k q file hv
  rwa [if_neg (not_onQueue hclosed), Nat.add_zero] at hcount

/-- If the raid `i` has a group, its load table counts its open files by their threads. -/
def CountsRaid (c : DiskConfig) (m : DiskManager) (i : Nat) : Prop :=
  0 ≤ (m.raidList i).outputThreadStartId → ∀ j < c.outputThreadNumPerRaid,
    ((m.raidList i).outputThreadLoad j).toNat = m.queued i ((m.raidList i).outputThreadStartId + j)

def Loads (c : DiskConfig) (m : DiskManager) : Prop := ∀ i < m.raidTotal, m.CountsRaid c i

/-- Where the files that come to and go from each queue are counted, the tables still count the open files. -/
theorem Loads.of_change (h : m.Loads c) (come go : Int → Int → Nat) (htotal : m'.raidTotal = m.raidTotal)
    (hstart : ∀ i : Int, (m'.raidList i).outputThreadStartId = (m.raidList i).outputThreadStartId)
    (hload : ∀ i < m.raidTotal, ∀ j < c.outputThreadNumPerRaid, ((m.raidList i).outputThreadLoad j).toNat =
        m.queued i ((m.raidList i).outputThreadStartId + j) →
      ((m'.raidList i).outputThreadLoad j).toNat + go i ((m.raidList i).outputThreadStartId + j) =
        ((m.raidList i).outputThreadLoad j).toNat + come i ((m.raidList i).outputThreadStartId + j))
    (hqueued : ∀ k q, m'.queued k q + go k q = m.queued k q + come k q) : m'.Loads c := by
  intro i hi hgroup j hj
  rw [htotal] at hi
  rw [hstart] at hgroup ⊢
  have hbefore := h i hi hgroup j hj
  have hentry := hload i hi j hj hbefore
  have hfiles := hqueued i ((m.raidList i).outputThreadStartId + j)
  omega

theorem Loads.congr (h : m.Loads c) (htotal : m'.raidTotal = m.raidTotal)
    (hraid : ∀ i : Int, (m'.raidList i).outputThreadStartId = (m.raidList i).outputThreadStartId ∧
      (m'.raidList i).outputThreadLoad = (m.raidList i).outputThreadLoad)
    (hfile : ∀ v k q, (m'.fileList v).OnQueue k q ↔ (m.fileList v).OnQueue k q) : m'.Loads c := by
  refine h.of_change (fun _ _ => 0) (fun _ _ => 0) htotal (fun i => (hraid i).1) ?_ ?_
  · intro i _ j _ _
    rw [(hraid i).2]
  · intro k q
    rw [queued_congr fun v => hfile v k q]

theorem Reloaded.start {raidList : Int → RecordRaid} (h : m.Reloaded raidList) (i : Int) :
    (raidList i).outputThreadStartId = (m.raidList i).outputThreadStartId ∧
      (raidList i).outputThreadLoad = (m.raidList i).outputThreadLoad := by
  obtain ⟨load, heq⟩ := h i
  rw [heq]
  exact ⟨rfl, rfl⟩

/-- One file more is counted without an overflow. -/
theorem toNat_add_one {x : UInt32} {n : Nat} (h : x.toNat = n) (hn : n ≤ recordMaxLensNum) :
    (x + 1).toNat = x.toNat + 1 := by
  unfold recordMaxLensNum at hn
  rw [UInt32.toNat_add, show (1 : UInt32).toNat = 1 from rfl, Nat.mod_eq_of_lt (by omega)]

/-- One file less is counted as long as there is one. -/
theorem toNat_sub_one {x : UInt32} {n : Nat} (h : x.toNat = n) (hn : 0 < n) :
    (x - 1).toNat + 1 = x.toNat := by
  have hle : (1 : UInt32) ≤ x := by
    rw [UInt32.le_iff_toNat_le, show (1 : UInt32).toNat = 1 from rfl]
    omega
  rw [UInt32.toNat_sub_of_le x 1 hle, show (1 : UInt32).toNat = 1 from rfl]
  omega

/-- The open of a file that is not open is counted. -/
theorem Loads.openFile {vfd vfd' : Int} {r : DiskRet} {cameraId : Nat} {createDir : Option FileErr}
    {createFile : Except FileErr Nat} (h : m.Loads c)
    (hopening : m.Opening c cameraId vfd createDir createFile m' vfd' r)
    (hclosed : ∀ v cursor, m.Slot vfd v cursor → (m.fileList v).sysFd ≤ -1) : m'.Loads c := by
  cases hopening with
  | refused _ _ => exact h
  | noRaid _ hload _ => exact h.congr rfl hload.start fun _ _ _ => Iff.rfl
  | @failed v cursor raidList k q d e hslot hload _ _ =>
    have hfd := hclosed v cursor hslot
    refine h.congr rfl hload.start fun w k' q' => ?_
    by_cases hw : w = v
    · subst hw
      rw [fileList_setFile]
      exact iff_of_false (not_onQueue hfd) (not_onQueue hfd)
    · rw [fileList_setFile_of_ne hw]
  | @done v cursor fd raidList k q d r hslot hload _ _ _ _ =>
    have hfd := hclosed v cursor hslot
    obtain ⟨cameraMap, cameraNum, hraid⟩ := @increaseCameraNum_eq c (raidList k) q cameraId
    rw [hraid]
    refine h.of_change (fun k' q' => if k = k' ∧ q = q' then 1 else 0) (fun _ _ => 0) rfl (fun i => ?_) ?_ ?_
    · rw [raidList_setRaid, raidList_setFile]
      split_ifs with hi
      · subst hi
        exact outputThreadStartId_changeLoad.trans (hload.start i).1
      · exact (hload.start i).1
    · intro i _ j hj hbefore
      obtain ⟨hstart, htable⟩ := hload.start i
      rw [raidList_setRaid, raidList_setFile]
      by_cases hi : (i : Int) = k
      · subst hi
        rw [if_pos rfl]
        dsimp only
        rw [outputThreadLoad_changeLoad hj, hstart]
        by_cases hq : (m.raidList i).outputThreadStartId + j = q
        · subst hq
          have hentry : (raidList i).loadOf ((m.raidList i).outputThreadStartId + j) =
              (m.raidList i).outputThreadLoad j := by
            unfold loadOf
            rw [htable, hstart]
            congr 1
            omega
          rw [if_pos rfl, if_pos ⟨rfl, rfl⟩, hentry, toNat_add_one hbefore queued_le]
        · rw [if_neg hq, if_neg fun heq => hq heq.2.symm, htable]
      · rw [if_neg hi, if_neg fun heq => hi heq.1.symm, htable]
    · intro k' q'
      rw [queued_setRaid, Nat.add_zero]
      refine queued_setFile_open hslot.lt hfd ?_
      dsimp only
      omega

/-- The close of a file is counted. -/
theorem Loads.closeFile (h : m.Loads c) (vfd : Int) (ret : DiskRet) : (m.closeFile c vfd ret).1.Loads c := by
  unfold DiskManager.closeFile
  dsimp only
  split_ifs with hrange hclosed
  · exact h
  · exact h
  obtain ⟨v, rfl⟩ := Int.eq_ofNat_of_zero_le (show 0 ≤ vfd by omega)
  rw [Int.toNat_natCast] at hclosed ⊢
  have hv : v < recordMaxLensNum := by omega
  have hopen : -1 < (m.fileList v).sysFd := by omega
  generalize hk : (m.fileList v).raidIndex = k
  generalize hq : (m.fileList v).ioQueueIndex = q
  obtain ⟨cameraMap, cameraNum, hraid⟩ := @decreaseCameraNum_eq c (m.raidList k) q (m.fileList v).cameraId
  rw [hraid]
  refine h.of_change (fun _ _ => 0) (fun k' q' => if (m.fileList v).OnQueue k' q' then 1 else 0) rfl
    (fun i => ?_) ?_ fun k' q' => ?_
  · rw [raidList_setFile, raidList_setRaid]
    split_ifs with hi
    · subst hi
      exact outputThreadStartId_changeLoad
    · rfl
  · intro i _ j hj hbefore
    rw [raidList_setFile, raidList_setRaid]
    have hon : (m.fileList v).OnQueue i ((m.raidList i).outputThreadStartId + j) ↔
        (i : Int) = k ∧ (m.raidList i).outputThreadStartId + j = q := by
      rw [onQueue_iff hopen, hk, hq, eq_comm, eq_comm (a := q)]
    by_cases hi : (i : Int) = k
    · subst hi
      rw [if_pos rfl]
      dsimp only
      rw [outputThreadLoad_changeLoad hj]
      by_cases hthread : (m.raidList i).outputThreadStartId + j = q
      · have hcounted := queued_pos hv (hon.mpr ⟨rfl, hthread⟩)
        have hentry : (m.raidList i).loadOf q = (m.raidList i).outputThreadLoad j := by
          unfold loadOf
          congr 1
          omega
        rw [if_pos hthread, if_pos (hon.mpr ⟨rfl, hthread⟩), hentry, toNat_sub_one hbefore hcounted]
        rfl
      · rw [if_neg hthread, if_neg fun h => hthread (hon.mp h).2]
    · rw [if_neg hi, if_neg fun h => hi (hon.mp h).1]
  · rw [Nat.add_zero]
    exact queued_setFile_closed hv (Int.le_refl (-1))

variable {flag : Nat → DiskErr} {i : Nat}

/-- If the raid `i` gets a group in a check, none of its open files is on a queue of that group. -/
def GetsClear (c : DiskConfig) (m : DiskManager) (flag : Nat → DiskErr) (i : Nat) : Prop :=
  (m.raidList i).outputThreadStartId < 0 → (m.raidList i).Usable flag →
    ∀ start ∈ m.freeOutputThreadIndexList.head?, ∀ v < recordMaxLensNum, ∀ j < c.outputThreadNumPerRaid,
      ¬ (m.fileList v).OnQueue i (start + j)

theorem queued_checkRaid : (m.checkRaid c flag i).queued k q = m.queued k q := by
  refine queued_congr fun v => ?_
  obtain ⟨hfd, hraid, hqueue, -⟩ := checkRaid_keeps c m flag i v
  unfold VFile.OnQueue
  rw [hfd, hraid, hqueue]

theorem queued_eq_zero : m.queued k q = 0 ↔ ∀ v < recordMaxLensNum, ¬ (m.fileList v).OnQueue k q := by
  unfold queued
  rw [List.countP_eq_zero]
  simp only [List.mem_range, decide_eq_true_eq]

/-- A check of the raid `i` keeps its table right exactly if the group that the raid gets is clear. -/
theorem countsRaid_checkRaid (h : m.CountsRaid c i) (hdisk : (m.raidList i).DiskInRange) :
    (m.checkRaid c flag i).CountsRaid c i ↔ m.GetsClear c flag i := by
  have hqueued (j : Nat) {start : Int} : (m.checkRaid c flag i).queued i (start + j) = m.queued i (start + j) :=
    queued_checkRaid
  obtain ⟨raid, freeList, fileList, hsel, -, heq⟩ := checkRaid_eq c m flag i
  have hraid : ∃ cap, (m.checkRaid c flag i).raidList i = { raid with capacityCameraNum := cap } := by
    rw [heq]
    exact ⟨_, Function.update_self ..⟩
  obtain ⟨cap, hraid⟩ := hraid
  unfold CountsRaid at h ⊢
  unfold GetsClear
  rw [hraid]
  simp only [hqueued]
  cases hsel with
  | unchanged hnone =>
    refine iff_of_true h fun _ husable => ?_
    obtain ⟨d, hd, -⟩ := husable
    omega
  | kept d e _ _ hstart => exact iff_of_true h fun hneg => by omega
  | noGroup d _ hneg hfree =>
    refine iff_of_true (fun hstart => by dsimp only at hstart; omega) fun _ _ start hhead => ?_
    rw [hfree] at hhead
    cases hhead
  | taken d e start rest hfound _ hneg hfree =>
    dsimp only
    rw [hfree]
    have husable := (hfound hdisk).2
    constructor
    · intro hzero _ _ start' hhead v hv j hj
      obtain rfl := Option.some.inj hhead
      exact queued_eq_zero.mp (hzero (by omega) j hj).symm v hv
    · intro hclear _ j hj
      exact (queued_eq_zero.mpr fun v hv => hclear hneg husable start rfl v hv j hj).symm
  | freed d _ hstart =>
    exact iff_of_true (fun hnone => by dsimp only at hnone; omega) fun hneg => by omega
  | full d hfound hneg =>
    exact iff_of_true (fun hstart => by dsimp only at hstart; omega) fun _ husable => absurd husable hfound.2

theorem loads_checkRaid (h : m.Loads c) (hi : i < m.raidTotal) (hdisk : (m.raidList i).DiskInRange) :
    (m.checkRaid c flag i).Loads c ↔ m.GetsClear c flag i := by
  rw [← countsRaid_checkRaid (h i hi) hdisk]
  unfold Loads
  rw [raidTotal_checkRaid]
  refine ⟨fun hall => hall i hi, fun hone j hj => ?_⟩
  by_cases hji : j = i
  · subst hji
    exact hone
  · have hsame : (m.checkRaid c flag i).raidList j = m.raidList j := by
      obtain ⟨raid, freeList, fileList, -, -, heq⟩ := checkRaid_eq c m flag i
      rw [heq]
      exact Function.update_of_ne (by omega) ..
    intro hstart t ht
    rw [hsame] at hstart ⊢
    rw [queued_checkRaid]
    exact h j hj hstart t ht

/-- The queue of the file in the slot `v` is one of the group of its raid. -/
def QueueInGroup (c : DiskConfig) (m : DiskManager) (v : Nat) : Prop :=
  (m.raidList (m.fileList v).raidIndex).InGroup c (m.fileList v).ioQueueIndex

instance : Decidable (m.QueueInGroup c v) := inferInstanceAs (Decidable (RecordRaid.InGroup _ _ _))

/-- No raid has a current disk outside of its list. -/
def DisksInRange (m : DiskManager) : Prop := ∀ i < m.raidTotal, (m.raidList i).DiskInRange

variable {vfd vfd' : Int} {r : DiskRet} {cameraId : Nat} {createDir : Option FileErr}
  {createFile : Except FileErr Nat}

theorem Reloaded.diskInRange {raidList : Int → RecordRaid} (h : m.Reloaded raidList) {i : Int} :
    (raidList i).DiskInRange ↔ (m.raidList i).DiskInRange := by
  obtain ⟨load, heq⟩ := h i
  rw [heq]
  exact Iff.rfl

theorem DisksInRange.openFile (h : m.DisksInRange)
    (hopening : m.Opening c cameraId vfd createDir createFile m' vfd' r) : m'.DisksInRange := by
  cases hopening with
  | refused _ _ => exact h
  | noRaid _ hload _ => exact fun i hi => hload.diskInRange.mpr (h i hi)
  | failed _ hload _ _ => exact fun i hi => hload.diskInRange.mpr (h i hi)
  | @done v cursor fd raidList k q d r _ hload _ _ _ _ =>
    intro i hi
    rw [raidList_setRaid, raidList_setFile]
    split_ifs with hik
    · subst hik
      obtain ⟨cameraMap, cameraNum, hraid⟩ := @increaseCameraNum_eq c (raidList i) q cameraId
      rw [hraid]
      exact diskInRange_changeLoad.mpr (hload.diskInRange.mpr (h i hi))
    · exact hload.diskInRange.mpr (h i hi)

theorem DisksInRange.closeFile (h : m.DisksInRange) (vfd : Int) (ret : DiskRet) :
    (m.closeFile c vfd ret).1.DisksInRange := by
  unfold DiskManager.closeFile
  dsimp only
  split_ifs
  · exact h
  · exact h
  intro i hi
  rw [raidList_setFile, raidList_setRaid]
  split_ifs with hik
  · rw [← hik]
    obtain ⟨cameraMap, cameraNum, hraid⟩ := @decreaseCameraNum_eq c (m.raidList i)
      (m.fileList vfd.toNat).ioQueueIndex (m.fileList vfd.toNat).cameraId
    rw [hraid]
    exact diskInRange_changeLoad.mpr (h i hi)
  · exact h i hi

theorem DisksInRange.checkRaid (h : m.DisksInRange) (hi : i < m.raidTotal) :
    (m.checkRaid c flag i).DisksInRange := by
  intro j hj
  rw [raidTotal_checkRaid] at hj
  obtain ⟨raid, freeList, fileList, hsel, -, heq⟩ := checkRaid_eq c m flag i
  rw [heq]
  dsimp only
  rw [raidList_update]
  split_ifs
  · exact hsel.diskInRange (h i hi)
  · exact h j hj

end DiskManager

namespace DiskSystem

open DiskManager

/-- A caller closes its file before it opens the next one and before it frees its vfd. -/
def ClosesFirst (s : DiskSystem) : Act → Prop
  | .openFile caller .. | .freeVfd caller =>
    0 ≤ s.vfd caller → (s.manager.fileList (s.vfd caller).toNat).sysFd ≤ -1
  | .closeFile .. | .checkRaid .. => True

/-- A file that was opened is on a queue of the group of its raid. -/
def QueueOk (c : DiskConfig) (s : DiskSystem) : Act → Prop
  | .openFile caller cameraId loads createDir createFile =>
    let o := s.manager.openFile c cameraId (s.vfd caller) loads createDir createFile
    o.2.2.Succeeded → o.1.QueueInGroup c o.2.1.toNat
  | _ => True

/-- The entry that the close of a file decrements is not zero. -/
def NoUnderflow (c : DiskConfig) (s : DiskSystem) : Act → Prop
  | .closeFile caller _ =>
    let file := s.manager.fileList (s.vfd caller).toNat
    0 ≤ s.vfd caller → -1 < file.sysFd → s.manager.QueueInGroup c (s.vfd caller).toNat →
      0 < (s.manager.raidList file.raidIndex).loadOf file.ioQueueIndex
  | _ => True

/-- What is asked of a step. -/
structure Accounted (c : DiskConfig) (s : DiskSystem) (a : Act) : Prop where
  queue : s.QueueOk c a
  loads : (s.step c keepsOpened a).manager.Loads c
  decrement : s.NoUnderflow c a

/-- A file that is opened again on its raid is on a queue of the group that the raid has, and no raid gets a group
with an open file of its own. -/
def Steady (c : DiskConfig) (s : DiskSystem) : Act → Prop
  | .openFile caller _ _ createDir createFile =>
    let file := s.manager.fileList (s.vfd caller).toNat
    0 ≤ s.vfd caller → (s.manager.raidList file.raidIndex).raidErrType.value < DiskErr.raidFull.value →
      createDir = none → (∃ fd, createFile = .ok fd) → s.manager.QueueInGroup c (s.vfd caller).toNat
  | .checkRaid i flag => i < s.manager.raidTotal → s.manager.GetsClear c flag i
  | _ => True

structure Ready (c : DiskConfig) (s : DiskSystem) : Prop where
  held : s.Held
  disks : s.manager.DisksInRange
  loads : s.manager.Loads c

variable {c : DiskConfig} {s : DiskSystem} {a : Act} {caller cameraId : Nat} {loads : Nat → Option Int}
  {createDir : Option FileErr} {createFile : Except FileErr Nat}

theorem ClosesFirst.calls (h : s.ClosesFirst a) : s.Calls a := by
  cases a with
  | freeVfd caller => exact h
  | openFile _ _ _ _ _ => trivial
  | closeFile _ _ => trivial
  | checkRaid _ _ => trivial

theorem queueOk_openFile (h : s.Held) :
    s.QueueOk c (.openFile caller cameraId loads createDir createFile) ↔
      s.Steady c (.openFile caller cameraId loads createDir createFile) := by
  have hopening := openFile_opening c s.manager cameraId (s.vfd caller) loads createDir createFile
  have htaken := h.taken caller
  unfold QueueOk Steady
  dsimp only
  generalize s.manager.openFile c cameraId (s.vfd caller) loads createDir createFile = o at hopening ⊢
  obtain ⟨m', v', r⟩ := o
  generalize s.vfd caller = vfd at hopening htaken ⊢
  dsimp only at hopening ⊢
  cases hopening with
  | refused hvfd hr =>
    refine iff_of_true (fun hr' => absurd hr' hr) fun hnonneg => ?_
    have hlt := (htaken hnonneg).lt
    omega
  | noRaid _ _ hfresh =>
    refine iff_of_true (fun hr => absurd hr (by decide)) fun hnonneg husable => ?_
    have hfull := hfresh hnonneg
    omega
  | failed _ _ _ hcreate =>
    refine iff_of_true (fun hr => by unfold DiskRet.Succeeded at hr; simp at hr) ?_
    rintro - - rfl ⟨fd, rfl⟩
    rcases hcreate with hcreate | hcreate <;> cases hcreate
  | @done v cursor fd raidList k q d r _ hload hchosen hr hdir hfile =>
    have hgroup : (DiskManager.setRaid (DiskManager.setFile { s.manager with vfdCursor := cursor, raidList } v
        { ioQueueIndex := q, sysFd := fd, raidIndex := k, diskIndex := d, cameraId, vfdStatus := .usable }) k
          ((raidList k).increaseCameraNum c cameraId q)).QueueInGroup c v ↔ (s.manager.raidList k).InGroup c q := by
      unfold QueueInGroup
      rw [fileList_setRaid, fileList_setFile, raidList_setRaid, if_pos rfl]
      obtain ⟨cameraMap, cameraNum, hraid⟩ := @RecordRaid.increaseCameraNum_eq c (raidList k) q cameraId
      rw [hraid]
      exact RecordRaid.inGroup_congr (RecordRaid.outputThreadStartId_changeLoad.trans (hload.start k).1)
    rw [Int.toNat_natCast, hgroup]
    cases hchosen with
    | new hfresh _ hin =>
      refine iff_of_true (fun _ => hin) fun hnonneg husable => ?_
      have hfull := hfresh hnonneg
      omega
    | stay hv husable =>
      subst hv
      rw [Int.toNat_natCast]
      exact ⟨fun h _ _ _ _ => h hr, fun h _ => h (by omega) husable hdir ⟨fd, hfile⟩⟩

theorem loads_openFile (h : s.Ready c)
    (hcalls : s.ClosesFirst (.openFile caller cameraId loads createDir createFile)) :
    (s.step c keepsOpened (.openFile caller cameraId loads createDir createFile)).manager.Loads c := by
  refine h.loads.openFile (openFile_opening c s.manager cameraId (s.vfd caller) loads createDir createFile) ?_
  intro v cursor hslot
  generalize hvfd : s.vfd caller = vfd at hslot
  cases hslot with
  | first _ hfind => exact h.held.closed v (findVfd_eq_some hfind).2
  | again _ =>
    have hclosed := hcalls (by omega)
    rwa [hvfd, Int.toNat_natCast] at hclosed

theorem noUnderflow_closeFile (h : s.Ready c) {ret : DiskRet} : s.NoUnderflow c (.closeFile caller ret) := by
  intro hnonneg hopen hgroup
  obtain ⟨hv, -, hraid, hlt⟩ := h.held.taken caller hnonneg
  unfold QueueInGroup at hgroup
  generalize hfile : s.manager.fileList (s.vfd caller).toNat = file at hopen hgroup hraid hlt ⊢
  obtain ⟨i, hi⟩ := Int.eq_ofNat_of_zero_le hraid
  rw [hi] at hgroup hlt ⊢
  obtain ⟨hstart, hle, hend⟩ := hgroup
  -- the file itself is counted by the entry
  have hon : (s.manager.fileList (s.vfd caller).toNat).OnQueue i file.ioQueueIndex := by
    rw [hfile]
    exact ⟨hopen, hi, rfl⟩
  have hpos := queued_pos hv hon
  unfold RecordRaid.loadOf
  generalize hj : (file.ioQueueIndex - (s.manager.raidList i).outputThreadStartId).toNat = j
  have hentry := h.loads i (by omega) hstart j (by omega)
  rw [show (s.manager.raidList i).outputThreadStartId + (j : Int) = file.ioQueueIndex by omega] at hentry
  rw [UInt32.lt_iff_toNat_lt, hentry]
  exact hpos

theorem loads_freeVfd (h : s.Ready c) : (s.step c keepsOpened (.freeVfd caller)).manager.Loads c := by
  unfold step DiskManager.freeVfd
  dsimp only
  split_ifs
  · exact h.loads
  refine h.loads.congr rfl (fun _ => ⟨rfl, rfl⟩) fun v k q => ?_
  by_cases hv : v = (s.vfd caller).toNat
  · subst hv
    rw [fileList_setFile]
    exact Iff.rfl
  · rw [fileList_setFile_of_ne hv]

/-- Exactly the steady steps keep the account. -/
theorem accounted_iff (h : s.Ready c) (hcalls : s.ClosesFirst a) : s.Accounted c a ↔ s.Steady c a := by
  cases a with
  | openFile caller cameraId loads createDir createFile =>
    rw [← queueOk_openFile h.held]
    exact ⟨fun ha => ha.queue, fun hqueue => ⟨hqueue, loads_openFile h hcalls, trivial⟩⟩
  | closeFile caller ret =>
    exact iff_of_true ⟨trivial, h.loads.closeFile _ ret, noUnderflow_closeFile h⟩ trivial
  | freeVfd caller => exact iff_of_true ⟨trivial, loads_freeVfd h, trivial⟩ trivial
  | checkRaid i flag =>
    have hloads : (s.step c keepsOpened (.checkRaid i flag)).manager.Loads c ↔ s.Steady c (.checkRaid i flag) := by
      unfold step Steady
      dsimp only
      by_cases hi : i < s.manager.raidTotal
      · rw [if_pos hi, loads_checkRaid h.loads hi (h.disks i hi)]
        exact ⟨fun hclear _ => hclear, fun hclear => hclear hi⟩
      · rw [if_neg hi]
        exact iff_of_true h.loads fun hlt => absurd hlt hi
    exact ⟨fun ha => hloads.mp ha.loads, fun hsteady => ⟨trivial, hloads.mpr hsteady, trivial⟩⟩

theorem Ready.step (h : s.Ready c) (hcalls : s.ClosesFirst a) (ha : s.Accounted c a) :
    (s.step c keepsOpened a).Ready c := by
  refine ⟨h.held.step hcalls.calls, ?_, ha.loads⟩
  cases a with
  | openFile caller cameraId loads createDir createFile =>
    exact h.disks.openFile (openFile_opening c s.manager cameraId (s.vfd caller) loads createDir createFile)
  | closeFile caller ret => exact h.disks.closeFile _ ret
  | freeVfd caller =>
    unfold DiskSystem.step DiskManager.freeVfd
    dsimp only
    split_ifs
    · exact h.disks
    · exact h.disks
  | checkRaid i flag =>
    unfold DiskSystem.step
    dsimp only
    split_ifs with hi
    · exact h.disks.checkRaid hi
    · exact h.disks

theorem opened_ready (c : DiskConfig) (memory : Int → RecordRaid) (disks : List Nat) :
    (opened c memory disks).Ready c := by
  have hraid {i : Nat} (hi : i < disks.length) : (opened c memory disks).manager.raidList i =
      { RecordRaid.new.init with diskTotal := disks.getD i 0 } := DiskManager.raidList_opened hi
  refine ⟨opened_held c memory disks, fun i hi => ?_, fun i hi hstart => ?_⟩
  · rw [hraid hi]
    exact show (-1 : Int) < (disks.getD i 0 : Nat) by omega
  · rw [hraid hi] at hstart
    exact absurd hstart (show ¬ (0 : Int) ≤ -1 by decide)

/-- In every interleaving of the callers and the checks, the queues of the files that are opened, the load tables
and their decrements are right exactly if all steps are steady. -/
theorem run_accounted (c : DiskConfig) (memory : Int → RecordRaid) (disks : List Nat) (acts : List Act)
    (hcalls : Allowed (step c keepsOpened) ClosesFirst (opened c memory disks) acts) :
    Allowed (step c keepsOpened) (Accounted c) (opened c memory disks) acts ↔
      Allowed (step c keepsOpened) (Steady c) (opened c memory disks) acts :=
  hcalls.congr (opened_ready c memory disks) (fun _ _ h ha => accounted_iff h ha) fun _ _ h ha => h.step ha

instance : Decidable (s.ClosesFirst a) :=
  match a with
  | .openFile caller .. | .freeVfd caller =>
    inferInstanceAs (Decidable (0 ≤ s.vfd caller → (s.manager.fileList (s.vfd caller).toNat).sysFd ≤ -1))
  | .closeFile .. | .checkRaid .. => inferInstanceAs (Decidable True)

/-- A file is closed and opened again while its raid keeps its group. -/
theorem run_accounted_reopened :
    let acts := [.checkRaid 0 fun _ => .ok, openBy 0 none, .closeFile 0 .ok, openBy 0 none, .checkRaid 0 fun _ => .ok]
    Allowed (step oneGroup keepsOpened) ClosesFirst oneRaid acts ∧
      Allowed (step oneGroup keepsOpened) (Accounted oneGroup) oneRaid acts := by
  intro acts
  have hcalls : Allowed (step oneGroup keepsOpened) ClosesFirst oneRaid acts := by decide
  refine ⟨hcalls, (run_accounted oneGroup (fun _ => RecordRaid.new) [1] acts hcalls).mpr ?_⟩
  refine ⟨fun _ _ _ _ _ v _ j _ hon => absurd hon.1 (show ¬ (-1 : Int) < -1 by decide),
    fun hnonneg => absurd hnonneg (by decide), trivial, fun _ _ _ _ => by decide,
    fun _ hneg => absurd hneg (by decide), trivial⟩

/-- Two groups of two threads. -/
def twoGroups : DiskConfig where
  outputThreadNumPerRaid := 2
  syncWorkRaidGroupNum := 2
  maxLensPerRaid := 2
  thread_range := oneGroup.thread_range
  group_range := by decide
  lens_range := oneGroup.lens_range

/-- A raid becomes full while a file is open, and gets its group back: the close of the file decrements a zero.
And a file is opened again on its raid after that has got the other group: it stays on its old queue. -/
theorem not_accounted_full_again :
    (¬ ∀ acts, Allowed (step oneGroup keepsOpened) ClosesFirst oneRaid acts →
        Allowed (step oneGroup keepsOpened) (Accounted oneGroup) oneRaid acts) ∧
      ¬ ∀ acts, Allowed (step twoGroups keepsOpened) ClosesFirst (opened twoGroups (fun _ => RecordRaid.new) [1]) acts →
        Allowed (step twoGroups keepsOpened) (Accounted twoGroups) (opened twoGroups (fun _ => RecordRaid.new) [1])
          acts := by
  constructor
  · intro h
    obtain ⟨-, -, -, -, hclose, -⟩ := h [.checkRaid 0 fun _ => .ok, openBy 0 none, .checkRaid 0 fun _ => .diskFull,
      .checkRaid 0 fun _ => .ok, .closeFile 0 .ok] (by decide)
    exact absurd (hclose.decrement (by decide) (by decide) (by decide)) (by decide)
  · intro h
    obtain ⟨-, -, -, -, -, hopen, -⟩ := h [.checkRaid 0 fun _ => .ok, openBy 0 none, .closeFile 0 .ok,
      .checkRaid 0 fun _ => .diskFull, .checkRaid 0 fun _ => .ok, openBy 0 none] (by decide)
    exact absurd (hopen.queue (by decide)) (by decide)

end DiskSystem

end AllCamera
