import Mathlib.Logic.Function.Basic
import Mathlib.Tactic.Common
import Mathlib.Data.UInt

/-!
# The record disks (`SVS_Disk_Manager`, `CAC_Record_Raid`)

Cameras are recorded to raids of disks. A raid that can be written to has a group of output threads, and
the group is taken from a list of the free ones. A file is a slot (vfd) of a table; it is written by one
thread of the group of its raid.

* `RecordRaid`: `selectDisk` chooses the disk and gets or frees the group; `increaseCameraNum`,
  `decreaseCameraNum` count the files of each thread.
* `DiskManager`: `periodCheckRaid`, `allocDisk`, `openFile`, `closeFile`, `freeVfd`.
* `DiskSystem`: the manager and its callers, each with its vfd; `Act`, `step`.

What the disks answer is an argument: their flags after `statistics`, the loads that `countRaidLoad` sets (it
computes them with floats), the results of `createDir` and `createFile`. `m_raidList` is memory by its index,
what lies outside of it included.
-/

namespace AllCamera

/-- `RECORD_MAX_LENS_NUM`. -/
def recordMaxLensNum : Nat := 2000

/-- `SVS_DISK_ERR_TYPE`. -/
inductive DiskErr
  | ok
  | diskAlarmResume
  | raidAlarmResume
  | diskAlarm
  | raidAlarm
  | diskFull
  | raidFull
  | diskBad
  | diskMountOffline
  | diskFsInvalid
  | diskFsReadonly
  | diskOfflineConf
  | raidNoOutputThread
  deriving DecidableEq, Repr

/-- The number of the error; the source compares them by it. -/
def DiskErr.value : DiskErr → Nat
  | .ok => 0
  | .diskAlarmResume => 1
  | .raidAlarmResume => 2
  | .diskAlarm => 3
  | .raidAlarm => 4
  | .diskFull => 5
  | .raidFull => 6
  | .diskBad => 7
  | .diskMountOffline => 8
  | .diskFsInvalid => 9
  | .diskFsReadonly => 10
  | .diskOfflineConf => 11
  | .raidNoOutputThread => 12

/-- `VFD_STATUS`. -/
inductive VfdStatus
  | free
  | usable
  | switchFile
  | unusable
  deriving DecidableEq, Repr

/-- What `createDir` and `createFile` fail with. -/
inductive FileErr
  | param
  | ioerr
  | nospace
  | fsreadonly
  | diskfault
  | statfile
  deriving DecidableEq, Repr

/-- The results of `openFile` and `closeFile`; `queue` is the one of a full io queue. -/
inductive DiskRet
  | ok
  | changedisk
  | param
  | nofile
  | novfd
  | noraid
  | queue
  | file (e : FileErr)
  deriving DecidableEq, Repr

/-- What the disk manager reads of the configuration, with the ranges that the configuration is checked for. -/
structure DiskConfig where
  outputThreadNumPerRaid : Nat
  syncWorkRaidGroupNum : Nat
  maxLensPerRaid : Nat
  thread_range : 2 ≤ outputThreadNumPerRaid ∧ outputThreadNumPerRaid ≤ 32
  group_range : 1 ≤ syncWorkRaidGroupNum ∧ syncWorkRaidGroupNum ≤ 64
  lens_range : 1 ≤ maxLensPerRaid ∧ maxLensPerRaid ≤ recordMaxLensNum

/-! ## A raid -/

/-- `CAC_Record_Raid`; the keys of `camera_map_` are a list. -/
structure RecordRaid where
  diskTotal : Nat
  outputDisk : Int
  raidErrType : DiskErr
  cameraMap : List Nat
  cameraNum : Int
  capacityCameraNum : Int
  raidLoad : Int
  outputThreadStartId : Int
  outputThreadLoad : Nat → UInt32

namespace RecordRaid

/-- The constructor. -/
def new : RecordRaid where
  diskTotal := 0
  outputDisk := -1
  raidErrType := .ok
  cameraMap := []
  cameraNum := 0
  capacityCameraNum := 0
  raidLoad := 0
  outputThreadStartId := -1
  outputThreadLoad := fun _ => 0

def init (raid : RecordRaid) : RecordRaid :=
  { raid with raidLoad := 0, diskTotal := 0, outputDisk := -1, raidErrType := .raidFull }

/-- `allocOutputThread` and, in it, `allocOutputThreadIndex` of the manager. -/
def allocOutputThread (raid : RecordRaid) (freeList : List Nat) : RecordRaid × List Nat :=
  if 0 ≤ raid.outputThreadStartId then (raid, freeList)
  else
    match freeList with
    | [] => ({ raid with raidErrType := .raidNoOutputThread }, [])
    | threadIndex :: rest =>
      ({ raid with outputThreadLoad := fun _ => 0, outputThreadStartId := threadIndex }, rest)

/-- `freeOutputThread` and, in it, `freeOutputThreadIndex` of the manager. -/
def freeOutputThread (raid : RecordRaid) (freeList : List Nat) : RecordRaid × List Nat :=
  if 0 ≤ raid.outputThreadStartId then
    ({ raid with outputThreadStartId := -1, outputThreadLoad := fun _ => 0 },
      freeList ++ [raid.outputThreadStartId.toNat])
  else (raid, freeList)

/-- A loop of `select_disk`: the first disk from `nStart` to `nEnd` with the flag `wanted`. -/
def findDisk (raid : RecordRaid) (flag : Nat → DiskErr) (nStart nEnd : Nat) (wanted : DiskErr) : Option Nat :=
  ((List.range' nStart (nEnd + 1 - nStart)).map fun m => m % raid.diskTotal).find? fun d => flag d = wanted

/-- `select_disk`. -/
def selectDisk (raid : RecordRaid) (freeList : List Nat) (flag : Nat → DiskErr) (nStart nEnd : Nat) :
    RecordRaid × List Nat :=
  if raid.diskTotal = 0 then (raid, freeList)
  else if 0 ≤ raid.outputDisk ∧ flag raid.outputDisk.toNat = .ok then
    { raid with raidErrType := .ok }.allocOutputThread freeList
  else
    let raid := if raid.outputDisk < 0 then { raid with outputDisk := 0 } else raid
    match raid.findDisk flag nStart nEnd .ok with
    | some d => { raid with outputDisk := d, raidErrType := .ok }.allocOutputThread freeList
    | none =>
      match raid.findDisk flag nStart nEnd .diskAlarmResume with
      | some d => { raid with outputDisk := d, raidErrType := .raidAlarmResume }.allocOutputThread freeList
      | none =>
        match raid.findDisk flag nStart nEnd .diskAlarm with
        | some d => { raid with outputDisk := d, raidErrType := .raidAlarm }.allocOutputThread freeList
        | none => { raid with raidErrType := .raidFull }.freeOutputThread freeList

/-- `getCurrOutputThreadIndex`: the thread of the group with the least load. -/
def getCurrOutputThreadIndex (c : DiskConfig) (raid : RecordRaid) : Option Int :=
  if raid.outputThreadStartId < 0 then none
  else
    let minLoadThreadIndex := (List.range c.outputThreadNumPerRaid).foldl
      (fun least i => if raid.outputThreadLoad i < raid.outputThreadLoad least then i else least) 0
    some (raid.outputThreadStartId + (minLoadThreadIndex : Nat))

/-- The load table with `f` applied to the entry of the thread `ioQueueIndex`, if it is one of the group. -/
def changeLoad (c : DiskConfig) (raid : RecordRaid) (ioQueueIndex : Int) (f : UInt32 → UInt32) : RecordRaid :=
  let threadIndex := ioQueueIndex - raid.outputThreadStartId
  if 0 ≤ threadIndex ∧ threadIndex < c.outputThreadNumPerRaid then
    { raid with
      outputThreadLoad := Function.update raid.outputThreadLoad threadIndex.toNat
        (f (raid.outputThreadLoad threadIndex.toNat)) }
  else raid

/-- `increase_camera_num`. -/
def increaseCameraNum (c : DiskConfig) (raid : RecordRaid) (cameraId : Nat) (ioQueueIndex : Int) : RecordRaid :=
  let raid := raid.changeLoad c ioQueueIndex (· + 1)
  if cameraId ∈ raid.cameraMap then raid
  else { raid with cameraMap := cameraId :: raid.cameraMap, cameraNum := raid.cameraNum + 1 }

/-- `decrease_camera_num`. -/
def decreaseCameraNum (c : DiskConfig) (raid : RecordRaid) (cameraId : Nat) (ioQueueIndex : Int) : RecordRaid :=
  let raid := raid.changeLoad c ioQueueIndex (· - 1)
  if cameraId ∈ raid.cameraMap then
    { raid with cameraMap := raid.cameraMap.erase cameraId, cameraNum := raid.cameraNum - 1 }
  else raid

end RecordRaid

/-! ## The manager -/

/-- `SVS_DISK_VFILE`. -/
structure VFile where
  ioQueueIndex : Int
  sysFd : Int
  raidIndex : Int
  diskIndex : Int
  cameraId : Nat
  vfdStatus : VfdStatus

/-- An entry of the table after `initialize`; the empty camera id is 0. -/
def VFile.new : VFile where
  ioQueueIndex := -1
  sysFd := -1
  raidIndex := -1
  diskIndex := -1
  cameraId := 0
  vfdStatus := .free

/-- `SVS_Disk_Manager`. -/
structure DiskManager where
  raidTotal : Nat
  raidList : Int → RecordRaid
  fileList : Nat → VFile
  vfdCursor : Nat
  freeOutputThreadIndexList : List Nat

namespace DiskManager

/-- The manager after `initialize`, `refreshDiskList` (a raid for each entry of `disks`, the number of its
disks) and `open`; `memory` is what lies around the raids. -/
def opened (c : DiskConfig) (memory : Int → RecordRaid) (disks : List Nat) : DiskManager where
  raidTotal := disks.length
  raidList := fun i =>
    if 0 ≤ i ∧ i < disks.length then { RecordRaid.new.init with diskTotal := disks.getD i.toNat 0 }
    else memory i
  fileList := fun _ => VFile.new
  vfdCursor := 0
  freeOutputThreadIndexList :=
    (List.range c.syncWorkRaidGroupNum).map fun i => i * c.outputThreadNumPerRaid

def setRaid (m : DiskManager) (i : Int) (raid : RecordRaid) : DiskManager :=
  { m with raidList := Function.update m.raidList i raid }

def setFile (m : DiskManager) (vfd : Nat) (file : VFile) : DiskManager :=
  { m with fileList := Function.update m.fileList vfd file }

/-- `notifyExcept`: the open files of the raid have to be switched, or can not be used. -/
def notifyExcept (m : DiskManager) (raidId : Int) (diskErr : DiskErr) : DiskManager :=
  { m with
    fileList := fun v =>
      let file := m.fileList v
      if v < recordMaxLensNum ∧ raidId = file.raidIndex ∧ -1 < file.sysFd then
        { file with
          vfdStatus := if diskErr.value < DiskErr.diskBad.value then .switchFile else .unusable }
      else file }

/-- One pass of the loop of `periodCheckRaid`. -/
def checkRaid (c : DiskConfig) (m : DiskManager) (flag : Nat → DiskErr) (i : Nat) : DiskManager :=
  let raid := m.raidList i
  let nOldRaidErrCode := raid.raidErrType
  let nOldDiskIndex :=
    if raid.outputDisk < 0 ∨ raid.diskTotal ≤ raid.outputDisk then 0 else raid.outputDisk.toNat
  let (raid, freeList) := raid.selectDisk m.freeOutputThreadIndexList flag nOldDiskIndex
    (raid.diskTotal - 1 + nOldDiskIndex)
  let m := { m with freeOutputThreadIndexList := freeList }
  let nNewRaidErrCode := raid.raidErrType
  if DiskErr.raidFull.value ≤ nNewRaidErrCode.value ∧ nOldRaidErrCode ≠ nNewRaidErrCode then
    let m := m.setRaid i { raid with capacityCameraNum := 0 }
    if nOldRaidErrCode.value < DiskErr.raidFull.value then m.notifyExcept i nNewRaidErrCode else m
  else if DiskErr.raidFull.value ≤ nOldRaidErrCode.value ∧
      nNewRaidErrCode.value ≤ DiskErr.raidAlarm.value then
    m.setRaid i { raid with capacityCameraNum := c.maxLensPerRaid }
  else
    let m := m.setRaid i raid
    if (nOldDiskIndex : Int) ≠ raid.outputDisk ∧ nOldDiskIndex < raid.diskTotal then
      m.notifyExcept i (flag nOldDiskIndex)
    else m

/-- `periodCheckRaid`; `flags i d` is the flag of the disk `d` of the raid `i`. -/
def periodCheckRaid (c : DiskConfig) (m : DiskManager) (flags : Nat → Nat → DiskErr) : DiskManager :=
  (List.range m.raidTotal).foldl (fun m i => m.checkRaid c (flags i) i) m

/-- The search of `allocDisk` for a free slot, from the cursor on. -/
def findVfd (m : DiskManager) : Option Nat :=
  ((List.range' m.vfdCursor recordMaxLensNum).find? fun j =>
    (m.fileList (j % recordMaxLensNum)).vfdStatus = .free).map fun j => j % recordMaxLensNum

/-- `countRaidLoad`, where `loads i` is what `set_load` is called with for the raid `i`, if it is. -/
def countRaidLoad (m : DiskManager) (loads : Nat → Option Int) : DiskManager :=
  { m with
    raidList := fun i =>
      if 0 ≤ i ∧ i < m.raidTotal then
        { m.raidList i with raidLoad := (loads i.toNat).getD (m.raidList i).raidLoad }
      else m.raidList i }

/-- The loop of `allocDisk` over the raids: the least loaded one of those that can take a camera. -/
def minCameraRaidIndex (m : DiskManager) : Option Nat :=
  (List.range m.raidTotal).foldl (fun least (i : Nat) =>
    let raid := m.raidList i
    if DiskErr.raidFull.value ≤ raid.raidErrType.value then least
    else if raid.capacityCameraNum ≤ raid.cameraNum then least
    else
      let k := least.getD i
      if raid.raidLoad < (m.raidList k).raidLoad then some i else some k) none

/-- The end of `allocDisk`: a new raid for the slot. -/
def allocRaid (c : DiskConfig) (m : DiskManager) (vFd : Nat) (raidIndex : Int) (loads : Nat → Option Int)
    (isNewDisk : DiskRet) : DiskManager × Int × Int × DiskRet :=
  let m := m.countRaidLoad loads
  match m.minCameraRaidIndex with
  | none => (m, vFd, raidIndex, .noraid)
  | some k =>
    match (m.raidList k).getCurrOutputThreadIndex c with
    | none => (m, vFd, raidIndex, .noraid)
    | some ulThreadIndex =>
      (m.setFile vFd { m.fileList vFd with ioQueueIndex := ulThreadIndex }, vFd, k, isNewDisk)

/-- `allocDisk`; the vfd, the raid and the result. -/
def allocDisk (c : DiskConfig) (m : DiskManager) (vFd raidIndex : Int) (loads : Nat → Option Int) :
    DiskManager × Int × Int × DiskRet :=
  if vFd ≤ -1 then
    match m.findVfd with
    | none => (m, vFd, raidIndex, .novfd)
    | some j => { m with vfdCursor := j + 1 }.allocRaid c j raidIndex loads .ok
  else
    let file := m.fileList vFd.toNat
    let raid := m.raidList file.raidIndex
    if raid.raidErrType.value < DiskErr.raidFull.value then
      (m, vFd, file.raidIndex, if file.diskIndex ≠ raid.outputDisk then .changedisk else .ok)
    else m.allocRaid c vFd.toNat file.raidIndex loads .changedisk

/-- `openFile`; what is written back to the caller's vfd, and the result. -/
def openFile (c : DiskConfig) (m : DiskManager) (cameraId : Nat) (vfd : Int) (loads : Nat → Option Int)
    (createDir : Option FileErr) (createFile : Except FileErr Nat) : DiskManager × Int × DiskRet :=
  if (recordMaxLensNum : Int) ≤ vfd then (m, vfd, .param)
  else
    let (m, vfd, raidIndex, isNewDisk) := m.allocDisk c vfd 0 loads
    if isNewDisk ≠ .ok ∧ isNewDisk ≠ .changedisk then (m, vfd, isNewDisk)
    else
      let raid := m.raidList raidIndex
      let file := { m.fileList vfd.toNat with raidIndex, diskIndex := raid.outputDisk }
      match createDir, createFile with
      | some e, _ => (m.setFile vfd.toNat file, vfd, .file e)
      | none, .error e => (m.setFile vfd.toNat file, vfd, .file e)
      | none, .ok fd =>
        let file := { file with sysFd := fd, vfdStatus := .usable, cameraId }
        ((m.setFile vfd.toNat file).setRaid raidIndex
          (raid.increaseCameraNum c cameraId file.ioQueueIndex), vfd, isNewDisk)

/-- `closeFile`; `ret` is the result of queueing the close. -/
def closeFile (c : DiskConfig) (m : DiskManager) (vFd : Int) (ret : DiskRet) : DiskManager × DiskRet :=
  if vFd < 0 ∨ (recordMaxLensNum : Int) ≤ vFd then (m, .param)
  else
    let file := m.fileList vFd.toNat
    if file.sysFd ≤ -1 then (m, .nofile)
    else
      let raid := m.raidList file.raidIndex
      ((m.setRaid file.raidIndex (raid.decreaseCameraNum c file.cameraId file.ioQueueIndex)).setFile vFd.toNat
        { file with sysFd := -1, vfdStatus := .unusable }, ret)

/-- `freeVfd`. -/
def freeVfd (m : DiskManager) (vfd : Int) : DiskManager :=
  if vfd < 0 ∨ (recordMaxLensNum : Int) ≤ vfd then m
  else m.setFile vfd.toNat { m.fileList vfd.toNat with vfdStatus := .free }

/-- The subscripts of `m_raidList` that `allocDisk` takes from elsewhere than its loops over the raids. -/
def allocDiskRaids (m : DiskManager) (vFd : Int) : List Int :=
  if vFd ≤ -1 then [] else [(m.fileList vFd.toNat).raidIndex]

/-- The same for `openFile`: those of `allocDisk` and, if that succeeds, the raid that it chose. -/
def openFileRaids (c : DiskConfig) (m : DiskManager) (vfd : Int) (loads : Nat → Option Int) : List Int :=
  if (recordMaxLensNum : Int) ≤ vfd then []
  else
    let (_, _, raidIndex, isNewDisk) := m.allocDisk c vfd 0 loads
    m.allocDiskRaids vfd ++ if isNewDisk ≠ .ok ∧ isNewDisk ≠ .changedisk then [] else [raidIndex]

/-- The same for `closeFile`. -/
def closeFileRaids (m : DiskManager) (vFd : Int) : List Int :=
  if vFd < 0 ∨ (recordMaxLensNum : Int) ≤ vFd then []
  else if (m.fileList vFd.toNat).sysFd ≤ -1 then [] else [(m.fileList vFd.toNat).raidIndex]

end DiskManager

/-! ## The callers -/

/-- The manager, and the vfd that each of its callers has; -1 is none. -/
structure DiskSystem where
  manager : DiskManager
  vfd : Nat → Int

namespace DiskSystem

/-- What the callers do, and a pass of the periodic check over the raid `i`. -/
inductive Act
  | openFile (caller cameraId : Nat) (loads : Nat → Option Int) (createDir : Option FileErr)
      (createFile : Except FileErr Nat)
  | closeFile (caller : Nat) (ret : DiskRet)
  | freeVfd (caller : Nat)
  | checkRaid (i : Nat) (flag : Nat → DiskErr)

/-- Nobody has a vfd yet. -/
def opened (c : DiskConfig) (memory : Int → RecordRaid) (disks : List Nat) : DiskSystem where
  manager := DiskManager.opened c memory disks
  vfd := fun _ => -1

/-- `keeps r`: does a caller keep the vfd that `openFile` writes back with the result `r`? -/
def step (c : DiskConfig) (keeps : DiskRet → Bool) (s : DiskSystem) : Act → DiskSystem
  | .openFile caller cameraId loads createDir createFile =>
    let (manager, vfd, ret) := s.manager.openFile c cameraId (s.vfd caller) loads createDir createFile
    { manager, vfd := if keeps ret then Function.update s.vfd caller vfd else s.vfd }
  | .closeFile caller ret => { s with manager := (s.manager.closeFile c (s.vfd caller) ret).1 }
  | .freeVfd caller =>
    { manager := s.manager.freeVfd (s.vfd caller), vfd := Function.update s.vfd caller (-1) }
  | .checkRaid i flag =>
    { s with manager := if i < s.manager.raidTotal then s.manager.checkRaid c flag i else s.manager }

end DiskSystem

end AllCamera
