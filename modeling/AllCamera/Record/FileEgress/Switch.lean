import AllCamera.Record.FileEgress

/-!
# The switch of record files (`SVS_File_Egress::write`, `open_file`, `update_record_index`)

A write that goes to a new record file says so in its callback parameter, and with it comes the size of the file
when it was opened. When the block is written, `update_record_index` creates an index file for a block whose
parameter says so, and goes on with the one that it has for any other.

* `RecordFile`, `DiskVfile`: a record file, and what the disk manager has for the vfd of the camera.
* `SwitchParam`: the callback parameter, as to files; `SwitchEgress` with `openFile`, `openTurn`, `write`.
* `RecordIndexFile`, `updateRecordIndex`: the index file over the blocks that are written.
* `write_agrees`: status, vfd and last switch are those of `FileEgress.write`.

What `openFile` and `writeFile` of the disk manager do is given by their results. `getFileFullName` does not fail
for a vfd that `openFile` has returned.
-/

namespace AllCamera

/-- A record file of a camera; its path has the disk and the hour. -/
structure RecordFile where
  disk : Int × Int
  fileTime : Int
  deriving DecidableEq, Repr

/-- `SVS_DISK_VFILE` of the camera: the disk, and the file of `SysFd`. For the statements, `startSize` is the size
of the file when it was opened. -/
structure DiskVfile where
  disk : Int × Int
  file : RecordFile
  startSize : UInt64
  deriving DecidableEq, Repr

/-- What `openFile` does: no disk can be allocated; the file can not be created on the disk; the file is open. -/
inductive OpenCall where
  | noDisk (noRaid : Bool)
  | noFile (disk : Int × Int)
  | opens (disk : Int × Int) (fileSize : UInt64) (medaDataPartedFlag : Bool)
  deriving DecidableEq, Repr

/-- The result of `open_file` in a call. -/
def OpenCall.result : OpenCall → OpenResult
  | .noDisk true => .noRaid
  | .noDisk false | .noFile _ => .fails
  | .opens .. => .ok

/-- The results of a turn of the loop in `write`: of `openFile`, and whether `writeFile` puts the block into a
queue. -/
structure SwitchTurn where
  opened : OpenCall
  queue : Option Nat
  deriving DecidableEq, Repr

def SwitchTurn.turn (t : SwitchTurn) : Turn := ⟨t.opened.result, t.queue⟩

/-- `CallBackParam`, as to files, with `FirstFrameRecvTime` of its block. -/
structure SwitchParam where
  ulChangeRecordFile : Bool
  ulChangeDisk : Bool
  recordFileName : Option RecordFile
  ullRecordFileSize : UInt64
  medaDataPartedFlag : Bool
  firstFrameRecvTime : Int
  deriving DecidableEq, Repr

/-- A write that is in a queue, and the file that it goes to. -/
structure SubmittedWrite where
  param : SwitchParam
  vfile : DiskVfile
  deriving DecidableEq, Repr

/-- The members of `SVS_File_Egress` as to its record file; of `m_RecordFileFD` there is whether it is 0 or more,
and what the disk manager has for it. For the statements there are the writes that were submitted. -/
structure SwitchEgress where
  egressStatus : EgressStatus
  recordFileFD : Bool
  ullRecordFileSize : UInt64
  recordFilePath : Option RecordFile
  lastSwitchRecordTime : Int
  hasSwitchDisk : Bool
  vfile : DiskVfile
  submitted : List SubmittedWrite
  deriving DecidableEq, Repr

/-- A call of `write`: the time of the first frame of its block, and what its turns find. -/
structure WriteCall where
  recvFrameTime : Int
  first : SwitchTurn
  second : SwitchTurn
  deriving DecidableEq, Repr

/-- The hour of a record file. -/
def fileTime (dataTime : Int) : Int := dataTime - dataTime.tmod bigRecordfileTimeSlice

namespace SwitchEgress

/-- After `open`. -/
def opened : SwitchEgress where
  egressStatus := .writing
  recordFileFD := false
  ullRecordFileSize := 0
  recordFilePath := none
  lastSwitchRecordTime := 0
  hasSwitchDisk := false
  vfile := ⟨(-1, -1), ⟨(-1, -1), 0⟩, 0⟩
  submitted := []

/-- Whether `openFile` returns `SVS_ERR_CHANGEDISK`. -/
def changesDisk (e : SwitchEgress) (disk : Int × Int) : Bool := e.recordFileFD && disk ≠ e.vfile.disk

/-- `open_file`; first component: the flag of the disk, if the file is open. -/
def openFile (e : SwitchEgress) (dataTime : Int) : OpenCall → Option Bool × SwitchEgress
  | .noDisk noRaid => (none, { e with egressStatus := if noRaid then .nodisk else .error })
  | .noFile disk =>
    (none, { e with
      egressStatus := .error
      vfile := if e.recordFileFD then { e.vfile with disk } else e.vfile })
  | .opens disk fileSize medaDataPartedFlag =>
    let file : RecordFile := ⟨disk, fileTime dataTime⟩
    (some medaDataPartedFlag, { e with
      recordFileFD := true
      hasSwitchDisk := e.hasSwitchDisk || e.changesDisk disk
      ullRecordFileSize := fileSize
      recordFilePath := some file
      lastSwitchRecordTime := fileTime dataTime
      vfile := ⟨disk, file, fileSize⟩ })

/-- A turn of the loop in `write` ends as in `FileEgress`; a new try keeps the parameter. -/
inductive TurnResult where
  | submitted (e : SwitchEgress)
  | failed (e : SwitchEgress)
  | again (p : SwitchParam) (e : SwitchEgress)

/-- The part of a turn that opens a file, if it has to. -/
def openTurn (e : SwitchEgress) (p : SwitchParam) (opened : OpenCall) : Option SwitchParam × SwitchEgress :=
  if e.egressStatus ≠ .writing ∨ p.ulChangeRecordFile then
    match e.openFile p.firstFrameRecvTime opened with
    | (none, e) => (none, e)
    | (some medaDataPartedFlag, e) =>
      (some { p with
          ullRecordFileSize := e.ullRecordFileSize
          recordFileName := e.recordFilePath
          ulChangeDisk := p.ulChangeDisk || e.hasSwitchDisk
          medaDataPartedFlag },
        { e with egressStatus := .writing, hasSwitchDisk := false })
  else (some p, e)

/-- A turn of the loop in `write`. -/
def writeTurn (e : SwitchEgress) (p : SwitchParam) (turn : SwitchTurn) : TurnResult :=
  match e.openTurn p turn.opened with
  | (none, e) => .failed e
  | (some p, e) =>
    if e.recordFileFD ∧ turn.queue.isSome then
      .submitted { e with submitted := e.submitted ++ [⟨p, e.vfile⟩] }
    else if p.ulChangeRecordFile then .failed { e with egressStatus := .error }
    else .again p e

/-- The parameter at the beginning of `write`. -/
def newParam (e : SwitchEgress) (recvFrameTime : Int) : SwitchParam where
  ulChangeRecordFile := e.lastSwitchRecordTime + bigRecordfileTimeSlice ≤ recvFrameTime
  ulChangeDisk := false
  recordFileName := e.recordFilePath
  ullRecordFileSize := 0
  medaDataPartedFlag := false
  firstFrameRecvTime := recvFrameTime

/-- `write`. -/
def write (e : SwitchEgress) (w : WriteCall) : SwitchEgress :=
  match e.writeTurn (e.newParam w.recvFrameTime) w.first with
  | .submitted e | .failed e => e
  | .again p e =>
    match e.writeTurn { p with ulChangeRecordFile := true } w.second with
    | .submitted e | .failed e | .again _ e => e

end SwitchEgress

/-! ## The index file -/

/-- `CSVS_Record_Indexfile`, as it is created. -/
structure RecordIndexFile where
  startTime : Int
  recordFile : Option RecordFile
  recordFileSize : UInt64
  medaDataPartedFlag : Bool
  deriving DecidableEq, Repr

/-- `update_record_index` of a block that is written; the index file is created. -/
def updateRecordIndex (index : Option RecordIndexFile) (p : SwitchParam) : Option RecordIndexFile :=
  if p.ulChangeDisk ∨ p.ulChangeRecordFile then
    some
      { startTime := p.firstFrameRecvTime
        recordFile := p.recordFileName
        recordFileSize := p.ullRecordFileSize
        medaDataPartedFlag := p.medaDataPartedFlag }
  else index

/-- The index file after the blocks of the writes, which `on_write_finish` takes in their order. -/
def recordIndex (submitted : List SubmittedWrite) : Option RecordIndexFile :=
  submitted.foldl (fun index w => updateRecordIndex index w.param) none

theorem recordIndex_append (submitted : List SubmittedWrite) (w : SubmittedWrite) :
    recordIndex (submitted ++ [w]) = updateRecordIndex (recordIndex submitted) w.param :=
  List.foldl_append

/-! ## The same status as in `FileEgress` -/

namespace SwitchEgress

/-- What the two models of the egress have in common. -/
structure Agrees (e : SwitchEgress) (f : FileEgress) : Prop where
  status : e.egressStatus = f.egressStatus
  fd : e.recordFileFD = f.recordFileFD
  time : e.lastSwitchRecordTime = f.lastSwitchRecordTime

theorem agrees_opened : opened.Agrees .opened := ⟨rfl, rfl, rfl⟩

variable {e : SwitchEgress} {f : FileEgress} {p : SwitchParam} {q : CallBackParam}

theorem Agrees.openFile (h : e.Agrees f) (dataTime : Int) (o : OpenCall) :
    (e.openFile dataTime o).1.isSome = (f.openFile dataTime o.result).1 ∧
      (e.openFile dataTime o).2.Agrees (f.openFile dataTime o.result).2 := by
  match o with
  | .noDisk true => exact ⟨rfl, rfl, h.fd, h.time⟩
  | .noDisk false => exact ⟨rfl, rfl, h.fd, h.time⟩
  | .noFile disk => exact ⟨rfl, rfl, h.fd, h.time⟩
  | .opens disk fileSize medaDataPartedFlag => exact ⟨rfl, h.status, rfl, rfl⟩

theorem Agrees.openTurn (h : e.Agrees f) (hflag : p.ulChangeRecordFile = q.ulChangeRecordFile) (o : OpenCall) :
    (e.openTurn p o).1.isSome = (f.openTurn q p.firstFrameRecvTime o.result).1 ∧
      (∀ p' ∈ (e.openTurn p o).1, p'.ulChangeRecordFile = p.ulChangeRecordFile ∧
        p'.firstFrameRecvTime = p.firstFrameRecvTime) ∧
      (e.openTurn p o).2.Agrees (f.openTurn q p.firstFrameRecvTime o.result).2 := by
  obtain ⟨hsome, hagrees⟩ := h.openFile p.firstFrameRecvTime o
  unfold SwitchEgress.openTurn FileEgress.openTurn
  rw [h.status, hflag]
  split
  · generalize e.openFile p.firstFrameRecvTime o = r at hsome hagrees ⊢
    generalize f.openFile p.firstFrameRecvTime o.result = r' at hsome hagrees ⊢
    obtain ⟨parted, e'⟩ := r
    obtain ⟨ok, f'⟩ := r'
    subst hsome
    cases parted with
    | none => exact ⟨rfl, by simp, hagrees⟩
    | some parted => exact ⟨rfl, by simp, rfl, hagrees.fd, hagrees.time⟩
  · exact ⟨rfl, by simp [hflag], h⟩

/-- The ends of a turn in the two models, for a block of the time `recvFrameTime`. -/
inductive SameEnd (recvFrameTime : Int) : SwitchEgress.TurnResult → FileEgress.TurnResult → Prop
  | submitted {e : SwitchEgress} {f : FileEgress} {t : Nat} : e.Agrees f →
      SameEnd recvFrameTime (.submitted e) (.submitted t f)
  | failed {e : SwitchEgress} {f : FileEgress} : e.Agrees f → SameEnd recvFrameTime (.failed e) (.failed f)
  | again {e : SwitchEgress} {f : FileEgress} {p : SwitchParam} : e.Agrees f →
      p.firstFrameRecvTime = recvFrameTime → SameEnd recvFrameTime (.again p e) (.again f)

theorem Agrees.writeTurn {recvFrameTime : Int} (h : e.Agrees f)
    (hflag : p.ulChangeRecordFile = q.ulChangeRecordFile) (htime : p.firstFrameRecvTime = recvFrameTime) (i : Nat)
    (t : SwitchTurn) : SameEnd recvFrameTime (e.writeTurn p t) (f.writeTurn i q recvFrameTime t.turn) := by
  subst htime
  obtain ⟨hsome, hparam, hagrees⟩ := h.openTurn hflag t.opened
  unfold SwitchEgress.writeTurn FileEgress.writeTurn
  change (e.openTurn p t.opened).1.isSome = (f.openTurn q p.firstFrameRecvTime t.turn.opened).1 at hsome
  change (e.openTurn p t.opened).2.Agrees (f.openTurn q p.firstFrameRecvTime t.turn.opened).2 at hagrees
  generalize e.openTurn p t.opened = r at hsome hparam hagrees ⊢
  generalize f.openTurn q p.firstFrameRecvTime t.turn.opened = r' at hsome hagrees ⊢
  obtain ⟨opened, e'⟩ := r
  obtain ⟨ok, f'⟩ := r'
  subst hsome
  cases opened with
  | none => exact .failed hagrees
  | some p' =>
    obtain ⟨hchange, htime⟩ := hparam p' rfl
    obtain ⟨hstatus, hfd, hlast⟩ : e'.Agrees f' := hagrees
    simp only [hchange, hflag, hfd, SwitchTurn.turn, Option.isSome_some, Bool.not_true, Bool.false_eq_true,
      if_false]
    cases hopen : f'.recordFileFD with
    | false =>
      rw [hopen] at hfd
      simp only [Bool.false_eq_true, false_and, if_false]
      split
      · exact .failed ⟨rfl, rfl, hlast⟩
      · exact .again ⟨hstatus, hfd, hlast⟩ htime
    | true =>
      rw [hopen] at hfd
      cases t.queue with
      | none =>
        simp only [Option.isSome_none, Bool.false_eq_true, and_false, if_false, if_true]
        split
        · exact .failed ⟨rfl, rfl, hlast⟩
        · exact .again ⟨hstatus, hfd, hlast⟩ htime
      | some k =>
        simp only [Option.isSome_some, and_self, if_true]
        exact .submitted ⟨hstatus, rfl, hlast⟩

/-- The parameter of `FileEgress.write`. -/
def callBackParam (place : MediaPlace) (now : Int) (ulChangeRecordFile : Bool) : CallBackParam :=
  { ulChangeRecordFile, pMediaData := some place, ulWriteIndex := 0, ulWriteTime := now, bIsFinished := false,
    nWriteRet := 0 }

theorem fileEgress_write_eq (f : FileEgress) (i : Nat) (place : MediaPlace) (length : Nat) (now : Int)
    (w : WriteCall) :
    (f.write i place length w.recvFrameTime now w.first.turn w.second.turn).2 =
      match f.writeTurn i (callBackParam place now
        (f.lastSwitchRecordTime + bigRecordfileTimeSlice ≤ w.recvFrameTime)) w.recvFrameTime w.first.turn with
      | .submitted _ f => f.updateRecvedInfo length
      | .failed f => f
      | .again f =>
        match f.writeTurn i (callBackParam place now true) w.recvFrameTime w.second.turn with
        | .submitted _ f => f.updateRecvedInfo length
        | .failed f | .again f => f := by
  unfold FileEgress.write FileEgress.submit callBackParam
  dsimp only
  generalize f.writeTurn i _ w.recvFrameTime w.first.turn = r
  cases r with
  | submitted t f => rfl
  | failed f => rfl
  | again f =>
    dsimp only
    generalize f.writeTurn i _ w.recvFrameTime w.second.turn = r
    cases r <;> rfl

/-- `write` has the status, the vfd and the time of the last switch of the other model. -/
theorem write_agrees (h : e.Agrees f) (i : Nat) (place : MediaPlace) (length : Nat) (now : Int) (w : WriteCall) :
    (e.write w).Agrees (f.write i place length w.recvFrameTime now w.first.turn w.second.turn).2 := by
  rw [fileEgress_write_eq]
  unfold SwitchEgress.write
  have hflag : (e.newParam w.recvFrameTime).ulChangeRecordFile = (callBackParam place now
      (f.lastSwitchRecordTime + bigRecordfileTimeSlice ≤ w.recvFrameTime)).ulChangeRecordFile := by
    rw [newParam, h.time]
    rfl
  have htime : (e.newParam w.recvFrameTime).firstFrameRecvTime = w.recvFrameTime := rfl
  have hfirst := h.writeTurn hflag htime i w.first
  generalize e.writeTurn (e.newParam w.recvFrameTime) w.first = r at hfirst ⊢
  generalize f.writeTurn i _ w.recvFrameTime w.first.turn = r' at hfirst ⊢
  cases hfirst with
  | submitted h => exact ⟨h.status, h.fd, h.time⟩
  | failed h => exact h
  | @again e f p h hp =>
    have hflag : { p with ulChangeRecordFile := true }.ulChangeRecordFile =
        (callBackParam place now true).ulChangeRecordFile := rfl
    have hsecond := h.writeTurn hflag hp i w.second
    dsimp only
    generalize e.writeTurn { p with ulChangeRecordFile := true } w.second = r at hsecond ⊢
    generalize f.writeTurn i _ w.recvFrameTime w.second.turn = r' at hsecond ⊢
    cases hsecond with
    | submitted h => exact ⟨h.status, h.fd, h.time⟩
    | failed h => exact h
    | again h => exact h

end SwitchEgress

end AllCamera
