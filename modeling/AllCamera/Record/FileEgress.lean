import AllCamera.Lib.Run
import Mathlib.Logic.Function.Basic

/-!
# The file egress of the recorder and the I/O threads (`SVS_File_Egress`, `SVS_IO_Scheduler`)

The egress of a camera gives a media block to the queue of an I/O thread and keeps a parameter for the
callback in a list; behind the mutex of the list, it counts the block. The thread writes the block and calls
back; the egress goes over the parameters whose writes have finished, from the first one on, and updates the
record index from their blocks. A
block in tmpfs is read into a buffer of the thread, and the callback gets this buffer. The header of a
block may point to index lists, which are deleted with the block.

* `FileEgress`: the members; `write`, `onWriteFinish`, `close` and the functions that they call.
* `outputRecordFile`, `convertErrNo`: what the thread does with a block.
* `EgressSystem`: the egress, the blocks and the threads. A step is a part of `write` or of
  `write_media_data`, or what a thread or the owner of a block does for another egress.

What the disk manager, the files and the index files do is given by its results. `close` is not a step of
`EgressSystem`.
-/

namespace AllCamera

/-- `BIG_RECORDFILE_TIME_SLICE`. -/
def bigRecordfileTimeSlice : Int := 3600

/-- `SVS_RESULT_OK`. -/
def svsResultOk : Int32 := 0

/-- `SVS_RESULT_FAILURE`. -/
def svsResultFailure : Int32 := -1

/-- `EgressStatus`. -/
inductive EgressStatus where
  | init
  | writing
  | closing
  | closed
  | nodisk
  | error
  deriving DecidableEq, Repr

/-- A media block of the pool, or the buffer of an I/O thread. -/
inductive MediaPlace where
  | block (b : Nat)
  | tmpfsMb (t : Nat)
  deriving DecidableEq, Repr

/-- What is in a media block or a buffer: the data, and the block to whose index lists the header points.
For the statements, `owner` is the write whose data it is; data of another egress has none. -/
structure MediaData where
  owner : Option Nat
  bytes : List UInt8
  indexList : Option Nat
  deriving DecidableEq, Repr

/-- A media block: whether it is allocated, and what is in it. -/
structure MediaBlock where
  allocated : Bool
  data : MediaData
  deriving DecidableEq, Repr

/-- The media blocks and the buffers of the I/O threads; of the header of a block there is `TmpfsDatalen`, if it
has `IsTmpfsMemory`. -/
structure MediaMemory where
  block : Nat → MediaBlock
  tmpfsDatalen : Nat → Option Nat
  tmpfsMb : Nat → MediaData

namespace MediaMemory

/-- The index lists to which data in a buffer points are there: they are deleted with the block. -/
def ListsKept (m : MediaMemory) (d : MediaData) : Prop :=
  ∀ b ∈ d.indexList, (m.block b).allocated = true ∧ (m.block b).data.owner = d.owner

instance (m : MediaMemory) (d : MediaData) : Decidable (m.ListsKept d) :=
  inferInstanceAs (Decidable (∀ b ∈ d.indexList, _ ∧ _))

/-- The data, if it and its index lists may be read. -/
def read (m : MediaMemory) : MediaPlace → Option MediaData
  | .block b => if (m.block b).allocated then some (m.block b).data else none
  | .tmpfsMb t => if m.ListsKept (m.tmpfsMb t) then some (m.tmpfsMb t) else none

/-- `length`. -/
def length (m : MediaMemory) : MediaPlace → Nat
  | .block b => (m.block b).data.bytes.length
  | .tmpfsMb t => (m.tmpfsMb t).bytes.length

/-- The length that `update_recved_info` takes from a block. -/
def recvedLength (m : MediaMemory) (b : Nat) : Nat := (m.tmpfsDatalen b).getD (m.length (.block b))

/-- A block is handed out and filled. -/
def fill (m : MediaMemory) (b : Nat) (data : MediaData) (tmpfsDatalen : Option Nat) : MediaMemory :=
  { m with
    block := Function.update m.block b ⟨true, data⟩
    tmpfsDatalen := Function.update m.tmpfsDatalen b tmpfsDatalen }

/-- `release`. -/
def release (m : MediaMemory) (b : Nat) : MediaMemory :=
  { m with block := Function.update m.block b { m.block b with allocated := false } }

/-- The buffer of a thread is filled. -/
def load (m : MediaMemory) (t : Nat) (data : MediaData) : MediaMemory :=
  { m with tmpfsMb := Function.update m.tmpfsMb t data }

end MediaMemory

/-- `CallBackParam`; of the switch of files there is the flag that `write` reads. -/
structure CallBackParam where
  ulChangeRecordFile : Bool
  pMediaData : Option MediaPlace
  ulWriteIndex : UInt32
  ulWriteTime : Int
  bIsFinished : Bool
  nWriteRet : Int32
  deriving DecidableEq, Repr

/-- The results of `open_file`: the file is open; its name can not be had; there is no disk; another
error. -/
inductive OpenResult where
  | ok
  | noName
  | noRaid
  | fails
  deriving DecidableEq, Repr

/-- The results of a turn of the loop in `write`: of `open_file`, and of `writeFile`, with the queue. -/
structure Turn where
  opened : OpenResult
  queue : Option Nat
  deriving DecidableEq, Repr

/-- The members of `SVS_File_Egress`; of `m_RecordFileFD` there is whether it is 0 or more. The parameters are
addressed by the numbers of the writes. For the statements, there is what was handled, what the index updates
read, of each call of `close_finished` whether its thread has the mutex of the list, and whether a callback has
crashed: nothing more happens then, though the model goes on. -/
structure FileEgress where
  egressStatus : EgressStatus
  recordFileFD : Bool
  ulWriteIndex : UInt32
  param : Nat → CallBackParam
  mediaCallbackParamList : List Nat
  lastSwitchRecordTime : Int
  ullAllRecvedDataSize : UInt64
  ullWriteDataSize : UInt64
  handled : List (Nat × Int32)
  updates : List (Nat × Option MediaData)
  finished : List Bool
  crashed : Bool

namespace FileEgress

/-- A turn of the loop in `write` ends: the write is submitted to a queue, it has failed, or it is tried
with a new file. -/
inductive TurnResult where
  | submitted (t : Nat) (e : FileEgress)
  | failed (e : FileEgress)
  | again (e : FileEgress)

/-- `open_file`. -/
def openFile (e : FileEgress) (dataTime : Int) : OpenResult → Bool × FileEgress
  | .ok =>
    let fileTime := dataTime - dataTime.tmod bigRecordfileTimeSlice
    (true, { e with recordFileFD := true, lastSwitchRecordTime := fileTime })
  | .noName => (false, { e with recordFileFD := true })
  | .noRaid => (false, { e with egressStatus := .nodisk })
  | .fails => (false, { e with egressStatus := .error })

/-- The part of a turn that opens a file, if it has to. -/
def openTurn (e : FileEgress) (p : CallBackParam) (recvFrameTime : Int) (opened : OpenResult) :
    Bool × FileEgress :=
  if e.egressStatus ≠ .writing ∨ p.ulChangeRecordFile then
    let r := e.openFile recvFrameTime opened
    if r.1 then (true, { r.2 with egressStatus := .writing }) else r
  else (true, e)

/-- A turn of the loop in `write`, with parameter `p` at address `i`; `writeFile` fails if there is no file. -/
def writeTurn (e : FileEgress) (i : Nat) (p : CallBackParam) (recvFrameTime : Int) (turn : Turn) :
    TurnResult :=
  let r := e.openTurn p recvFrameTime turn.opened
  if !r.1 then .failed r.2
  else
    let e := { r.2 with ulWriteIndex := r.2.ulWriteIndex + 1 }
    match if e.recordFileFD then turn.queue else none with
    | some t =>
      .submitted t { e with
        param := Function.update e.param i { p with ulWriteIndex := e.ulWriteIndex }
        mediaCallbackParamList := e.mediaCallbackParamList ++ [i] }
    | none =>
      let e := { e with ulWriteIndex := e.ulWriteIndex - 1 }
      if p.ulChangeRecordFile then .failed { e with egressStatus := .error } else .again e

/-- `update_recved_info`. -/
def updateRecvedInfo (e : FileEgress) (length : Nat) : FileEgress :=
  { e with ullAllRecvedDataSize := e.ullAllRecvedDataSize + UInt64.ofNat length }

/-- `write` up to the unlock behind the submission; first component: the queue, if the write is submitted. -/
def submit (e : FileEgress) (i : Nat) (place : MediaPlace) (recvFrameTime now : Int) (first second : Turn) :
    Option Nat × FileEgress :=
  let p : CallBackParam :=
    { ulChangeRecordFile := e.lastSwitchRecordTime + bigRecordfileTimeSlice ≤ recvFrameTime
      pMediaData := some place
      ulWriteIndex := 0
      ulWriteTime := now
      bIsFinished := false
      nWriteRet := 0 }
  match e.writeTurn i p recvFrameTime first with
  | .submitted t e => (some t, e)
  | .failed e => (none, e)
  | .again e =>
    match e.writeTurn i { p with ulChangeRecordFile := true } recvFrameTime second with
    | .submitted t e => (some t, e)
    | .failed e | .again e => (none, e)

/-- `write` of a block from which `update_recved_info` takes a length. -/
def write (e : FileEgress) (i : Nat) (place : MediaPlace) (length : Nat) (recvFrameTime now : Int)
    (first second : Turn) : Option Nat × FileEgress :=
  match e.submit i place recvFrameTime now first second with
  | (some t, e) => (some t, e.updateRecvedInfo length)
  | (none, e) => (none, e)

/-- A record that is being written goes wrong. -/
def setError (e : FileEgress) : FileEgress :=
  if e.egressStatus = .writing then { e with egressStatus := .error } else e

/-- `update_record_index`: it reads the block; first component: whether the index can be updated. -/
def updateRecordIndex (e : FileEgress) (m : MediaMemory) (i : Nat) (place : MediaPlace)
    (indexOk : Bool) : Bool × FileEgress :=
  (indexOk, { e with updates := e.updates ++ [(i, m.read place)] })

/-- `close_finished`. -/
def closeFinished (e : FileEgress) (hasMutex : Bool) : FileEgress :=
  { e with recordFileFD := false, finished := e.finished ++ [hasMutex] }

/-- `handleWriteCallBackParam`; its thread has the mutex. -/
def handleWriteCallBackParam (e : FileEgress) (m : MediaMemory) (i : Nat) (place : MediaPlace)
    (write_result : Int32) (indexOk : Bool) : FileEgress :=
  let e := { e with handled := e.handled ++ [(i, write_result)] }
  let e : FileEgress :=
    if write_result = svsResultOk then
      let r := e.updateRecordIndex m i place indexOk
      if r.1 then r.2 else r.2.setError
    else e.setError
  if e.egressStatus = .closed ∧ e.ullAllRecvedDataSize = e.ullWriteDataSize then e.closeFinished true
  else e

/-- The second loop of `on_write_finish`, over what is in the list; `pCallBackParam` is NULL if `deleted` is on. -/
def handleFinished (m : MediaMemory) (now : Int) (indexOk : Nat → Bool) :
    Bool → List Nat → FileEgress → FileEgress
  | _, [], e => { e with mediaCallbackParamList := [] }
  | deleted, i :: rest, e =>
    let p := e.param i
    if p.bIsFinished then
      let e := { e with mediaCallbackParamList := rest }
      match p.pMediaData with
      | none =>
        -- the parameter of `close`
        if e.ullAllRecvedDataSize ≠ e.ullWriteDataSize then { e with egressStatus := .closed }
        else e.closeFinished false
      | some place =>
        handleFinished m now indexOk true rest
          (e.handleWriteCallBackParam m i place p.nWriteRet (indexOk i))
    else
      let e := { e with mediaCallbackParamList := i :: rest }
      if bigRecordfileTimeSlice ≤ now - p.ulWriteTime then
        -- the log text has members of `*pCallBackParam`
        if deleted then { e with crashed := true } else e.setError
      else e

/-- The first loop of `on_write_finish`: the first parameter with the index of parameter `i` is marked. -/
def markFinished (e : FileEgress) (m : MediaMemory) (i : Nat) (write_result : Int32) : FileEgress :=
  match e.mediaCallbackParamList.find? fun j =>
      (e.param j).ulWriteIndex = (e.param i).ulWriteIndex with
  | some j =>
    let length := ((e.param i).pMediaData.map m.length).getD 0
    { e with
      param := Function.update e.param j
        { e.param j with bIsFinished := true, nWriteRet := write_result }
      ullWriteDataSize := e.ullWriteDataSize + UInt64.ofNat length }
  | none => e

/-- `on_write_finish` for the parameter at address `i`. -/
def onWriteFinish (e : FileEgress) (m : MediaMemory) (now : Int) (indexOk : Nat → Bool)
    (write_result : Int32) (i : Nat) : FileEgress :=
  let e := e.markFinished m i write_result
  handleFinished m now indexOk false e.mediaCallbackParamList e

/-- `close`, with the parameter of its request at address `i`, if that can be allocated; first component: the
queue, if the request is submitted. -/
def close (e : FileEgress) (i : Nat) (allocated : Bool) (queue : Option Nat) (now : Int) :
    Option Nat × FileEgress × Int32 :=
  let e := { e with egressStatus := .closing }
  if e.recordFileFD then
    if !allocated then (none, e, svsResultFailure)
    else
      let e := { e with ulWriteIndex := e.ulWriteIndex + 1 }
      match queue with
      | some t =>
        let p : CallBackParam :=
          { ulChangeRecordFile := false
            pMediaData := none
            ulWriteIndex := e.ulWriteIndex
            ulWriteTime := now
            bIsFinished := false
            nWriteRet := 0 }
        (some t, { e with
          param := Function.update e.param i p
          mediaCallbackParamList := e.mediaCallbackParamList ++ [i] }, svsResultOk)
      | none =>
        let e := { e with ulWriteIndex := e.ulWriteIndex - 1 }
        if e.ullWriteDataSize ≠ e.ullAllRecvedDataSize then (none, e, svsResultOk)
        else (none, e.closeFinished false, svsResultOk)
  else (none, e.closeFinished false, svsResultOk)

/-- After `open`. -/
def opened : FileEgress where
  egressStatus := .writing
  recordFileFD := false
  ulWriteIndex := 0
  param := fun _ =>
    { ulChangeRecordFile := false, pMediaData := none, ulWriteIndex := 0, ulWriteTime := 0,
      bIsFinished := false, nWriteRet := 0 }
  mediaCallbackParamList := []
  lastSwitchRecordTime := 0
  ullAllRecvedDataSize := 0
  ullWriteDataSize := 0
  handled := []
  updates := []
  finished := []
  crashed := false

end FileEgress

/-! ## The I/O threads -/

/-- The results of the system calls of a write, and `errno`. -/
structure IoOutcome where
  seekOk : Bool
  readOk : Bool
  writeOk : Bool
  sysErrNum : Int32
  deriving DecidableEq, Repr

/-- `convert_err_no`. -/
def convertErrNo (sysErrNum : Int32) : Int32 :=
  -- `ENOENT`, `EINVAL`; `EAGAIN`, `EIO`; `ENOSPC`
  if sysErrNum = 2 ∨ sysErrNum = 22 then 0x100C
  else if sysErrNum = 11 ∨ sysErrNum = 5 then 0x1009
  else if sysErrNum = 28 then 0x1001
  else -1

/-- `output_record_file` by thread `t`; first component: whether all bytes are written. The buffer is reset
first, and gets the header when the position in tmpfs is found. -/
def outputRecordFile (m : MediaMemory) (debugWriteFile : Bool) (t : Nat) (isTmpfsMemory : Bool)
    (tmpfsData : MediaData) (io : IoOutcome) : Bool × MediaMemory :=
  if !debugWriteFile then (true, m)
  else if isTmpfsMemory then
    if !io.seekOk then (false, m.load t { m.tmpfsMb t with bytes := [] })
    else if !io.readOk then (false, m.load t { tmpfsData with bytes := [] })
    else (io.writeOk, m.load t tmpfsData)
  else (io.writeOk, m)

/-- How far a write is: in the queue of thread `t`; written, with a result, and to be called back; called
back; the block is released. -/
inductive IoTask where
  | none
  | queued (t : Nat)
  | written (t : Nat) (ret : Int32)
  | called (t : Nat) (ret : Int32)
  | released (t : Nat) (ret : Int32)
  deriving DecidableEq, Repr

namespace IoTask

/-- The result of a write that has completed. -/
def result : IoTask → Option Int32
  | called _ ret | released _ ret => some ret
  | _ => Option.none

/-- Thread `t` is in `write_media_data` for the write. -/
def RunsOn (t : Nat) : IoTask → Prop
  | written t' _ | called t' _ => t' = t
  | _ => False

instance (t : Nat) : ∀ task : IoTask, Decidable (task.RunsOn t)
  | written t' _ | called t' _ => inferInstanceAs (Decidable (t' = t))
  | none | queued _ | released _ _ => inferInstanceAs (Decidable False)

end IoTask

/-- The egress, the blocks and the I/O threads. Of a write there are how far it is, whether it is counted, its
block, whether this is in tmpfs, whether its header has index lists, and the data. -/
structure EgressSystem where
  egress : FileEgress
  mem : MediaMemory
  debugWriteFile : Bool
  submitted : Nat
  task : Nat → IoTask
  counted : Nat → Bool
  mb : Nat → Nat
  isTmpfsMemory : Nat → Bool
  hasIndexList : Nat → Bool
  data : Nat → List UInt8

namespace EgressSystem

/-- A step: block `b` is handed out, filled and given to `write`, which submits it; `write` counts it; an I/O
thread writes the block of write `i`, calls back, and releases the block; thread `t` uses its buffer for another
egress; another egress gets block `b`, fills it and gives it back. -/
inductive Act where
  | write (b : Nat) (bytes : List UInt8) (isTmpfsMemory hasIndexList : Bool) (recvFrameTime now : Int)
      (first second : Turn)
  | count (i : Nat)
  | output (i : Nat) (io : IoOutcome)
  | callback (i : Nat) (now : Int) (indexOk : Nat → Bool)
  | release (i : Nat)
  | otherOutput (t : Nat) (bytes : List UInt8)
  | otherBlock (b : Nat) (bytes : List UInt8) (isTmpfsMemory : Bool)

/-- After `open` of the egress. -/
def init (debugWriteFile : Bool) : EgressSystem where
  egress := .opened
  mem := ⟨fun _ => ⟨false, ⟨none, [], none⟩⟩, fun _ => none, fun _ => ⟨none, [], none⟩⟩
  debugWriteFile
  submitted := 0
  task := fun _ => .none
  counted := fun _ => false
  mb := fun _ => 0
  isTmpfsMemory := fun _ => false
  hasIndexList := fun _ => false
  data := fun _ => []

/-- Thread `t` waits for a message. -/
def Idle (s : EgressSystem) (t : Nat) : Prop := ∀ i < s.submitted, ¬ (s.task i).RunsOn t

instance (s : EgressSystem) (t : Nat) : Decidable (s.Idle t) :=
  inferInstanceAs (Decidable (∀ i < s.submitted, ¬ (s.task i).RunsOn t))

/-- The data of write `i` with its header. -/
def own (s : EgressSystem) (i : Nat) : MediaData :=
  ⟨some i, s.data i, if s.hasIndexList i then some (s.mb i) else none⟩

/-- Block `b` is filled; data in tmpfs is not in the block. -/
def fillBlock (m : MediaMemory) (b : Nat) (owner : Option Nat) (bytes : List UInt8)
    (isTmpfsMemory hasIndexList : Bool) : MediaMemory :=
  m.fill b ⟨owner, if isTmpfsMemory then [] else bytes, if hasIndexList then some b else none⟩
    (if isTmpfsMemory then some bytes.length else none)

/-- `write` up to `update_recved_info`; the caller releases a block that is not submitted. -/
def write (s : EgressSystem) (b : Nat) (bytes : List UInt8) (isTmpfsMemory hasIndexList : Bool)
    (recvFrameTime now : Int) (first second : Turn) : EgressSystem :=
  if (s.mem.block b).allocated then s
  else
    let i := s.submitted
    let m := fillBlock s.mem b (some i) bytes isTmpfsMemory hasIndexList
    let r := s.egress.submit i (.block b) recvFrameTime now first second
    match r.1 with
    | some t =>
      { s with
        egress := r.2
        mem := m
        submitted := i + 1
        task := Function.update s.task i (.queued t)
        counted := Function.update s.counted i false
        mb := Function.update s.mb i b
        isTmpfsMemory := Function.update s.isTmpfsMemory i isTmpfsMemory
        hasIndexList := Function.update s.hasIndexList i hasIndexList
        data := Function.update s.data i bytes }
    | none => { s with egress := r.2, mem := m.release b }

/-- `update_recved_info` at the end of `write`: it reads what is in the block then. -/
def count (s : EgressSystem) (i : Nat) : EgressSystem :=
  if i < s.submitted ∧ s.counted i = false then
    { s with
      egress := s.egress.updateRecvedInfo (s.mem.recvedLength (s.mb i))
      counted := Function.update s.counted i true }
  else s

/-- `write_media_data` up to the callback: thread `t` takes the first write of its queue. -/
def output (s : EgressSystem) (i : Nat) (io : IoOutcome) : EgressSystem :=
  match s.task i with
  | .queued t =>
    if s.Idle t ∧ ∀ j < i, s.task j ≠ .queued t then
      let r := outputRecordFile s.mem s.debugWriteFile t (s.isTmpfsMemory i) (s.own i) io
      let ret := if r.1 then svsResultOk else convertErrNo io.sysErrNum
      { s with mem := r.2, task := Function.update s.task i (.written t ret) }
    else s
  | _ => s

/-- The callback of `write_media_data`. -/
def callback (s : EgressSystem) (i : Nat) (now : Int) (indexOk : Nat → Bool) : EgressSystem :=
  match s.task i with
  | .written t ret =>
    let e :=
      if s.isTmpfsMemory i then
        { s.egress with
          param := Function.update s.egress.param i
            { s.egress.param i with pMediaData := some (.tmpfsMb t) } }
      else s.egress
    { s with
      egress := e.onWriteFinish s.mem now indexOk ret i
      task := Function.update s.task i (.called t ret) }
  | _ => s

/-- The end of `write_media_data`. -/
def release (s : EgressSystem) (i : Nat) : EgressSystem :=
  match s.task i with
  | .called t ret =>
    { s with
      mem := s.mem.release (s.mb i)
      task := Function.update s.task i (.released t ret) }
  | _ => s

def otherOutput (s : EgressSystem) (t : Nat) (bytes : List UInt8) : EgressSystem :=
  if s.Idle t then { s with mem := s.mem.load t ⟨none, bytes, none⟩ } else s

def otherBlock (s : EgressSystem) (b : Nat) (bytes : List UInt8) (isTmpfsMemory : Bool) : EgressSystem :=
  if (s.mem.block b).allocated then s
  else { s with mem := (fillBlock s.mem b none bytes isTmpfsMemory false).release b }

def step (s : EgressSystem) : Act → EgressSystem
  | .write b bytes isTmpfsMemory hasIndexList recvFrameTime now first second =>
    s.write b bytes isTmpfsMemory hasIndexList recvFrameTime now first second
  | .count i => s.count i
  | .output i io => s.output i io
  | .callback i now indexOk => s.callback i now indexOk
  | .release i => s.release i
  | .otherOutput t bytes => s.otherOutput t bytes
  | .otherBlock b bytes isTmpfsMemory => s.otherBlock b bytes isTmpfsMemory

end EgressSystem

end AllCamera
