import AllCamera.Record.RecvStream

/-!
# The record index of a camera (`SVS_Index_List`)

The list has the segments that are on disk, in the order in which they were written, and the windows of time
that are wanted in the data base. As segments grow, the front window is cut with them, at midnight too, and
records are sent to the data base: an INSERT, or an UPDATE of the one that starts at `m_dbIndexStartTime`.

* `IndexListConfig`: the constants that are not given here, and the local time.
* `partitionDBRecordIndex` with `partitionOne`: the records of one window, of one segment.
* `processDBIndex`, `handleDBIndex`, `updateLocalIndex`, `updateDBIndex`.
* `step`: one call; `step_of_handles`: how each call is shown to keep something.

The texts in a record are left out. What the list does does not depend on what becomes of a record.
-/

namespace AllCamera

/-- `SVS_PRORECORD_MAX_TIME`, `RTRECORD_UNIT_K` and `SVS_ERR_PARAM`, and what `localtime_r` and `mktime` give:
the year, the day of the year, and the time of `mktime` for the local time with hour, minute and second set
to 0; and whether `alloc_mb` gives a block in the `n`-th call of `sendDBRecordIndex`. -/
structure IndexListConfig where
  prorecordMaxTime : Int
  unitK : UInt64
  errParam : Int32
  tmYear : Int → Int
  tmYday : Int → Int
  midnight : Int → Int
  alloc : Nat → Bool

/-- A difference of times as a `uint64_t`. -/
def toU64 (x : Int) : UInt64 := UInt64.ofNat (x % 2 ^ 64).toNat

/-- `IndexInfo`, of a segment. -/
structure IndexInfo where
  startTime : Int
  stopTime : Int
  videoFlux : UInt64
  recordStopFlag : Bool
  deriving DecidableEq, Repr

/-- `IndexInfo`, of a window; the stop time 0 stands for none. -/
structure DBIndex where
  startTime : Int
  stopTime : Int
  deriving DecidableEq, Repr

/-- `RECORD_INDEX_TYPE_INSERT` and `RECORD_INDEX_TYPE_UPDATE`. -/
inductive RecordIndexType
  | insert
  | update
  deriving DecidableEq, Repr

/-- `Update_Record_Index`. For the statements, there are the window and the segment that it is sent for, and
whether a block was allocated for it. Without one it goes nowhere. -/
structure UpdateRecordIndex where
  type : RecordIndexType
  startTime : Int
  endTime : Int
  videoFlux : UInt64
  isOver : Bool
  window : DBIndex
  segment : IndexInfo
  allocated : Bool
  deriving DecidableEq, Repr

/-- `SVS_Index_List`. For the statements, there are the records that `sendDBRecordIndex` was called for, the
differences of times by which a size was divided and multiplied, and whether it was called since
`m_dbIndexStartTime` was set to the beginning of a window. -/
structure IndexList where
  localIndexStartTime : Int
  localIndexStopTime : Int
  localIndexList : List IndexInfo
  dbIndexStartTime : Int
  dbIndexList : List DBIndex
  lastLocalIndexTime : Int
  lastDBIndexTime : Int
  curFileSize : UInt64
  indexFileSize : UInt64
  sent : List UpdateRecordIndex
  scaled : List (Int × Int)
  sentSince : Bool
  deriving DecidableEq, Repr

namespace IndexList

variable (T : IndexListConfig)

/-- After `reset`. -/
def new : IndexList where
  localIndexStartTime := 0
  localIndexStopTime := 0
  localIndexList := []
  dbIndexStartTime := 0
  dbIndexList := []
  lastLocalIndexTime := 0
  lastDBIndexTime := 0
  curFileSize := 0
  indexFileSize := 0
  sent := []
  scaled := []
  sentSince := false

/-- `sendDBRecordIndex`. Where no block can be allocated it returns before `RecordPastIndex` and the queue; no
caller looks at the result. -/
def sendDBRecordIndex (s : IndexList) (w : DBIndex) (iter : IndexInfo) (type : RecordIndexType)
    (startTime endTime : Int) (dataSize : UInt64) (recordStopFlag : Bool) : IndexList :=
  let dataSize := if dataSize = 0 then T.unitK else dataSize
  { s with
    sent := s.sent ++
      [⟨type, startTime, endTime, dataSize / T.unitK, recordStopFlag, w, iter, T.alloc s.sent.length⟩]
    sentSince := true }

/-- `(ullFileSize / (uint64_t)divisor) * (uint64_t)factor`. -/
def scale (s : IndexList) (fileSize : UInt64) (divisor factor : Int) : IndexList × UInt64 :=
  ({ s with scaled := s.scaled ++ [(divisor, factor)] }, fileSize / toU64 divisor * toU64 factor)

/-- The variables of `partitionDBRecordIndex`. -/
structure Partition where
  operType : RecordIndexType
  localRecordStopFlag : Bool
  deriving DecidableEq, Repr

/-- Where the record of a segment starts, and its size from there. -/
def cutStart (s : IndexList) (v : Partition) (indexStartTime : Int) (iter : IndexInfo) :
    IndexList × Partition × Int × UInt64 :=
  if indexStartTime < iter.startTime then
    ({ s with dbIndexStartTime := iter.startTime, lastDBIndexTime := iter.startTime },
      { v with operType := .insert }, iter.startTime, iter.videoFlux)
  else
    let (s, fileSize) :=
      s.scale iter.videoFlux (iter.stopTime - iter.startTime) (iter.stopTime - indexStartTime)
    (s, v, indexStartTime, fileSize)

/-- Where it stops. -/
def cutStop (s : IndexList) (indexStopTime dbStartTime : Int) (fileSize : UInt64) (iter : IndexInfo) :
    IndexList × Int × UInt64 :=
  if indexStopTime < iter.stopTime then
    let (s, fileSize) :=
      s.scale fileSize (iter.stopTime - dbStartTime) (indexStopTime - dbStartTime)
    (s, indexStopTime, fileSize)
  else (s, iter.stopTime, fileSize)

/-- The record, or two where it goes over midnight. -/
def sendRecord (s : IndexList) (v : Partition) (w : DBIndex) (iter : IndexInfo)
    (dbStartTime dbStopTime : Int) (fileSize : UInt64) : IndexList × Partition :=
  if T.tmYday dbStartTime ≠ T.tmYday dbStopTime then
    let stop_time := T.midnight dbStopTime
    let s := { s with indexFileSize := s.curFileSize }
    let (s, fileSize) := s.scale fileSize (dbStopTime - dbStartTime) (stop_time - dbStartTime)
    let s := s.sendDBRecordIndex T w iter v.operType dbStartTime (stop_time - 1) fileSize true
    let s := s.sendDBRecordIndex T w iter .insert stop_time dbStopTime T.unitK false
    ({ s with dbIndexStartTime := stop_time, lastDBIndexTime := stop_time },
      { v with localRecordStopFlag := false })
  else
    (s.sendDBRecordIndex T w iter v.operType dbStartTime dbStopTime fileSize v.localRecordStopFlag, v)

/-- What the loop of `partitionDBRecordIndex` does for a segment. -/
def partitionOne (s : IndexList) (v : Partition) (w : DBIndex) (indexStartTime indexStopTime : Int)
    (recordStopFlag : Bool) (iter : IndexInfo) : IndexList × Partition :=
  let (s, v, dbStartTime, fileSize) := s.cutStart v indexStartTime iter
  let v := if recordStopFlag then v else { v with localRecordStopFlag := iter.recordStopFlag }
  let (s, dbStopTime, fileSize) := s.cutStop indexStopTime dbStartTime fileSize iter
  let (s, v) := s.sendRecord T v w iter dbStartTime dbStopTime fileSize
  ({ s with lastLocalIndexTime := dbStopTime }, v)

/-- The loop; second component: `bLocalFlag`. -/
def partitionLoop (w : DBIndex) (indexStartTime indexStopTime : Int) (recordStopFlag : Bool) :
    IndexList → Partition → List IndexInfo → IndexList × Bool
  | s, _, [] => (s, false)
  | s, v, iter :: rest =>
    if iter.startTime < indexStopTime then
      if iter.stopTime ≤ indexStartTime then
        partitionLoop w indexStartTime indexStopTime recordStopFlag s v rest
      else
        let (s, v) := s.partitionOne T v w indexStartTime indexStopTime recordStopFlag iter
        if indexStopTime ≤ iter.stopTime then (s, true)
        else partitionLoop w indexStartTime indexStopTime recordStopFlag s v rest
    else (s, false)

/-- `partitionDBRecordIndex`. -/
def partitionDBRecordIndex (s : IndexList) (w : DBIndex) (operType : RecordIndexType)
    (indexStartTime indexStopTime : Int) (recordStopFlag : Bool) : IndexList × Int32 :=
  let (s, localFlag) :=
    partitionLoop T w indexStartTime indexStopTime recordStopFlag s ⟨operType, recordStopFlag⟩
      s.localIndexList
  (s, if localFlag then svsResultOk else svsResultFailure)

/-- A window that is not processed yet, or is empty. -/
def skips (s : IndexList) (w : DBIndex) : Prop :=
  s.localIndexStopTime ≤ w.startTime ∨ w.stopTime ≤ w.startTime ∧ w.stopTime ≠ 0

instance (s : IndexList) (w : DBIndex) : Decidable (s.skips w) :=
  inferInstanceAs (Decidable (_ ∨ _))

/-- `indexStartTime` and `indexStopTime` of `processDBIndex`. -/
def indexStart (s : IndexList) (w : DBIndex) : Int :=
  if s.dbIndexStartTime ≠ 0 then s.dbIndexStartTime
  else if w.startTime < s.lastLocalIndexTime then s.lastLocalIndexTime
  else w.startTime

def indexStop (s : IndexList) (w : DBIndex) : Int :=
  if w.stopTime = 0 ∨ s.localIndexStopTime < w.stopTime then s.localIndexStopTime else w.stopTime

/-- `processDBIndex`. -/
def processDBIndex (s : IndexList) (w : DBIndex) : IndexList × Int32 :=
  if s.skips w then (s, svsResultOk)
  else
    let indexStartTime := s.indexStart w
    let operType := if s.dbIndexStartTime ≠ 0 then RecordIndexType.update else .insert
    let s :=
      if s.dbIndexStartTime ≠ 0 then s
      else
        { s with
          dbIndexStartTime := indexStartTime
          lastDBIndexTime := indexStartTime
          sentSince := false }
    let indexStopTime := s.indexStop w
    let recordStopFlag := decide (w.stopTime ≠ 0 ∧ w.stopTime ≤ indexStopTime)
    s.partitionDBRecordIndex T w operType indexStartTime indexStopTime recordStopFlag

/-- The loop of `handleDBIndex` over the windows. -/
def handleLoop (s : IndexList) : List DBIndex → IndexList
  | [] => s
  | w :: ws =>
    let (s, nRet) := s.processDBIndex T w
    if nRet ≠ svsResultOk then s
    else if w.stopTime ≠ 0 ∧ w.stopTime ≤ s.localIndexStopTime then
      handleLoop { s with dbIndexList := ws, dbIndexStartTime := 0 } ws
    else s

/-- `handleDBIndex`. -/
def handleDBIndex (s : IndexList) : IndexList := s.handleLoop T s.dbIndexList

/-- Another segment is put at the end; the oldest one is dropped. -/
def addSegment (s : IndexList) (firstTime lastTime : Int) (writeSize : UInt64) (recordStopFlag : Bool) :
    IndexList :=
  let s :=
    { s with
      indexFileSize := s.curFileSize
      localIndexStartTime := firstTime
      localIndexList := s.localIndexList ++
        [(⟨firstTime, lastTime, writeSize - s.curFileSize, recordStopFlag⟩ : IndexInfo)] }
  match s.localIndexList with
  | front :: next :: rest =>
    if T.prorecordMaxTime < firstTime - front.stopTime then
      { s with localIndexList := next :: rest, lastLocalIndexTime := next.startTime }
    else s
  | _ => s

/-- The segment that starts at `firstTime` is changed; none if there is none. -/
def changeSegment (firstTime lastTime : Int) (fileSize : UInt64) (recordStopFlag : Bool) :
    List IndexInfo → Option (List IndexInfo)
  | [] => none
  | iter :: rest =>
    if iter.startTime = firstTime then
      some ({ iter with stopTime := lastTime, videoFlux := fileSize, recordStopFlag } :: rest)
    else (changeSegment firstTime lastTime fileSize recordStopFlag rest).map (iter :: ·)

/-- `updateLocalIndex` as to the segments; `szFileName` is NULL if `hasName` is off. -/
def updateSegments (s : IndexList) (firstTime lastTime : Int) (writeSize : UInt64) (hasName : Bool)
    (recordStopFlag : Bool) : Except Int32 IndexList :=
  if firstTime ≠ s.localIndexStartTime then
    if lastTime < firstTime ∨ hasName = false then .error T.errParam
    else .ok (s.addSegment T firstTime lastTime writeSize recordStopFlag)
  else
    match changeSegment firstTime lastTime (writeSize - s.indexFileSize) recordStopFlag
        s.localIndexList with
    | none => .error svsResultFailure
    | some localIndexList => .ok { s with localIndexList }

/-- `updateLocalIndex` before `handleDBIndex`. -/
def noteSegment (s : IndexList) (firstTime lastTime : Int) (writeSize : UInt64) : IndexList :=
  { s with
    curFileSize := writeSize
    localIndexStopTime := lastTime
    lastLocalIndexTime := if s.lastLocalIndexTime = 0 then firstTime else s.lastLocalIndexTime }

/-- `updateLocalIndex`. -/
def updateLocalIndex (s : IndexList) (firstTime lastTime : Int) (writeSize : UInt64) (hasName : Bool)
    (recordStopFlag : Bool) : IndexList × Int32 :=
  match s.updateSegments T firstTime lastTime writeSize hasName recordStopFlag with
  | .error e => (s, e)
  | .ok s =>
    let s := s.noteSegment firstTime lastTime writeSize
    if s.localIndexStopTime ≤ s.lastDBIndexTime then (s, svsResultOk)
    else (s.handleDBIndex T, svsResultOk)

/-- The stop time of the window that starts at `startTime` is changed, or the window is put at the end. -/
def setWindow (startTime stopTime : Int) : List DBIndex → List DBIndex
  | [] => [⟨startTime, stopTime⟩]
  | iter :: rest =>
    if iter.startTime = startTime then { iter with stopTime } :: rest
    else iter :: setWindow startTime stopTime rest

/-- `updateDBIndex`. -/
def updateDBIndex (s : IndexList) (startTime stopTime : Int) : IndexList × Int32 :=
  if startTime = 0 then (s, svsResultFailure)
  else ({ s with dbIndexList := setWindow startTime stopTime s.dbIndexList }, svsResultOk)

/-- A call. -/
inductive Act
  | updateLocalIndex (firstTime lastTime : Int) (writeSize : UInt64) (hasName recordStopFlag : Bool)
  | updateDBIndex (startTime stopTime : Int)
  deriving DecidableEq, Repr

/-- The state after a call. -/
def step (s : IndexList) : Act → IndexList
  | .updateLocalIndex firstTime lastTime writeSize hasName recordStopFlag =>
    (s.updateLocalIndex T firstTime lastTime writeSize hasName recordStopFlag).1
  | .updateDBIndex startTime stopTime => (s.updateDBIndex startTime stopTime).1

/-- If the call comes to `handleDBIndex`, `P` holds there. -/
def Handles (P : IndexList → Prop) (s : IndexList) : Act → Prop
  | .updateLocalIndex firstTime lastTime writeSize hasName recordStopFlag =>
    match s.updateSegments T firstTime lastTime writeSize hasName recordStopFlag with
    | .error _ => True
    | .ok s =>
      (s.noteSegment firstTime lastTime writeSize).lastDBIndexTime < lastTime →
        P (s.noteSegment firstTime lastTime writeSize)
  | .updateDBIndex _ _ => True

variable {T} {P I : IndexList → Prop} {s : IndexList} {act : Act}

instance decidableHandles [DecidablePred P] (s : IndexList) : ∀ act, Decidable (s.Handles T P act)
  | .updateLocalIndex firstTime lastTime writeSize hasName flag =>
    match h : s.updateSegments T firstTime lastTime writeSize hasName flag with
    | .error _ => .isTrue (by simp only [Handles, h])
    | .ok s' =>
      decidable_of_iff ((s'.noteSegment firstTime lastTime writeSize).lastDBIndexTime < lastTime →
        P (s'.noteSegment firstTime lastTime writeSize)) (by simp only [Handles, h])
  | .updateDBIndex _ _ => inferInstanceAs (Decidable True)

/-- What the segments, the windows and `handleDBIndex` keep, each call keeps. -/
theorem step_of_handles (hI : I s) (hP : s.Handles T P act)
    (hsegments : ∀ firstTime lastTime writeSize hasName flag s',
      act = .updateLocalIndex firstTime lastTime writeSize hasName flag →
      s.updateSegments T firstTime lastTime writeSize hasName flag = .ok s' →
      I (s'.noteSegment firstTime lastTime writeSize))
    (hhandle : ∀ s, I s → P s → I (s.handleDBIndex T))
    (hwindows : ∀ startTime stopTime,
      I { s with dbIndexList := setWindow startTime stopTime s.dbIndexList }) : I (s.step T act) := by
  cases act with
  | updateLocalIndex firstTime lastTime writeSize hasName flag =>
    simp only [step, updateLocalIndex]
    cases hs' : s.updateSegments T firstTime lastTime writeSize hasName flag with
    | error e => exact hI
    | ok s' =>
      simp only [Handles, hs'] at hP
      have hnote := hsegments firstTime lastTime writeSize hasName flag s' rfl hs'
      dsimp only
      split_ifs with hdone
      · exact hnote
      · exact hhandle _ hnote (hP (Int.not_le.mp hdone))
  | updateDBIndex startTime stopTime =>
    simp only [step, updateDBIndex]
    split_ifs with h0
    · exact hI
    · exact hwindows startTime stopTime

end IndexList

end AllCamera
