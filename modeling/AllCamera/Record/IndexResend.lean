import AllCamera.Lib.Run
import AllCamera.Lib.SortedMap
import Mathlib.Data.List.Lex

/-!
# The indexes that wait for a confirmation (`CIndexResendMgr`)

An index that is over is kept until the server confirms it, and is sent again by a timer. The key is made
of its start time and the camera. The timer collects the keys of what is to be deleted and of what is to be
sent again, and deals with each key later, under the lock.

* `recordPastIndex`, `handleReportConfirm`, `checkUnackedIndex`, `dealIndex`: the critical sections.
* `Act`, `step`: one of them.

Of an index there is what the manager reads. There is one thread that runs the timer.
-/

namespace AllCamera

open scoped UIntOrder

/-- `UNACKED_INDEX_RESEND_TIMES`. -/
def unackedIndexResendTimes : UInt32 := 3

/-- `UNACKED_INDEX_RESEND_INTERVAL`. -/
def unackedIndexResendInterval : Int := 120

/-- `INDEX_KEY_LEN`. -/
def indexKeyLen : Nat := 80

/-- A time as a `uint32_t`. -/
def timeU32 (x : Int) : UInt32 := UInt32.ofNat (x % 2 ^ 32).toNat

/-- `REPORT_INDEX_TYPE_NORMAL`, `REPORT_INDEX_TYPE_OVER` and `REPORT_INDEX_TYPE_RECONNECT`. -/
inductive ReportIndexType
  | normal
  | over
  | reconnect
  deriving DecidableEq, Repr

/-- `Update_Record_Index`. -/
structure PastIndex where
  lensId : List UInt8
  startTime : Int
  endTime : Int
  recordReportType : ReportIndexType
  deriving DecidableEq, Repr

/-- `RecordIndexCacheNode`. For the statements, there are the end times that were reported since the node
was made, and how often it was sent again. -/
structure CacheNode where
  stIndexInfo : PastIndex
  uiResendTimes : UInt32
  ulSendTimeTick : Int
  reported : List Int
  resends : Nat
  deriving DecidableEq, Repr

/-- `SVS_STORESVR_RECORD_INDEX_INFO_RESP_MSG`; `deviceId` is the id that `SetLocalizeDeviceId` makes of the
one in the message, and `complete` is off if the length of the packet is too small. -/
structure ReportConfirm where
  complete : Bool
  deviceId : List UInt8
  indexStartTime : UInt32
  indexEndTime : UInt32
  respCode : UInt32
  deriving DecidableEq, Repr

abbrev IndexKey := List UInt8

/-- `DELETE_INDEX` and `RESEND_INDEX`. -/
inductive DealFlag
  | delete
  | resend
  deriving DecidableEq, Repr

/-- For the statements: an index that was taken out of the map, by a confirmation or by the timer. -/
structure Departure where
  key : IndexKey
  reported : List Int
  resends : Nat
  confirm : Option ReportConfirm
  deriving DecidableEq, Repr

/-- `CIndexResendMgr`, and what the timer still has to deal with. -/
structure IndexResendMgr where
  indexMap : SortedMap IndexKey (Option CacheNode)
  dealing : List (IndexKey × DealFlag)
  departures : List Departure

/-- `%08x`. -/
def hex8 (n : UInt32) : List UInt8 :=
  (List.range 8).map fun i =>
    let digit := n.toNat / 16 ^ (7 - i) % 16
    UInt8.ofNat (if digit < 10 then 48 + digit else 87 + digit)

/-- `MakeIndexInfoKey`: `%08x_%s`, cut off by `snprintf`. -/
def makeIndexInfoKey (startTime : UInt32) (lensId : List UInt8) : IndexKey :=
  (hex8 startTime ++ 95 :: lensId).take (indexKeyLen - 2)

namespace IndexResendMgr

def new : IndexResendMgr where
  indexMap := .empty
  dealing := []
  departures := []

/-- The key of an index. -/
def keyOf (index : PastIndex) : IndexKey := makeIndexInfoKey (timeU32 index.startTime) index.lensId

/-- A new node of `RecordPastIndex`; `alloc` is off if there is no memory for it. -/
def addIndex (s : IndexResendMgr) (index : PastIndex) (alloc : Bool) (now : Int) : IndexResendMgr × Int32 :=
  if alloc then
    let node : CacheNode :=
      { stIndexInfo := { index with recordReportType := .reconnect }
        uiResendTimes := 0
        ulSendTimeTick := now
        reported := [index.endTime]
        resends := 0 }
    ({ s with indexMap := s.indexMap.insert (keyOf index) (some node) }, 0)
  else (s, -1)

/-- `RecordPastIndex`. -/
def recordPastIndex (s : IndexResendMgr) (index : PastIndex) (alloc : Bool) (now : Int) :
    IndexResendMgr × Int32 :=
  match s.indexMap.find (keyOf index) with
  | none => s.addIndex index alloc now
  | some none => { s with indexMap := s.indexMap.erase (keyOf index) }.addIndex index alloc now
  | some (some node) =>
    let node := { node with reported := node.reported ++ [index.endTime] }
    let node := if node.stIndexInfo.endTime < index.endTime then { node with stIndexInfo := index } else node
    ({ s with indexMap := s.indexMap.modify (keyOf index) fun _ => some node }, 0)

/-- `HandleReportConfirm`. -/
def handleReportConfirm (s : IndexResendMgr) (c : ReportConfirm) : IndexResendMgr × Int32 :=
  if c.complete = false then (s, -1)
  else
    let key := makeIndexInfoKey c.indexStartTime c.deviceId
    match s.indexMap.find key with
    | none => (s, 0)
    | some none => ({ s with indexMap := s.indexMap.erase key }, 0)
    | some (some node) =>
      ({ s with
        indexMap := s.indexMap.erase key
        departures := s.departures ++ [⟨key, node.reported, node.resends, some c⟩] }, 0)

/-- What `CheckUnackedIndex` puts into `delIndexKeyList`. -/
def aged : Option CacheNode → Bool
  | none => true
  | some node => unackedIndexResendTimes < node.uiResendTimes

/-- What it puts into `resendIndexKeyList`. -/
def due (tCurrent : Int) (node : Option CacheNode) : Bool :=
  !aged node && node.any fun node => unackedIndexResendInterval < tCurrent - node.ulSendTimeTick

/-- `CheckUnackedIndex`, with its critical section; then `BatchDealIndex` is called with both lists. The
thread does not begin before it has dealt with the keys of the last time. -/
def checkUnackedIndex (s : IndexResendMgr) (connected : Bool) (tCurrent : Int) : IndexResendMgr :=
  if s.dealing ≠ [] ∨ connected = false then s
  else
    { s with
      dealing :=
        (s.indexMap.entries.filter fun e => aged e.2).map (fun e => (e.1, .delete)) ++
          (s.indexMap.entries.filter fun e => due tCurrent e.2).map fun e => (e.1, .resend) }

/-- `BatchDealIndex` for the next key; `resent` is off if `ResendIndex` fails. -/
def dealIndex (s : IndexResendMgr) (resent : Bool) (now : Int) : IndexResendMgr :=
  match s.dealing with
  | [] => s
  | (key, flag) :: dealing =>
    let s := { s with dealing }
    match s.indexMap.find key with
    | none => s
    | some none => { s with indexMap := s.indexMap.erase key }
    | some (some node) =>
      match flag with
      | .delete =>
        { s with
          indexMap := s.indexMap.erase key
          departures := s.departures ++ [⟨key, node.reported, node.resends, none⟩] }
      | .resend =>
        if resent then
          let node :=
            { node with
              uiResendTimes := node.uiResendTimes + 1
              ulSendTimeTick := now
              resends := node.resends + 1 }
          { s with indexMap := s.indexMap.modify key fun _ => some node }
        else s

/-- A critical section. -/
inductive Act
  | recordPastIndex (index : PastIndex) (alloc : Bool) (now : Int)
  | handleReportConfirm (confirm : ReportConfirm)
  | checkUnackedIndex (connected : Bool) (tCurrent : Int)
  | dealIndex (resent : Bool) (now : Int)
  deriving DecidableEq, Repr

def step (s : IndexResendMgr) : Act → IndexResendMgr
  | .recordPastIndex index alloc now => (s.recordPastIndex index alloc now).1
  | .handleReportConfirm confirm => (s.handleReportConfirm confirm).1
  | .checkUnackedIndex connected tCurrent => s.checkUnackedIndex connected tCurrent
  | .dealIndex resent now => s.dealIndex resent now

end IndexResendMgr

end AllCamera
