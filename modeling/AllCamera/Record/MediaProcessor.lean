import AllCamera.Lib.History
import AllCamera.Lib.Run
import AllCamera.Lib.SortedMap
import Mathlib.Data.List.Lex

/-!
# The media processor of the recorder (`SVS_Media_Processor`)

The processor has an array of handles. A handle is allocated for a device, in several critical
sections; the messages that start, stop and steer it go through the queue of the message thread; what
can not be done yet waits in a queue of the handle, and a retry message in the main queue is to come
back to it. The notification that the recording has stopped frees the handle.

* `HandleInfo`, `Processor`: the members of `Handle_Info` and of the class.
* `findHandle`, `getHandleIndex`, `initHandle`, `insertDevIndex`: the critical sections of
  `alloc_handle`.
* `handleMessage`: what the message thread does with a message, and the functions that it calls.
* `ProcessorSystem`: the processor, the calls of `alloc_handle` that are under way, and the history.
  A step is one critical section of a call, the post of a message, or the handling of one.

What the objects of a handle do is given by its results (`HandleOutcome`); of the contents of a message
there are its type and its index.
-/

namespace AllCamera

open scoped UIntOrder

/-- `LOCALIZE_DEVICE_ID_MAX_LEN`. -/
def localizeDeviceIdMaxLen : Nat := 32

/-- `HandleStatus`. -/
inductive HandleStatus where
  | invalid
  | init
  | start
  | stop
  deriving DecidableEq, Repr

/-- `MediaEventType`. -/
inductive MediaEventType where
  | startRecord
  | stopRecord
  | recordKeyFrame
  | setTimeRemove
  | stopFinishNotify
  | retry
  deriving DecidableEq, Repr

/-- `MediaEventMsg`. For the statements, `seq` is its number among the messages that were posted, and
`owner` the owner of the index at that time. -/
structure MediaEventMsg where
  eventType : MediaEventType
  ulIndex : Nat
  seq : Nat
  owner : Nat
  deriving DecidableEq, Repr

/-- `Handle_Info`; of its objects, whether there are any. For the statements, `owner` counts the times
that the index was handed out. -/
structure HandleInfo where
  szDevID : List UInt8
  pRecvStream : Bool
  pFileEgress : Bool
  nInType : Int32
  nOutType : Int32
  status : HandleStatus
  ulRefCount : UInt32
  msgQueue : List MediaEventMsg
  owner : Nat
  deriving DecidableEq, Repr

namespace HandleInfo

/-- `reset`: the queue is not touched. -/
def reset (h : HandleInfo) : HandleInfo :=
  { h with
    szDevID := []
    pRecvStream := false
    pFileEgress := false
    nInType := 0
    nOutType := 0
    ulRefCount := 1
    status := .invalid }

/-- A handle that messages are handled for. -/
def InUse (h : HandleInfo) : Prop :=
  h.status ≠ .invalid ∧ h.pRecvStream = true ∧ h.pFileEgress = true

instance (h : HandleInfo) : Decidable h.InUse := inferInstanceAs (Decidable (_ ∧ _ ∧ _))

/-- A handle as `reset` leaves it. -/
def Blank (h : HandleInfo) : Prop :=
  h.status = .invalid ∧ h.pRecvStream = false ∧ h.pFileEgress = false

end HandleInfo

/-- The text of a C string. -/
def cString (text : List UInt8) : List UInt8 := text.takeWhile (· ≠ 0)

/-- `SetLocalizeDeviceId`, without a strict length. -/
def setLocalizeDeviceId (szDeviceId : List UInt8) : List UInt8 :=
  szDeviceId.take localizeDeviceIdMaxLen

/-- The results of what is called while a message is handled: `open` of the egress; `init`,
`start_recv` and `stop_recv` of the receiving stream; whether a message goes into the queue of the
handle, and into the main queue. -/
structure HandleOutcome where
  openOk : Bool
  initOk : Bool
  startOk : Bool
  stopOk : Bool
  tailOk : Bool
  putOk : Bool
  deriving DecidableEq, Repr

/-- The members of `SVS_Media_Processor`. -/
structure Processor where
  maxHandleNum : Nat
  handleArray : Nat → HandleInfo
  freeIndexList : List Nat
  devIndexMap : Multimap (List UInt8) Nat
  msgQueue : List MediaEventMsg

namespace Processor

/-- Handle `i` is `h` then, and the messages are put into the main queue. -/
def update (p : Processor) (i : Nat) (h : HandleInfo) (msgs : List MediaEventMsg) : Processor :=
  { p with handleArray := Function.update p.handleArray i h, msgQueue := p.msgQueue ++ msgs }

def setStatus (p : Processor) (i : Nat) (status : HandleStatus) : Processor :=
  p.update i { p.handleArray i with status } []

/-- `enqueue_message` of a retry message for handle `i`. -/
def enqueueRetry (p : Processor) (i : Nat) (putOk : Bool) : Processor :=
  let msg : MediaEventMsg :=
    { eventType := .retry, ulIndex := i, seq := 0, owner := (p.handleArray i).owner }
  { p with msgQueue := p.msgQueue ++ if putOk then [msg] else [] }

/-- A retry message is enqueued if the handle has messages waiting. -/
def enqueueRetryIfWaiting (p : Processor) (i : Nat) (putOk : Bool) : Processor :=
  if 0 < (p.handleArray i).msgQueue.length then p.enqueueRetry i putOk else p

/-! ## Allocation -/

/-- The loop over the handles of a device: the first one of the types. `get_handle_close_status` gives
it out, `alloc_handle` does not allocate a second one. -/
def findHandle (p : Processor) (szDevID : List UInt8) (in_type out_type : Int32) : Option Nat :=
  (((p.devIndexMap.find szDevID).takeWhile fun e => e.1 = szDevID).map Prod.snd).find? fun i =>
    in_type = (p.handleArray i).nInType ∧ out_type = (p.handleArray i).nOutType

/-- `getHandleIndex`. -/
def getHandleIndex (p : Processor) : Option Nat × Processor :=
  match p.freeIndexList with
  | [] => (none, p)
  | ulIndex :: rest =>
    let p := { p with freeIndexList := rest }
    if p.maxHandleNum ≤ ulIndex then (none, p) else (some ulIndex, p)

/-- `freeHandleIndex`. -/
def freeHandleIndex (p : Processor) (ulIndex : Nat) : Processor :=
  { p with freeIndexList := p.freeIndexList ++ [ulIndex] }

/-- The section of `alloc_handle` that fills the handle in. The egress and the receiving stream can
not be had: the handle is reset and its index freed. -/
def initHandle (p : Processor) (ulIndex : Nat) (szDevID : List UInt8) (in_type out_type : Int32)
    (egressOk recvOk : Bool) : Bool × Processor :=
  let h : HandleInfo :=
    { p.handleArray ulIndex with
      szDevID := setLocalizeDeviceId szDevID
      nInType := in_type
      nOutType := out_type
      status := .init }
  if !egressOk then (false, (p.update ulIndex h.reset []).freeHandleIndex ulIndex)
  else if !recvOk then (false, (p.update ulIndex h.reset []).freeHandleIndex ulIndex)
  else (true, p.update ulIndex { h with pFileEgress := true, pRecvStream := true } [])

/-- The last section of `alloc_handle`. -/
def insertDevIndex (p : Processor) (szDevID : List UInt8) (ulIndex : Nat) : Processor :=
  { p with devIndexMap := p.devIndexMap.insert szDevID ulIndex }

/-! ## Messages -/

/-- `handleStartRecordMsg`. -/
def handleStartRecordMsg (p : Processor) (i : Nat) (o : HandleOutcome) : Bool × Processor :=
  if (p.handleArray i).status ≠ .init then (false, p)
  else if !o.openOk then (false, p)
  else if !o.initOk then (false, p)
  else if !o.startOk then (false, p)
  else (true, (p.setStatus i .start).enqueueRetryIfWaiting i o.putOk)

/-- `handleStopRecordMsg`. -/
def handleStopRecordMsg (p : Processor) (i : Nat) (o : HandleOutcome) : Bool × Processor :=
  if (p.handleArray i).status ≠ .start then (false, p)
  else if !o.stopOk then (false, p)
  else (true, (p.setStatus i .stop).enqueueRetryIfWaiting i o.putOk)

/-- The end of a handle: its entry goes, found by the device id that it has; it is reset and its index
freed. -/
def finish (p : Processor) (i : Nat) : Processor :=
  let h := p.handleArray i
  let p := { p with
    devIndexMap :=
      p.devIndexMap.eraseFrom h.szDevID (fun e => e.1 == h.szDevID) (fun e => e.2 == i) }
  (p.update i h.reset []).freeHandleIndex i

/-- `handleStopFinishNotifyMsg`. -/
def handleStopFinishNotifyMsg (p : Processor) (i : Nat) (o : HandleOutcome) : Bool × Processor :=
  let h := p.handleArray i
  if h.status ≠ .stop then (false, p)
  else if h.ulRefCount - 1 = 0 then (true, p.finish i)
  else
    let p := p.update i { h with ulRefCount := h.ulRefCount - 1, status := .init } []
    (true, p.enqueueRetryIfWaiting i o.putOk)

/-- `handle_stand_message`. -/
def handleStandMessage (p : Processor) (msg : MediaEventMsg) (o : HandleOutcome) : Bool × Processor :=
  let i := msg.ulIndex
  match msg.eventType with
  | .startRecord => p.handleStartRecordMsg i o
  | .stopRecord => p.handleStopRecordMsg i o
  | .recordKeyFrame | .setTimeRemove =>
    if (p.handleArray i).status ≠ .start then (false, p)
    else (true, p.enqueueRetryIfWaiting i o.putOk)
  | .stopFinishNotify => p.handleStopFinishNotifyMsg i o
  | .retry => (true, p.enqueueRetryIfWaiting i o.putOk)

/-- `handle_retry_message`; first component: the message that was tried. One that fails again is
given up. -/
def handleRetryMessage (p : Processor) (i : Nat) (o : HandleOutcome) :
    Option MediaEventMsg × Processor :=
  let h := p.handleArray i
  if h.status = .stop then (none, p)
  else
    match h.msgQueue with
    | [] => (none, p)
    | pEvent :: rest =>
      let p := p.update i { h with msgQueue := rest } []
      let r := p.handleStandMessage pEvent o
      if r.1 then (some pEvent, r.2)
      else
        let p := if pEvent.eventType = .startRecord then r.2.setStatus i .start else r.2
        (some pEvent, p.enqueueRetryIfWaiting i o.putOk)

/-- `handle_message`; first component: the message that was tried. -/
def handleMessage (p : Processor) (msg : MediaEventMsg) (o : HandleOutcome) :
    Option MediaEventMsg × Processor :=
  let i := msg.ulIndex
  let h := p.handleArray i
  if p.maxHandleNum ≤ i then (none, p)
  else if h.status = .invalid ∨ h.pRecvStream = false ∨ h.pFileEgress = false then (none, p)
  else if msg.eventType = .retry then p.handleRetryMessage i o
  else if 0 < h.msgQueue.length ∧ msg.eventType ≠ .stopFinishNotify then
    -- something waits already: the message waits behind it
    (none, if o.tailOk then p.update i { h with msgQueue := h.msgQueue ++ [msg] } [] else p)
  else
    let r := p.handleStandMessage msg o
    if r.1 then (some msg, r.2)
    else if !o.tailOk then (some msg, r.2)
    else
      let h := r.2.handleArray i
      let p := r.2.update i { h with msgQueue := h.msgQueue ++ [msg] } []
      (some msg, p.enqueueRetry i o.putOk)

end Processor

/-! ## The processor and its callers -/

/-- What a handle is allocated for. -/
structure DevKey where
  szDevID : List UInt8
  in_type : Int32
  out_type : Int32
  deriving DecidableEq, Repr

/-- Where a call of `alloc_handle` is: behind the check for a handle that there is already, with an
index, and with a handle that is filled in. -/
inductive AllocCall where
  | idle
  | checked (key : DevKey)
  | taken (key : DevKey) (ulIndex : Nat)
  | initialised (key : DevKey) (ulIndex : Nat)
  deriving DecidableEq, Repr

/-- The processor and the calls of `alloc_handle`. For the statements: the indexes that were handed
out and came back, newest first; the messages that were posted, and those that were tried, each with
the owner of its handle then; what a handle is registered for. -/
structure ProcessorSystem where
  proc : Processor
  call : Nat → AllocCall
  history : List (History.Event Nat)
  posted : List MediaEventMsg
  attempts : List (MediaEventMsg × Nat)
  registered : Nat → Option DevKey

namespace ProcessorSystem

/-- A step: the sections of call `c` of `alloc_handle`; a message is posted to handle `i`; the message
thread handles the first message of the main queue. -/
inductive Act where
  | allocCheck (c : Nat) (szDevID : List UInt8) (in_type out_type : Int32)
  | allocIndex (c : Nat)
  | allocInit (c : Nat) (egressOk recvOk : Bool)
  | allocInsert (c : Nat)
  | post (i : Nat) (eventType : MediaEventType) (putOk : Bool)
  | handle (o : HandleOutcome)
  deriving DecidableEq, Repr

/-- After `open`. -/
def init (max_lens : Nat) : ProcessorSystem where
  proc :=
    { maxHandleNum := max_lens
      handleArray := fun _ =>
        { szDevID := [], pRecvStream := false, pFileEgress := false, nInType := 0, nOutType := 0,
          status := .invalid, ulRefCount := 1, msgQueue := [], owner := 0 }
      freeIndexList := List.range max_lens
      devIndexMap := .empty
      msgQueue := [] }
  call := fun _ => .idle
  history := []
  posted := []
  attempts := []
  registered := fun _ => none

def setCall (s : ProcessorSystem) (c : Nat) (a : AllocCall) : ProcessorSystem :=
  { s with call := Function.update s.call c a }

def allocCheck (s : ProcessorSystem) (c : Nat) (key : DevKey) : ProcessorSystem :=
  match s.call c with
  | .idle =>
    if (s.proc.findHandle key.szDevID key.in_type key.out_type).isSome then s
    else s.setCall c (.checked key)
  | _ => s

def allocIndex (s : ProcessorSystem) (c : Nat) : ProcessorSystem :=
  match s.call c with
  | .checked key =>
    let r := s.proc.getHandleIndex
    match r.1 with
    | none => { s.setCall c .idle with proc := r.2 }
    | some i =>
      let h := r.2.handleArray i
      { s.setCall c (.taken key i) with
        proc := r.2.update i { h with owner := h.owner + 1 } []
        history := .out i :: s.history }
  | _ => s

def allocInit (s : ProcessorSystem) (c : Nat) (egressOk recvOk : Bool) : ProcessorSystem :=
  match s.call c with
  | .taken key i =>
    let r := s.proc.initHandle i key.szDevID key.in_type key.out_type egressOk recvOk
    if r.1 then { s.setCall c (.initialised key i) with proc := r.2 }
    else { s.setCall c .idle with proc := r.2, history := .back i :: s.history }
  | _ => s

def allocInsert (s : ProcessorSystem) (c : Nat) : ProcessorSystem :=
  match s.call c with
  | .initialised key i =>
    { s.setCall c .idle with
      proc := s.proc.insertDevIndex key.szDevID i
      registered := Function.update s.registered i (some key) }
  | _ => s

/-- `start_record`, `stop_record`, `record_key_frame`, `set_time_remove` and `stop_finish_notify`. -/
def post (s : ProcessorSystem) (i : Nat) (eventType : MediaEventType) (putOk : Bool) :
    ProcessorSystem :=
  if s.proc.maxHandleNum ≤ i ∨ eventType = .retry ∨ putOk = false then s
  else
    let msg : MediaEventMsg :=
      { eventType, ulIndex := i, seq := s.posted.length, owner := (s.proc.handleArray i).owner }
    { s with
      proc := { s.proc with msgQueue := s.proc.msgQueue ++ [msg] }
      posted := s.posted ++ [msg] }

/-- `msg` has been handled, message `tried` was tried. -/
def handled (s : ProcessorSystem) (msg : MediaEventMsg) (tried : Option MediaEventMsg)
    (p : Processor) : ProcessorSystem :=
  let freed := p.freeIndexList.drop s.proc.freeIndexList.length
  { s with
    proc := p
    history := freed.map .back ++ s.history
    attempts :=
      s.attempts ++ tried.toList.map fun m => (m, (s.proc.handleArray msg.ulIndex).owner)
    registered := fun i => if i ∈ freed then none else s.registered i }

def handle (s : ProcessorSystem) (o : HandleOutcome) : ProcessorSystem :=
  match s.proc.msgQueue with
  | [] => s
  | msg :: rest =>
    let r := { s.proc with msgQueue := rest }.handleMessage msg o
    s.handled msg r.1 r.2

def step (s : ProcessorSystem) : Act → ProcessorSystem
  | .allocCheck c szDevID in_type out_type => s.allocCheck c ⟨cString szDevID, in_type, out_type⟩
  | .allocIndex c => s.allocIndex c
  | .allocInit c egressOk recvOk => s.allocInit c egressOk recvOk
  | .allocInsert c => s.allocInsert c
  | .post i eventType putOk => s.post i eventType putOk
  | .handle o => s.handle o

end ProcessorSystem

end AllCamera
