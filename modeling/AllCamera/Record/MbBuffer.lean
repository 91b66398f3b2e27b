import AllCamera.Lib.LinkedNodes
import AllCamera.Lib.Run
import Mathlib.Logic.Function.Basic

/-!
# The message blocks of the recorder (`CSVS_Mb_Buffer`)

For each type and class of length there is a pool of free blocks, linked by `next`. A thread takes blocks
out of a pool in batches, linked by `cont`, and keeps them in a list of its own for the class it asked for;
it collects the blocks that it frees in another one, linked by `cont` too, and gives them back at once, each
to the pool that its first bytes name.

* `MbType`, `MbLen`; `mbSizeToLenType` and `getMbBuffer`: the two tables of the classes.
* `MessageBlock`, `Heap`; `MbBuffer`: a pool, with `allocMb` and `freeMb`.
* `BufferManager`: all pools, and the blocks.
* `ThreadManager`; `MbSystem`: the blocks, the pools and the managers of the threads; `allocMb`, `freeMb`.
* `init`; `Act`, `step`: the calls of the threads, one at a time.

The pools are those of a successful `init`. A call is a step; it has the mutex of a pool while it works on
it, and nothing else is shared.
-/

namespace AllCamera

/-- `SVS_ALLOC_MSG_BUFF_COUNT`. -/
def svsAllocMsgBuffCount : UInt32 := 200

/-- `SVS_FREE_MSG_BUFF_COUNT`. -/
def svsFreeMsgBuffCount : UInt32 := 200

/-- `_MB_TYPE_`. -/
inductive MbType
  | alarmEvent
  | normalEvent
  | callBack
  | sendMsg
  | eventMsg
  deriving DecidableEq, Repr

/-- `_MB_LEN_`. -/
inductive MbLen
  | len128
  | len256
  | len1K
  | len4K
  | len64K
  deriving DecidableEq, Repr

/-- A pool, by its type and class of length. -/
abbrev MbClass := MbType × MbLen

/-- The enumerator of a `uint8_t`. -/
def MbType.ofUInt8 : UInt8 → Option MbType
  | 0 => some .alarmEvent
  | 1 => some .normalEvent
  | 2 => some .callBack
  | 3 => some .sendMsg
  | 4 => some .eventMsg
  | _ => none

/-- `_MB_LEN_VALUE_`, and `buffSize` in `init`. -/
def buffSize : MbLen → UInt32
  | .len128 => 128
  | .len256 => 256
  | .len1K => 1024
  | .len4K => 4 * 1024
  | .len64K => 64 * 1024

/-- `sizeof(SVS_Mb_Buffer_Info)`. -/
def sizeofMbBufferInfo : UInt32 := 2

/-- `buffCount` in `init`. -/
def buffCount : MbClass → UInt32
  | (.alarmEvent, .len128) => 25000
  | (.normalEvent, .len128) => 5000
  | (.normalEvent, .len256) => 20000
  | (.normalEvent, .len1K) => 4000
  | (.normalEvent, .len4K) => 160
  | (.normalEvent, .len64K) => 50
  | (.callBack, .len128) => 40000
  | (.callBack, .len4K) => 5000
  | (.sendMsg, .len128) => 20000
  | (.sendMsg, .len256) => 4000
  | (.sendMsg, .len1K) => 1000
  | (.sendMsg, .len64K) => 50
  | (.eventMsg, .len128) => 3000
  | _ => 0

/-- The types and classes in the order of the loops of `init`. -/
def mbClasses : List MbClass :=
  [MbType.alarmEvent, .normalEvent, .callBack, .sendMsg, .eventMsg].flatMap fun mbType =>
    [MbLen.len128, .len256, .len1K, .len4K, .len64K].map fun mbLen => (mbType, mbLen)

/-! ## The tables of the classes -/

/-- `size_to_len_normal`; none stands for `MB_LEN_MAX_VALUE`. -/
def sizeToLenNormal (mbSize : UInt32) : Option MbLen :=
  if mbSize ≤ buffSize .len128 then some .len128
  else if mbSize ≤ buffSize .len256 then some .len256
  else if mbSize ≤ buffSize .len1K then some .len1K
  else if mbSize ≤ buffSize .len4K then some .len4K
  else if mbSize ≤ buffSize .len64K then some .len64K
  else none

/-- `mb_size_to_len_type`. -/
def mbSizeToLenType (mbType : MbType) (mbSize : UInt32) : Option MbLen :=
  match mbType with
  | .alarmEvent => if mbSize ≤ buffSize .len128 then some .len128 else none
  | .normalEvent => sizeToLenNormal mbSize
  | .callBack =>
    if mbSize ≤ buffSize .len128 then some .len128
    else if mbSize ≤ buffSize .len4K then some .len4K
    else none
  | .sendMsg =>
    if mbSize ≤ buffSize .len128 then some .len128
    else if mbSize ≤ buffSize .len256 then some .len256
    else if mbSize ≤ buffSize .len1K then some .len1K
    else if mbSize ≤ buffSize .len64K then some .len64K
    else none
  | .eventMsg => if mbSize ≤ buffSize .len128 then some .len128 else none

/-- `get_mb_buffer_call_back`. -/
def getMbBufferCallBack (mbSize : UInt32) : Option MbClass :=
  if mbSize ≤ buffSize .len128 then some (.callBack, .len128)
  else if mbSize ≤ buffSize .len4K then some (.callBack, .len4K)
  else none

/-- `get_mb_buffer_send_msg`. -/
def getMbBufferSendMsg (mbSize : UInt32) : Option MbClass :=
  if mbSize ≤ buffSize .len128 then some (.sendMsg, .len128)
  else if mbSize ≤ buffSize .len256 then some (.sendMsg, .len256)
  else if mbSize ≤ buffSize .len1K then some (.sendMsg, .len1K)
  else if mbSize ≤ buffSize .len64K then some (.sendMsg, .len64K)
  else none

/-- `get_mb_buffer_normal_event`. -/
def getMbBufferNormalEvent (mbSize : UInt32) : Option MbClass :=
  if mbSize ≤ buffSize .len128 then some (.normalEvent, .len128)
  else if mbSize ≤ buffSize .len256 then some (.normalEvent, .len256)
  else if mbSize ≤ buffSize .len1K then some (.normalEvent, .len1K)
  else if mbSize ≤ buffSize .len64K then some (.normalEvent, .len64K)
  else none

/-- `get_mb_buffer`: the element of `mb_buff_` that it returns. -/
def getMbBuffer (mbType : MbType) (mbSize : UInt32) : Option MbClass :=
  match mbType with
  | .alarmEvent => if mbSize ≤ buffSize .len128 then some (.alarmEvent, .len128) else none
  | .normalEvent => getMbBufferNormalEvent mbSize
  | .callBack => getMbBufferCallBack mbSize
  | .sendMsg => getMbBufferSendMsg mbSize
  | .eventMsg => if mbSize ≤ buffSize .len128 then some (.eventMsg, .len128) else none

/-! ## A pool -/

/-- `ACE_Message_Block`: its links, its size, and `SVS_Mb_Buffer_Info` in its first bytes. For the
statements, there is the pool that it was made for. -/
structure MessageBlock where
  next : Option Nat
  cont : Option Nat
  size : UInt32
  info : MbClass
  home : MbClass
  deriving DecidableEq, Repr

/-- The blocks, by their numbers. -/
abbrev Heap := Nat → MessageBlock

namespace Heap

def setNext (h : Heap) (mb : Nat) (next : Option Nat) : Heap := Function.update h mb { h mb with next }

def setCont (h : Heap) (mb : Nat) (cont : Option Nat) : Heap := Function.update h mb { h mb with cont }

end Heap

/-- `CSVS_Mb_Buffer`, initialised. -/
structure MbBuffer where
  mbSize : UInt32
  freeMbCount : UInt32
  freeMbList : Option Nat
  deriving DecidableEq, Repr

namespace MbBuffer

/-- The loop of `init`: `n` more blocks; the number of the next one is `created`. -/
def initLoop (mbClass : MbClass) : Nat → Heap → Nat → MbBuffer → Heap × Nat × MbBuffer
  | 0, h, created, p => (h, created, p)
  | n + 1, h, created, p =>
    let mb : MessageBlock :=
      { next := p.freeMbList, cont := none, size := p.mbSize, info := mbClass, home := mbClass }
    initLoop mbClass n (Function.update h created mb) (created + 1) { p with freeMbList := some created }

/-- `CSVS_Mb_Buffer::init`. -/
def init (h : Heap) (created : Nat) (mbCount mbSize : UInt32) (mbClass : MbClass) : Heap × Nat × MbBuffer :=
  initLoop mbClass mbCount.toNat h created { mbSize, freeMbCount := mbCount, freeMbList := none }

/-- The loop of `alloc_mb`: `n` more blocks behind `mbCont`. -/
def allocLoop : Nat → Heap → MbBuffer → Nat → Heap × MbBuffer
  | 0, h, p, _ => (h, p)
  | n + 1, h, p, mbCont =>
    match p.freeMbList with
    | none => (h, p)
    | some mbTemp =>
      let p := { p with freeMbList := (h mbTemp).next, freeMbCount := p.freeMbCount - 1 }
      let h := ((h.setNext mbTemp none).setCont mbTemp none).setCont mbCont (some mbTemp)
      allocLoop n h p mbTemp

/-- `CSVS_Mb_Buffer::alloc_mb`. -/
def allocMb (h : Heap) (p : MbBuffer) (allocCount : UInt32) : Heap × MbBuffer × Option Nat :=
  if allocCount = 0 then (h, p, none)
  else
    match p.freeMbList with
    | none => (h, p, none)
    | some mbFirst =>
      let p := { p with freeMbList := (h mbFirst).next, freeMbCount := p.freeMbCount - 1 }
      let h := h.setNext mbFirst none
      let (h, p) := allocLoop (allocCount.toNat - 1) h p mbFirst
      (h, p, some mbFirst)

/-- The loop of `free_mb`. -/
def freeLoop : Nat → Heap → MbBuffer → Nat → Option Nat → Heap × MbBuffer
  | 0, h, p, _, _ => (h, p)
  | fuel + 1, h, p, mbFree, mbCont =>
    let h := (h.setCont mbFree none).setNext mbFree none
    let (h, p) :=
      if (h mbFree).size ≠ p.mbSize then (h, p)
      else
        (h.setNext mbFree p.freeMbList,
          { p with freeMbList := some mbFree, freeMbCount := p.freeMbCount + 1 })
    match mbCont with
    | none => (h, p)
    | some mbFree => freeLoop fuel h p mbFree (h mbFree).cont

/-- `CSVS_Mb_Buffer::free_mb`. -/
def freeMb (fuel : Nat) (h : Heap) (p : MbBuffer) (mb : Nat) : Heap × MbBuffer :=
  freeLoop fuel h p mb (h mb).cont

end MbBuffer

/-! ## All pools -/

/-- `CSVS_Mb_Buffer_Manager`, with the blocks; `created` of them were made. -/
structure BufferManager where
  heap : Heap
  created : Nat
  mbBuff : MbClass → Option MbBuffer

namespace BufferManager

/-- The pool of a class in `init`. -/
def initOne (m : BufferManager) (c : MbClass) : BufferManager :=
  if buffCount c = 0 then m
  else
    let (heap, created, p) :=
      MbBuffer.init m.heap m.created (buffCount c) (buffSize c.2 + sizeofMbBufferInfo) c
    { heap, created, mbBuff := Function.update m.mbBuff c (some p) }

/-- `CSVS_Mb_Buffer_Manager::init`. -/
def init (m : BufferManager) : BufferManager := mbClasses.foldl initOne m

/-- `CSVS_Mb_Buffer_Manager::alloc_mb`. -/
def allocMb (m : BufferManager) (mbType : MbType) (mbSize mbCount : UInt32) : BufferManager × Option Nat :=
  match getMbBuffer mbType mbSize with
  | none => (m, none)
  | some c =>
    match m.mbBuff c with
    | none => (m, none)
    | some p =>
      let (heap, p, mb) := p.allocMb m.heap mbCount
      ({ m with heap, mbBuff := Function.update m.mbBuff c (some p) }, mb)

/-- The first loop of `free_mb`: the blocks by their classes. -/
def splitLoop : Nat → Heap → (MbClass → Option Nat) → Option Nat → Heap × (MbClass → Option Nat)
  | 0, h, mbFreeBuff, _ => (h, mbFreeBuff)
  | _ + 1, h, mbFreeBuff, none => (h, mbFreeBuff)
  | fuel + 1, h, mbFreeBuff, some mbFree =>
    let mbTemp := (h mbFree).cont
    let c := (h mbFree).info
    splitLoop fuel (h.setCont mbFree (mbFreeBuff c)) (Function.update mbFreeBuff c (some mbFree)) mbTemp

/-- A step of its second loop: the blocks of a class are given to its pool. -/
def freeOne (mbFreeBuff : MbClass → Option Nat) (m : BufferManager) (c : MbClass) : BufferManager :=
  match mbFreeBuff c, m.mbBuff c with
  | some mb, some p =>
    let (heap, p) := p.freeMb m.created m.heap mb
    { m with heap, mbBuff := Function.update m.mbBuff c (some p) }
  | _, _ => m

/-- `CSVS_Mb_Buffer_Manager::free_mb`. -/
def freeMb (m : BufferManager) (mb : Nat) : BufferManager :=
  let (heap, mbFreeBuff) := splitLoop (m.created + 1) m.heap (fun _ => none) (some mb)
  mbClasses.foldl (freeOne mbFreeBuff) { m with heap }

end BufferManager

/-! ## The managers of the threads -/

/-- `CSVS_Thread_Msg_Buffer_Manager`. -/
structure ThreadManager where
  freeMsgBuffer : MbClass → Option Nat
  usedMsgBuffer : Option Nat
  usedMsgBufferCount : UInt32
  allocedMsgBufferCount : MbClass → Int32

/-- After `reset`. -/
def ThreadManager.new : ThreadManager where
  freeMsgBuffer _ := none
  usedMsgBuffer := none
  usedMsgBufferCount := 0
  allocedMsgBufferCount _ := 0

/-- For the statements: a block that was handed out, by which manager, and the size that was asked for. -/
structure Handed where
  mb : Nat
  thread : Nat
  mbSize : UInt32
  deriving DecidableEq, Repr

/-- The pools and the managers of the threads; for the statements, the blocks that are outstanding. -/
structure MbSystem where
  manager : BufferManager
  threads : Nat → ThreadManager
  outstanding : List Handed

namespace MbSystem

/-- The pools after `init`, with the contents `h` of the memory before, and the managers of the threads. -/
def start (h : Heap) : MbSystem where
  manager := BufferManager.init { heap := h, created := 0, mbBuff := fun _ => none }
  threads _ := .new
  outstanding := []

/-- A batch for the list of a thread, if it is empty. -/
def fill (s : MbSystem) (t : Nat) (mbType : MbType) (mbLen : MbLen) (mbSize : UInt32) : MbSystem :=
  if (s.threads t).freeMsgBuffer (mbType, mbLen) = none then
    let (manager, mb) := s.manager.allocMb mbType mbSize svsAllocMsgBuffCount
    let thread := s.threads t
    { s with
      manager
      threads := Function.update s.threads t
        { thread with freeMsgBuffer := Function.update thread.freeMsgBuffer (mbType, mbLen) mb } }
  else s

/-- The first block of the list of a thread is handed out. -/
def pop (s : MbSystem) (t : Nat) (c : MbClass) (mbSize : UInt32) : MbSystem × Option Nat :=
  let thread := s.threads t
  match thread.freeMsgBuffer c with
  | none => (s, none)
  | some mb =>
    ({ s with
      manager := { s.manager with heap := s.manager.heap.setCont mb none }
      threads := Function.update s.threads t
        { thread with
          freeMsgBuffer := Function.update thread.freeMsgBuffer c (s.manager.heap mb).cont
          allocedMsgBufferCount :=
            Function.update thread.allocedMsgBufferCount c (thread.allocedMsgBufferCount c + 1) }
      outstanding := ⟨mb, t, mbSize⟩ :: s.outstanding }, some mb)

/-- `CSVS_Thread_Msg_Buffer_Manager::alloc_mb` of the thread `t`. -/
def allocMb (s : MbSystem) (t : Nat) (mbType : UInt8) (mbSize : UInt32) : MbSystem × Option Nat :=
  match MbType.ofUInt8 mbType with
  | none => (s, none)
  | some mbType =>
    match mbSizeToLenType mbType mbSize with
    | none => (s, none)
    | some mbLen => (s.fill t mbType mbLen mbSize).pop t (mbType, mbLen) mbSize

/-- A freed block in front of the used list of a thread. -/
def push (s : MbSystem) (t : Nat) (mb : Nat) : MbSystem :=
  let thread := s.threads t
  let heap :=
    match thread.usedMsgBuffer with
    | none => s.manager.heap
    | some used => s.manager.heap.setCont mb (some used)
  let info := (heap mb).info
  { manager := { s.manager with heap }
    threads := Function.update s.threads t
      { thread with
        usedMsgBuffer := some mb
        usedMsgBufferCount := thread.usedMsgBufferCount + 1
        allocedMsgBufferCount :=
          Function.update thread.allocedMsgBufferCount info (thread.allocedMsgBufferCount info - 1) }
    outstanding := s.outstanding.filter fun o => o.mb ≠ mb }

/-- The used list of a thread, which starts with `mb`, is given back. -/
def flush (s : MbSystem) (t : Nat) (mb : Nat) : MbSystem :=
  { s with
    manager := s.manager.freeMb mb
    threads := Function.update s.threads t
      { s.threads t with usedMsgBuffer := none, usedMsgBufferCount := 0 } }

/-- `CSVS_Thread_Msg_Buffer_Manager::free_mb` of the thread `t`. -/
def freeMb (s : MbSystem) (t : Nat) (mb : Nat) : MbSystem :=
  let s := s.push t mb
  let length := (s.manager.heap mb).info.2
  if svsFreeMsgBuffCount ≤ (s.threads t).usedMsgBufferCount ∨ length = .len4K ∨ length = .len64K then
    s.flush t mb
  else s

/-- A call of a thread, or what the holder of a block does to its links. -/
inductive Act
  | allocMb (t : Nat) (mbType : UInt8) (mbSize : UInt32)
  | freeMb (t : Nat) (mb : Nat)
  | link (mb : Nat) (next cont : Option Nat)
  deriving DecidableEq, Repr

def step (s : MbSystem) : Act → MbSystem
  | .allocMb t mbType mbSize => (s.allocMb t mbType mbSize).1
  | .freeMb t mb => s.freeMb t mb
  | .link mb next cont =>
    { s with manager := { s.manager with heap := (s.manager.heap.setNext mb next).setCont mb cont } }

end MbSystem

end AllCamera
