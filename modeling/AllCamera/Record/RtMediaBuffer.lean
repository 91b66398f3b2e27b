import Mathlib.Tactic.Common
import Mathlib.Data.UInt

/-!
# The buffers for received media (`CSVS_Recv_RT_Media_Buffer`)

A thread that receives media has memory buffers and, if it is configured, buffers in tmpfs. Each camera is to
have one memory buffer at least: its first one is taken whenever there is one, a further one only if the
counter of the free ones is not below the number of the cameras that have none yet.

* `RtMediaBuffer`; `init`, `allocTmpfsBuffer`, `allocBuffer`, `freeBuffer`.
* `MediaBufferSystem`: also the cameras that are served; `Act`, `step`.

A buffer is its number, the tmpfs buffers come first. Whether the memory for a buffer can be allocated (and,
in tmpfs, its file be created) is an argument.
-/

namespace AllCamera

/-- `SVS_RECV_RT_MEDIA_DATA_POOL_MAX_LEN`. -/
def svsRecvRtMediaDataPoolMaxLen : UInt32 := 1700 * 1024 * 1024

/-- `CSVS_Recv_RT_Media_Buffer`; `created` buffers were made. -/
structure RtMediaBuffer where
  initFlag : Bool
  bufferLen : UInt32
  freeBufferList : List Nat
  usedBufferList : List Nat
  tmpfsFreeBufferList : List Nat
  tmpfsUsedBufferList : List Nat
  serveLensNum : UInt32
  currServeLensNum : UInt32
  freeMemoryBufferNum : UInt32
  freeTmpfsBufferNum : UInt32
  usedTmpfsBufferFlag : Bool
  created : Nat
  deriving DecidableEq, Repr

namespace RtMediaBuffer

/-- The constructor. -/
def new : RtMediaBuffer where
  initFlag := false
  bufferLen := 0
  freeBufferList := []
  usedBufferList := []
  tmpfsFreeBufferList := []
  tmpfsUsedBufferList := []
  serveLensNum := 0
  currServeLensNum := 0
  freeMemoryBufferNum := 0
  freeTmpfsBufferNum := 0
  usedTmpfsBufferFlag := false
  created := 0

/-- The loop of `init_tempfs_buffer`: `n` more buffers, from the number `i` on. -/
def initTempfsLoop (tmpfsOk : Nat → Bool) : Nat → Nat → RtMediaBuffer → RtMediaBuffer × Bool
  | 0, _, s => (s, true)
  | n + 1, i, s =>
    if tmpfsOk i then
      initTempfsLoop tmpfsOk n (i + 1)
        { s with tmpfsFreeBufferList := s.tmpfsFreeBufferList ++ [s.created], created := s.created + 1 }
    else (s, false)

/-- `init_tempfs_buffer`: does it return `SVS_RESULT_OK`? -/
def initTempfsBuffer (s : RtMediaBuffer) (tmpfsOk : Nat → Bool) (tmpfsBufferNum : UInt32) :
    RtMediaBuffer × Bool :=
  initTempfsLoop tmpfsOk tmpfsBufferNum.toNat 0 { s with usedTmpfsBufferFlag := true }

/-- The loop of `init`; where it ends. -/
def initLoop (memoryOk : Nat → Bool) : Nat → Nat → RtMediaBuffer → RtMediaBuffer × Nat
  | 0, i, s => (s, i)
  | n + 1, i, s =>
    if memoryOk i then
      initLoop memoryOk n (i + 1)
        { s with freeBufferList := s.freeBufferList ++ [s.created], created := s.created + 1 }
    else (s, i)

/-- `init`: does it return `SVS_RESULT_OK`? -/
def init (s : RtMediaBuffer) (memoryOk tmpfsOk : Nat → Bool)
    (bufferLen bufferNum tmpfsBufferNum serveLensNum : UInt32) : RtMediaBuffer × Bool :=
  if s.initFlag then (s, true)
  else if bufferNum = 0 then (s, false)
  else if svsRecvRtMediaDataPoolMaxLen / bufferLen < bufferNum then (s, false)
  else
    let s :=
      { s with
        usedBufferList := []
        freeBufferList := []
        serveLensNum
        currServeLensNum := 0
        tmpfsUsedBufferList := []
        tmpfsFreeBufferList := []
        usedTmpfsBufferFlag := false }
    let (s, ok) := if 0 < tmpfsBufferNum then s.initTempfsBuffer tmpfsOk tmpfsBufferNum else (s, true)
    if !ok then (s, false)
    else
      let (s, i) := initLoop memoryOk bufferNum.toNat 0 s
      if i ≠ bufferNum.toNat then ({ s with freeBufferList := [] }, false)
      else ({ s with initFlag := true, bufferLen }, true)

/-- `alloc_tmpfs_buffer`. -/
def allocTmpfsBuffer (s : RtMediaBuffer) : RtMediaBuffer × Option Nat :=
  if !s.initFlag then (s, none)
  else
    match s.tmpfsFreeBufferList with
    | [] => (s, none)
    | buffer :: rest =>
      ({ s with
        tmpfsFreeBufferList := rest
        tmpfsUsedBufferList := s.tmpfsUsedBufferList ++ [buffer]
        freeTmpfsBufferNum := s.freeTmpfsBufferNum - 1 }, some buffer)

/-- `alloc_buffer`. -/
def allocBuffer (s : RtMediaBuffer) (bLensFirstAllocFlag : Bool) : RtMediaBuffer × Option Nat :=
  if !s.initFlag then (s, none)
  else if !bLensFirstAllocFlag ∧ s.usedTmpfsBufferFlag ∧
      s.freeMemoryBufferNum < s.serveLensNum - s.currServeLensNum then (s, none)
  else
    match s.freeBufferList with
    | [] => (s, none)
    | buffer :: rest =>
      ({ s with
        currServeLensNum := if bLensFirstAllocFlag then s.currServeLensNum + 1 else s.currServeLensNum
        freeBufferList := rest
        usedBufferList := s.usedBufferList ++ [buffer]
        freeMemoryBufferNum := s.freeMemoryBufferNum - 1 }, some buffer)

/-- `free_buffer`: does it return `SVS_RESULT_OK`? -/
def freeBuffer (s : RtMediaBuffer) (buffer : Option Nat) (bTmpfsMemory bLastMemoryBuffer : Bool) :
    RtMediaBuffer × Bool :=
  match buffer with
  | none => (s, false)
  | some buffer =>
    if !s.initFlag then (s, false)
    else if bTmpfsMemory then
      ({ s with
        tmpfsUsedBufferList := s.tmpfsUsedBufferList.filter fun b => b ≠ buffer
        tmpfsFreeBufferList := s.tmpfsFreeBufferList ++ [buffer]
        freeTmpfsBufferNum := s.freeTmpfsBufferNum + 1 }, true)
    else
      ({ s with
        usedBufferList := s.usedBufferList.filter fun b => b ≠ buffer
        freeBufferList := s.freeBufferList ++ [buffer]
        freeMemoryBufferNum := s.freeMemoryBufferNum + 1
        currServeLensNum := if bLastMemoryBuffer then s.currServeLensNum - 1 else s.currServeLensNum }, true)

end RtMediaBuffer

/-- The buffers; for the statements, the cameras that are served. -/
structure MediaBufferSystem where
  buffers : RtMediaBuffer
  cameras : List Nat
  deriving DecidableEq, Repr

namespace MediaBufferSystem

/-- A call for a camera. A camera is served from its first buffer until its last one is freed. -/
inductive Act
  | allocBuffer (camera : Nat) (bLensFirstAllocFlag : Bool)
  | allocTmpfsBuffer
  | freeBuffer (buffer : Nat) (last : Option Nat)
  | freeTmpfsBuffer (buffer : Nat)
  deriving DecidableEq, Repr

def step (s : MediaBufferSystem) : Act → MediaBufferSystem
  | .allocBuffer camera first =>
    let (buffers, buffer) := s.buffers.allocBuffer first
    { buffers, cameras := if first && buffer.isSome then camera :: s.cameras else s.cameras }
  | .allocTmpfsBuffer => { s with buffers := s.buffers.allocTmpfsBuffer.1 }
  | .freeBuffer buffer last =>
    { buffers := (s.buffers.freeBuffer (some buffer) false last.isSome).1
      cameras := s.cameras.filter fun camera => last ≠ some camera }
  | .freeTmpfsBuffer buffer => { s with buffers := (s.buffers.freeBuffer (some buffer) true false).1 }

/-- A camera makes one first allocation while it is not served and further ones while it is; a buffer that is
used is freed to its own kind, and the last one of a camera that is served ends that. -/
def Ok (s : MediaBufferSystem) : Act → Prop
  | .allocBuffer camera first => if first then camera ∉ s.cameras else camera ∈ s.cameras
  | .allocTmpfsBuffer => True
  | .freeBuffer buffer last =>
    buffer ∈ s.buffers.usedBufferList ∧ ∀ camera, last = some camera → camera ∈ s.cameras
  | .freeTmpfsBuffer buffer => buffer ∈ s.buffers.tmpfsUsedBufferList

end MediaBufferSystem

end AllCamera
