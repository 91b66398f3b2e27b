import AllCamera.Lib.Memory
import AllCamera.Record.FileEgress

/-!
# The receiver of a camera's stream (`CAC_Recv_Stream`)

The receiver reads the frames of a camera from a TCP connection into a media block. In front of each frame
it puts an extended header. When the next frame may not fit, the block is given to the media processor to
be written, as one stripe, and another one is taken from the pool; if there is none, the data is copied to
a tmpfs block, and the media block is used again.

* `PackHead`, `checkPackHead`, `frameSize`: the header of a packet.
* `FrameClock`: the time tick of a frame (`check_timetick`).
* `MediaBuffer`: a media block with its header; `RecvStream`: the members; `handleInput` and what it calls.
* `step`: one call of a member function. The part of `recv_media_data` after a frame is a step of its own
  (`timeSlice`).

The results of the socket, the pools, the media processor and the clock are arguments. The layout of the
headers that a frame begins with is not given here (`RecvConfig`).
-/

namespace AllCamera

/-- `SEGMENT_MAX_SIZE`. -/
def segmentMaxSize : UInt32 := 1400

/-- `SVS_STREAM_DATAGRAM_MAX`. -/
def svsStreamDatagramMax : UInt32 := 1418

/-- `SVS_RECORD_FILE_ALIGN_LEN`. -/
def svsRecordFileAlignLen : UInt32 := 4096

/-- `SVS_FRAME_TIMETICK_INTERVAL_MAX`. -/
def svsFrameTimetickIntervalMax : UInt32 := 1000

/-- `SVS_FRAME_DEFAULT_TIMETICK`. -/
def svsFrameDefaultTimetick : UInt32 := 40

/-- `SVS_RECORDFILE_SLICE_TIME`. -/
def svsRecordfileSliceTime : Int := 30

/-- `sizeof(SVS_EXTEND_FRAME_HEADER)`. -/
def extHeadSize : UInt32 := 16

/-- `sizeof(SVS_Recv_Media_Header)`; it is packed. -/
def recvMediaHeaderSize : UInt32 := 85

/-- `SVS_ERR_NOMEM`. -/
def svsErrNomem : Int32 := 1

/-- `Frame_Lost_Num`. -/
def frameLostNum : List UInt32 := [10, 5, 4, 3, 2]

/-- `DEFAULT_FRAME_LOST_NUM`. -/
def defaultFrameLostNum : UInt32 := 5

/-! ## The header of a packet -/

/-- `AVS_PACK_HEAD`. -/
structure PackHead where
  dwFrameID : UInt32
  dwFrameLen : UInt32
  btIsKeyFrame : UInt8
  btPackID : UInt8
  btPackCount : UInt8
  wPackDataLen : UInt16
  deriving DecidableEq, Repr

/-- `check_pack_head`. -/
def checkPackHead (h : PackHead) : Bool :=
  if svsStreamDatagramMax.toNat < h.wPackDataLen.toNat then false
  else if h.dwFrameLen = 0 then false
  else if h.dwFrameLen.toNat < h.wPackDataLen.toNat then false
  else if h.btPackID ≠ 0 then false
  else if h.btIsKeyFrame ≠ 0 ∧ h.btIsKeyFrame ≠ 1 then false
  else if h.btPackCount ≤ h.btPackID then false
  else if (h.btPackID.toNat : Int) < h.btPackCount.toNat - 1 ∧
      h.wPackDataLen.toNat ≠ segmentMaxSize.toNat then false
  else true

/-- The size of a frame in `get_cur_frame_size`, with a packet header of `header_size` bytes. -/
def frameSize (header_size : UInt32) (h : PackHead) : UInt32 :=
  let modRet := h.dwFrameLen % segmentMaxSize
  let modRet := if modRet = 0 then segmentMaxSize else modRet
  (h.btPackCount.toUInt32 - 1) * svsStreamDatagramMax + modRet + header_size

/-! ## The time tick -/

/-- The members that `check_timetick` and `count_frame_info` read and write. -/
structure FrameClock where
  recvFirstFramTime : Int
  firstFrameTimetick : UInt32
  lastFrameTimetick : UInt32
  lastAdjustTimetick : UInt32
  curRecvFrameId : UInt32
  lastRecvFrameId : UInt32
  lostFrameNum : UInt32
  totalFrameNum : UInt32
  deriving DecidableEq, Repr

namespace FrameClock

/-- After `reset`; it leaves the number of frames as it is. -/
def reset (totalFrameNum : UInt32) : FrameClock where
  recvFirstFramTime := 0
  firstFrameTimetick := 0
  lastFrameTimetick := 0
  lastAdjustTimetick := 0
  curRecvFrameId := 0
  lastRecvFrameId := 0
  lostFrameNum := 0
  totalFrameNum

/-- `count_frame_info`. -/
def countFrameInfo (k : FrameClock) (addIndexFlag : Bool) : FrameClock :=
  if addIndexFlag then k
  else if k.curRecvFrameId ≠ k.lastRecvFrameId + 1 ∧ k.lastRecvFrameId ≠ 0 then
    let frameIdNum := k.curRecvFrameId - k.lastRecvFrameId - 1
    { k with
      lostFrameNum := k.lostFrameNum + frameIdNum
      totalFrameNum := k.totalFrameNum + frameIdNum }
  else { k with totalFrameNum := k.totalFrameNum + 1 }

/-- `newIndexSegFalg` of `check_timetick`: the time tick goes back, or on by too much. -/
def newIndexSegFlag (lastFrameTimetick currTimeTick : UInt32) : Bool :=
  currTimeTick < lastFrameTimetick ∨
    lastFrameTimetick ≠ 0 ∧ svsFrameTimetickIntervalMax < currTimeTick - lastFrameTimetick

/-- The part of `check_timetick` that goes on with the clock. -/
def adjust (k : FrameClock) (newIndexSegFlag : Bool) (currTimeTick : UInt32) : FrameClock :=
  let k :=
    if !newIndexSegFlag ∧ k.lastAdjustTimetick = 0 then
      { k with lastAdjustTimetick := currTimeTick }
    else k
  if newIndexSegFlag then
    { k with lastAdjustTimetick := k.lastAdjustTimetick + svsFrameDefaultTimetick }
  else
    { k with lastAdjustTimetick := k.lastAdjustTimetick + (currTimeTick - k.lastFrameTimetick) }

/-- The part of `check_timetick` after `count_frame_info`. -/
def noteFrame (k : FrameClock) (currTimeTick : UInt32) (now : Int) : FrameClock :=
  let k := { k with lastFrameTimetick := currTimeTick }
  let k :=
    if k.recvFirstFramTime = 0 then
      { k with recvFirstFramTime := now, firstFrameTimetick := k.lastFrameTimetick }
    else k
  { k with lastRecvFrameId := k.curRecvFrameId }

/-- `check_timetick` of a frame with `nVideoSize` and the time tick `currTimeTick`, at time `now`; second
component: the time tick that is put into the frame. -/
def checkTimetick (k : FrameClock) (nVideoSize currTimeTick : UInt32) (now : Int) :
    FrameClock × UInt32 :=
  if nVideoSize = 0 then
    let k := { k with lastRecvFrameId := k.curRecvFrameId }
    let k := if k.lastAdjustTimetick = 0 then { k with lastAdjustTimetick := currTimeTick } else k
    (k, k.lastAdjustTimetick)
  else
    let newIndexSegFlag := newIndexSegFlag k.lastFrameTimetick currTimeTick
    let k := k.adjust newIndexSegFlag currTimeTick
    let nTimeTick := k.lastAdjustTimetick
    ((k.countFrameInfo newIndexSegFlag).noteFrame currTimeTick now, nTimeTick)

end FrameClock

/-! ## The media block -/

/-- The configuration, and the layout of the headers that a frame begins with: the size of `AVS_PACK_HEAD`,
and where `m_btIsKeyFrame`, `m_btPackCount`, `nVideoSize` and `nTimeTick` are, counted from the end of the
extended header. -/
structure RecvConfig where
  recvMediaBufferSize : UInt32
  writeMediaDataStripeWidth : UInt32
  recordTimetickLocal : Bool
  headerSize : UInt32
  isKeyFramePos : Nat
  packCountPos : Nat
  videoSizePos : Nat
  timeTickPos : Nat

/-- `SVS_Media_Index`; the receiver sets these of its members. -/
structure MediaIndex where
  lastIndexFrameID : UInt32
  lastIndexRecvTime : Int
  deriving DecidableEq, Repr

/-- `SVS_Recv_Media_Header`, of a block that is not in tmpfs. -/
structure RecvMediaHeader where
  firstFrameRecvTime : Int
  lastFrameRecvTime : Int
  lastPacketRecvTime : Int
  mediaDataStartPos : UInt32
  recvedFrameCount : UInt32
  lastFrameStartPos : UInt32
  indexList : Option (List MediaIndex)
  curFrameStartPos : UInt32
  curRecvedDataLen : UInt32
  deriving DecidableEq, Repr

/-- A frame as it was received, with its size by the packet header, and the time tick that was put into
it. -/
structure RecvFrame where
  size : UInt32
  data : List UInt8
  nTimeTick : UInt32
  deriving DecidableEq, Repr

/-- A media block; `base` is what 32 bits hold of its address. For the statements, there are the frames in
it, and what was received of the next one. -/
structure MediaBuffer where
  base : UInt32
  mem : Memory
  rdPtr : Nat
  wrPtr : Nat
  header : RecvMediaHeader
  frames : List RecvFrame
  recved : List UInt8

namespace MediaBuffer

/-- A block as it comes from the pool. -/
def fresh (base : UInt32) (mem : Memory) : MediaBuffer where
  base
  mem
  rdPtr := 0
  wrPtr := 0
  header := ⟨0, 0, 0, 0, 0, 0, none, 0, 0⟩
  frames := []
  recved := []

/-- Where the data in a block starts: behind the header, aligned in memory. -/
def dataStartPos (base : UInt32) : UInt32 :=
  let alignPos := base + recvMediaHeaderSize
  let alignPos :=
    if alignPos % svsRecordFileAlignLen ≠ 0 then
      (alignPos + svsRecordFileAlignLen) &&& 0xfffff000
    else alignPos
  alignPos - base

/-- `init_media_buffer`, as to the block. -/
def init (b : MediaBuffer) : MediaBuffer :=
  let pos := dataStartPos b.base
  { b with
    rdPtr := pos.toNat
    wrPtr := pos.toNat + extHeadSize.toNat
    mem := b.mem.write (pos.toNat + extHeadSize.toNat) (List.replicate extHeadSize.toNat 0)
    header := ⟨0, 0, 0, pos, 0, pos, none, pos, 0⟩
    frames := []
    recved := [] }

/-- `posValue` of `enqueue_dio` and `enqueue_tmpfs`. -/
def posValue (b : MediaBuffer) : UInt32 := b.header.curFrameStartPos - b.header.mediaDataStartPos

/-- The extended header of the frame at `pos`: `nFrameSize`, and `nAdjustFrameSize`. -/
def nFrameSize (b : MediaBuffer) (pos : UInt32) : UInt32 := b.mem.u32 pos.toNat

def nAdjustFrameSize (b : MediaBuffer) (pos : UInt32) : UInt32 := b.mem.u32 (pos.toNat + 4)

/-- The last frame is made to end with the stripe. -/
def adjustLastFrame (b : MediaBuffer) (stripeWidth : UInt32) : MediaBuffer :=
  if stripeWidth ≠ b.posValue then
    let posValue := stripeWidth - b.posValue
    { b with
      mem := b.mem.setU32 (b.header.lastFrameStartPos.toNat + 4)
        (b.nFrameSize b.header.lastFrameStartPos + posValue) }
  else b

/-- Bytes are received at the write pointer. -/
def recv (b : MediaBuffer) (data : List UInt8) : MediaBuffer :=
  { b with
    mem := b.mem.write b.wrPtr data
    wrPtr := b.wrPtr + data.length
    header := { b.header with
      curRecvedDataLen := b.header.curRecvedDataLen + UInt32.ofNat data.length }
    recved := b.recved ++ data }

/-- What was received of a frame is dropped. -/
def dropFrame (b : MediaBuffer) : MediaBuffer :=
  { b with
    wrPtr := b.header.curFrameStartPos.toNat + extHeadSize.toNat
    header := { b.header with curRecvedDataLen := 0 }
    recved := [] }

/-- `m_btIsKeyFrame`, `nVideoSize` and `nTimeTick` of the frame that was received. -/
def isKeyFrame (c : RecvConfig) (b : MediaBuffer) : UInt8 :=
  b.mem (b.header.curFrameStartPos.toNat + extHeadSize.toNat + c.isKeyFramePos)

def nVideoSize (c : RecvConfig) (b : MediaBuffer) : UInt32 :=
  b.mem.u32 (b.header.curFrameStartPos.toNat + extHeadSize.toNat + c.videoSizePos)

def nTimeTick (c : RecvConfig) (b : MediaBuffer) : UInt32 :=
  b.mem.u32 (b.header.curFrameStartPos.toNat + extHeadSize.toNat + c.timeTickPos)

/-- What `check_timetick` writes to the block. -/
def setTimeTick (c : RecvConfig) (b : MediaBuffer) (nTimeTick : UInt32) (currFrameTime : Int) :
    MediaBuffer :=
  let mem :=
    b.mem.setU32 (b.header.curFrameStartPos.toNat + extHeadSize.toNat + c.timeTickPos) nTimeTick
  if b.nVideoSize c = 0 then { b with mem }
  else
    { b with
      mem
      header := { b.header with
        firstFrameRecvTime :=
          if b.header.firstFrameRecvTime = 0 then currFrameTime else b.header.firstFrameRecvTime
        lastPacketRecvTime := currFrameTime } }

/-- The end of `combin_packet`: the frame gets its extended header. -/
def addFrame (c : RecvConfig) (b : MediaBuffer) (size nTimeTick : UInt32) : MediaBuffer :=
  let start := b.header.curFrameStartPos
  let nFrameSize := b.header.curRecvedDataLen + extHeadSize
  let nPacketCount := (b.mem (start.toNat + extHeadSize.toNat + c.packCountPos)).toUInt32
  { b with
    mem := b.mem.write start.toNat
      (le32Bytes nFrameSize ++ le32Bytes nFrameSize ++ le32Bytes nPacketCount ++ [0, 0, 0, 0])
    header := { b.header with
      recvedFrameCount := b.header.recvedFrameCount + 1
      lastFrameRecvTime := b.header.lastPacketRecvTime
      lastFrameStartPos := start
      curFrameStartPos := nFrameSize + start
      curRecvedDataLen := 0 }
    frames := b.frames ++ [⟨size, b.recved, nTimeTick⟩]
    recved := [] }

end MediaBuffer

/-! ## The receiver -/

/-- For the statements, an unsigned subtraction or a receive that is only right if there is room. -/
inductive SpaceCheck where
  | reserve (remain : UInt32)
  | stripe (posValue : UInt32)
  | recv (wrPtr : Nat) (size : UInt32)
  deriving DecidableEq, Repr

/-- The members of `CAC_Recv_Stream`; `receiving` is whether it is in the state `RECV_STREAM`, and not
closed. For the statements, there are the size of the frame that is being received, whether one has just
been received (`frameDone`), the blocks that were given to the media processor, and the checks. -/
structure RecvStream where
  receiving : Bool
  stopRecvFlag : Bool
  recvRtMediaBuff : Option MediaBuffer
  remainRecvBuffSize : UInt32
  curFrameRemainSize : UInt32
  recvTimeRemove : Int
  lastCheckIndexTime : Int
  lastCheckRecordTime : Int
  recordKeyFrameFlag : Bool
  recordKeyFrameRate : UInt32
  recvFrameNumThenLost : UInt32
  clock : FrameClock
  curFrameSize : UInt32
  frameDone : Bool
  written : List MediaBuffer
  checks : List SpaceCheck

/-- The results of the pool, of the `write` to tmpfs, and of `write_media` of a tmpfs block. -/
structure PoolResult where
  allocBuffer : Option (UInt32 × Memory)
  allocTmpfsBuffer : Bool
  writeResult : UInt32
  writeMediaOk : Bool

/-- The result of looking at the next packet header: there is not all of it; the socket fails; the header,
with the result of `proc_eos_packet`. -/
inductive Peek where
  | again
  | fails
  | head (h : PackHead) (eosResult : Int32)

/-- What `handle_input` gets from the socket, the pools and the clock. A receive gives what fits of `data`;
if there is none, `again` is whether it can be tried again. -/
structure InputEnv where
  peek : Peek
  pool : PoolResult
  data : List UInt8
  again : Bool
  now : Int

namespace RecvStream

/-- The constructor. -/
def new : RecvStream where
  receiving := false
  stopRecvFlag := false
  recvRtMediaBuff := none
  remainRecvBuffSize := 0
  curFrameRemainSize := 0
  recvTimeRemove := 0
  lastCheckIndexTime := 0
  lastCheckRecordTime := 0
  recordKeyFrameFlag := false
  recordKeyFrameRate := 0
  recvFrameNumThenLost := 0
  clock := .reset 0
  curFrameSize := 0
  frameDone := false
  written := []
  checks := []

/-- `reset`. -/
def reset (s : RecvStream) : RecvStream :=
  { new with
    clock := .reset s.clock.totalFrameNum
    written := s.written
    checks := s.checks }

/-- `init_media_buffer`. -/
def initMediaBuffer (c : RecvConfig) (s : RecvStream) : RecvStream :=
  match s.recvRtMediaBuff with
  | none => s
  | some b =>
    { s with
      recvRtMediaBuff := some b.init
      remainRecvBuffSize :=
        c.recvMediaBufferSize - MediaBuffer.dataStartPos b.base - extHeadSize }

/-- The check of the stripe width against the used bytes of block `b`. -/
def checkStripe (c : RecvConfig) (s : RecvStream) (b : MediaBuffer) : RecvStream :=
  if c.writeMediaDataStripeWidth ≠ b.posValue then
    { s with checks := s.checks ++ [.stripe b.posValue] }
  else s

/-- `enqueue_dio`: whatever `write_media` returns, the receiver lets the block go. -/
def enqueueDio (c : RecvConfig) (s : RecvStream) : RecvStream :=
  match s.recvRtMediaBuff with
  | none => s
  | some b =>
    if b.header.recvedFrameCount = 0 then
      { s with recvRtMediaBuff := none, remainRecvBuffSize := 0 }
    else
      let s := s.checkStripe c b
      let b := b.adjustLastFrame c.writeMediaDataStripeWidth
      let last := b.header.lastFrameStartPos
      let b := { b with wrPtr := last.toNat + (b.nAdjustFrameSize last).toNat }
      { s with
        recvRtMediaBuff := none
        remainRecvBuffSize := 0
        written := s.written ++ [b] }

/-- `enqueue_tmpfs`. A tmpfs block has the bytes of one stripe from the read pointer on. -/
def enqueueTmpfs (c : RecvConfig) (s : RecvStream) (r : PoolResult) : RecvStream × Int32 :=
  match r.allocBuffer with
  | some (base, mem) =>
    let s := s.enqueueDio c
    let s := { s with recvRtMediaBuff := some (.fresh base mem) }
    (s.initMediaBuffer c, svsResultOk)
  | none =>
    match s.recvRtMediaBuff with
    | none => (s, svsErrNomem)
    | some b =>
      if !r.allocTmpfsBuffer then (s, svsErrNomem)
      else
        let s := s.checkStripe c b
        let b := b.adjustLastFrame c.writeMediaDataStripeWidth
        let s := { s with recvRtMediaBuff := some b }
        if r.writeResult ≠ c.writeMediaDataStripeWidth then (s, svsResultFailure)
        else
          let tmpfs := { b with wrPtr := b.rdPtr + c.writeMediaDataStripeWidth.toNat }
          let s := { s with written := s.written ++ [tmpfs] }
          if !r.writeMediaOk then (s, svsResultFailure)
          else (s.initMediaBuffer c, svsResultOk)

/-- `get_cur_frame_size`. -/
def getCurFrameSize (c : RecvConfig) (s : RecvStream) : Peek → RecvStream × Int32
  | .again => (s, svsResultOk)
  | .fails => (s, svsResultFailure)
  | .head h eosResult =>
    if h.btIsKeyFrame = 0xFF then (s, eosResult)
    else if !checkPackHead h then (s, svsResultFailure)
    else
      ({ s with
        curFrameRemainSize := frameSize c.headerSize h
        clock := { s.clock with curRecvFrameId := h.dwFrameID }
        curFrameSize := frameSize c.headerSize h }, svsResultOk)

/-- The frame in block `b` is not a key frame, and frames are being lost. -/
def LosesFrames (c : RecvConfig) (s : RecvStream) (b : MediaBuffer) : Prop :=
  s.recordKeyFrameFlag ∧ b.isKeyFrame c ≠ 1 ∧ b.nVideoSize c ≠ 0

instance (c : RecvConfig) (s : RecvStream) (b : MediaBuffer) : Decidable (s.LosesFrames c b) :=
  inferInstanceAs (Decidable (_ ∧ _ ∧ _))

/-- The frame is counted, where frames are being lost. -/
def countLost (c : RecvConfig) (s : RecvStream) (b : MediaBuffer) : RecvStream :=
  if s.LosesFrames c b then
    { s with
      recvFrameNumThenLost := s.recvFrameNumThenLost + 1
      recordKeyFrameRate :=
        if defaultFrameLostNum < s.recordKeyFrameRate then defaultFrameLostNum
        else s.recordKeyFrameRate }
  else s

/-- The end of `combin_packet`: room for the next extended header is taken, if there is enough. -/
def reserveHeader (s : RecvStream) (b : MediaBuffer) : RecvStream :=
  if svsRecordFileAlignLen < s.remainRecvBuffSize ∧
      svsRecordFileAlignLen < s.remainRecvBuffSize - extHeadSize then
    { s with
      recvRtMediaBuff := some { b with wrPtr := b.wrPtr + extHeadSize.toNat }
      remainRecvBuffSize := s.remainRecvBuffSize - extHeadSize }
  else { s with recvRtMediaBuff := some b }

/-- `combin_packet`; `check_timetick` does not fail where there is a block. -/
def combinPacket (c : RecvConfig) (s : RecvStream) (now : Int) : RecvStream × Int32 :=
  match s.recvRtMediaBuff with
  | none => (s, -1)
  | some b =>
    let loses := s.LosesFrames c b
    let s := s.countLost c b
    if loses ∧
        frameLostNum.getD (s.recordKeyFrameRate - 1).toNat 0 ≤ s.recvFrameNumThenLost then
      ({ s with
        recvRtMediaBuff := some b.dropFrame
        remainRecvBuffSize := s.remainRecvBuffSize + b.header.curRecvedDataLen }, svsResultOk)
    else
      let currFrameTime := now - s.recvTimeRemove
      let r := s.clock.checkTimetick (b.nVideoSize c) (b.nTimeTick c) currFrameTime
      let b := (b.setTimeTick c r.2 currFrameTime).addFrame c s.curFrameSize r.2
      ({ s with clock := r.1 }.reserveHeader b, svsResultOk)

/-- `recv_media_data` with what the socket has, up to `check_record_time_slice`. -/
def recvMediaData (c : RecvConfig) (s : RecvStream) (env : InputEnv) : RecvStream × Int32 :=
  match s.recvRtMediaBuff with
  | none => (s, svsResultFailure)
  | some b =>
    let s := { s with checks := s.checks ++ [.recv b.wrPtr s.curFrameRemainSize] }
    let data := env.data.take s.curFrameRemainSize.toNat
    if data.isEmpty then (s, if env.again then svsResultOk else svsResultFailure)
    else
      let s := { s with
        recvRtMediaBuff := some (b.recv data)
        remainRecvBuffSize := s.remainRecvBuffSize - UInt32.ofNat data.length
        curFrameRemainSize := s.curFrameRemainSize - UInt32.ofNat data.length }
      if s.curFrameRemainSize = 0 then
        let r := s.combinPacket c env.now
        if r.2 ≠ 0 then (r.1, svsResultFailure)
        else ({ r.1 with frameDone := true }, svsResultOk)
      else (s, svsResultOk)

/-- The test of `handle_input` whether the block has to be changed. -/
def NeedsBuffer (s : RecvStream) : Prop :=
  s.remainRecvBuffSize = 0 ∨
    s.remainRecvBuffSize - svsRecordFileAlignLen < s.curFrameRemainSize ∨
    s.recvRtMediaBuff.isNone

instance (s : RecvStream) : Decidable s.NeedsBuffer := inferInstanceAs (Decidable (_ ∨ _ ∨ _))

/-- The part of `handle_input` that tests the remaining space and changes the block. -/
def takeBuffer (c : RecvConfig) (s : RecvStream) (r : PoolResult) : RecvStream × Int32 :=
  let s' :=
    if s.remainRecvBuffSize = 0 then s
    else { s with checks := s.checks ++ [.reserve s.remainRecvBuffSize] }
  if s.NeedsBuffer then s'.enqueueTmpfs c r else (s', svsResultOk)

/-- `handle_input`, of a handle that is valid. -/
def handleInput (c : RecvConfig) (s : RecvStream) (env : InputEnv) : RecvStream × Int32 :=
  if s.stopRecvFlag then (s, svsResultFailure)
  else
    let r :=
      if s.curFrameRemainSize = 0 then s.getCurFrameSize c env.peek else (s, svsResultOk)
    if r.2 ≠ svsResultOk then (r.1, svsResultFailure)
    else if r.1.curFrameRemainSize = 0 then (r.1, svsResultOk)
    else
      let r := r.1.takeBuffer c env.pool
      if r.2 = svsErrNomem then (r.1, svsResultOk)
      else if r.2 ≠ svsResultOk then (r.1, svsResultFailure)
      else r.1.recvMediaData c env

/-- `updateCluster` at time `nowTime`; `newOk` is whether an index list can be had. -/
def updateCluster (s : RecvStream) (nowTime : Int) (newOk : Bool) : RecvStream × Int32 :=
  if s.lastCheckIndexTime = 0 then
    ({ s with lastCheckIndexTime := nowTime - nowTime.tmod svsRecordfileSliceTime },
      svsResultOk)
  else if s.lastCheckIndexTime = nowTime then (s, svsResultOk)
  else
    match s.recvRtMediaBuff with
    | none => (s, svsResultOk)
    | some b =>
      if b.header.indexList.isNone ∧ !newOk then (s, svsResultOk)
      else
        let curIndex := ⟨s.clock.curRecvFrameId, b.header.lastPacketRecvTime⟩
        let header := { b.header with
          indexList := some (b.header.indexList.getD [] ++ [curIndex]) }
        ({ s with
          recvRtMediaBuff := some { b with header }
          lastCheckIndexTime := nowTime }, 1)

/-- `updateRecordFile` at time `nowTime`. -/
def updateRecordFile (c : RecvConfig) (s : RecvStream) (nowTime : Int) (r : PoolResult) :
    RecvStream :=
  if s.lastCheckRecordTime = 0 then
    { s with lastCheckRecordTime := nowTime - nowTime.tmod bigRecordfileTimeSlice }
  else if s.lastCheckRecordTime = nowTime then s
  else
    let r := s.enqueueTmpfs c r
    if r.2 = svsResultOk then { r.1 with lastCheckRecordTime := nowTime } else r.1

/-- The time of the last frame, at time `now`. -/
def currFrameTime (c : RecvConfig) (s : RecvStream) (now : Int) : Int :=
  if c.recordTimetickLocal then now - s.recvTimeRemove
  else
    s.clock.recvFirstFramTime +
      ((s.clock.lastFrameTimetick - s.clock.firstFrameTimetick).toNat / 1000 : Nat)

/-- `check_record_time_slice`. -/
def checkRecordTimeSlice (c : RecvConfig) (s : RecvStream) (now : Int) (newOk : Bool)
    (pool : PoolResult) : RecvStream :=
  if s.recvRtMediaBuff.isNone then s
  else
    let nowTime := s.currFrameTime c now
    let r :=
      if svsRecordfileSliceTime ≤ nowTime - s.lastCheckIndexTime then
        s.updateCluster nowTime newOk
      else (s, 1)
    if r.2 ≠ 1 then r.1
    else if bigRecordfileTimeSlice ≤ nowTime - s.lastCheckRecordTime then
      r.1.updateRecordFile c nowTime pool
    else r.1

/-- `record_key_frame`. -/
def recordKeyFrame (s : RecvStream) (bSwitch : Bool) : RecvStream :=
  if bSwitch then
    { s with
      recordKeyFrameRate :=
        if s.recordKeyFrameRate < defaultFrameLostNum then s.recordKeyFrameRate + 1
        else s.recordKeyFrameRate
      recordKeyFrameFlag := true }
  else
    { s with recordKeyFrameRate := 0, recvFrameNumThenLost := 0, recordKeyFrameFlag := false }

/-- A step: the receiver is started, up to the response to its request; data comes in; the rest of
`recv_media_data` after a frame; it is closed; `stop_recv`; `record_key_frame`; `set_time_remove`. -/
inductive Act where
  | start
  | input (env : InputEnv)
  | timeSlice (now : Int) (newOk : Bool) (pool : PoolResult)
  | close
  | stop
  | recordKeyFrame (bSwitch : Bool)
  | setTimeRemove (remove_time : Int)

def step (c : RecvConfig) (s : RecvStream) : Act → RecvStream
  | .start => if s.receiving then s else { s.reset with receiving := true }
  | .input env => if s.receiving ∧ !s.frameDone then (s.handleInput c env).1 else s
  | .timeSlice now newOk pool =>
    if s.frameDone then { s.checkRecordTimeSlice c now newOk pool with frameDone := false } else s
  | .close =>
    if s.receiving ∧ !s.frameDone then
      { s.enqueueDio c with receiving := false, stopRecvFlag := false }
    else s
  | .stop => if s.receiving then { s with stopRecvFlag := true } else s
  | .recordKeyFrame bSwitch => s.recordKeyFrame bSwitch
  | .setTimeRemove remove_time => { s with recvTimeRemove := remove_time }

end RecvStream

end AllCamera
