import AllCamera.Lib.Nal
import AllCamera.Stream.PsDemux.HandleFrame

/-!
# From RTP frames to elementary-stream frames (`CRtp2PsProcessor`)

The frame organizers hand the packets of one RTP frame to `handleRtpFrame`. It writes what they
carry to the frame cache, one behind the other, and gives the cache to `m_PsRtpEncap`. Every
packet was parsed in `Send` and in `insertRtpPacket` before, so its padding bit is cleared and it
is accepted.

* `checkVideo`: the loop of `checkVideoRtpFrame`, with the unpacking of FU-A fragments.
* `handleRtpFrame`: a call. `inserted` is what `m_PsRtpEncap` was given so far.

The cache is there (`Init` makes it); the processor without one inserts nothing.
-/

namespace AllCamera

/-- A call of `insertVideoFrame` or `insertAudioFrame`: the bytes and the time tick. -/
inductive Inserted where
  | video (frame : List UInt8) (ulTimeTick : UInt32)
  | audio (frame : List UInt8) (ulTimeTick : UInt32)
  deriving DecidableEq, Repr

/-- `CRtp2PsProcessor`: the value of `GetRecvVideoPT`, whether there is a send session, the frame
cache with `m_pWritePos` as an offset in it, and the calls of the encapsulator. -/
structure Rtp2Ps where
  recvVideoPT : UInt8
  sendSession : Bool
  cache : Memory
  writePos : Nat
  inserted : List Inserted

namespace MsgBlock

/-- The block after `ParsePacket`, which clears the padding bit. -/
def parsed (b : MsgBlock) : MsgBlock := { b with data := b.parse.data }

/-- `GetPayloadType` after `ParsePacket`: 0 without a fixed header. -/
def gotPayloadType (b : MsgBlock) : UInt8 :=
  if b.length32 < RtpPacket.fixedHeader then 0 else RtpPacket.getPayloadType b.parse.data b.rd

/-- `GetTimeStamp` after `ParsePacket`: 0 without a fixed header. -/
def gotTimeStamp (b : MsgBlock) : UInt32 :=
  if b.length32 < RtpPacket.fixedHeader then 0 else RtpPacket.getTimeStamp b.parse.data b.rd

end MsgBlock

namespace Rtp2Ps

/-- `RTP_FRAME_CACHE_SIZE`. -/
def rtpFrameCacheSize : Nat := 1024 * 1024

/-- `H264_NALU_TYPE_FU_A`. -/
def h264NaluTypeFuA : Nat := 28

/-- The processor after `Init`: an empty cache with anything in it. -/
def init (recvVideoPT : UInt8) (sendSession : Bool) (cache : Memory) : Rtp2Ps :=
  ⟨recvVideoPT, sendSession, cache, 0, []⟩

/-- `l` stored at `m_pWritePos`, which moves behind it. -/
def put (r : Rtp2Ps) (l : List UInt8) : Rtp2Ps :=
  { r with cache := r.cache.write r.writePos l, writePos := r.writePos + l.length }

/-- `m_pWritePos = m_pRtpFrameCache`. -/
def rewind (r : Rtp2Ps) : Rtp2Ps := { r with writePos := 0 }

/-- `m_ulHeadLen` of the `CRtpPacket` that the loops use for every block: a packet that is not
accepted leaves it as it was. -/
def nextHeadLen (headLen : Nat) (b : MsgBlock) : Nat :=
  if b.parse.ret = .ok then b.parse.headLen else headLen

/-- The NAL header that is written for a fragment: `F` and `NRI` of the indicator at the read
pointer, `TYPE` of the byte behind it. -/
def writeHead (b : MsgBlock) : UInt8 :=
  .ofNat ((b.byte 0).toNat / 32 * 32 + (b.byte 1).toNat % 32)

/-- The branches of `checkVideoRtpFrame` on the first byte behind the RTP header: the NAL header
that is written, the rest of the block, and `bRemoveHead` for the next one. -/
def unpack (bRemoveHead : Bool) (b : MsgBlock) : List UInt8 × MsgBlock × Bool :=
  if (b.byte 0).toNat % 32 = h264NaluTypeFuA then
    (if bRemoveHead then [writeHead b] else [], b.advance 2, false)
  else ([], b, bRemoveHead)

/-- The loop of `checkVideoRtpFrame`. -/
def checkVideo (r : Rtp2Ps) (headLen unCacheSize : Nat) (bRemoveHead : Bool) :
    List MsgBlock → RetCode × Rtp2Ps
  | [] => (.ok, r)
  | b :: bs =>
    let headLen := nextHeadLen headLen b
    let u := unpack bRemoveHead (b.parsed.advance headLen)
    let r := r.put u.1
    let unCacheSize := Demux.minus32 unCacheSize u.1.length
    if u.2.1.length ≤ unCacheSize then
      (r.put u.2.1.payload).checkVideo headLen (unCacheSize - u.2.1.length) u.2.2 bs
    else (.fail, r.rewind)

/-- `checkVideoRtpFrame`. -/
def checkVideoRtpFrame (r : Rtp2Ps) (frame : List MsgBlock) : RetCode × Rtp2Ps :=
  r.checkVideo 0 (rtpFrameCacheSize - 4) true frame

/-- The loop of `checkAudioRtpFrame`. -/
def checkAudio (r : Rtp2Ps) (headLen unCacheSize : Nat) : List MsgBlock → RetCode × Rtp2Ps
  | [] => (.ok, r)
  | b :: bs =>
    let headLen := nextHeadLen headLen b
    let b := b.parsed.advance headLen
    if b.length ≤ unCacheSize then
      (r.put b.payload).checkAudio headLen (unCacheSize - b.length) bs
    else (.fail, r.rewind)

/-- `checkAudioRtpFrame`; its `bCheckFrame` is never set. -/
def checkAudioRtpFrame (r : Rtp2Ps) (frame : List MsgBlock) : RetCode × Rtp2Ps :=
  r.checkAudio 0 rtpFrameCacheSize frame

/-- The bytes from the begin of the cache to `getWritePos`. -/
def esFrame (r : Rtp2Ps) : List UInt8 := r.cache.read 0 r.writePos

/-- The encapsulator gets a frame. -/
def insert (r : Rtp2Ps) (i : Inserted) : Rtp2Ps := { r with inserted := r.inserted ++ [i] }

/-- The end of `HandleVideoRtpFrame` and `HandleAudioRtpFrame`: a frame that was checked goes to the
encapsulator if there is a send session. -/
def deliver (checked : RetCode × Rtp2Ps) (call : List UInt8 → Inserted) : Rtp2Ps :=
  if checked.1 = .ok ∧ checked.2.sendSession then checked.2.insert (call checked.2.esFrame)
  else checked.2

/-- `HandleVideoRtpFrame` of the frame with the first packet `b`. -/
def handleVideoRtpFrame (r : Rtp2Ps) (b : MsgBlock) (bs : List MsgBlock) : Rtp2Ps :=
  deliver ((r.put startCode).checkVideoRtpFrame (b.parsed :: bs)) fun frame =>
    .video frame b.gotTimeStamp

/-- `HandleAudioRtpFrame` of the frame with the first packet `b`. -/
def handleAudioRtpFrame (r : Rtp2Ps) (b : MsgBlock) (bs : List MsgBlock) : Rtp2Ps :=
  deliver (r.checkAudioRtpFrame (b.parsed :: bs)) fun frame => .audio frame b.gotTimeStamp

/-- `handleRtpFrame`. -/
def handleRtpFrame (r : Rtp2Ps) : List MsgBlock → Rtp2Ps
  | [] => r
  | b :: bs =>
    if r.writePos ≠ 0 then r
    else if b.gotPayloadType = r.recvVideoPT then (r.handleVideoRtpFrame b.parsed bs).rewind
    else (r.handleAudioRtpFrame b.parsed bs).rewind

/-- One call after the other. -/
def run (r : Rtp2Ps) (frames : List (List MsgBlock)) : Rtp2Ps := frames.foldl handleRtpFrame r

end Rtp2Ps

end AllCamera
