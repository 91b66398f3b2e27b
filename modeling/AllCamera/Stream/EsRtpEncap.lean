import AllCamera.Stream.PsRtpEncap
import AllCamera.Stream.StartCode

/-!
# RTP packets of an elementary stream (`CEsRtpEncap`)

The demultiplexer hands over the bytes of a frame with the start codes of its NAL units. The bytes are cut at the
start codes, and each piece is sent in packets that are made in one buffer.

* `handleVideoMulNaluStream` cuts the bytes; `handleVideoEsStream` sends a piece. `handed` is what
  `handleEsRtpPacket` was called with, `copied` which bytes of the memory `memcpy` was called with.
* `sendSingle`, `fuLoop`: a piece in one packet and in fragments.
-/

namespace AllCamera

open StartCode (h264FindStartcode)

/-- `CEsRtpEncap` with a handler. -/
structure EsRtpEncap where
  rtpBuffer : Memory
  usVideoRtpSeq : UInt16
  handed : List (List UInt8)
  copied : List (Int × Nat)

namespace EsRtpEncap

/-- `STARTCODE_LEN`. -/
def startcodeLen : Nat := 4

/-- `MAX_ENCAP_RTP_SIZE`. -/
def maxEncapRtpSize : Nat := 1418

/-- `VIDEO_STREAM_TYPE_H264`. -/
def videoStreamTypeH264 : UInt8 := 0x1B

/-- `unHeadSize` in front of the fragments. -/
def headSize : Nat := 12

/-- The setters that both branches call, with the marker that is set at last. -/
def stampVideo (m : Memory) (usSeq : UInt16) (unTimestamp : UInt32) (marker : Bool) : Memory :=
  let m := RtpPacket.setPayloadType m 0 99
  let m := RtpPacket.setSeqNum m 0 usSeq
  let m := RtpPacket.setTimeStamp m 0 unTimestamp
  let m := RtpPacket.setSSRC m 0 999999999
  RtpPacket.setMarker m 0 marker

/-- `unCount`: the length is divided by one size, and the rest is taken with another. -/
def count (nalLen : Nat) : Nat :=
  nalLen / (maxEncapRtpSize - headSize) + if nalLen % maxEncapRtpSize ≠ 0 then 1 else 0

/-- The branch for one packet. -/
def sendSingle (e : EsRtpEncap) (m : Memory) (pDataPos : Int) (unLeastSize : Nat) (unTimestamp : UInt32) :
    EsRtpEncap :=
  let b := stampVideo e.rtpBuffer e.usVideoRtpSeq unTimestamp true
  let b := b.write headSize (m.read pDataPos unLeastSize)
  { rtpBuffer := b
    usVideoRtpSeq := e.usVideoRtpSeq + 1
    handed := e.handed ++ [b.read 0 (unLeastSize + headSize)]
    copied := e.copied ++ [(pDataPos, unLeastSize)] }

/-- `pHead->S = 1` or `pHead->E = 1`, which keep the other bits. -/
def setFuBits (b : Memory) (i unCount : Nat) : Memory :=
  let fu := (b (headSize + 1 : Nat)).toNat
  if i = 0 then b.write (headSize + 1 : Nat) [.ofNat (128 + fu % 128)]
  else if i = unCount - 1 then b.write (headSize + 1 : Nat) [.ofNat (fu / 128 * 128 + 64 + fu % 64)]
  else b

/-- `unCopySize`. -/
def copySize (unLeastSize : Nat) : Nat := min (maxEncapRtpSize - (headSize + 2)) unLeastSize

/-- A pass of the loop over the fragments. -/
def sendFragment (e : EsRtpEncap) (m : Memory) (pDataPos : Int) (unLeastSize unCount i : Nat)
    (unTimestamp : UInt32) : EsRtpEncap :=
  let b := stampVideo e.rtpBuffer e.usVideoRtpSeq unTimestamp (unLeastSize ≤ maxEncapRtpSize - (headSize + 2))
  let b := setFuBits b i unCount
  let b := b.write (headSize + 2 : Nat) (m.read pDataPos (copySize unLeastSize))
  { rtpBuffer := b
    usVideoRtpSeq := e.usVideoRtpSeq + 1
    handed := e.handed ++ [b.read 0 (copySize unLeastSize + (headSize + 2))]
    copied := e.copied ++ [(pDataPos, copySize unLeastSize)] }

/-- The loop over the fragments, from the pass `i` on. -/
def fuLoop (e : EsRtpEncap) (m : Memory) (pDataPos : Int) (unLeastSize unCount : Nat) (unTimestamp : UInt32)
    (i : Nat) : EsRtpEncap :=
  if i < unCount then
    (e.sendFragment m pDataPos unLeastSize unCount i unTimestamp).fuLoop m (pDataPos + copySize unLeastSize)
      (unLeastSize - copySize unLeastSize) unCount unTimestamp (i + 1)
  else e
termination_by unCount - i

/-- `pFu` and `pHead` in front of the loop: the indicator is set as a whole, of the header only the type. -/
def startFragments (b : Memory) (nalHead : UInt8) : Memory :=
  let b := b.write headSize [.ofNat (nalHead.toNat / 32 * 32 + Nal.fuA)]
  b.write (headSize + 1 : Nat) [.ofNat ((b (headSize + 1 : Nat)).toNat / 32 * 32 + nalHead.toNat % 32)]

/-- `while (!*(nal_start++));`, for at most `n` passes. -/
def skipZeros (m : Memory) (p : Int) : Nat → Int
  | 0 => p
  | n + 1 => if m p ≠ 0 then p + 1 else skipZeros m (p + 1) n

/-- `handleVideoEsStream`. The start code that was found ends the loop over the zeros. -/
def handleVideoEsStream (e : EsRtpEncap) (align : Nat) (m : Memory) (pEsData : Int) (unDataSize : Nat)
    (unTimestamp : UInt32) (ucStreamType : UInt8) : EsRtpEncap :=
  if unDataSize = 0 then e
  else if ucStreamType ≠ videoStreamTypeH264 then e
  else
    let nalStart := h264FindStartcode align m pEsData (pEsData + unDataSize)
    if pEsData + unDataSize ≤ nalStart then e
    else
      let nalStart := skipZeros m nalStart unDataSize
      let nalLen := unDataSize - (nalStart - pEsData).toNat
      let e := { e with rtpBuffer := RtpPacket.generatePacket e.rtpBuffer 0 MsgBlock.blockSize }
      if 1 < count nalLen then
        let e := { e with rtpBuffer := startFragments e.rtpBuffer (m nalStart) }
        e.fuLoop m (nalStart + 1) nalLen (count nalLen) unTimestamp 0
      else e.sendSingle m nalStart nalLen unTimestamp

/-- The loop in `handleVideoMulNaluStream` and the call behind it. -/
def nalLoop (e : EsRtpEncap) (align : Nat) (m : Memory) (nalStart bufEnd : Int) (unTimestamp : UInt32)
    (ucStreamType : UInt8) : EsRtpEncap :=
  let newNalStart := h264FindStartcode align m (nalStart + startcodeLen) bufEnd
  if newNalStart < bufEnd then
    (e.handleVideoEsStream align m nalStart (newNalStart - nalStart).toNat unTimestamp ucStreamType).nalLoop align m
      newNalStart bufEnd unTimestamp ucStreamType
  else e.handleVideoEsStream align m nalStart (bufEnd - nalStart).toNat unTimestamp ucStreamType
termination_by (bufEnd - nalStart).toNat
decreasing_by
  have hle := StartCode.le_find ‹newNalStart < bufEnd›
  simp only [newNalStart, startcodeLen] at *
  omega

/-- `handleVideoMulNaluStream` of the first `unDataSize` bytes of the memory. -/
def handleVideoMulNaluStream (e : EsRtpEncap) (align : Nat) (m : Memory) (unDataSize unTimestamp : UInt32)
    (ucStreamType : UInt8) : EsRtpEncap :=
  let nalStart := h264FindStartcode align m 0 unDataSize.toNat
  if (unDataSize.toNat : Int) ≤ nalStart then e
  else e.nalLoop align m nalStart unDataSize.toNat unTimestamp ucStreamType

end EsRtpEncap

end AllCamera
