import AllCamera.Lib.Memory

/-!
# Packing video and audio into a program stream (`CMpegPsEnc`)

A frame becomes one pack: pack header, system header, stream map, and PES packets. A video frame with
more bytes than the 16-bit length of a PES packet can say is cut. The bytes go into a cache of 1 MiB, from
which they are handed to a callback.

* `MpegPsEnc`: the members, and what the callback was given in this call.
* `psHeader`, `sysHeader`, `psmPacket`, `pesHeader`: the bytes that are written.
* `writeESPacket`, `writeVideoEsStream`, `writeAudioEsStream`: one PES packet, and one frame.
-/

namespace AllCamera

/-- A call of `handlePsStream`. -/
structure PsFragment where
  pPSData : List UInt8
  unTimestamp : UInt32
  endFlag : Bool
  deriving DecidableEq, Repr

/-- `CMpegPsEnc` after `init`. `psBuffer` is `m_pPsBuffer` up to `m_pWritePos`; `cVersion` is the
static variable of `writePsmPacket`. -/
structure MpegPsEnc where
  psBuffer : List UInt8
  ullScr : UInt64
  ullVideoPts : UInt64
  ullAudioPts : UInt64
  unMuxRate : UInt32
  unVideoTimestamp : UInt32
  unAudioTimestamp : UInt32
  unEsStreamSize : UInt32
  lastCalcTime : UInt32
  isFirstPES : Bool
  cVersion : UInt8
  handed : List PsFragment

/-- `GET_BITS` as an `uint8_t`. -/
def getBits (x s e : Nat) : UInt8 := .ofNat (x / 2 ^ s % 2 ^ (e - s + 1))

namespace MpegPsEnc

/-- `DEFAULT_PS_CACHE`. -/
def psCache : Nat := 1024 * 1024

/-- `MAX_PS_HEADER_LEN`. -/
def maxPsHeaderLen : Nat := 128

/-- `MAX_ENCAP_RTP_SIZE - sizeof(RTP_FIXED_HEADER)`. -/
def unLenPerRtpPacket : Nat := 1418 - 12

/-- `0xffff - 13`. -/
def maxPesData : Nat := 0xffff - 13

/-- `INVALID_TIMESTAMP`. -/
def invalidTimestamp : UInt64 := 0x8000000000000000

/-- `VIDEO_STREAM_ID`. -/
def videoStreamId : UInt8 := 0xe0

/-- `AUDIO_STREAM_ID`. -/
def audioStreamId : UInt8 := 0xc0

/-- `MIN_NALU_SIZE`. -/
def minNaluSize : Nat := 5

/-- `_enES_TYPE_E`. -/
inductive EsType where
  | video
  | audio
  deriving DecidableEq, Repr

/-- The encoder after the constructor and `init`. -/
def init : MpegPsEnc where
  psBuffer := []
  ullScr := 0
  ullVideoPts := 0
  ullAudioPts := 0
  unMuxRate := 1024 * 1024 / 50
  unVideoTimestamp := 0
  unAudioTimestamp := 0
  unEsStreamSize := 0
  lastCalcTime := 0
  isFirstPES := true
  cVersion := 0
  handed := []

/-! ## The check sum -/

/-- `CRCInputBit`. -/
def crcInputBit (uVal : UInt32) (byin : UInt8) : UInt32 :=
  let utemp := (uVal &&& 0x80000000) >>> 31 ^^^ byin.toUInt32
  let uVal := if utemp = 1 then uVal ^^^ 0x02608edb else uVal
  (uVal <<< 1) ||| utemp

/-- `CRCInit`, and `CRCGet` of less than 256 bytes. -/
def crcGet (byValue : List UInt8) : UInt32 :=
  byValue.foldl
    (fun uVal b => shifts.foldl (fun uVal j => crcInputBit uVal ((b <<< j &&& (0x80 : UInt8)) >>> 7)) uVal)
    0xffffffff
where
  shifts : List UInt8 := [0, 1, 2, 3, 4, 5, 6, 7]

/-! ## Headers -/

/-- `writePSHeader`: the bytes. -/
def psHeader (scr : UInt64) (muxRate : UInt32) : List UInt8 :=
  [0x00, 0x00, 0x01, 0xBA,
    (0x40 : UInt8) ||| (getBits scr.toNat 30 32 <<< 3) ||| 0x04 ||| getBits scr.toNat 28 29,
    getBits scr.toNat 20 27,
    (getBits scr.toNat 15 19 <<< 3) ||| 0x04 ||| getBits scr.toNat 13 14,
    getBits scr.toNat 5 12,
    (getBits scr.toNat 0 6 <<< 3) ||| 0x04,
    0x01,
    getBits muxRate.toNat 14 21,
    getBits muxRate.toNat 6 13,
    (getBits muxRate.toNat 0 6 <<< 2) ||| 0x03,
    0xf8]

/-- `writeSysHeader`: the bytes. -/
def sysHeader (muxRate : UInt32) : List UInt8 :=
  [0x00, 0x00, 0x01, 0xBB, 0x00, 0x06,
    0x80 ||| getBits muxRate.toNat 15 21,
    getBits muxRate.toNat 7 14,
    (getBits muxRate.toNat 0 6 <<< 1) ||| 0x1,
    (0x1 : UInt8) <<< 2,
    0xe1,
    0x7f]

/-- `writePsmPacket`: the bytes before the check sum. -/
def psmBytes (cVersion : UInt8) : List UInt8 :=
  [0x00, 0x00, 0x01, 0xBC, 0x00, 0x12,
    0xe0 ||| cVersion,
    0xff,
    0x00, 0x00, 0x00, 0x08,
    0x1b, videoStreamId, 0x00, 0x00,
    0x90, audioStreamId, 0x00, 0x00]

/-- `writePsmPacket`: the bytes, with the check sum in the machine's order. -/
def psmPacket (cVersion : UInt8) : List UInt8 :=
  psmBytes cVersion ++ (be32Bytes (crcGet (psmBytes cVersion))).reverse

/-- A time stamp in five bytes, behind the four bits `flag`. -/
def timestampBytes (flag : UInt8) (ts : UInt64) : List UInt8 :=
  [(flag <<< 4) ||| (getBits ts.toNat 30 32 <<< 1) ||| 0x1,
    getBits ts.toNat 22 29,
    (getBits ts.toNat 15 21 <<< 1) ||| 0x1,
    getBits ts.toNat 7 14,
    (getBits ts.toNat 0 6 <<< 1) ||| 0x1]

/-- `writePESHeader`: the bytes. Without a `pts` there is no `dts`. -/
def pesHeader (unDataSize : Nat) (ucStreamId : UInt8) (ullPts ullDts : UInt64) : List UInt8 :=
  let hasPts : Bool := invalidTimestamp ≠ ullPts
  let hasDts : Bool := invalidTimestamp ≠ ullDts
  let extLen : UInt8 := (if hasPts then 5 else 0) + (if hasDts then 5 else 0)
  let tsFlag : UInt8 := (if hasPts then 0x02 else 0) ||| (if hasDts then 0x01 else 0)
  let usLen : UInt16 := 3 + extLen.toUInt16 + .ofNat unDataSize
  [0x00, 0x00, 0x01, ucStreamId] ++ be16Bytes usLen ++ [(0x80 : UInt8), tsFlag <<< 6, extLen] ++
    (if hasPts then
      timestampBytes tsFlag ullPts ++ (if hasDts then timestampBytes 0x1 ullDts else [])
    else [])

/-! ## Writing -/

variable (e : MpegPsEnc)

/-- `handlePsStream` is given the cache, which is empty then. -/
def handlePsStream (unTimestamp : UInt32) (endFlag : Bool) : MpegPsEnc :=
  { e with
    psBuffer := []
    handed := e.handed ++ [⟨e.psBuffer, unTimestamp, endFlag⟩] }

/-- The functions that write a header fail with a full cache. -/
def put (bytes : List UInt8) : Int × MpegPsEnc :=
  if psCache ≤ e.psBuffer.length then (-1, e) else (0, { e with psBuffer := e.psBuffer ++ bytes })

/-- `writePSHeader`. -/
def writePSHeader : Int × MpegPsEnc := e.put (psHeader e.ullScr e.unMuxRate)

/-- `writeSysHeader`. -/
def writeSysHeader : Int × MpegPsEnc := e.put (sysHeader e.unMuxRate)

/-- `writePsmPacket`. -/
def writePsmPacket : Int × MpegPsEnc :=
  let r := e.put (psmPacket e.cVersion)
  if r.1 ≠ 0 then r else (0, { r.2 with cVersion := (e.cVersion + 1) % 0x1f })

/-- `writePESHeader`. -/
def writePESHeader (unDataSize : Nat) (ucStreamId : UInt8) (ullPts ullDts : UInt64) :
    Int × MpegPsEnc :=
  if invalidTimestamp = ullPts ∧ invalidTimestamp ≠ ullDts then (-1, e)
  else e.put (pesHeader unDataSize ucStreamId ullPts ullDts)

/-- The headers in front of the first PES packet of a frame. -/
def writePackHeaders : Int × MpegPsEnc :=
  let r := e.writePSHeader
  if r.1 ≠ 0 then (-1, r.2)
  else
    let r := r.2.writeSysHeader
    if r.1 ≠ 0 then (-1, r.2)
    else
      let r := r.2.writePsmPacket
      if r.1 ≠ 0 then (-1, r.2) else (0, { r.2 with isFirstPES := false })

/-- `writeESPacket`. -/
def writeESPacket (pInData : List UInt8) (enEsType : EsType) : Int × MpegPsEnc :=
  if pInData.length = 0 then (-1, e)
  else if psCache - maxPsHeaderLen < pInData.length then (-1, e)
  else
    let e :=
      if psCache - e.psBuffer.length < pInData.length + maxPsHeaderLen then
        e.handlePsStream e.unAudioTimestamp true
      else e
    let r := if e.psBuffer = [] ∧ e.isFirstPES = true then e.writePackHeaders else (0, e)
    if r.1 ≠ 0 then (-1, r.2)
    else
      let e := r.2
      let r :=
        match enEsType with
        | .video => e.writePESHeader pInData.length videoStreamId e.ullVideoPts e.ullVideoPts
        | .audio => e.writePESHeader pInData.length audioStreamId e.ullAudioPts invalidTimestamp
      if r.1 ≠ 0 then (-1, r.2) else (0, { r.2 with psBuffer := r.2.psBuffer ++ pInData })

/-- `calcEsBitrate`, when the clock (`SVS_GetSecondTime`) says `second`. -/
def calcEsBitrate (unDataSize : Nat) (second : UInt32) : MpegPsEnc :=
  let e := { e with unEsStreamSize := e.unEsStreamSize + .ofNat unDataSize }
  if e.lastCalcTime = 0 then { e with lastCalcTime := second }
  else if e.lastCalcTime < second then
    { e with
      unMuxRate := e.unEsStreamSize / (second - e.lastCalcTime) / (8 * 50)
      lastCalcTime := second }
  else e

theorem calcEsBitrate_keeps (e : MpegPsEnc) (unDataSize : Nat) (second : UInt32) :
    (e.calcEsBitrate unDataSize second).psBuffer = e.psBuffer ∧
      (e.calcEsBitrate unDataSize second).handed = e.handed := by
  unfold calcEsBitrate
  simp only
  split
  · exact ⟨rfl, rfl⟩
  · split <;> exact ⟨rfl, rfl⟩

/-- The bytes of a chunk of a frame that is too long for one PES packet. -/
def chunkSize : Nat := maxPesData / unLenPerRtpPacket * unLenPerRtpPacket

/-- The loop over the chunks, and the last packet. -/
def writeChunks (e : MpegPsEnc) (pData : List UInt8) : Int × MpegPsEnc :=
  if h : maxPesData < pData.length then
    let r := e.writeESPacket (pData.take chunkSize) .video
    if r.1 ≠ 0 then (-1, r.2)
    else writeChunks (r.2.handlePsStream r.2.unVideoTimestamp false) (pData.drop chunkSize)
  else
    let r := e.writeESPacket pData .video
    if r.1 ≠ 0 then (-1, r.2) else (0, r.2.handlePsStream r.2.unVideoTimestamp true)
termination_by pData.length
decreasing_by
  have : 0 < chunkSize := by decide
  rw [List.length_drop]
  unfold maxPesData at h
  omega

/-- The time stamps of a video frame. -/
def setVideoTimestamp (unTimestamp : UInt32) : MpegPsEnc :=
  let e :=
    if e.unVideoTimestamp = 0 then
      { e with unVideoTimestamp := unTimestamp, ullVideoPts := unTimestamp.toUInt64 }
    else
      let ullTick : UInt64 :=
        if e.unVideoTimestamp ≤ unTimestamp then (unTimestamp - e.unVideoTimestamp).toUInt64
        else (0xffffffff - e.unVideoTimestamp.toUInt64) + unTimestamp.toUInt64
      { e with ullVideoPts := e.ullVideoPts + ullTick, unVideoTimestamp := unTimestamp }
  { e with ullScr := if e.ullAudioPts < e.ullVideoPts then e.ullVideoPts else e.ullAudioPts }

theorem setVideoTimestamp_keeps (e : MpegPsEnc) (unTimestamp : UInt32) :
    (e.setVideoTimestamp unTimestamp).psBuffer = e.psBuffer ∧
      (e.setVideoTimestamp unTimestamp).handed = e.handed := by
  unfold setVideoTimestamp
  simp only
  split <;> exact ⟨rfl, rfl⟩

/-- `writeVideoEsStream`, when the clock says `second`. -/
def writeVideoEsStream (pInData : List UInt8) (unTimestamp second : UInt32) : Int × MpegPsEnc :=
  if pInData.length < minNaluSize then (-1, e)
  else
    let e := (e.setVideoTimestamp unTimestamp).calcEsBitrate pInData.length second
    writeChunks { e with isFirstPES := true } pInData

/-- The time stamps of an audio frame. -/
def setAudioTimestamp (unTimestamp : UInt32) : MpegPsEnc :=
  if e.unAudioTimestamp = 0 then
    { e with unAudioTimestamp := unTimestamp, ullAudioPts := unTimestamp.toUInt64 }
  else
    let ullTick : UInt64 :=
      if e.unAudioTimestamp ≤ unTimestamp then (unTimestamp - e.unAudioTimestamp).toUInt64
      else (0xffffffff - e.unAudioTimestamp.toUInt64) + unTimestamp.toUInt64
    { e with ullAudioPts := e.ullAudioPts + ullTick, unAudioTimestamp := unTimestamp }

theorem setAudioTimestamp_keeps (e : MpegPsEnc) (t : UInt32) :
    (e.setAudioTimestamp t).psBuffer = e.psBuffer ∧ (e.setAudioTimestamp t).handed = e.handed := by
  unfold setAudioTimestamp
  split <;> exact ⟨rfl, rfl⟩

/-- `writeAudioEsStream`, when the clock says `second`: one PES packet, however long the frame is. -/
def writeAudioEsStream (pInData : List UInt8) (unTimestamp second : UInt32) : Int × MpegPsEnc :=
  let e := (e.setAudioTimestamp unTimestamp).calcEsBitrate pInData.length second
  let e := { e with ullScr := if e.ullAudioPts < e.ullVideoPts then e.ullVideoPts else e.ullAudioPts }
  let r := { e with isFirstPES := true }.writeESPacket pInData .audio
  if r.1 ≠ 0 then (-1, r.2) else (0, r.2.handlePsStream r.2.unAudioTimestamp true)

/-- A call of one of the two. -/
inductive EsCall where
  | video (pInData : List UInt8) (unTimestamp second : UInt32)
  | audio (pInData : List UInt8) (unTimestamp second : UInt32)

/-- The call's return value and effect. -/
def writeEsStream : EsCall → Int × MpegPsEnc
  | .video pInData unTimestamp second => e.writeVideoEsStream pInData unTimestamp second
  | .audio pInData unTimestamp second => e.writeAudioEsStream pInData unTimestamp second

end MpegPsEnc

end AllCamera
