import AllCamera.Lib.Memory
import Mathlib.Logic.Function.Iterate

/-!
# Unpacking a program stream (`CMpegPsDec`)

`writePsStream` goes through a pack, skips its headers and collects the payloads of its PES packets
in a buffer of 1 MiB, which it gives to a callback. It keeps a pointer and a length; the length is the
number of bytes that are left only until the first PES packet.

* `Scan`: the pointer, the length and the local variables.
* `stripPSHeader`, `stripSysHeader`, `stripPsmPacket`, `stripPESHeader`, `getStartCode`.
* `scanStep`, `WritePsStream`: a turn of the loop, and how the function ends.
-/

namespace AllCamera.MpegPsDec

/-- `PS_STARTCODE_INVAL`. -/
def psStartcodeInval : UInt32 := 0xffffffff

/-- `PACK_START_CODE`. -/
def packStartCode : UInt32 := 0x000001ba

/-- `SYSTEM_HEADER_START_CODE`. -/
def systemHeaderStartCode : UInt32 := 0x000001bb

/-- `PROGRAM_STREAM_MAP`. -/
def programStreamMap : UInt32 := 0x000001bc

/-- `PADDING_STREAM`. -/
def paddingStream : UInt32 := 0x000001be

/-- `PRIVATE_STREAM_2`. -/
def privateStream2 : UInt32 := 0x000001bf

/-- `H264_PES_STREAM_CODE`. -/
def h264PesStreamCode : UInt32 := 0x000001e0

/-- `G711_PES_STREAM_CODE`. -/
def g711PesStreamCode : UInt32 := 0x000001c0

/-- `PS_HEAD_LEN`. -/
def psHeadLen : Nat := 14

/-- `SYS_HEAD_LEN_MIN` and `PSM_HEAD_LEN_MIN`. -/
def headLenMin : Nat := 6

/-- `PS_STARTCODE_LEN`. -/
def psStartcodeLen : Nat := 4

/-- `MAX_BUFFER_LEN`. -/
def maxBufferLen : Nat := 1024 * 1024

/-- A call of `handleVideoEsStream` or `handleAudioEsStream`. -/
inductive EsFrame where
  | video (pEsData : List UInt8) (unTimestamp : UInt32)
  | audio (pEsData : List UInt8) (unTimestamp : UInt32)
  deriving DecidableEq, Repr

/-- How `writePsStream` ends: it returns, perhaps after a callback, or writes behind its buffer. -/
inductive Exit where
  | ret (n : Int) (frame : Option EsFrame)
  | overflow
  deriving DecidableEq, Repr

/-- `m_pCurMediaData` as an offset from `pInData`, `m_ulCurMediaLen`, and the local variables of
`writePsStream`. -/
structure Scan where
  curMediaData : Nat
  ulCurMediaLen : UInt32
  unStartCode : UInt32
  pBuffer : List UInt8
  bFound : Bool
  exit : Option Exit

namespace Scan

/-- Before the loop. -/
def start (unDataSize : Nat) : Scan := ⟨0, .ofNat unDataSize, psStartcodeInval, [], false, none⟩

variable (m : Memory) (s : Scan)

/-- `m_pCurMediaData[i]`. -/
def byte (i : Nat) : UInt8 := m (s.curMediaData + i : Nat)

/-- `getStartCode`. -/
def getStartCode : UInt32 :=
  if s.ulCurMediaLen.toNat < psStartcodeLen then psStartcodeInval
  else if s.byte m 0 ≠ 0 ∨ s.byte m 1 ≠ 0 ∨ s.byte m 2 ≠ 1 then psStartcodeInval
  else be32 (s.byte m 0) (s.byte m 1) (s.byte m 2) (s.byte m 3)

/-- The pointer moves on by `n` bytes. -/
def skip (n : Nat) : Scan :=
  { s with curMediaData := s.curMediaData + n, ulCurMediaLen := s.ulCurMediaLen - .ofNat n }

/-- `StripPSHeader`; `none` for -1. -/
def stripPSHeader : Option Scan :=
  if s.ulCurMediaLen.toNat < psHeadLen then none
  else
    let unLen := (s.byte m 13 &&& 0x07).toNat + psHeadLen
    if s.ulCurMediaLen.toNat < unLen then none else some (s.skip unLen)

/-- `StripSysHeader` and `StripPsmPacket`, whose bodies are the same. -/
def stripSysHeader : Option Scan :=
  if s.ulCurMediaLen.toNat < headLenMin then none
  else
    let usHeadSize : UInt16 := be16 (s.byte m 4) (s.byte m 5) + 2 + 4
    if s.ulCurMediaLen.toNat < usHeadSize.toNat then none else some (s.skip usHeadSize.toNat)

/-- `StripPsmPacket`. -/
def stripPsmPacket : Option Scan := s.stripSysHeader m

/-- `StripPESHeader`: the length becomes that of the payload. -/
def stripPESHeader : Option Scan :=
  if s.ulCurMediaLen.toNat < headLenMin then none
  else
    let usPackLen := be16 (s.byte m 4) (s.byte m 5)
    let usHeadLen := s.byte m 8
    some { s with
      curMediaData := s.curMediaData + 9 + usHeadLen.toNat
      ulCurMediaLen := usPackLen.toUInt32 - (3 + usHeadLen.toUInt32) }

/-- The function returns without a callback. -/
def fail : Scan := { s with exit := some (.ret (-1) none) }

/-- The case of a PES packet: the payload is copied behind what is in the buffer. -/
def collect : Scan :=
  match s.stripPESHeader m with
  | none => s.fail
  | some s =>
    let s := { s with bFound := true }
    if s.pBuffer.length < maxBufferLen then
      if maxBufferLen < s.pBuffer.length + s.ulCurMediaLen.toNat then { s with exit := some .overflow }
      else
        { s with
          pBuffer := s.pBuffer ++ m.read s.curMediaData s.ulCurMediaLen.toNat
          curMediaData := s.curMediaData + s.ulCurMediaLen.toNat }
    else s

/-- The `switch`. A padding stream and the private stream 2 are not skipped. -/
def dispatch : Scan :=
  if s.unStartCode = packStartCode then (s.stripPSHeader m).getD s.fail
  else if s.unStartCode = systemHeaderStartCode then (s.stripSysHeader m).getD s.fail
  else if s.unStartCode = paddingStream then s
  else if s.unStartCode = privateStream2 then s
  else if s.unStartCode = programStreamMap then (s.stripPsmPacket m).getD s.fail
  else if s.unStartCode = h264PesStreamCode ∨ s.unStartCode = g711PesStreamCode then s.collect m
  else { s with curMediaData := s.curMediaData + 1 }

/-- The body of the loop. -/
def body : Scan :=
  if s.ulCurMediaLen = 0 then s.fail else { s with unStartCode := s.getStartCode m }.dispatch m

/-- Behind the loop. -/
def finish (unTimestamp : UInt32) : Exit :=
  if !s.bFound then .ret (-1) none
  else if s.unStartCode = h264PesStreamCode then .ret 0 (some (.video s.pBuffer unTimestamp))
  else if s.unStartCode = g711PesStreamCode then .ret 0 (some (.audio s.pBuffer unTimestamp))
  else .ret (-1) none

end Scan

/-- A turn of the loop over `unDataSize` bytes, or what is behind it; nothing after the end. -/
def scanStep (m : Memory) (unDataSize : Nat) (unTimestamp : UInt32) (s : Scan) : Scan :=
  if s.exit ≠ none then s
  else if s.curMediaData < unDataSize then s.body m
  else { s with exit := some (s.finish unTimestamp) }

/-- `writePsStream`, given the bytes at 0, ends with `r`. It does not end where it stays in front of a
padding stream. -/
def WritePsStream (m : Memory) (unDataSize : Nat) (unTimestamp : UInt32) (r : Exit) : Prop :=
  ∃ k, ((scanStep m unDataSize unTimestamp)^[k] (Scan.start unDataSize)).exit = some r

end AllCamera.MpegPsDec
