import AllCamera.Stream.PsRtpEncap

/-!
# RTP packets of H.264 and of audio (`CH264Packager`)

The caller hands over a frame: the first `ulBufLen` bytes of a memory. The packets of video are made in one
buffer and those of audio in another, and each is handed on with the fields of its header changed in place.

* `SendBuf`: a send buffer. The CSRC count and the padding bit stay as `memset` left them.
* `sendRawVideoData`, `sendNaluVideoData` and `sendRawAudioData`. `handed` is what `handleRtpPacket` was called
  with, `accesses` what the functions read and wrote and which lengths they subtracted.
* `headed_fixedHeader`: after the fields that both senders set first, the buffer begins with a plain header.
-/

namespace AllCamera

open RtpPacket (Head)
open PsRtpEncap (Headed Packet)

/-- `m_pSendVideoBuf` and `m_pSendAudioBuf`. -/
structure SendBuf where
  bytes : Memory
  csrcLen_eq : RtpPacket.csrcLen bytes 0 = 0
  padding_eq : RtpPacket.padding bytes 0 = 0

namespace SendBuf

/-- `memset` of the constructors. -/
def cleared : SendBuf := ⟨fun _ => 0, rfl, rfl⟩

/-- Other bytes than the first one are written. -/
def keep (b : SendBuf) (m : Memory) (h : m 0 = b.bytes 0) : SendBuf where
  bytes := m
  csrcLen_eq := by rw [← b.csrcLen_eq, RtpPacket.csrcLen, RtpPacket.csrcLen, h]
  padding_eq := by rw [← b.padding_eq, RtpPacket.padding, RtpPacket.padding, h]

/-- The bytes `l` are stored from `p` on. -/
def store (b : SendBuf) (p : Nat) (l : List UInt8) (hp : 0 < p) : SendBuf :=
  b.keep (b.bytes.write p l) (Memory.write_of_lt (by omega))

/-- The assignment of `payload`. -/
def setPayloadType (b : SendBuf) (v : UInt32) : SendBuf :=
  b.keep (RtpPacket.setPayloadType b.bytes 0 (.ofNat v.toNat)) (Memory.write_of_lt (by decide))

/-- The assignment of `marker`. -/
def setMarker (b : SendBuf) (v : Bool) : SendBuf :=
  b.keep (RtpPacket.setMarker b.bytes 0 v) (Memory.write_of_lt (by decide))

/-- The assignment of `seq_no`. -/
def setSeqNum (b : SendBuf) (v : UInt16) : SendBuf :=
  b.keep (RtpPacket.setSeqNum b.bytes 0 v) (Memory.write_of_lt (by decide))

/-- The assignment of `timestamp`. -/
def setTimeStamp (b : SendBuf) (v : UInt32) : SendBuf :=
  b.keep (RtpPacket.setTimeStamp b.bytes 0 v) (Memory.write_of_lt (by decide))

/-- The assignment of `ssrc`. -/
def setSSRC (b : SendBuf) (v : UInt32) : SendBuf :=
  b.keep (RtpPacket.setSSRC b.bytes 0 v) (Memory.write_of_lt (by decide))

theorem write_zero (m : Memory) (c : UInt8) : m.write 0 [c] 0 = c :=
  Memory.write_at (m := m) (p := 0) (l := [c]) (k := 0) Nat.one_pos

theorem csrcLen_setVersion (m : Memory) (v : Nat) :
    RtpPacket.csrcLen (RtpPacket.setVersion m 0 v) 0 = RtpPacket.csrcLen m 0 := by
  simp only [RtpPacket.csrcLen, RtpPacket.setVersion, write_zero, UInt8.toNat_ofNat']
  omega

theorem padding_setVersion (m : Memory) (v : Nat) :
    RtpPacket.padding (RtpPacket.setVersion m 0 v) 0 = RtpPacket.padding m 0 := by
  simp only [RtpPacket.padding, RtpPacket.setVersion, write_zero, UInt8.toNat_ofNat']
  omega

theorem csrcLen_setExtension (m : Memory) (v : Nat) :
    RtpPacket.csrcLen (RtpPacket.setExtension m 0 v) 0 = RtpPacket.csrcLen m 0 := by
  simp only [RtpPacket.csrcLen, RtpPacket.setExtension, write_zero, UInt8.toNat_ofNat']
  omega

theorem padding_setExtension (m : Memory) (v : Nat) :
    RtpPacket.padding (RtpPacket.setExtension m 0 v) 0 = RtpPacket.padding m 0 := by
  simp only [RtpPacket.padding, RtpPacket.setExtension, write_zero, UInt8.toNat_ofNat']
  omega

/-- The assignment of `version`. -/
def setVersion (b : SendBuf) (v : Nat) : SendBuf where
  bytes := RtpPacket.setVersion b.bytes 0 v
  csrcLen_eq := (csrcLen_setVersion b.bytes v).trans b.csrcLen_eq
  padding_eq := (padding_setVersion b.bytes v).trans b.padding_eq

/-- The assignment of `extension`. -/
def setExtension (b : SendBuf) (v : Nat) : SendBuf where
  bytes := RtpPacket.setExtension b.bytes 0 v
  csrcLen_eq := (csrcLen_setExtension b.bytes v).trans b.csrcLen_eq
  padding_eq := (padding_setExtension b.bytes v).trans b.padding_eq

end SendBuf

/-- What a function reads, writes or subtracts. -/
inductive Access
  /-- Bytes of the frame. -/
  | frame (p : Int) (n : Nat)
  /-- Bytes of a send buffer. -/
  | buf (p n : Nat)
  /-- `a - b` of two unsigned values. -/
  | sub (a b : UInt32)

/-- `CH264Packager`. -/
structure RtpPacker where
  pSendVideoBuf : SendBuf
  pSendAudioBuf : SendBuf
  videoRtpSeq : UInt16
  audioRtpSeq : UInt16
  ulVideoTimeStamp : UInt32
  ulAudioTimeStamp : UInt32
  ulVideoPt : UInt32
  ulAudioPt : UInt32
  ulVideoClockFreq : UInt32
  ulAudioClockFreq : UInt32
  handed : List (List UInt8)
  accesses : List Access

namespace RtpPacker

/-- `RTP_HDR_LEN`. -/
def rtpHdrLen : Nat := 12

/-- `RTP_PLAYLOAD_LEN`. -/
def rtpPlayloadLen : Nat := 1400

/-- `RTP_PACK_BUF_SIZE`. -/
def rtpPackBufSize : Nat := 1500

/-- `AU_HEADER_SIZE`. -/
def auHeaderSize : Nat := 4

/-- `RTP_FUA`. -/
def rtpFua : Nat := 28

/-- `PT_ACC`. -/
def ptAcc : UInt32 := 97

/-- `RTP_SSRC`. -/
def rtpSsrc : UInt32 := 78541

/-- The constructors: `PT_H264`, `PCMU`, `H264_HZ` and `PCM_HZ`. -/
def created : RtpPacker where
  pSendVideoBuf := .cleared
  pSendAudioBuf := .cleared
  videoRtpSeq := 0
  audioRtpSeq := 0
  ulVideoTimeStamp := 0
  ulAudioTimeStamp := 0
  ulVideoPt := 96
  ulAudioPt := 0
  ulVideoClockFreq := 90000
  ulAudioClockFreq := 8000
  handed := []
  accesses := []

/-- `Init`. -/
def init (p : RtpPacker) (ulVideoPt ulAudioPt ulVideoClockFreq ulAudioClockFreq : UInt32) : RtpPacker :=
  { p with ulVideoPt, ulAudioPt, ulVideoClockFreq, ulAudioClockFreq }

/-- What is read, written or subtracted next. -/
def touch (p : RtpPacker) (as : List Access) : RtpPacker := { p with accesses := p.accesses ++ as }

/-- The call of `handleRtpPacket` with the `ulSize` bytes of `b`. -/
def handleRtpPacket (p : RtpPacker) (b : SendBuf) (ulSize : Nat) : RtpPacker :=
  { p with handed := p.handed ++ [b.bytes.read 0 ulSize], accesses := p.accesses ++ [.buf 0 ulSize] }

/-- The fields of the fixed header that both senders set first. -/
def fixedHeader (b : SendBuf) (pt : UInt32) : SendBuf :=
  ((((b.setPayloadType pt).setVersion 2).setMarker false).setExtension 0).setSSRC (htonl rtpSsrc)

/-! ## Video -/

/-- `*fu_ind`: `F` and `NRI` of the NAL header and the type of a fragment. -/
def fuInd (header : UInt8) : UInt8 :=
  .ofNat (header.toNat / 128 * 128 + header.toNat / 32 % 4 * 32 + rtpFua)

/-- `*fu_hdr`: `S`, `E`, `R` as zero, and the type of the NAL header. -/
def fuHdr (s e : Bool) (header : UInt8) : UInt8 := .ofNat (s.toNat * 128 + e.toNat * 64 + header.toNat % 32)

/-- The branch of `SendNaluVideoData` for a NAL unit that fits into a packet. -/
def sendSingle (p : RtpPacker) (m : Memory) (pNalu : Int) (ulNaluLen : Nat) : RtpPacker :=
  let b := ((p.pSendVideoBuf.setMarker true).setSeqNum p.videoRtpSeq).setTimeStamp p.ulVideoTimeStamp
  let b := b.store rtpHdrLen (m.read pNalu (ulNaluLen + 1)) (by decide)
  let p := { p with pSendVideoBuf := b, videoRtpSeq := p.videoRtpSeq + 1 }
  let p := p.touch [.buf 0 rtpHdrLen, .frame pNalu (ulNaluLen + 1), .buf rtpHdrLen (ulNaluLen + 1)]
  p.handleRtpPacket b (rtpHdrLen + (ulNaluLen + 1))

/-- A branch of the loop in `SendNaluVideoData`, with `seq_no` set in front of it: the `len` bytes at `src`
behind an indicator and a header with `S` and `E`. -/
def sendFragment (p : RtpPacker) (m : Memory) (pNalu : Int) (marker s e : Bool) (src : Int) (len : Nat) :
    RtpPacker :=
  let b := (p.pSendVideoBuf.setSeqNum p.videoRtpSeq).setMarker marker
  let b := b.store rtpHdrLen [fuInd (m pNalu)] (by decide)
  let b := b.store (rtpHdrLen + 1) [fuHdr s e (m pNalu)] (by decide)
  let b := b.store (rtpHdrLen + 2) (m.read src len) (by decide)
  let p := { p with pSendVideoBuf := b, videoRtpSeq := p.videoRtpSeq + 1 }
  let p := p.touch [.buf 0 rtpHdrLen, .frame pNalu 1, .buf rtpHdrLen 2, .frame src len, .buf (rtpHdrLen + 2) len]
  p.handleRtpPacket b (len + rtpHdrLen + 2)

/-- A pass of the loop in `SendNaluVideoData`. The last branch asks for `t < k && 0 != t`, which is so there. -/
def naluPass (p : RtpPacker) (m : Memory) (pNalu : Int) (k lLastLen t : Nat) : RtpPacker :=
  if t = 0 then p.sendFragment m pNalu false true false (pNalu + 1) rtpPlayloadLen
  else if k = t then p.sendFragment m pNalu true false true (pNalu + (t * rtpPlayloadLen : Nat) + 1) lLastLen
  else p.sendFragment m pNalu false false false (pNalu + (t * rtpPlayloadLen : Nat) + 1) rtpPlayloadLen

/-- The loop in `SendNaluVideoData`. -/
def naluLoop (p : RtpPacker) (m : Memory) (pNalu : Int) (k lLastLen t : Nat) : RtpPacker :=
  if t ≤ k then (p.naluPass m pNalu k lLastLen t).naluLoop m pNalu k lLastLen (t + 1) else p
termination_by k + 1 - t

/-- `k` and `lLastLen` in front of the loop. -/
def fragments (ulNaluLen : Nat) : Nat × Nat :=
  if ulNaluLen % rtpPlayloadLen = 0 then (ulNaluLen / rtpPlayloadLen - 1, rtpPlayloadLen)
  else (ulNaluLen / rtpPlayloadLen, ulNaluLen % rtpPlayloadLen)

/-- The first half of `SendNaluVideoData`: the length behind the NAL header, the header fields and the time. -/
def startVideo (p : RtpPacker) (ulBufLen ulTimeStamp : UInt32) : RtpPacker :=
  { p with
    pSendVideoBuf := fixedHeader p.pSendVideoBuf p.ulVideoPt
    ulVideoTimeStamp := ulTimeStamp * (p.ulVideoClockFreq / 1000)
    accesses := p.accesses ++ [.sub ulBufLen 1, .buf 0 rtpHdrLen] }

/-- The assignment of `timestamp` in front of the loop. -/
def stampVideo (p : RtpPacker) : RtpPacker :=
  { p with pSendVideoBuf := p.pSendVideoBuf.setTimeStamp p.ulVideoTimeStamp }

/-- `SendNaluVideoData` of the bytes at `pBuf`. -/
def sendNaluVideoData (p : RtpPacker) (m : Memory) (pBuf : Int) (ulBufLen ulTimeStamp : UInt32) : RtpPacker :=
  let ulNaluLen := (ulBufLen - 1).toNat
  if ulNaluLen ≤ rtpPlayloadLen then (p.startVideo ulBufLen ulTimeStamp).sendSingle m pBuf ulNaluLen
  else
    (p.startVideo ulBufLen ulTimeStamp).stampVideo.naluLoop m pBuf (fragments ulNaluLen).1 (fragments ulNaluLen).2 0

/-- `FindStartCode`: the length of the start code. -/
def findStartCode (m : Memory) (ulBufLen : UInt32) : Option UInt32 :=
  if ulBufLen < 4 then none
  else if m.read 0 4 = [0, 0, 0, 1] then some 4
  else if m.read 0 3 = [0, 0, 1] then some 3
  else none

/-- `SendRawVideoData`. The comparisons in `FindStartCode` look at some of the first four bytes. -/
def sendRawVideoData (p : RtpPacker) (m : Memory) (ulBufLen ulTimeStamp : UInt32) : RtpPacker :=
  let p := if ulBufLen < 4 then p else p.touch [.frame 0 4]
  match findStartCode m ulBufLen with
  | none => p
  | some ulStartcodeLen =>
    (p.touch [.sub ulBufLen ulStartcodeLen]).sendNaluVideoData m ulStartcodeLen.toNat (ulBufLen - ulStartcodeLen)
      ulTimeStamp

/-! ## Audio -/

/-- The `AU` headers in front of the frame: their length in bits, and the size in 13 bits. -/
def auHeader (ulBufLen : UInt32) : List UInt8 :=
  [0x00, 0x10, .ofNat (ulBufLen.toNat % 8192 / 32), .ofNat (ulBufLen.toNat % 32 * 8)]

/-- A packet of `SendRawAudioData`: `len` bytes at `src` are copied to `dst`. -/
def sendAudio (p : RtpPacker) (m : Memory) (marker : Bool) (dst : Nat) (hdst : 0 < dst)
    (src len ulSize : Nat) : RtpPacker :=
  let b := p.pSendAudioBuf.store dst (m.read src len) hdst
  let b := (b.setSeqNum p.audioRtpSeq).setMarker marker
  let p := { p with pSendAudioBuf := b, audioRtpSeq := p.audioRtpSeq + 1 }
  let p := p.touch [.frame src len, .buf dst len, .buf 0 rtpHdrLen]
  p.handleRtpPacket b ulSize

/-- `payload`: the bytes of the frame in a full packet. -/
def audioPayload : Nat := rtpPlayloadLen - auHeaderSize

/-- The loop in `SendRawAudioData` and the packet behind it. `off` is a 16-bit value. -/
def audioLoop (p : RtpPacker) (m : Memory) (ulBufLen : Nat) (off : UInt16) : RtpPacker :=
  if audioPayload < ulBufLen then
    (p.sendAudio m false (rtpHdrLen + auHeaderSize) (by decide) off.toNat audioPayload
      (rtpPlayloadLen + rtpHdrLen)).audioLoop m (ulBufLen - audioPayload) (off + .ofNat audioPayload)
  else
    p.sendAudio m true (rtpHdrLen + auHeaderSize) (by decide) off.toNat ulBufLen
      (ulBufLen + auHeaderSize + rtpHdrLen)
termination_by ulBufLen
decreasing_by simp only [audioPayload, rtpPlayloadLen, auHeaderSize] at *; omega

/-- The first half of `SendRawAudioData`: the header fields and the time. -/
def startAudio (p : RtpPacker) (ulTimeStamp : UInt32) : RtpPacker :=
  let ulAudioTimeStamp := ulTimeStamp * (p.ulAudioClockFreq / 1000)
  { p with
    pSendAudioBuf := (fixedHeader p.pSendAudioBuf p.ulAudioPt).setTimeStamp ulAudioTimeStamp
    ulAudioTimeStamp
    accesses := p.accesses ++ [.buf 0 rtpHdrLen] }

/-- The assignments of `packet[0]` to `packet[3]`. -/
def storeAu (p : RtpPacker) (ulBufLen : UInt32) : RtpPacker :=
  { p with
    pSendAudioBuf := p.pSendAudioBuf.store rtpHdrLen (auHeader ulBufLen) (by decide)
    accesses := p.accesses ++ [.buf rtpHdrLen auHeaderSize] }

/-- `SendRawAudioData`. -/
def sendRawAudioData (p : RtpPacker) (m : Memory) (ulBufLen ulTimeStamp : UInt32) : RtpPacker :=
  if p.ulAudioPt = ptAcc then ((p.startAudio ulTimeStamp).storeAu ulBufLen).audioLoop m ulBufLen.toNat 0
  else (p.startAudio ulTimeStamp).sendAudio m true rtpHdrLen (by decide) 0 ulBufLen.toNat (ulBufLen + 12).toNat

/-! ## The chunks of a NAL unit -/

/-- The chunks tile what is behind the NAL header. -/
theorem fragments_spec {n : Nat} (hn : rtpPlayloadLen < n) :
    0 < (fragments n).1 ∧ (fragments n).1 * rtpPlayloadLen + (fragments n).2 = n ∧
      (fragments n).2 ≤ rtpPlayloadLen := by
  unfold fragments
  by_cases hmod : n % rtpPlayloadLen = 0
  · rw [if_pos hmod]
    simp only [rtpPlayloadLen] at *
    omega
  · rw [if_neg hmod]
    simp only [rtpPlayloadLen] at *
    omega

/-! ## The header in a send buffer -/

theorem be16Bytes_be16 (a b : UInt8) : be16Bytes (be16 a b) = [a, b] := by
  have ha := a.toNat_lt
  have hb := b.toNat_lt
  simp only [be16Bytes, toNat_be16]
  congr 1
  · apply UInt8.toNat_inj.mp
    rw [UInt8.toNat_ofNat']
    omega
  · congr 1
    apply UInt8.toNat_inj.mp
    rw [UInt8.toNat_ofNat']
    omega

theorem be32Bytes_be32 (a b c d : UInt8) : be32Bytes (be32 a b c d) = [a, b, c, d] := by
  have ha := a.toNat_lt
  have hb := b.toNat_lt
  have hc := c.toNat_lt
  have hd := d.toNat_lt
  simp only [be32Bytes, be32, UInt32.toNat_ofNat', List.cons.injEq, and_true]
  refine ⟨?_, ?_, ?_, ?_⟩ <;> (apply UInt8.toNat_inj.mp; rw [UInt8.toNat_ofNat']; omega)

/-- Whatever the last ten bytes of a header are, they are a sequence number, a time stamp and a source. -/
theorem exists_headed {m : Memory} {pt : UInt8} (marker : Bool) {l : List UInt8}
    (h : m.read 0 RtpPacket.fixedHeader =
      128 :: .ofNat ((if marker then 128 else 0) + pt.toNat % 128) :: l) :
    ∃ seqNum timeStamp ssrc, Headed m ⟨pt, marker, seqNum, timeStamp, ssrc⟩ := by
  have hlen := congrArg List.length h
  rw [Memory.length_read] at hlen
  match l, hlen with
  | [s₁, s₀, t₃, t₂, t₁, t₀, c₀, c₁, c₂, c₃], _ =>
    refine ⟨be16 s₁ s₀, be32 t₃ t₂ t₁ t₀, be32 c₃ c₂ c₁ c₀, h.trans ?_⟩
    simp only [Head.bytes, be16Bytes_be16, be32Bytes_be32]
    rfl

/-- After the fields that both senders set first, the buffer begins with a plain header. -/
theorem headed_fixedHeader (b : SendBuf) (pt : UInt32) : ∃ seqNum timeStamp,
    Headed (fixedHeader b pt).bytes ⟨.ofNat pt.toNat, false, seqNum, timeStamp, htonl rtpSsrc⟩ := by
  obtain ⟨m, hcsrc, hpad⟩ := b
  obtain ⟨b₀, b₁, l, hm⟩ : ∃ b₀ b₁ l, m.read 0 RtpPacket.fixedHeader = b₀ :: b₁ :: l := ⟨_, _, _, rfl⟩
  show ∃ seqNum timeStamp, Headed (RtpPacket.setSSRC (RtpPacket.setExtension (RtpPacket.setMarker
    (RtpPacket.setVersion (RtpPacket.setPayloadType m 0 (.ofNat pt.toNat)) 0 2) 0 false) 0 0) 0 (htonl rtpSsrc)) _
  have hlow : b₀.toNat % 16 = 0 ∧ b₀.toNat / 32 % 2 = 0 := by
    rw [← (PsRtpEncap.first_two hm).1]
    exact ⟨hcsrc, hpad⟩
  have htype : (RtpPacket.setPayloadType m 0 (.ofNat pt.toNat)).read 0 RtpPacket.fixedHeader =
      b₀ :: .ofNat (b₁.toNat / 128 * 128 + (UInt8.ofNat pt.toNat).toNat % 128) :: l := by
    unfold RtpPacket.setPayloadType
    rw [(PsRtpEncap.first_two hm).2.1]
    exact (PsRtpEncap.first_two hm).2.2.2 _
  generalize RtpPacket.setPayloadType m 0 (.ofNat pt.toNat) = m at htype
  generalize hb : UInt8.ofNat (b₁.toNat / 128 * 128 + (UInt8.ofNat pt.toNat).toNat % 128) = c₁ at htype
  have hversion : (RtpPacket.setVersion m 0 2).read 0 RtpPacket.fixedHeader =
      .ofNat (128 + b₀.toNat % 64) :: c₁ :: l := by
    unfold RtpPacket.setVersion
    rw [(PsRtpEncap.first_two htype).1]
    exact (PsRtpEncap.first_two htype).2.2.1 _
  generalize RtpPacket.setVersion m 0 2 = m at hversion
  have hmarker : (RtpPacket.setMarker m 0 false).read 0 RtpPacket.fixedHeader =
      .ofNat (128 + b₀.toNat % 64) :: .ofNat (0 + c₁.toNat % 128) :: l := by
    unfold RtpPacket.setMarker
    rw [(PsRtpEncap.first_two hversion).2.1]
    exact (PsRtpEncap.first_two hversion).2.2.2 _
  generalize RtpPacket.setMarker m 0 false = m at hmarker
  have hext : (RtpPacket.setExtension m 0 0).read 0 RtpPacket.fixedHeader =
      128 :: .ofNat (0 + (UInt8.ofNat pt.toNat).toNat % 128) :: l := by
    unfold RtpPacket.setExtension
    rw [(PsRtpEncap.first_two hmarker).1]
    refine ((PsRtpEncap.first_two hmarker).2.2.1 _).trans ?_
    -- the low bits that `memset` cleared, and the low bits that the type was stored in
    have hfirst : (UInt8.ofNat (128 + b₀.toNat % 64)).toNat / 32 * 32 + 0 % 2 * 16 +
        (UInt8.ofNat (128 + b₀.toNat % 64)).toNat % 16 = 128 := by
      rw [UInt8.toNat_ofNat']
      omega
    have hsecond : c₁.toNat % 128 = (UInt8.ofNat pt.toNat).toNat % 128 := by
      rw [← hb, UInt8.toNat_ofNat']
      omega
    rw [hfirst, hsecond]
    rfl
  obtain ⟨seqNum, timeStamp, _, hheaded⟩ := exists_headed false hext
  exact ⟨seqNum, timeStamp, hheaded.setSSRC _⟩

end RtpPacker

end AllCamera
