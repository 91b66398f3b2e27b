import AllCamera.Stream.RtpPacker.Bounds
import AllCamera.Stream.RtpPacker.Video

/-!
# The packets of an audio frame (`SendRawAudioData`)

* `audioPackets`: what the loop is to hand over; `audioLoop_spec`: it does, whatever the length is.
* `CarriesAudio`: the packets carry the frame.
* `AudioFits`: the frames that they carry. The size field of an AAC frame has 13 bits; any other frame is copied as
  it is behind the fixed header.
-/

namespace AllCamera

/-- The access is inside of the send buffer, if it is one of it. -/
def Access.InBuf : Access → Prop
  | .buf p n => p + n ≤ RtpPacker.rtpPackBufSize
  | _ => True

namespace RtpPacker

open PsRtpEncap (Headed seqOf markerOf)
open RtpPacket (Head)

variable (m : Memory) {p : RtpPacker} {h : Head}

/-- The assignments of `seq_no` and `marker` keep what is behind the header. -/
theorem read_behind (b : SendBuf) (seq : UInt16) (marker : Bool) {q n : Nat} (hq : rtpHdrLen ≤ q) :
    ((b.setSeqNum seq).setMarker marker).bytes.read q n = b.bytes.read q n := by
  have hmarker : ((b.setSeqNum seq).setMarker marker).bytes.read q n = (b.setSeqNum seq).bytes.read q n :=
    Memory.read_write_of_disjoint (.inr (by simp only [List.length_singleton, rtpHdrLen] at *; omega))
  have hseq : (b.setSeqNum seq).bytes.read q n = b.bytes.read q n :=
    Memory.read_write_of_disjoint (.inr (by
      simp only [be16Bytes, List.length_cons, List.length_nil, rtpHdrLen] at *
      omega))
  rw [hmarker, hseq]

/-- A packet: the header, what was there in front of `dst`, and the bytes that were copied. -/
theorem sendAudio_spec (kept : List UInt8) (hp : Headed p.pSendAudioBuf.bytes h)
    (hkept : p.pSendAudioBuf.bytes.read rtpHdrLen kept.length = kept) (marker : Bool) {dst : Nat} (hpos : 0 < dst)
    (src : Nat) {len ulSize : Nat} (hdst : dst = rtpHdrLen + kept.length) (hsize : ulSize = dst + len) :
    let head := { h with marker := marker, seqNum := p.audioRtpSeq }
    let p' := p.sendAudio m marker dst hpos src len ulSize
    p'.handed = p.handed ++ [PsRtpEncap.Packet.bytes ⟨head, kept ++ m.read src len⟩] ∧
      Headed p'.pSendAudioBuf.bytes head ∧ p'.pSendAudioBuf.bytes.read rtpHdrLen kept.length = kept ∧
      p'.audioRtpSeq = p.audioRtpSeq + 1 := by
  intro head p'
  subst hsize hdst
  let b := p.pSendAudioBuf.store (rtpHdrLen + kept.length) (m.read src len) hpos
  have hstored : b.bytes.read (rtpHdrLen + kept.length : Nat) len = m.read src len := by
    have hread := Memory.read_write p.pSendAudioBuf.bytes (rtpHdrLen + kept.length : Nat) (m.read src len)
    rwa [Memory.length_read] at hread
  have hb : Headed b.bytes h := (Memory.read_write_of_disjoint (.inl (by
    simp only [RtpPacket.fixedHeader, rtpHdrLen]
    omega))).trans hp
  have hfront : b.bytes.read rtpHdrLen kept.length = kept :=
    (Memory.read_write_of_disjoint (.inl (by omega))).trans hkept
  have hhead : Headed p'.pSendAudioBuf.bytes head := (hb.setSeqNum p.audioRtpSeq).setMarker marker
  have hbehind : p'.pSendAudioBuf.bytes.read rtpHdrLen kept.length = kept :=
    (read_behind b _ marker (Nat.le_refl _)).trans hfront
  refine ⟨?_, hhead, hbehind, rfl⟩
  show p.handed ++ [p'.pSendAudioBuf.bytes.read 0 (rtpHdrLen + kept.length + len)] = _
  have hcopied : p'.pSendAudioBuf.bytes.read (rtpHdrLen + kept.length : Nat) len = m.read src len :=
    (read_behind b _ marker (Nat.le_add_right _ _)).trans hstored
  have hhdr : p'.pSendAudioBuf.bytes.read 0 rtpHdrLen = head.bytes := hhead
  rw [Memory.read_add, Memory.read_add, hhdr, Int.zero_add, hbehind, Int.zero_add, hcopied, List.append_assoc]
  rfl

/-- The packets of the loop: `len` bytes from `off` on are left. -/
def audioPackets (head : Bool → UInt16 → Head) (au : List UInt8) (seq : UInt16) (len : Nat) (off : UInt16) :
    List PsRtpEncap.Packet :=
  if audioPayload < len then
    ⟨head false seq, au ++ m.read off.toNat audioPayload⟩ ::
      audioPackets head au (seq + 1) (len - audioPayload) (off + .ofNat audioPayload)
  else [⟨head true seq, au ++ m.read off.toNat len⟩]
termination_by len
decreasing_by simp only [audioPayload, rtpPlayloadLen, auHeaderSize] at *; omega

/-- The loop hands over its packets. -/
theorem audioLoop_spec {au : List UInt8} (hau : au.length = auHeaderSize) (hp : Headed p.pSendAudioBuf.bytes h)
    (hread : p.pSendAudioBuf.bytes.read rtpHdrLen auHeaderSize = au) (len : Nat) (off : UInt16) :
    (p.audioLoop m len off).handed = p.handed ++
      (audioPackets m (fun marker seq => { h with marker := marker, seqNum := seq }) au p.audioRtpSeq len off).map
        PsRtpEncap.Packet.bytes := by
  fun_induction audioLoop p m len off generalizing h with
  | case1 p len off hlt ih =>
    rw [← hau] at hread
    obtain ⟨hhanded, hheaded, hkept, hseq⟩ := sendAudio_spec m au hp hread false
      (show 0 < rtpHdrLen + auHeaderSize by decide) off.toNat (congrArg (rtpHdrLen + ·) hau.symm)
      (show rtpPlayloadLen + rtpHdrLen = _ + audioPayload from rfl)
    rw [hau] at hkept
    rw [audioPackets, if_pos hlt, ih hheaded hkept, hhanded, hseq, List.map_cons, List.append_assoc,
      List.singleton_append]
  | case2 p len off hle =>
    rw [← hau] at hread
    have hsize : len + auHeaderSize + rtpHdrLen = rtpHdrLen + auHeaderSize + len := by omega
    rw [audioPackets, if_neg hle]
    exact (sendAudio_spec m au hp hread true (show 0 < rtpHdrLen + auHeaderSize by decide) off.toNat
      (congrArg (rtpHdrLen + ·) hau.symm) hsize).1

section Packets

variable (head : Bool → UInt16 → Head) {au : List UInt8} (seq : UInt16) {len : Nat} {off : UInt16}

/-- Behind the `AU` headers the packets have the bytes of the frame, as long as `off` does not wrap. -/
theorem flatten_audioPackets (hau : au.length = auHeaderSize) (hoff : off.toNat + len < 2 ^ 16) :
    ((audioPackets m head au seq len off).map fun packet => packet.payload.drop auHeaderSize).flatten =
      m.read off.toNat len := by
  fun_induction audioPackets m head au seq len off with
  | case1 seq len off hlt ih =>
    have hsmall : audioPayload < 2 ^ 16 := by decide
    have hnext : (off + .ofNat audioPayload).toNat = off.toNat + audioPayload := by
      rw [UInt16.toNat_add, UInt16.toNat_ofNat', Nat.mod_eq_of_lt hsmall, Nat.mod_eq_of_lt (by omega)]
    rw [hnext] at ih
    rw [List.map_cons, List.flatten_cons, ih (by omega), ← hau, List.drop_left, Int.natCast_add, ← Memory.read_add,
      Nat.add_sub_cancel' (Nat.le_of_lt hlt)]
  | case2 seq len off hle =>
    rw [List.map_singleton, List.flatten_singleton, ← hau, List.drop_left]

/-- Every payload begins with the `AU` headers. -/
theorem mem_audioPackets (au : List UInt8) (len : Nat) (off : UInt16) :
    ∀ packet ∈ audioPackets m head au seq len off, ∃ data, packet.payload = au ++ data := by
  fun_induction audioPackets m head au seq len off with
  | case1 seq len off hlt ih => exact List.forall_mem_cons.mpr ⟨⟨_, rfl⟩, ih⟩
  | case2 seq len off hle => exact List.forall_mem_singleton.mpr ⟨_, rfl⟩

theorem length_audioPackets_pos (au : List UInt8) (len : Nat) (off : UInt16) :
    0 < (audioPackets m head au seq len off).length := by
  rw [audioPackets]
  split <;> exact Nat.succ_pos _

theorem seqs_audioPackets (hhead : ∀ marker seq, (head marker seq).seqNum = seq) (au : List UInt8) (len : Nat)
    (off : UInt16) : (audioPackets m head au seq len off).map (fun packet => packet.head.seqNum) =
      (List.range (audioPackets m head au seq len off).length).map fun i => seq + .ofNat i := by
  fun_induction audioPackets m head au seq len off with
  | case1 seq len off hlt ih =>
    rw [List.map_cons, ih, List.length_cons, PsRtpEncap.seqs_succ, hhead]
  | case2 seq len off hle => exact congrArg ([·]) ((hhead ..).trans (UInt16.add_zero seq).symm)

/-- The last packet has the marker. -/
theorem markers_audioPackets (hhead : ∀ marker seq, (head marker seq).marker = marker) (au : List UInt8) (len : Nat)
    (off : UInt16) : (audioPackets m head au seq len off).map (fun packet => packet.head.marker) =
      (List.range (audioPackets m head au seq len off).length).map
        fun i => i + 1 == (audioPackets m head au seq len off).length := by
  fun_induction audioPackets m head au seq len off with
  | case1 seq len off hlt ih =>
    have hpos := length_audioPackets_pos m head (seq + 1) au (len - audioPayload) (off + .ofNat audioPayload)
    rw [List.map_cons, ih, List.length_cons, List.range_succ_eq_map, List.map_cons, List.map_map]
    congr 1
    · exact (hhead ..).trans (beq_false_of_ne (by omega)).symm
    · apply congrFun
      congr 1
      funext i
      rw [Function.comp_apply, Bool.eq_iff_iff, beq_iff_eq, beq_iff_eq, Nat.add_right_cancel_iff]
  | case2 seq len off hle => exact congrArg ([·]) (hhead ..)

end Packets

/-! ## What is copied -/

theorem sendAudio_adds {P : Access → Prop} {dst src len ulSize : Nat}
    (h : ∀ a ∈ ([.frame src len, .buf dst len, .buf 0 rtpHdrLen, .buf 0 ulSize] : List Access), P a) (marker : Bool)
    (hdst : 0 < dst) : Adds P p (p.sendAudio m marker dst hdst src len ulSize) :=
  ⟨_, List.append_assoc .., h⟩

/-- The chunks of an AAC frame fit into the buffer. -/
theorem audioLoop_adds (len : Nat) (off : UInt16) : Adds Access.InBuf p (p.audioLoop m len off) := by
  fun_induction audioLoop p m len off with
  | case1 p len off hlt ih =>
    refine (sendAudio_adds m ?_ ..).trans ih
    simp only [List.forall_mem_cons, List.not_mem_nil, false_imp_iff, implies_true, Access.InBuf]
    decide
  | case2 p len off hle =>
    refine sendAudio_adds m ?_ ..
    simp only [List.forall_mem_cons, List.not_mem_nil, false_imp_iff, implies_true, and_true, true_and, Access.InBuf,
      rtpHdrLen, auHeaderSize, rtpPackBufSize, audioPayload, rtpPlayloadLen] at *
    omega

/-! ## The packets of a frame -/

/-- The size in the `AU` headers of a payload. -/
def auSize (payload : List UInt8) : Nat := ((payload.getD 2 0).toNat * 256 + (payload.getD 3 0).toNat) / 8

/-- The packets carry the frame. -/
structure CarriesAudio (p : RtpPacker) (frame : List UInt8) (packets payloads : List (List UInt8)) : Prop where
  payload : packets.map rtpPayload = payloads.map some
  data : if p.ulAudioPt = ptAcc then (payloads.map (List.drop auHeaderSize)).flatten = frame
    else payloads.flatten = frame
  size : p.ulAudioPt = ptAcc → ∀ payload ∈ payloads, auSize payload = frame.length
  marker : packets.map markerOf = (List.range packets.length).map fun i => i + 1 == packets.length
  seqs : packets.map seqOf = (List.range packets.length).map fun i => p.audioRtpSeq + .ofNat i

/-- `SendRawAudioData` copies nothing past the buffer, and hands over packets that carry the frame. -/
def AudioSafe (p : RtpPacker) (m : Memory) (ulBufLen ulTimeStamp : UInt32) : Prop :=
  Adds Access.InBuf p (p.sendRawAudioData m ulBufLen ulTimeStamp) ∧
    ∃ packets payloads, (p.sendRawAudioData m ulBufLen ulTimeStamp).handed = p.handed ++ packets ∧
      CarriesAudio p (m.read 0 ulBufLen.toNat) packets payloads

/-- The frames that fit: into the 13 bits of the size, or into the buffer behind the fixed header. -/
def AudioFits (p : RtpPacker) (ulBufLen : UInt32) : Prop :=
  if p.ulAudioPt = ptAcc then ulBufLen.toNat < 2 ^ 13 else ulBufLen.toNat ≤ rtpPackBufSize - rtpHdrLen

theorem auSize_auHeader (ulBufLen : UInt32) (data : List UInt8) :
    auSize (auHeader ulBufLen ++ data) = ulBufLen.toNat % 2 ^ 13 := by
  show ((UInt8.ofNat (ulBufLen.toNat % 8192 / 32)).toNat * 256 + (UInt8.ofNat (ulBufLen.toNat % 32 * 8)).toNat) / 8 = _
  rw [UInt8.toNat_ofNat', UInt8.toNat_ofNat']
  omega

/-- The form of packets that begin with a plain header. -/
theorem CarriesAudio.of_bytes {frame : List UInt8} {packets : List PsRtpEncap.Packet}
    (data : if p.ulAudioPt = ptAcc then
        (packets.map fun packet => packet.payload.drop auHeaderSize).flatten = frame
      else (packets.map PsRtpEncap.Packet.payload).flatten = frame)
    (size : p.ulAudioPt = ptAcc → ∀ packet ∈ packets, auSize packet.payload = frame.length)
    (marker : packets.map (fun packet => packet.head.marker) =
      (List.range packets.length).map fun i => i + 1 == packets.length)
    (seqs : packets.map (fun packet => packet.head.seqNum) =
      (List.range packets.length).map fun i => p.audioRtpSeq + .ofNat i) :
    CarriesAudio p frame (packets.map PsRtpEncap.Packet.bytes) (packets.map PsRtpEncap.Packet.payload) where
  payload := PsRtpEncap.map_rtpPayload_bytes packets
  data := by rwa [List.map_map]
  size := fun haac payload hpayload => by
    obtain ⟨packet, hpacket, rfl⟩ := List.mem_map.mp hpayload
    exact size haac packet hpacket
  marker := by
    rw [PsRtpEncap.map_markerOf_bytes, List.length_map, ← marker]
  seqs := by
    rw [PsRtpEncap.map_seqOf_bytes, List.length_map, ← seqs]

/-- What is handed over of an AAC frame, whatever its length is. -/
theorem sendRawAudioData_aac (haac : p.ulAudioPt = ptAcc) (ulBufLen ulTimeStamp : UInt32) :
    ∃ head : Bool → UInt16 → Head,
      (∀ marker seq, (head marker seq).marker = marker) ∧ (∀ marker seq, (head marker seq).seqNum = seq) ∧
      (p.sendRawAudioData m ulBufLen ulTimeStamp).handed = p.handed ++
        (audioPackets m head (auHeader ulBufLen) p.audioRtpSeq ulBufLen.toNat 0).map PsRtpEncap.Packet.bytes := by
  obtain ⟨seqNum, timeStamp, hhead⟩ := headed_fixedHeader p.pSendAudioBuf p.ulAudioPt
  have hstart : Headed (p.startAudio ulTimeStamp).pSendAudioBuf.bytes _ := hhead.setTimeStamp _
  have hau : Headed ((p.startAudio ulTimeStamp).storeAu ulBufLen).pSendAudioBuf.bytes _ :=
    hstart.write_payload (auHeader ulBufLen)
  refine ⟨fun marker seq => ⟨.ofNat p.ulAudioPt.toNat, marker, seq, ulTimeStamp * (p.ulAudioClockFreq / 1000),
    htonl rtpSsrc⟩, fun _ _ => rfl, fun _ _ => rfl, ?_⟩
  rw [sendRawAudioData, if_pos haac]
  exact audioLoop_spec m rfl hau (Memory.read_write _ _ (auHeader ulBufLen)) _ 0

/-- What is read of the packets of an AAC frame. -/
theorem audioSafe_aac (haac : p.ulAudioPt = ptAcc) (ulBufLen ulTimeStamp : UInt32) :
    AudioSafe p m ulBufLen ulTimeStamp ↔ ulBufLen.toNat < 2 ^ 13 := by
  obtain ⟨head, hmarker, hseq, hhanded⟩ := sendRawAudioData_aac m haac ulBufLen ulTimeStamp
  have hsize : ∀ packet ∈ audioPackets m head (auHeader ulBufLen) p.audioRtpSeq ulBufLen.toNat 0,
      auSize packet.payload = ulBufLen.toNat % 2 ^ 13 := by
    intro packet hpacket
    obtain ⟨data, hdata⟩ := mem_audioPackets m head p.audioRtpSeq _ _ _ packet hpacket
    rw [hdata, auSize_auHeader]
  constructor
  · rintro ⟨-, packets, payloads, hpackets, hcarries⟩
    -- the first payload has the size modulo `2 ^ 13`
    obtain ⟨packet, hpacket⟩ := List.exists_mem_of_length_pos
      (length_audioPackets_pos m head p.audioRtpSeq (auHeader ulBufLen) ulBufLen.toNat 0)
    have hsame : packets = _ := List.append_cancel_left (hpackets.symm.trans hhanded)
    have hmem : some packet.payload ∈ payloads.map some := by
      rw [← hcarries.payload, hsame, ← PsRtpEncap.rtpPayload_bytes packet]
      exact List.mem_map_of_mem (List.mem_map_of_mem hpacket)
    obtain ⟨payload, hpayload, heq⟩ := List.mem_map.mp hmem
    have hfull := hcarries.size haac payload hpayload
    rw [Option.some.inj heq, hsize packet hpacket, Memory.length_read] at hfull
    omega
  · intro hfits
    refine ⟨?_, _, _, hhanded, .of_bytes ?_ (fun _ packet hpacket => ?_) ?_ ?_⟩
    · have hstart : Adds Access.InBuf p ((p.startAudio ulTimeStamp).storeAu ulBufLen) := by
        refine ⟨[.buf 0 rtpHdrLen, .buf rtpHdrLen auHeaderSize], List.append_assoc .., ?_⟩
        simp only [List.forall_mem_cons, List.not_mem_nil, false_imp_iff, implies_true, Access.InBuf]
        decide
      rw [sendRawAudioData, if_pos haac]
      exact hstart.trans (audioLoop_adds m _ 0)
    · rw [if_pos haac]
      exact flatten_audioPackets m head _ rfl (show 0 + _ < _ by omega)
    · rw [hsize packet hpacket, Memory.length_read, Nat.mod_eq_of_lt hfits]
    · exact markers_audioPackets m head _ hmarker ..
    · exact seqs_audioPackets m head _ hseq ..

/-- Any other frame is sent in one packet. -/
theorem audioSafe_other (hother : p.ulAudioPt ≠ ptAcc) (ulBufLen ulTimeStamp : UInt32) :
    AudioSafe p m ulBufLen ulTimeStamp ↔ ulBufLen.toNat ≤ rtpPackBufSize - rtpHdrLen := by
  have hsend : p.sendRawAudioData m ulBufLen ulTimeStamp = (p.startAudio ulTimeStamp).sendAudio m true rtpHdrLen
      (by decide) 0 ulBufLen.toNat (ulBufLen + 12).toNat := by
    rw [sendRawAudioData, if_neg hother]
  let as : List Access := [.buf 0 rtpHdrLen] ++ ([.frame (0 : Nat) ulBufLen.toNat, .buf rtpHdrLen ulBufLen.toNat,
    .buf 0 rtpHdrLen] ++ [.buf 0 (ulBufLen + 12).toNat])
  have hall : (p.sendRawAudioData m ulBufLen ulTimeStamp).accesses = p.accesses ++ as := by
    rw [hsend]
    simp only [sendAudio, handleRtpPacket, touch, startAudio, as, List.append_assoc]
  constructor
  · rintro ⟨hadds, -⟩
    have hcopy : rtpHdrLen + ulBufLen.toNat ≤ rtpPackBufSize :=
      hadds.of_trans as hall .refl (.buf rtpHdrLen ulBufLen.toNat) (by simp [as])
    simp only [rtpHdrLen, rtpPackBufSize] at *
    omega
  · intro hfits
    have hsize : (ulBufLen + 12).toNat = rtpHdrLen + ulBufLen.toNat := by
      rw [UInt32.toNat_add]
      simp only [rtpHdrLen, rtpPackBufSize] at *
      show (ulBufLen.toNat + 12) % 2 ^ 32 = _
      omega
    refine ⟨⟨as, hall, ?_⟩, ?_⟩
    · simp only [as, List.cons_append, List.nil_append, List.forall_mem_cons, List.not_mem_nil, false_imp_iff,
        implies_true, and_true, true_and, Access.InBuf, hsize, rtpHdrLen, rtpPackBufSize] at *
      omega
    · obtain ⟨seqNum, timeStamp, hhead⟩ := headed_fixedHeader p.pSendAudioBuf p.ulAudioPt
      have hstart : Headed (p.startAudio ulTimeStamp).pSendAudioBuf.bytes _ := hhead.setTimeStamp _
      obtain ⟨hhanded, -⟩ := sendAudio_spec m [] hstart rfl true (show 0 < rtpHdrLen by decide) 0 rfl hsize
      let packet : PsRtpEncap.Packet := ⟨⟨.ofNat p.ulAudioPt.toNat, true, p.audioRtpSeq,
        ulTimeStamp * (p.ulAudioClockFreq / 1000), htonl rtpSsrc⟩, m.read 0 ulBufLen.toNat⟩
      refine ⟨[packet].map PsRtpEncap.Packet.bytes, [packet].map PsRtpEncap.Packet.payload,
        (congrArg handed hsend).trans hhanded, .of_bytes ?_ (fun haac => absurd haac hother) rfl ?_⟩
      · rw [if_neg hother, List.map_singleton, List.flatten_singleton]
      · exact congrArg ([·]) (UInt16.add_zero _).symm

/-- `SendRawAudioData` sends a frame as it should exactly if the frame fits. -/
theorem sendRawAudioData_safe_iff (p : RtpPacker) (ulBufLen ulTimeStamp : UInt32) :
    AudioSafe p m ulBufLen ulTimeStamp ↔ AudioFits p ulBufLen := by
  unfold AudioFits
  split_ifs with haac
  · exact audioSafe_aac m haac ulBufLen ulTimeStamp
  · exact audioSafe_other m haac ulBufLen ulTimeStamp

/-- An AAC frame of `2 ^ 13` bytes. -/
theorem not_audioSafe_aac : ¬ ∀ (p : RtpPacker) (m : Memory) (ulBufLen ulTimeStamp : UInt32),
    AudioSafe p m ulBufLen ulTimeStamp := by
  intro h
  have hsafe := h (created.init 96 ptAcc 90000 48000) (fun _ => 0) 8192 40
  exact absurd ((audioSafe_aac _ rfl 8192 40).mp hsafe) (by decide)

end RtpPacker

end AllCamera
