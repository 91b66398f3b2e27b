import AllCamera.Stream.RtpPacker

/-!
# The packets of a NAL unit (`SendNaluVideoData`)

* `fragmentPacket`: what the packet of a pass of the loop is to be. `naluLoop_spec`: the loop hands over these.
* `receiveAll_fragments`: what a receiver has after the first of them. The chunks tile the NAL unit, whether or not
  its length is a multiple of `RTP_PLAYLOAD_LEN`.
* `NalPackets`: the form of the packets of a NAL unit.
-/

namespace AllCamera.RtpPacker

open Nal (typeOf startBit stopBit fuA rebuilt IsSingle)
open PsRtpEncap (Headed seqOf markerOf)
open RtpPacket (Head)

/-! ## The fragmentation header -/

theorem typeOf_fuInd (header : UInt8) : typeOf (fuInd header) = fuA := by
  simp only [typeOf, fuInd, fuA, rtpFua, UInt8.toNat_ofNat']
  omega

theorem rebuilt_fuHdr (s e : Bool) (header : UInt8) : rebuilt (fuInd header) (fuHdr s e header) = header := by
  have hlt := header.toNat_lt
  have hs := Bool.toNat_le s
  have he := Bool.toNat_le e
  apply UInt8.toNat_inj.mp
  simp only [rebuilt, typeOf, fuInd, fuHdr, rtpFua, UInt8.toNat_ofNat']
  omega

theorem startBit_fuHdr (s e : Bool) (header : UInt8) : startBit (fuHdr s e header) = s := by
  have he := Bool.toNat_le e
  simp only [startBit, fuHdr, UInt8.toNat_ofNat']
  cases s <;> simp only [Bool.toNat_false, Bool.toNat_true, beq_eq_false_iff_ne, beq_iff_eq] <;> omega

theorem stopBit_fuHdr (s e : Bool) (header : UInt8) : stopBit (fuHdr s e header) = e := by
  have hs := Bool.toNat_le s
  simp only [stopBit, fuHdr, UInt8.toNat_ofNat']
  cases e <;> simp only [Bool.toNat_false, Bool.toNat_true, beq_eq_false_iff_ne, beq_iff_eq] <;> omega

/-! ## What is handed over -/

variable (m : Memory) (nal : Int) {p : RtpPacker} {h : Head}

theorem sendSingle_spec (hp : Headed p.pSendVideoBuf.bytes h) (n : Nat) :
    (p.sendSingle m nal n).handed = p.handed ++
      [PsRtpEncap.Packet.bytes ⟨{ h with marker := true, seqNum := p.videoRtpSeq, timeStamp := p.ulVideoTimeStamp },
        m.read nal (n + 1)⟩] := by
  have hread := (((hp.setMarker true).setSeqNum p.videoRtpSeq).setTimeStamp p.ulVideoTimeStamp).read_payload
    (m.read nal (n + 1))
  rw [Memory.length_read] at hread
  exact congrArg (fun bytes => p.handed ++ [bytes]) hread

/-- A branch of the loop hands over a packet, and leaves its header in the buffer. -/
theorem sendFragment_spec {seq : UInt16} (hp : Headed p.pSendVideoBuf.bytes h) (hseq : p.videoRtpSeq = seq)
    (marker s e : Bool) (src : Int) (len : Nat) :
    let head := { h with marker := marker, seqNum := seq }
    let p' := p.sendFragment m nal marker s e src len
    p'.handed = p.handed ++ [PsRtpEncap.Packet.bytes ⟨head, fuInd (m nal) :: fuHdr s e (m nal) :: m.read src len⟩] ∧
      Headed p'.pSendVideoBuf.bytes head ∧ p'.videoRtpSeq = seq + 1 := by
  subst hseq
  intro head p'
  have hstart := (hp.setSeqNum p.videoRtpSeq).setMarker marker
  -- the three stores are one behind the other
  obtain ⟨b, hb, hbytes⟩ : ∃ b, Headed b head ∧ p'.pSendVideoBuf.bytes =
      b.write RtpPacket.fixedHeader (fuInd (m nal) :: fuHdr s e (m nal) :: m.read src len) := by
    refine ⟨_, hstart, ?_⟩
    have htwo := Memory.write_append (RtpPacket.setMarker (RtpPacket.setSeqNum p.pSendVideoBuf.bytes 0
      p.videoRtpSeq) 0 marker) rtpHdrLen [fuInd (m nal)] [fuHdr s e (m nal)]
    have hthree := Memory.write_append (RtpPacket.setMarker (RtpPacket.setSeqNum p.pSendVideoBuf.bytes 0
      p.videoRtpSeq) 0 marker) rtpHdrLen [fuInd (m nal), fuHdr s e (m nal)] (m.read src len)
    exact (congrArg (fun b => Memory.write b _ (m.read src len)) htwo).trans hthree
  have hread := hb.read_payload (fuInd (m nal) :: fuHdr s e (m nal) :: m.read src len)
  rw [← hbytes, List.length_cons, List.length_cons, Memory.length_read] at hread
  refine ⟨?_, ?_, rfl⟩
  · show p.handed ++ [p'.pSendVideoBuf.bytes.read 0 (len + rtpHdrLen + 2)] = _
    rw [show len + rtpHdrLen + 2 = RtpPacket.fixedHeader + (len + 1 + 1) by
      simp only [rtpHdrLen, RtpPacket.fixedHeader]; omega, hread]
    rfl
  · rw [hbytes]
    exact hb.write_payload _

/-- The packet of the pass `i` of the loop, where the first one has the sequence number `seq`. -/
def fragmentPacket (h : Head) (seq : UInt16) (k last i : Nat) : PsRtpEncap.Packet where
  head := { h with marker := i == k, seqNum := seq + .ofNat i }
  payload := fuInd (m nal) :: fuHdr (i == 0) (i == k) (m nal) ::
    m.read (nal + (i * rtpPlayloadLen : Nat) + 1) (if i = k then last else rtpPlayloadLen)

/-- A pass of the loop hands over its packet. -/
theorem naluPass_spec {seq : UInt16} {k t : Nat} (last : Nat) (hk : 0 < k) (hp : Headed p.pSendVideoBuf.bytes h)
    (hseq : p.videoRtpSeq = seq + .ofNat t) :
    let packet := fragmentPacket m nal h seq k last t
    let p' := p.naluPass m nal k last t
    p'.handed = p.handed ++ [packet.bytes] ∧ Headed p'.pSendVideoBuf.bytes packet.head ∧
      p'.videoRtpSeq = seq + .ofNat (t + 1) := by
  have hnext : seq + .ofNat (t + 1) = seq + .ofNat t + 1 := by
    rw [UInt16.ofNat_add, UInt16.add_assoc]
    rfl
  rw [hnext]
  unfold naluPass fragmentPacket
  by_cases h0 : t = 0
  · subst h0
    rw [if_pos rfl, if_neg (by omega), beq_false_of_ne (show 0 ≠ k by omega), Nat.zero_mul, Int.natCast_zero,
      Int.add_zero]
    exact sendFragment_spec m nal hp hseq false true false _ _
  by_cases ht : k = t
  · rw [if_neg h0, if_pos ht, if_pos ht.symm, beq_iff_eq.mpr ht.symm, beq_false_of_ne h0]
    exact sendFragment_spec m nal hp hseq true false true _ _
  · rw [if_neg h0, if_neg ht, if_neg (Ne.symm ht), beq_false_of_ne (Ne.symm ht), beq_false_of_ne h0]
    exact sendFragment_spec m nal hp hseq false false false _ _

/-- The loop hands over the packets of its passes. -/
theorem naluLoop_spec (seq : UInt16) {k t : Nat} (last : Nat) (hk : 0 < k) (hp : Headed p.pSendVideoBuf.bytes h)
    (hseq : p.videoRtpSeq = seq + .ofNat t) : (p.naluLoop m nal k last t).handed =
      p.handed ++ (List.range' t (k + 1 - t)).map fun i => (fragmentPacket m nal h seq k last i).bytes := by
  fun_induction naluLoop p m nal k last t generalizing h with
  | case1 p t htk ih =>
    obtain ⟨hhanded, hheaded, hnext⟩ := naluPass_spec m nal last hk hp hseq
    rw [ih hheaded hnext, hhanded, show k + 1 - t = k + 1 - (t + 1) + 1 by omega, List.range'_succ, List.map_cons,
      List.append_assoc, List.singleton_append]
    rfl
  | case2 p t htk =>
    rw [show k + 1 - t = 0 by omega]
    simp

/-! ## What a receiver makes of the fragments -/

section Fragments

variable (h : Head) (seq : UInt16) {k last t : Nat}

/-- What a receiver has after the first fragments. -/
theorem receiveAll_fragments (ht : t < k) :
    NalReceiver.receiveAll ⟨[], none⟩
        ((List.range (t + 1)).map fun i => (fragmentPacket m nal h seq k last i).payload) =
      some ⟨[], some (m.read nal (1 + (t + 1) * rtpPlayloadLen))⟩ := by
  induction t with
  | zero =>
    have hpayload : (fragmentPacket m nal h seq k last 0).payload =
        fuInd (m nal) :: fuHdr true false (m nal) :: m.read (nal + 1) rtpPlayloadLen := by
      simp [fragmentPacket, beq_false_of_ne (show 0 ≠ k by omega), show 0 ≠ k by omega]
    rw [List.range_one, List.map_singleton, hpayload]
    refine (NalReceiver.receiveAll_concat (NalReceiver.receiveAll_nil _) _).trans ?_
    rw [NalReceiver.receive_start (typeOf_fuInd _) (startBit_fuHdr ..) (stopBit_fuHdr ..) rfl, rebuilt_fuHdr,
      Nat.zero_add, Nat.one_mul, Nat.add_comm, Memory.read_succ]
  | succ t ih =>
    have hpayload : (fragmentPacket m nal h seq k last (t + 1)).payload = fuInd (m nal) ::
        fuHdr false false (m nal) :: m.read (nal + (1 + (t + 1) * rtpPlayloadLen : Nat)) rtpPlayloadLen := by
      have hsrc : nal + ((t + 1) * rtpPlayloadLen : Nat) + 1 = nal + (1 + (t + 1) * rtpPlayloadLen : Nat) := by omega
      simp only [fragmentPacket, beq_false_of_ne (show t + 1 ≠ k by omega), beq_false_of_ne (Nat.succ_ne_zero t),
        if_neg (show t + 1 ≠ k by omega), hsrc]
    have hhead : (m.read nal (1 + (t + 1) * rtpPlayloadLen)).head? =
        some (rebuilt (fuInd (m nal)) (fuHdr false false (m nal))) := by
      rw [Nat.add_comm, Memory.read_succ, rebuilt_fuHdr]
      rfl
    rw [List.range_succ, List.map_append, List.map_singleton, NalReceiver.receiveAll_concat (ih (by omega)), hpayload,
      NalReceiver.receive_middle (typeOf_fuInd _) (startBit_fuHdr ..) (stopBit_fuHdr ..) rfl hhead, ← Memory.read_add]
    rw [show 1 + (t + 1) * rtpPlayloadLen + rtpPlayloadLen = 1 + (t + 1 + 1) * rtpPlayloadLen by
      rw [Nat.succ_mul (t + 1), Nat.add_assoc]]

/-- The fragments carry the NAL unit: its header, the full chunks and the last one. -/
theorem depacketize_fragments (hk : 0 < k) :
    depacketize ((List.range (k + 1)).map fun i => (fragmentPacket m nal h seq k last i).payload) =
      some [m.read nal (1 + k * rtpPlayloadLen + last)] := by
  obtain ⟨t, rfl⟩ : ∃ t, k = t + 1 := ⟨k - 1, by omega⟩
  have hpayload : (fragmentPacket m nal h seq (t + 1) last (t + 1)).payload = fuInd (m nal) ::
      fuHdr false true (m nal) :: m.read (nal + (1 + (t + 1) * rtpPlayloadLen : Nat)) last := by
    have hsrc : nal + ((t + 1) * rtpPlayloadLen : Nat) + 1 = nal + (1 + (t + 1) * rtpPlayloadLen : Nat) := by omega
    simp only [fragmentPacket, beq_self_eq_true, beq_false_of_ne (Nat.succ_ne_zero t), if_pos, hsrc]
  have hhead : (m.read nal (1 + (t + 1) * rtpPlayloadLen)).head? =
      some (rebuilt (fuInd (m nal)) (fuHdr false true (m nal))) := by
    rw [Nat.add_comm, Memory.read_succ, rebuilt_fuHdr]
    rfl
  rw [List.range_succ, List.map_append, List.map_singleton,
    depacketize_concat (receiveAll_fragments m nal h seq (Nat.lt_succ_self t)), hpayload,
    NalReceiver.receive_stop (typeOf_fuInd _) (startBit_fuHdr ..) (stopBit_fuHdr ..) rfl hhead, ← Memory.read_add]
  rfl

end Fragments

/-! ## The packets of a NAL unit -/

/-- The payloads are fragments: the first one starts the NAL unit, and the last one ends it. -/
structure Fragmented (payloads : List (List UInt8)) : Prop where
  type : ∀ payload ∈ payloads, typeOf (payload.headD 0) = fuA
  start : payloads.map (fun payload => startBit (payload.getD 1 0)) =
    (List.range payloads.length).map fun i => i == 0
  stop : payloads.map (fun payload => stopBit (payload.getD 1 0)) =
    (List.range payloads.length).map fun i => i + 1 == payloads.length

/-- The packets of the NAL unit `nal`, from the sequence number `seq` on, and their payloads. -/
structure NalPackets (nal : List UInt8) (seq : UInt16) (packets payloads : List (List UInt8)) : Prop where
  payload : packets.map rtpPayload = payloads.map some
  single : nal.length - 1 ≤ rtpPlayloadLen → payloads = [nal]
  fragmented : rtpPlayloadLen < nal.length - 1 → Fragmented payloads
  marker : packets.map markerOf = (List.range packets.length).map fun i => i + 1 == packets.length
  seqs : packets.map seqOf = (List.range packets.length).map fun i => seq + .ofNat i
  size : ∀ packet ∈ packets, packet.length ≤ rtpPackBufSize

/-- The form of packets that begin with a plain header. -/
theorem NalPackets.of_bytes {nal : List UInt8} {seq : UInt16} {packets : List PsRtpEncap.Packet}
    (single : nal.length - 1 ≤ rtpPlayloadLen → packets.map PsRtpEncap.Packet.payload = [nal])
    (fragmented : rtpPlayloadLen < nal.length - 1 → Fragmented (packets.map PsRtpEncap.Packet.payload))
    (marker : packets.map (fun packet => packet.head.marker) =
      (List.range packets.length).map fun i => i + 1 == packets.length)
    (seqs : packets.map (fun packet => packet.head.seqNum) = (List.range packets.length).map fun i => seq + .ofNat i)
    (size : ∀ packet ∈ packets, rtpHdrLen + packet.payload.length ≤ rtpPackBufSize) :
    NalPackets nal seq (packets.map PsRtpEncap.Packet.bytes) (packets.map PsRtpEncap.Packet.payload) where
  payload := PsRtpEncap.map_rtpPayload_bytes packets
  single := single
  fragmented := fragmented
  marker := by
    rw [PsRtpEncap.map_markerOf_bytes, List.length_map, ← marker]
  seqs := by
    rw [PsRtpEncap.map_seqOf_bytes, List.length_map, ← seqs]
  size := by
    intro bytes hbytes
    obtain ⟨packet, hpacket, rfl⟩ := List.mem_map.mp hbytes
    have hlen : packet.bytes.length = rtpHdrLen + packet.payload.length :=
      (List.length_append ..).trans (congrArg (· + _) (Head.length_bytes packet.head))
    rw [hlen]
    exact size packet hpacket

/-- The payloads of the loop are the fragments of a NAL unit. -/
theorem fragmented_fragmentPacket (h : Head) (seq : UInt16) (k last : Nat) :
    Fragmented ((List.range (k + 1)).map fun i => (fragmentPacket m nal h seq k last i).payload) where
  type := by
    intro payload hpayload
    obtain ⟨i, -, rfl⟩ := List.mem_map.mp hpayload
    exact typeOf_fuInd _
  start := by
    rw [List.length_map, List.length_range, List.map_map]
    exact List.map_congr_left fun i _ => startBit_fuHdr ..
  stop := by
    rw [List.length_map, List.length_range, List.map_map]
    refine List.map_congr_left fun i _ => (stopBit_fuHdr ..).trans ?_
    rw [Bool.eq_iff_iff, beq_iff_eq, beq_iff_eq, Nat.add_right_cancel_iff]

/-- `SendNaluVideoData` hands over packets of the NAL unit. They carry it, unless it is sent as it is and its type is
that of another payload. -/
theorem sendNaluVideoData_carries (p : RtpPacker) (nal : Int) {ulBufLen : UInt32} (hlen : 1 ≤ ulBufLen)
    (ulTimeStamp : UInt32) :
    ∃ packets payloads, (p.sendNaluVideoData m nal ulBufLen ulTimeStamp).handed = p.handed ++ packets ∧
      NalPackets (m.read nal ulBufLen.toNat) p.videoRtpSeq packets payloads ∧
      (depacketize payloads = some [m.read nal ulBufLen.toNat] ↔
        IsSingle (m nal) ∨ rtpPlayloadLen < ulBufLen.toNat - 1) := by
  obtain ⟨seqNum, timeStamp, hhead⟩ := headed_fixedHeader p.pSendVideoBuf p.ulVideoPt
  have hsub : (ulBufLen - 1).toNat = ulBufLen.toNat - 1 := UInt32.toNat_sub_of_le _ _ hlen
  have hpos : 1 ≤ ulBufLen.toNat := UInt32.le_iff_toNat_le.mp hlen
  by_cases hfit : (ulBufLen - 1).toNat ≤ rtpPlayloadLen
  · -- one packet
    let packet : PsRtpEncap.Packet := ⟨⟨.ofNat p.ulVideoPt.toNat, true, p.videoRtpSeq,
      ulTimeStamp * (p.ulVideoClockFreq / 1000), htonl rtpSsrc⟩, m.read nal ulBufLen.toNat⟩
    have hcons : m.read nal ulBufLen.toNat = m nal :: m.read (nal + 1) (ulBufLen.toNat - 1) := by
      rw [← Memory.read_succ, Nat.sub_add_cancel hpos]
    refine ⟨[packet].map PsRtpEncap.Packet.bytes, [packet].map PsRtpEncap.Packet.payload, ?_,
      .of_bytes (fun _ => rfl) ?_ rfl ?_ ?_, ?_⟩
    · rw [sendNaluVideoData, if_pos hfit]
      have hstart : Headed (p.startVideo ulBufLen ulTimeStamp).pSendVideoBuf.bytes _ := hhead
      refine (sendSingle_spec m nal hstart _).trans ?_
      rw [hsub, Nat.sub_add_cancel hpos]
      rfl
    · rw [Memory.length_read]
      omega
    · simp [packet]
    · intro q hq
      rw [List.mem_singleton.mp hq, Memory.length_read]
      simp only [rtpHdrLen, rtpPlayloadLen, rtpPackBufSize] at hfit ⊢
      omega
    · show depacketize [m.read nal ulBufLen.toNat] = _ ↔ _
      rw [hcons, depacketize_single]
      exact (or_iff_left (by omega)).symm
  · obtain ⟨hk, htile, hlast⟩ := fragments_spec (not_le.mp hfit)
    generalize hf : fragments (ulBufLen - 1).toNat = chunks at hk htile hlast
    obtain ⟨k, last⟩ := chunks
    simp only at hk htile hlast
    let head : Head := ⟨.ofNat p.ulVideoPt.toNat, false, seqNum, ulTimeStamp * (p.ulVideoClockFreq / 1000),
      htonl rtpSsrc⟩
    let packets := (List.range (k + 1)).map (fragmentPacket m nal head p.videoRtpSeq k last)
    have hpackets : packets.length = k + 1 := by rw [List.length_map, List.length_range]
    have hpayloads : packets.map PsRtpEncap.Packet.payload =
        (List.range (k + 1)).map fun i => (fragmentPacket m nal head p.videoRtpSeq k last i).payload := List.map_map
    refine ⟨packets.map PsRtpEncap.Packet.bytes, packets.map PsRtpEncap.Packet.payload, ?_,
      .of_bytes ?_ (fun _ => ?_) ?_ ?_ ?_, ?_⟩
    · rw [sendNaluVideoData, if_neg hfit, hf]
      have hstart : Headed (p.startVideo ulBufLen ulTimeStamp).stampVideo.pSendVideoBuf.bytes head :=
        hhead.setTimeStamp _
      refine (naluLoop_spec m nal p.videoRtpSeq last hk hstart (UInt16.add_zero _).symm).trans ?_
      rw [Nat.sub_zero, ← List.range_eq_range', List.map_map]
      rfl
    · rw [Memory.length_read]
      omega
    · rw [hpayloads]
      exact fragmented_fragmentPacket ..
    · rw [hpackets, List.map_map]
      refine List.map_congr_left fun i _ => ?_
      show (i == k) = (i + 1 == k + 1)
      rw [Bool.eq_iff_iff, beq_iff_eq, beq_iff_eq, Nat.add_right_cancel_iff]
    · rw [hpackets, List.map_map]
      rfl
    · intro packet hpacket
      obtain ⟨i, -, rfl⟩ := List.mem_map.mp hpacket
      simp only [fragmentPacket, List.length_cons, Memory.length_read]
      simp only [rtpHdrLen, rtpPlayloadLen, rtpPackBufSize] at hlast ⊢
      split <;> omega
    · rw [hpayloads, depacketize_fragments m nal head p.videoRtpSeq hk,
        show 1 + k * rtpPlayloadLen + last = ulBufLen.toNat by omega]
      exact iff_of_true rfl (.inr (by omega))

/-- A NAL unit of 1402 bytes, which is cut, from a new packer. -/
theorem sendNaluVideoData_carries_cut : ∃ packets payloads,
    (created.sendNaluVideoData (fun _ => 0x65) 0 1402 40).handed = created.handed ++ packets ∧
      NalPackets (Memory.read (fun _ => 0x65) 0 1402) 0 packets payloads ∧
      (depacketize payloads = some [Memory.read (fun _ => 0x65) 0 1402] ↔
        IsSingle 0x65 ∨ rtpPlayloadLen < (1402 : UInt32).toNat - 1) :=
  sendNaluVideoData_carries (fun _ => 0x65) created 0 (by decide : (1 : UInt32) ≤ 1402) 40

/-- A NAL unit with the type of a fragment is sent as it is, and is read as a fragment. -/
theorem not_carries_typed_fragment : ¬ ∀ (m : Memory) (p : RtpPacker) (nal : Int) (ulBufLen ulTimeStamp : UInt32),
    1 ≤ ulBufLen → ∃ packets payloads,
      (p.sendNaluVideoData m nal ulBufLen ulTimeStamp).handed = p.handed ++ packets ∧
        NalPackets (m.read nal ulBufLen.toNat) p.videoRtpSeq packets payloads ∧
        depacketize payloads = some [m.read nal ulBufLen.toNat] := by
  intro h
  obtain ⟨_, payloads, -, hform, hread⟩ := h (fun _ => 0x1C) created 0 1 40 (UInt32.le_refl 1)
  have hone : payloads = [[0x1C]] := hform.single (by decide)
  rw [hone] at hread
  exact absurd (depacketize_single.mp hread) (by decide)

end AllCamera.RtpPacker
