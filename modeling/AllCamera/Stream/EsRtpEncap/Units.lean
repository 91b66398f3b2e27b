import AllCamera.Stream.EsRtpEncap.Pieces

/-!
# The packets of a byte stream

* `EsPackets`: the packets carry the NAL units of a stream.
* `Fits`: the streams whose NAL units are all sent as they are. The others are not carried: the fragments all start
  a NAL unit, and zeros between the NAL units are sent with them.
* `handleVideoMulNaluStream_carries_iff`: the packets carry the NAL units of a stream exactly if it fits.
-/

namespace AllCamera.EsRtpEncap

open Nal (typeOf stopBit fuA IsSingle)
open PsRtpEncap (Headed seqOf markerOf)
open Run

/-- The packets carry the NAL units, with the sequence numbers from `seq` on: the fragments of one begin with the
only start bit and end with the only end bit (`depacketize` refuses all others), none is empty, and the last one has
the marker. -/
structure EsPackets (nals : List (List UInt8)) (seq : UInt16) (packets payloads : List (List UInt8)) : Prop where
  payload : packets.map rtpPayload = payloads.map some
  units : depacketize payloads = some nals
  filled : ∀ payload ∈ payloads, typeOf (payload.headD 0) = fuA → 2 < payload.length
  marker : ∀ packet ∈ packets, ∀ payload, rtpPayload packet = some payload →
    typeOf (payload.headD 0) = fuA → stopBit (payload.getD 1 0) = true → markerOf packet = true
  seqs : packets.map seqOf = (List.range packets.length).map fun i => seq + .ofNat i

/-- The packets that are handed over for the bytes carry the NAL units, and nothing is copied from outside of the
bytes. -/
def CarriesStream (e : EsRtpEncap) (align : Nat) (m : Memory) (unDataSize unTimestamp : UInt32)
    (nals : List (List UInt8)) : Prop :=
  let e' := e.handleVideoMulNaluStream align m unDataSize unTimestamp videoStreamTypeH264
  (∃ packets payloads, e'.handed = e.handed ++ packets ∧ EsPackets nals e.usVideoRtpSeq packets payloads) ∧
    ∃ copied, e'.copied = e.copied ++ copied ∧ ∀ c ∈ copied, 0 ≤ c.1 ∧ c.1 + c.2 ≤ unDataSize.toNat

/-- All NAL units of the stream are sent as they are: the type is that of a NAL unit, the length is shorter than the
payload of a packet or exactly the size of a packet, and there are no zeros but the one of a start code of four
bytes. -/
structure Fits (units : List (Nat × List UInt8)) (t : Nat) : Prop where
  zeros : t = 0 ∧ ∀ u ∈ units.tail, u.1 ≤ 1
  length : ∀ u ∈ units, u.2.length < maxEncapRtpSize - headSize ∨ u.2.length = maxEncapRtpSize
  type : ∀ u ∈ units, IsSingle (u.2.headD 0)

/-- The lengths that are sent in one packet. -/
theorem count_le_one {n : Nat} : count n ≤ 1 ↔ n < maxEncapRtpSize - headSize ∨ n = maxEncapRtpSize := by
  unfold count
  by_cases hmod : n % maxEncapRtpSize ≠ 0
  · rw [if_pos hmod]
    simp only [maxEncapRtpSize, headSize] at *
    omega
  · rw [if_neg hmod]
    simp only [maxEncapRtpSize, headSize] at *
    omega

section Traces

variable {unTimestamp : UInt32} {bufEnd : Int} {e e' : EsRtpEncap} {pieces out : List (List UInt8)}

/-- Where a piece is sent in fragments, a receiver refuses the packets. -/
theorem receiveAll_of_fragments (h : Trace (Sends unTimestamp bufEnd) e pieces out e')
    (hlong : ∃ piece ∈ pieces, 1 < count piece.length) {payloads : List (List UInt8)}
    (hpayloads : out.map rtpPayload = payloads.map some) (r : NalReceiver) : r.receiveAll payloads = none := by
  induction h generalizing payloads r with
  | nil =>
    obtain ⟨piece, hpiece, -⟩ := hlong
    exact absurd hpiece List.not_mem_nil
  | @cons e e₁ e' piece pieces out outs hsend _ ih =>
    by_cases hcount : 1 < count piece.length
    · obtain ⟨first, second, rest, rfl, ⟨ind, fu, tail, hfirst, hind, hstart⟩, ind', fu', tail', hsecond, hind',
        hstart'⟩ := hsend.fragments hcount
      simp only [List.cons_append, List.map_cons, PsRtpEncap.rtpPayload_bytes, hfirst, hsecond] at hpayloads
      obtain ⟨payload, payloads, rfl, hp, hpayloads⟩ := List.map_eq_cons_iff.mp hpayloads.symm
      obtain ⟨payload', payloads, rfl, hp', -⟩ := List.map_eq_cons_iff.mp hpayloads
      rw [Option.some.inj hp, Option.some.inj hp']
      exact NalReceiver.receiveAll_start_start hind hstart hind' hstart' r payloads
    · obtain ⟨rfl, -⟩ := hsend.single (by omega)
      simp only [List.cons_append, List.nil_append, List.map_cons, PsRtpEncap.rtpPayload_bytes] at hpayloads
      obtain ⟨payload, payloads, rfl, -, hpayloads⟩ := List.map_eq_cons_iff.mp hpayloads.symm
      have hrest : ∃ piece ∈ pieces, 1 < count piece.length := by
        obtain ⟨q, hq, hlong⟩ := hlong
        rcases List.mem_cons.mp hq with rfl | hq
        · exact absurd hlong hcount
        · exact ⟨q, hq, hlong⟩
      rw [NalReceiver.receiveAll_cons]
      cases hreceive : r.receive payload with
      | none => rfl
      | some r₁ => exact ih hrest hpayloads.symm r₁

/-- Where all pieces are sent in one packet each. -/
theorem singles_of_trace (h : Trace (Sends unTimestamp bufEnd) e pieces out e')
    (hshort : ∀ piece ∈ pieces, count piece.length ≤ 1) : e'.handed = e.handed ++ out ∧
      out.map rtpPayload = pieces.map some ∧ (∀ packet ∈ out, markerOf packet = true) ∧
      out.map seqOf = (List.range out.length).map (fun i => e.usVideoRtpSeq + .ofNat i) ∧
      ∃ copied, e'.copied = e.copied ++ copied ∧ ∀ c ∈ copied, 0 ≤ c.1 ∧ c.1 + c.2 ≤ bufEnd := by
  induction h with
  | nil s =>
    exact ⟨(List.append_nil _).symm, rfl, fun _ h => absurd h List.not_mem_nil, rfl, [], (List.append_nil _).symm,
      fun _ h => absurd h List.not_mem_nil⟩
  | @cons e e₁ e' piece pieces out outs hsend _ ih =>
    obtain ⟨hpiece, hpieces⟩ := List.forall_mem_cons.mp hshort
    obtain ⟨hhanded, hpayload, hmarker, hseqs, copied, hcopied, hinside⟩ := ih hpieces
    obtain ⟨rfl, hseq, q, hq, hqp, hqend⟩ := hsend.single hpiece
    refine ⟨?_, ?_, ?_, ?_, (q, piece.length) :: copied, ?_, List.forall_mem_cons.mpr ⟨⟨hqp, hqend⟩, hinside⟩⟩
    · rw [hhanded, hsend.handed, List.append_assoc]
    · rw [List.singleton_append, List.map_cons, List.map_cons, hpayload, PsRtpEncap.rtpPayload_bytes]
    · rw [List.singleton_append]
      exact List.forall_mem_cons.mpr ⟨PsRtpEncap.markerOf_bytes _, hmarker⟩
    · rw [List.singleton_append, List.map_cons, hseqs, hseq, PsRtpEncap.seqOf_bytes, List.length_cons,
        PsRtpEncap.seqs_succ]
    · rw [hcopied, hq, List.append_assoc]
      rfl

end Traces

/-- The packets that are handed over, by any account of them. -/
theorem handed_of_trace {unTimestamp : UInt32} {bufEnd : Int} {e e' : EsRtpEncap} {pieces out : List (List UInt8)}
    (h : Trace (Sends unTimestamp bufEnd) e pieces out e') : e'.handed = e.handed ++ out := by
  induction h with
  | nil s => exact (List.append_nil _).symm
  | cons hsend _ ih => rw [ih, hsend.handed, List.append_assoc]

section Streams

variable {e : EsRtpEncap} {align : Nat} {m : Memory} {units : List (Nat × List UInt8)} {t : Nat}
  {unDataSize unTimestamp : UInt32}

/-- A stream whose NAL units are carried fits. -/
theorem fits_of_carries (hne : units ≠ []) (hunits : ∀ u ∈ units, IsStreamUnit u.2)
    (hread : m.read 0 unDataSize.toNat = byteStream units t)
    (h : CarriesStream e align m unDataSize unTimestamp (units.map Prod.snd)) : Fits units t := by
  obtain ⟨out, htrace⟩ := handleVideoMulNaluStream_sends m e align hne hunits hread unTimestamp
  obtain ⟨⟨packets, payloads, hpackets, hcarries⟩, -⟩ := h
  have hsame : packets = out := List.append_cancel_left (hpackets.symm.trans (handed_of_trace htrace))
  subst hsame
  have hshort : ∀ piece ∈ streamPieces units t, count piece.length ≤ 1 := by
    by_contra hlong
    push Not at hlong
    have hnone := receiveAll_of_fragments htrace hlong hcarries.payload ⟨[], none⟩
    have hread := hcarries.units
    rw [depacketize, hnone] at hread
    cases hread
  -- the payloads are the pieces, so the pieces are the NAL units
  have hpayloads : payloads = streamPieces units t :=
    (List.map_injective_iff.mpr (Option.some_injective _)
      ((singles_of_trace htrace hshort).2.1.symm.trans hcarries.payload)).symm
  have hlen : (units.map Prod.snd).length = (streamPieces units t).length := by
    rw [List.length_map, length_streamPieces]
  have hnals := hcarries.units
  rw [hpayloads, depacketize_eq_iff hlen] at hnals
  obtain ⟨hpieces, htype⟩ := hnals
  rw [← hpieces, List.forall_mem_map] at hshort htype
  exact ⟨(streamPieces_eq_iff hne t).mp hpieces.symm, fun u hu => count_le_one.mp (hshort u hu), htype⟩

/-- The NAL units of a stream that fits are carried. -/
theorem carries_of_fits (hne : units ≠ []) (hunits : ∀ u ∈ units, IsStreamUnit u.2)
    (hread : m.read 0 unDataSize.toNat = byteStream units t) (h : Fits units t) :
    CarriesStream e align m unDataSize unTimestamp (units.map Prod.snd) := by
  obtain ⟨out, htrace⟩ := handleVideoMulNaluStream_sends m e align hne hunits hread unTimestamp
  have hpieces := (streamPieces_eq_iff hne t).mpr h.zeros
  have hshort : ∀ piece ∈ streamPieces units t, count piece.length ≤ 1 := by
    rw [hpieces, List.forall_mem_map]
    exact fun u hu => count_le_one.mpr (h.length u hu)
  have hsingle : ∀ piece ∈ streamPieces units t, IsSingle (piece.headD 0) := by
    rw [hpieces, List.forall_mem_map]
    exact h.type
  have hlen : (units.map Prod.snd).length = (streamPieces units t).length := by
    rw [List.length_map, length_streamPieces]
  obtain ⟨hhanded, hpayload, hmarker, hseqs, hcopied⟩ := singles_of_trace htrace hshort
  refine ⟨⟨out, streamPieces units t, hhanded, hpayload, (depacketize_eq_iff hlen).mpr ⟨hpieces.symm, hsingle⟩, ?_,
    fun packet hpacket _ _ _ _ => hmarker packet hpacket, hseqs⟩, hcopied⟩
  -- none of the payloads is a fragment
  exact fun payload hpayload hfu => absurd (hsingle payload hpayload) (Nal.not_isSingle_fuA hfu)

end Streams

/-- The packets for a stream carry its NAL units exactly if all of them are sent as they are. -/
theorem handleVideoMulNaluStream_carries_iff (e : EsRtpEncap) (align : Nat) (m : Memory)
    {units : List (Nat × List UInt8)} {t : Nat} (hne : units ≠ []) (hunits : ∀ u ∈ units, IsStreamUnit u.2)
    {unDataSize : UInt32} (hread : m.read 0 unDataSize.toNat = byteStream units t) (unTimestamp : UInt32) :
    CarriesStream e align m unDataSize unTimestamp (units.map Prod.snd) ↔ Fits units t :=
  ⟨fits_of_carries hne hunits hread, carries_of_fits hne hunits hread⟩

private theorem isStreamUnit_ones (n : Nat) : IsStreamUnit (0x65 :: List.replicate n 0xFF) := by
  have hpos : ∀ x ∈ (0x65 :: List.replicate n 0xFF : List UInt8), x ≠ 0 :=
    List.forall_mem_cons.mpr ⟨by decide, fun x hx => by rw [List.eq_of_mem_replicate hx]; decide⟩
  exact ⟨List.cons_ne_nil _ _, fun hcode => hpos 0 (hcode.subset List.mem_cons_self) rfl, hpos _ (List.getLast_mem _)⟩

/-- Two NAL units of one byte. -/
theorem handleVideoMulNaluStream_carries_two :
    CarriesStream ⟨fun _ => 0, 0, [], []⟩ 0 (Memory.write (fun _ => 0) 0 [0, 0, 0, 1, 0x65, 0, 0, 1, 0x65]) 9 40
      ([(1, [0x65]), (0, [0x65])].map Prod.snd) ↔ Fits [(1, [0x65]), (0, [0x65])] 0 :=
  handleVideoMulNaluStream_carries_iff ⟨fun _ => 0, 0, [], []⟩ 0
    (Memory.write (fun _ => 0) 0 [0, 0, 0, 1, 0x65, 0, 0, 1, 0x65]) (List.cons_ne_nil _ _)
    (List.forall_mem_cons.mpr ⟨isStreamUnit_ones 0, List.forall_mem_singleton.mpr (isStreamUnit_ones 0)⟩)
    (show Memory.read _ 0 (9 : UInt32).toNat = byteStream _ 0 from rfl) 40

/-- A NAL unit of 1500 bytes. -/
theorem not_carries_fragments : ¬ ∀ (e : EsRtpEncap) (align : Nat) (m : Memory) (units : List (Nat × List UInt8))
    (t : Nat) (unDataSize unTimestamp : UInt32), units ≠ [] → (∀ u ∈ units, IsStreamUnit u.2) →
    m.read 0 unDataSize.toNat = byteStream units t →
    CarriesStream e align m unDataSize unTimestamp (units.map Prod.snd) := by
  intro h
  obtain ⟨nal, hnal, hlen⟩ : ∃ nal : List UInt8, IsStreamUnit nal ∧ nal.length = 1500 :=
    ⟨_, isStreamUnit_ones 1499, by rw [List.length_cons, List.length_replicate]⟩
  have hunit : ∀ u ∈ [((0, nal) : Nat × List UInt8)], IsStreamUnit u.2 := List.forall_mem_singleton.mpr hnal
  have hread := Memory.read_write (fun _ => 0) 0 (byteStream [(0, nal)] 0)
  have hsize : (byteStream [(0, nal)] 0).length = (1503 : UInt32).toNat := by
    have hstream : (byteStream [(0, nal)] 0).length = nal.length + 3 := by simp [byteStream]
    rw [hstream, hlen]
    rfl
  rw [hsize] at hread
  have hfits := fits_of_carries (List.cons_ne_nil _ _) hunit hread
    (h ⟨fun _ => 0, 0, [], []⟩ 0 _ _ 0 1503 40 (List.cons_ne_nil _ _) hunit hread)
  have hshort : nal.length < maxEncapRtpSize - headSize ∨ nal.length = maxEncapRtpSize :=
    hfits.length (0, nal) List.mem_cons_self
  rw [hlen] at hshort
  exact absurd hshort (by decide)

end AllCamera.EsRtpEncap
