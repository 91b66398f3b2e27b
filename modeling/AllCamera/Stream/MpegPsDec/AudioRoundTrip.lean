import AllCamera.Stream.MpegPsDec.RoundTrip
import AllCamera.Stream.MpegPsEnc.Timestamps

/-!
# Audio frames

An audio frame is not cut. It is one PES packet, whose length field has 16 bits.

* `writeAudioEsStream_spec`: what the callback is given for a frame that is accepted.
* `WritePsStream.audio`: a frame that fits into the length field is decoded to itself.
* `run_audio_iff`: after any calls, a frame has the right length field and is decoded to itself exactly
  if it fits.
-/

namespace AllCamera

open MpegPsEnc

/-- The frame behind the pack's headers. -/
def audioPack (e : MpegPsEnc) (pts : UInt64) (data : List UInt8) : List UInt8 :=
  packHeaders e ++ (pesHeader data.length audioStreamId pts invalidTimestamp ++ data)

/-- `PES_header_data_length`: five bytes for a time stamp. -/
def audioHeadLen (pts : UInt64) : Nat := if pts = invalidTimestamp then 0 else 5

/-- The header of an audio frame, with a time stamp or none. -/
theorem audioHeader_eq (pts : UInt64) (k : Nat) :
    ∃ (flag ext : UInt8) (rest : List UInt8), ext.toNat = audioHeadLen pts ∧ rest.length = ext.toNat ∧
      pesHeader k audioStreamId pts invalidTimestamp = 0 :: 0 :: 1 :: audioStreamId ::
        (be16Bytes (3 + ext.toUInt16 + .ofNat k) ++ 0x80 :: flag :: ext :: rest) := by
  by_cases hpts : pts = invalidTimestamp
  · refine ⟨0, 0, [], by simp [audioHeadLen, hpts], rfl, ?_⟩
    simp [pesHeader, hpts]
  · refine ⟨0x80, 5, timestampBytes 2 pts, by simp [audioHeadLen, hpts], rfl, ?_⟩
    have hne : invalidTimestamp ≠ pts := fun h => hpts h.symm
    simp only [pesHeader, hne, ne_eq, not_false_eq_true, decide_true, if_true, not_true_eq_false,
      decide_false, Bool.false_eq_true, if_false, List.append_nil]
    rfl

namespace MpegPsEnc

variable {e : MpegPsEnc}

/-- The length field of the PES packet behind the headers counts the bytes behind it. -/
def PacketLengthOk (bytes : List UInt8) : Prop :=
  let pes := bytes.drop 50
  pes.take 4 = [0, 0, 1, audioStreamId] ∧
    (be16 (pes.getD 4 0) (pes.getD 5 0)).toNat = pes.length - 6

/-- The callback is given one pack; the cache is empty again. -/
theorem writeAudioEsStream_spec (h : e.psBuffer = []) (data : List UInt8) (t second : UInt32) :
    ((e.writeAudioEsStream data t second).1 = 0 ↔
      data ≠ [] ∧ data.length ≤ psCache - maxPsHeaderLen) ∧
    (e.writeAudioEsStream data t second).2.psBuffer = [] ∧
    (data ≠ [] → data.length ≤ psCache - maxPsHeaderLen → ∃ e',
      (e.writeAudioEsStream data t second).2.handedBytes =
        e.handedBytes ++ audioPack e' (e.setAudioTimestamp t).ullAudioPts data) := by
  obtain ⟨hb1, hh1⟩ := setAudioTimestamp_keeps e t
  obtain ⟨hb2, hh2⟩ := calcEsBitrate_keeps (e.setAudioTimestamp t) data.length second
  -- the encoder in front of `writeESPacket`
  obtain ⟨e1, he1, hbuffer, hhanded, hpts, hfirst⟩ : ∃ e1 : MpegPsEnc,
      (e.writeAudioEsStream data t second = if (e1.writeESPacket data .audio).1 ≠ 0 then
        ((-1 : Int), (e1.writeESPacket data .audio).2)
      else (0, (e1.writeESPacket data .audio).2.handlePsStream
        (e1.writeESPacket data .audio).2.unAudioTimestamp true)) ∧ e1.psBuffer = [] ∧
      e1.handed = e.handed ∧ e1.ullAudioPts = (e.setAudioTimestamp t).ullAudioPts ∧
      e1.isFirstPES = true :=
    ⟨_, rfl, hb2.trans (hb1.trans h), hh2.trans hh1,
      congrArg Prod.snd (clock_calcEsBitrate (e := e.setAudioTimestamp t) (w := .audio) data.length second),
      rfl⟩
  by_cases hok : data ≠ [] ∧ data.length ≤ psCache - maxPsHeaderLen
  · obtain ⟨e2, he2, hbuffer2, -, -, hhanded2⟩ := writeESPacket_spec hbuffer hok.1 hok.2 .audio
    rw [he1, he2]
    refine ⟨iff_of_true rfl hok, rfl, fun _ _ => ⟨e1, ?_⟩⟩
    rw [if_neg (not_not.mpr rfl), handlePsStream, handedBytes, handedBytes]
    simp only [hbuffer2, hhanded2, hhanded, hfirst, if_true, esPacket, hpts, audioPack, List.map_append,
      List.map_cons, List.map_nil, List.flatten_append, List.flatten_singleton]
  · have hfail : e1.writeESPacket data .audio = (-1, e1) := by
      unfold writeESPacket
      by_cases hne : data.length = 0
      · rw [if_pos hne]
      · have hlong : psCache - maxPsHeaderLen < data.length :=
          Nat.not_le.mp fun hle => hok ⟨List.ne_nil_of_length_pos (Nat.pos_of_ne_zero hne), hle⟩
        rw [if_neg hne, if_pos hlong]
    have hret : ((-1 : Int), e1).1 ≠ 0 := show ¬((-1 : Int) = 0) by decide
    rw [he1, hfail, if_pos hret]
    exact ⟨iff_of_false hret hok, hbuffer, fun h1 h2 => absurd ⟨h1, h2⟩ hok⟩

end MpegPsEnc

namespace MpegPsDec

variable {m : Memory}

/-- A pack whose frame fits into the length field is decoded to the frame. -/
theorem WritePsStream.audio (ts : UInt32) {e : MpegPsEnc} {pts : UInt64} {data : List UInt8}
    (hne : data ≠ [])
    (hfits : 3 + audioHeadLen pts + data.length ≤ 0xffff)
    (h : m.read 0 (audioPack e pts data).length = audioPack e pts data) :
    WritePsStream m (audioPack e pts data).length ts (.ret 0 (some (.audio data ts))) := by
  have hpos := List.length_pos_iff.mpr hne
  have hmin : headLenMin = 6 := rfl
  have hmax : maxBufferLen = 1048576 := by decide
  obtain ⟨flag, ext, rest, hext, hrest, hheader⟩ := audioHeader_eq pts data.length
  have hpacket : pesHeader data.length audioStreamId pts invalidTimestamp ++ data =
      pesBytes audioStreamId flag ext rest data := by
    rw [hheader]
    simp [pesBytes, be16Bytes]
  unfold audioPack at h ⊢
  rw [hpacket] at h ⊢
  have hlength := length_pesBytes audioStreamId flag ext rest data
  have htotal : (packHeaders e ++ pesBytes audioStreamId flag ext rest data).length =
      50 + (pesBytes audioStreamId flag ext rest data).length := by
    rw [List.length_append, length_packHeaders]
  generalize hn : (packHeaders e ++ pesBytes audioStreamId flag ext rest data).length = n at *
  obtain ⟨hthree, hlen, hpes⟩ := scan_packHeaders ts hn (by omega) (hn ▸ h)
  have hcur : (behindHeaders n).curMediaData = 50 := rfl
  have hid : be32 0 0 1 audioStreamId = h264PesStreamCode ∨ be32 0 0 1 audioStreamId = g711PesStreamCode :=
    .inr (by decide)
  have hroom : (behindHeaders n).pBuffer.length + data.length ≤ maxBufferLen := by
    rw [show (behindHeaders n).pBuffer = [] from rfl, List.length_nil]
    omega
  have hscan := scanStep_pes ts (s := behindHeaders n) (n := n) rfl (by omega) (by omega)
    hid hne hrest (by omega) hroom hpes
  refine ⟨1 + (1 + 3), ?_⟩
  rw [Function.iterate_add_apply, Function.iterate_add_apply _ 1]
  rw [hthree, Function.iterate_one, hscan, scanStep, if_neg (by simp [behindHeaders, Scan.skip, Scan.start]),
    if_neg (by simp only; omega)]
  rfl

end MpegPsDec

/-! ## Sequences of frames -/

namespace MpegPsEnc

/-- The length field of a frame is right exactly if it fits. -/
theorem packetLengthOk_iff (e : MpegPsEnc) (pts : UInt64) (data : List UInt8) :
    PacketLengthOk (audioPack e pts data) ↔ 3 + audioHeadLen pts + data.length ≤ 0xffff := by
  obtain ⟨flag, ext, rest, hext, hrest, hheader⟩ := audioHeader_eq pts data.length
  have hdrop : (audioPack e pts data).drop 50 =
      pesHeader data.length audioStreamId pts invalidTimestamp ++ data := rfl
  have hlt : audioHeadLen pts ≤ 5 := by
    unfold audioHeadLen
    split <;> decide
  unfold PacketLengthOk
  rw [hdrop, hheader]
  -- the length in 16 bits
  have hlen : (3 + ext.toUInt16 + UInt16.ofNat data.length).toNat =
      (3 + audioHeadLen pts + data.length) % 2 ^ 16 := by
    rw [UInt16.toNat_add, UInt16.toNat_add, UInt8.toNat_toUInt16, UInt16.toNat_ofNat', hext]
    simp only [UInt16.reduceToNat]
    omega
  generalize 3 + ext.toUInt16 + UInt16.ofNat data.length = v at hlen
  simp only [be16Bytes, List.cons_append, List.nil_append, List.take_succ_cons, List.take_zero,
    List.getD_cons_succ, List.getD_cons_zero, be16_be16Bytes v, List.length_cons, List.length_append,
    hrest, hext, true_and]
  omega

/-- Between two calls the cache is empty. -/
theorem psBuffer_run (calls : List EsCall) :
    (Run.run (fun e c => (e.writeEsStream c).2) init calls).psBuffer = [] := by
  refine Run.run_invariant (I := fun e : MpegPsEnc => e.psBuffer = []) rfl fun e c h => ?_
  cases c with
  | video data t second =>
    unfold writeEsStream writeVideoEsStream
    simp only
    split
    · exact h
    · rename_i hlen
      obtain ⟨hb1, -⟩ := setVideoTimestamp_keeps e t
      obtain ⟨hb2, -⟩ := calcEsBitrate_keeps (e.setVideoTimestamp t) data.length second
      have hne : data ≠ [] := by
        rintro rfl
        exact hlen (by decide)
      obtain ⟨e', hwrite, hbuffer, -⟩ := writeChunks_spec
        (e := { (e.setVideoTimestamp t).calcEsBitrate data.length second with isFirstPES := true })
        (hb2.trans (hb1.trans h)) hne
      rw [hwrite]
      exact hbuffer
  | audio data t second => exact (writeAudioEsStream_spec h data t second).2.1

end MpegPsEnc

/-- **Frames.** After any calls, an audio frame that is accepted has the right length field and is
decoded to itself and to nothing else, whatever lies behind it in memory, if and only if it fits into
the length field with its header. -/
theorem run_audio_iff (before : List EsCall) (pInData : List UInt8) (unTimestamp second : UInt32)
    (m : Memory) (ts : UInt32) :
    let e := { Run.run (fun e c => (e.writeEsStream c).2) MpegPsEnc.init before with handed := [] }
    let r := e.writeAudioEsStream pInData unTimestamp second
    (r.1 = 0 → PacketLengthOk r.2.handedBytes ∧
      ∀ x, MpegPsDec.WritePsStream (m.write 0 r.2.handedBytes) r.2.handedBytes.length ts x ↔
        x = .ret 0 (some (.audio pInData ts))) ↔
    (pInData = [] ∨ psCache - maxPsHeaderLen < pInData.length ∨
      3 + audioHeadLen (e.setAudioTimestamp unTimestamp).ullAudioPts + pInData.length ≤ 0xffff) := by
  intro e r
  have hempty : e.psBuffer = [] := psBuffer_run before
  obtain ⟨hret, -, hbytes⟩ := writeAudioEsStream_spec hempty pInData unTimestamp second
  by_cases hok : pInData ≠ [] ∧ pInData.length ≤ psCache - maxPsHeaderLen
  · obtain ⟨e', hpack⟩ := hbytes hok.1 hok.2
    have hhanded : r.2.handedBytes = audioPack e' (e.setAudioTimestamp unTimestamp).ullAudioPts pInData :=
      hpack
    rw [hhanded, packetLengthOk_iff]
    refine ⟨fun h => .inr (.inr (h (hret.mpr hok)).1), fun h _ => ?_⟩
    obtain hnil | hlong | hfits := h
    · exact absurd hnil hok.1
    · exact absurd hok.2 (Nat.not_le.mpr hlong)
    · have hdecode := MpegPsDec.WritePsStream.audio ts hok.1 hfits
        (Memory.read_write m 0 (audioPack e' (e.setAudioTimestamp unTimestamp).ullAudioPts pInData))
      exact ⟨hfits, fun x => ⟨fun h => h.unique hdecode, fun h => h ▸ hdecode⟩⟩
  · refine iff_of_true (fun h => absurd (hret.mp h) hok) ?_
    by_cases hne : pInData = []
    · exact .inl hne
    · exact .inr (.inl (Nat.not_le.mp fun hle => hok ⟨hne, hle⟩))

/-- The first frame of an encoder, of 65528 bytes: its length field is 0. -/
theorem not_audio_long : (MpegPsEnc.init.writeAudioEsStream (List.replicate 65528 0) 1 1).1 = 0 ∧
    ¬PacketLengthOk (MpegPsEnc.init.writeAudioEsStream (List.replicate 65528 0) 1 1).2.handedBytes := by
  have hlen : (List.replicate 65528 (0 : UInt8)).length = 65528 := List.length_replicate
  generalize List.replicate 65528 (0 : UInt8) = data at hlen
  have hcache : psCache - maxPsHeaderLen = 1048448 := by decide
  have hne : data ≠ [] := List.ne_nil_of_length_pos (by omega)
  obtain ⟨hret, -, hbytes⟩ := writeAudioEsStream_spec (e := MpegPsEnc.init) rfl data 1 1
  obtain ⟨e', hpack⟩ := hbytes hne (by omega)
  refine ⟨hret.mpr ⟨hne, by omega⟩, ?_⟩
  have hpts : audioHeadLen (MpegPsEnc.init.setAudioTimestamp 1).ullAudioPts = 5 := by decide
  rw [hpack, show MpegPsEnc.init.handedBytes = [] from rfl, List.nil_append, packetLengthOk_iff, hpts]
  omega

end AllCamera
