import AllCamera.Stream.MpegPsEnc
import AllCamera.Stream.MpegPsDec
import AllCamera.Lib.Run

/-!
# What is packed is unpacked

The encoder cuts a frame into chunks and puts a PES header in front of each; the decoder takes the
payloads by their lengths. The two halves meet at the list of the chunks.

* `chunks`: how a frame is cut; `packBytes`: what the callback is given for it, in one piece.
* `writeChunks_spec`: the encoder writes that.
* `scan_chunks`: the decoder collects the payloads.
* `run_roundTrip`: of every frame of a sequence what was handed to the callback is decoded to it.
-/

namespace AllCamera

open MpegPsEnc

/-! ## Chunks -/

/-- The chunks of a frame. -/
def chunks (data : List UInt8) : List (List UInt8) :=
  if _h : maxPesData < data.length then data.take chunkSize :: chunks (data.drop chunkSize) else [data]
termination_by data.length
decreasing_by
  have : 0 < chunkSize := by decide
  rw [List.length_drop]
  omega

/-- Chunks of which each fits into a PES packet, and all but the last one are long enough for the
decoder to go on. -/
inductive Chunked : List (List UInt8) → Prop
  | last {c : List UInt8} : c ≠ [] → c.length ≤ maxPesData → Chunked [c]
  | cons {c : List UInt8} {cs : List (List UInt8)} : MpegPsDec.headLenMin ≤ c.length →
      c.length ≤ maxPesData → Chunked cs → Chunked (c :: cs)

theorem chunked_chunks (data : List UInt8) (h : data ≠ []) : Chunked (chunks data) := by
  induction data using chunks.induct with
  | case1 data hlong ih =>
    have hsize : chunkSize = 64676 := by decide
    have hmax : maxPesData = 65522 := by decide
    rw [chunks, dif_pos hlong]
    have htake : (data.take chunkSize).length = chunkSize := by
      rw [List.length_take]
      omega
    refine .cons ?_ ?_ (ih ?_)
    · rw [htake]
      decide
    · rw [htake]
      decide
    · intro hnil
      have := congrArg List.length hnil
      rw [List.length_drop, List.length_nil] at this
      omega
  | case2 data hshort =>
    rw [chunks, dif_neg hshort]
    exact .last h (Nat.le_of_not_lt hshort)

/-- The chunks are the frame. -/
theorem flatten_chunks (data : List UInt8) : (chunks data).flatten = data := by
  induction data using chunks.induct with
  | case1 data hlong ih => rw [chunks, dif_pos hlong, List.flatten_cons, ih, List.take_append_drop]
  | case2 data hshort => rw [chunks, dif_neg hshort, List.flatten_singleton]

/-- A chunk behind its PES header. -/
def pesPacket (pts : UInt64) (c : List UInt8) : List UInt8 :=
  pesHeader c.length videoStreamId pts pts ++ c

/-- A frame, or a chunk of one, behind its PES header. -/
def esPacket (e : MpegPsEnc) (enEsType : EsType) (c : List UInt8) : List UInt8 :=
  match enEsType with
  | .video => pesPacket e.ullVideoPts c
  | .audio => pesHeader c.length audioStreamId e.ullAudioPts invalidTimestamp ++ c

/-- The headers in front of the first PES packet. -/
def packHeaders (e : MpegPsEnc) : List UInt8 :=
  psHeader e.ullScr e.unMuxRate ++ sysHeader e.unMuxRate ++ psmPacket e.cVersion

/-! ## The encoder -/

namespace MpegPsEnc

variable {e : MpegPsEnc}

theorem length_packHeaders (e : MpegPsEnc) : (packHeaders e).length = 14 + 12 + 24 := rfl

theorem writePackHeaders_spec (h : e.psBuffer = []) : ∃ e', e.writePackHeaders = (0, e') ∧
    e'.psBuffer = packHeaders e ∧ e'.isFirstPES = false ∧
    (e'.ullVideoPts = e.ullVideoPts ∧ e'.ullAudioPts = e.ullAudioPts) ∧ e'.handed = e.handed := by
  have h1 : ¬ psCache ≤ ([] : List UInt8).length := by decide
  have h2 : ¬ psCache ≤ (psHeader e.ullScr e.unMuxRate).length := by
    show ¬ 1048576 ≤ 14
    decide
  have h3 : ¬ psCache ≤ (psHeader e.ullScr e.unMuxRate ++ sysHeader e.unMuxRate).length := by
    show ¬ 1048576 ≤ 26
    decide
  simp only [writePackHeaders, writePSHeader, writeSysHeader, writePsmPacket, put, h, h1, if_false,
    ne_eq, not_true_eq_false, List.nil_append, h2, h3]
  exact ⟨_, rfl, rfl, rfl, ⟨rfl, rfl⟩, rfl⟩

/-- A PES packet, behind the headers if it is the first one of the frame. -/
theorem writeESPacket_spec (h : e.psBuffer = []) {c : List UInt8} (hne : c ≠ [])
    (hlen : c.length ≤ psCache - maxPsHeaderLen) (enEsType : EsType) :
    ∃ e', e.writeESPacket c enEsType = (0, e') ∧
      e'.psBuffer = (if e.isFirstPES then packHeaders e else []) ++ esPacket e enEsType c ∧
      e'.isFirstPES = false ∧ e'.ullVideoPts = e.ullVideoPts ∧ e'.handed = e.handed := by
  have hpos := List.length_pos_iff.mpr hne
  have hcache : psCache = 1048576 := by decide
  have hheader : maxPsHeaderLen = 128 := rfl
  have hflush : ¬ psCache - ([] : List UInt8).length < c.length + maxPsHeaderLen := by
    rw [List.length_nil]
    omega
  unfold writeESPacket
  rw [if_neg (by omega), if_neg (by omega)]
  simp only [h, hflush, if_false, true_and]
  -- the buffer before the PES header
  obtain ⟨e1, he1, hbuffer, hfirst, ⟨hvideo, haudio⟩, hhanded⟩ : ∃ e1,
      (if e.isFirstPES = true then e.writePackHeaders else (0, e)) = (0, e1) ∧
        e1.psBuffer = (if e.isFirstPES then packHeaders e else []) ∧ e1.isFirstPES = false ∧
        (e1.ullVideoPts = e.ullVideoPts ∧ e1.ullAudioPts = e.ullAudioPts) ∧ e1.handed = e.handed := by
    cases hf : e.isFirstPES with
    | true => simpa using writePackHeaders_spec h
    | false => exact ⟨e, by simp, by simp [h], hf, ⟨rfl, rfl⟩, rfl⟩
  have hroom : ¬ psCache ≤ e1.psBuffer.length := by
    rw [hbuffer]
    split
    · rw [length_packHeaders]
      omega
    · rw [List.length_nil]
      omega
  rw [hbuffer] at hroom
  cases enEsType with
  | video =>
    simp only [he1, ne_eq, not_true_eq_false, if_false, writePESHeader, put, and_not_self, hroom,
      hbuffer, hvideo]
    refine ⟨_, rfl, ?_, hfirst, rfl, hhanded⟩
    simp [esPacket, pesPacket]
  | audio =>
    simp only [he1, ne_eq, not_true_eq_false, if_false, writePESHeader, put, and_false, hroom,
      hbuffer, haudio]
    refine ⟨_, rfl, ?_, hfirst, hvideo, hhanded⟩
    simp [esPacket]

/-- The bytes that the callback was given. -/
def handedBytes (e : MpegPsEnc) : List UInt8 := (e.handed.map PsFragment.pPSData).flatten

/-- The packets of a frame. -/
theorem writeChunks_spec (h : e.psBuffer = []) {data : List UInt8} (hne : data ≠ []) :
    ∃ e', writeChunks e data = (0, e') ∧ e'.psBuffer = [] ∧
      e'.handedBytes = e.handedBytes ++ ((if e.isFirstPES then packHeaders e else []) ++
        (chunks data).flatMap (pesPacket e.ullVideoPts)) := by
  induction data using chunks.induct generalizing e with
  | case1 data hlong ih =>
    have hsize : chunkSize = 64676 := by decide
    have hmax : maxPesData = 65522 := by decide
    have hroom : psCache - maxPsHeaderLen = 1048448 := by decide
    have htake : (data.take chunkSize).length = chunkSize := by
      rw [List.length_take]
      omega
    obtain ⟨e1, he1, hbuffer, hfirst, hpts, hhanded⟩ := writeESPacket_spec (c := data.take chunkSize) h
      (List.ne_nil_of_length_pos (by omega)) (by omega) .video
    have hrest : data.drop chunkSize ≠ [] := by
      intro hnil
      have := congrArg List.length hnil
      rw [List.length_drop, List.length_nil] at this
      omega
    obtain ⟨e2, he2, hbuffer2, hbytes2⟩ := ih (e := e1.handlePsStream e1.unVideoTimestamp false) rfl hrest
    refine ⟨e2, ?_, hbuffer2, ?_⟩
    · rw [writeChunks, dif_pos hlong]
      simp only [he1, ne_eq, not_true_eq_false, if_false]
      exact he2
    · have hcons : chunks data = data.take chunkSize :: chunks (data.drop chunkSize) := by
        rw [chunks, dif_pos hlong]
      rw [hbytes2, hcons, List.flatMap_cons]
      simp [handedBytes, handlePsStream, hhanded, hbuffer, hfirst, hpts, esPacket]
  | case2 data hshort =>
    obtain ⟨e1, he1, hbuffer, -, -, hhanded⟩ := writeESPacket_spec h hne
      (Nat.le_trans (Nat.le_of_not_lt hshort) (by decide)) .video
    refine ⟨e1.handlePsStream e1.unVideoTimestamp true, ?_, rfl, ?_⟩
    · rw [writeChunks, dif_neg hshort]
      simp only [he1, ne_eq, not_true_eq_false, if_false]
    · rw [chunks, dif_neg hshort]
      simp [handedBytes, handlePsStream, hhanded, hbuffer, esPacket]

end MpegPsEnc

/-! ## The decoder -/

namespace MpegPsDec

open Scan

variable {m : Memory} {n : Nat} {ts : UInt32} {s : Scan}

theorem byte_of_read {l : List UInt8} (h : m.read s.curMediaData l.length = l) {i : Nat} {b : UInt8}
    (hi : l[i]? = some b) : s.byte m i = b := by
  have hlt : i < l.length := (List.getElem?_eq_some_iff.mp hi).1
  have hread := Memory.getElem?_read m s.curMediaData l.length i hlt
  rw [h, hi] at hread
  rw [Option.some.inj hread, byte]
  congr 1

/-- The start code in front. -/
theorem getStartCode_of_read {l t : List UInt8} {b : UInt8} (hlen : psStartcodeLen ≤ s.ulCurMediaLen.toNat)
    (h : m.read s.curMediaData l.length = l) (hl : l = 0 :: 0 :: 1 :: b :: t) :
    s.getStartCode m = be32 0 0 1 b := by
  have h0 := byte_of_read h (i := 0) (b := 0) (by rw [hl]; rfl)
  have h1 := byte_of_read h (i := 1) (b := 0) (by rw [hl]; rfl)
  have h2 := byte_of_read h (i := 2) (b := 1) (by rw [hl]; rfl)
  have h3 := byte_of_read h (i := 3) (b := b) (by rw [hl]; rfl)
  unfold getStartCode
  rw [if_neg (by omega), h0, h1, h2, h3, if_neg (by decide)]

theorem toNat_skip {k : Nat} (hk : k ≤ s.ulCurMediaLen.toNat) :
    (s.skip k).ulCurMediaLen.toNat = s.ulCurMediaLen.toNat - k := by
  have hlt := s.ulCurMediaLen.toNat_lt
  have hof : (UInt32.ofNat k).toNat = k := by
    rw [UInt32.toNat_ofNat', Nat.mod_eq_of_lt (by omega)]
  have hle : UInt32.ofNat k ≤ s.ulCurMediaLen := UInt32.le_iff_toNat_le.mpr (by omega)
  simp only [skip]
  rw [UInt32.toNat_sub_of_le _ _ hle, hof]

theorem len_ne_zero {k : Nat} (hk : 0 < k) (h : k ≤ s.ulCurMediaLen.toNat) : s.ulCurMediaLen ≠ 0 := by
  intro hz
  rw [hz] at h
  have : (0 : UInt32).toNat = 0 := rfl
  omega

theorem stripPSHeader_of_read (hlen : psHeadLen ≤ s.ulCurMediaLen.toNat) {scr : UInt64} {rate : UInt32}
    (h : m.read s.curMediaData (psHeader scr rate).length = psHeader scr rate) :
    s.stripPSHeader m = some (s.skip 14) := by
  have h13 := byte_of_read h (i := 13) (b := 0xf8) rfl
  have hstuff : ((0xf8 : UInt8) &&& 0x07).toNat + psHeadLen = psHeadLen := by decide
  unfold stripPSHeader
  simp only [h13, hstuff, Nat.not_lt.mpr hlen, if_false]
  rfl

/-- A header with its length behind the start code. -/
theorem stripSysHeader_of_read {l : List UInt8} (h : m.read s.curMediaData l.length = l) {k : UInt8}
    (hl4 : l[4]? = some 0) (hl5 : l[5]? = some k) (hk : k.toNat + 6 = l.length)
    (hlen : l.length ≤ s.ulCurMediaLen.toNat) : s.stripSysHeader m = some (s.skip l.length) := by
  have h4 := byte_of_read h hl4
  have h5 := byte_of_read h hl5
  have hmin : headLenMin = 6 := rfl
  have hsize : (be16 0 k + 2 + 4).toNat = l.length := by
    have hlt := k.toNat_lt
    have h0 : (0 : UInt8).toNat = 0 := rfl
    have h2 : (2 : UInt16).toNat = 2 := rfl
    have h4 : (4 : UInt16).toNat = 4 := rfl
    rw [UInt16.toNat_add, UInt16.toNat_add, toNat_be16, h0, h2, h4]
    omega
  unfold stripSysHeader
  rw [if_neg (by omega)]
  simp only [h4, h5, hsize, Nat.not_lt.mpr hlen, if_false]

/-- A turn in front of a start code. -/
theorem scanStep_of_read {l t : List UInt8} {b : UInt8} (hx : s.exit = none) (hcur : s.curMediaData < n)
    (hlen : psStartcodeLen ≤ s.ulCurMediaLen.toNat) (h : m.read s.curMediaData l.length = l)
    (hl : l = 0 :: 0 :: 1 :: b :: t) :
    scanStep m n ts s = { s with unStartCode := be32 0 0 1 b }.dispatch m := by
  unfold scanStep
  rw [if_neg (by simp [hx]), if_pos hcur]
  unfold body
  rw [if_neg (len_ne_zero (by decide) hlen), getStartCode_of_read hlen h hl]

/-- The pack header is skipped. -/
theorem scanStep_psHeader (hx : s.exit = none) (hcur : s.curMediaData < n)
    (hlen : psHeadLen ≤ s.ulCurMediaLen.toNat) {scr : UInt64} {rate : UInt32}
    (h : m.read s.curMediaData (psHeader scr rate).length = psHeader scr rate) :
    scanStep m n ts s = { s.skip 14 with unStartCode := packStartCode } := by
  have hstrip := stripPSHeader_of_read (s := { s with unStartCode := packStartCode }) hlen h
  rw [scanStep_of_read hx hcur (Nat.le_trans (by decide) hlen) h rfl]
  change Scan.dispatch m { s with unStartCode := packStartCode } = _
  unfold dispatch
  rw [if_pos rfl, hstrip]
  rfl

/-- The system header is skipped. -/
theorem scanStep_sysHeader (hx : s.exit = none) (hcur : s.curMediaData < n)
    (hlen : 12 ≤ s.ulCurMediaLen.toNat) {rate : UInt32}
    (h : m.read s.curMediaData (sysHeader rate).length = sysHeader rate) :
    scanStep m n ts s = { s.skip 12 with unStartCode := systemHeaderStartCode } := by
  have hstrip := stripSysHeader_of_read (s := { s with unStartCode := systemHeaderStartCode }) h
    rfl rfl rfl hlen
  rw [scanStep_of_read hx hcur (Nat.le_trans (by decide) hlen) h rfl]
  change Scan.dispatch m { s with unStartCode := systemHeaderStartCode } = _
  unfold dispatch
  rw [if_neg (show ¬ systemHeaderStartCode = packStartCode by decide), if_pos rfl, hstrip]
  rfl

/-- The stream map is skipped. -/
theorem scanStep_psmPacket (hx : s.exit = none) (hcur : s.curMediaData < n)
    (hlen : 24 ≤ s.ulCurMediaLen.toNat) {v : UInt8}
    (h : m.read s.curMediaData (psmPacket v).length = psmPacket v) :
    scanStep m n ts s = { s.skip 24 with unStartCode := programStreamMap } := by
  have hstrip := stripSysHeader_of_read (s := { s with unStartCode := programStreamMap }) h
    rfl rfl rfl hlen
  rw [scanStep_of_read hx hcur (Nat.le_trans (by decide) hlen) h rfl]
  change Scan.dispatch m { s with unStartCode := programStreamMap } = _
  unfold dispatch stripPsmPacket
  rw [if_neg (show ¬ programStreamMap = packStartCode by decide),
    if_neg (show ¬ programStreamMap = systemHeaderStartCode by decide),
    if_neg (show ¬ programStreamMap = paddingStream by decide),
    if_neg (show ¬ programStreamMap = privateStream2 by decide), if_pos rfl, hstrip]
  rfl

/-! ### PES packets -/

/-- The header of a chunk, with two time stamps or none. -/
theorem pesHeader_eq (pts : UInt64) (k : Nat) :
    ∃ (flag ext : UInt8) (rest : List UInt8), ext.toNat ≤ 10 ∧ rest.length = ext.toNat ∧
      pesHeader k videoStreamId pts pts = 0 :: 0 :: 1 :: videoStreamId ::
        (be16Bytes (3 + ext.toUInt16 + .ofNat k) ++ 0x80 :: flag :: ext :: rest) := by
  by_cases hpts : invalidTimestamp = pts
  · refine ⟨0, 0, [], by decide, rfl, ?_⟩
    simp [pesHeader, hpts]
  · refine ⟨0xc0, 10, timestampBytes 3 pts ++ timestampBytes 1 pts, by decide, rfl, ?_⟩
    simp only [pesHeader, hpts, ne_eq, not_false_eq_true, decide_true, if_true]
    rfl

/-- The length that the decoder works out of the header. -/
theorem payloadLen_eq {ext : UInt8} {k : Nat} (h : 3 + ext.toNat + k ≤ 0xffff) :
    (3 + ext.toUInt16 + UInt16.ofNat k).toUInt32 - (3 + ext.toUInt32) = UInt32.ofNat k := by
  have hsum : (3 + ext.toUInt16 + UInt16.ofNat k).toNat = 3 + ext.toNat + k := by
    have h3 : (3 : UInt16).toNat = 3 := rfl
    rw [UInt16.toNat_add, UInt16.toNat_add, h3, UInt8.toNat_toUInt16, UInt16.toNat_ofNat']
    omega
  have hhead : (3 + ext.toUInt32).toNat = 3 + ext.toNat := by
    have h3 : (3 : UInt32).toNat = 3 := rfl
    rw [UInt32.toNat_add, h3, UInt8.toNat_toUInt32]
    omega
  apply UInt32.toNat_inj.mp
  rw [UInt32.toNat_sub_of_le, UInt16.toNat_toUInt32, hsum, hhead, UInt32.toNat_ofNat']
  · omega
  · rw [UInt32.le_iff_toNat_le, hhead, UInt16.toNat_toUInt32, hsum]
    omega

/-- The two stream ids that are collected. -/
theorem dispatch_pes (h : s.unStartCode = h264PesStreamCode ∨ s.unStartCode = g711PesStreamCode) :
    s.dispatch m = s.collect m := by
  have hno : ∀ {c : UInt32}, c ≠ h264PesStreamCode → c ≠ g711PesStreamCode → s.unStartCode ≠ c := by
    rintro c h1 h2 rfl
    exact h.elim h1 h2
  unfold dispatch
  rw [if_neg (hno (by decide) (by decide)), if_neg (hno (by decide) (by decide)),
    if_neg (hno (by decide) (by decide)), if_neg (hno (by decide) (by decide)),
    if_neg (hno (by decide) (by decide)), if_pos h]

/-- A PES packet with the payload `c`, whose header announces `ext` bytes of its own. -/
def pesBytes (id flag ext : UInt8) (rest c : List UInt8) : List UInt8 :=
  0 :: 0 :: 1 :: id :: (be16Bytes (3 + ext.toUInt16 + .ofNat c.length) ++ 0x80 :: flag :: ext :: (rest ++ c))

theorem length_pesBytes (id flag ext : UInt8) (rest c : List UInt8) :
    (pesBytes id flag ext rest c).length = 9 + rest.length + c.length := by
  simp only [pesBytes, be16Bytes, List.length_cons, List.length_append, List.length_nil]
  omega

theorem drop_pesBytes (id flag ext : UInt8) (rest c : List UInt8) :
    (pesBytes id flag ext rest c).drop (9 + rest.length) = c := by
  rw [Nat.add_comm]
  simp [pesBytes, be16Bytes]

/-- The payload of a PES packet is collected. -/
theorem scanStep_pes (ts : UInt32) {id flag ext : UInt8} {rest c : List UInt8} (hx : s.exit = none)
    (hcur : s.curMediaData < n) (hlen : headLenMin ≤ s.ulCurMediaLen.toNat)
    (hid : be32 0 0 1 id = h264PesStreamCode ∨ be32 0 0 1 id = g711PesStreamCode) (hne : c ≠ [])
    (hrest : rest.length = ext.toNat) (hc : 3 + ext.toNat + c.length ≤ 0xffff)
    (hroom : s.pBuffer.length + c.length ≤ maxBufferLen)
    (h : m.read s.curMediaData (pesBytes id flag ext rest c).length = pesBytes id flag ext rest c) :
    scanStep m n ts s = { s with
      curMediaData := s.curMediaData + (pesBytes id flag ext rest c).length
      ulCurMediaLen := .ofNat c.length
      unStartCode := be32 0 0 1 id
      pBuffer := s.pBuffer ++ c
      bFound := true } := by
  have hpos := List.length_pos_iff.mpr hne
  -- the bytes that the decoder reads in the header, and the payload
  have h4 := byte_of_read h (i := 4) rfl
  have h5 := byte_of_read h (i := 5) rfl
  have h8 := byte_of_read h (i := 8) (b := ext) rfl
  have hpayload : m.read ((s.curMediaData + 9 + ext.toNat : Nat) : Int) c.length = c := by
    have hdrop := congrArg (List.drop (9 + ext.toNat)) h
    rw [Memory.drop_read, length_pesBytes, ← hrest, drop_pesBytes] at hdrop
    rw [← hdrop, ← hrest]
    congr 1
    · push_cast
      omega
    · rw [hdrop]
      omega
  have hsize : (UInt32.ofNat c.length).toNat = c.length := by
    rw [UInt32.toNat_ofNat', Nat.mod_eq_of_lt (by omega)]
  rw [scanStep_of_read hx hcur (Nat.le_trans (by decide) hlen) h rfl,
    dispatch_pes (s := { s with unStartCode := be32 0 0 1 id }) hid]
  have hstrip : Scan.stripPESHeader m { s with unStartCode := be32 0 0 1 id } = some { s with
      unStartCode := be32 0 0 1 id
      curMediaData := s.curMediaData + 9 + ext.toNat
      ulCurMediaLen := .ofNat c.length } := by
    unfold stripPESHeader
    rw [if_neg (Nat.not_lt.mpr hlen)]
    simp only [byte] at h4 h5 h8 ⊢
    simp only [h4, h5, h8, be16_be16Bytes, payloadLen_eq hc]
  unfold collect
  simp only [hstrip, hsize]
  rw [if_pos (by omega), if_neg (by omega), hpayload, length_pesBytes, hrest, Nat.add_assoc,
    Nat.add_assoc, Nat.add_assoc]

/-- The packet of a chunk. -/
theorem scanStep_pesPacket (hx : s.exit = none) (hcur : s.curMediaData < n)
    (hlen : headLenMin ≤ s.ulCurMediaLen.toNat) {pts : UInt64} {c : List UInt8} (hne : c ≠ [])
    (hc : c.length ≤ maxPesData) (hroom : s.pBuffer.length + c.length ≤ maxBufferLen)
    (h : m.read s.curMediaData (pesPacket pts c).length = pesPacket pts c) :
    scanStep m n ts s = { s with
      curMediaData := s.curMediaData + (pesPacket pts c).length
      ulCurMediaLen := .ofNat c.length
      unStartCode := h264PesStreamCode
      pBuffer := s.pBuffer ++ c
      bFound := true } := by
  have hmax : maxPesData = 65522 := by decide
  obtain ⟨flag, ext, rest, hext, hrest, hheader⟩ := pesHeader_eq pts c.length
  have hpacket : pesPacket pts c = pesBytes videoStreamId flag ext rest c := by
    rw [pesPacket, hheader]
    simp [pesBytes, be16Bytes]
  rw [hpacket] at h ⊢
  exact scanStep_pes ts hx hcur hlen (.inl rfl) hne hrest (by omega) hroom h

/-- All payloads are collected. -/
theorem scan_chunks {pts : UInt64} {cs : List (List UInt8)} (hcs : Chunked cs) (hx : s.exit = none)
    (hlen : headLenMin ≤ s.ulCurMediaLen.toNat)
    (hend : s.curMediaData + (cs.flatMap (pesPacket pts)).length = n)
    (hroom : s.pBuffer.length + cs.flatten.length ≤ maxBufferLen)
    (h : m.read s.curMediaData (cs.flatMap (pesPacket pts)).length = cs.flatMap (pesPacket pts)) :
    ∃ len, (scanStep m n ts)^[cs.length] s = { s with
      curMediaData := n
      ulCurMediaLen := len
      unStartCode := h264PesStreamCode
      pBuffer := s.pBuffer ++ cs.flatten
      bFound := true } := by
  have hpes : ∀ c : List UInt8, 9 ≤ (pesPacket pts c).length := by
    intro c
    obtain ⟨flag, ext, rest, -, -, hheader⟩ := pesHeader_eq pts c.length
    rw [pesPacket, hheader]
    simp only [be16Bytes, List.length_append, List.length_cons]
    omega
  induction hcs generalizing s with
  | @last c hne hc =>
    simp only [List.flatMap_cons, List.flatMap_nil, List.append_nil, List.flatten_cons,
      List.flatten_nil] at h hend hroom ⊢
    have h9 := hpes c
    refine ⟨.ofNat c.length, ?_⟩
    rw [List.length_singleton, Function.iterate_one,
      scanStep_pesPacket hx (by omega) hlen hne hc (by omega) h, hend]
  | @cons c cs hmin hc _ ih =>
    rw [List.flatMap_cons] at h hend
    rw [List.flatten_cons, List.length_append] at hroom
    have hne : c ≠ [] := List.ne_nil_of_length_pos (Nat.lt_of_lt_of_le (by decide) hmin)
    have h9 := hpes c
    have htotal : (pesPacket pts c ++ cs.flatMap (pesPacket pts)).length =
        (pesPacket pts c).length + (cs.flatMap (pesPacket pts)).length := List.length_append
    obtain ⟨hfirst, hrest⟩ := Memory.read_append h
    have hmax : maxPesData = 65522 := by decide
    rw [List.length_cons, Function.iterate_succ_apply,
      scanStep_pesPacket hx (by omega) hlen hne hc (by omega) hfirst]
    obtain ⟨len, hscan⟩ := ih (s := { s with
        curMediaData := s.curMediaData + (pesPacket pts c).length
        ulCurMediaLen := .ofNat c.length
        unStartCode := h264PesStreamCode
        pBuffer := s.pBuffer ++ c
        bFound := true }) hx
      (by rw [UInt32.toNat_ofNat', Nat.mod_eq_of_lt (by omega)]; exact hmin)
      (by simp only; omega) (by simp only [List.length_append]; omega) (by push_cast; exact hrest)
    refine ⟨len, ?_⟩
    rw [hscan]
    simp

/-- Nothing happens after the end. -/
theorem iterate_exit (h : s.exit ≠ none) (k : Nat) : (scanStep m n ts)^[k] s = s := by
  induction k with
  | zero => rfl
  | succ k ih =>
    rw [Function.iterate_succ_apply']
    rw [ih, scanStep, if_pos h]

/-- The function ends in one way. -/
theorem WritePsStream.unique {r r' : Exit} (h : WritePsStream m n ts r) (h' : WritePsStream m n ts r') :
    r = r' := by
  obtain ⟨j, hj⟩ := h
  obtain ⟨k, hk⟩ := h'
  have hstay : ∀ i : Nat, ∀ r : Exit, ((scanStep m n ts)^[i] (Scan.start n)).exit = some r →
      ∀ l, ((scanStep m n ts)^[l + i] (Scan.start n)).exit = some r := by
    intro i r hi l
    rw [Function.iterate_add_apply, iterate_exit (by rw [hi]; simp), hi]
  have hsame := hstay j r hj k
  rw [Nat.add_comm, hstay k r' hk j] at hsame
  exact (Option.some.inj hsame).symm

theorem length_packets (pts : UInt64) {cs : List (List UInt8)} (hcs : Chunked cs) :
    9 * cs.length ≤ (cs.flatMap (pesPacket pts)).length ∧
      (cs.flatMap (pesPacket pts)).length ≤ 20 * cs.flatten.length := by
  have hpes : ∀ c : List UInt8, c ≠ [] → 9 ≤ (pesPacket pts c).length ∧
      (pesPacket pts c).length ≤ 20 * c.length := by
    intro c hne
    have hpos := List.length_pos_iff.mpr hne
    obtain ⟨flag, ext, rest, hext, hrest, hheader⟩ := pesHeader_eq pts c.length
    rw [pesPacket, hheader]
    simp only [be16Bytes, List.length_append, List.length_cons, List.length_nil, hrest]
    omega
  induction hcs with
  | @last c hne _ =>
    have := hpes c hne
    simp only [List.flatMap_cons, List.flatMap_nil, List.append_nil, List.flatten_cons,
      List.flatten_nil, List.length_singleton]
    omega
  | @cons c cs hmin _ _ ih =>
    have hne : c ≠ [] := List.ne_nil_of_length_pos (Nat.lt_of_lt_of_le (by decide) hmin)
    have := hpes c hne
    simp only [List.flatMap_cons, List.flatten_cons, List.length_append, List.length_cons]
    omega

/-- The decoder behind the three headers of a pack. -/
def behindHeaders (n : Nat) : Scan :=
  { (((Scan.start n).skip 14).skip 12).skip 24 with unStartCode := programStreamMap }

/-- The three headers are skipped, one behind the other. -/
theorem scan_packHeaders (ts : UInt32) {e : MpegPsEnc} {l : List UInt8}
    (hn : (packHeaders e ++ l).length = n)
    (hlt : n < 2 ^ 32) (h : m.read 0 (packHeaders e ++ l).length = packHeaders e ++ l) :
    (scanStep m n ts)^[3] (Scan.start n) = behindHeaders n ∧
      (behindHeaders n).ulCurMediaLen.toNat = l.length ∧
      m.read (behindHeaders n).curMediaData l.length = l := by
  have htotal : n = 50 + l.length := by
    rw [← hn, List.length_append, length_packHeaders]
  obtain ⟨hheads, hl⟩ := Memory.read_append h
  obtain ⟨hheads, hpsm⟩ := Memory.read_append hheads
  obtain ⟨hps, hsys⟩ := Memory.read_append hheads
  have h14 : psHeadLen = 14 := rfl
  have hstart : (Scan.start n).ulCurMediaLen.toNat = n := by
    show (UInt32.ofNat n).toNat = n
    rw [UInt32.toNat_ofNat', Nat.mod_eq_of_lt (by omega)]
  have hlen1 := toNat_skip (s := Scan.start n) (k := 14) (by omega)
  have hlen2 := toNat_skip (s := (Scan.start n).skip 14) (k := 12) (by omega)
  have hlen3 := toNat_skip (s := ((Scan.start n).skip 14).skip 12) (k := 24) (by omega)
  have hl2 : 12 ≤ ((Scan.start n).skip 14).ulCurMediaLen.toNat := by omega
  have hl3 : 24 ≤ (((Scan.start n).skip 14).skip 12).ulCurMediaLen.toNat := by omega
  have h1 : scanStep m n ts (Scan.start n) = _ :=
    scanStep_psHeader rfl (by simp only [Scan.start]; omega) (by omega) hps
  have h2 : scanStep m n ts { (Scan.start n).skip 14 with unStartCode := packStartCode } = _ :=
    scanStep_sysHeader rfl (by simp only [skip, Scan.start]; omega) hl2 hsys
  have h3 : scanStep m n ts { ((Scan.start n).skip 14).skip 12 with
      unStartCode := systemHeaderStartCode } = _ :=
    scanStep_psmPacket rfl (by simp only [skip, Scan.start]; omega) hl3 hpsm
  refine ⟨((congrArg (fun s => scanStep m n ts (scanStep m n ts s)) h1).trans
    (congrArg (scanStep m n ts) h2)).trans h3, ?_, hl⟩
  show ((((Scan.start n).skip 14).skip 12).skip 24).ulCurMediaLen.toNat = l.length
  omega

/-- A pack of a frame that fits into the buffer is decoded to the frame. -/
theorem WritePsStream.pack {e : MpegPsEnc} {pts : UInt64} {cs : List (List UInt8)} (hcs : Chunked cs)
    (hroom : cs.flatten.length ≤ maxBufferLen)
    (h : m.read 0 (packHeaders e ++ cs.flatMap (pesPacket pts)).length =
      packHeaders e ++ cs.flatMap (pesPacket pts)) :
    WritePsStream m (packHeaders e ++ cs.flatMap (pesPacket pts)).length ts
      (.ret 0 (some (.video cs.flatten ts))) := by
  obtain ⟨hcount, hsize⟩ := length_packets pts hcs
  have hmax : maxBufferLen = 1048576 := by decide
  have hmin : headLenMin = 6 := rfl
  have htotal : (packHeaders e ++ cs.flatMap (pesPacket pts)).length =
      50 + (cs.flatMap (pesPacket pts)).length := by
    rw [List.length_append, length_packHeaders]
  generalize hn : (packHeaders e ++ cs.flatMap (pesPacket pts)).length = n at *
  obtain ⟨hthree, hlen, hpackets⟩ := scan_packHeaders ts hn (by omega) (hn ▸ h)
  have hcpos : 0 < cs.length := by
    cases hcs <;> simp
  obtain ⟨len, hscan⟩ : ∃ len, (scanStep m n ts)^[cs.length] (behindHeaders n) = _ :=
    scan_chunks hcs rfl (by omega) (by simp only [behindHeaders, skip, Scan.start]; omega)
      (by simp only [behindHeaders, skip, Scan.start, List.length_nil]; omega) hpackets
  refine ⟨1 + (cs.length + 3), ?_⟩
  rw [Function.iterate_add_apply, Function.iterate_add_apply _ cs.length]
  rw [hthree, hscan, Function.iterate_one, scanStep, if_neg (by simp [behindHeaders, skip, Scan.start]),
    if_neg (by simp)]
  rfl

end MpegPsDec

/-! ## Sequences of frames -/

/-- A frame that is given to `writeVideoEsStream`, with the clock at that time. -/
structure VideoFrame where
  pInData : List UInt8
  unTimestamp : UInt32
  second : UInt32
  min_length : minNaluSize ≤ pInData.length
  max_length : pInData.length ≤ MpegPsDec.maxBufferLen

/-- The call for a frame; `handed` is what the callback is given in it. -/
def encodeFrame (e : MpegPsEnc) (f : VideoFrame) : Int × MpegPsEnc :=
  { e with handed := [] }.writeVideoEsStream f.pInData f.unTimestamp f.second

/-- Between two calls the cache is empty, and a frame is handed over as one pack. -/
theorem encodeFrame_spec {e : MpegPsEnc} (h : e.psBuffer = []) (f : VideoFrame) :
    (encodeFrame e f).1 = 0 ∧ (encodeFrame e f).2.psBuffer = [] ∧
      ∃ (e' : MpegPsEnc) (pts : UInt64), (encodeFrame e f).2.handedBytes =
        packHeaders e' ++ (chunks f.pInData).flatMap (pesPacket pts) := by
  have hmin := f.min_length
  have hne : f.pInData ≠ [] := by
    intro hnil
    rw [hnil] at hmin
    exact absurd hmin (by decide)
  obtain ⟨hb1, hh1⟩ := setVideoTimestamp_keeps { e with handed := [] } f.unTimestamp
  obtain ⟨hb2, hh2⟩ := calcEsBitrate_keeps (setVideoTimestamp { e with handed := [] } f.unTimestamp)
    f.pInData.length f.second
  obtain ⟨e1, he1, hbuffer, hhanded⟩ : ∃ e1,
      calcEsBitrate (setVideoTimestamp { e with handed := [] } f.unTimestamp) f.pInData.length f.second =
        e1 ∧ e1.psBuffer = [] ∧ e1.handed = [] := ⟨_, rfl, hb2.trans (hb1.trans h), hh2.trans hh1⟩
  obtain ⟨e', hwrite, hbuffer', hbytes⟩ :=
    writeChunks_spec (e := { e1 with isFirstPES := true }) hbuffer hne
  have hframe : encodeFrame e f = (0, e') := by
    unfold encodeFrame writeVideoEsStream
    rw [if_neg (Nat.not_lt.mpr hmin), he1]
    exact hwrite
  rw [hframe]
  refine ⟨rfl, hbuffer', { e1 with isFirstPES := true }, e1.ullVideoPts, ?_⟩
  rw [hbytes, handedBytes]
  simp only [hhanded, List.map_nil, List.flatten_nil, List.nil_append, if_true]

/-- **Frames.** Of every frame in a sequence, after any others, what `writeVideoEsStream` hands to its
callback is, put together, decoded by `writePsStream` to the bytes of that frame and to nothing else,
whatever lies behind it in memory. -/
theorem run_roundTrip (before : List VideoFrame) (f : VideoFrame) (m : Memory) (unTimestamp : UInt32) :
    let e := Run.run (fun e f => (encodeFrame e f).2) MpegPsEnc.init before
    (encodeFrame e f).1 = 0 ∧
      ∀ r, MpegPsDec.WritePsStream (m.write 0 (encodeFrame e f).2.handedBytes)
          (encodeFrame e f).2.handedBytes.length unTimestamp r ↔
        r = .ret 0 (some (.video f.pInData unTimestamp)) := by
  intro e
  have hempty : e.psBuffer = [] :=
    Run.run_invariant (I := fun e : MpegPsEnc => e.psBuffer = []) rfl
      fun e f h => (encodeFrame_spec h f).2.1
  obtain ⟨hret, -, e', pts, hbytes⟩ := encodeFrame_spec hempty f
  have hne : f.pInData ≠ [] := by
    intro hnil
    have := f.min_length
    rw [hnil] at this
    exact absurd this (by decide)
  refine ⟨hret, ?_⟩
  rw [hbytes]
  have hdecode : MpegPsDec.WritePsStream
      (m.write 0 (packHeaders e' ++ (chunks f.pInData).flatMap (pesPacket pts))) _ unTimestamp _ :=
    MpegPsDec.WritePsStream.pack (chunked_chunks f.pInData hne)
      (by rw [flatten_chunks]; exact f.max_length) (Memory.read_write _ _ _)
  rw [flatten_chunks] at hdecode
  exact fun r => ⟨fun h => h.unique hdecode, fun h => h ▸ hdecode⟩

end AllCamera
