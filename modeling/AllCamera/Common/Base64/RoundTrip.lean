import AllCamera.Common.Base64

/-!
# Texts of bytes and back

* `encode_eq`: `SVSBase64::encode` is the text of `AllCamera.Base64.encode`.
* `decodeLoop_encode`: the decoder gets the bytes back from such a text, wherever line breaks are.
* `decode_encode_iff`: it does so unless the length of the text, narrowed to 32 bits, cuts it off.
-/

namespace AllCamera.SVSBase64

open Base64 (sextets octets padChar)

/-! ## The encoder -/

theorem encodeChar_eq {v : UInt8} (h : v < 64) : encodeChar v = Base64.char v := by
  have hall : ∀ n : Fin 64, encodeChar (.ofNat n) = Base64.char (.ofNat n) := by decide
  have hn := hall ⟨v.toNat, h⟩
  rwa [UInt8.ofNat_toNat] at hn

theorem map_encodeChar (b0 b1 b2 : UInt8) :
    (sextets b0 b1 b2).map encodeChar = (sextets b0 b1 b2).map Base64.char :=
  List.map_congr_left fun _ hv => encodeChar_eq (Base64.lt_of_mem_sextets hv)

theorem encodeBuf2_eq (b0 b1 b2 : UInt8) (pad : Nat) :
    encodeBuf2 b0 b1 b2 pad =
      if pad ≠ 0 then ((sextets b0 b1 b2).map Base64.char).take (4 - pad) ++ List.replicate pad padChar
      else (sextets b0 b1 b2).map Base64.char := by
  rw [← map_encodeChar]
  rfl

/-- The last pass of the loop of `encode`, if it has less than three bytes. -/
theorem encodeLoop_last {pBase : List UInt8} {iEncBit : Nat} (hpos : 0 < pBase.length) (hlt : pBase.length < 3)
    (h : iEncBit + pBase.length + 3 ≤ 2 ^ 32) :
    encodeLoop (iEncBit + pBase.length) iEncBit 0 pBase =
      encodeBuf2 (pBase.getD 0 0) (pBase.getD 1 0) (pBase.getD 2 0) (3 - pBase.length) := by
  have hlen : (if (iEncBit + 3) % 2 ^ 32 < iEncBit + pBase.length then 3
      else iEncBit + pBase.length - iEncBit) = pBase.length := by
    split <;> omega
  rw [encodeLoop, dif_pos (by omega)]
  simp only [hlen, hlt, if_true, List.take_length]
  rw [encodeLoop, dif_neg (by omega), List.append_nil]

/-- The loop of `encode` in front of the bytes `pBase`. -/
theorem encodeLoop_eq (pBase : List UInt8) (iEncBit : Nat) (h : iEncBit + pBase.length + 3 ≤ 2 ^ 32) :
    encodeLoop (iEncBit + pBase.length) iEncBit 0 pBase = Base64.encode pBase := by
  induction pBase using Base64.encode.induct generalizing iEncBit with
  | case1 a b c rest ih =>
    simp only [List.length_cons] at h ⊢
    have hlen : (if (iEncBit + 3) % 2 ^ 32 < iEncBit + (rest.length + 1 + 1 + 1) then 3
        else iEncBit + (rest.length + 1 + 1 + 1) - iEncBit) = 3 := by
      split <;> omega
    rw [encodeLoop, dif_pos (by omega)]
    simp only [hlen, Nat.lt_irrefl, if_false, encodeBuf2_eq, ne_eq, not_true_eq_false]
    rw [show iEncBit + (rest.length + 1 + 1 + 1) = iEncBit + 3 + rest.length by omega]
    show _ ++ encodeLoop _ _ 0 rest = _
    rw [ih _ (by omega)]
    rfl
  | case2 a b =>
    rw [encodeLoop_last (by simp) (by simp) h, encodeBuf2_eq]
    rfl
  | case3 a =>
    rw [encodeLoop_last (by simp) (by simp) h, encodeBuf2_eq]
    rfl
  | case4 =>
    rw [encodeLoop]
    simp [Base64.encode]

theorem encode_eq {content : List UInt8} (hne : content ≠ []) (hlen : content.length + 3 ≤ 2 ^ 32) :
    encode content = some (Base64.encode content) := by
  have hloop := encodeLoop_eq content 0 (by omega)
  rw [Nat.zero_add] at hloop
  rw [encode, if_neg hne, hloop]

/-! ## The decoder -/

theorem decodeChar_eq (c : UInt8) : decodeChar c = Base64.value c := rfl

theorem decodeBuf_map_char {vs : List UInt8} (h : ∀ v ∈ vs, v < 64) (rest : List UInt8) (pad : Int) :
    decodeBuf (vs.map Base64.char ++ rest) pad = (decodeBuf rest pad).map fun r => (vs ++ r.1, r.2) := by
  induction vs with
  | nil => simp
  | cons v vs ih =>
    obtain ⟨hv, hvs⟩ := List.forall_mem_cons.mp h
    simp only [List.map_cons, List.cons_append, decodeBuf, decodeChar_eq, Base64.value_char hv, ih hvs,
      Option.map_map]
    rfl

theorem decodeBuf_padChar (rest : List UInt8) (pad : Int) :
    decodeBuf (padChar :: rest) pad =
      some (List.replicate (rest.length + 1) (0 : UInt8), (rest.length + 1 : Int)) :=
  rfl

theorem decodeLoop_nil {d : Decoding} (h : plain d.src = []) :
    decodeLoop d = .binary (d.decBuf.read 0 d.iDecLen.toNat) := by
  have hgroups : d.groups = [] := congrArg groups h
  rcases pass_cases d with ⟨-, hpass⟩ | ⟨g, gs, hcons, -⟩
  · exact decodeLoop_inr hpass
  · cases hgroups.symm.trans hcons

/-- A pass of the loop that goes on. -/
theorem decodeLoop_group {d : Decoding} {g rest buf : List UInt8} {pad : Int} (hplain : plain d.src = g ++ rest)
    (hg : g.length = 4) (hbuf : decodeBuf g d.pad = some (buf, pad)) (hin : Inside d.pDecDstBase) :
    ∃ d' : Decoding, decodeLoop d = decodeLoop d' ∧ plain d'.src = rest ∧ d'.pad = pad ∧
      d'.decBuf = d.decBuf.write d.pDecDstBase (decoded buf) ∧ d'.pDecDstBase = d.pDecDstBase + (3 - pad) ∧
      d'.iDecLen = d.iDecLen + UInt32.ofInt (3 - pad) := by
  have hne : g ++ rest ≠ [] := by
    apply List.append_ne_nil_of_left_ne_nil
    exact List.ne_nil_of_length_pos (by omega)
  have hgroups : d.groups = g :: groups rest := by
    rw [Decoding.groups, hplain, groups_of_ne_nil hne, List.take_left' hg, List.drop_left' hg]
  rcases pass_cases d with ⟨hnil, -⟩ | ⟨g', gs', hcons, hcases⟩
  · cases hgroups.symm.trans hnil
  cases hgroups.symm.trans hcons
  have hread : Readable g := by
    have hspec := decodeBuf_spec g d.pad
    split at hspec
    · exact ⟨hg, ‹_›⟩
    · cases hspec.symm.trans hbuf
  rcases hcases with ⟨hnot, -⟩ | ⟨-, hout, -⟩ | ⟨-, -, buf', src, hbuf', hsrc, -, -, hpass⟩
  · exact absurd hread hnot
  · exact absurd hin hout
  · cases hbuf.symm.trans hbuf'
    rw [hplain, List.drop_left' hg] at hsrc
    exact ⟨_, decodeLoop_inl hpass, hsrc, rfl, rfl, rfl, rfl⟩

/-- The bytes in front of a place and some that are written there. -/
theorem read_write_prefix (m : Memory) (k : Nat) (l : List UInt8) {n : Nat} (h : n ≤ l.length) :
    (m.write k l).read 0 (k + n) = m.read 0 k ++ l.take n := by
  have hfront : (m.write k l).read 0 k = m.read 0 k := Memory.read_write_of_disjoint (.inl (by omega))
  have hback : (m.write k l).read k n = l.take n := by
    have hwrite := Memory.read_write m k l
    rw [← Memory.take_read _ _ _ _ h, hwrite]
  rw [Memory.read_add, hfront, Int.zero_add, hback]

/-- The last pass for a group with pads. -/
theorem decodeLoop_last {d : Decoding} {k n : Nat} {g l : List UInt8} (hplain : plain d.src = g)
    (hg : g.length = 4) {buf : List UInt8} (hbuf : decodeBuf g d.pad = some (buf, (3 - n : Int)))
    (hl : (decoded buf).take n = l) (hn : n ≤ 3) (hbase : d.pDecDstBase = k) (hlen : d.iDecLen.toNat = k)
    (hk : k + 3 ≤ maxDecBufLen) : decodeLoop d = .binary (d.decBuf.read 0 k ++ l) := by
  have hin : Inside d.pDecDstBase := by
    rw [hbase]
    exact ⟨Int.natCast_nonneg k, by omega⟩
  have hsrc : plain d.src = g ++ [] := by rw [hplain, List.append_nil]
  obtain ⟨d', hloop, hrest, -, hmemory, -, hlen'⟩ := decodeLoop_group hsrc hg hbuf hin
  have hmax : maxDecBufLen < 2 ^ 32 := by decide
  have hnat : d'.iDecLen.toNat = k + n := by
    rw [hlen']
    have := toNat_add_ofInt (p := k) (k := 3 - (3 - n : Int)) (congrArg _ hlen) (by omega) (by omega)
    omega
  rw [hloop, decodeLoop_nil hrest, hnat, hmemory, hbase, read_write_prefix _ _ _ hn, hl]

/-- The bytes of a text are put behind those that were read. -/
theorem decodeLoop_encode {d : Decoding} {l : List UInt8} {k : Nat} (hplain : plain d.src = Base64.encode l)
    (hpad : d.pad = 0) (hbase : d.pDecDstBase = k) (hlen : d.iDecLen.toNat = k) (hdvd : 3 ∣ k)
    (hk : k + l.length ≤ 1048575) : decodeLoop d = .binary (d.decBuf.read 0 k ++ l) := by
  have hmax : maxDecBufLen = 1048576 := by decide
  induction l using Base64.encode.induct generalizing d k with
  | case1 a b c rest ih =>
    simp only [List.length_cons] at hk
    have hbuf : decodeBuf ((sextets a b c).map Base64.char) d.pad = some (sextets a b c, 0) := by
      have hvs : ∀ v ∈ sextets a b c, v < 64 := fun _ => Base64.lt_of_mem_sextets
      have h := decodeBuf_map_char hvs [] d.pad
      rw [List.append_nil, decodeBuf, Option.map_some, List.append_nil, hpad] at h
      rwa [hpad]
    have hin : Inside d.pDecDstBase := by
      rw [hbase]
      exact ⟨Int.natCast_nonneg k, by omega⟩
    have hbytes : decoded (sextets a b c) = [a, b, c] := Base64.octets_sextets a b c
    obtain ⟨d', hloop, hrest, hpad', hmemory, hbase', hlen'⟩ := decodeLoop_group hplain rfl hbuf hin
    have hnat : d'.iDecLen.toNat = k + 3 := by
      rw [hlen']
      have := toNat_add_ofInt (p := k) (k := 3 - 0) (congrArg _ hlen) (by omega) (by omega)
      omega
    rw [hloop, ih hrest hpad' (by omega) hnat (by omega) (by omega), hmemory, hbase,
      read_write_prefix _ _ _ (by rw [hbytes]; rfl), hbytes, List.append_assoc]
    rfl
  | case2 a b =>
    simp only [List.length_cons, List.length_nil] at hk
    have hfill : (sextets a b 0).take 3 ++ [0] = sextets a b 0 := by simp [sextets]
    apply decodeLoop_last hplain rfl (n := 2) _ _ (by decide) hbase hlen (by omega)
    · exact sextets a b 0
    · rw [Base64.encode, decodeBuf_map_char fun v hv => Base64.lt_of_mem_sextets (List.mem_of_mem_take hv),
        decodeBuf_padChar, Option.map_some]
      exact congrArg (fun buf => some (buf, (1 : Int))) hfill
    · have hbytes : decoded (sextets a b 0) = [a, b, 0] := Base64.octets_sextets a b 0
      rw [hbytes]
      rfl
  | case3 a =>
    simp only [List.length_cons, List.length_nil] at hk
    have hfill : (sextets a 0 0).take 2 ++ [0, 0] = sextets a 0 0 := by simp [sextets]
    apply decodeLoop_last hplain rfl (n := 1) _ _ (by decide) hbase hlen (by omega)
    · exact sextets a 0 0
    · rw [Base64.encode, decodeBuf_map_char fun v hv => Base64.lt_of_mem_sextets (List.mem_of_mem_take hv),
        decodeBuf_padChar, Option.map_some]
      exact congrArg (fun buf => some (buf, (2 : Int))) hfill
    · have hbytes : decoded (sextets a 0 0) = [a, 0, 0] := Base64.octets_sextets a 0 0
      rw [hbytes]
      rfl
  | case4 =>
    rw [decodeLoop_nil hplain, hlen, List.append_nil]

/-- What is looked at of a text, of bytes that fit into the buffer, is decoded. -/
theorem decode_visible {content text : List UInt8} (decBuf : Memory) (htext : text ≠ [])
    (hvisible : visible text = Base64.encode content) (hlen : content.length ≤ 1048575) :
    decode decBuf text = .binary content := by
  rw [decode, if_neg htext]
  exact decodeLoop_encode (d := start decBuf text) (k := 0) hvisible rfl rfl rfl (Nat.dvd_zero 3) (by omega)

/-- **The bytes come back** exactly if the line breaks do not move characters behind the narrowed length. -/
theorem decode_encode_iff (decBuf : Memory) {content text : List UInt8} (hne : content ≠ [])
    (hlen : content.length ≤ 1048575) (htext : encode content = some (plain text)) :
    decode decBuf text = .binary content ↔ visible text = plain text := by
  have hplain : plain text = Base64.encode content := by
    rw [encode_eq hne (by omega)] at htext
    exact (Option.some.inj htext).symm
  have htotal := Base64.length_encode content
  have hpos := List.length_pos_of_ne_nil hne
  have htextne : text ≠ [] := by
    rintro rfl
    have hnil : (0 : Nat) = (Base64.encode content).length := congrArg List.length hplain
    omega
  constructor
  · intro h
    have hprefix := visible_prefix text
    apply hprefix.eq_of_length_le
    by_contra hlt
    rw [hplain] at hprefix hlt
    -- only whole groups are taken, and they are the first bytes
    have hread : ∀ g ∈ groups (visible text), Readable g := by
      rw [decode, if_neg htextne] at h
      exact readable_of_binary h
    obtain ⟨n, hn⟩ := dvd_length_of_readable hread
    have htake : visible text = Base64.encode (content.take (3 * n)) := by
      rw [List.prefix_iff_eq_take.mp hprefix, hn]
      exact Base64.take_encode (by omega)
    have hshort : (content.take (3 * n)).length = 3 * n := List.length_take_of_le (by omega)
    have hfirst := decode_visible decBuf htextne htake (by omega)
    have heq : content.take (3 * n) = content := by
      have heq := hfirst.symm.trans h
      rwa [Decoded.binary.injEq] at heq
    rw [heq] at hshort
    omega
  · intro h
    exact decode_visible decBuf htextne (h.trans hplain) hlen

/-- `AQI=` with a line break in it and one behind it. -/
def brokenText : List UInt8 := [65, 81, 10, 73, 61, 13, 10]

theorem decode_encode_iff_broken : decode (fun _ => 0) brokenText = .binary [1, 2] := by
  have htext : encode [1, 2] = some (plain brokenText) := by
    rw [encode_eq (by decide) (by decide)]
    decide
  exact (decode_encode_iff _ (by decide) (by decide) htext).mpr (by decide)

/-- `AA==` behind as many line breaks as 32 bits can count, and one more. -/
def longText : List UInt8 := List.replicate (2 ^ 32) 10 ++ [65, 65, 61, 61]

theorem plain_lineBreaks (n : Nat) (text : List UInt8) : plain (List.replicate n 10 ++ text) = plain text := by
  induction n with
  | zero => rfl
  | succ n ih =>
    rw [List.replicate_succ]
    exact ih

theorem take_lineBreaks {n k : Nat} (h : k ≤ n) (text : List UInt8) :
    (List.replicate n 10 ++ text).take k = List.replicate k 10 := by
  rw [List.take_append_of_le_length (by rwa [List.length_replicate]), List.take_replicate, Nat.min_eq_left h]

/-- Of the long text only four line breaks are looked at. -/
theorem not_decoded_long :
    encode [0] = some (plain longText) ∧ decode (fun _ => 0) longText ≠ .binary [0] := by
  have hlength : longText.length % 2 ^ 32 = 4 := by
    rw [longText, List.length_append, List.length_replicate]
    decide
  have hvisible : visible longText = [] := by
    rw [visible, hlength, longText, take_lineBreaks (by decide)]
    decide
  have hplain : plain longText = [65, 65, 61, 61] := by
    rw [longText, plain_lineBreaks]
    decide
  constructor
  · rw [encode_eq (by decide) (by decide), hplain]
    decide
  · unfold decode
    split
    · exact nofun
    · rw [decodeLoop_nil ((plain_start _ _).trans hvisible)]
      exact nofun

end AllCamera.SVSBase64
