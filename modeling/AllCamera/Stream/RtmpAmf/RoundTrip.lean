import AllCamera.Stream.RtmpAmf

/-!
# Writing an AMF value and loading it again

* `AMFValue.bytes`: the AMF0 bytes of a value. `amfWrite_eq`: the encoder appends them, unless there
  is an ECMA array in the value (`amfWrite_ecma`).
* `Decoder.At`: in AMF0 mode, in front of given bytes; one lemma for each loading function.
* `amfLoadFuel_bytes`: the bytes of a value that is well formed and `Lossless` load as that value.
* `amfWrite_roundTrips_iff`: the encoder fails on ECMA arrays, and everything else loads again.
-/

namespace AllCamera.RtmpAmf

/-! ## Predicates of one value -/

/-- The members of an object or an array are those of a map, and no key is empty or too long. -/
def Keyed : AMFValue → Prop
  | .object o | .ecmaArray o => o.keys.Pairwise (· < ·) ∧ ∀ k ∈ o.keys, k ≠ [] ∧ k.length ≤ 65535
  | _ => True

def NotEcma : AMFValue → Prop
  | .ecmaArray _ => False
  | _ => True

/-- AMF0 can express the value. -/
def Lossless : AMFValue → Prop
  | .string s => s.length ≤ 65535
  | .integer _ | .undefined => False
  | _ => True

instance : DecidablePred Keyed := fun v => by
  cases v <;> unfold Keyed <;> infer_instance

instance : DecidablePred NotEcma := fun v => by
  cases v <;> unfold NotEcma <;> infer_instance

instance : DecidablePred Lossless := fun v => by
  cases v <;> unfold Lossless <;> infer_instance

/-! ## The bytes of a value -/

/-- The length and the bytes of a text. -/
def textBytes (s : List UInt8) : List UInt8 := be16Bytes (.ofNat s.length) ++ s

mutual

/-- The bytes of a value in AMF0. -/
def AMFValue.bytes : AMFValue → List UInt8
  | .string s => amf0String :: textBytes s
  | .number n => amf0Number :: numberBytes n
  | .integer i => amf0Number :: numberBytes (doubleOfInt i)
  | .boolean b => [amf0Boolean, if b then 1 else 0]
  | .object o => amf0Object :: o.bytes ++ [0, 0, amf0ObjectEnd]
  | .null => [amf0Null]
  | .undefined | .ecmaArray _ => []

/-- The bytes of the members, without the end. -/
def AMFObject.bytes : AMFObject → List UInt8
  | .nil => []
  | .cons key value rest => textBytes key ++ value.bytes ++ rest.bytes

end

mutual

/-- The encoder appends the bytes of a value. -/
theorem amfWrite_eq (enc : Encoder) :
    ∀ v : AMFValue, v.Forall NotEcma → amfWrite enc v = some (enc ++ v.bytes)
  | .string s, _ => by simp [amfWrite, writeString, AMFValue.bytes, textBytes]
  | .number n, _ | .integer n, _ => by simp [amfWrite, writeNumber, AMFValue.bytes]
  | .boolean b, _ => by simp [amfWrite, writeBoolean, AMFValue.bytes]
  | .object o, h => by
    have ho := writeMembers_eq (enc ++ [amf0Object]) o h.2
    simp [amfWrite, ho, amfWriteKey, AMFValue.bytes]
    rfl
  | .null, _ => by simp [amfWrite, amfWriteNull, AMFValue.bytes]
  | .undefined, _ => by simp [amfWrite, AMFValue.bytes]
  | .ecmaArray _, h => h.1.elim

theorem writeMembers_eq (enc : Encoder) :
    ∀ o : AMFObject, o.Forall NotEcma → writeMembers enc o = some (enc ++ o.bytes)
  | .nil, _ => by simp [writeMembers, AMFObject.bytes]
  | .cons key value rest, h => by
    have hv := amfWrite_eq (amfWriteKey enc key) value h.1
    have hr := writeMembers_eq (amfWriteKey enc key ++ value.bytes) rest h.2
    simp only [writeMembers, hv, Option.bind_eq_bind, Option.bind_some, hr]
    simp [amfWriteKey, AMFObject.bytes, textBytes]

end

mutual

/-- An ECMA array stops the encoder. -/
theorem amfWrite_ecma (enc : Encoder) :
    ∀ v : AMFValue, ¬ v.Forall NotEcma → amfWrite enc v = none
  | .ecmaArray _, _ => by simp [amfWrite]
  | .object o, h => by
    have ho := writeMembers_ecma (enc ++ [amf0Object]) o fun ho => h ⟨trivial, ho⟩
    simp [amfWrite, ho]
  | .string _, h | .number _, h | .integer _, h | .boolean _, h | .null, h | .undefined, h =>
    absurd trivial h

theorem writeMembers_ecma (enc : Encoder) :
    ∀ o : AMFObject, ¬ o.Forall NotEcma → writeMembers enc o = none
  | .nil, h => absurd trivial h
  | .cons key value rest, h => by
    by_cases hv : value.Forall NotEcma
    · have hr := writeMembers_ecma (amfWriteKey enc key ++ value.bytes) rest fun hr => h ⟨hv, hr⟩
      simp [writeMembers, amfWrite_eq _ _ hv, hr]
    · simp [writeMembers, amfWrite_ecma _ _ hv]

end

/-! ## In front of given bytes -/

theorem Decoder.advance_advance (dec : Decoder) (a b : Nat) :
    (dec.advance a).advance b = dec.advance (a + b) := by
  simp [Decoder.advance, Nat.add_assoc]

theorem length_textBytes (s : List UInt8) : (textBytes s).length = 2 + s.length := by
  simp [textBytes, be16Bytes]
  omega

theorem length_numberBytes (n : UInt64) : (numberBytes n).length = 8 := rfl

/-- In AMF0 mode, with the bytes `l` from the position on. -/
structure Decoder.At (dec : Decoder) (l : List UInt8) : Prop where
  version : dec.version = 0
  inside : dec.pos ≤ dec.buf.length
  rest : dec.rest = l

namespace Decoder.At

variable {dec : Decoder} {l s : List UInt8} {b : UInt8}

theorem length (h : dec.At l) : dec.buf.length = dec.pos + l.length := by
  have := congrArg List.length h.rest
  simp only [Decoder.rest, List.length_drop] at this
  have := h.inside
  omega

theorem getElem? (h : dec.At l) (i : Nat) : dec.buf[dec.pos + i]? = l[i]? := by
  rw [← h.rest, Decoder.rest, List.getElem?_drop]

theorem advance (h : dec.At (s ++ l)) : (dec.advance s.length).At l where
  version := h.version
  inside := by
    have := h.length
    simp only [List.length_append] at this
    simp only [Decoder.advance]
    omega
  rest := by
    have := congrArg (List.drop s.length) h.rest
    rwa [Decoder.rest, List.drop_drop, List.drop_left] at this

theorem tail (h : dec.At (b :: l)) : (dec.advance 1).At l := advance (s := [b]) h

theorem peek (h : dec.At (b :: l)) : RtmpAmf.peek dec = .ok b := by
  have hb := h.getElem? 0
  simp only [Nat.add_zero, List.getElem?_cons_zero] at hb
  simp [RtmpAmf.peek, hb]

theorem getByte (h : dec.At (b :: l)) (hb : b ≠ amf0SwitchAmf3) :
    RtmpAmf.getByte dec = .ok (b, dec.advance 1) := by
  simp [RtmpAmf.getByte, h.version, h.peek, hb, bind, Except.bind, pure, Except.pure]

theorem need {n : Nat} (h : dec.At l) (hn : n ≤ l.length) : dec.need n = .ok () := by
  have := h.length
  exact if_neg (by omega)

theorem loadBe16 {v : UInt16} (h : dec.At (be16Bytes v ++ l)) : dec.loadBe16 = v := by
  have h0 := h.getElem? 0
  have h1 := h.getElem? 1
  simp only [be16Bytes, List.cons_append, List.nil_append, List.getElem?_cons_zero,
    List.getElem?_cons_succ, Nat.add_zero] at h0 h1
  simp only [Decoder.loadBe16, Decoder.byte, List.getD_eq_getElem?_getD, Nat.add_zero, h0, h1,
    Option.getD_some]
  exact be16_be16Bytes v

theorem loadBe32 {v : UInt32} (h : dec.At (s ++ be32Bytes v ++ l)) :
    dec.loadBe32 s.length = v := by
  have hi : ∀ i, dec.buf[dec.pos + (s.length + i)]? = (be32Bytes v ++ l)[i]? := by
    intro i
    rw [h.getElem?, List.append_assoc, List.getElem?_append_right (by omega)]
    congr 1
    omega
  have h0 := hi 0
  have h1 := hi 1
  have h2 := hi 2
  have h3 := hi 3
  simp only [be32Bytes, List.cons_append, List.nil_append, List.getElem?_cons_zero,
    List.getElem?_cons_succ, Nat.add_zero] at h0 h1 h2 h3
  simp only [Decoder.loadBe32, Decoder.byte, List.getD_eq_getElem?_getD, h0, h1, h2, h3,
    Option.getD_some]
  exact be32_be32Bytes v

theorem loadText {n : Nat} (h : dec.At l) (hn : n ≤ l.length) :
    RtmpAmf.loadText dec n = .ok (l.take n, dec.advance n) := by
  simp [RtmpAmf.loadText, h.need hn, h.rest, bind, Except.bind, pure, Except.pure]

/-- A length and that many bytes, behind the check for the length. -/
theorem loadTextBytes (h : dec.At (textBytes s ++ l)) :
    RtmpAmf.loadText (dec.advance 2) dec.loadBe16.toNat =
      .ok (s.take (s.length % 65536), dec.advance (2 + s.length % 65536)) := by
  have h' : dec.At (be16Bytes (.ofNat s.length) ++ (s ++ l)) := by simpa [textBytes] using h
  have hle : s.length % 65536 ≤ s.length := Nat.mod_le _ _
  have htext := h'.advance.loadText (n := s.length % 65536) (by
    simp only [List.length_append]
    omega)
  rw [h'.loadBe16]
  have hlen : (UInt16.ofNat s.length).toNat = s.length % 65536 := by simp
  rw [hlen]
  rw [List.take_append_of_le_length hle, Decoder.advance_advance] at htext
  exact htext

theorem amfLoadKey (h : dec.At (textBytes s ++ l)) (hs : s.length ≤ 65535) :
    RtmpAmf.amfLoadKey dec = .ok (s, dec.advance (textBytes s).length) := by
  have hneed : dec.need 2 = .ok () := h.need (by
    simp only [List.length_append, length_textBytes]
    omega)
  have hlen : s.length % 65536 = s.length := Nat.mod_eq_of_lt (by omega)
  have htext := h.loadTextBytes
  rw [hlen, List.take_length] at htext
  simp only [RtmpAmf.amfLoadKey, hneed, bind, Except.bind, htext, length_textBytes]

/-- A string comes back up to its length modulo 2^16. -/
theorem amfLoadString (h : dec.At (amf0String :: textBytes s ++ l)) :
    RtmpAmf.amfLoadString dec =
      .ok (s.take (s.length % 65536), dec.advance (3 + s.length % 65536)) := by
  have hbyte := h.getByte (by decide)
  have htail : (dec.advance 1).At (textBytes s ++ l) := h.tail
  have hneed : (dec.advance 1).need 2 = .ok () := htail.need (by
    simp only [List.length_append, length_textBytes]
    omega)
  have hversion : (dec.advance 1).version ≠ 3 := by simp [htail.version]
  simp only [RtmpAmf.amfLoadString, hbyte, bind, Except.bind, if_neg hversion, ne_eq,
    not_true_eq_false, if_false, hneed, htail.loadTextBytes]
  rw [Decoder.advance_advance, ← Nat.add_assoc]

theorem amfLoadNumber {n : UInt64} (h : dec.At (amf0Number :: numberBytes n ++ l)) :
    RtmpAmf.amfLoadNumber dec = .ok (n, dec.advance 9) := by
  have hbyte := h.getByte (by decide)
  have htail : (dec.advance 1).At (numberBytes n ++ l) := h.tail
  have hneed : (dec.advance 1).need 8 = .ok () :=
    htail.need (by simp [numberBytes, be32Bytes])
  have hhigh : (dec.advance 1).loadBe32 0 = .ofNat (n.toNat / 2 ^ 32) :=
    loadBe32 (s := []) (l := be32Bytes (.ofNat n.toNat) ++ l) (by
      simpa [numberBytes, List.append_assoc] using htail)
  have hlow : (dec.advance 1).loadBe32 4 = .ofNat n.toNat :=
    loadBe32 (s := be32Bytes (.ofNat (n.toNat / 2 ^ 32))) (l := l) htail
  have hn : UInt64.ofNat ((UInt32.ofNat (n.toNat / 2 ^ 32)).toNat * 2 ^ 32 +
      (UInt32.ofNat n.toNat).toNat) = n := by
    apply UInt64.toNat.inj
    have := n.toNat_lt
    simp only [UInt64.toNat_ofNat', UInt32.toNat_ofNat']
    omega
  simp only [RtmpAmf.amfLoadNumber, hbyte, bind, Except.bind, ne_eq, not_true_eq_false, if_false,
    pure, Except.pure, hneed, hhigh, hlow, hn, Decoder.advance_advance]

theorem amfLoadBoolean {c : Bool} (h : dec.At (amf0Boolean :: (if c then 1 else 0) :: l)) :
    RtmpAmf.amfLoadBoolean dec = .ok (c, dec.advance 2) := by
  have hbyte := h.getByte (by decide)
  have hbool := h.tail.getByte (by cases c <;> decide)
  simp only [RtmpAmf.amfLoadBoolean, hbyte, bind, Except.bind, ne_eq, not_true_eq_false, if_false,
    pure, Except.pure, hbool, Decoder.advance_advance]
  cases c <;> rfl

end Decoder.At

/-! ## The loop over the members -/

namespace AMFObject

def append : AMFObject → AMFObject → AMFObject
  | nil, o => o
  | cons k v rest, o => cons k v (rest.append o)

theorem append_nil : ∀ o : AMFObject, o.append nil = o
  | nil => rfl
  | cons k v rest => by simp [append, append_nil rest]

theorem append_cons (key : List UInt8) (value : AMFValue) (o' : AMFObject) :
    ∀ o : AMFObject, (o.append (cons key value nil)).append o' = o.append (cons key value o')
  | nil => rfl
  | cons k v rest => by simp [append, append_cons key value o' rest]

theorem keys_append (o' : AMFObject) :
    ∀ o : AMFObject, (o.append o').keys = o.keys ++ o'.keys
  | nil => rfl
  | cons k v rest => by simp [append, keys, keys_append o' rest]

/-- A key behind all others is put behind them. -/
theorem insert_last {key : List UInt8} (value : AMFValue) :
    ∀ {o : AMFObject}, (∀ k ∈ o.keys, k < key) → o.insert key value = o.append (cons key value nil)
  | nil, _ => rfl
  | cons k v rest, h => by
    have hk : k < key := h k List.mem_cons_self
    have hlt : ¬ key < k := fun hlt => List.lt_irrefl _ (List.lt_trans hk hlt)
    have hne : key ≠ k := fun he => List.lt_irrefl _ (he ▸ hk)
    have hrest := insert_last value fun k' hk' => h k' (List.mem_cons_of_mem _ hk')
    simp [insert, append, hlt, hne, hrest]

end AMFObject

variable {dec : Decoder} {l : List UInt8}

theorem amfLoadObject_eq (members : Decoder → Except Stop (AMFObject × Decoder)) {o : AMFObject}
    {n : Nat} (h : dec.At (amf0Object :: l))
    (hmembers : members (dec.advance 1) = .ok (o, dec.advance n))
    (hend : ∃ l', (dec.advance n).At (amf0ObjectEnd :: l')) :
    amfLoadObject members dec = .ok (o, dec.advance (n + 1)) := by
  have hbyte := h.getByte (by decide)
  obtain ⟨l', hend⟩ := hend
  have hlast := hend.getByte (by decide)
  simp only [amfLoadObject, hbyte, bind, Except.bind, ne_eq, not_true_eq_false, if_false, pure,
    Except.pure, hmembers, hlast, Decoder.advance_advance]

mutual

/-- The bytes of a value load as that value. -/
theorem amfLoadFuel_bytes : ∀ (v : AMFValue) {fuel : Nat} {dec : Decoder} {l : List UInt8},
    v.Forall Keyed → v.Forall NotEcma → v.Forall Lossless → dec.At (v.bytes ++ l) →
    (v.bytes ++ l).length < fuel → amfLoadFuel fuel dec = .ok (v, dec.advance v.bytes.length)
  | .string s, fuel + 1, dec, l, _, _, hs, hat, _ => by
    have hs : s.length ≤ 65535 := hs
    have hload := hat.amfLoadString
    rw [Nat.mod_eq_of_lt (by omega), List.take_length] at hload
    simp only [amfLoadFuel, AMFValue.bytes, hat.peek, hload, hat.version, asValue, bind,
      Except.bind]
    have hlength : (amf0String :: textBytes s).length = 3 + s.length := by
      simp only [List.length_cons, length_textBytes]
      omega
    rw [hlength]
    rfl
  | .number n, fuel + 1, dec, l, _, _, _, hat, _ => by
    have hload := hat.amfLoadNumber
    simp [amfLoadFuel, AMFValue.bytes, hat.peek, hload, hat.version, asValue, bind, Except.bind,
      pure, Except.pure, amf0Number, amf0String, length_numberBytes]
  | .boolean b, fuel + 1, dec, l, _, _, _, hat, _ => by
    have hload := hat.amfLoadBoolean
    simp [amfLoadFuel, AMFValue.bytes, hat.peek, hload, hat.version, asValue, bind, Except.bind,
      pure, Except.pure, amf0Boolean, amf0Number, amf0String]
  | .object o, fuel + 1, dec, l, hk, he, hl, hat, hf => by
    have hat' : dec.At (amf0Object :: (o.bytes ++ [0, 0] ++ (amf0ObjectEnd :: l))) := by
      simpa [AMFValue.bytes] using hat
    have hload := @loadMembers_bytes o fuel _ .nil _ hk.2 he.2 hl.2 hk.1.1 hk.1.2
      hat'.tail (by simp [AMFValue.bytes] at hf ⊢; omega)
    have hend : ((dec.advance 1).advance (o.bytes.length + 2)).At (amf0ObjectEnd :: l) := by
      simpa using hat'.tail.advance
    rw [Decoder.advance_advance] at hload hend
    have hobject := amfLoadObject_eq (fun dec => loadMembers fuel dec .nil) hat' hload ⟨l, hend⟩
    have hlength : (AMFValue.object o).bytes.length = 1 + (o.bytes.length + 2) + 1 := by
      simp [AMFValue.bytes]
      omega
    simp only [amfLoadFuel, hat'.peek, hat.version, bind, Except.bind, hobject, hlength, asValue]
    rfl
  | .null, fuel + 1, dec, l, _, _, _, hat, _ => by
    simp [amfLoadFuel, AMFValue.bytes, hat.peek, hat.version, bind, Except.bind, oneByte,
      amf0Null, amf0EcmaArray, amf0Object, amf0Boolean, amf0Number, amf0String]

/-- The bytes of members, and the empty key behind them, add them to those that are there. -/
theorem loadMembers_bytes : ∀ (o : AMFObject) {fuel : Nat} {dec : Decoder} {acc : AMFObject}
    {l : List UInt8}, o.Forall Keyed → o.Forall NotEcma → o.Forall Lossless →
    (acc.append o).keys.Pairwise (· < ·) → (∀ k ∈ o.keys, k ≠ [] ∧ k.length ≤ 65535) →
    dec.At (o.bytes ++ [0, 0] ++ l) → (o.bytes ++ [0, 0] ++ l).length < fuel →
    loadMembers fuel dec acc = .ok (acc.append o, dec.advance (o.bytes.length + 2))
  | .nil, fuel + 1, dec, acc, l, _, _, _, _, _, hat, _ => by
    have hkey := hat.amfLoadKey (s := []) (by simp)
    simp only [loadMembers, hkey, bind, Except.bind, AMFObject.append_nil]
    rfl
  | .cons key value rest, fuel + 1, dec, acc, l, hk, he, hl, hsorted, hkeys, hat, hf => by
    have hat' : dec.At (textBytes key ++ (value.bytes ++ (rest.bytes ++ [0, 0] ++ l))) := by
      simpa [AMFObject.bytes] using hat
    obtain ⟨hne, hlong⟩ := hkeys key List.mem_cons_self
    have hkey := hat'.amfLoadKey hlong
    have hlength := length_textBytes key
    have hf' : (textBytes key).length + (value.bytes.length + (rest.bytes.length + 2 + l.length)) <
        fuel + 1 := by
      simp only [AMFObject.bytes, List.length_append, List.length_cons, List.length_nil] at hf
      omega
    have hvalue := @amfLoadFuel_bytes value fuel _ _ hk.1 he.1 hl.1 hat'.advance (by
      simp only [List.length_append, List.length_cons, List.length_nil]
      omega)
    have hinsert : acc.insert key value = acc.append (.cons key value .nil) := by
      rw [AMFObject.keys_append] at hsorted
      exact AMFObject.insert_last value fun k hmem =>
        (List.pairwise_append.mp hsorted).2.2 k hmem key List.mem_cons_self
    have hrest := @loadMembers_bytes rest fuel _ (acc.append (.cons key value .nil)) _ hk.2 he.2 hl.2
      (by rwa [AMFObject.append_cons])
      (fun k hmem => hkeys k (List.mem_cons_of_mem _ hmem)) hat'.advance.advance (by
      simp only [List.length_append, List.length_cons, List.length_nil]
      omega)
    rw [AMFObject.append_cons] at hrest
    simp only [Decoder.advance_advance, Nat.add_assoc] at hvalue hrest
    simp only [loadMembers, hkey, bind, Except.bind, if_neg hne, hvalue, hinsert, hrest,
      AMFObject.bytes, List.length_append, Nat.add_assoc]

end

/-! ## The round trip -/

mutual

/-- The value with its ECMA arrays as objects. -/
def AMFValue.asObject : AMFValue → AMFValue
  | .object o | .ecmaArray o => .object o.asObject
  | v => v

def AMFObject.asObject : AMFObject → AMFObject
  | .nil => .nil
  | .cons key value rest => .cons key value.asObject rest.asObject

end

mutual

theorem AMFValue.asObject_eq : ∀ v : AMFValue, v.Forall NotEcma → v.asObject = v
  | .object o, h => by simp [AMFValue.asObject, AMFObject.asObject_eq o h.2]
  | .ecmaArray _, h => h.1.elim
  | .string _, _ | .number _, _ | .integer _, _ | .boolean _, _ | .null, _ | .undefined, _ => rfl

theorem AMFObject.asObject_eq : ∀ o : AMFObject, o.Forall NotEcma → o.asObject = o
  | .nil, _ => rfl
  | .cons key value rest, h => by
    simp [AMFObject.asObject, AMFValue.asObject_eq value h.1, AMFObject.asObject_eq rest h.2]

end

/-- What `amf_write` puts behind `enc` loads as the value, whatever follows, and the position is
then behind it. -/
def RoundTrips (v : AMFValue) : Prop :=
  ∀ enc following, ∃ buf dec', amfWrite enc v = some buf ∧
    amfLoad ⟨buf ++ following, enc.length, 0⟩ = .ok (v.asObject, dec') ∧ dec'.pos = buf.length

/-- The encoder aborts on an ECMA array; every other value comes back. -/
theorem amfWrite_roundTrips_iff (v : AMFValue) (hk : v.Forall Keyed) (hl : v.Forall Lossless) :
    RoundTrips v ↔ v.Forall NotEcma := by
  constructor
  · intro h
    by_contra hecma
    obtain ⟨buf, -, hwrite, -⟩ := h [] []
    rw [amfWrite_ecma _ _ hecma] at hwrite
    cases hwrite
  · intro h enc following
    have hat : Decoder.At ⟨enc ++ v.bytes ++ following, enc.length, 0⟩ (v.bytes ++ following) :=
      ⟨rfl, by simp only [List.length_append]; omega, by simp [Decoder.rest]⟩
    have hload := amfLoadFuel_bytes v hk h hl hat (Nat.lt_succ_self _)
    rw [← hat.rest] at hload
    rw [v.asObject_eq h]
    exact ⟨enc ++ v.bytes, _, amfWrite_eq enc v h, hload, by simp [Decoder.advance]⟩

theorem amfWrite_roundTrips_null : RoundTrips (.object (.cons [97] .null .nil)) :=
  (amfWrite_roundTrips_iff (.object (.cons [97] .null .nil)) (by simp [AMFValue.Forall,
    AMFObject.Forall, Keyed, AMFObject.keys]) (by simp [AMFValue.Forall, AMFObject.Forall,
    Lossless])).mpr (by simp [AMFValue.Forall, AMFObject.Forall, NotEcma])

/-- An array as the constructor makes it. -/
theorem amfWrite_ecma_fails :
    ¬ ∀ v : AMFValue, v.Forall Keyed → v.Forall Lossless → RoundTrips v := by
  intro h
  obtain ⟨buf, -, hwrite, -⟩ := h (.ecmaArray .nil)
    (by simp [AMFValue.Forall, AMFObject.Forall, Keyed, AMFObject.keys])
    (by simp [AMFValue.Forall, AMFObject.Forall, Lossless]) [] []
  cases hwrite

end AllCamera.RtmpAmf
