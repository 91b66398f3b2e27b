import Mathlib.Tactic.Common
import Mathlib.Tactic.IntervalCases
import Mathlib.Data.UInt

/-!
# Base64

Three bytes are four characters of an alphabet of 64; a text ends in one or two pads if its last bytes are two
or one.

* `char`, `value`: a value below 64 as a character and back; `value_char`.
* `sextets`, `octets`: three bytes as four values and back; `octets_sextets`.
* `encode`; `encode_append`, `length_encode`, `take_encode`: a text by its groups of four characters.
-/

namespace AllCamera.Base64

/-- The character that fills up the last group. -/
def padChar : UInt8 := 61

/-- The character of a value below 64. -/
def char (v : UInt8) : UInt8 :=
  if v < 26 then v + 65
  else if v < 52 then v - 26 + 97
  else if v < 62 then v - 52 + 48
  else if v = 62 then 43
  else 47

/-- The value of a character of the alphabet. -/
def value (c : UInt8) : Option UInt8 :=
  if 65 ≤ c ∧ c ≤ 90 then some (c - 65)
  else if 97 ≤ c ∧ c ≤ 122 then some (c - 97 + 26)
  else if 48 ≤ c ∧ c ≤ 57 then some (c - 48 + 52)
  else if c = 43 then some 62
  else if c = 47 then some 63
  else none

theorem value_char {v : UInt8} (h : v < 64) : value (char v) = some v := by
  have hall : ∀ n : Fin 64, value (char (.ofNat n)) = some (.ofNat n) := by decide
  have hn := hall ⟨v.toNat, h⟩
  rwa [UInt8.ofNat_toNat] at hn

/-! ## Groups -/

/-- Three bytes as four values of six bits. -/
def sextets (a b c : UInt8) : List UInt8 :=
  [a >>> 2, (a &&& 3) <<< 4 ||| b >>> 4, (b &&& 15) <<< 2 ||| c >>> 6, c &&& 63]

/-- Four values of six bits as three bytes. -/
def octets : List UInt8 → List UInt8
  | [w, x, y, z] => [w <<< 2 ||| x >>> 4, x <<< 4 ||| y >>> 2, y <<< 6 ||| z]
  | _ => []

/-- The bits of the first byte are in the first two values. -/
theorem first_octet (a b : UInt8) : (a >>> 2) <<< 2 ||| ((a &&& 3) <<< 4 ||| b >>> 4) >>> 4 = a := by
  apply UInt8.eq_of_toBitVec_eq
  simp only [UInt8.toBitVec_or, UInt8.toBitVec_shiftLeft, UInt8.toBitVec_shiftRight, UInt8.toBitVec_and]
  ext i hi
  interval_cases i <;> simp [BitVec.getElem_shiftLeft, BitVec.getElem_ushiftRight]

theorem second_octet (a b c : UInt8) :
    ((a &&& 3) <<< 4 ||| b >>> 4) <<< 4 ||| ((b &&& 15) <<< 2 ||| c >>> 6) >>> 2 = b := by
  apply UInt8.eq_of_toBitVec_eq
  simp only [UInt8.toBitVec_or, UInt8.toBitVec_shiftLeft, UInt8.toBitVec_shiftRight, UInt8.toBitVec_and]
  ext i hi
  interval_cases i <;> simp [BitVec.getElem_shiftLeft, BitVec.getElem_ushiftRight]

theorem third_octet (b c : UInt8) : ((b &&& 15) <<< 2 ||| c >>> 6) <<< 6 ||| c &&& 63 = c := by
  apply UInt8.eq_of_toBitVec_eq
  simp only [UInt8.toBitVec_or, UInt8.toBitVec_shiftLeft, UInt8.toBitVec_shiftRight, UInt8.toBitVec_and]
  ext i hi
  interval_cases i <;> simp [BitVec.getElem_shiftLeft, BitVec.getElem_ushiftRight]

theorem octets_sextets (a b c : UInt8) : octets (sextets a b c) = [a, b, c] := by
  simp only [octets, sextets, first_octet, second_octet, third_octet]

theorem toNat_and_lt (a : UInt8) (n : Nat) {m : UInt8} (h : m.toNat < 2 ^ n) : (a &&& m).toNat < 2 ^ n := by
  rw [UInt8.toNat_and]
  exact Nat.and_lt_two_pow _ h

theorem lt_of_mem_sextets {a b c v : UInt8} (h : v ∈ sextets a b c) : v < 64 := by
  have ha := a.toNat_lt
  have hb := b.toNat_lt
  have hc := c.toNat_lt
  have hlow := toNat_and_lt a 2 (m := 3) (by decide)
  have hmiddle := toNat_and_lt b 4 (m := 15) (by decide)
  have hhigh := toNat_and_lt c 6 (m := 63) (by decide)
  show v.toNat < 2 ^ 6
  simp only [sextets, List.mem_cons, List.not_mem_nil, or_false] at h
  rcases h with rfl | rfl | rfl | rfl
  · rw [UInt8.toNat_shiftRight, Nat.shiftRight_eq_div_pow]
    exact Nat.div_lt_of_lt_mul ha
  · rw [UInt8.toNat_or, UInt8.toNat_shiftRight, UInt8.toNat_shiftLeft]
    apply Nat.or_lt_two_pow
    · show ((a &&& 3).toNat <<< 4) % 2 ^ 8 < 2 ^ 6
      rw [Nat.shiftLeft_eq]
      omega
    · show b.toNat >>> 4 < 2 ^ 6
      rw [Nat.shiftRight_eq_div_pow]
      omega
  · rw [UInt8.toNat_or, UInt8.toNat_shiftRight, UInt8.toNat_shiftLeft]
    apply Nat.or_lt_two_pow
    · show ((b &&& 15).toNat <<< 2) % 2 ^ 8 < 2 ^ 6
      rw [Nat.shiftLeft_eq]
      omega
    · show c.toNat >>> 6 < 2 ^ 6
      rw [Nat.shiftRight_eq_div_pow]
      omega
  · exact hhigh

/-! ## Texts -/

/-- The text of some bytes. -/
def encode : List UInt8 → List UInt8
  | a :: b :: c :: rest => (sextets a b c).map char ++ encode rest
  | [a, b] => ((sextets a b 0).take 3).map char ++ [padChar]
  | [a] => ((sextets a 0 0).take 2).map char ++ [padChar, padChar]
  | [] => []

theorem encode_append {l : List UInt8} (h : 3 ∣ l.length) (l' : List UInt8) :
    encode (l ++ l') = encode l ++ encode l' := by
  induction l using encode.induct with
  | case1 a b c rest ih =>
    have hrest : 3 ∣ rest.length := by
      simp only [List.length_cons] at h
      omega
    simp only [List.cons_append, encode, ih hrest, List.append_assoc]
  | case2 a b => simp at h
  | case3 a => simp at h
  | case4 => rfl

theorem length_encode (l : List UInt8) : (encode l).length = 4 * ((l.length + 2) / 3) := by
  induction l using encode.induct with
  | case1 a b c rest ih =>
    simp only [encode, List.length_append, List.length_map, sextets, List.length_cons, List.length_nil, ih]
    omega
  | case2 a b => simp [encode, sextets]
  | case3 a => simp [encode, sextets]
  | case4 => rfl

/-- The first groups of a text are the text of the first bytes. -/
theorem take_encode {l : List UInt8} {n : Nat} (h : 3 * n ≤ l.length) :
    (encode l).take (4 * n) = encode (l.take (3 * n)) := by
  have hlen : (l.take (3 * n)).length = 3 * n := List.length_take_of_le h
  have hdvd : 3 ∣ (l.take (3 * n)).length := ⟨n, hlen⟩
  have happend := encode_append hdvd (l.drop (3 * n))
  rw [List.take_append_drop] at happend
  rw [happend]
  apply List.take_left'
  rw [length_encode, hlen]
  omega

end AllCamera.Base64
