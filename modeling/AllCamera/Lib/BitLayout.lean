import Mathlib.Tactic.Common
import Mathlib.Data.Nat.Bits
import Mathlib.Data.UInt
import Mathlib.Data.List.Induction

/-!
# Fields of bits

A header is described by the widths of its fields; the highest bit of a field comes first, and a field may lie across
bytes.

* `msb w x`: the low `w` bits of `x`; `ofMsb`, its inverse; `msb_add`: two fields of one number that follow
  each other.
* `bitsOf`: the bits of bytes; `fieldBits`, those of fields; `packed`, the number that fields are.
* `readFields widths bits`: the fields, and the bits behind them; `readFields_fieldBits`.
-/

namespace AllCamera.BitLayout

/-- The low `w` bits of `x`, the highest first. -/
def msb : Nat → Nat → List Bool
  | 0, _ => []
  | w + 1, x => x.testBit w :: msb w x

/-- The number of which these are the bits. -/
def ofMsb (bits : List Bool) : Nat := bits.foldl (fun n b => 2 * n + b.toNat) 0

/-- The bits of bytes. -/
def bitsOf (bytes : List UInt8) : List Bool := bytes.flatMap fun b => msb 8 b.toNat

/-- Numbers with the widths of their fields, one behind the other. -/
def fieldBits (fields : List (Nat × Nat)) : List Bool := fields.flatMap fun f => msb f.1 f.2

/-- The fields of the given widths, and what is behind them. -/
def readFields : List Nat → List Bool → List Nat × List Bool
  | [], bits => ([], bits)
  | w :: ws, bits =>
    let r := readFields ws (bits.drop w)
    (ofMsb (bits.take w) :: r.1, r.2)

theorem bitsOf_nil : bitsOf [] = [] := rfl

theorem bitsOf_cons (b : UInt8) (bytes : List UInt8) : bitsOf (b :: bytes) = msb 8 b.toNat ++ bitsOf bytes := rfl

theorem bitsOf_append (bytes bytes' : List UInt8) : bitsOf (bytes ++ bytes') = bitsOf bytes ++ bitsOf bytes' :=
  List.flatMap_append

theorem fieldBits_nil : fieldBits [] = [] := rfl

theorem fieldBits_cons (w x : Nat) (fields : List (Nat × Nat)) :
    fieldBits ((w, x) :: fields) = msb w x ++ fieldBits fields := rfl

theorem length_msb (w x : Nat) : (msb w x).length = w := by
  induction w with
  | zero => rfl
  | succ w ih => exact congrArg (· + 1) ih

theorem foldl_msb (w x n : Nat) :
    (msb w x).foldl (fun n b => 2 * n + b.toNat) n = n * 2 ^ w + x % 2 ^ w := by
  induction w generalizing n with
  | zero => simp [msb, Nat.mod_one]
  | succ w ih =>
    rw [msb, List.foldl_cons, ih, Nat.toNat_testBit, Nat.mod_pow_succ, Nat.pow_succ]
    grind

theorem ofMsb_msb (w x : Nat) : ofMsb (msb w x) = x % 2 ^ w := by
  rw [ofMsb, foldl_msb, Nat.zero_mul, Nat.zero_add]

theorem msb_congr {w x y : Nat} (h : x % 2 ^ w = y % 2 ^ w) : msb w x = msb w y := by
  induction w with
  | zero => rfl
  | succ w ih =>
    have hlow : x % 2 ^ w = y % 2 ^ w := by
      rw [← Nat.mod_mod_of_dvd x (Nat.pow_dvd_pow 2 w.le_succ), h,
        Nat.mod_mod_of_dvd y (Nat.pow_dvd_pow 2 w.le_succ)]
    have hbit : x.testBit w = y.testBit w := by
      have hx := Nat.testBit_mod_two_pow x (w + 1) w
      rw [h, Nat.testBit_mod_two_pow] at hx
      simpa using hx.symm
    rw [msb, msb, ih hlow, hbit]

/-- A number in two pieces. -/
theorem msb_add (a b x : Nat) : msb (a + b) x = msb a (x / 2 ^ b) ++ msb b x := by
  induction a with
  | zero => rw [Nat.zero_add, msb, List.nil_append]
  | succ a ih => rw [Nat.add_right_comm, msb, msb, ih, Nat.testBit_div_two_pow, Nat.add_comm a b, List.cons_append]

/-- A field that lies across three bytes. -/
theorem msb_three (a b c s x : Nat) :
    msb (a + (b + c)) (x / 2 ^ s) =
      msb a (x / 2 ^ (s + (b + c))) ++ (msb b (x / 2 ^ (s + c)) ++ msb c (x / 2 ^ s)) := by
  rw [msb_add, msb_add, Nat.div_div_eq_div_mul, Nat.div_div_eq_div_mul, ← Nat.pow_add, ← Nat.pow_add]

/-- A number that is put together of two. -/
theorem msb_mul_add {a b lo : Nat} (hi : Nat) (h : lo < 2 ^ b) :
    msb (a + b) (hi * 2 ^ b + lo) = msb a hi ++ msb b lo := by
  have hdiv : (hi * 2 ^ b + lo) / 2 ^ b = hi := by
    rw [Nat.mul_comm, Nat.mul_add_div (Nat.two_pow_pos b), Nat.div_eq_of_lt h, Nat.add_zero]
  rw [msb_add, hdiv]
  refine congrArg (msb a hi ++ ·) (msb_congr ?_)
  rw [Nat.mul_comm, Nat.mul_add_mod]

/-- The number that fields are, one behind the other. -/
def packed (fields : List (Nat × Nat)) : Nat := fields.foldl (fun n f => n * 2 ^ f.1 + f.2 % 2 ^ f.1) 0

theorem msb_packed (fields : List (Nat × Nat)) :
    msb (fields.map Prod.fst).sum (packed fields) = fieldBits fields := by
  induction fields using List.reverseRecOn with
  | nil => rfl
  | append_singleton fields f ih =>
    have hpacked : packed (fields ++ [f]) = packed fields * 2 ^ f.1 + f.2 % 2 ^ f.1 := List.foldl_append
    rw [List.map_append, List.sum_append, hpacked, List.map_singleton, List.sum_singleton,
      msb_mul_add _ (Nat.mod_lt _ (Nat.two_pow_pos f.1)), ih, msb_congr (Nat.mod_mod f.2 (2 ^ f.1)), fieldBits,
      fieldBits, List.flatMap_append, List.flatMap_singleton]

/-- Fields that are read are the numbers that were put there, modulo their widths. -/
theorem readFields_fieldBits (fields : List (Nat × Nat)) (rest : List Bool) :
    readFields (fields.map Prod.fst) (fieldBits fields ++ rest) =
      (fields.map fun f => f.2 % 2 ^ f.1, rest) := by
  induction fields with
  | nil => rfl
  | cons f fields ih =>
    have hbits : fieldBits (f :: fields) ++ rest = msb f.1 f.2 ++ (fieldBits fields ++ rest) :=
      List.append_assoc ..
    have htake : (msb f.1 f.2 ++ (fieldBits fields ++ rest)).take f.1 = msb f.1 f.2 :=
      List.take_left' (length_msb f.1 f.2)
    have hdrop : (msb f.1 f.2 ++ (fieldBits fields ++ rest)).drop f.1 = fieldBits fields ++ rest :=
      List.drop_left' (length_msb f.1 f.2)
    rw [List.map_cons, readFields, hbits, htake, hdrop, ih, ofMsb_msb, List.map_cons]

end AllCamera.BitLayout
