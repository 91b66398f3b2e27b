import AllCamera.Lib.Memory
import Mathlib.Algebra.BigOperators.Group.List.Basic

/-!
# Structures in memory

A C structure is a place in a byte memory, and its unsigned members are fields: an offset and a size.
Structures of variable length that begin with their length lie one behind the other.

* `leBytes`, `leValue`: a number in a given number of bytes, in the byte order of the host.
* `Agree m m' p q`: two memories are the same from `p` to `q`; `Confined m m' n`: they are the same but for
  the first `n` bytes.
* `Field`, `Field.get`, `Field.set`: a member of the structure at an address.
* `Records P p ls q`: records of the lengths `ls` from `p` to `q`.
-/

namespace AllCamera

/-- The number `v` in `w` bytes, the low one first. -/
def leBytes : Nat → Nat → List UInt8
  | 0, _ => []
  | w + 1, v => UInt8.ofNat v :: leBytes w (v / 256)

/-- The number of which these are the bytes, the low one first. -/
def leValue : List UInt8 → Nat
  | [] => 0
  | b :: l => b.toNat + 256 * leValue l

@[simp] theorem length_leBytes (w v : Nat) : (leBytes w v).length = w := by
  induction w generalizing v with
  | zero => rfl
  | succ w ih => simp [leBytes, ih]

@[simp] theorem leValue_leBytes (w v : Nat) : leValue (leBytes w v) = v % 256 ^ w := by
  induction w generalizing v with
  | zero => simp [leBytes, leValue, Nat.mod_one]
  | succ w ih =>
    have hlow : (UInt8.ofNat v).toNat = v % 256 := by simp
    rw [leBytes, leValue, ih, hlow, Nat.pow_succ', Nat.mod_mul]

/-! ## Ranges of a memory -/

/-- The two memories are the same from `p` to `q`. -/
def Agree (m m' : Memory) (p q : Nat) : Prop := ∀ i : Nat, p ≤ i → i < q → m i = m' i

namespace Agree

variable {m m' m'' : Memory} {p q p' q' : Nat}

theorem refl (m : Memory) (p q : Nat) : Agree m m p q := fun _ _ _ => rfl

theorem symm (h : Agree m m' p q) : Agree m' m p q := fun i hp hq => (h i hp hq).symm

theorem trans (h : Agree m m' p q) (h' : Agree m' m'' p q) : Agree m m'' p q :=
  fun i hp hq => (h i hp hq).trans (h' i hp hq)

theorem mono (h : Agree m m' p q) (hp : p ≤ p') (hq : q' ≤ q) : Agree m m' p' q' :=
  fun i hi hi' => h i (Nat.le_trans hp hi) (Nat.lt_of_lt_of_le hi' hq)

theorem read (h : Agree m m' p q) {n : Nat} (hq : p + n ≤ q) : m.read p n = m'.read p n := by
  apply Memory.read_congr
  intro i hi hi'
  obtain ⟨k, rfl⟩ : ∃ k : Nat, i = k := ⟨i.toNat, by omega⟩
  exact h k (by omega) (by omega)

theorem write {a : Nat} {l : List UInt8} (h : q ≤ a ∨ a + l.length ≤ p) :
    Agree (m.write a l) m p q := by
  intro i hp hq
  rcases h with h | h
  · exact Memory.write_of_lt (by omega)
  · exact Memory.write_of_ge (by omega)

/-- What was read from one memory is written to another. -/
theorem of_write_read (m m' : Memory) (p n : Nat) :
    Agree (m'.write p (m.read p n)) m p (p + n) := by
  intro i hp hq
  obtain ⟨k, rfl⟩ := Nat.exists_eq_add_of_le hp
  have hk : k < (m.read p n).length := by rw [Memory.length_read]; omega
  rw [Int.natCast_add, Memory.write_at hk, List.getD_eq_getElem?_getD,
    Memory.getElem?_read _ _ _ _ (by omega), Option.getD_some]

end Agree

/-- The two memories differ in the first `n` bytes at most. -/
def Confined (m m' : Memory) (n : Nat) : Prop := ∀ i : Int, i < 0 ∨ n ≤ i → m i = m' i

namespace Confined

variable {m m' m'' : Memory} {n p : Nat} {l : List UInt8}

theorem refl (m : Memory) (n : Nat) : Confined m m n := fun _ _ => rfl

theorem trans (h : Confined m m' n) (h' : Confined m' m'' n) : Confined m m'' n :=
  fun i hi => (h i hi).trans (h' i hi)

theorem write (h : p + l.length ≤ n) : Confined (m.write p l) m n := by
  intro i hi
  rcases hi with hi | hi
  · exact Memory.write_of_lt (by omega)
  · exact Memory.write_of_ge (by omega)

end Confined

/-! ## Members of a structure -/

/-- An unsigned member of a structure: its offset in the structure, and its size. -/
structure Field where
  off : Nat
  width : Nat
  deriving DecidableEq, Repr

namespace Field

variable {f g : Field} {m m' : Memory} {p p' a b v : Nat}

/-- Where it ends. -/
def stop (f : Field) : Nat := f.off + f.width

/-- The member of the structure at `p`. -/
def get (f : Field) (m : Memory) (p : Nat) : Nat := leValue (m.read (p + f.off : Nat) f.width)

/-- It is set to `v`; what does not fit is cut off. -/
def set (f : Field) (m : Memory) (p v : Nat) : Memory :=
  m.write (p + f.off : Nat) (leBytes f.width v)

/-- The two members have no byte in common. -/
def Apart (f g : Field) : Prop := f.stop ≤ g.off ∨ g.stop ≤ f.off

instance (f g : Field) : Decidable (f.Apart g) := inferInstanceAs (Decidable (_ ∨ _))

theorem get_set (f : Field) (m : Memory) (p v : Nat) :
    f.get (f.set m p v) p = v % 256 ^ f.width := by
  have h := Memory.read_write m (p + f.off : Nat) (leBytes f.width v)
  rw [length_leBytes] at h
  rw [get, set, h, leValue_leBytes]

theorem get_set_of_lt (h : v < 256 ^ f.width) : f.get (f.set m p v) p = v := by
  rw [get_set, Nat.mod_eq_of_lt h]

theorem agree_set (h : b ≤ p + f.off ∨ p + f.stop ≤ a) : Agree (f.set m p v) m a b := by
  apply Agree.write
  rw [length_leBytes]
  unfold stop at h
  omega

theorem get_agree (h : Agree m m' a b) (ha : a ≤ p + f.off) (hb : p + f.stop ≤ b) :
    f.get m p = f.get m' p := by
  rw [get, get, (h.mono ha hb).read (by unfold stop; omega)]

theorem confined_set {n : Nat} (h : p + f.stop ≤ n) : Confined (f.set m p v) m n := by
  apply Confined.write
  rw [length_leBytes]
  unfold stop at h
  omega

/-- Another member, or one of another structure, is not changed. -/
theorem get_set_of_disjoint (h : p' + f.stop ≤ p + g.off ∨ p + g.stop ≤ p' + f.off) :
    f.get (g.set m p v) p' = f.get m p' :=
  get_agree (agree_set (a := p' + f.off) (b := p' + f.stop) (by omega)) (Nat.le_refl _)
    (Nat.le_refl _)

theorem Apart.get_set (h : f.Apart g) : f.get (g.set m p v) p = f.get m p :=
  get_set_of_disjoint (by unfold Apart at h; omega)

theorem get_write_of_disjoint {l : List UInt8} (h : p + f.stop ≤ a ∨ a + l.length ≤ p + f.off) :
    f.get (m.write a l) p = f.get m p :=
  get_agree (Agree.write (p := p + f.off) (q := p + f.stop) (by omega)) (Nat.le_refl _)
    (Nat.le_refl _)

end Field

/-! ## Records of variable length -/

variable {P Q : Nat → Nat → Prop} {p q r l : Nat} {ls : List Nat}

/-- From `p` to `q` lie records of the lengths `ls`, one behind the other; `P p l` is said of a record at
`p` of length `l`. -/
def Records (P : Nat → Nat → Prop) : Nat → List Nat → Nat → Prop
  | p, [], q => p = q
  | p, l :: ls, q => P p l ∧ Records P (p + l) ls q

namespace Records

/-- The lengths add up. -/
theorem stop_eq (h : Records P p ls q) : q = p + ls.sum := by
  induction ls generalizing p with
  | nil => simpa [Records] using h.symm
  | cons l ls ih => rw [ih h.2, List.sum_cons, Nat.add_assoc]

theorem le (h : Records P p ls q) : p ≤ q := by
  rw [h.stop_eq]
  exact Nat.le_add_right _ _

/-- One more behind them. -/
theorem snoc (h : Records P p ls q) (hl : P q l) : Records P p (ls ++ [l]) (q + l) := by
  induction ls generalizing p with
  | nil =>
    obtain rfl : p = q := h
    exact ⟨hl, rfl⟩
  | cons k ls ih => exact ⟨h.1, ih h.2⟩

theorem mono (h : Records P p ls q) (hP : ∀ r l, p ≤ r → r + l ≤ q → P r l → Q r l) :
    Records Q p ls q := by
  induction ls generalizing p with
  | nil => exact h
  | cons l ls ih =>
    have hle := h.2.le
    refine ⟨hP p l (Nat.le_refl _) hle h.1, ih h.2 fun r k hr hk => hP r k (by omega) hk⟩

/-- The last one, if there is one. -/
theorem exists_last (h : Records P p ls q) (hne : ls ≠ []) :
    ∃ ls' r l, Records P p ls' r ∧ P r l ∧ ls = ls' ++ [l] ∧ q = r + l := by
  induction ls generalizing p with
  | nil => exact absurd rfl hne
  | cons k ls ih =>
    by_cases hls : ls = []
    · subst hls
      exact ⟨[], p, k, rfl, h.1, rfl, h.2.symm⟩
    · obtain ⟨ls', r, l, hrec, hl, rfl, hq⟩ := ih h.2 hls
      exact ⟨k :: ls', r, l, ⟨h.1, hrec⟩, hl, rfl, hq⟩

end Records

end AllCamera
