import Mathlib.Data.List.Nodup
import Mathlib.Logic.Function.Basic
import Mathlib.Tactic.Common
import Mathlib.Data.UInt

/-!
# Reference counts

Objects with a count of their references in an `int32_t`.

* `Counts x n`: the machine integer `x` is the number `n`. It stays so while the number is below
  `2 ^ 31` (`Counts.succ`, `Counts.pred`).
* `Balanced`: every object counts the references that are held to it, and there is one; to an address
  without an object there is none. An object that comes or changes and one that goes keep it
  (`Balanced.update`, `Balanced.delete`).
* `countP_update`: the number of the positions with a property, when the value at one of them changes.
-/

namespace AllCamera

/-- The machine integer is the number. -/
def Counts (x : Int32) (n : Nat) : Prop := x.toInt = n

variable {x : Int32} {n : Nat}

theorem counts_one : Counts 1 1 := rfl

theorem Counts.lt (h : Counts x n) : n < 2 ^ 31 := by
  have hlt := x.toInt_lt
  rw [h] at hlt
  exact_mod_cast hlt

theorem Counts.succ (h : Counts x n) (hn : n + 1 < 2 ^ 31) : Counts (x + 1) (n + 1) := by
  rw [Counts] at h ⊢
  rw [Int32.toInt_add, h, Int32.toInt_one, Int.bmod_eq_of_le (by omega) (by omega)]
  rfl

theorem Counts.pred (h : Counts x (n + 1)) : Counts (x - 1) n := by
  have hlt := h.lt
  rw [Counts] at h ⊢
  rw [Int32.toInt_sub, h, Int32.toInt_one, Int.bmod_eq_of_le (by omega) (by omega)]
  omega

theorem Counts.pos_iff (h : Counts x n) : 0 < x ↔ 0 < n := by
  rw [Int32.lt_iff_toInt_lt, h, Int32.toInt_zero]
  omega

theorem Counts.nonpos_iff (h : Counts x n) : x ≤ 0 ↔ n = 0 := by
  rw [Int32.le_iff_toInt_le, h, Int32.toInt_zero]
  omega

/-! ## Objects -/

variable {ω : Type} {cnt : ω → Int32} {obj : Nat → Option ω} {held : Nat → Nat} {p : Nat} {o : ω}

/-- The objects count the references held to them, and are there while there is one. -/
structure Balanced (cnt : ω → Int32) (obj : Nat → Option ω) (held : Nat → Nat) : Prop where
  counted : ∀ p o, obj p = some o → Counts (cnt o) (held p) ∧ 0 < held p
  gone : ∀ p, obj p = none → held p = 0

/-- An object is there exactly while a reference to it is held. -/
theorem Balanced.eq_none_iff (h : Balanced cnt obj held) : obj p = none ↔ held p = 0 := by
  refine ⟨h.gone p, fun hheld => ?_⟩
  cases hp : obj p with
  | none => rfl
  | some o =>
    have := (h.counted p o hp).2
    omega

theorem Balanced.exists (h : Balanced cnt obj held) (hp : 0 < held p) : ∃ o, obj p = some o := by
  apply Option.ne_none_iff_exists'.mp
  intro hnone
  have := h.gone p hnone
  omega

theorem Balanced.update (h : Balanced cnt obj held) (hcount : Counts (cnt o) n) (hn : 0 < n) :
    Balanced cnt (Function.update obj p (some o)) (Function.update held p n) := by
  constructor
  · intro q o' hq
    by_cases hqp : q = p
    · subst hqp
      obtain rfl : o = o' := by simpa using hq
      rw [Function.update_self]
      exact ⟨hcount, hn⟩
    · rw [Function.update_of_ne hqp] at hq ⊢
      exact h.counted q o' hq
  · intro q hq
    by_cases hqp : q = p
    · subst hqp
      simp at hq
    · rw [Function.update_of_ne hqp] at hq ⊢
      exact h.gone q hq

theorem Balanced.delete (h : Balanced cnt obj held) :
    Balanced cnt (Function.update obj p none) (Function.update held p 0) := by
  constructor
  · intro q o' hq
    by_cases hqp : q = p
    · subst hqp
      simp at hq
    · rw [Function.update_of_ne hqp] at hq ⊢
      exact h.counted q o' hq
  · intro q hq
    by_cases hqp : q = p
    · subst hqp
      rw [Function.update_self]
    · rw [Function.update_of_ne hqp] at hq ⊢
      exact h.gone q hq

/-- The references of a list to its addresses, taken one after another. -/
theorem held_cons (held : Nat → Nat) (p : Nat) (ps : List Nat) :
    (fun q => Function.update held p (held p + 1) q + ps.count q) =
      fun q => held q + (p :: ps).count q := by
  funext q
  by_cases hq : q = p
  · subst hq
    rw [Function.update_self, List.count_cons_self]
    omega
  · rw [Function.update_of_ne hq, List.count_cons_of_ne (Ne.symm hq)]

/-- What one reference more keeps, a reference more to each of a list keeps. -/
theorem foldl_addReference {σ : Type} {P : σ → (Nat → Nat) → Prop} {add : σ → Nat → σ}
    (hadd : ∀ s held p, P s held → 0 < held p → held p + 1 < 2 ^ 31 →
      P (add s p) (Function.update held p (held p + 1)))
    {s : σ} (h : P s held) (ps : List Nat) (hps : ∀ p ∈ ps, 0 < held p)
    (hbound : ∀ p ∈ ps, held p + ps.count p < 2 ^ 31) :
    P (ps.foldl add s) fun p => held p + ps.count p := by
  induction ps generalizing s held with
  | nil => exact h
  | cons p ps ih =>
    have hone : held p + 1 < 2 ^ 31 := by
      have := hbound p List.mem_cons_self
      rw [List.count_cons_self] at this
      omega
    have hfirst := hadd s held p h (hps p List.mem_cons_self) hone
    rw [← held_cons held p ps]
    refine ih hfirst (fun q hq => ?_) fun q hq => ?_
    · have hpos := hps q (List.mem_cons_of_mem p hq)
      by_cases hqp : q = p
      · subst hqp
        rw [Function.update_self]
        omega
      · rwa [Function.update_of_ne hqp]
    · have hb := hbound q (List.mem_cons_of_mem p hq)
      rwa [← congrFun (held_cons held p ps) q] at hb

/-! ## Positions with a property -/

variable {α β : Type} [DecidableEq α] {l : List α} {f : α → β} {a : α} {b : β}

theorem countP_update_of_notMem (p : β → Bool) (ha : a ∉ l) :
    l.countP (fun k => p (Function.update f a b k)) = l.countP fun k => p (f k) := by
  refine List.countP_congr fun k hk => ?_
  rw [Function.update_of_ne]
  rintro rfl
  exact ha hk

/-- What was counted at the position goes, and what is there now comes. -/
theorem countP_update (p : β → Bool) (hn : l.Nodup) (ha : a ∈ l) :
    l.countP (fun k => p (Function.update f a b k)) + (if p (f a) then 1 else 0) =
      l.countP (fun k => p (f k)) + if p b then 1 else 0 := by
  induction l with
  | nil => cases ha
  | cons k l ih =>
    obtain ⟨hk, hn⟩ := List.nodup_cons.mp hn
    rw [List.countP_cons, List.countP_cons]
    by_cases hka : k = a
    · subst hka
      rw [countP_update_of_notMem p hk, Function.update_self]
      omega
    · have hmem : a ∈ l := (List.mem_cons.mp ha).resolve_left fun h => hka h.symm
      have hrest := ih hn hmem
      rw [Function.update_of_ne hka]
      omega

end AllCamera
