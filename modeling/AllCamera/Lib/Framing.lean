import Mathlib.Tactic.Common
import Mathlib.Data.List.Basic

/-!
# Units at the front of a stream

A receiver cuts units off the front of what it has received, and keeps the rest until more comes. How
the stream is cut into pieces on its way makes no difference if a decision on the front of the stream
stands whatever comes behind it.

* `Framing`: such a rule for the front. `IsUnit u`: alone, `u` is one unit.
* `Splits bs us rest ok`: the units of `bs` are `us`, with `rest` behind them; not `ok`: `rest` begins with
  what is no unit.
* `Splits.append`: what comes later is cut as if it had been there. `Splits.unique`: there is one result.
* `Splits.of_prefix`: of a stream of units, a part that begins with it gives whole units, in order, and a
  part of the next one.
-/

namespace AllCamera

/-- What a receiver finds at the front of a stream: a unit of `n` items, the beginning of one, or neither. -/
inductive Cut where
  | unit (n : Nat)
  | more
  | bad
  deriving DecidableEq, Repr

/-- A rule for the front of a stream. A unit or what is none does not change with what comes behind. -/
structure Framing (α : Type) where
  cut : List α → Cut
  cut_nil : cut [] = .more
  unit_length : ∀ {bs n}, cut bs = .unit n → 0 < n ∧ n ≤ bs.length
  unit_append : ∀ {bs n}, cut bs = .unit n → ∀ xs, cut (bs ++ xs) = .unit n
  bad_append : ∀ {bs}, cut bs = .bad → ∀ xs, cut (bs ++ xs) = .bad

namespace Framing

variable {α : Type} (F : Framing α)

/-- Alone, `u` is one unit. -/
def IsUnit (u : List α) : Prop := F.cut u = .unit u.length

/-- `us` are cut off the front of `bs`, and `rest` is left; `ok` if it may still become a unit. -/
inductive Splits : List α → List (List α) → List α → Bool → Prop
  | more {bs : List α} (h : F.cut bs = .more) : Splits bs [] bs true
  | bad {bs : List α} (h : F.cut bs = .bad) : Splits bs [] bs false
  | unit {bs rest : List α} {us : List (List α)} {ok : Bool} {n : Nat} (h : F.cut bs = .unit n)
      (hs : Splits (bs.drop n) us rest ok) : Splits bs (bs.take n :: us) rest ok

variable {F} {bs rest rest' u xs : List α} {us vs : List (List α)} {ok ok' : Bool}

theorem IsUnit.cut_append (h : F.IsUnit u) (xs : List α) : F.cut (u ++ xs) = .unit u.length :=
  F.unit_append h xs

/-- A proper part of a unit that begins with it is the beginning of a unit, and no more. -/
theorem IsUnit.cut_prefix (h : F.IsUnit u) (hp : bs <+: u) (hlt : bs.length < u.length) : F.cut bs = .more := by
  obtain ⟨xs, rfl⟩ := hp
  cases hc : F.cut bs with
  | more => rfl
  | bad =>
    have := F.bad_append hc xs
    rw [IsUnit, this] at h
    cases h
  | unit n =>
    -- the unit found in the part would be found in the whole, and is shorter
    have hwhole := F.unit_append hc xs
    rw [IsUnit, hwhole] at h
    have hn := (F.unit_length hc).2
    injection h with h
    omega

/-- The items are the units and the rest. -/
theorem Splits.flatten (h : F.Splits bs us rest ok) : us.flatten ++ rest = bs := by
  induction h with
  | more => rfl
  | bad => rfl
  | unit _ _ ih => rw [List.flatten_cons, List.append_assoc, ih, List.take_append_drop]

theorem Splits.unique (h : F.Splits bs us rest ok) (h' : F.Splits bs vs rest' ok') :
    us = vs ∧ rest = rest' ∧ ok = ok' := by
  induction h generalizing vs with
  | more hc =>
    cases h' with
    | more => exact ⟨rfl, rfl, rfl⟩
    | bad hc' => rw [hc] at hc'; cases hc'
    | unit hc' => rw [hc] at hc'; cases hc'
  | bad hc =>
    cases h' with
    | more hc' => rw [hc] at hc'; cases hc'
    | bad => exact ⟨rfl, rfl, rfl⟩
    | unit hc' => rw [hc] at hc'; cases hc'
  | unit hc _ ih =>
    cases h' with
    | more hc' => rw [hc] at hc'; cases hc'
    | bad hc' => rw [hc] at hc'; cases hc'
    | unit hc' hs' =>
      rw [hc] at hc'
      injection hc' with hn
      subst hn
      obtain ⟨rfl, rfl, rfl⟩ := ih hs'
      exact ⟨rfl, rfl, rfl⟩

/-- The units of what was received stay, and the rest is cut together with what comes later. -/
theorem Splits.append (h : F.Splits bs us rest true) (h' : F.Splits (rest ++ xs) vs rest' ok) :
    F.Splits (bs ++ xs) (us ++ vs) rest' ok := by
  generalize hok : true = t at h
  induction h with
  | more => exact h'
  | bad => cases hok
  | unit hc _ ih =>
    obtain ⟨-, hle⟩ := F.unit_length hc
    have hu := Splits.unit (F.unit_append hc xs) (by rw [List.drop_append_of_le_length hle]; exact ih h' hok)
    rwa [List.take_append_of_le_length hle] at hu

/-- What is received of a stream of units gives whole units, in their order; the rest begins the next one. -/
theorem Splits.of_prefix (h : F.Splits bs us rest ok) (hv : ∀ v ∈ vs, F.IsUnit v) (hp : bs <+: vs.flatten) :
    ok = true ∧ us <+: vs ∧ rest <+: (vs.drop us.length).flatten ∧
      ∀ v ∈ (vs.drop us.length).head?, rest.length < v.length := by
  induction vs generalizing bs us with
  | nil =>
    obtain rfl : bs = [] := List.prefix_nil.mp hp
    cases h with
    | more => simp
    | bad hc => rw [F.cut_nil] at hc; cases hc
    | unit hc => rw [F.cut_nil] at hc; cases hc
  | cons v vs ih =>
    have hunit : F.IsUnit v := hv v List.mem_cons_self
    rw [List.flatten_cons] at hp
    rcases Nat.lt_or_ge bs.length v.length with hlt | hge
    · -- not even the first unit is there as a whole
      have hpv : bs <+: v := List.prefix_of_prefix_length_le hp (List.prefix_append v _) (Nat.le_of_lt hlt)
      have hc := hunit.cut_prefix hpv hlt
      cases h with
      | more => exact ⟨rfl, List.nil_prefix, by simpa using hp, by simpa using hlt⟩
      | bad hc' => rw [hc] at hc'; cases hc'
      | unit hc' => rw [hc] at hc'; cases hc'
    · obtain ⟨xs, rfl⟩ := List.prefix_of_prefix_length_le (List.prefix_append v _) hp hge
      have hc := hunit.cut_append xs
      have hxs : xs <+: vs.flatten := (List.prefix_append_right_inj v).mp hp
      cases h with
      | more hc' => rw [hc] at hc'; cases hc'
      | bad hc' => rw [hc] at hc'; cases hc'
      | unit hc' hs =>
        rw [hc] at hc'
        injection hc' with hn
        subst hn
        rw [List.drop_left] at hs
        rw [List.take_left]
        obtain ⟨hok, hus, hrest, hhead⟩ := ih hs (fun w hw => hv w (List.mem_cons_of_mem _ hw)) hxs
        exact ⟨hok, List.cons_prefix_cons.mpr ⟨rfl, hus⟩, hrest, hhead⟩

/-- A whole stream of units gives them all. -/
theorem Splits.of_flatten (h : F.Splits bs us rest ok) (hv : ∀ v ∈ vs, F.IsUnit v) (hb : bs = vs.flatten) :
    ok = true ∧ us = vs ∧ rest = [] := by
  obtain ⟨hok, ⟨ws, rfl⟩, hrest, hhead⟩ := h.of_prefix hv (hb ▸ List.prefix_refl _)
  have hflat := h.flatten
  rw [hb, List.flatten_append, List.append_cancel_left_eq] at hflat
  rw [List.drop_left] at hhead
  cases ws with
  | nil => exact ⟨hok, (List.append_nil us).symm, by simpa using hflat⟩
  | cons w ws =>
    have := hhead w rfl
    rw [hflat, List.flatten_cons, List.length_append] at this
    omega

end Framing

end AllCamera
