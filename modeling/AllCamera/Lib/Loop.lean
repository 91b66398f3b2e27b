import Mathlib.Logic.Function.Iterate
import Mathlib.Order.WellFounded

/-!
# Loops as iterated steps

A loop whose body is a function `step` on the state and whose exit test is `done`. Nothing here
names a program.

* `Returns step done s`: the loop started in `s` leaves after some number of iterations.
* `Throughout step done good s`: every iteration of that loop starts in a state with `good`.
* `returns_of_wf`: an invariant and a well-founded relation that every good iteration descends
  prove `Returns`; `inv_throughout` carries an invariant through the good iterations.
* `not_returns_of_trap`: a set of states without an exit that `step` never leaves.
-/

namespace AllCamera.Loop

variable {σ : Type} (step : σ → σ) (done : σ → Prop)

/-- The loop started in `s` leaves. -/
def Returns (s : σ) : Prop := ∃ k, done (step^[k] s)

/-- Every iteration of the loop started in `s` starts in a state with `good`. -/
def Throughout (good : σ → Prop) (s : σ) : Prop :=
  ∀ k, (∀ j ≤ k, ¬ done (step^[j] s)) → good (step^[k] s)

variable {step done} {I G : σ → Prop} {s : σ}

theorem Throughout.head (h : Throughout step done G s) (hd : ¬ done s) : G s := by
  refine h 0 fun j hj => ?_
  obtain rfl : j = 0 := by omega
  exact hd

theorem Throughout.tail (h : Throughout step done G s) (hd : ¬ done s) :
    Throughout step done G (step s) := by
  intro k hk
  refine h (k + 1) fun j hj => ?_
  cases j with
  | zero => exact hd
  | succ j => exact hk j (by omega)

theorem Throughout.of_done (h : done s) : Throughout step done G s :=
  fun k hk => absurd h (hk 0 (Nat.zero_le k))

theorem Throughout.cons (hg : G s) (h : Throughout step done G (step s)) :
    Throughout step done G s := by
  intro k hk
  cases k with
  | zero => exact hg
  | succ k => exact h k fun j hj => hk (j + 1) (by omega)

/-- A good iteration keeps `I` and goes down in `r`, so the loop leaves. -/
theorem returns_of_wf {r : σ → σ → Prop} (wf : WellFounded r)
    (hstep : ∀ s, I s → G s → ¬ done s → I (step s) ∧ r (step s) s) :
    ∀ s, I s → Throughout step done G s → Returns step done s := by
  intro s
  induction s using wf.induction with
  | _ s ih =>
    intro hi hg
    by_cases hd : done s
    · exact ⟨0, hd⟩
    obtain ⟨hi', hr⟩ := hstep s hi (hg.head hd) hd
    obtain ⟨k, hk⟩ := ih _ hr hi' (hg.tail hd)
    exact ⟨k + 1, hk⟩

/-- An invariant that every good iteration keeps holds as long as the loop runs, and when it
leaves. -/
theorem inv_throughout (hstep : ∀ s, I s → G s → ¬ done s → I (step s)) :
    ∀ k s, I s → Throughout step done G s → (∀ j < k, ¬ done (step^[j] s)) →
      I (step^[k] s) := by
  intro k
  induction k with
  | zero => intro s hi _ _; exact hi
  | succ k ih =>
    intro s hi hg hk
    have hd : ¬ done s := hk 0 (by omega)
    exact ih (step s) (hstep s hi (hg.head hd) hd) (hg.tail hd) fun j hj => hk (j + 1) (by omega)

/-- A trap: no state of `T` leaves the loop, and `step` stays in `T`. -/
theorem not_returns_of_trap {T : σ → Prop} (hT : ∀ s, T s → ¬ done s ∧ T (step s)) (hs : T s) :
    ¬ Returns step done s := by
  have all : ∀ k, T (step^[k] s) := by
    intro k
    induction k with
    | zero => exact hs
    | succ k ih => rw [Function.iterate_succ_apply']; exact (hT _ ih).2
  rintro ⟨k, hk⟩
  exact (hT _ (all k)).1 hk

/-- A loop that reaches a trap before it leaves never leaves. -/
theorem not_returns_of_reaches_trap {T : σ → Prop} (hT : ∀ s, T s → ¬ done s ∧ T (step s))
    (hdone : ∀ s, done s → step s = s) {k : Nat} (hk : T (step^[k] s)) : ¬ Returns step done s := by
  rintro ⟨j, hj⟩
  have stay : ∀ i, done (step^[j + i] s) := by
    intro i
    induction i with
    | zero => exact hj
    | succ i ih => rw [← Nat.add_assoc, Function.iterate_succ_apply', hdone _ ih]; exact ih
  refine not_returns_of_trap hT hk ⟨j, ?_⟩
  rw [← Function.iterate_add_apply]
  exact stay k

end AllCamera.Loop
