import Mathlib.Data.List.Basic
import Mathlib.Tactic.Common

/-!
# Things that are handed out and come back

The history of a stock, newest event first.

* `outs`: what is out after it.
* `Alternates`: only what is in goes out, and only what is out comes back.
* `Alternates.back_between`: between two times that a thing goes out it has come back.
-/

namespace AllCamera.History

/-- A thing goes out or comes back. -/
inductive Event (ι : Type) where
  | out (i : ι)
  | back (i : ι)
  deriving DecidableEq, Repr

variable {ι : Type} [DecidableEq ι] {i : ι} {es mid pre : List (Event ι)}

/-- What is out. -/
def outs : List (Event ι) → List ι
  | [] => []
  | .out i :: es => i :: outs es
  | .back i :: es => (outs es).filter (· ≠ i)

/-- Only what is in goes out, and only what is out comes back. -/
def Alternates : List (Event ι) → Prop
  | [] => True
  | .out i :: es => i ∉ outs es ∧ Alternates es
  | .back i :: es => i ∈ outs es ∧ Alternates es

theorem mem_outs_of_not_back (hmid : .back i ∉ mid) (h : i ∈ outs es) : i ∈ outs (mid ++ es) := by
  induction mid with
  | nil => exact h
  | cons e mid ih =>
    rw [List.mem_cons, not_or] at hmid
    have hrest := ih hmid.2
    cases e with
    | out j => exact List.mem_cons_of_mem j hrest
    | back j =>
      have hij : i ≠ j := fun hij => hmid.1 (hij ▸ rfl)
      exact List.mem_filter.mpr ⟨hrest, by simpa using hij⟩

theorem Alternates.of_append (h : Alternates (mid ++ es)) : Alternates es := by
  induction mid with
  | nil => exact h
  | cons e mid ih =>
    cases e with
    | out j => exact ih h.2
    | back j => exact ih h.2

/-- What goes out again has come back. -/
theorem Alternates.back_between {post : List (Event ι)}
    (h : Alternates (post ++ .out i :: (mid ++ .out i :: pre))) : .back i ∈ mid := by
  by_contra hmid
  exact h.of_append.1 (mem_outs_of_not_back hmid List.mem_cons_self)

end AllCamera.History
