import Mathlib.Data.List.Nodup
import Mathlib.Data.List.Perm.Basic
import Mathlib.Logic.Function.Basic
import Mathlib.Tactic.Common

/-!
# A pool whose resources are given out one at a time

Each of the owners `ι` holds at most one resource; those that nobody holds wait in a queue.

* `Pool.take`: an owner without a resource gets the first of the queue. `Pool.giveBack`: its resource goes to
  the end of it.
* `Pool.all`: the queue and what the owners of a list hold. `all_take`, `all_giveBack`: it stays the same, up
  to the order.
-/

namespace AllCamera

variable {ι α : Type}

/-- The resources that wait, and the one that each owner has. -/
structure Pool (ι α : Type) where
  free : List α
  held : ι → Option α

namespace Pool

/-- The resources of the queue and of the owners `is`. -/
def all (p : Pool ι α) (is : List ι) : List α := p.free ++ is.filterMap p.held

variable [DecidableEq ι]

/-- The owner `i` takes a resource if it has none and there is one. -/
def take (p : Pool ι α) (i : ι) : Pool ι α :=
  match p.held i, p.free with
  | none, a :: free => { free, held := Function.update p.held i (some a) }
  | _, _ => p

/-- The owner `i` gives its resource back. -/
def giveBack (p : Pool ι α) (i : ι) : Pool ι α :=
  match p.held i with
  | some a => { free := p.free ++ [a], held := Function.update p.held i none }
  | none => p

variable {p : Pool ι α} {i : ι} {is : List ι} {a : α}

/-- What the owners hold when one of them changes from nothing to `a`. -/
theorem filterMap_update_perm {held : ι → Option α} (hnone : held i = none) (hi : i ∈ is) (hn : is.Nodup) :
    (is.filterMap (Function.update held i (some a))).Perm (a :: is.filterMap held) := by
  induction is with
  | nil => cases hi
  | cons j is ih =>
    obtain ⟨hj, hn⟩ := List.nodup_cons.mp hn
    by_cases hji : j = i
    · subst hji
      have hrest : is.filterMap (Function.update held j (some a)) = is.filterMap held := by
        refine List.filterMap_congr fun k hk => ?_
        rw [Function.update_of_ne]
        rintro rfl
        exact hj hk
      rw [List.filterMap_cons_some (Function.update_self ..), hrest, List.filterMap_cons_none hnone]
    · have hmem : i ∈ is := by
        rcases List.mem_cons.mp hi with rfl | hmem
        · exact absurd rfl hji
        · exact hmem
      have hih := ih hmem hn
      have hsame : Function.update held i (some a) j = held j := Function.update_of_ne hji ..
      cases hheld : held j with
      | none =>
        rw [List.filterMap_cons_none (hsame.trans hheld), List.filterMap_cons_none hheld]
        exact hih
      | some b =>
        rw [List.filterMap_cons_some (hsame.trans hheld), List.filterMap_cons_some hheld]
        exact (hih.cons b).trans (List.Perm.swap a b _)

theorem all_take (hi : i ∈ is) (hn : is.Nodup) : ((p.take i).all is).Perm (p.all is) := by
  unfold take
  split
  · rename_i a free hnone hfree
    unfold all
    rw [hfree]
    exact ((filterMap_update_perm hnone hi hn).append_left free).trans List.perm_middle
  · exact List.Perm.refl _

theorem all_giveBack (hi : i ∈ is) (hn : is.Nodup) : ((p.giveBack i).all is).Perm (p.all is) := by
  unfold giveBack
  split
  · rename_i a hsome
    have hback := @filterMap_update_perm ι α _ i is a _ (Function.update_self i none p.held) hi hn
    rw [Function.update_idem, ← hsome, Function.update_eq_self] at hback
    unfold all
    rw [List.append_assoc]
    exact hback.symm.append_left p.free
  · exact List.Perm.refl _

end Pool

end AllCamera
