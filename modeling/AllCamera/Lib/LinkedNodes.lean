import Mathlib.Logic.Function.Basic
import Mathlib.Data.List.Nodup
import Mathlib.Tactic.Common

/-!
# Lists that are linked in place

A list in a store has a head, and each node has a link to the next one; several lists may use the same
nodes by different links. `LinkedNodes link o l` says that the links lead from the head `o` over the nodes `l` to
the end.

* `LinkedNodes.eq`, `LinkedNodes.nodup`: the links determine the nodes, and no node comes twice.
* `LinkedNodes.congr`: what happens to other nodes does not matter.
* `LinkedNodes.push`: a node is put in front.
-/

namespace AllCamera

variable {ι : Type} {link link' : ι → Option ι} {o : Option ι} {x : ι} {l l' : List ι}

/-- From `o`, the links lead over the nodes `l` to the end. -/
def LinkedNodes (link : ι → Option ι) : Option ι → List ι → Prop
  | o, [] => o = none
  | o, x :: l => o = some x ∧ LinkedNodes link (link x) l

namespace LinkedNodes

@[simp] theorem nil_iff : LinkedNodes link o [] ↔ o = none := Iff.rfl

theorem eq_nil (h : LinkedNodes link none l) : l = [] := by
  cases l with
  | nil => rfl
  | cons x l => exact nomatch h.1

theorem of_some (h : LinkedNodes link (some x) l) : ∃ l', l = x :: l' ∧ LinkedNodes link (link x) l' := by
  cases l with
  | nil => exact nomatch h
  | cons y l =>
    obtain ⟨hx, hl⟩ := h
    obtain rfl := Option.some.inj hx
    exact ⟨l, rfl, hl⟩

theorem eq_none_iff (h : LinkedNodes link o l) : o = none ↔ l = [] := by
  cases l with
  | nil => exact iff_of_true h rfl
  | cons x l => exact iff_of_false (by rw [h.1]; exact nofun) nofun

/-- The links determine the nodes. -/
protected theorem eq (h : LinkedNodes link o l) (h' : LinkedNodes link o l') : l = l' := by
  induction l generalizing o l' with
  | nil =>
    obtain rfl := nil_iff.mp h
    exact h'.eq_nil.symm
  | cons x l ih =>
    obtain ⟨rfl, hl⟩ := h
    obtain ⟨l'', rfl, hl''⟩ := h'.of_some
    rw [ih hl hl'']

theorem of_append {front back : List ι} (h : LinkedNodes link o (front ++ back)) :
    ∃ o', LinkedNodes link o' back := by
  induction front generalizing o with
  | nil => exact ⟨o, h⟩
  | cons x front ih => exact ih h.2

/-- No node comes twice: the links from it on would lead to its rest and to the whole. -/
protected theorem nodup (h : LinkedNodes link o l) : l.Nodup := by
  induction l generalizing o with
  | nil => exact List.nodup_nil
  | cons x l ih =>
    refine List.nodup_cons.mpr ⟨fun hx => ?_, ih h.2⟩
    obtain ⟨front, back, rfl⟩ := List.append_of_mem hx
    obtain ⟨o', hx', hback⟩ := h.2.of_append
    have hlen := congrArg List.length (hback.eq h.2)
    simp at hlen
    omega

/-- The links of the nodes are the same. -/
protected theorem congr (h : LinkedNodes link o l) (hlink : ∀ x ∈ l, link' x = link x) : LinkedNodes link' o l := by
  induction l generalizing o with
  | nil => exact h
  | cons x l ih =>
    obtain ⟨hx, hl⟩ := List.forall_mem_cons.mp hlink
    refine ⟨h.1, ?_⟩
    rw [hx]
    exact ih h.2 hl

/-- A node is put in front. -/
theorem push (h : LinkedNodes link o l) (hx : link' x = o) (hlink : ∀ y ∈ l, link' y = link y) :
    LinkedNodes link' (some x) (x :: l) := by
  refine ⟨rfl, ?_⟩
  rw [hx]
  exact h.congr hlink

end LinkedNodes

end AllCamera
