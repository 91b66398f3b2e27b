import Mathlib.Data.List.Nodup
import Mathlib.Data.List.Perm.Basic
import Mathlib.Data.List.Lookmap
import Mathlib.Data.UInt

/-!
# Association lists with distinct keys

A sorted container of key/value pairs (`std::map`) as a list without a repeated key: looking a
key up, taking a key out, and the least key.
-/

namespace AllCamera.Assoc

variable {κ ν : Type} [DecidableEq κ] {m : List (κ × ν)} {k : κ} {v : ν}

/-- `m` without the entry of `k`. -/
def erase (m : List (κ × ν)) (k : κ) : List (κ × ν) := m.filter fun e => e.1 ≠ k

theorem mem_of_lookup (h : m.lookup k = some v) : (k, v) ∈ m := by
  induction m with
  | nil => simp at h
  | cons e m ih =>
    obtain ⟨k', v'⟩ := e
    rw [List.lookup_cons] at h
    split at h
    · rename_i hk
      obtain rfl : k = k' := by simpa using hk
      simp_all
    · exact List.mem_cons_of_mem _ (ih h)

theorem lookup_eq_none_iff : m.lookup k = none ↔ k ∉ m.map Prod.fst := by
  induction m with
  | nil => simp
  | cons e m ih =>
    obtain ⟨k', v'⟩ := e
    rw [List.lookup_cons]
    by_cases hk : k = k'
    · simp [hk]
    · have hb : (k == k') = false := by simpa using hk
      rw [hb, List.map_cons, List.mem_cons, not_or]
      exact ⟨fun h => ⟨hk, ih.mp h⟩, fun h => ih.mpr h.2⟩

theorem lookup_of_mem (hn : (m.map Prod.fst).Nodup) (h : (k, v) ∈ m) : m.lookup k = some v := by
  induction m with
  | nil => simp at h
  | cons e m ih =>
    obtain ⟨k', v'⟩ := e
    simp only [List.map_cons, List.nodup_cons] at hn
    rw [List.lookup_cons]
    rcases List.mem_cons.mp h with h | h
    · obtain ⟨rfl, rfl⟩ := Prod.mk.inj h
      simp
    · have : k ≠ k' := fun e => hn.1 (e ▸ List.mem_map_of_mem h)
      have hb : (k == k') = false := by simpa using this
      rw [hb]
      exact ih hn.2 h

@[simp] theorem mem_erase {e : κ × ν} : e ∈ erase m k ↔ e ∈ m ∧ e.1 ≠ k := by
  simp [erase]

theorem erase_of_notMem (h : k ∉ m.map Prod.fst) : erase m k = m := by
  apply List.filter_eq_self.mpr
  intro e he
  have : e.1 ≠ k := fun hk => h (hk ▸ List.mem_map_of_mem he)
  simpa using this

theorem erase_cons_self (h : k ∉ m.map Prod.fst) : erase ((k, v) :: m) k = m := by
  have hcons : erase ((k, v) :: m) k = erase m k := by simp [erase]
  rw [hcons, erase_of_notMem h]

/-- Taking the entry of `k` out leaves the other entries. -/
theorem perm_erase (hn : (m.map Prod.fst).Nodup) (h : (k, v) ∈ m) : m.Perm ((k, v) :: erase m k) := by
  induction m with
  | nil => simp at h
  | cons e m ih =>
    obtain ⟨k', v'⟩ := e
    simp only [List.map_cons, List.nodup_cons] at hn
    rcases List.mem_cons.mp h with h | h
    · obtain ⟨rfl, rfl⟩ := Prod.mk.inj h
      rw [erase_cons_self hn.1]
    · have hk : k' ≠ k := fun e => hn.1 (e ▸ List.mem_map_of_mem h)
      have hcons : erase ((k', v') :: m) k = (k', v') :: erase m k := by simp [erase, hk]
      rw [hcons]
      exact ((ih hn.2 h).cons _).trans (List.Perm.swap _ _ _)

theorem nodup_erase (hn : (m.map Prod.fst).Nodup) : ((erase m k).map Prod.fst).Nodup :=
  hn.sublist (List.filter_sublist.map _)

end AllCamera.Assoc
