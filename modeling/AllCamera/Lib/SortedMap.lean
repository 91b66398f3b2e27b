import AllCamera.Lib.Assoc
import Mathlib.Order.Defs.LinearOrder
import Mathlib.Data.List.TakeWhile

/-!
# Ordered containers

`std::map` and `std::multimap`: their entries as a list in the order of the keys, which is a field.
An iterator is the rest of the list from its entry on, and `end()` the empty rest.

* `insertSorted`: a new entry goes behind those whose key is not greater.
* `Multimap.find`: from the first entry with a key to the end of the container.
* `Multimap.eraseFrom`: a walk from `find` on takes one entry out; `perm_eraseFrom` and
  `eraseFrom_of_miss` say which.
* `SortedMap`: one entry for each key.
-/

namespace AllCamera

/-! The orders of the integer types, for keys. -/

namespace UIntOrder

scoped instance instLinearOrderUInt8 : LinearOrder UInt8 where
  le_refl := UInt8.le_refl
  le_trans _ _ _ := UInt8.le_trans
  le_antisymm _ _ := UInt8.le_antisymm
  le_total := UInt8.le_total
  lt_iff_le_not_ge a b := by
    rw [UInt8.lt_iff_toNat_lt, UInt8.le_iff_toNat_le, UInt8.le_iff_toNat_le]
    omega
  toDecidableLE := inferInstance
  toDecidableEq := inferInstance
  toDecidableLT := inferInstance

scoped instance instLinearOrderUInt16 : LinearOrder UInt16 where
  le_refl := UInt16.le_refl
  le_trans _ _ _ := UInt16.le_trans
  le_antisymm _ _ := UInt16.le_antisymm
  le_total := UInt16.le_total
  lt_iff_le_not_ge a b := by
    rw [UInt16.lt_iff_toNat_lt, UInt16.le_iff_toNat_le, UInt16.le_iff_toNat_le]
    omega
  toDecidableLE := inferInstance
  toDecidableEq := inferInstance
  toDecidableLT := inferInstance

scoped instance instLinearOrderUInt64 : LinearOrder UInt64 where
  le_refl := UInt64.le_refl
  le_trans _ _ _ := UInt64.le_trans
  le_antisymm _ _ := UInt64.le_antisymm
  le_total := UInt64.le_total
  lt_iff_le_not_ge a b := by
    rw [UInt64.lt_iff_toNat_lt, UInt64.le_iff_toNat_le, UInt64.le_iff_toNat_le]
    omega
  toDecidableLE := inferInstance
  toDecidableEq := inferInstance
  toDecidableLT := inferInstance

end UIntOrder

variable {κ ν : Type} [LinearOrder κ] {k : κ} {v : ν} {l : List (κ × ν)} {e : κ × ν}

/-- The list with an entry behind all those whose key is not greater. -/
def insertSorted (k : κ) (v : ν) : List (κ × ν) → List (κ × ν)
  | [] => [(k, v)]
  | e :: l => if k < e.1 then (k, v) :: e :: l else e :: insertSorted k v l

theorem perm_insertSorted (k : κ) (v : ν) (l : List (κ × ν)) :
    (insertSorted k v l).Perm ((k, v) :: l) := by
  induction l with
  | nil => exact .refl _
  | cons e l ih =>
    rw [insertSorted]
    split
    · exact .refl _
    · exact (ih.cons e).trans (.swap _ _ _)

@[simp] theorem mem_insertSorted : e ∈ insertSorted k v l ↔ e = (k, v) ∨ e ∈ l := by
  rw [(perm_insertSorted k v l).mem_iff, List.mem_cons]

theorem pairwise_insertSorted (hl : l.Pairwise (·.1 ≤ ·.1)) :
    (insertSorted k v l).Pairwise (·.1 ≤ ·.1) := by
  induction l with
  | nil => exact List.pairwise_singleton _ _
  | cons e l ih =>
    obtain ⟨he, hl'⟩ := List.pairwise_cons.mp hl
    rw [insertSorted]
    split
    · rename_i hk
      refine List.pairwise_cons.mpr ⟨fun b hb => ?_, hl⟩
      rcases List.mem_cons.mp hb with rfl | hb
      · exact hk.le
      · exact hk.le.trans (he b hb)
    · rename_i hk
      refine List.pairwise_cons.mpr ⟨fun b hb => ?_, ih hl'⟩
      rcases mem_insertSorted.mp hb with rfl | hb
      · exact not_lt.mp hk
      · exact he b hb

theorem strict_insertSorted (hl : l.Pairwise (·.1 < ·.1)) (hk : k ∉ l.map Prod.fst) :
    (insertSorted k v l).Pairwise (·.1 < ·.1) := by
  induction l with
  | nil => exact List.pairwise_singleton _ _
  | cons e l ih =>
    obtain ⟨he, hl'⟩ := List.pairwise_cons.mp hl
    rw [List.map_cons, List.mem_cons, not_or] at hk
    rw [insertSorted]
    split
    · rename_i hlt
      refine List.pairwise_cons.mpr ⟨fun b hb => ?_, hl⟩
      rcases List.mem_cons.mp hb with rfl | hb
      · exact hlt
      · exact hlt.trans (he b hb)
    · rename_i hlt
      refine List.pairwise_cons.mpr ⟨fun b hb => ?_, ih hl' hk.2⟩
      rcases mem_insertSorted.mp hb with rfl | hb
      · exact lt_of_le_of_ne (not_lt.mp hlt) (Ne.symm hk.1)
      · exact he b hb

/-! ## Several entries for a key -/

/-- `std::multimap`. -/
structure Multimap (κ ν : Type) [LinearOrder κ] where
  entries : List (κ × ν)
  sorted : entries.Pairwise (·.1 ≤ ·.1)

/-- The walk of an iterator that stops where `go` fails, and erases the first entry that it hits. -/
def eraseWalk (go hit : κ × ν → Bool) : List (κ × ν) → List (κ × ν)
  | [] => []
  | e :: l => if go e then if hit e then l else e :: eraseWalk go hit l else e :: l

section Walk

variable {go hit : κ × ν → Bool}

omit [LinearOrder κ] in
theorem eraseWalk_sublist (go hit : κ × ν → Bool) (l : List (κ × ν)) :
    (eraseWalk go hit l).Sublist l := by
  induction l with
  | nil => exact .slnil
  | cons e l ih =>
    rw [eraseWalk]
    split
    · split
      · exact List.sublist_cons_self e l
      · exact ih.cons_cons e
    · exact .refl _

omit [LinearOrder κ] in
theorem eraseWalk_of_miss (h : ∀ e ∈ l, hit e = false) : eraseWalk go hit l = l := by
  induction l with
  | nil => rfl
  | cons e l ih =>
    rw [eraseWalk, h e List.mem_cons_self, ih fun b hb => h b (List.mem_cons_of_mem e hb)]
    simp

omit [LinearOrder κ] in
/-- The walk takes no entry out where it does not go on. -/
theorem mem_eraseWalk (he : e ∈ l) (hgo : go e = false) : e ∈ eraseWalk go hit l := by
  induction l with
  | nil => cases he
  | cons b l ih =>
    rw [eraseWalk]
    rcases List.mem_cons.mp he with rfl | he
    · rw [hgo]
      exact List.mem_cons_self
    · split
      · split
        · exact he
        · exact List.mem_cons_of_mem b (ih he)
      · exact List.mem_cons_of_mem b he

omit [LinearOrder κ] in
/-- Where the walk comes to an entry that it hits, it takes out one such entry. -/
theorem perm_eraseWalk {front : List (κ × ν)} (back : List (κ × ν)) (hgo : ∀ b ∈ front, go b) (he : go e)
    (hhit : hit e) :
    ∃ b ∈ front ++ [e], go b ∧ hit b ∧
      (front ++ e :: back).Perm (b :: eraseWalk go hit (front ++ e :: back)) := by
  induction front with
  | nil => exact ⟨e, List.mem_singleton_self e, he, hhit, by simp [eraseWalk, he, hhit]⟩
  | cons c front ih =>
    have hc := hgo c List.mem_cons_self
    by_cases hch : hit c
    · exact ⟨c, List.mem_cons_self, hc, hch, by simp [eraseWalk, hc, hch]⟩
    · obtain ⟨b, hb, hgb, hhb, hp⟩ := ih fun b hb => hgo b (List.mem_cons_of_mem c hb)
      refine ⟨b, List.mem_cons_of_mem c hb, hgb, hhb, ?_⟩
      rw [List.cons_append, eraseWalk, if_pos hc, if_neg hch]
      exact (hp.cons c).trans (.swap _ _ _)

end Walk

namespace Multimap

variable {m : Multimap κ ν} {go hit : κ × ν → Bool}

/-- The container without entries. -/
def empty : Multimap κ ν := ⟨[], .nil⟩

instance : Inhabited (Multimap κ ν) := ⟨empty⟩

def insert (m : Multimap κ ν) (k : κ) (v : ν) : Multimap κ ν :=
  ⟨insertSorted k v m.entries, pairwise_insertSorted m.sorted⟩

/-- From the first entry with key `k` on. -/
def find (m : Multimap κ ν) (k : κ) : List (κ × ν) := m.entries.dropWhile fun e => e.1 ≠ k

/-- An iterator walks from `find k` on and erases the first entry that it hits. -/
def eraseFrom (m : Multimap κ ν) (k : κ) (go hit : κ × ν → Bool) : Multimap κ ν where
  entries := (m.entries.takeWhile fun e => e.1 ≠ k) ++ eraseWalk go hit (m.find k)
  sorted := by
    refine m.sorted.sublist ?_
    conv_rhs => rw [← List.takeWhile_append_dropWhile (p := fun e => e.1 ≠ k) (l := m.entries)]
    exact (List.Sublist.refl _).append (eraseWalk_sublist go hit _)

theorem split_find (m : Multimap κ ν) (k : κ) :
    (m.entries.takeWhile fun e => e.1 ≠ k) ++ m.find k = m.entries :=
  List.takeWhile_append_dropWhile

theorem find_subset (m : Multimap κ ν) (k : κ) : m.find k ⊆ m.entries :=
  (List.dropWhile_suffix _).subset

theorem perm_insert (m : Multimap κ ν) (k : κ) (v : ν) :
    (m.insert k v).entries.Perm ((k, v) :: m.entries) := perm_insertSorted k v m.entries

theorem key_of_find {es : List (κ × ν)} (h : m.find k = e :: es) : e.1 = k := by
  have := List.head?_dropWhile_not (fun e : κ × ν => decide (e.1 ≠ k)) m.entries
  rw [find] at h
  rw [h] at this
  simpa using this

theorem find_ne_nil (h : (k, v) ∈ m.entries) : m.find k ≠ [] := by
  intro hnil
  rw [find, List.dropWhile_eq_nil_iff] at hnil
  simpa using hnil _ h

/-- The entries with key `k` are where `find` points. -/
theorem mem_find (h : (k, v) ∈ m.entries) : (k, v) ∈ m.find k := by
  rw [← m.split_find k, List.mem_append] at h
  rcases h with h | h
  · simpa using List.mem_takeWhile_imp h
  · exact h

/-- From `find` to an entry with the key, there are entries with the key only. -/
theorem key_of_front {front back : List (κ × ν)} (h : m.find k = front ++ (k, v) :: back) :
    ∀ e ∈ front, e.1 = k := by
  intro e he
  have hsorted : (m.find k).Pairwise (·.1 ≤ ·.1) := m.sorted.sublist (List.dropWhile_sublist _)
  cases front with
  | nil => simp at he
  | cons c front =>
    have hc : c.1 = k := key_of_find h
    rw [h] at hsorted
    have hle : e.1 ≤ k := (List.pairwise_append.mp hsorted).2.2 e he (k, v) List.mem_cons_self
    rcases List.mem_cons.mp he with rfl | he
    · exact hc
    · have hge : c.1 ≤ e.1 := (List.pairwise_cons.mp hsorted).1 e
        (List.mem_append_left _ he)
      exact le_antisymm hle (hc ▸ hge)

/-- A walk from `find` over the key's entries comes to all of them. -/
theorem mem_takeWhile_find (hgo : ∀ e, go e = true ↔ e.1 = k) {k' : κ} :
    (k', v) ∈ (m.find k).takeWhile go ↔ k' = k ∧ (k, v) ∈ m.entries := by
  constructor
  · intro h
    have hk : k' = k := (hgo _).mp (List.mem_takeWhile_imp h)
    exact ⟨hk, hk ▸ m.find_subset k ((List.takeWhile_prefix _).subset h)⟩
  · rintro ⟨rfl, h⟩
    obtain ⟨front, back, hfind⟩ := List.append_of_mem (mem_find h)
    have hfront := key_of_front hfind
    rw [hfind, List.takeWhile_append_of_pos fun e he => (hgo e).mpr (hfront e he),
      List.takeWhile_cons_of_pos ((hgo _).mpr rfl)]
    exact List.mem_append_right _ List.mem_cons_self

theorem eraseFrom_of_miss (h : ∀ e ∈ m.entries, hit e = false) :
    (m.eraseFrom k go hit).entries = m.entries := by
  have hfind : ∀ e ∈ m.find k, hit e = false := fun e he => h e (m.find_subset k he)
  change _ ++ eraseWalk go hit (m.find k) = _
  rw [eraseWalk_of_miss hfind, split_find]

theorem mem_eraseFrom (he : e ∈ m.entries) (hgo : go e = false) :
    e ∈ (m.eraseFrom k go hit).entries := by
  rw [← m.split_find k] at he
  rcases List.mem_append.mp he with he | he
  · exact List.mem_append_left _ he
  · exact List.mem_append_right _ (mem_eraseWalk he hgo)

/-- A walk that goes over the key's entries takes one entry out, if it hits one of them. -/
theorem perm_eraseFrom (h : (k, v) ∈ m.entries) (hgo : ∀ e : κ × ν, e.1 = k → go e)
    (hhit : hit (k, v)) :
    ∃ e, go e ∧ hit e ∧ m.entries.Perm (e :: (m.eraseFrom k go hit).entries) := by
  obtain ⟨front, back, hfind⟩ := List.append_of_mem (mem_find h)
  obtain ⟨b, -, hgb, hhb, hp⟩ := perm_eraseWalk back
    (fun e he => hgo e (key_of_front hfind e he)) (hgo (k, v) rfl) hhit
  rw [← hfind] at hp
  refine ⟨b, hgb, hhb, ?_⟩
  conv_lhs => rw [← m.split_find k]
  exact (hp.append_left _).trans List.perm_middle

end Multimap

/-! ## One entry for a key -/

/-- `std::map`. -/
structure SortedMap (κ ν : Type) [LinearOrder κ] where
  entries : List (κ × ν)
  sorted : entries.Pairwise (·.1 < ·.1)

namespace SortedMap

variable {m : SortedMap κ ν}

/-- The container without entries. -/
def empty : SortedMap κ ν := ⟨[], .nil⟩

instance : Inhabited (SortedMap κ ν) := ⟨empty⟩

def find (m : SortedMap κ ν) (k : κ) : Option ν := m.entries.lookup k

/-- `insert` keeps the entry that a key has. -/
def insert (m : SortedMap κ ν) (k : κ) (v : ν) : SortedMap κ ν :=
  if h : k ∈ m.entries.map Prod.fst then m
  else ⟨insertSorted k v m.entries, strict_insertSorted m.sorted h⟩

def erase (m : SortedMap κ ν) (k : κ) : SortedMap κ ν :=
  ⟨Assoc.erase m.entries k, m.sorted.sublist List.filter_sublist⟩

/-- The value of a key is changed, if it has one. -/
def modify (m : SortedMap κ ν) (k : κ) (f : ν → ν) : SortedMap κ ν where
  entries := m.entries.map fun e => (e.1, if e.1 = k then f e.2 else e.2)
  sorted := by
    rw [List.pairwise_map]
    exact m.sorted

/-- Every value is changed. -/
def mapVals (m : SortedMap κ ν) (f : ν → ν) : SortedMap κ ν where
  entries := m.entries.map fun e => (e.1, f e.2)
  sorted := by
    rw [List.pairwise_map]
    exact m.sorted

theorem nodup (m : SortedMap κ ν) : (m.entries.map Prod.fst).Nodup := by
  rw [List.Nodup, List.pairwise_map]
  exact m.sorted.imp ne_of_lt

theorem find_eq_some_iff : m.find k = some v ↔ (k, v) ∈ m.entries :=
  ⟨Assoc.mem_of_lookup, Assoc.lookup_of_mem m.nodup⟩

theorem find_eq_none_iff : m.find k = none ↔ k ∉ m.entries.map Prod.fst :=
  Assoc.lookup_eq_none_iff

theorem perm_insert (h : m.find k = none) (v : ν) :
    (m.insert k v).entries.Perm ((k, v) :: m.entries) := by
  rw [insert, dif_neg (find_eq_none_iff.mp h)]
  exact perm_insertSorted k v m.entries

theorem perm_erase (h : (k, v) ∈ m.entries) : m.entries.Perm ((k, v) :: (m.erase k).entries) :=
  Assoc.perm_erase m.nodup h

theorem find_insert (h : m.find k = none) (v : ν) (k' : κ) :
    (m.insert k v).find k' = if k' = k then some v else m.find k' := by
  ext v'
  rw [find_eq_some_iff, (perm_insert h v).mem_iff, List.mem_cons, Prod.mk.injEq]
  split_ifs with hk
  · subst hk
    have hno : (k', v') ∉ m.entries := fun hmem =>
      find_eq_none_iff.mp h (List.mem_map_of_mem hmem)
    simp [hno, eq_comm]
  · rw [find_eq_some_iff]
    simp [hk]

theorem find_erase (k k' : κ) : (m.erase k).find k' = if k' = k then none else m.find k' := by
  ext v'
  rw [find_eq_some_iff, erase, Assoc.mem_erase]
  split_ifs with hk
  · simp [hk]
  · rw [find_eq_some_iff]
    simp [hk]

theorem find_modify (k : κ) (f : ν → ν) (k' : κ) :
    (m.modify k f).find k' = if k' = k then (m.find k).map f else m.find k' := by
  ext v'
  rw [find_eq_some_iff, modify, List.mem_map]
  split_ifs with hk
  · subst hk
    constructor
    · rintro ⟨⟨k'', v⟩, hmem, heq⟩
      obtain ⟨rfl, rfl⟩ := Prod.mk.inj heq
      rw [find_eq_some_iff.mpr hmem]
      simp
    · intro hmap
      obtain ⟨v, hv, rfl⟩ := Option.map_eq_some_iff.mp hmap
      exact ⟨(k', v), find_eq_some_iff.mp hv, by simp⟩
  · rw [find_eq_some_iff]
    constructor
    · rintro ⟨⟨k'', v⟩, hmem, heq⟩
      obtain ⟨rfl, rfl⟩ := Prod.mk.inj heq
      rwa [if_neg hk]
    · exact fun hmem => ⟨(k', v'), hmem, by simp [hk]⟩

end SortedMap

end AllCamera
