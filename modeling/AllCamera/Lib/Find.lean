import Mathlib.Data.List.Basic
import Mathlib.Tactic.Common

/-!
# The first occurrence of a pattern in a list

* `find pat l`: where `pat` begins for the first time.
* `find_append`: more behind the list does not change an answer.
* `find_skip`: a stretch without the first letter of the pattern.
* `find_letter_cases`: a pattern of one letter cuts the list.
* `find_eq_none_iff`: nothing is found where the pattern does not occur.
* `find_segments`: in segments with separators, a pattern without them lies inside of one.
* `find?_prefix`: a search for the key that a text begins with.
-/

namespace AllCamera

variable {α : Type} [DecidableEq α]

/-- Where `pat` begins for the first time in the list. -/
def find (pat : List α) : List α → Option Nat
  | [] => if pat = [] then some 0 else none
  | x :: xs => if pat.isPrefixOf (x :: xs) then some 0 else (find pat xs).map (· + 1)

variable {pat l t : List α} {k : Nat}

theorem find_nil (pat : List α) : find pat [] = if pat = [] then some 0 else none := rfl

theorem find_cons (pat : List α) (x : α) (xs : List α) :
    find pat (x :: xs) = if pat.isPrefixOf (x :: xs) then some 0 else (find pat xs).map (· + 1) := rfl

/-- There is the pattern where it is found. -/
theorem prefix_of_find (h : find pat l = some k) : pat <+: l.drop k := by
  induction l generalizing k with
  | nil =>
    rw [find_nil] at h
    split at h
    · rename_i hp
      simp [hp]
    · cases h
  | cons x xs ih =>
    rw [find_cons] at h
    split at h
    · rename_i hp
      obtain rfl := Option.some.inj h
      exact List.isPrefixOf_iff_prefix.mp hp
    · obtain ⟨j, hj, rfl⟩ := Option.map_eq_some_iff.mp h
      exact ih hj

theorem find_le (h : find pat l = some k) (hp : pat ≠ []) : k + pat.length ≤ l.length := by
  have hlen := (prefix_of_find h).length_le
  have hpos := List.length_pos_iff.mpr hp
  rw [List.length_drop] at hlen
  omega

/-- What is found stays the first, whatever follows. -/
theorem find_append (h : find pat l = some k) (hp : pat ≠ []) (t : List α) :
    find pat (l ++ t) = some k := by
  induction l generalizing k with
  | nil => simp [find_nil, hp] at h
  | cons x xs ih =>
    rw [List.cons_append, find_cons]
    rw [find_cons] at h
    split at h
    · rename_i hpre
      obtain rfl := Option.some.inj h
      rw [if_pos]
      exact List.isPrefixOf_iff_prefix.mpr ((List.isPrefixOf_iff_prefix.mp hpre).trans
        (List.prefix_append (x :: xs) t))
    · rename_i hpre
      obtain ⟨j, hj, rfl⟩ := Option.map_eq_some_iff.mp h
      have hfit := find_le hj hp
      rw [if_neg, ih hj]
      · rfl
      · intro hlong
        refine hpre (List.isPrefixOf_iff_prefix.mpr ?_)
        exact List.prefix_of_prefix_length_le (List.isPrefixOf_iff_prefix.mp hlong)
          (List.prefix_append (x :: xs) t) (by simp only [List.length_cons]; omega)

/-- Nothing is found in a stretch without the first letter. -/
theorem find_skip {a : α} {pat l : List α} (h : ∀ x ∈ l, x ≠ a) (t : List α) :
    find (a :: pat) (l ++ t) = (find (a :: pat) t).map (· + l.length) := by
  induction l with
  | nil => simp
  | cons x l ih =>
    have hx : x ≠ a := h x List.mem_cons_self
    rw [List.cons_append, find_cons, if_neg, ih fun y hy => h y (List.mem_cons_of_mem _ hy)]
    · cases find (a :: pat) t with
      | none => rfl
      | some k => simp [Nat.add_assoc]
    · intro hpre
      exact hx (List.cons_prefix_cons.mp (List.isPrefixOf_iff_prefix.mp hpre)).1.symm

theorem find_prefix (hp : pat ≠ []) (t : List α) : find pat (pat ++ t) = some 0 := by
  obtain ⟨x, xs, rfl⟩ := List.exists_cons_of_ne_nil hp
  rw [List.cons_append, find_cons, if_pos]
  exact List.isPrefixOf_iff_prefix.mpr (List.prefix_append (x :: xs) t)

/-- A pattern is found where it stands, if it does not begin sooner. -/
theorem find_of_not_infix (hp : pat ≠ []) (h : ¬ pat <:+: l ++ pat.dropLast) (t : List α) :
    find pat (l ++ (pat ++ t)) = some l.length := by
  induction l with
  | nil => exact find_prefix hp t
  | cons x l ih =>
    rw [List.cons_append, List.infix_cons_iff, not_or] at h
    rw [List.cons_append, find_cons, if_neg, ih h.2]
    · rfl
    · intro hpre
      -- it would end before the one behind does
      have hlong : x :: (l ++ pat.dropLast) <+: x :: (l ++ (pat ++ t)) :=
        ⟨pat.getLast hp :: t, by
          rw [List.cons_append, List.append_assoc, List.append_cons pat.dropLast,
            List.dropLast_append_getLast hp]⟩
      have hpos := List.length_pos_iff.mpr hp
      refine h.1 (List.prefix_of_prefix_length_le (List.isPrefixOf_iff_prefix.mp hpre) hlong ?_)
      simp only [List.length_cons, List.length_append, List.length_dropLast]
      omega

/-! ## One letter -/

theorem find_letter {a : α} {s : List α} (h : a ∉ s) (t : List α) :
    find [a] (s ++ a :: t) = some s.length := by
  have hskip := @find_skip α _ a [] s (fun x hx hxa => h (hxa ▸ hx)) (a :: t)
  rw [hskip]
  simp [find_cons]

theorem find_letter_none {a : α} {s : List α} (h : a ∉ s) : find [a] s = none := by
  have hskip := @find_skip α _ a [] s (fun x hx hxa => h (hxa ▸ hx)) []
  rw [List.append_nil] at hskip
  rw [hskip]
  simp [find_nil]

theorem find_letter_cases (a : α) (s : List α) :
    (∃ u v, a ∉ u ∧ s = u ++ a :: v ∧ find [a] s = some u.length) ∨
      (a ∉ s ∧ find [a] s = none) := by
  by_cases ha : a ∈ s
  · obtain ⟨u, v, rfl, hu⟩ := List.eq_append_cons_of_mem ha
    exact .inl ⟨u, v, hu, rfl, find_letter hu v⟩
  · exact .inr ⟨ha, find_letter_none ha⟩

/-- The first occurrence of a letter cuts a list in one way. -/
theorem letter_inj {a : α} {u u' v v' : List α} (hu : a ∉ u) (hu' : a ∉ u')
    (h : u ++ a :: v = u' ++ a :: v') : u = u' ∧ v = v' := by
  have hfind := congrArg (find [a]) h
  rw [find_letter hu, find_letter hu'] at hfind
  obtain ⟨rfl, hv⟩ := List.append_inj h (Option.some.inj hfind)
  exact ⟨rfl, (List.cons.inj hv).2⟩

omit [DecidableEq α] in
/-- A letter that is not around another one, but there, is that one. -/
theorem eq_of_mem_append_cons {a x : α} {u v : List α} (hu : a ∉ u) (hv : a ∉ v)
    (h : a ∈ u ++ x :: v) : x = a := by
  rcases List.mem_append.mp h with h | h
  · exact absurd h hu
  · rcases List.mem_cons.mp h with h | h
    · exact h.symm
    · exact absurd h hv

/-! ## Occurrences -/

theorem find_eq_none_iff : find pat l = none ↔ ¬ pat <:+: l := by
  induction l with
  | nil => simp [find_nil]
  | cons x xs ih =>
    rw [List.infix_cons_iff, find_cons]
    split
    · rename_i hpre
      simp [List.isPrefixOf_iff_prefix.mp hpre]
    · rename_i hpre
      rw [Option.map_eq_none_iff, ih]
      have hpre : ¬ pat <+: x :: xs := fun h => hpre (List.isPrefixOf_iff_prefix.mpr h)
      simp [hpre]

omit [DecidableEq α] in
/-- A pattern without the separator does not reach beyond it. -/
theorem prefix_of_prefix_segment {a : α} {u t : List α} (ha : a ∉ pat)
    (h : pat <+: u ++ a :: t) : pat <+: u := by
  obtain hle | hlt := Nat.lt_or_ge u.length pat.length |>.symm
  · exact List.prefix_of_prefix_length_le h (List.prefix_append u (a :: t)) hle
  · have hpre : u ++ [a] <+: pat := by
      refine List.prefix_of_prefix_length_le ?_ h (by rw [List.length_append]; exact hlt)
      exact ⟨t, by simp⟩
    exact absurd (hpre.subset (by simp)) ha

/-- A segment in which the pattern does not occur, and the separator. -/
theorem find_segment {a : α} {u : List α} (ha : a ∉ pat) (hp : pat ≠ []) (hu : ¬ pat <:+: u)
    (t : List α) : find pat (u ++ a :: t) = (find pat t).map (· + (u.length + 1)) := by
  induction u with
  | nil =>
    have hpre : ¬ pat.isPrefixOf (a :: t) = true := by
      intro h
      have hnil := prefix_of_prefix_segment (u := []) ha (List.isPrefixOf_iff_prefix.mp h)
      exact hp (List.prefix_nil.mp hnil)
    rw [List.nil_append, find_cons, if_neg hpre]
    rfl
  | cons x u ih =>
    rw [List.infix_cons_iff, not_or] at hu
    have hpre : ¬ pat.isPrefixOf (x :: (u ++ a :: t)) = true := by
      intro h
      have h := List.isPrefixOf_iff_prefix.mp h
      rw [← List.cons_append] at h
      exact hu.1 (prefix_of_prefix_segment ha h)
    rw [List.cons_append, find_cons, if_neg hpre, ih hu.2, Option.map_map]
    rfl

/-- The pattern does not occur in segments if it does not in one of them. -/
theorem not_infix_segment {a : α} {u t : List α} (ha : a ∉ pat) (hp : pat ≠ []) (hu : ¬ pat <:+: u)
    (ht : ¬ pat <:+: t) : ¬ pat <:+: u ++ a :: t := by
  rw [← find_eq_none_iff, find_segment ha hp hu, find_eq_none_iff.mpr ht]
  rfl

/-- The text of segments, each with its separator. -/
def segments (ss : List (List α × α)) : List α := ss.flatMap fun s => s.1 ++ [s.2]

theorem find_segments {ss : List (List α × α)} (hp : pat ≠ [])
    (hs : ∀ s ∈ ss, s.2 ∉ pat ∧ ¬ pat <:+: s.1) (t : List α) :
    find pat (segments ss ++ t) = (find pat t).map (· + (segments ss).length) := by
  induction ss with
  | nil => simp [segments]
  | cons s ss ih =>
    have hseg := hs s List.mem_cons_self
    have hrest := ih fun r hr => hs r (List.mem_cons_of_mem s hr)
    have htext : segments (s :: ss) ++ t = s.1 ++ s.2 :: (segments ss ++ t) := by
      simp [segments]
    rw [htext, find_segment hseg.1 hp hseg.2, hrest, Option.map_map]
    congr 1
    funext n
    simp only [segments, Function.comp_apply, List.flatMap_cons, List.length_append,
      List.length_cons, List.length_nil]
    omega

omit [DecidableEq α] in
/-- A pattern that ends in a letter is not made by text without that letter. -/
theorem not_infix_append {a : α} {w k v : List α} (hv : a ∉ v) (hk : ¬ w ++ [a] <:+: k) :
    ¬ w ++ [a] <:+: k ++ v := by
  rintro ⟨x, y, h⟩
  rw [List.append_assoc] at h
  obtain ⟨c, hx, hc⟩ | ⟨c, hx, hc⟩ := List.append_eq_append_iff.mp h
  · -- the pattern begins in front of `v`
    have h : w ++ (a :: y) = c ++ v := by simpa using hc
    obtain ⟨d, hw, hd⟩ | ⟨d, hw, hd⟩ := List.append_eq_append_iff.mp h
    · cases d with
      | nil =>
        have hd : a :: y = v := hd
        exact hv (hd ▸ List.mem_cons_self)
      | cons b d =>
        obtain ⟨rfl, hy⟩ := List.cons.inj hd
        exact hk ⟨x, d, by rw [hx, hw]; simp⟩
    · exact hv (hd ▸ by simp)
  · exact hv (hc ▸ by simp)

/-! ## Keys -/

/-- The key at the front is found, if it and the others do not begin each other. -/
theorem find?_prefix {β : Type} (key : β → List α) {xs : List β} {b : β} (hb : b ∈ xs)
    (hfree : ∀ a ∈ xs, a ≠ b → ¬ key a <+: key b ∧ ¬ key b <+: key a) (t : List α) :
    xs.find? (fun a => (key a).isPrefixOf (key b ++ t)) = some b := by
  have hself : (key b).isPrefixOf (key b ++ t) = true :=
    List.isPrefixOf_iff_prefix.mpr (List.prefix_append _ t)
  cases hfind : xs.find? fun a => (key a).isPrefixOf (key b ++ t) with
  | none => exact absurd hself (List.find?_eq_none.mp hfind b hb)
  | some a =>
    by_cases hab : a = b
    · rw [hab]
    · have hpre : (key a).isPrefixOf (key b ++ t) = true := by
        simpa using List.find?_some hfind
      have hpre := List.isPrefixOf_iff_prefix.mp hpre
      have hother := hfree a (List.mem_of_find?_eq_some hfind) hab
      rcases List.prefix_or_prefix_of_prefix hpre (List.prefix_append (key b) t) with h | h
      · exact absurd h hother.1
      · exact absurd h hother.2

end AllCamera
