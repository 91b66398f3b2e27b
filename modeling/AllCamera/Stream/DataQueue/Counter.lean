import AllCamera.Stream.DataQueue.Invariant
import Mathlib.Data.List.Basic

/-!
# The element counter of the lock-free queue

A producer stores its block first and counts it in a step of its own, and a consumer counts off what
it took in a step of its own. The block of a producer that has not counted it yet can be taken and
counted off (the counter wraps below zero), and the place that a slow consumer left can be filled
and counted before the consumer counts off (the counter passes the capacity).

* `countedInOrder`: a step that counts comes after the count that it relies on.
* `run_counter`: in every run whose steps are all such, the counter is between zero and the capacity.
-/

namespace AllCamera

namespace DataQueue

variable {τ β : Type} {q q' : DataQueue τ β} {t : τ} {n : UInt32}

/-- Thread `t` took position `k` at the tail and has not counted it yet. -/
def Entering (q : DataQueue τ β) (t : τ) (k : Nat) : Prop :=
  q.pos t = k ∧ ∃ mb, q.thread t = .enqueue mb .count ∨ ∃ i, q.thread t = .enqueue mb (.store i)

/-- Thread `t` took position `k` at the head and has not counted it off yet. -/
def Leaving (q : DataQueue τ β) (t : τ) (k : Nat) : Prop :=
  q.pos t = k ∧ (q.thread t = .dequeue .count ∨
    ∃ i, q.thread t = .dequeue (.take i) ∨ q.thread t = .dequeue (.clear i))

/-- Before a consumer counts off its position, the producer of the position has counted it; before a
producer counts a position, the consumer that made room for it has counted off. -/
def countedInOrder (unQueueSize : UInt32) (q : DataQueue τ β) : τ × Act β → Bool
  | (t, .go) =>
    match q.thread t with
    | .enqueue _ .count =>
      q.pos t < unQueueSize.toNat || q.decs.contains (q.pos t - unQueueSize.toNat)
    | .dequeue .count => q.incs.contains (q.pos t)
    | _ => true
  | _ => true

/-- The positions that were counted: each one once, those counted off among them, and at most
`unQueueSize` beyond these. -/
structure CountInv (unQueueSize : UInt32) (q : DataQueue τ β) : Prop where
  size : q.queueSize = UInt32.ofNat q.incs.length - UInt32.ofNat q.decs.length
  incs_nodup : q.incs.Nodup
  decs_nodup : q.decs.Nodup
  incs_lt : ∀ k ∈ q.incs, k < q.tails
  decs_lt : ∀ k ∈ q.decs, k < q.heads
  decs_sub : ∀ k ∈ q.decs, k ∈ q.incs
  incs_room : ∀ k ∈ q.incs, unQueueSize.toNat ≤ k → k - unQueueSize.toNat ∈ q.decs
  entering : ∀ t k, q.Entering t k → k < q.tails ∧ k ∉ q.incs
  leaving : ∀ t k, q.Leaving t k → k < q.heads ∧ k ∉ q.decs
  entering_once : ∀ t u k, q.Entering t k → q.Entering u k → t = u
  leaving_once : ∀ t u k, q.Leaving t k → q.Leaving u k → t = u

theorem init_countInv : (init n : DataQueue τ β).CountInv n := by
  refine ⟨by simp [init], List.nodup_nil, List.nodup_nil, ?_, ?_, ?_, ?_, ?_, ?_, ?_, ?_⟩
  iterate 4 exact fun k hk => absurd hk List.not_mem_nil
  · rintro t k ⟨-, mb, hm | ⟨i, hi⟩⟩
    · cases hm
    · cases hi
  · rintro t k ⟨-, hm | ⟨i, hi | hi⟩⟩
    · cases hm
    · cases hi
    · cases hi
  · rintro t u k ⟨-, mb, hm | ⟨i, hi⟩⟩
    · cases hm
    · cases hi
  · rintro t u k ⟨-, hm | ⟨i, hi | hi⟩⟩
    · cases hm
    · cases hi
    · cases hi

/-! ## The counter's value -/

/-- The counter is the number of counted blocks less the number of those counted off, and never more
than `unQueueSize`. -/
theorem CountInv.queueSize_eq (h : q.CountInv n) :
    q.decs.length ≤ q.incs.length ∧ q.queueSize.toNat = q.incs.length - q.decs.length ∧
      q.queueSize ≤ n := by
  have hle : q.decs.length ≤ q.incs.length := (h.decs_nodup.subperm h.decs_sub).length_le
  -- a counted position is one of the first `n`, or the consumer `n` places before has counted off
  have hroom : q.incs.length ≤ q.decs.length + n.toNat := by
    have hsub : q.incs ⊆ q.decs.map (· + n.toNat) ++ List.range n.toNat := by
      intro k hk
      rw [List.mem_append]
      by_cases hkn : n.toNat ≤ k
      · exact .inl (List.mem_map.mpr ⟨_, h.incs_room k hk hkn, Nat.sub_add_cancel hkn⟩)
      · exact .inr (List.mem_range.mpr (by omega))
    have := (h.incs_nodup.subperm hsub).length_le
    simpa using this
  have hn := n.toNat_lt
  have hval : q.queueSize.toNat = q.incs.length - q.decs.length := by
    rw [h.size, UInt32.toNat_sub]
    simp only [UInt32.toNat_ofNat']
    omega
  refine ⟨hle, hval, ?_⟩
  rw [UInt32.le_iff_toNat_le, hval]
  omega

/-! ## Steps -/

/-- A step of `t` that counts nothing: the other threads stay where they are, and a position that `t`
holds after it is the one it held before or a new one. -/
theorem CountInv.of_uncounted (h : q.CountInv n)
    (hincs : q'.incs = q.incs) (hdecs : q'.decs = q.decs) (hsize : q'.queueSize = q.queueSize)
    (htails : q.tails ≤ q'.tails) (hheads : q.heads ≤ q'.heads)
    (hothers : ∀ u ≠ t, q'.thread u = q.thread u ∧ q'.pos u = q.pos u)
    (henter : ∀ k, q'.Entering t k → q.Entering t k ∨ (k = q.tails ∧ q.tails < q'.tails))
    (hleave : ∀ k, q'.Leaving t k → q.Leaving t k ∨ (k = q.heads ∧ q.heads < q'.heads)) :
    q'.CountInv n := by
  have henter' : ∀ u k, q'.Entering u k →
      q.Entering u k ∨ (u = t ∧ k = q.tails ∧ q.tails < q'.tails) := by
    intro u k hu
    by_cases hut : u = t
    · subst hut
      exact (henter k hu).imp_right fun h => ⟨rfl, h⟩
    · unfold Entering at hu ⊢
      rw [(hothers u hut).1, (hothers u hut).2] at hu
      exact .inl hu
  have hleave' : ∀ u k, q'.Leaving u k →
      q.Leaving u k ∨ (u = t ∧ k = q.heads ∧ q.heads < q'.heads) := by
    intro u k hu
    by_cases hut : u = t
    · subst hut
      exact (hleave k hu).imp_right fun h => ⟨rfl, h⟩
    · unfold Leaving at hu ⊢
      rw [(hothers u hut).1, (hothers u hut).2] at hu
      exact .inl hu
  refine ⟨by rw [hsize, hincs, hdecs]; exact h.size, hincs ▸ h.incs_nodup, hdecs ▸ h.decs_nodup,
    ?_, ?_, ?_, ?_, ?_, ?_, ?_, ?_⟩
  · rw [hincs]
    exact fun k hk => Nat.lt_of_lt_of_le (h.incs_lt k hk) htails
  · rw [hdecs]
    exact fun k hk => Nat.lt_of_lt_of_le (h.decs_lt k hk) hheads
  · rw [hincs, hdecs]
    exact h.decs_sub
  · rw [hincs, hdecs]
    exact h.incs_room
  · intro u k hu
    rw [hincs]
    rcases henter' u k hu with hu | ⟨-, rfl, hlt⟩
    · exact ⟨Nat.lt_of_lt_of_le (h.entering u k hu).1 htails, (h.entering u k hu).2⟩
    · exact ⟨hlt, fun hk => Nat.lt_irrefl _ (h.incs_lt _ hk)⟩
  · intro u k hu
    rw [hdecs]
    rcases hleave' u k hu with hu | ⟨-, rfl, hlt⟩
    · exact ⟨Nat.lt_of_lt_of_le (h.leaving u k hu).1 hheads, (h.leaving u k hu).2⟩
    · exact ⟨hlt, fun hk => Nat.lt_irrefl _ (h.decs_lt _ hk)⟩
  · intro u v k hu hv
    rcases henter' u k hu with hu | ⟨rfl, rfl, -⟩ <;> rcases henter' v _ hv with hv | ⟨rfl, hk, -⟩
    · exact h.entering_once u v k hu hv
    · exact absurd (h.entering u k hu).1 (by omega)
    · exact absurd (h.entering v _ hv).1 (Nat.lt_irrefl _)
    · rfl
  · intro u v k hu hv
    rcases hleave' u k hu with hu | ⟨rfl, rfl, -⟩ <;> rcases hleave' v _ hv with hv | ⟨rfl, hk, -⟩
    · exact h.leaving_once u v k hu hv
    · exact absurd (h.leaving u k hu).1 (by omega)
    · exact absurd (h.leaving v _ hv).1 (Nat.lt_irrefl _)
    · rfl

section Steps

variable [DecidableEq τ]

/-- A step that only moves `t` to a place where it holds no position. -/
theorem CountInv.goes (h : q.CountInv n) {x : Thread β}
    (henter : ∀ mb, x ≠ .enqueue mb .count ∧ ∀ i, x ≠ .enqueue mb (.store i))
    (hleave : x ≠ .dequeue .count ∧ ∀ i, x ≠ .dequeue (.take i) ∧ x ≠ .dequeue (.clear i)) :
    (q.goes t x).CountInv n := by
  refine h.of_uncounted (t := t) rfl rfl rfl (Nat.le_refl _) (Nat.le_refl _)
    (fun u hu => ⟨Function.update_of_ne hu _ _, rfl⟩) ?_ ?_
  · rintro k ⟨-, mb, hm | ⟨i, hi⟩⟩
    · exact absurd ((thread_goes ..).symm.trans hm) (henter mb).1
    · exact absurd ((thread_goes ..).symm.trans hi) ((henter mb).2 i)
  · rintro k ⟨-, hm | ⟨i, hi | hi⟩⟩
    · exact absurd ((thread_goes ..).symm.trans hm) hleave.1
    · exact absurd ((thread_goes ..).symm.trans hi) (hleave.2 i).1
    · exact absurd ((thread_goes ..).symm.trans hi) (hleave.2 i).2

/-- What the other threads hold after a step of `t` that takes it out of its call. -/
theorem entering_of_goes_idle {u : τ} {k : Nat} (h : (q.goes t .idle).Entering u k) :
    u ≠ t ∧ q.Entering u k := by
  have hne : u ≠ t := by
    rintro rfl
    obtain ⟨-, mb, hm | ⟨i, hi⟩⟩ := h
    · simp at hm
    · simp at hi
  refine ⟨hne, ?_⟩
  unfold Entering at h ⊢
  rwa [show (q.goes t .idle).thread u = q.thread u from Function.update_of_ne hne _ _] at h

theorem leaving_of_goes_idle {u : τ} {k : Nat} (h : (q.goes t .idle).Leaving u k) :
    u ≠ t ∧ q.Leaving u k := by
  have hne : u ≠ t := by
    rintro rfl
    obtain ⟨-, hm | ⟨i, hi | hi⟩⟩ := h
    · simp at hm
    · simp at hi
    · simp at hi
  refine ⟨hne, ?_⟩
  unfold Leaving at h ⊢
  rwa [show (q.goes t .idle).thread u = q.thread u from Function.update_of_ne hne _ _] at h

/-- `atomic_inc`, in order. -/
theorem CountInv.inc (h : q.CountInv n) {mb : β} (hx : q.thread t = .enqueue mb .count)
    (hok : n.toNat ≤ q.pos t → q.pos t - n.toNat ∈ q.decs) :
    CountInv n { q.goes t .idle with queueSize := q.queueSize + 1, incs := q.incs ++ [q.pos t] } := by
  have hent : q.Entering t (q.pos t) := ⟨rfl, mb, .inl hx⟩
  obtain ⟨hlt, hnew⟩ := h.entering t _ hent
  have hmem : ∀ k, k ∈ q.incs ++ [q.pos t] ↔ k ∈ q.incs ∨ k = q.pos t := by simp
  refine ⟨?_, ?_, h.decs_nodup, ?_, h.decs_lt, ?_, ?_, ?_, ?_, ?_, ?_⟩
  · simp only [List.length_append, List.length_singleton, UInt32.ofNat_add, h.size]
    change _ = UInt32.ofNat q.incs.length + 1 - UInt32.ofNat q.decs.length
    grind
  · exact List.nodup_append_comm.mp (List.nodup_cons.mpr ⟨hnew, h.incs_nodup⟩)
  · intro k hk
    rcases (hmem k).mp hk with hk | rfl
    · exact h.incs_lt k hk
    · exact hlt
  · exact fun k hk => (hmem k).mpr (.inl (h.decs_sub k hk))
  · intro k hk
    rcases (hmem k).mp hk with hk | rfl
    · exact h.incs_room k hk
    · exact hok
  · intro u k hu
    obtain ⟨hne, hu⟩ := entering_of_goes_idle (q := q) (t := t) hu
    refine ⟨(h.entering u k hu).1, fun hk => ?_⟩
    rcases (hmem k).mp hk with hk | rfl
    · exact (h.entering u k hu).2 hk
    · exact hne (h.entering_once u t _ hu hent)
  · exact fun u k hu => h.leaving u k (leaving_of_goes_idle hu).2
  · exact fun u v k hu hv =>
      h.entering_once u v k (entering_of_goes_idle hu).2 (entering_of_goes_idle hv).2
  · exact fun u v k hu hv =>
      h.leaving_once u v k (leaving_of_goes_idle hu).2 (leaving_of_goes_idle hv).2

/-- `atomic_dec`, in order. -/
theorem CountInv.dec (h : q.CountInv n) (hx : q.thread t = .dequeue .count)
    (hok : q.pos t ∈ q.incs) :
    CountInv n { q.goes t .idle with queueSize := q.queueSize - 1, decs := q.decs ++ [q.pos t] } := by
  have hlea : q.Leaving t (q.pos t) := ⟨rfl, .inl hx⟩
  obtain ⟨hlt, hnew⟩ := h.leaving t _ hlea
  have hmem : ∀ k, k ∈ q.decs ++ [q.pos t] ↔ k ∈ q.decs ∨ k = q.pos t := by simp
  refine ⟨?_, h.incs_nodup, ?_, h.incs_lt, ?_, ?_, ?_, ?_, ?_, ?_, ?_⟩
  · simp only [List.length_append, List.length_singleton, UInt32.ofNat_add, h.size]
    change _ = UInt32.ofNat q.incs.length - (UInt32.ofNat q.decs.length + 1)
    grind
  · exact List.nodup_append_comm.mp (List.nodup_cons.mpr ⟨hnew, h.decs_nodup⟩)
  · intro k hk
    rcases (hmem k).mp hk with hk | rfl
    · exact h.decs_lt k hk
    · exact hlt
  · intro k hk
    rcases (hmem k).mp hk with hk | rfl
    · exact h.decs_sub k hk
    · exact hok
  · exact fun k hk hn => (hmem _).mpr (.inl (h.incs_room k hk hn))
  · exact fun u k hu => h.entering u k (entering_of_goes_idle hu).2
  · intro u k hu
    obtain ⟨hne, hu⟩ := leaving_of_goes_idle (q := q) (t := t) hu
    refine ⟨(h.leaving u k hu).1, fun hk => ?_⟩
    rcases (hmem k).mp hk with hk | rfl
    · exact (h.leaving u k hu).2 hk
    · exact hne (h.leaving_once u t _ hu hlea)
  · exact fun u v k hu hv =>
      h.entering_once u v k (entering_of_goes_idle hu).2 (entering_of_goes_idle hv).2
  · exact fun u v k hu hv =>
      h.leaving_once u v k (leaving_of_goes_idle hu).2 (leaving_of_goes_idle hv).2

theorem enqueueStep_countInv (h : q.CountInv n) {mb : β} {x : EnqueueAt}
    (hx : q.thread t = .enqueue mb x) (hok : q.countedInOrder n (t, .go)) :
    (q.enqueueStep t mb x).CountInv n := by
  cases x with
  | top =>
    simp only [enqueueStep]
    split <;> exact h.goes (by simp) (by simp)
  | readIndex => exact h.goes (by simp) (by simp)
  | readTag i =>
    refine h.of_uncounted (t := t) rfl rfl rfl (Nat.le_refl _) (Nat.le_refl _)
      (fun u hu => ⟨Function.update_of_ne hu _ _, Function.update_of_ne hu _ _⟩) ?_ ?_
    · rintro k ⟨-, hk⟩
      simp [enqueueStep] at hk
    · rintro k ⟨-, hk⟩
      simp [enqueueStep] at hk
  | checkFull i tag =>
    simp only [enqueueStep]
    split <;> exact h.goes (by simp) (by simp)
  | checkSlot i tag =>
    simp only [enqueueStep]
    split <;> exact h.goes (by simp) (by simp)
  | swap i tag =>
    simp only [enqueueStep]
    split
    · refine h.of_uncounted (t := t) rfl rfl rfl (by simp [tails]) (Nat.le_refl _)
        (fun u hu => ⟨Function.update_of_ne hu _ _, Function.update_of_ne hu _ _⟩) ?_ ?_
      · rintro k ⟨hk, -⟩
        exact .inr ⟨hk.symm.trans (Function.update_self ..), by simp [tails]⟩
      · rintro k ⟨-, hk⟩
        simp at hk
    · exact h.goes (by simp) (by simp)
  | store i =>
    refine h.of_uncounted (t := t) rfl rfl rfl (Nat.le_refl _) (Nat.le_refl _)
      (fun u hu => ⟨Function.update_of_ne hu _ _, rfl⟩) ?_ ?_
    · rintro k ⟨hk, -⟩
      exact .inl ⟨hk, mb, .inr ⟨i, hx⟩⟩
    · rintro k ⟨-, hk⟩
      simp [enqueueStep] at hk
  | count =>
    refine h.inc hx fun hle => ?_
    simp only [countedInOrder, hx, Bool.or_eq_true, decide_eq_true_eq, List.contains_eq_mem] at hok
    exact hok.resolve_left (Nat.not_lt.mpr hle)

theorem dequeueStep_countInv (h : q.CountInv n) {x : DequeueAt} (hx : q.thread t = .dequeue x)
    (hok : q.countedInOrder n (t, .go)) : (q.dequeueStep t x).CountInv n := by
  cases x with
  | top =>
    simp only [dequeueStep]
    split <;> exact h.goes (by simp) (by simp)
  | readIndex => exact h.goes (by simp) (by simp)
  | readTag i =>
    refine h.of_uncounted (t := t) rfl rfl rfl (Nat.le_refl _) (Nat.le_refl _)
      (fun u hu => ⟨Function.update_of_ne hu _ _, Function.update_of_ne hu _ _⟩) ?_ ?_
    · rintro k ⟨-, hk⟩
      simp [dequeueStep] at hk
    · rintro k ⟨-, hk⟩
      simp [dequeueStep] at hk
  | checkEmpty i tag =>
    simp only [dequeueStep]
    split <;> exact h.goes (by simp) (by simp)
  | checkSlot i tag =>
    simp only [dequeueStep]
    split <;> exact h.goes (by simp) (by simp)
  | swap i tag =>
    simp only [dequeueStep]
    split
    · refine h.of_uncounted (t := t) rfl rfl rfl (Nat.le_refl _) (Nat.le_succ _)
        (fun u hu => ⟨Function.update_of_ne hu _ _, Function.update_of_ne hu _ _⟩) ?_ ?_
      · rintro k ⟨-, hk⟩
        simp at hk
      · rintro k ⟨hk, -⟩
        exact .inr ⟨hk.symm.trans (Function.update_self ..), Nat.lt_succ_self _⟩
    · exact h.goes (by simp) (by simp)
  | take i =>
    refine h.of_uncounted (t := t) rfl rfl rfl (Nat.le_refl _) (Nat.le_refl _)
      (fun u hu => ⟨Function.update_of_ne hu _ _, rfl⟩) ?_ ?_
    · rintro k ⟨-, hk⟩
      simp [dequeueStep] at hk
    · exact fun k hk => .inl ⟨hk.1, .inr ⟨i, .inl hx⟩⟩
  | clear i =>
    refine h.of_uncounted (t := t) rfl rfl rfl (Nat.le_refl _) (Nat.le_refl _)
      (fun u hu => ⟨Function.update_of_ne hu _ _, rfl⟩) ?_ ?_
    · rintro k ⟨-, hk⟩
      simp [dequeueStep] at hk
    · exact fun k hk => .inl ⟨hk.1, .inr ⟨i, .inr hx⟩⟩
  | count =>
    refine h.dec hx ?_
    simpa only [countedInOrder, hx, List.contains_eq_mem, decide_eq_true_eq] using hok

/-- A step that counts in order, or does not count, keeps the invariant. -/
theorem step_countInv (h : q.CountInv n) (a : τ × Act β) (hok : q.countedInOrder n a) :
    (q.step a).CountInv n := by
  obtain ⟨t, a⟩ := a
  cases a with
  | enqueue_tail mb =>
    simp only [step]
    split
    · split
      · exact h
      · refine h.of_uncounted (t := t) rfl rfl rfl (Nat.le_refl _) (Nat.le_refl _)
          (fun u hu => ⟨Function.update_of_ne hu _ _, rfl⟩) ?_ ?_
        · rintro k ⟨-, hk⟩
          simp at hk
        · rintro k ⟨-, hk⟩
          simp at hk
    · exact h
  | dequeue_head =>
    simp only [step]
    split
    · split
      · exact h
      · refine h.of_uncounted (t := t) rfl rfl rfl (Nat.le_refl _) (Nat.le_refl _)
          (fun u hu => ⟨Function.update_of_ne hu _ _, rfl⟩) ?_ ?_
        · rintro k ⟨-, hk⟩
          simp at hk
        · rintro k ⟨-, hk⟩
          simp at hk
    · exact h
  | go =>
    simp only [step]
    split
    · exact h
    · rename_i mb x hx
      exact enqueueStep_countInv h hx hok
    · rename_i x hx
      exact dequeueStep_countInv h hx hok
  | timeout =>
    simp only [step]
    split
    · exact h.goes (by simp) (by simp)
    · exact h.goes (by simp) (by simp)
    · exact h
  | close =>
    exact h.of_uncounted (t := t) rfl rfl rfl (Nat.le_refl _) (Nat.le_refl _)
      (fun u hu => ⟨rfl, rfl⟩) (fun k hk => .inl hk) (fun k hk => .inl hk)

/-- **Counter.** For every number of threads and every interleaving of their steps in which each
count comes after the one it relies on: the counter is the number of blocks counted less the number
counted off, it has not wrapped, and it is at most the capacity. -/
theorem run_counter (n : UInt32) (as : List (τ × Act β))
    (h : Run.Allowed step (fun q a => q.countedInOrder n a) (init n) as) :
    let q := Run.run step (init n) as
    q.decs.length ≤ q.incs.length ∧ q.queueSize.toNat = q.incs.length - q.decs.length ∧
      q.queueSize ≤ n :=
  CountInv.queueSize_eq (h.invariant init_countInv fun _ a hs hok => step_countInv hs a hok)

end Steps

theorem run_counter_contended :
    (Run.run step (init 1) contended).incs = [0, 1] ∧ (Run.run step (init 1) contended).decs = [0, 1] ∧
      (Run.run step (init 1) contended).queueSize ≤ 1 :=
  ⟨by decide +kernel, by decide +kernel, (run_counter 1 contended (by decide +kernel)).2.2⟩

/-- The consumer takes the block between the producer's store and its count. -/
def earlyTake : List (Bool × Act Nat) :=
  (false, .enqueue_tail 7) :: List.replicate 7 (false, .go) ++
    (true, .dequeue_head) :: List.replicate 9 (true, .go)

theorem counter_wraps_earlyTake :
    (Run.run step (init 1) earlyTake).queueSize = 4294967295 ∧
      ¬ (Run.run step (init 1) earlyTake).queueSize ≤ 1 := by
  decide

end DataQueue

end AllCamera
