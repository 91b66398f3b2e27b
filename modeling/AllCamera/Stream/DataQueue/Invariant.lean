import AllCamera.Stream.DataQueue
import Mathlib.Data.List.Nodup
import Mathlib.Data.Nat.ModEq
import Mathlib.Data.Fintype.Basic

/-!
# The lock-free queue keeps its blocks

Position `k` is what the `k`-th successful swap of an index takes: the producer's swap number `k`
gives it slot `k % n`, and the consumer's swap number `k` gives it the same slot. Tags make sure
that an index has not moved between a thread's read of the tag and its swap, so what the thread saw
in between still tells something: a producer that found its slot empty knows that the consumer of
the position one lap before has cleared it; a consumer that found its slot filled knows that the
producer of its position has stored.

* `ThreadInv q t`: what thread `t` knows, by its place in the code.
* `Inv q`: the ring, and what every thread knows. `step_inv` keeps it.
* `run_exchanges`: blocks come out once, in the order of the tail swaps, and stay in their slots
  until then.
-/

namespace AllCamera

namespace DataQueue

variable {τ β : Type} {q q' : DataQueue τ β} {t u : τ}

/-- The length of the ring. -/
def ring (q : DataQueue τ β) : Nat := q.arraySize.toNat

/-- The positions that producers took. -/
def tails (q : DataQueue τ β) : Nat := q.entered.length

/-- Thread `t` took position `k` and is about to store its block. -/
def Storing (q : DataQueue τ β) (t : τ) (k : Nat) : Prop :=
  q.pos t = k ∧ ∃ mb i, q.thread t = .enqueue mb (.store i)

/-- Thread `t` took position `k` and is about to read its slot or to clear it. -/
def Holding (q : DataQueue τ β) (t : τ) (k : Nat) : Prop :=
  q.pos t = k ∧ ∃ i, q.thread t = .dequeue (.take i) ∨ q.thread t = .dequeue (.clear i)

/-- The positions that consumers read. -/
def readPositions (q : DataQueue τ β) : List Nat := q.returned.map Prod.fst

/-- A producer's read of the tag, `tag`. -/
structure SeenTail (q : DataQueue τ β) (t : τ) (tag : UInt32) : Prop where
  tag : tag.toNat = q.pos t % 2 ^ 32
  pos_le : q.pos t ≤ q.tails
  began : q.began t ≤ q.pos t + q.heads

/-- A consumer's read of the tag, `tag`. -/
structure SeenHead (q : DataQueue τ β) (t : τ) (tag : UInt32) : Prop where
  tag : tag.toNat = q.pos t % 2 ^ 32
  pos_le : q.pos t ≤ q.heads
  began : q.began t ≤ q.pos t + q.tails

/-- There is room for one more block, if no producer has moved the index since `t` read the tag. -/
def SawRoom (q : DataQueue τ β) (t : τ) : Prop :=
  q.pos t = q.tails → q.tails + 1 < q.heads + q.ring

/-- The slot is free, if no producer has moved the index since. -/
def SawFree (q : DataQueue τ β) (t : τ) : Prop :=
  q.pos t = q.tails → q.ring ≤ q.tails → q.cleared (q.tails - q.ring) = true

/-- There is a block, if no consumer has moved the index since. -/
def SawBlock (q : DataQueue τ β) (t : τ) : Prop := q.pos t = q.heads → q.heads < q.tails

/-- The block is stored, if no consumer has moved the index since. -/
def SawStored (q : DataQueue τ β) (t : τ) : Prop := q.pos t = q.heads → q.stored q.heads = true

/-- What a thread knows. The index that it read before the tag is the current one only if it is
found so by the swap. -/
def ThreadInv (q : DataQueue τ β) (t : τ) : Prop :=
  match q.thread t with
  | .enqueue _ (.checkFull _ tag) => q.SeenTail t tag
  | .enqueue _ (.checkSlot i tag) =>
    q.SeenTail t tag ∧ (i.toNat = q.pos t % q.ring → q.SawRoom t)
  | .enqueue _ (.swap i tag) =>
    q.SeenTail t tag ∧ (i.toNat = q.pos t % q.ring → q.SawRoom t ∧ q.SawFree t)
  | .enqueue mb (.store i) =>
    q.pos t < q.tails ∧ i.toNat = q.pos t % q.ring ∧ q.entered[q.pos t]? = some mb ∧
      q.stored (q.pos t) = false
  | .dequeue (.checkEmpty _ tag) => q.SeenHead t tag
  | .dequeue (.checkSlot i tag) =>
    q.SeenHead t tag ∧ (i.toNat = q.pos t % q.ring → q.SawBlock t)
  | .dequeue (.swap i tag) =>
    q.SeenHead t tag ∧ (i.toNat = q.pos t % q.ring → q.SawBlock t ∧ q.SawStored t)
  | .dequeue (.take i) =>
    q.pos t < q.heads ∧ i.toNat = q.pos t % q.ring ∧ q.cleared (q.pos t) = false ∧
      q.pos t ∉ q.readPositions
  | .dequeue (.clear i) =>
    q.pos t < q.heads ∧ i.toNat = q.pos t % q.ring ∧ q.cleared (q.pos t) = false ∧
      q.pos t ∈ q.readPositions
  | _ => True

/-- The ring: the indexes and tags count the swaps, the positions in use fit, and a slot holds the
block of the last position that it was taken for, from its producer's store to its consumer's
clear. -/
structure RingInv (q : DataQueue τ β) : Prop where
  pos : 0 < q.ring
  writeIndex : q.writeIndex.toNat = q.tails % q.ring
  writeTag : q.writeTag.toNat = q.tails % 2 ^ 32
  readIndex : q.readIndex.toNat = q.heads % q.ring
  readTag : q.readTag.toNat = q.heads % 2 ^ 32
  heads_le : q.heads ≤ q.tails
  room : q.tails < q.heads + q.ring
  lap : ∀ k, k + q.ring < q.tails → q.cleared k = true
  slot : ∀ k < q.tails, q.tails ≤ k + q.ring →
    q.dataArray (k % q.ring) = if q.stored k ∧ q.cleared k = false then q.entered[k]? else none
  unused : ∀ i, q.tails ≤ i → i < q.ring → q.dataArray i = none
  stored_lt : ∀ k, q.stored k = true → k < q.tails
  stored_of_lt : ∀ k < q.heads, q.stored k = true
  cleared_lt : ∀ k, q.cleared k = true → k < q.heads ∧ k ∈ q.readPositions
  returned : ∀ e ∈ q.returned, e.1 < q.heads ∧ e.2 = q.entered[e.1]?
  once : q.readPositions.Nodup

/-- The invariant. -/
structure Inv (q : DataQueue τ β) : Prop where
  ring : q.RingInv
  thread : ∀ t, q.ThreadInv t
  began : ∀ t, q.began t ≤ q.swaps
  storing : ∀ t u k, q.Storing t k → q.Storing u k → t = u
  holding : ∀ t u k, q.Holding t k → q.Holding u k → t = u

/-! ## Frames -/

/-- The shared part of `q'` continues that of `q`. -/
structure Extends (q q' : DataQueue τ β) : Prop where
  arraySize : q'.arraySize = q.arraySize
  heads : q.heads ≤ q'.heads
  entered : q.entered <+: q'.entered
  stored : ∀ k, q.stored k = true → q'.stored k = true
  cleared : ∀ k, q.cleared k = true → q'.cleared k = true

theorem Extends.ring (h : Extends q q') : q'.ring = q.ring := by
  unfold DataQueue.ring
  rw [h.arraySize]

theorem Extends.tails (h : Extends q q') : q.tails ≤ q'.tails := h.entered.length_le

/-- The thread `u` is in `q'` where it was in `q`. -/
structure Stays (q q' : DataQueue τ β) (u : τ) : Prop where
  thread : q'.thread u = q.thread u
  pos : q'.pos u = q.pos u
  began : q'.began u = q.began u

theorem Stays.storing {k : Nat} (h : Stays q q' u) : q'.Storing u k ↔ q.Storing u k := by
  unfold Storing
  rw [h.thread, h.pos]

theorem Stays.holding {k : Nat} (h : Stays q q' u) : q'.Holding u k ↔ q.Holding u k := by
  unfold Holding
  rw [h.thread, h.pos]

theorem SeenTail.frame {tag : UInt32} (hs : q.SeenTail u tag) (h : Extends q q') (hu : Stays q q' u) :
    q'.SeenTail u tag := by
  obtain ⟨h1, h2, h3⟩ := hs
  have := h.tails
  have := h.heads
  exact ⟨by rw [hu.pos]; exact h1, by rw [hu.pos]; omega, by rw [hu.pos, hu.began]; omega⟩

theorem SeenHead.frame {tag : UInt32} (hs : q.SeenHead u tag) (h : Extends q q') (hu : Stays q q' u) :
    q'.SeenHead u tag := by
  obtain ⟨h1, h2, h3⟩ := hs
  have := h.tails
  have := h.heads
  exact ⟨by rw [hu.pos]; exact h1, by rw [hu.pos]; omega, by rw [hu.pos, hu.began]; omega⟩

section Saw

variable (h : Extends q q') (hu : Stays q q' u)
include h hu

theorem SawRoom.frame (hs : q.SawRoom u) (hle : q.pos u ≤ q.tails) : q'.SawRoom u := by
  have ht := h.tails
  have hh := h.heads
  intro hp
  rw [hu.pos] at hp
  have := hs (by omega)
  rw [h.ring]
  omega

theorem SawFree.frame (hs : q.SawFree u) (hle : q.pos u ≤ q.tails) : q'.SawFree u := by
  have ht := h.tails
  intro hp hr
  rw [hu.pos] at hp
  have heq : q'.tails = q.tails := by omega
  rw [h.ring, heq] at hr ⊢
  exact h.cleared _ (hs (by omega) hr)

theorem SawBlock.frame (hs : q.SawBlock u) (hle : q.pos u ≤ q.heads) : q'.SawBlock u := by
  have ht := h.tails
  have hh := h.heads
  intro hp
  rw [hu.pos] at hp
  have := hs (by omega)
  omega

theorem SawStored.frame (hs : q.SawStored u) (hle : q.pos u ≤ q.heads) : q'.SawStored u := by
  have hh := h.heads
  intro hp
  rw [hu.pos] at hp
  have heq : q'.heads = q.heads := by omega
  rw [heq]
  exact h.stored _ (hs (by omega))

end Saw

/-- What a thread knows stays true while others step, unless they store, read or clear at the
position that it took. -/
theorem ThreadInv.frame (hi : q.ThreadInv u) (h : Extends q q') (hu : Stays q q' u)
    (hst : q.Storing u (q.pos u) → q'.stored (q.pos u) = q.stored (q.pos u))
    (hho : q.Holding u (q.pos u) → q'.cleared (q.pos u) = q.cleared (q.pos u) ∧
      (q.pos u ∈ q'.readPositions ↔ q.pos u ∈ q.readPositions)) : q'.ThreadInv u := by
  have ht := h.tails
  have hh := h.heads
  have hent : ∀ {k : Nat} {b : β}, q.entered[k]? = some b → q'.entered[k]? = some b := by
    intro k b hk
    obtain ⟨r, hr⟩ := h.entered
    rw [← hr, List.getElem?_append_left (List.getElem?_eq_some_iff.mp hk).1]
    exact hk
  cases hx : q.thread u with
  | idle => simp only [ThreadInv, hu.thread, hx]
  | enqueue mb x =>
    cases x <;> simp only [ThreadInv, hu.thread, hx, hu.pos, h.ring] at hi ⊢
    case checkFull => exact hi.frame h hu
    case checkSlot => exact ⟨hi.1.frame h hu, fun hq => (hi.2 hq).frame h hu hi.1.pos_le⟩
    case swap =>
      refine ⟨hi.1.frame h hu, fun hq => ?_⟩
      exact ⟨(hi.2 hq).1.frame h hu hi.1.pos_le, (hi.2 hq).2.frame h hu hi.1.pos_le⟩
    case store =>
      obtain ⟨h1, h2, h3, h4⟩ := hi
      exact ⟨by omega, h2, hent h3, (hst ⟨rfl, mb, _, hx⟩).trans h4⟩
  | dequeue x =>
    cases x <;> simp only [ThreadInv, hu.thread, hx, hu.pos, h.ring] at hi ⊢
    case checkEmpty => exact hi.frame h hu
    case checkSlot => exact ⟨hi.1.frame h hu, fun hq => (hi.2 hq).frame h hu hi.1.pos_le⟩
    case swap =>
      refine ⟨hi.1.frame h hu, fun hq => ?_⟩
      exact ⟨(hi.2 hq).1.frame h hu hi.1.pos_le, (hi.2 hq).2.frame h hu hi.1.pos_le⟩
    case take =>
      obtain ⟨h1, h2, h3, h4⟩ := hi
      obtain ⟨hc, hr⟩ := hho ⟨rfl, _, .inl hx⟩
      exact ⟨by omega, h2, hc.trans h3, fun hm => h4 (hr.mp hm)⟩
    case clear =>
      obtain ⟨h1, h2, h3, h4⟩ := hi
      obtain ⟨hc, hr⟩ := hho ⟨rfl, _, .inr hx⟩
      exact ⟨by omega, h2, hc.trans h3, hr.mpr h4⟩

/-! ## One step -/

/-- A step of thread `t` keeps the invariant if it keeps the ring, `t` knows what its new place
asks, and it disturbs no other thread at its position. -/
theorem Inv.of_step (h : q.Inv) (hring : q'.RingInv) (hext : Extends q q')
    (hstay : ∀ u, u ≠ t → Stays q q' u) (hthread : q'.ThreadInv t) (hbegan : q'.began t ≤ q'.swaps)
    (hst : ∀ u k, u ≠ t → q.Storing u k → q'.stored k = q.stored k ∧ ¬ q'.Storing t k)
    (hho : ∀ u k, u ≠ t → q.Holding u k → q'.cleared k = q.cleared k ∧
      (k ∈ q'.readPositions ↔ k ∈ q.readPositions) ∧ ¬ q'.Holding t k) : q'.Inv := by
  have hother : ∀ u v k, q'.Storing u k → q'.Storing v k → u ≠ t → v = t → False := by
    rintro u v k hu hv hne rfl
    exact (hst u k hne ((hstay u hne).storing.mp hu)).2 hv
  have hother' : ∀ u v k, q'.Holding u k → q'.Holding v k → u ≠ t → v = t → False := by
    rintro u v k hu hv hne rfl
    exact (hho u k hne ((hstay u hne).holding.mp hu)).2.2 hv
  refine ⟨hring, fun u => ?_, fun u => ?_, fun u v k hu hv => ?_, fun u v k hu hv => ?_⟩
  · by_cases hu : u = t
    · exact hu ▸ hthread
    · refine (h.thread u).frame hext (hstay u hu) (fun hs => (hst u _ hu hs).1) fun hs => ?_
      obtain ⟨h1, h2, -⟩ := hho u _ hu hs
      exact ⟨h1, h2⟩
  · by_cases hu : u = t
    · exact hu ▸ hbegan
    · rw [(hstay u hu).began]
      exact Nat.le_trans (h.began u) (Nat.add_le_add hext.tails hext.heads)
  · by_cases hut : u = t
    · by_cases hvt : v = t
      · exact hut.trans hvt.symm
      · exact (hother v u k hv hu hvt hut).elim
    · by_cases hvt : v = t
      · exact (hother u v k hu hv hut hvt).elim
      · exact h.storing u v k ((hstay u hut).storing.mp hu) ((hstay v hvt).storing.mp hv)
  · by_cases hut : u = t
    · by_cases hvt : v = t
      · exact hut.trans hvt.symm
      · exact (hother' v u k hv hu hvt hut).elim
    · by_cases hvt : v = t
      · exact (hother' u v k hu hv hut hvt).elim
      · exact h.holding u v k ((hstay u hut).holding.mp hu) ((hstay v hvt).holding.mp hv)

/-- The members that `RingInv` is about, and the history of the slots. -/
structure SameRing (q q' : DataQueue τ β) : Prop where
  writeIndex : q'.writeIndex = q.writeIndex
  writeTag : q'.writeTag = q.writeTag
  readIndex : q'.readIndex = q.readIndex
  readTag : q'.readTag = q.readTag
  arraySize : q'.arraySize = q.arraySize
  dataArray : q'.dataArray = q.dataArray
  entered : q'.entered = q.entered
  heads : q'.heads = q.heads
  returned : q'.returned = q.returned
  stored : q'.stored = q.stored
  cleared : q'.cleared = q.cleared

theorem SameRing.extends (h : SameRing q q') : Extends q q' :=
  ⟨h.arraySize, Nat.le_of_eq h.heads.symm, h.entered ▸ List.prefix_refl _, fun _ hk => h.stored ▸ hk,
    fun _ hk => h.cleared ▸ hk⟩

theorem SameRing.tails (h : SameRing q q') : q'.tails = q.tails := by
  unfold DataQueue.tails
  rw [h.entered]

theorem SameRing.ringInv (h : SameRing q q') (hq : q.RingInv) : q'.RingInv := by
  have hr := h.extends.ring
  have ht := h.tails
  obtain ⟨h1, h2, h3, h4, h5, h6, h7, h8, h9, h10, h11, h12, h13, h14, h15⟩ := hq
  constructor <;>
    simp only [readPositions, hr, ht, h.writeIndex, h.writeTag, h.readIndex, h.readTag, h.dataArray,
      h.entered, h.heads, h.returned, h.stored, h.cleared] at * <;> assumption

/-- A step of thread `t` that leaves the ring as it is, to a place at which `t` holds no position. -/
theorem Inv.of_sameRing (h : q.Inv) (hs : SameRing q q') (hstay : ∀ u, u ≠ t → Stays q q' u)
    (hthread : q'.ThreadInv t) (hbegan : q'.began t ≤ q'.swaps)
    (hst : ∀ mb i, q'.thread t ≠ .enqueue mb (.store i))
    (hho : ∀ i, q'.thread t ≠ .dequeue (.take i) ∧ q'.thread t ≠ .dequeue (.clear i)) : q'.Inv := by
  refine h.of_step (hs.ringInv h.ring) hs.extends hstay hthread hbegan
    (fun u k _ _ => ⟨by rw [hs.stored], ?_⟩) fun u k _ _ =>
      ⟨by rw [hs.cleared], by unfold readPositions; rw [hs.returned], ?_⟩
  · rintro ⟨-, mb, i, hi⟩
    exact hst mb i hi
  · rintro ⟨-, i, hi | hi⟩
    · exact (hho i).1 hi
    · exact (hho i).2 hi

section Knowledge

variable {i tag : UInt32}

/-- The next index, as the code computes it. -/
theorem RingInv.next_index (h : q.RingInv) {k : Nat} (hi : i.toNat = k % q.ring) :
    ((i + 1) % q.arraySize).toNat = (k + 1) % q.ring := by
  have h1 : k % q.ring < q.ring := Nat.mod_lt _ h.pos
  have h2 : q.ring < 2 ^ 32 := UInt32.toNat_lt _
  have h3 : (i + 1).toNat = k % q.ring + 1 := by
    rw [UInt32.toNat_add, hi]
    exact Nat.mod_eq_of_lt (by simpa using by omega)
  rw [UInt32.toNat_mod, h3]
  exact Nat.mod_add_mod k q.ring 1

/-- The ring is not full. -/
theorem RingInv.sawRoom (h : q.RingInv) (hi : i.toNat = q.pos t % q.ring)
    (hne : (i + 1) % q.arraySize ≠ q.readIndex) : q.SawRoom t := by
  intro hp
  have hmod : (q.tails + 1) % q.ring ≠ q.heads % q.ring := by
    rw [← hp, ← h.next_index hi, ← h.readIndex]
    exact fun heq => hne (UInt32.toNat_inj.mp heq)
  have := h.room
  rcases Nat.lt_or_eq_of_le (show q.tails + 1 ≤ q.heads + q.ring by omega) with hlt | heq
  · exact hlt
  · exact absurd (by rw [heq, Nat.add_mod_right]) hmod

/-- The slot is empty: the consumer of the position one lap before has cleared it. -/
theorem RingInv.sawFree (h : q.RingInv) (hi : i.toNat = q.pos t % q.ring) (hroom : q.SawRoom t)
    (hnone : q.dataArray i.toNat = none) : q.SawFree t := by
  intro hp hlap
  have hlt := hroom hp
  have hslot := h.slot (q.tails - q.ring) (by have := h.pos; omega) (by omega)
  rw [← Nat.mod_eq_sub_mod hlap, ← hp, ← hi, hnone, hp,
    h.stored_of_lt (q.tails - q.ring) (by omega)] at hslot
  by_contra hc
  rw [if_pos ⟨rfl, Bool.eq_false_iff.mpr hc⟩] at hslot
  have hsome := List.getElem?_eq_none_iff.mp hslot.symm
  have := h.pos
  simp only [DataQueue.tails] at *
  omega

/-- The ring is not empty. -/
theorem RingInv.sawBlock (h : q.RingInv) (hi : i.toNat = q.pos t % q.ring)
    (hne : i ≠ q.writeIndex) : q.SawBlock t := by
  intro hp
  rcases Nat.lt_or_eq_of_le h.heads_le with hlt | heq
  · exact hlt
  · refine absurd (UInt32.toNat_inj.mp ?_) hne
    rw [hi, hp, heq, h.writeIndex]

/-- The slot is filled: the producer of the position has stored its block. -/
theorem RingInv.sawStored (h : q.RingInv) (hi : i.toNat = q.pos t % q.ring) (hblock : q.SawBlock t)
    (hsome : q.dataArray i.toNat ≠ none) : q.SawStored t := by
  intro hp
  have hlt := hblock hp
  have hslot := h.slot q.heads hlt (by have := h.room; omega)
  rw [hi, hp, hslot] at hsome
  split at hsome
  · rename_i hs
    exact hs.1
  · exact absurd rfl hsome

/-- A tag that is still the current one: the index has not moved since it was read. -/
theorem RingInv.tail_current (h : q.RingInv) (hs : q.SeenTail t tag) (hf : q.TagsFresh)
    (hx : q.thread t ≠ .idle) (htag : q.writeTag = tag) : q.pos t = q.tails := by
  have h1 := h.writeTag
  obtain ⟨h2, h3, h4⟩ := hs
  have h5 := hf t hx
  rw [htag, h2] at h1
  simp only [swaps, tails] at *
  omega

theorem RingInv.head_current (h : q.RingInv) (hs : q.SeenHead t tag) (hf : q.TagsFresh)
    (hx : q.thread t ≠ .idle) (htag : q.readTag = tag) : q.pos t = q.heads := by
  have h1 := h.readTag
  obtain ⟨h2, h3, h4⟩ := hs
  have h5 := hf t hx
  rw [htag, h2] at h1
  simp only [swaps, tails] at *
  omega

/-- Two positions of one lap in the same slot. -/
theorem eq_of_mod_eq {a j k n : Nat} (hj : a ≤ j + n) (hja : j < a) (hk : a ≤ k + n) (hka : k < a)
    (h : j % n = k % n) : j = k :=
  Nat.ModEq.eq_of_abs_lt h (by rw [abs_lt]; omega)

theorem RingInv.le_of_not_cleared (h : q.RingInv) {k : Nat} (hc : q.cleared k = false) :
    q.tails ≤ k + q.ring := by
  by_contra hlt
  rw [h.lap k (by omega)] at hc
  cases hc

theorem RingInv.not_cleared (h : q.RingInv) {k : Nat} (hk : q.heads ≤ k) : q.cleared k = false := by
  by_contra hc
  have := (h.cleared_lt k (by simpa using hc)).1
  omega

theorem RingInv.not_stored (h : q.RingInv) {k : Nat} (hk : q.tails ≤ k) : q.stored k = false := by
  by_contra hc
  have := h.stored_lt k (by simpa using hc)
  omega

/-- The slot of the next position is empty when a producer takes it. -/
theorem RingInv.next_slot (h : q.RingInv)
    (hfree : q.ring ≤ q.tails → q.cleared (q.tails - q.ring) = true) :
    q.dataArray (q.tails % q.ring) = none := by
  by_cases hlap : q.ring ≤ q.tails
  · rw [Nat.mod_eq_sub_mod hlap, h.slot _ (by have := h.pos; omega) (by omega), hfree hlap]
    simp
  · rw [Nat.mod_eq_of_lt (by omega)]
    exact h.unused _ (Nat.le_refl _) (by omega)

/-- The ring after the swap of the write index. -/
theorem RingInv.tail_swap (h : q.RingInv) (hidx : q.writeIndex.toNat = q.tails % q.ring)
    (hroom : q.tails + 1 < q.heads + q.ring)
    (hfree : q.ring ≤ q.tails → q.cleared (q.tails - q.ring) = true) (mb : β)
    (f : τ → Thread β) (p : τ → Nat) : RingInv { q with
      thread := f
      writeIndex := (q.writeIndex + 1) % q.arraySize
      writeTag := q.writeTag + 1
      pos := p
      entered := q.entered ++ [mb] } := by
  have hring : q.ring = q.arraySize.toNat := rfl
  have htails : q.tails = q.entered.length := rfl
  have ht : (q.entered ++ [mb]).length = q.entered.length + 1 := by simp
  have hbefore : ∀ k < q.tails, (q.entered ++ [mb])[k]? = q.entered[k]? :=
    fun k hk => List.getElem?_append_left hk
  refine ⟨h.pos, ?_, ?_, h.readIndex, h.readTag, ?_, ?_, ?_, ?_, ?_, ?_, h.stored_of_lt,
    h.cleared_lt, ?_, h.once⟩ <;> simp only [DataQueue.tails, DataQueue.ring, ht]
  · exact h.next_index hidx
  · rw [UInt32.toNat_add, h.writeTag]
    exact Nat.mod_add_mod _ _ _
  · have := h.heads_le
    omega
  · exact hroom
  · intro k hk
    by_cases hlast : k + q.ring = q.tails
    · rw [show k = q.tails - q.ring by omega]
      exact hfree (by omega)
    · exact h.lap k (by omega)
  · intro k hk hlap
    by_cases hlast : k = q.tails
    · have hempty := h.next_slot hfree
      rw [hlast, h.not_stored (Nat.le_refl _)]
      exact hempty
    · rw [hbefore k (by omega)]
      exact h.slot k (by omega) (by omega)
  · intro k hk hlt
    exact h.unused k (by omega) hlt
  · intro k hk
    have := h.stored_lt k hk
    omega
  · intro e he
    obtain ⟨h1, h2⟩ := h.returned e he
    have := h.heads_le
    exact ⟨h1, by rw [hbefore e.1 (by omega)]; exact h2⟩

end Knowledge

section Steps

variable [DecidableEq τ] {x : Thread β} {mb : β} {i tag : UInt32}

@[simp] theorem thread_goes : (q.goes t x).thread t = x := Function.update_self _ _ _

theorem stays_goes (hu : u ≠ t) : Stays q (q.goes t x) u :=
  ⟨Function.update_of_ne hu _ _, rfl, rfl⟩

/-- A step of thread `t` that only changes its place, to one at which it holds no position. -/
theorem Inv.goes (h : q.Inv) (hthread : (q.goes t x).ThreadInv t)
    (hst : ∀ mb i, x ≠ .enqueue mb (.store i))
    (hho : ∀ i, x ≠ .dequeue (.take i) ∧ x ≠ .dequeue (.clear i)) : (q.goes t x).Inv := by
  refine h.of_sameRing ⟨rfl, rfl, rfl, rfl, rfl, rfl, rfl, rfl, rfl, rfl, rfl⟩
    (fun u hu => stays_goes hu) hthread (h.began t) ?_ ?_
  · rw [thread_goes]; exact hst
  · rw [thread_goes]; exact hho

/-! ## Steps of a producer -/

/-- The swap of the write index. -/
theorem Inv.tail_swap (h : q.Inv) (hx : q.thread t = .enqueue mb (.swap i tag)) (hf : q.TagsFresh)
    (hi : q.writeIndex = i) (htag : q.writeTag = tag) :
    Inv { q.goes t (.enqueue mb (.store i)) with
      writeIndex := (i + 1) % q.arraySize
      writeTag := tag + 1
      pos := Function.update q.pos t q.entered.length
      entered := q.entered ++ [mb] } := by
  obtain ⟨hs, hsaw⟩ : q.SeenTail t tag ∧ (i.toNat = q.pos t % q.ring → q.SawRoom t ∧ q.SawFree t) := by
    have := h.thread t
    simpa only [ThreadInv, hx] using this
  have hr := h.ring
  have hpos := hr.tail_current hs hf (by rw [hx]; simp) htag
  subst hi htag
  obtain ⟨hroom, hfree⟩ := hsaw (hpos ▸ hr.writeIndex)
  have htail : ∀ {u k}, q.Storing u k → k ≠ q.tails := by
    rintro u k ⟨rfl, mb', i', hu⟩
    have := h.thread u
    simp only [ThreadInv, hu] at this
    omega
  refine h.of_step (hr.tail_swap hr.writeIndex (hroom hpos) (hfree hpos) mb _ _)
    ⟨rfl, Nat.le_refl _, List.prefix_append _ _, fun _ h => h, fun _ h => h⟩
    (fun u hu => ⟨Function.update_of_ne hu _ _, Function.update_of_ne hu _ _, rfl⟩) ?_ ?_ ?_ ?_
  · simp only [ThreadInv, thread_goes, Function.update_self]
    refine ⟨?_, hr.writeIndex, ?_, hr.not_stored (Nat.le_refl _)⟩
    · simp [DataQueue.tails]
    · simp
  · refine Nat.le_trans (h.began t) (Nat.add_le_add_right ?_ _)
    simp
  · intro u k _ hu
    refine ⟨rfl, fun hk => htail hu ?_⟩
    rw [← hk.1]
    exact Function.update_self _ _ _
  · refine fun u k _ _ => ⟨rfl, Iff.rfl, ?_⟩
    rintro ⟨-, j, hj | hj⟩ <;> simp at hj

/-- The store of the block. -/
theorem Inv.store (h : q.Inv) (hx : q.thread t = .enqueue mb (.store i)) :
    Inv { q.goes t (.enqueue mb .count) with
      dataArray := Function.update q.dataArray i.toNat (some mb)
      stored := Function.update q.stored (q.pos t) true } := by
  obtain ⟨hlt, hidx, hmb, hst⟩ : q.pos t < q.tails ∧ i.toNat = q.pos t % q.ring ∧
      q.entered[q.pos t]? = some mb ∧ q.stored (q.pos t) = false := by
    have := h.thread t
    simpa only [ThreadInv, hx] using this
  have hr := h.ring
  have hle : q.heads ≤ q.pos t := by
    by_contra hc
    rw [hr.stored_of_lt _ (by omega)] at hst
    cases hst
  have hcl := hr.not_cleared hle
  have hup : ∀ k, q.stored k = true → Function.update q.stored (q.pos t) true k = true := by
    intro k hk
    by_cases hk' : k = q.pos t
    · rw [hk', Function.update_self]
    · rw [Function.update_of_ne hk', hk]
  refine h.of_step ⟨hr.pos, hr.writeIndex, hr.writeTag, hr.readIndex, hr.readTag, hr.heads_le, hr.room,
    hr.lap, ?_, ?_, ?_, fun k hk => hup k (hr.stored_of_lt k hk), hr.cleared_lt, hr.returned, hr.once⟩
    ⟨rfl, Nat.le_refl _, List.prefix_refl _, hup, fun _ h => h⟩
    (fun u hu => ⟨Function.update_of_ne hu _ _, rfl, rfl⟩) ?_ (h.began t) ?_ ?_
  · intro k hk hlap
    change Function.update q.dataArray i.toNat (some mb) (k % q.ring) = if Function.update q.stored
      (q.pos t) true k = true ∧ q.cleared k = false then q.entered[k]? else none
    by_cases hkp : k = q.pos t
    · rw [hkp, ← hidx, Function.update_self, Function.update_self, if_pos ⟨rfl, hcl⟩, hmb]
    · have hne : k % q.ring ≠ i.toNat := fun heq =>
        hkp (eq_of_mod_eq hlap hk (hr.le_of_not_cleared hcl) hlt (heq.trans hidx))
      rw [Function.update_of_ne hne, Function.update_of_ne hkp]
      exact hr.slot k hk hlap
  · intro k hk hlt'
    change Function.update q.dataArray i.toNat (some mb) k = none
    have hkt : q.tails ≤ k := hk
    have hkr : k < q.ring := hlt'
    rw [Function.update_of_ne]
    · exact hr.unused k hk hlt'
    · rw [hidx, Nat.mod_eq_of_lt (by omega)]
      omega
  · intro k hk
    change Function.update q.stored (q.pos t) true k = true at hk
    by_cases hkp : k = q.pos t
    · exact hkp ▸ hlt
    · rw [Function.update_of_ne hkp] at hk
      exact hr.stored_lt k hk
  · simp only [ThreadInv, thread_goes]
  · intro u k hu hs
    refine ⟨Function.update_of_ne ?_ _ _, ?_⟩
    · rintro rfl
      exact hu (h.storing u t _ hs ⟨rfl, mb, i, hx⟩)
    · rintro ⟨-, mb', j, hj⟩
      simp at hj
  · refine fun u k _ _ => ⟨rfl, Iff.rfl, ?_⟩
    rintro ⟨-, j, hj | hj⟩ <;> simp at hj

theorem enqueueStep_inv (h : q.Inv) (hf : q.TagsFresh) {x : EnqueueAt}
    (hx : q.thread t = .enqueue mb x) : (q.enqueueStep t mb x).Inv := by
  have hr := h.ring
  have hth := h.thread t
  cases x with
  | top =>
    simp only [enqueueStep]
    split <;> exact h.goes (by simp [ThreadInv]) (by simp) (by simp)
  | readIndex => exact h.goes (by simp [ThreadInv]) (by simp) (by simp)
  | readTag i =>
    simp only [enqueueStep]
    refine h.of_sameRing ⟨rfl, rfl, rfl, rfl, rfl, rfl, rfl, rfl, rfl, rfl, rfl⟩
      (fun u hu => ⟨Function.update_of_ne hu _ _, Function.update_of_ne hu _ _, rfl⟩) ?_ (h.began t)
      (by simp) (by simp)
    simp only [ThreadInv, thread_goes]
    refine ⟨?_, ?_, ?_⟩ <;> simp only [Function.update_self]
    · exact hr.writeTag
    · exact Nat.le_refl _
    · exact h.began t
  | checkFull i tag =>
    simp only [enqueueStep]
    split
    · exact h.goes (by simp [ThreadInv]) (by simp) (by simp)
    · rename_i hne
      refine h.goes ?_ (by simp) (by simp)
      simp only [ThreadInv, hx] at hth
      simp only [ThreadInv, thread_goes]
      exact ⟨⟨hth.tag, hth.pos_le, hth.began⟩, fun hi => hr.sawRoom hi hne⟩
  | checkSlot i tag =>
    simp only [enqueueStep]
    split
    · exact h.goes (by simp [ThreadInv]) (by simp) (by simp)
    · rename_i hnone
      refine h.goes ?_ (by simp) (by simp)
      simp only [ThreadInv, hx] at hth
      simp only [ThreadInv, thread_goes]
      obtain ⟨hs, hroom⟩ := hth
      exact ⟨⟨hs.tag, hs.pos_le, hs.began⟩, fun hi =>
        ⟨hroom hi, hr.sawFree hi (hroom hi) (by simpa using hnone)⟩⟩
  | swap i tag =>
    simp only [enqueueStep]
    split
    · rename_i hcas
      exact h.tail_swap hx hf hcas.1 hcas.2
    · exact h.goes (by simp [ThreadInv]) (by simp) (by simp)
  | store i => exact h.store hx
  | count =>
    simp only [enqueueStep]
    exact h.of_sameRing ⟨rfl, rfl, rfl, rfl, rfl, rfl, rfl, rfl, rfl, rfl, rfl⟩
      (fun u hu => ⟨Function.update_of_ne hu _ _, rfl, rfl⟩) (by simp [ThreadInv]) (h.began t)
      (by simp) (by simp)

/-! ## Steps of a consumer -/

/-- The swap of the read index. -/
theorem Inv.head_swap (h : q.Inv) (hx : q.thread t = .dequeue (.swap i tag)) (hf : q.TagsFresh)
    (hi : q.readIndex = i) (htag : q.readTag = tag) :
    Inv { q.goes t (.dequeue (.take i)) with
      readIndex := (i + 1) % q.arraySize
      readTag := tag + 1
      pos := Function.update q.pos t q.heads
      heads := q.heads + 1 } := by
  obtain ⟨hs, hsaw⟩ : q.SeenHead t tag ∧
      (i.toNat = q.pos t % q.ring → q.SawBlock t ∧ q.SawStored t) := by
    have := h.thread t
    simpa only [ThreadInv, hx] using this
  have hr := h.ring
  have hpos := hr.head_current hs hf (by rw [hx]; simp) htag
  subst hi htag
  obtain ⟨hblock, hstored⟩ := hsaw (hpos ▸ hr.readIndex)
  have hlt := hblock hpos
  have hst := hstored hpos
  have hhead : ∀ {u k}, q.Holding u k → k ≠ q.heads := by
    rintro u k ⟨rfl, j, hu | hu⟩
    all_goals
      have := h.thread u
      simp only [ThreadInv, hu] at this
      omega
  refine h.of_step ⟨hr.pos, hr.writeIndex, hr.writeTag, hr.next_index hr.readIndex, ?_, hlt, ?_, hr.lap,
    hr.slot, hr.unused, hr.stored_lt, ?_, ?_, ?_, hr.once⟩
    ⟨rfl, Nat.le_succ _, List.prefix_refl _, fun _ h => h, fun _ h => h⟩
    (fun u hu => ⟨Function.update_of_ne hu _ _, Function.update_of_ne hu _ _, rfl⟩) ?_ ?_ ?_ ?_
  · change (q.readTag + 1).toNat = (q.heads + 1) % 2 ^ 32
    rw [UInt32.toNat_add, hr.readTag]
    exact Nat.mod_add_mod _ _ _
  · exact Nat.lt_of_lt_of_le hr.room (Nat.add_le_add_right (Nat.le_succ _) _)
  · intro k hk
    rcases Nat.lt_succ_iff_lt_or_eq.mp hk with hk | rfl
    · exact hr.stored_of_lt k hk
    · exact hst
  · intro k hk
    exact ⟨Nat.lt_succ_of_lt (hr.cleared_lt k hk).1, (hr.cleared_lt k hk).2⟩
  · intro e he
    exact ⟨Nat.lt_succ_of_lt (hr.returned e he).1, (hr.returned e he).2⟩
  · simp only [ThreadInv, thread_goes, Function.update_self]
    refine ⟨Nat.lt_succ_self _, hr.readIndex, hr.not_cleared (Nat.le_refl _), fun hm => ?_⟩
    obtain ⟨e, he, heq⟩ := List.mem_map.mp hm
    have := (hr.returned e he).1
    omega
  · exact Nat.le_trans (h.began t) (Nat.le_succ _)
  · refine fun u k _ _ => ⟨rfl, ?_⟩
    rintro ⟨-, mb', j, hj⟩
    simp at hj
  · intro u k _ hu
    refine ⟨rfl, Iff.rfl, fun hk => hhead hu ?_⟩
    rw [← hk.1]
    exact Function.update_self _ _ _

/-- The read of the slot. -/
theorem Inv.take (h : q.Inv) (hx : q.thread t = .dequeue (.take i)) :
    Inv { q.goes t (.dequeue (.clear i)) with
      returned := q.returned ++ [(q.pos t, q.dataArray i.toNat)] } := by
  obtain ⟨hlt, hidx, hcl, hnew⟩ : q.pos t < q.heads ∧ i.toNat = q.pos t % q.ring ∧
      q.cleared (q.pos t) = false ∧ q.pos t ∉ q.readPositions := by
    have := h.thread t
    simpa only [ThreadInv, hx] using this
  have hr := h.ring
  have hblock : q.dataArray i.toNat = q.entered[q.pos t]? := by
    have := hr.heads_le
    rw [hidx, hr.slot _ (by omega) (hr.le_of_not_cleared hcl), hr.stored_of_lt _ hlt, hcl]
    simp
  have hreads : (q.returned ++ [(q.pos t, q.dataArray i.toNat)]).map Prod.fst =
      q.readPositions ++ [q.pos t] := by simp [readPositions]
  have hmem : ∀ k, k ∈ q.readPositions ++ [q.pos t] ↔ k ∈ q.readPositions ∨ k = q.pos t := by simp
  refine h.of_step ⟨hr.pos, hr.writeIndex, hr.writeTag, hr.readIndex, hr.readTag, hr.heads_le, hr.room,
    hr.lap, hr.slot, hr.unused, hr.stored_lt, hr.stored_of_lt, ?_, ?_, ?_⟩
    ⟨rfl, Nat.le_refl _, List.prefix_refl _, fun _ h => h, fun _ h => h⟩
    (fun u hu => ⟨Function.update_of_ne hu _ _, rfl, rfl⟩) ?_ (h.began t) ?_ ?_
  · intro k hk
    refine ⟨(hr.cleared_lt k hk).1, ?_⟩
    rw [readPositions, hreads, hmem]
    exact .inl (hr.cleared_lt k hk).2
  · intro e he
    rcases List.mem_append.mp he with he | he
    · exact hr.returned e he
    · obtain rfl := List.mem_singleton.mp he
      exact ⟨hlt, hblock⟩
  · rw [readPositions, hreads]
    exact List.nodup_append_comm.mp (List.nodup_cons.mpr ⟨hnew, hr.once⟩)
  · simp only [ThreadInv, thread_goes]
    refine ⟨hlt, hidx, hcl, ?_⟩
    rw [readPositions, hreads, hmem]
    exact .inr rfl
  · refine fun u k _ _ => ⟨rfl, ?_⟩
    rintro ⟨-, mb', j, hj⟩
    simp at hj
  · intro u k hu hk
    have hne : k ≠ q.pos t := by
      rintro rfl
      exact hu (h.holding u t _ hk ⟨rfl, i, .inl hx⟩)
    refine ⟨rfl, ?_, fun hk' => hne hk'.1.symm⟩
    rw [readPositions, hreads, hmem]
    simp [hne]

/-- The slot is cleared. -/
theorem Inv.clear (h : q.Inv) (hx : q.thread t = .dequeue (.clear i)) :
    Inv { q.goes t (.dequeue .count) with
      dataArray := Function.update q.dataArray i.toNat none
      cleared := Function.update q.cleared (q.pos t) true } := by
  obtain ⟨hlt, hidx, hcl, hread⟩ : q.pos t < q.heads ∧ i.toNat = q.pos t % q.ring ∧
      q.cleared (q.pos t) = false ∧ q.pos t ∈ q.readPositions := by
    have := h.thread t
    simpa only [ThreadInv, hx] using this
  have hr := h.ring
  have hup : ∀ k, q.cleared k = true → Function.update q.cleared (q.pos t) true k = true := by
    intro k hk
    by_cases hk' : k = q.pos t
    · rw [hk', Function.update_self]
    · rw [Function.update_of_ne hk', hk]
  refine h.of_step ⟨hr.pos, hr.writeIndex, hr.writeTag, hr.readIndex, hr.readTag, hr.heads_le, hr.room,
    fun k hk => hup k (hr.lap k hk), ?_, ?_, hr.stored_lt, hr.stored_of_lt, ?_, hr.returned, hr.once⟩
    ⟨rfl, Nat.le_refl _, List.prefix_refl _, fun _ h => h, hup⟩
    (fun u hu => ⟨Function.update_of_ne hu _ _, rfl, rfl⟩) ?_ (h.began t) ?_ ?_
  · intro k hk hlap
    change Function.update q.dataArray i.toNat none (k % q.ring) = if q.stored k = true ∧
      Function.update q.cleared (q.pos t) true k = false then q.entered[k]? else none
    by_cases hkp : k = q.pos t
    · rw [hkp, ← hidx, Function.update_self, Function.update_self]
      simp
    · have hne : k % q.ring ≠ i.toNat := fun heq => hkp (eq_of_mod_eq hlap hk
        (hr.le_of_not_cleared hcl) (Nat.lt_of_lt_of_le hlt hr.heads_le) (heq.trans hidx))
      rw [Function.update_of_ne hne, Function.update_of_ne hkp]
      exact hr.slot k hk hlap
  · intro k hk hlt'
    change Function.update q.dataArray i.toNat none k = none
    by_cases hki : k = i.toNat
    · rw [hki, Function.update_self]
    · rw [Function.update_of_ne hki]
      exact hr.unused k hk hlt'
  · intro k hk
    change Function.update q.cleared (q.pos t) true k = true at hk
    by_cases hkp : k = q.pos t
    · rw [hkp]
      exact ⟨hlt, hread⟩
    · rw [Function.update_of_ne hkp] at hk
      exact hr.cleared_lt k hk
  · simp only [ThreadInv, thread_goes]
  · refine fun u k _ _ => ⟨rfl, ?_⟩
    rintro ⟨-, mb', j, hj⟩
    simp at hj
  · intro u k hu hk
    refine ⟨Function.update_of_ne ?_ _ _, Iff.rfl, ?_⟩
    · rintro rfl
      exact hu (h.holding u t _ hk ⟨rfl, i, .inr hx⟩)
    · rintro ⟨-, j, hj | hj⟩ <;> simp at hj

theorem dequeueStep_inv (h : q.Inv) (hf : q.TagsFresh) {x : DequeueAt}
    (hx : q.thread t = .dequeue x) : (q.dequeueStep t x).Inv := by
  have hr := h.ring
  have hth := h.thread t
  cases x with
  | top =>
    simp only [dequeueStep]
    split <;> exact h.goes (by simp [ThreadInv]) (by simp) (by simp)
  | readIndex => exact h.goes (by simp [ThreadInv]) (by simp) (by simp)
  | readTag i =>
    simp only [dequeueStep]
    refine h.of_sameRing ⟨rfl, rfl, rfl, rfl, rfl, rfl, rfl, rfl, rfl, rfl, rfl⟩
      (fun u hu => ⟨Function.update_of_ne hu _ _, Function.update_of_ne hu _ _, rfl⟩) ?_ (h.began t)
      (by simp) (by simp)
    simp only [ThreadInv, thread_goes]
    refine ⟨?_, ?_, ?_⟩ <;> simp only [Function.update_self]
    · exact hr.readTag
    · exact Nat.le_refl _
    · exact Nat.add_comm q.heads _ ▸ h.began t
  | checkEmpty i tag =>
    simp only [dequeueStep]
    split
    · exact h.goes (by simp [ThreadInv]) (by simp) (by simp)
    · rename_i hne
      refine h.goes ?_ (by simp) (by simp)
      simp only [ThreadInv, hx] at hth
      simp only [ThreadInv, thread_goes]
      exact ⟨⟨hth.tag, hth.pos_le, hth.began⟩, fun hi => hr.sawBlock hi hne⟩
  | checkSlot i tag =>
    simp only [dequeueStep]
    split
    · exact h.goes (by simp [ThreadInv]) (by simp) (by simp)
    · rename_i hsome
      refine h.goes ?_ (by simp) (by simp)
      simp only [ThreadInv, hx] at hth
      simp only [ThreadInv, thread_goes]
      obtain ⟨hs, hblock⟩ := hth
      exact ⟨⟨hs.tag, hs.pos_le, hs.began⟩, fun hi =>
        ⟨hblock hi, hr.sawStored hi (hblock hi) (by simpa using hsome)⟩⟩
  | swap i tag =>
    simp only [dequeueStep]
    split
    · rename_i hcas
      exact h.head_swap hx hf hcas.1 hcas.2
    · exact h.goes (by simp [ThreadInv]) (by simp) (by simp)
  | take i => exact h.take hx
  | clear i => exact h.clear hx
  | count =>
    simp only [dequeueStep]
    exact h.of_sameRing ⟨rfl, rfl, rfl, rfl, rfl, rfl, rfl, rfl, rfl, rfl, rfl⟩
      (fun u hu => ⟨Function.update_of_ne hu _ _, rfl, rfl⟩) (by simp [ThreadInv]) (h.began t)
      (by simp) (by simp)

end Steps

/-! ## Runs -/

theorem init_inv {n : UInt32} (hn : n + 1 ≠ 0) : (init n : DataQueue τ β).Inv := by
  have hpos : 0 < (n + 1).toNat := by
    rw [Nat.pos_iff_ne_zero]
    exact fun h0 => hn (UInt32.toNat_inj.mp h0)
  refine ⟨⟨hpos, (Nat.zero_mod _).symm, rfl, (Nat.zero_mod _).symm, rfl, Nat.le_refl _, ?_, ?_, ?_,
    fun _ _ _ => rfl, ?_, ?_, ?_, ?_, List.nodup_nil⟩, fun t => trivial, fun t => Nat.le_refl _, ?_, ?_⟩
  · exact Nat.lt_of_lt_of_le hpos (Nat.le_add_left _ _)
  · exact fun k hk => absurd hk (Nat.not_lt_zero _)
  · exact fun k hk => absurd hk (Nat.not_lt_zero _)
  · exact fun k hk => by cases hk
  · exact fun k hk => absurd hk (Nat.not_lt_zero _)
  · exact fun k hk => by cases hk
  · exact fun e he => absurd he List.not_mem_nil
  · rintro t u k ⟨-, mb, i, hi⟩
    cases hi
  · rintro t u k ⟨-, i, hi | hi⟩ <;> cases hi

section Runs

variable [DecidableEq τ]

/-- One step keeps the invariant, as long as the tags are fresh. -/
theorem step_inv (h : q.Inv) (hf : q.TagsFresh) (a : τ × Act β) : (q.step a).Inv := by
  obtain ⟨t, a⟩ := a
  cases a with
  | enqueue_tail mb =>
    simp only [step]
    split
    · split
      · exact h
      · exact h.of_sameRing (t := t) ⟨rfl, rfl, rfl, rfl, rfl, rfl, rfl, rfl, rfl, rfl, rfl⟩
          (fun u hu => ⟨Function.update_of_ne hu _ _, rfl, Function.update_of_ne hu _ _⟩)
          (by simp [ThreadInv]) (by simp [swaps, goes]) (by simp) (by simp)
    · exact h
  | dequeue_head =>
    simp only [step]
    split
    · split
      · exact h
      · exact h.of_sameRing (t := t) ⟨rfl, rfl, rfl, rfl, rfl, rfl, rfl, rfl, rfl, rfl, rfl⟩
          (fun u hu => ⟨Function.update_of_ne hu _ _, rfl, Function.update_of_ne hu _ _⟩)
          (by simp [ThreadInv]) (by simp [swaps, goes]) (by simp) (by simp)
    · exact h
  | go =>
    simp only [step]
    split
    · exact h
    · rename_i mb x hx
      exact enqueueStep_inv h hf hx
    · rename_i x hx
      exact dequeueStep_inv h hf hx
  | timeout =>
    simp only [step]
    split
    · exact h.goes (by simp [ThreadInv]) (by simp) (by simp)
    · exact h.goes (by simp [ThreadInv]) (by simp) (by simp)
    · exact h
  | close =>
    exact ⟨⟨h.ring.pos, h.ring.writeIndex, h.ring.writeTag, h.ring.readIndex, h.ring.readTag,
      h.ring.heads_le, h.ring.room, h.ring.lap, h.ring.slot, h.ring.unused, h.ring.stored_lt,
      h.ring.stored_of_lt, h.ring.cleared_lt, h.ring.returned, h.ring.once⟩,
      fun u => (h.thread u).frame ⟨rfl, Nat.le_refl _, List.prefix_refl _, fun _ h => h, fun _ h => h⟩
        ⟨rfl, rfl, rfl⟩ (fun _ => rfl) (fun _ => ⟨rfl, Iff.rfl⟩), h.began, h.storing, h.holding⟩

/-- A queue without slots takes no call. -/
theorem run_refused (as : List (τ × Act β)) (hq : q.arraySize = 0) (hidle : ∀ t, q.thread t = .idle) :
    (Run.run step q as).returned = q.returned ∧ (Run.run step q as).stored = q.stored ∧
      (Run.run step q as).arraySize = 0 := by
  induction as generalizing q with
  | nil => exact ⟨rfl, rfl, hq⟩
  | cons a as ih =>
    obtain ⟨t, a⟩ := a
    have hstep : (q.step (t, a)).arraySize = 0 ∧ (∀ u, (q.step (t, a)).thread u = .idle) ∧
        (q.step (t, a)).returned = q.returned ∧ (q.step (t, a)).stored = q.stored := by
      cases a <;> simp [step, hidle, hq]
    obtain ⟨h1, h2, h3, h4⟩ := hstep
    obtain ⟨h5, h6, h7⟩ := ih h1 h2
    exact ⟨h5.trans h3, h6.trans h4, h7⟩

/-- **Exchange.** For every number of threads and every interleaving of their steps, with fewer than
2^32 swaps inside any call: the consumer that made the `k`-th swap of the read index returns the
block of the `k`-th swap of the write index, no two consumers return the same one, a block that was
stored and not yet returned is in its slot, and the indexes stay inside the ring. -/
theorem run_exchanges (n : UInt32) (as : List (τ × Act β))
    (h : Run.Allowed step (fun q _ => q.TagsFresh) (init n) as) :
    let q := Run.run step (init n) as
    (∀ e ∈ q.returned, e.1 < q.heads ∧ e.1 < q.entered.length ∧ e.2 = q.entered[e.1]?) ∧
      q.readPositions.Nodup ∧
      (∀ k, q.stored k = true → k ∉ q.readPositions → q.dataArray (k % q.ring) = q.entered[k]?) ∧
      (q.arraySize ≠ 0 → q.writeIndex < q.arraySize ∧ q.readIndex < q.arraySize) := by
  intro q
  by_cases hn : n + 1 = 0
  · obtain ⟨h1, h2, h3⟩ := run_refused as (q := (init n : DataQueue τ β)) hn fun _ => rfl
    refine ⟨fun e he => ?_, ?_, fun k hk => ?_, fun h => absurd h3 h⟩
    · rw [h1] at he
      cases he
    · change ((Run.run step (init n) as).returned.map Prod.fst).Nodup
      rw [h1]
      exact List.nodup_nil
    · rw [h2] at hk
      cases hk
  · have hinv : q.Inv := h.invariant (init_inv hn) fun s a hs hok => step_inv hs hok a
    have hr := hinv.ring
    refine ⟨fun e he => ?_, hr.once, fun k hk hnew => ?_, fun _ => ?_⟩
    · obtain ⟨h1, h2⟩ := hr.returned e he
      exact ⟨h1, Nat.lt_of_lt_of_le h1 hr.heads_le, h2⟩
    · have hcl : q.cleared k = false := by
        by_contra hc
        exact hnew (hr.cleared_lt k (by simpa using hc)).2
      rw [hr.slot k (hr.stored_lt k hk) (hr.le_of_not_cleared hcl), if_pos ⟨hk, hcl⟩]
    · rw [UInt32.lt_iff_toNat_lt, UInt32.lt_iff_toNat_lt, hr.writeIndex, hr.readIndex]
      exact ⟨Nat.mod_lt _ hr.pos, Nat.mod_lt _ hr.pos⟩

end Runs

instance [Fintype τ] [DecidableEq β] (q : DataQueue τ β) : Decidable q.TagsFresh :=
  inferInstanceAs (Decidable (∀ t, q.thread t ≠ .idle → q.swaps < q.began t + 2 ^ 32))

/-- Two producers at once with room for one block, so that the second waits for the consumer; it gets both. -/
def contended : List (Fin 3 × Act Nat) :=
  [(0, .enqueue_tail 7), (1, .enqueue_tail 8)] ++ (List.replicate 6 [(0, .go), (1, .go)]).flatten ++
    List.replicate 2 (0, .go) ++ List.replicate 4 (1, .go) ++ (2, .dequeue_head) :: List.replicate 9 (2, .go) ++
    List.replicate 8 (1, .go) ++ (2, .dequeue_head) :: List.replicate 9 (2, .go)

theorem run_exchanges_contended :
    (Run.run step (init 1) contended).returned = [(0, some 7), (1, some 8)] ∧
      ∀ e ∈ (Run.run step (init 1) contended).returned,
        e.2 = (Run.run step (init 1) contended).entered[e.1]? :=
  ⟨by decide +kernel, fun e he => ((run_exchanges 1 contended (by decide +kernel)).1 e he).2.2⟩

end DataQueue

end AllCamera
