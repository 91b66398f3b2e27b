import AllCamera.Lib.RefCount
import AllCamera.Stream.BusinessManager

/-!
# The businesses of the manager and their rates

In every state that a run of calls reaches, each business has its two entries and the capacity is
kept (`Sound`), while no count of references goes beyond its range. `statFlux` goes over the entries,
so it adds the rates of a business twice: it adds them once only where there is no business
(`run_businesses_sound`).

* `Inv`: the invariant; `Inv.modify`, `Inv.create` and `Inv.destroy` are what the functions do.
* `sum_entries`: what a sum over the entries is.
-/

namespace AllCamera

open scoped UIntOrder

namespace BusinessManager

/-- The entries of a business. -/
def entriesOf (m : BusinessManager) (p : Nat) : List (UInt64 × Nat) :=
  match m.business p with
  | some b => [(b.recvStreamID, p), (b.sendStreamID, p)]
  | none => []

theorem snd_of_mem_entriesOf {m : BusinessManager} {p : Nat} {e : UInt64 × Nat}
    (h : e ∈ m.entriesOf p) : e.2 = p := by
  rw [entriesOf] at h
  split at h
  · simp only [List.mem_cons, List.not_mem_nil, or_false] at h
    rcases h with rfl | rfl
    · rfl
    · rfl
  · cases h

theorem mem_collect {es : List (UInt64 × Nat)} {list : List Nat} {p : Nat}
    (h : p ∈ es.foldl (fun list e => if e.2 ∈ list then list else list ++ [e.2]) list) :
    p ∈ list ∨ ∃ e ∈ es, e.2 = p := by
  induction es generalizing list with
  | nil => exact .inl h
  | cons e es ih =>
    rcases ih h with h | ⟨e', he', rfl⟩
    · dsimp only at h
      split at h
      · exact .inl h
      · rcases List.mem_append.mp h with h | h
        · exact .inl h
        · exact .inr ⟨e, List.mem_cons_self, (List.mem_singleton.mp h).symm⟩
    · exact .inr ⟨e', List.mem_cons_of_mem e he', rfl⟩

/-- The loop takes the entry of the business out. -/
theorem perm_eraseEntry {m : Multimap UInt64 Nat} {stream : UInt64} {p : Nat}
    (h : (stream, p) ∈ m.entries) : m.entries.Perm ((stream, p) :: (eraseEntry m stream p).entries) := by
  obtain ⟨e, hgo, hhit, hperm⟩ : ∃ e : UInt64 × Nat, (e.1 == stream) = true ∧ (e.2 == p) = true ∧
      m.entries.Perm (e :: (eraseEntry m stream p).entries) :=
    Multimap.perm_eraseFrom h (fun e he => beq_iff_eq.mpr he) (beq_self_eq_true p)
  obtain rfl : e = (stream, p) := Prod.ext (by simpa using hgo) (by simpa using hhit)
  exact hperm

end BusinessManager

namespace BusinessSystem

open AllCamera.Run BusinessManager

/-- The entries, the count and the capacity are right. -/
structure Sound (capacity : UInt32) (s : BusinessSystem) : Prop where
  nodup : s.live.Nodup
  live : ∀ p, p ∈ s.live ↔ (s.manager.business p).isSome
  counted : ∀ p b, s.manager.business p = some b →
    Counts b.nRefCount (s.held p) ∧ 0 < s.held p
  /-- A business is destroyed with its last reference. -/
  destroyed : ∀ p, s.manager.business p = none ↔ s.held p = 0
  /-- A business has an entry for the stream it receives and one for the stream it sends. -/
  entries : ∀ p b, s.manager.business p = some b →
    (s.manager.businessMap.entries.filter fun e => e.2 == p).Perm
      [(b.recvStreamID, p), (b.sendStreamID, p)]
  /-- No other entry is in the map. -/
  stale : ∀ e ∈ s.manager.businessMap.entries, e.2 ∈ s.live
  number : s.manager.unMaxBusinessNum.toNat = s.live.length
  capacity : s.live.length ≤ capacity.toNat

/-- Whatever the rates are, `statFlux` adds those of each business once. -/
def AddsOnce (s : BusinessSystem) : Prop :=
  ∀ inputRate outputRate : Nat → UInt32,
    (s.manager.statFlux inputRate outputRate).inputRate = (s.live.map inputRate).sum / kilo ∧
      (s.manager.statFlux inputRate outputRate).outputRate = (s.live.map outputRate).sum / kilo

/-- The invariant. -/
structure Inv (capacity : UInt32) (s : BusinessSystem) : Prop where
  nodup : s.live.Nodup
  alive : ∀ p, p ∈ s.live ↔ (s.manager.business p).isSome
  balanced : Balanced ManagedBusiness.nRefCount s.manager.business s.held
  entries : s.manager.businessMap.entries.Perm (s.live.flatMap s.manager.entriesOf)
  number : s.manager.unMaxBusinessNum.toNat = s.live.length
  capacity : s.live.length ≤ capacity.toNat

variable {capacity : UInt32} {s : BusinessSystem} {p : Nat} {b : ManagedBusiness}

theorem inv_init : Inv capacity init where
  nodup := .nil
  alive p := by simp [init]
  balanced := ⟨fun _ _ h => (Option.some_ne_none _ h.symm).elim, fun _ _ => rfl⟩
  entries := .nil
  number := rfl
  capacity := Nat.zero_le _

theorem Inv.mem_live (h : s.Inv capacity) (hp : s.manager.business p = some b) : p ∈ s.live := by
  rw [h.alive, hp]
  rfl

/-- The entries of a business and those of the others. -/
theorem Inv.split (h : s.Inv capacity) (hp : s.manager.business p = some b) :
    s.manager.businessMap.entries.Perm ((b.recvStreamID, p) :: (b.sendStreamID, p) ::
      (s.live.erase p).flatMap s.manager.entriesOf) := by
  have hperm := (List.perm_cons_erase (h.mem_live hp)).flatMap_right s.manager.entriesOf
  rw [List.flatMap_cons, show s.manager.entriesOf p = _ by rw [entriesOf, hp]] at hperm
  exact h.entries.trans hperm

theorem Inv.sound (h : s.Inv capacity) : s.Sound capacity where
  nodup := h.nodup
  live := h.alive
  counted := h.balanced.counted
  destroyed _ := h.balanced.eq_none_iff
  entries p b hp := by
    refine ((h.split hp).filter _).trans ?_
    have hrest : ((s.live.erase p).flatMap s.manager.entriesOf).filter (fun e => e.2 == p) = [] := by
      rw [List.filter_eq_nil_iff]
      intro e he
      obtain ⟨q, hq, he⟩ := List.mem_flatMap.mp he
      have hne : q ≠ p := fun hqp => h.nodup.not_mem_erase (hqp ▸ hq)
      simpa [snd_of_mem_entriesOf he] using hne
    simp [hrest]
  stale e he := by
    obtain ⟨q, hq, he⟩ := List.mem_flatMap.mp (h.entries.mem_iff.mp he)
    rwa [snd_of_mem_entriesOf he]
  number := h.number
  capacity := h.capacity

/-! ## Rates -/

theorem foldl_entriesOf {m : BusinessManager} {ps : List Nat}
    (hps : ∀ p ∈ ps, (m.business p).isSome) (rate : Nat → UInt32) (sum : UInt32) :
    (ps.flatMap m.entriesOf).foldl (fun sum e => sum + rate e.2) sum =
      sum + 2 * (ps.map rate).sum := by
  induction ps generalizing sum with
  | nil => grind
  | cons p ps ih =>
    obtain ⟨b, hp⟩ := Option.isSome_iff_exists.mp (hps p List.mem_cons_self)
    have hrest := ih fun q hq => hps q (List.mem_cons_of_mem p hq)
    rw [List.flatMap_cons, List.foldl_append, hrest, entriesOf, hp]
    simp only [List.foldl_cons, List.foldl_nil, List.map_cons, List.sum_cons]
    grind

/-- A sum over the entries has each business twice. -/
theorem Inv.sum_entries (h : s.Inv capacity) (rate : Nat → UInt32) :
    s.manager.businessMap.entries.foldl (fun sum e => sum + rate e.2) 0 =
      2 * (s.live.map rate).sum := by
  have hcomm : ∀ e ∈ s.manager.businessMap.entries, ∀ e' ∈ s.manager.businessMap.entries,
      ∀ sum, sum + rate e.2 + rate e'.2 = sum + rate e'.2 + rate e.2 := by
    intro e _ e' _ sum
    grind
  rw [h.entries.foldl_eq' hcomm, foldl_entriesOf (fun p => (h.alive p).mp), UInt32.zero_add]

theorem sum_map_eq_zero {ps : List Nat} {rate : Nat → UInt32} (h : ∀ p ∈ ps, rate p = 0) :
    (ps.map rate).sum = 0 := by
  induction ps with
  | nil => rfl
  | cons p ps ih =>
    rw [List.map_cons, List.sum_cons, h p List.mem_cons_self,
      ih fun q hq => h q (List.mem_cons_of_mem p hq), UInt32.zero_add]

/-- `statFlux` adds the rates of each business once only where there is none. -/
theorem Inv.addsOnce_iff (h : s.Inv capacity) : s.AddsOnce ↔ s.live = [] := by
  constructor
  · intro honce
    cases hlive : s.live with
    | nil => rfl
    | cons p ps =>
      -- the rate of one business, the others have none
      let rate : Nat → UInt32 := fun q => if q = p then kilo else 0
      have hin := (honce rate rate).1
      have hp : p ∉ ps := (List.nodup_cons.mp (hlive ▸ h.nodup)).1
      have hrest : (ps.map rate).sum = 0 :=
        sum_map_eq_zero fun q hq => if_neg fun hqp : q = p => hp (hqp ▸ hq)
      have hsum : (s.live.map rate).sum = kilo := by
        rw [hlive, List.map_cons, List.sum_cons, hrest]
        simp [rate]
      simp only [statFlux, h.sum_entries, hsum] at hin
      exact absurd hin (by decide)
  · intro hlive inputRate outputRate
    simp only [statFlux, h.sum_entries, hlive]
    exact ⟨rfl, rfl⟩

/-! ## The calls -/

/-- A business that keeps its ids, and has another count. -/
theorem Inv.modify {g : ManagedBusiness → ManagedBusiness} {n : Nat} (h : s.Inv capacity)
    (hp : s.manager.business p = some b) (hrecv : (g b).recvStreamID = b.recvStreamID)
    (hsend : (g b).sendStreamID = b.sendStreamID) (hcount : Counts (g b).nRefCount n) (hn : 0 < n) :
    Inv capacity
      { s with manager := s.manager.modify p g, held := Function.update s.held p n } := by
  have hbusiness : (s.manager.modify p g).business =
      Function.update s.manager.business p (some (g b)) := by
    rw [BusinessManager.modify, hp]
    rfl
  refine ⟨h.nodup, fun q => (h.alive q).trans ?_, ?_, ?_, h.number, h.capacity⟩
  · by_cases hq : q = p
    · subst hq
      simp [hbusiness, hp]
    · simp [hbusiness, Function.update_of_ne hq]
  · rw [hbusiness]
    exact h.balanced.update hcount hn
  · have hsame : (s.manager.modify p g).entriesOf = s.manager.entriesOf := by
      funext q
      rw [entriesOf, entriesOf, hbusiness]
      by_cases hq : q = p
      · subst hq
        rw [Function.update_self, hp]
        simp only [hrecv, hsend]
      · rw [Function.update_of_ne hq]
    rw [hsame]
    exact h.entries

/-- One reference more to each business of a list. -/
theorem Inv.obtain (h : s.Inv capacity) (ps : List Nat) (hps : ∀ p ∈ ps, p ∈ s.live)
    (hbound : ∀ p ∈ ps, s.held p + ps.count p < 2 ^ 31) :
    Inv capacity (s.obtain (ps, ps.foldl addReference s.manager)) := by
  refine foldl_addReference (P := fun m held => Inv capacity { s with manager := m, held })
    (fun m held p h hpos hone => ?_) h ps (fun p hp => ?_) hbound
  · obtain ⟨b, hp⟩ := h.balanced.exists hpos
    exact h.modify hp rfl rfl ((h.balanced.counted p b hp).1.succ hone) (Nat.succ_pos _)
  · obtain ⟨b, hb⟩ := Option.isSome_iff_exists.mp ((h.alive p).mp (hps p hp))
    exact (h.balanced.counted p b hb).2

theorem Inv.create (h : s.Inv capacity) (hp : s.manager.business p = none)
    (recvSessionId sendSessionId : UInt64) (enPlayType : PlayType) (initialized : Bool) :
    Inv capacity
      (s.step capacity (.createBusiness recvSessionId sendSessionId enPlayType initialized p)) := by
  have hsame : Inv capacity { s.obtain ([], s.manager) with live := [] ++ s.live } := h
  rw [BusinessSystem.step]
  simp only [createBusiness]
  split
  · exact hsame
  split
  · exact hsame
  rename_i hroom
  have hroom : s.manager.unMaxBusinessNum.toNat < capacity.toNat :=
    UInt32.lt_iff_toNat_lt.mp (UInt32.not_le.mp hroom)
  have hnew : p ∉ s.live := by
    rw [h.alive, hp]
    exact Bool.false_ne_true
  have hheld : (fun q => s.held q + [p].count q) = Function.update s.held p 1 := by
    rw [← held_cons s.held p [], h.balanced.gone p hp]
    rfl
  have hother : ∀ q ∈ s.live, ∀ b : ManagedBusiness,
      Function.update s.manager.business p (some b) q = s.manager.business q :=
    fun q hq b => Function.update_of_ne (fun hqp : q = p => hnew (hqp ▸ hq)) _ _
  refine ⟨List.nodup_cons.mpr ⟨hnew, h.nodup⟩, fun q => ?_, ?_, ?_, ?_, ?_⟩
  · simp only [BusinessSystem.obtain, Option.toList_some, List.cons_append, List.nil_append,
      List.mem_cons]
    by_cases hq : q = p
    · simp [hq]
    · simp [hq, h.alive]
  · simp only [BusinessSystem.obtain, Option.toList_some, hheld]
    exact h.balanced.update counts_one Nat.one_pos
  · refine (Multimap.perm_insert _ _ _).trans (((Multimap.perm_insert _ _ _).cons _).trans ?_)
    refine (List.Perm.swap _ _ _).trans ?_
    simp only [BusinessSystem.obtain, Option.toList_some, List.cons_append, List.nil_append,
      List.flatMap_cons]
    rw [entriesOf]
    simp only [Function.update_self]
    refine ((h.entries.trans (List.Perm.of_eq ?_)).cons _).cons _
    refine List.flatMap_congr fun q hq => ?_
    simp only [entriesOf, hother q hq]
  · simp only [BusinessSystem.obtain, Option.toList_some, List.cons_append, List.nil_append,
      List.length_cons, ← h.number]
    have := capacity.toNat_lt
    rw [UInt32.toNat_add, UInt32.toNat_one]
    omega
  · simp only [Option.toList_some, List.cons_append, List.nil_append, List.length_cons, ← h.number]
    exact hroom

/-- The business is destroyed with its last reference. -/
theorem Inv.destroy (h : s.Inv capacity) (hp : s.manager.business p = some b) :
    Inv capacity { s with
      manager :=
        { s.manager.destroyBusiness p b with
          unMaxBusinessNum := s.manager.unMaxBusinessNum - 1 }
      held := Function.update s.held p 0
      live := s.live.erase p } := by
  have hlive := h.mem_live hp
  have hmem : ∀ q, q ∈ s.live.erase p ↔ q ≠ p ∧ q ∈ s.live := fun q => h.nodup.mem_erase_iff
  have hother : ∀ q ≠ p, Function.update s.manager.business p none q = s.manager.business q :=
    fun q hq => Function.update_of_ne hq _ _
  refine ⟨h.nodup.erase p, fun q => ?_, h.balanced.delete, ?_, ?_, ?_⟩
  · rw [hmem, h.alive]
    change _ ↔ (Function.update s.manager.business p none q).isSome
    by_cases hq : q = p
    · subst hq
      simp
    · rw [hother q hq]
      simp [hq]
  · -- the two loops take the two entries of the business out
    have hsplit := h.split hp
    have hrecv := perm_eraseEntry (hsplit.mem_iff.mpr List.mem_cons_self)
    have hone := (List.perm_cons _).mp (hrecv.symm.trans hsplit)
    have hsend := perm_eraseEntry (hone.mem_iff.mpr List.mem_cons_self)
    have hrest := (List.perm_cons _).mp (hsend.symm.trans hone)
    refine hrest.trans (List.Perm.of_eq (List.flatMap_congr fun q hq => ?_))
    rw [entriesOf, entriesOf]
    change _ = match Function.update s.manager.business p none q with
      | some b => [(b.recvStreamID, q), (b.sendStreamID, q)]
      | none => []
    rw [hother q ((hmem q).mp hq).1]
  · have hlen := List.length_pos_of_mem hlive
    have hnum := h.number
    rw [List.length_erase_of_mem hlive]
    change (s.manager.unMaxBusinessNum - 1).toNat = _
    rw [UInt32.toNat_sub_of_le _ _ (UInt32.le_iff_toNat_le.mpr (by rw [UInt32.toNat_one]; omega)),
      UInt32.toNat_one, hnum]
  · exact (List.length_erase_le ..).trans h.capacity

theorem Inv.release (h : s.Inv capacity) (hheld : 0 < s.held p) :
    Inv capacity (s.step capacity (.releaseBusiness p)) := by
  obtain ⟨b, hp⟩ := h.balanced.exists hheld
  obtain ⟨n, hn⟩ : ∃ n, s.held p = n + 1 := Nat.exists_eq_add_one.mpr hheld
  have hcount := (h.balanced.counted p b hp).1
  rw [hn] at hcount
  have hdec : Counts b.decReference.nRefCount n := hcount.pred
  -- the businesses that are there after the call
  have hfilter : ∀ m : BusinessManager, (∀ q ≠ p, m.business q = s.manager.business q) →
      s.live.filter (fun q => (m.business q).isSome) =
        if (m.business p).isSome then s.live else s.live.erase p := by
    intro m hother
    split
    · rename_i hsome
      refine List.filter_eq_self.mpr fun q hq => ?_
      by_cases hqp : q = p
      · rwa [hqp]
      · rw [hother q hqp]
        exact (h.alive q).mp hq
    · rename_i hnone
      rw [h.nodup.erase_eq_filter]
      refine List.filter_congr fun q hq => ?_
      by_cases hqp : q = p
      · subst hqp
        simpa using hnone
      · rw [hother q hqp]
        simp [(h.alive q).mp hq, hqp]
  rw [BusinessSystem.step, releaseBusiness]
  simp only [hp, hn, Nat.add_sub_cancel]
  by_cases hlast : n = 0
  · subst hlast
    rw [if_pos (hdec.nonpos_iff.mpr rfl), hfilter _ fun q hq => Function.update_of_ne hq _ _]
    have hgone : ((s.manager.destroyBusiness p b.decReference).business p).isSome = false := by
      simp [destroyBusiness]
    simp only [hgone]
    exact h.destroy (b := b) hp
  · have hpos : ¬ b.decReference.nRefCount ≤ 0 := by rwa [hdec.nonpos_iff]
    rw [if_neg hpos, hfilter _ fun q hq => Function.update_of_ne hq _ _]
    have hstays : ((s.manager.modify p (·.decReference)).business p).isSome = true := by
      simp [BusinessManager.modify, hp]
    simp only [hstays]
    exact h.modify (g := (·.decReference)) hp rfl rfl hdec (Nat.pos_of_ne_zero hlast)

/-- One call keeps the invariant. -/
theorem Inv.step (h : s.Inv capacity) {a : Act} (ha : s.Disciplined a)
    (hb : (s.step capacity a).Bounded) : (s.step capacity a).Inv capacity := by
  have hmem : ∀ e ∈ s.manager.businessMap.entries, e.2 ∈ s.live := h.sound.stale
  cases a with
  | createBusiness recvSessionId sendSessionId enPlayType initialized p =>
    exact h.create ha recvSessionId sendSessionId enPlayType initialized
  | findBusiness streamID =>
    simp only [BusinessSystem.step, BusinessManager.findBusiness] at hb ⊢
    cases hfind : s.manager.businessMap.find streamID with
    | nil => exact h
    | cons e es =>
      have he := hmem e (Multimap.find_subset _ _ (hfind ▸ List.mem_cons_self))
      rw [hfind] at hb
      exact h.obtain [e.2] (fun p hp => List.mem_singleton.mp hp ▸ he)
        fun p hp => hb p (List.mem_singleton.mp hp ▸ he)
  | findBusinessList streamID =>
    have hps : ∀ p ∈ (s.manager.findBusinessList streamID).1, p ∈ s.live := by
      intro p hp
      obtain ⟨e, he, rfl⟩ := List.mem_map.mp hp
      exact hmem e (Multimap.find_subset _ _ ((List.takeWhile_prefix _).subset he))
    exact h.obtain _ hps fun p hp => hb p (hps p hp)
  | getAllBusiness =>
    have hps : ∀ p ∈ s.manager.getAllBusiness.1, p ∈ s.live := by
      intro p hp
      obtain hp | ⟨e, he, rfl⟩ := mem_collect hp
      · cases hp
      · exact hmem e he
    exact h.obtain _ hps fun p hp => hb p (hps p hp)
  | releaseBusiness p => exact h.release ha
  | statFlux inputRate outputRate =>
    exact ⟨h.nodup, h.alive, h.balanced, h.entries, h.number, h.capacity⟩

/-- **After every run of calls, each of which releases a reference at most once, within the range of
the counts: the businesses have their two entries and are as many as counted, and `statFlux` adds
their rates once if and only if there are none.** -/
theorem run_businesses_sound {as : List Act}
    (h : Allowed (BusinessSystem.step capacity)
      (fun s a => s.Disciplined a ∧ (s.step capacity a).Bounded) init as) :
    let s := run (BusinessSystem.step capacity) init as
    s.Sound capacity ∧ (s.AddsOnce ↔ s.live = []) := by
  have hinv := h.invariant inv_init fun _ _ hs ha => hs.step ha.1 ha.2
  exact ⟨hinv.sound, hinv.addsOnce_iff⟩

/-- Two businesses of one receive stream, one of which has it for both streams; a list that has this
one twice; they are found and released. -/
def sharedStream : List Act :=
  [.createBusiness 1 2 .live true 0, .createBusiness 1 1 .live true 1, .findBusinessList 1,
    .getAllBusiness, .statFlux (fun _ => kilo) (fun _ => kilo), .releaseBusiness 0,
    .releaseBusiness 0, .findBusiness 2, .releaseBusiness 0, .releaseBusiness 0,
    .releaseBusiness 1, .releaseBusiness 1, .releaseBusiness 1]

theorem sharedStream_sound :
    let s := run (BusinessSystem.step 2) init sharedStream
    s.Sound 2 ∧ (s.AddsOnce ↔ s.live = []) :=
  run_businesses_sound (by decide)

/-- One business, whose rates are added twice. -/
theorem not_addsOnce_one :
    Allowed (BusinessSystem.step 1) (fun s a => s.Disciplined a ∧ (s.step 1 a).Bounded) init
      [.createBusiness 1 2 .live true 0] ∧
    ¬ (run (BusinessSystem.step 1) init [.createBusiness 1 2 .live true 0]).AddsOnce := by
  refine ⟨by decide, fun h => ?_⟩
  have := (h (fun _ => kilo) (fun _ => kilo)).1
  exact absurd this (by decide)

end BusinessSystem

end AllCamera
