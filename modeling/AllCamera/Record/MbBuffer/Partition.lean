import AllCamera.Record.MbBuffer.Pools
import Mathlib.Data.List.Perm.Subperm

/-!
# Where the blocks are

Each block is in the free list of its own pool, in the free or the used list of one thread, or handed out.
The lists are disjoint as each block has one place, and each list has all blocks of its place.

* `Place`; `PoolsOk`, `Partitioned`.
* `allocMb_ok`, `freeMb_ok`: what a call does to the pools.
* `Partitioned.fill`, `Partitioned.pop`, `Partitioned.freeMb`, `Partitioned.link`: a call of a thread.
* `init_ok`; `Ok`; `run_partitioned`.
-/

namespace AllCamera

open Run

/-- Where a block is. -/
inductive Place
  | pool
  | free (t : Nat) (c : MbClass)
  | used (t : Nat)
  | outstanding
  deriving DecidableEq, Repr

/-- The class of the pool that the requests of a class are served from. -/
def served : MbClass → MbClass
  | (.normalEvent, .len4K) => (.normalEvent, .len64K)
  | c => c

/-- The pools: each has in its list the blocks in the pools that were made for it, and counts them. -/
structure PoolsOk (m : BufferManager) (place : Nat → Place) : Prop where
  pools : ∀ c p, m.mbBuff c = some p → p.mbSize = buffSize c.2 + sizeofMbBufferInfo ∧
    ∃ l, MbBuffer.FreeList m.heap p l ∧
      ∀ b, b ∈ l ↔ b < m.created ∧ place b = .pool ∧ (m.heap b).home = c
  blocks : ∀ b < m.created, (m.heap b).info = (m.heap b).home ∧
    (m.heap b).size = buffSize (m.heap b).home.2 + sizeofMbBufferInfo ∧
    (m.mbBuff (m.heap b).home).isSome
  cont : ∀ b < m.created, place b = .pool → (m.heap b).cont = none
  created : m.created < 2 ^ 31

/-- From `o` on, linked by `cont`, there are the blocks of a place. -/
structure PlaceList (m : BufferManager) (place : Nat → Place) (at' : Place) (o : Option Nat) (l : List Nat) :
    Prop where
  chain : LinkedNodes m.heap.conts o l
  mem : ∀ b, b ∈ l ↔ b < m.created ∧ place b = at'

/-- The pools, the lists of the threads and what is handed out have all blocks, each in one place; a block
that is handed out has the size that was asked for. -/
structure Partitioned (s : MbSystem) (place : Nat → Place) : Prop where
  pools : PoolsOk s.manager place
  free : ∀ t c, ∃ l, PlaceList s.manager place (.free t c) ((s.threads t).freeMsgBuffer c) l ∧
    ∀ b ∈ l, (s.manager.heap b).home = served c
  used : ∀ t, ∃ l, PlaceList s.manager place (.used t) (s.threads t).usedMsgBuffer l
  outstanding : ∀ b, b ∈ s.outstanding.map Handed.mb ↔ b < s.manager.created ∧ place b = .outstanding
  once : (s.outstanding.map Handed.mb).Nodup
  payload : ∀ o ∈ s.outstanding,
    o.mbSize.toNat + sizeofMbBufferInfo.toNat ≤ (s.manager.heap o.mb).size.toNat

variable {m m' : BufferManager} {place place' : Nat → Place} {c : MbClass} {p p' : MbBuffer} {h' : Heap}
  {l l' L : List Nat} {mb : Nat} {s : MbSystem} {t : Nat}

/-! ## The pools -/

/-- A pool gives or takes the blocks `L`. -/
theorem PoolsOk.relink (hm : PoolsOk m place) (hp : m.mbBuff c = some p) (hframe : Heap.Frame m.heap h' L)
    (hsize : p'.mbSize = p.mbSize) (hfree : MbBuffer.FreeList h' p' l')
    (hmem : ∀ b, b ∈ l' ↔ b < m.created ∧ place' b = .pool ∧ (m.heap b).home = c)
    (hL : ∀ b ∈ L, (m.heap b).home = c) (hplace : ∀ b ∉ L, place' b = place b)
    (hcont : ∀ b ∈ L, place' b = .pool → (h' b).cont = none) :
    PoolsOk { m with heap := h', mbBuff := Function.update m.mbBuff c (some p') } place' := by
  have hhome : ∀ b, (h' b).home = (m.heap b).home := fun b => (hframe.fixed b).2.2
  refine ⟨fun c' q hq => ?_, fun b hb => ?_, fun b hb hpool => ?_, hm.created⟩
  · dsimp only at hq ⊢
    by_cases hc : c' = c
    · subst hc
      rw [Function.update_self] at hq
      obtain rfl := Option.some.inj hq
      refine ⟨hsize.trans (hm.pools _ p hp).1, l', hfree, fun b => ?_⟩
      rw [hhome]
      exact hmem b
    · -- the blocks of another pool are not among them
      rw [Function.update_of_ne hc] at hq
      obtain ⟨hq', l, hlist, hl⟩ := hm.pools c' q hq
      have hout : ∀ b, (m.heap b).home = c' → b ∉ L := fun b hb hbL => hc (hb.symm.trans (hL b hbL))
      refine ⟨hq', l, ⟨hframe.chain_nexts hlist.chain fun b hb => hout b ((hl b).mp hb).2.2, hlist.count⟩,
        fun b => (hl b).trans ?_⟩
      rw [hhome]
      constructor
      · rintro ⟨hb, hpl, hc'⟩
        exact ⟨hb, by rw [hplace b (hout b hc')]; exact hpl, hc'⟩
      · rintro ⟨hb, hpl, hc'⟩
        exact ⟨hb, by rw [← hplace b (hout b hc')]; exact hpl, hc'⟩
  · obtain ⟨hinfo, hsize', hsome⟩ := hm.blocks b hb
    dsimp only
    rw [(hframe.fixed b).1, (hframe.fixed b).2.1, hhome]
    refine ⟨hinfo, hsize', ?_⟩
    by_cases hc : (m.heap b).home = c
    · rw [hc, Function.update_self]
      rfl
    · rwa [Function.update_of_ne hc]
  · dsimp only at hb ⊢
    by_cases hbL : b ∈ L
    · exact hcont b hbL hpool
    · rw [hframe.other b hbL]
      exact hm.cont b hb (by rw [← hplace b hbL]; exact hpool)

/-- Blocks outside the pools get other links and places. -/
theorem PoolsOk.frame (hm : PoolsOk m place) (hframe : Heap.Frame m.heap h' L)
    (hL : ∀ b ∈ L, place b ≠ .pool ∧ place' b ≠ .pool) (hplace : ∀ b ∉ L, place' b = place b) :
    PoolsOk { m with heap := h' } place' := by
  have hpool : ∀ b, place' b = .pool ↔ place b = .pool := by
    intro b
    by_cases hb : b ∈ L
    · exact iff_of_false (hL b hb).2 (hL b hb).1
    · rw [hplace b hb]
  refine ⟨fun c' q hq => ?_, fun b hb => ?_, fun b hb hpl => ?_, hm.created⟩
  · obtain ⟨hq', l, hlist, hl⟩ := hm.pools c' q hq
    refine ⟨hq', l, ⟨hframe.chain_nexts hlist.chain fun b hb hbL => ?_, hlist.count⟩, fun b => (hl b).trans ?_⟩
    · exact (hL b hbL).1 ((hl b).mp hb).2.1
    · dsimp only
      rw [(hframe.fixed b).2.2, hpool]
  · obtain ⟨hinfo, hsize', hsome⟩ := hm.blocks b hb
    dsimp only
    rw [(hframe.fixed b).1, (hframe.fixed b).2.1, (hframe.fixed b).2.2]
    exact ⟨hinfo, hsize', hsome⟩
  · have hb' := (hpool b).mp hpl
    dsimp only
    rw [hframe.other b fun hbL => (hL b hbL).1 hb']
    exact hm.cont b hb hb'

/-- Only the blocks `L` get other links and places. -/
structure Moved (m m' : BufferManager) (place place' : Nat → Place) (L : List Nat) : Prop where
  frame : Heap.Frame m.heap m'.heap L
  created : m'.created = m.created
  place : ∀ b ∉ L, place' b = place b

/-- A list in another place does not change. -/
theorem PlaceList.moved {at' : Place} {o : Option Nat} (h : PlaceList m place at' o l)
    (hmoved : Moved m m' place place' L) (hL : ∀ b ∈ L, place b ≠ at' ∧ place' b ≠ at') :
    PlaceList m' place' at' o l := by
  refine ⟨hmoved.frame.chain_conts h.chain fun b hb hbL => (hL b hbL).1 ((h.mem b).mp hb).2, fun b => ?_⟩
  rw [h.mem b, hmoved.created]
  by_cases hb : b ∈ L
  · exact iff_of_false (fun h' => (hL b hb).1 h'.2) fun h' => (hL b hb).2 h'.2
  · rw [hmoved.place b hb]

/-- What `CSVS_Mb_Buffer_Manager::alloc_mb` gives: blocks of one pool, linked by `cont`. -/
theorem allocMb_ok (hm : PoolsOk m place) {mbType : MbType} {mbSize n : UInt32} (hn : n ≠ 0)
    (hc : getMbBuffer mbType mbSize = some c) {dest : Place} (hdest : dest ≠ .pool) :
    ∃ taken, LinkedNodes (m.allocMb mbType mbSize n).1.heap.conts (m.allocMb mbType mbSize n).2 taken ∧
      (∀ b ∈ taken, b < m.created ∧ place b = .pool ∧ (m.heap b).home = c) ∧
      PoolsOk (m.allocMb mbType mbSize n).1 (fun b => if b ∈ taken then dest else place b) ∧
      Heap.Frame m.heap (m.allocMb mbType mbSize n).1.heap taken ∧
      (m.allocMb mbType mbSize n).1.created = m.created := by
  unfold BufferManager.allocMb
  rw [hc]
  dsimp only
  cases hp : m.mbBuff c with
  | none => exact ⟨[], rfl, by simp, by simpa using hm, .refl _ _, rfl⟩
  | some p =>
    obtain ⟨-, l, hlist, hl⟩ := hm.pools c p hp
    obtain ⟨taken, rest, rfl, hrest, hchain, hframe, hsize⟩ := MbBuffer.allocMb_spec hn hlist fun b hb =>
      hm.cont b ((hl b).mp hb).1 ((hl b).mp hb).2.1
    have hnodup := hlist.chain.nodup
    dsimp only
    generalize p.allocMb m.heap n = r at hrest hchain hframe hsize ⊢
    refine ⟨taken, hchain, fun b hb => (hl b).mp (List.mem_append_left _ hb), ?_, hframe, rfl⟩
    refine hm.relink hp hframe hsize hrest (fun b => ?_)
      (fun b hb => ((hl b).mp (List.mem_append_left _ hb)).2.2) (fun b hb => if_neg hb)
      (fun b hb hpool => absurd ((if_pos hb).symm.trans hpool) hdest)
    by_cases hb : b ∈ taken
    · have hnot : b ∉ rest := fun hrest => (List.disjoint_of_nodup_append hnodup) hb hrest
      simp [hb, hnot, hdest]
    · rw [if_neg hb, ← hl b, List.mem_append]
      simp [hb]

/-- A step of the second loop of `CSVS_Mb_Buffer_Manager::free_mb`. -/
theorem freeOne_ok (hm : PoolsOk m place) {mbFreeBuff : MbClass → Option Nat}
    (hl : LinkedNodes m.heap.conts (mbFreeBuff c) l)
    (hin : ∀ b ∈ l, b < m.created ∧ place b ≠ .pool ∧ (m.heap b).info = c) :
    PoolsOk (m.freeOne mbFreeBuff c) (fun b => if b ∈ l then .pool else place b) ∧
      Heap.Frame m.heap (m.freeOne mbFreeBuff c).heap l ∧ (m.freeOne mbFreeBuff c).created = m.created := by
  unfold BufferManager.freeOne
  have hhome : ∀ b ∈ l, (m.heap b).home = c := fun b hb =>
    (hm.blocks b (hin b hb).1).1.symm.trans (hin b hb).2.2
  cases hbuff : mbFreeBuff c with
  | none =>
    rw [hbuff] at hl
    obtain rfl := hl.eq_nil
    exact ⟨by simpa using hm, .refl _ _, rfl⟩
  | some mb =>
    rw [hbuff] at hl
    have hmem : mb ∈ l := by
      obtain ⟨l', rfl, -⟩ := hl.of_some
      exact List.mem_cons_self
    obtain ⟨p, hp⟩ : ∃ p, m.mbBuff c = some p := by
      obtain ⟨-, -, hsome⟩ := hm.blocks mb (hin mb hmem).1
      rw [hhome mb hmem] at hsome
      exact Option.isSome_iff_exists.mp hsome
    obtain ⟨hsize, pl, hlist, hpl⟩ := hm.pools c p hp
    have hdisj : ∀ b ∈ l, b ∉ pl := fun b hb hbp => (hin b hb).2.1 ((hpl b).mp hbp).2.1
    have hlen : (l ++ pl).length ≤ m.created := by
      have hnodup : (l ++ pl).Nodup :=
        List.nodup_append.mpr ⟨hl.nodup, hlist.chain.nodup, fun a ha b hb hab => hdisj a ha (hab ▸ hb)⟩
      have hsub : l ++ pl ⊆ List.range m.created := by
        intro b hb
        rw [List.mem_range]
        rcases List.mem_append.mp hb with hb | hb
        · exact (hin b hb).1
        · exact ((hpl b).mp hb).1
      simpa using (hnodup.subperm hsub).length_le
    rw [List.length_append] at hlen
    have hcreated := hm.created
    obtain ⟨hfree, hcont, hframe, hsame⟩ := MbBuffer.freeMb_spec m.created hl (by omega)
      (fun b hb => by rw [hsize, (hm.blocks b (hin b hb).1).2.1, hhome b hb]) hlist hdisj (by omega)
    rw [hp]
    dsimp only
    generalize p.freeMb m.created m.heap mb = r at hfree hcont hframe hsame ⊢
    refine ⟨hm.relink hp hframe hsame hfree (fun b => ?_) hhome (fun b hb => if_neg hb)
      fun b hb _ => hcont b hb, hframe, rfl⟩
    by_cases hb : b ∈ l
    · simp [hb, (hin b hb).1, hhome b hb]
    · rw [if_neg hb, ← hpl b, List.mem_append, List.mem_reverse]
      simp [hb]

/-- The second loop: each block goes back to its pool. -/
theorem foldl_freeOne_ok {cs : List MbClass} (hcs : cs.Nodup) {mbFreeBuff : MbClass → Option Nat}
    {lists : MbClass → List Nat} (hm : PoolsOk m place)
    (hlists : ∀ c ∈ cs, LinkedNodes m.heap.conts (mbFreeBuff c) (lists c))
    (hin : ∀ c ∈ cs, ∀ b ∈ lists c, b < m.created ∧ place b ≠ .pool ∧ (m.heap b).info = c) :
    PoolsOk (cs.foldl (BufferManager.freeOne mbFreeBuff) m)
        (fun b => if b ∈ cs.flatMap lists then .pool else place b) ∧
      Heap.Frame m.heap (cs.foldl (BufferManager.freeOne mbFreeBuff) m).heap (cs.flatMap lists) ∧
      (cs.foldl (BufferManager.freeOne mbFreeBuff) m).created = m.created := by
  induction cs generalizing m place with
  | nil => exact ⟨by simpa using hm, .refl _ _, rfl⟩
  | cons c cs ih =>
    obtain ⟨hc, hcs'⟩ := List.nodup_cons.mp hcs
    obtain ⟨hone, hframe, hcreated⟩ := freeOne_ok hm (hlists c List.mem_cons_self)
      (hin c List.mem_cons_self)
    -- the other lists have blocks of other classes
    have hout : ∀ c' ∈ cs, ∀ b ∈ lists c', b ∉ lists c := by
      intro c' hc' b hb hbc
      have heq := (hin c List.mem_cons_self b hbc).2.2.symm.trans (hin c' (List.mem_cons_of_mem _ hc') b hb).2.2
      exact hc (heq ▸ hc')
    rw [List.foldl_cons]
    generalize m.freeOne mbFreeBuff c = m₁ at hone hframe hcreated ⊢
    obtain ⟨hrest, hframe', hcreated'⟩ := ih hcs' hone
      (fun c' hc' => hframe.chain_conts (hlists c' (List.mem_cons_of_mem _ hc')) (hout c' hc'))
      (fun c' hc' b hb => by
        rw [hcreated, (hframe.fixed b).2.1, if_neg (hout c' hc' b hb)]
        exact hin c' (List.mem_cons_of_mem _ hc') b hb)
    refine ⟨?_, ?_, hcreated'.trans hcreated⟩
    · have hplace : (fun b => if b ∈ (c :: cs).flatMap lists then Place.pool else place b) =
          fun b => if b ∈ cs.flatMap lists then .pool else if b ∈ lists c then .pool else place b := by
        funext b
        simp only [List.flatMap_cons, List.mem_append]
        by_cases hb : b ∈ cs.flatMap lists
        · simp [hb]
        · by_cases hb' : b ∈ lists c
          · simp [hb']
          · simp [hb, hb']
      rw [hplace]
      exact hrest
    · rw [List.flatMap_cons]
      exact (hframe.mono (List.subset_append_left _ _)).trans (hframe'.mono (List.subset_append_right _ _))
        (List.Subset.refl _)

theorem mem_mbClasses (c : MbClass) : c ∈ mbClasses := by
  obtain ⟨mbType, mbLen⟩ := c
  cases mbType <;> cases mbLen <;> decide

/-- `CSVS_Mb_Buffer_Manager::free_mb` of a batch that is linked by `cont`. -/
theorem freeMb_ok (hm : PoolsOk m place) (hl : LinkedNodes m.heap.conts (some mb) l)
    (hin : ∀ b ∈ l, b < m.created ∧ place b ≠ .pool) :
    PoolsOk (m.freeMb mb) (fun b => if b ∈ l then .pool else place b) ∧
      Heap.Frame m.heap (m.freeMb mb).heap l ∧ (m.freeMb mb).created = m.created := by
  have hlen : l.length ≤ m.created := by
    have hsub : l ⊆ List.range m.created := fun b hb => List.mem_range.mpr (hin b hb).1
    simpa using (hl.nodup.subperm hsub).length_le
  obtain ⟨hchains, hframe⟩ := splitLoop_spec (m.created + 1) (fun _ => none)
    (fun _ => []) (by omega) hl (fun c => rfl) (fun c b hb => nomatch hb)
  unfold BufferManager.freeMb
  generalize BufferManager.splitLoop (m.created + 1) m.heap (fun _ => none) (some mb) = r at hchains hframe ⊢
  obtain ⟨h₁, mbFreeBuff⟩ := r
  dsimp only at hchains hframe ⊢
  have hsplit : PoolsOk { m with heap := h₁ } place :=
    hm.frame hframe (fun b hb => ⟨(hin b hb).2, (hin b hb).2⟩) fun b _ => rfl
  simp only [List.append_nil] at hchains
  obtain ⟨hfree, hframe', hcreated⟩ := foldl_freeOne_ok (show mbClasses.Nodup by decide) hsplit
    (fun c _ => hchains c) (fun c _ b hb => by
      obtain ⟨hb, hinfo⟩ := List.mem_filter.mp (List.mem_reverse.mp hb)
      refine ⟨(hin b hb).1, (hin b hb).2, ?_⟩
      rw [(hframe.fixed b).2.1]
      simpa using hinfo)
  have hmem : ∀ b, (b ∈ mbClasses.flatMap fun c => (l.filter fun b => (m.heap b).info = c).reverse) ↔ b ∈ l := by
    intro b
    rw [List.mem_flatMap]
    refine ⟨fun ⟨c, _, hb⟩ => (List.mem_filter.mp (List.mem_reverse.mp hb)).1, fun hb => ?_⟩
    exact ⟨(m.heap b).info, mem_mbClasses _, List.mem_reverse.mpr (List.mem_filter.mpr ⟨hb, by simp⟩)⟩
  simp only [hmem] at hfree
  exact ⟨hfree, hframe.trans (hframe'.mono fun b hb => (hmem b).mp hb) (List.Subset.refl _), hcreated⟩

/-! ## The calls of the threads -/

/-- What a request for a size gets: a block of the pool for its class, which is large enough. -/
theorem getMbBuffer_served {mbType : MbType} {mbSize : UInt32} {mbLen : MbLen}
    (h : mbSizeToLenType mbType mbSize = some mbLen) :
    getMbBuffer mbType mbSize = some (served (mbType, mbLen)) ∧
      mbSize.toNat ≤ (buffSize (served (mbType, mbLen)).2).toNat := by
  rw [← UInt32.le_iff_toNat_le]
  have h4K : buffSize .len4K ≤ buffSize .len64K := by decide
  cases mbType
  case normalEvent =>
    unfold mbSizeToLenType sizeToLenNormal at h
    unfold getMbBuffer getMbBufferNormalEvent
    dsimp only at h ⊢
    by_cases h₁ : mbSize ≤ buffSize .len128
    · rw [if_pos h₁] at h ⊢
      obtain rfl := Option.some.inj h
      exact ⟨rfl, h₁⟩
    rw [if_neg h₁] at h ⊢
    by_cases h₂ : mbSize ≤ buffSize .len256
    · rw [if_pos h₂] at h ⊢
      obtain rfl := Option.some.inj h
      exact ⟨rfl, h₂⟩
    rw [if_neg h₂] at h ⊢
    by_cases h₃ : mbSize ≤ buffSize .len1K
    · rw [if_pos h₃] at h ⊢
      obtain rfl := Option.some.inj h
      exact ⟨rfl, h₃⟩
    rw [if_neg h₃] at h ⊢
    -- a block of 64K for the class of 4K, too
    have h₅ : mbSize ≤ buffSize .len64K := by
      split_ifs at h with h₄ h₅
      · exact UInt32.le_trans h₄ h4K
      · exact h₅
    rw [if_pos h₅]
    split_ifs at h with h₄ <;> obtain rfl := Option.some.inj h <;> exact ⟨rfl, h₅⟩
  all_goals
    simp only [mbSizeToLenType, getMbBuffer, getMbBufferCallBack, getMbBufferSendMsg] at h ⊢
    split_ifs at h ⊢ <;> obtain rfl := Option.some.inj h <;> exact ⟨rfl, by assumption⟩

/-- The size of a block does not overflow. -/
theorem toNat_blockSize (mbLen : MbLen) : (buffSize mbLen + sizeofMbBufferInfo).toNat =
    (buffSize mbLen).toNat + sizeofMbBufferInfo.toNat := by
  cases mbLen <;> rfl

/-- What a call keeps of the manager of its own thread, it keeps of those of all threads. -/
theorem update_thread {β : Type} {threads : Nat → ThreadManager} {thread : ThreadManager} (g : ThreadManager → β)
    (h : g thread = g (threads t)) (t' : Nat) : g (Function.update threads t thread t') = g (threads t') := by
  by_cases ht : t' = t
  · subst ht
    rw [Function.update_self, h]
  · rw [Function.update_of_ne ht]

/-- If it changes one list only, it keeps the others. -/
theorem update_freeMsgBuffer {threads : Nat → ThreadManager} {thread : ThreadManager} {next : Option Nat}
    (h : thread.freeMsgBuffer = Function.update (threads t).freeMsgBuffer c next) {t' : Nat} {c' : MbClass}
    (hc : ¬ (t' = t ∧ c' = c)) :
    (Function.update threads t thread t').freeMsgBuffer c' = (threads t').freeMsgBuffer c' := by
  by_cases ht : t' = t
  · subst ht
    rw [Function.update_self, h, Function.update_of_ne fun heq => hc ⟨rfl, heq⟩]
  · rw [Function.update_of_ne ht]

/-- What the threads have in lists that do not change, and what is handed out. -/
theorem Partitioned.moved (hs : Partitioned s place) {s' : MbSystem}
    (hmoved : Moved s.manager s'.manager place place' L) (hpools : PoolsOk s'.manager place')
    (hfree : ∀ t c, ((s'.threads t).freeMsgBuffer c = (s.threads t).freeMsgBuffer c ∧
        ∀ b ∈ L, place b ≠ .free t c ∧ place' b ≠ .free t c) ∨
      ∃ l, PlaceList s'.manager place' (.free t c) ((s'.threads t).freeMsgBuffer c) l ∧
        ∀ b ∈ l, (s.manager.heap b).home = served c)
    (hused : ∀ t, ((s'.threads t).usedMsgBuffer = (s.threads t).usedMsgBuffer ∧
        ∀ b ∈ L, place b ≠ .used t ∧ place' b ≠ .used t) ∨
      ∃ l, PlaceList s'.manager place' (.used t) (s'.threads t).usedMsgBuffer l)
    (hout : ∀ b, b ∈ s'.outstanding.map Handed.mb ↔ b < s.manager.created ∧ place' b = .outstanding)
    (honce : (s'.outstanding.map Handed.mb).Nodup)
    (hpayload : ∀ o ∈ s'.outstanding,
      o.mbSize.toNat + sizeofMbBufferInfo.toNat ≤ (s.manager.heap o.mb).size.toNat) :
    Partitioned s' place' := by
  refine ⟨hpools, fun t c => ?_, fun t => ?_, fun b => ?_, honce, fun o ho => ?_⟩
  · have hhome : ∀ b, (s'.manager.heap b).home = (s.manager.heap b).home := fun b =>
      (hmoved.frame.fixed b).2.2
    simp only [hhome]
    rcases hfree t c with ⟨hsame, hL⟩ | hlist
    · obtain ⟨l, hl, hserved⟩ := hs.free t c
      rw [hsame]
      exact ⟨l, hl.moved hmoved hL, hserved⟩
    · exact hlist
  · rcases hused t with ⟨hsame, hL⟩ | hlist
    · obtain ⟨l, hl⟩ := hs.used t
      rw [hsame]
      exact ⟨l, hl.moved hmoved hL⟩
    · exact hlist
  · rw [hout b, hmoved.created]
  · rw [(hmoved.frame.fixed o.mb).1]
    exact hpayload o ho

/-- A batch for a thread; the first bytes of the blocks stay. -/
theorem Partitioned.fill (hs : Partitioned s place) {mbType : MbType} {mbSize : UInt32} {mbLen : MbLen}
    (h : mbSizeToLenType mbType mbSize = some mbLen) :
    ∃ place', Partitioned (s.fill t mbType mbLen mbSize) place' ∧
      ∀ b, ((s.fill t mbType mbLen mbSize).manager.heap b).info = (s.manager.heap b).info := by
  unfold MbSystem.fill
  by_cases hnone : (s.threads t).freeMsgBuffer (mbType, mbLen) = none
  case neg =>
    rw [if_neg hnone]
    exact ⟨place, hs, fun _ => rfl⟩
  rw [if_pos hnone]
  obtain ⟨hserved, -⟩ := getMbBuffer_served h
  obtain ⟨taken, hchain, hin, hpools, hframe, hcreated⟩ := allocMb_ok hs.pools
    (n := svsAllocMsgBuffCount) (by decide) hserved
    (show Place.free t (mbType, mbLen) ≠ .pool by simp)
  generalize s.manager.allocMb mbType mbSize svsAllocMsgBuffCount = r at hchain hpools hframe hcreated ⊢
  obtain ⟨m₁, mb⟩ := r
  dsimp only at hchain hpools hframe hcreated ⊢
  have hempty : ∀ b < s.manager.created, place b ≠ .free t (mbType, mbLen) := by
    obtain ⟨l, hl, -⟩ := hs.free t (mbType, mbLen)
    have hchain := hl.chain
    rw [hnone] at hchain
    obtain rfl := hchain.eq_nil
    exact fun b hb hplace => nomatch (hl.mem b).mpr ⟨hb, hplace⟩
  refine ⟨_, hs.moved ⟨hframe, hcreated, fun b hb => if_neg hb⟩ hpools (fun t' c => ?_) (fun t' => ?_)
    (fun b => ?_) hs.once hs.payload, fun b => (hframe.fixed b).2.1⟩
  · by_cases hc : t' = t ∧ c = (mbType, mbLen)
    · -- the list of the class was empty
      obtain ⟨rfl, rfl⟩ := hc
      refine .inr ⟨taken, ⟨by simpa using hchain, fun b => ?_⟩, fun b hb => (hin b hb).2.2⟩
      by_cases hb : b ∈ taken
      · simp [hb, hcreated, (hin b hb).1]
      · simp only [hb, if_false, hcreated, false_iff, not_and]
        exact hempty b
    · refine .inl ⟨update_freeMsgBuffer rfl hc, fun b hb => ?_⟩
      rw [(hin b hb).2.1, if_pos hb]
      refine ⟨by simp, fun heq => hc ?_⟩
      obtain ⟨rfl, rfl⟩ := Place.free.inj heq
      exact ⟨rfl, rfl⟩
  · refine .inl ⟨update_thread ThreadManager.usedMsgBuffer (by rfl) t', fun b hb => ?_⟩
    rw [(hin b hb).2.1, if_pos hb]
    exact ⟨by simp, by simp⟩
  · rw [hs.outstanding b]
    by_cases hb : b ∈ taken
    · simp [hb, (hin b hb).2.1]
    · simp [hb]

/-- The first block of the list of a thread is handed out. -/
theorem Partitioned.pop (hs : Partitioned s place) {mbSize : UInt32}
    (hsize : mbSize.toNat ≤ (buffSize (served c).2).toNat) :
    ∃ place', Partitioned (s.pop t c mbSize).1 place' := by
  unfold MbSystem.pop
  dsimp only
  cases hhead : (s.threads t).freeMsgBuffer c with
  | none => exact ⟨place, hs⟩
  | some mb =>
    obtain ⟨l, hl, hhome⟩ := hs.free t c
    have hchain := hl.chain
    rw [hhead] at hchain
    obtain ⟨l, rfl, hrest⟩ := hchain.of_some
    obtain ⟨hcreated, hplace⟩ := (hl.mem mb).mp List.mem_cons_self
    obtain ⟨hnotMem, -⟩ := List.nodup_cons.mp hchain.nodup
    have hframe : Heap.Frame s.manager.heap (s.manager.heap.setCont mb none) [mb] :=
      Heap.frame_setCont (List.mem_singleton_self mb)
    have hother : ∀ b ∉ [mb], Function.update place mb .outstanding b = place b := fun b hb =>
      Function.update_of_ne (fun heq => hb (List.mem_singleton.mpr heq)) _ _
    have hnew : Function.update place mb .outstanding mb = .outstanding := Function.update_self _ _ _
    have hmoved : Moved s.manager { s.manager with heap := s.manager.heap.setCont mb none } place
        (Function.update place mb .outstanding) [mb] := ⟨hframe, rfl, hother⟩
    refine ⟨_, hs.moved hmoved
      (hs.pools.frame hframe ?_ hother) (fun t' c' => ?_) (fun t' => ?_) (fun b => ?_) ?_ ?_⟩
    · simp [hplace]
    · by_cases hc : t' = t ∧ c' = c
      · obtain ⟨rfl, rfl⟩ := hc
        refine .inr ⟨l, ⟨?_, fun b => ?_⟩, fun b hb => hhome b (List.mem_cons_of_mem _ hb)⟩
        · simp only [Function.update_self]
          exact hframe.chain_conts hrest fun b hb hmem => hnotMem (List.mem_singleton.mp hmem ▸ hb)
        · by_cases hb : b = mb
          · subst hb
            simp [hnotMem]
          · rw [Function.update_of_ne hb, ← hl.mem b, List.mem_cons]
            simp [hb]
      · exact .inl ⟨update_freeMsgBuffer rfl hc, by simp [hplace, eq_comm (a := t), eq_comm (a := c), hc]⟩
    · exact .inl ⟨update_thread ThreadManager.usedMsgBuffer (by rfl) t', by simp [hplace]⟩
    · rw [List.map_cons, List.mem_cons, hs.outstanding b]
      by_cases hb : b = mb
      · subst hb
        simp [hcreated]
      · simp [hb]
    · refine List.nodup_cons.mpr ⟨fun hmem => ?_, hs.once⟩
      have hout := ((hs.outstanding mb).mp hmem).2
      rw [hplace] at hout
      cases hout
    · intro o ho
      rcases List.mem_cons.mp ho with rfl | ho
      · dsimp only
        rw [(hs.pools.blocks mb hcreated).2.1, hhome mb List.mem_cons_self, toNat_blockSize]
        omega
      · exact hs.payload o ho

theorem mem_map_filter {outstanding : List Handed} {b : Nat} :
    b ∈ (outstanding.filter fun o => o.mb ≠ mb).map Handed.mb ↔ b ∈ outstanding.map Handed.mb ∧ b ≠ mb := by
  simp only [List.mem_map, List.mem_filter, decide_eq_true_eq]
  constructor
  · rintro ⟨o, ⟨ho, hne⟩, rfl⟩
    exact ⟨⟨o, ho, rfl⟩, hne⟩
  · rintro ⟨⟨o, ho, rfl⟩, hne⟩
    exact ⟨o, ⟨ho, hne⟩, rfl⟩

/-- A block that is handed out is put in front of the used list of a thread. -/
theorem Partitioned.push (hs : Partitioned s place) (hout : mb ∈ s.outstanding.map Handed.mb)
    (hcont : (s.manager.heap mb).cont = none) :
    Partitioned (s.push t mb) (Function.update place mb (.used t)) := by
  obtain ⟨hcreated, hplace⟩ := (hs.outstanding mb).mp hout
  have hlinked : Heap.Frame s.manager.heap (s.push t mb).manager.heap [mb] ∧
      ((s.push t mb).manager.heap mb).cont = (s.threads t).usedMsgBuffer := by
    unfold MbSystem.push
    dsimp only
    cases hused : (s.threads t).usedMsgBuffer with
    | none => exact ⟨.refl _ _, hcont⟩
    | some used => exact ⟨Heap.frame_setCont (List.mem_singleton_self mb), Heap.cont_setCont_self⟩
  obtain ⟨hframe, hlink⟩ := hlinked
  have hother : ∀ b ∉ [mb], Function.update place mb (.used t) b = place b := fun b hb =>
    Function.update_of_ne (fun heq => hb (List.mem_singleton.mpr heq)) _ _
  refine hs.moved ⟨hframe, rfl, hother⟩ (hs.pools.frame hframe (by simp [hplace]) hother)
    (fun t' c => .inl ⟨congrFun (update_thread ThreadManager.freeMsgBuffer (by rfl) t') c, by simp [hplace]⟩)
    (fun t' => ?_) (fun b => ?_) ?_ (fun o ho => ?_)
  · by_cases ht : t' = t
    · subst ht
      obtain ⟨l, hl⟩ := hs.used t'
      have hmb : mb ∉ l := fun hmem => by
        have hthere := ((hl.mem mb).mp hmem).2
        rw [hplace] at hthere
        cases hthere
      refine .inr ⟨mb :: l, ⟨⟨?_, ?_⟩, fun b => ?_⟩⟩
      · unfold MbSystem.push
        simp
      · rw [show (s.push t' mb).manager.heap.conts mb = _ from hlink]
        exact hframe.chain_conts hl.chain fun b hb hmem => hmb (List.mem_singleton.mp hmem ▸ hb)
      · rw [List.mem_cons]
        by_cases hb : b = mb
        · subst hb
          simpa [MbSystem.push] using hcreated
        · rw [Function.update_of_ne hb]
          simpa [hb, MbSystem.push] using hl.mem b
    · refine .inl ⟨?_, by simp [hplace, Ne.symm ht]⟩
      unfold MbSystem.push
      simp [Function.update_of_ne ht]
  · refine mem_map_filter.trans ?_
    rw [hs.outstanding b]
    by_cases hb : b = mb
    · subst hb
      simp
    · simp [hb]
  · exact hs.once.sublist (List.filter_sublist.map _)
  · exact hs.payload o (List.mem_of_mem_filter ho)

/-- The used list of a thread goes back to the pools; the first bytes of the blocks stay. -/
theorem Partitioned.flush (hs : Partitioned s place) (hmb : (s.threads t).usedMsgBuffer = some mb) :
    ∃ place', Partitioned (s.flush t mb) place' ∧
      ∀ b, ((s.flush t mb).manager.heap b).info = (s.manager.heap b).info := by
  obtain ⟨l, hl⟩ := hs.used t
  have hchain := hl.chain
  rw [hmb] at hchain
  have hplace : ∀ b ∈ l, place b = .used t := fun b hb => ((hl.mem b).mp hb).2
  obtain ⟨hpools, hframe, hcreated⟩ := freeMb_ok hs.pools hchain fun b hb =>
    ⟨((hl.mem b).mp hb).1, by rw [hplace b hb]; simp⟩
  unfold MbSystem.flush
  refine ⟨_, hs.moved ⟨hframe, hcreated, fun b hb => if_neg hb⟩ hpools
    (fun t' c => .inl ⟨congrFun (update_thread ThreadManager.freeMsgBuffer (by rfl) t') c, fun b hb => ?_⟩)
    (fun t' => ?_) (fun b => ?_) hs.once hs.payload, fun b => (hframe.fixed b).2.1⟩
  · rw [hplace b hb, if_pos hb]
    exact ⟨by simp, by simp⟩
  · by_cases ht : t' = t
    · subst ht
      refine .inr ⟨[], ⟨by simp, fun b => ?_⟩⟩
      rw [hcreated]
      by_cases hb : b ∈ l
      · simp [hb]
      · simp only [hb, if_false, List.not_mem_nil, false_iff]
        exact fun h => hb ((hl.mem b).mpr h)
    · refine .inl ⟨by simp [Function.update_of_ne ht], fun b hb => ?_⟩
      rw [hplace b hb, if_pos hb]
      exact ⟨by simp [Ne.symm ht], by simp⟩
  · rw [hs.outstanding b]
    by_cases hb : b ∈ l
    · simp [hb, hplace b hb]
    · simp [hb]

theorem Partitioned.freeMb (hs : Partitioned s place) (hout : mb ∈ s.outstanding.map Handed.mb)
    (hcont : (s.manager.heap mb).cont = none) : ∃ place', Partitioned (s.freeMb t mb) place' := by
  have hpush := hs.push (t := t) hout hcont
  have hused : ((s.push t mb).threads t).usedMsgBuffer = some mb := by
    unfold MbSystem.push
    simp
  unfold MbSystem.freeMb
  dsimp only
  split_ifs
  · obtain ⟨place', hflush, -⟩ := hpush.flush hused
    exact ⟨place', hflush⟩
  · exact ⟨_, hpush⟩

/-- The holder of a block changes its links. -/
theorem Partitioned.link (hs : Partitioned s place) (hout : mb ∈ s.outstanding.map Handed.mb)
    (next cont : Option Nat) : Partitioned (s.step (.link mb next cont)) place := by
  obtain ⟨-, hplace⟩ := (hs.outstanding mb).mp hout
  have hframe : Heap.Frame s.manager.heap ((s.manager.heap.setNext mb next).setCont mb cont) [mb] :=
    (Heap.frame_setNext (List.mem_singleton_self mb)).trans (Heap.frame_setCont (List.mem_singleton_self mb))
      (List.Subset.refl _)
  refine hs.moved ⟨hframe, rfl, fun _ _ => rfl⟩ (hs.pools.frame hframe (by simp [hplace]) fun _ _ => rfl)
    (fun t c => .inl ⟨rfl, by simp [hplace]⟩) (fun t => .inl ⟨rfl, by simp [hplace]⟩) hs.outstanding hs.once
    hs.payload

/-! ## `init` -/

/-- From `created` on, `n` blocks were made for a pool. -/
structure Made (c : MbClass) (size : UInt32) (created n : Nat) (h h' : Heap) : Prop where
  old : ∀ b < created, h' b = h b
  new : ∀ b, created ≤ b → b < created + n →
    (h' b).info = c ∧ (h' b).home = c ∧ (h' b).size = size ∧ (h' b).cont = none

/-- The loop of `init` makes blocks for a pool and puts them in its list. -/
theorem initLoop_spec (n : Nat) {h : Heap} {created : Nat} (hl : LinkedNodes h.nexts p.freeMbList l)
    (hlt : ∀ b ∈ l, b < created) :
    ∃ h' l' mbFirst, MbBuffer.initLoop c n h created p = (h', created + n, { p with freeMbList := mbFirst }) ∧
      Made c p.mbSize created n h h' ∧ LinkedNodes h'.nexts mbFirst l' ∧ l'.length = n + l.length ∧
      ∀ b, b ∈ l' ↔ b ∈ l ∨ created ≤ b ∧ b < created + n := by
  induction n generalizing h created p l with
  | zero =>
    refine ⟨h, l, p.freeMbList, rfl, ⟨fun _ _ => rfl, fun b hle hlt => by omega⟩, hl, by omega, fun b => ?_⟩
    refine ⟨.inl, fun hb => hb.elim id fun hb => by omega⟩
  | succ n ih =>
    unfold MbBuffer.initLoop
    dsimp only
    generalize hmb : (⟨p.freeMbList, none, p.mbSize, c, c⟩ : MessageBlock) = mb
    have hself : Function.update h created mb created = mb := Function.update_self _ _ _
    have hother : ∀ b, b ≠ created → Function.update h created mb b = h b := fun b hb =>
      Function.update_of_ne hb _ _
    generalize Function.update h created mb = h₁ at hself hother ⊢
    have hpushed : LinkedNodes (Heap.nexts h₁) (some created) (created :: l) :=
      hl.push (by unfold Heap.nexts; rw [hself, ← hmb]) fun b hb => by
        unfold Heap.nexts
        rw [hother b (Nat.ne_of_lt (hlt b hb))]
    obtain ⟨h', l', mbFirst, heq, hmade, hchain, hlen, hmem⟩ := @ih { p with freeMbList := some created } _ h₁
      (created + 1) hpushed
      (by
        intro b hb
        rcases List.mem_cons.mp hb with rfl | hb
        · exact Nat.lt_succ_self _
        · exact Nat.lt_succ_of_lt (hlt b hb))
    refine ⟨h', l', mbFirst, ?_, ⟨fun b hb => ?_, fun b hle hb => ?_⟩, hchain, ?_, fun b => ?_⟩
    · rw [heq, Nat.add_right_comm, Nat.add_assoc]
    · rw [hmade.old b (Nat.lt_succ_of_lt hb), hother b (Nat.ne_of_lt hb)]
    · by_cases hb' : b = created
      · subst hb'
        rw [hmade.old b (Nat.lt_succ_self b), hself, ← hmb]
        exact ⟨rfl, rfl, rfl, rfl⟩
      · exact hmade.new b (by omega) (by omega)
    · rw [hlen, List.length_cons]
      omega
    · rw [hmem, List.mem_cons]
      constructor
      · rintro ((rfl | hb) | hb)
        · exact .inr (by omega)
        · exact .inl hb
        · exact .inr (by omega)
      · rintro (hb | hb)
        · exact .inl (.inr hb)
        · by_cases hb' : b = created
          · exact .inl (.inl hb')
          · exact .inr (by omega)

/-- The pool of a class in `init`: its blocks are in its list. -/
theorem initOne_ok (hm : PoolsOk m fun _ => .pool) (hnone : m.mbBuff c = none)
    (hcount : m.created + (buffCount c).toNat < 2 ^ 31) :
    PoolsOk (m.initOne c) (fun _ => .pool) ∧ (m.initOne c).created = m.created + (buffCount c).toNat ∧
      (∀ b < m.created, (m.initOne c).heap b = m.heap b) ∧
      (∀ b, m.created ≤ b → b < (m.initOne c).created → ((m.initOne c).heap b).home = c) ∧
      ∀ c', c' ≠ c → (m.initOne c).mbBuff c' = m.mbBuff c' := by
  unfold BufferManager.initOne
  by_cases hzero : buffCount c = 0
  · rw [if_pos hzero, hzero]
    exact ⟨hm, rfl, fun _ _ => rfl, fun b hle hlt => absurd hlt (Nat.not_lt.mpr hle), fun _ _ => rfl⟩
  rw [if_neg hzero]
  unfold MbBuffer.init
  obtain ⟨h', l, mbFirst, heq, hmade, hchain, hlen, hmem⟩ :=
    @initLoop_spec c ⟨buffSize c.2 + sizeofMbBufferInfo, buffCount c, none⟩ [] (buffCount c).toNat m.heap
      m.created rfl nofun
  rw [heq]
  dsimp only at hmade ⊢
  generalize hn : (buffCount c).toNat = n at hmade hlen hmem hcount ⊢
  have hne : ∀ b < m.created, (m.heap b).home ≠ c := fun b hb hc => by
    have hsome := (hm.blocks b hb).2.2
    rw [hc, hnone] at hsome
    exact nomatch hsome
  refine ⟨⟨fun c' q hq => ?_, fun b hb => ?_, fun b hb _ => ?_, hcount⟩, rfl, hmade.old,
    fun b hle hlt => (hmade.new b hle hlt).2.1, fun c' hc' => Function.update_of_ne hc' _ _⟩
  · dsimp only at hq ⊢
    by_cases hc : c' = c
    · subst hc
      rw [Function.update_self] at hq
      obtain rfl := Option.some.inj hq
      refine ⟨rfl, l, ⟨hchain, hn.trans hlen.symm⟩, fun b => (hmem b).trans ?_⟩
      constructor
      · rintro (hb | ⟨hle, hb⟩)
        · exact nomatch hb
        · exact ⟨hb, rfl, (hmade.new b hle hb).2.1⟩
      · rintro ⟨hb, -, hhome⟩
        refine .inr ⟨Nat.not_lt.mp fun hlt => hne b hlt ?_, hb⟩
        rwa [hmade.old b hlt] at hhome
    · -- the blocks of another pool were there
      rw [Function.update_of_ne hc] at hq
      obtain ⟨hsize, l', hlist, hl'⟩ := hm.pools c' q hq
      refine ⟨hsize, l', ⟨hlist.chain.congr fun b hb => ?_, hlist.count⟩, fun b => (hl' b).trans ?_⟩
      · unfold Heap.nexts
        rw [hmade.old b ((hl' b).mp hb).1]
      · constructor
        · rintro ⟨hb, -, hhome⟩
          exact ⟨Nat.lt_of_lt_of_le hb (Nat.le_add_right _ _), rfl, by rw [hmade.old b hb]; exact hhome⟩
        · rintro ⟨hb, -, hhome⟩
          by_cases hlt : b < m.created
          · exact ⟨hlt, rfl, by rw [← hmade.old b hlt]; exact hhome⟩
          · exact absurd (hhome.symm.trans (hmade.new b (Nat.not_lt.mp hlt) hb).2.1) hc
  · dsimp only at hb ⊢
    by_cases hlt : b < m.created
    · rw [hmade.old b hlt, Function.update_of_ne (hne b hlt)]
      exact hm.blocks b hlt
    · obtain ⟨hinfo, hhome, hsize, -⟩ := hmade.new b (Nat.not_lt.mp hlt) hb
      rw [hinfo, hhome, hsize, Function.update_self]
      exact ⟨rfl, rfl, rfl⟩
  · dsimp only at hb ⊢
    by_cases hlt : b < m.created
    · rw [hmade.old b hlt]
      exact hm.cont b hlt rfl
    · exact (hmade.new b (Nat.not_lt.mp hlt) hb).2.2.2

/-- The loops of `init`. -/
theorem foldl_initOne_ok {cs : List MbClass} (hcs : cs.Nodup) (hm : PoolsOk m fun _ => .pool)
    (hnone : ∀ c ∈ cs, m.mbBuff c = none)
    (hcount : m.created + (cs.map fun c => (buffCount c).toNat).sum < 2 ^ 31) :
    PoolsOk (cs.foldl BufferManager.initOne m) (fun _ => .pool) ∧
      m.created ≤ (cs.foldl BufferManager.initOne m).created ∧
      (∀ b < m.created, (cs.foldl BufferManager.initOne m).heap b = m.heap b) ∧
      ∀ c ∈ cs, buffCount c ≠ 0 → ∃ b < (cs.foldl BufferManager.initOne m).created,
        ((cs.foldl BufferManager.initOne m).heap b).home = c := by
  induction cs generalizing m with
  | nil => exact ⟨hm, Nat.le_refl _, fun _ _ => rfl, nofun⟩
  | cons c cs ih =>
    obtain ⟨hc, hcs'⟩ := List.nodup_cons.mp hcs
    rw [List.map_cons, List.sum_cons] at hcount
    obtain ⟨hone, hcreated, hold, hhome, hother⟩ := initOne_ok hm (hnone c List.mem_cons_self) (by omega)
    rw [List.foldl_cons]
    generalize m.initOne c = m₁ at hone hcreated hold hhome hother ⊢
    obtain ⟨hrest, hle, hold', hsome⟩ := ih hcs' hone
      (fun c' hc' => by
        rw [hother c' fun heq => hc (heq ▸ hc')]
        exact hnone c' (List.mem_cons_of_mem _ hc'))
      (by omega)
    refine ⟨hrest, by omega, fun b hb => ?_, fun c' hc' hcount' => ?_⟩
    · rw [hold' b (by omega), hold b hb]
    · rcases List.mem_cons.mp hc' with rfl | hc'
      · -- the first one of its blocks
        have hpos : 0 < (buffCount c').toNat :=
          Nat.pos_of_ne_zero fun hzero => hcount' (UInt32.toNat_inj.mp hzero)
        refine ⟨m.created, by omega, ?_⟩
        rw [hold' m.created (by omega)]
        exact hhome m.created (Nat.le_refl _) (by omega)
      · exact hsome c' hc' hcount'

theorem sum_buffCount : (mbClasses.map fun c => (buffCount c).toNat).sum = 127260 := by decide

/-- The pools after `init`; each has blocks. -/
theorem init_ok (h : Heap) : PoolsOk (MbSystem.start h).manager (fun _ => .pool) ∧
    ∀ c, buffCount c ≠ 0 → ∃ b < (MbSystem.start h).manager.created,
      ((MbSystem.start h).manager.heap b).home = c := by
  have hempty : PoolsOk ⟨h, 0, fun _ => none⟩ fun _ => .pool :=
    ⟨nofun, nofun, nofun, Nat.two_pow_pos 31⟩
  have hcount : 0 + (mbClasses.map fun c => (buffCount c).toNat).sum < 2 ^ 31 := by
    rw [sum_buffCount]
    decide
  obtain ⟨hinit, -, -, hsome⟩ := foldl_initOne_ok (show mbClasses.Nodup by decide) hempty (fun _ _ => rfl) hcount
  unfold MbSystem.start BufferManager.init
  generalize mbClasses.foldl BufferManager.initOne ⟨h, 0, fun _ => none⟩ = m at hinit hsome ⊢
  exact ⟨hinit, fun c => hsome c (mem_mbClasses c)⟩

/-- After `init` all blocks are in the pools. -/
theorem start_partitioned (h : Heap) : Partitioned (MbSystem.start h) fun _ => .pool := by
  refine ⟨(init_ok h).1, fun t c => ⟨[], ⟨rfl, fun b => ?_⟩, nofun⟩, fun t => ⟨[], ⟨rfl, fun b => ?_⟩⟩,
    fun b => ?_, List.nodup_nil, nofun⟩
  · simp
  · simp
  · simp [MbSystem.start]

/-! ## Runs -/

namespace MbSystem

/-- A block is freed by who holds it, with no continuation, and nobody else changes its links. -/
def Ok (s : MbSystem) : Act → Prop
  | .allocMb _ _ _ => True
  | .freeMb _ mb => mb ∈ s.outstanding.map Handed.mb ∧ (s.manager.heap mb).cont = none
  | .link mb _ _ => mb ∈ s.outstanding.map Handed.mb

end MbSystem

theorem Partitioned.allocMb (hs : Partitioned s place) (mbType : UInt8) (mbSize : UInt32) :
    ∃ place', Partitioned (s.allocMb t mbType mbSize).1 place' := by
  unfold MbSystem.allocMb
  cases MbType.ofUInt8 mbType with
  | none => exact ⟨place, hs⟩
  | some mbType =>
    dsimp only
    cases hlen : mbSizeToLenType mbType mbSize with
    | none => exact ⟨place, hs⟩
    | some mbLen =>
      obtain ⟨place', hfill, -⟩ := hs.fill (t := t) hlen
      exact hfill.pop (getMbBuffer_served hlen).2

theorem Partitioned.step (hs : Partitioned s place) {a : MbSystem.Act} (ha : s.Ok a) :
    ∃ place', Partitioned (s.step a) place' := by
  cases a with
  | allocMb t mbType mbSize => exact hs.allocMb mbType mbSize
  | freeMb t mb => exact hs.freeMb ha.1 ha.2
  | link mb next cont => exact ⟨place, hs.link ha next cont⟩

/-- What is handed out has no continuation. -/
theorem allocMb_handed {type : UInt8} {mbSize : UInt32} (h : (s.allocMb t type mbSize).2 = some mb) :
    ⟨mb, t, mbSize⟩ ∈ (s.allocMb t type mbSize).1.outstanding ∧
      ((s.allocMb t type mbSize).1.manager.heap mb).cont = none := by
  unfold MbSystem.allocMb at h ⊢
  cases htype : MbType.ofUInt8 type with
  | none => simp [htype] at h
  | some mbType =>
    rw [htype] at h
    dsimp only at h ⊢
    cases hlen : mbSizeToLenType mbType mbSize with
    | none => simp [hlen] at h
    | some mbLen =>
      rw [hlen] at h
      dsimp only at h ⊢
      unfold MbSystem.pop at h ⊢
      dsimp only at h ⊢
      generalize s.fill t mbType mbLen mbSize = s' at h ⊢
      cases hhead : (s'.threads t).freeMsgBuffer (mbType, mbLen) with
      | none => simp [hhead] at h
      | some first =>
        rw [hhead] at h
        obtain rfl := Option.some.inj h
        exact ⟨List.mem_cons_self, Heap.cont_setCont_self⟩

/-- It may be freed, by any thread. -/
theorem allowed_freeMb {type : UInt8} {mbSize : UInt32} {t' : Nat} (h : (s.allocMb t type mbSize).2 = some mb) :
    Allowed MbSystem.step MbSystem.Ok s [.allocMb t type mbSize, .freeMb t' mb] := by
  obtain ⟨hmem, hcont⟩ := allocMb_handed h
  exact ⟨trivial, ⟨List.mem_map_of_mem hmem, hcont⟩, trivial⟩

/-- A request is served while its pool has a block. -/
theorem allocMb_of_some {type : UInt8} {mbType : MbType} {mbLen : MbLen} {mbSize : UInt32}
    (htype : MbType.ofUInt8 type = some mbType) (hlen : mbSizeToLenType mbType mbSize = some mbLen)
    (hnone : (s.threads t).freeMsgBuffer (mbType, mbLen) = none)
    (hp : s.manager.mbBuff (served (mbType, mbLen)) = some p) (hhead : p.freeMbList = some mb) :
    (s.allocMb t type mbSize).2 = some mb := by
  have halloc : (s.manager.allocMb mbType mbSize svsAllocMsgBuffCount).2 = some mb := by
    unfold BufferManager.allocMb MbBuffer.allocMb
    rw [(getMbBuffer_served hlen).1]
    dsimp only
    rw [hp]
    dsimp only
    rw [if_neg (by decide), hhead]
  have hfill : ((s.fill t mbType mbLen mbSize).threads t).freeMsgBuffer (mbType, mbLen) = some mb := by
    unfold MbSystem.fill
    rw [if_pos hnone]
    dsimp only
    rw [Function.update_self]
    dsimp only
    rw [Function.update_self]
    exact halloc
  unfold MbSystem.allocMb
  rw [htype]
  dsimp only
  rw [hlen]
  dsimp only
  unfold MbSystem.pop
  dsimp only
  rw [hfill]

/-- A first request is served. -/
theorem start_allocMb (h : Heap) {type : UInt8} {mbType : MbType} {mbLen : MbLen} {mbSize : UInt32}
    (htype : MbType.ofUInt8 type = some mbType) (hlen : mbSizeToLenType mbType mbSize = some mbLen)
    (hcount : buffCount (served (mbType, mbLen)) ≠ 0) :
    ∃ mb, ((MbSystem.start h).allocMb t type mbSize).2 = some mb := by
  obtain ⟨hpools, hsome⟩ := init_ok h
  obtain ⟨b, hb, hhome⟩ := hsome _ hcount
  have hnone : ((MbSystem.start h).threads t).freeMsgBuffer (mbType, mbLen) = none := rfl
  generalize MbSystem.start h = s at hpools hb hhome hnone ⊢
  obtain ⟨p, hp⟩ := Option.isSome_iff_exists.mp (hpools.blocks b hb).2.2
  rw [hhome] at hp
  obtain ⟨-, l, hlist, hl⟩ := hpools.pools _ p hp
  cases hhead : p.freeMbList with
  | none =>
    have hnil := hlist.chain.eq_none_iff.mp hhead
    exact absurd ((hl b).mpr ⟨hb, rfl, hhome⟩) (by rw [hnil]; exact List.not_mem_nil)
  | some mb => exact ⟨mb, allocMb_of_some htype hlen hnone hp hhead⟩

/-- Memory before `init`. -/
def Heap.blank : Heap := fun _ => ⟨none, none, 0, (.alarmEvent, .len128), (.alarmEvent, .len128)⟩

/-- In every run each block is in its own pool, in one list of one thread or handed out, each pool counts
its blocks, and each block that is handed out has the size that was asked for. -/
theorem run_partitioned {h : Heap} {acts : List MbSystem.Act}
    (hacts : Allowed MbSystem.step MbSystem.Ok (.start h) acts) :
    ∃ place, Partitioned (run MbSystem.step (.start h) acts) place :=
  hacts.invariant (I := fun s => ∃ place, Partitioned s place) ⟨_, start_partitioned h⟩
    fun _ _ ⟨_, hs⟩ ha => hs.step ha

/-- A block that the thread 0 has got is freed by the thread 1. -/
theorem run_partitioned_other_thread :
    ∃ mb, ((MbSystem.start .blank).allocMb 0 0 100).2 = some mb ∧
      ∃ place, Partitioned (run MbSystem.step (.start .blank) [.allocMb 0 0 100, .freeMb 1 mb]) place := by
  obtain ⟨mb, hmb⟩ := @start_allocMb 0 .blank 0 .alarmEvent .len128 100 (by decide) (by decide) (by decide)
  exact ⟨mb, hmb, run_partitioned (allowed_freeMb hmb)⟩

end AllCamera
