import AllCamera.Stream.FrameOrganizer
import Mathlib.Algebra.Order.Group.Multiset

/-!
# The invariant of the frame organizer

`Inv n o` holds in every state that `insertRtpPacket` calls reach after `init(n)`
(`run_inv`): the free list and the map share the `n` frame infos between them, each map entry has
its info's timestamp as key, a queue holds packets of its timestamp in the order of their numbers,
and the marker of an info was seen on a packet that is still queued.

One spec lemma per operation: `insert_spec`, `insertFrame_spec`, `getSmallFrame_spec`,
`releaseRtpPacket_spec`, `checkFrame_spec`. Each says what the operation does to the packets in
the queues (`queued`), up to their order; `insertInfo_spec` puts them together.
-/

namespace AllCamera

/-- The numbers of a queue do not decrease. -/
def InOrder (q : List PackInfo) : Prop := q.Pairwise fun a b => a.usSeq ≤ b.usSeq

/-- What the organizer keeps true of the frame info stored under `k`. -/
structure FrameInfo.Keeps (k : UInt32) (f : FrameInfo) : Prop where
  stamp : f.unTimestamp = k
  own : ∀ i ∈ f.packetQueue, i.unTimestamp = k
  inOrder : InOrder f.packetQueue
  marked : f.bMarker = true → ∃ i ∈ f.packetQueue, i.bMarker = true

/-- A list that is handed over: not empty, one timestamp, the smallest of the map, numbers that
count up by one, and a packet with the marker. -/
structure Delivery.Sound (d : Delivery) : Prop where
  ne_nil : d.packets ≠ []
  smallest : ∃ k ∈ d.cached, (∀ i ∈ d.packets, i.unTimestamp = k) ∧ ∀ t ∈ d.cached, k ≤ t
  stepsByOne : d.packets.IsChain fun a b => b.usSeq = a.usSeq + 1
  inOrder : InOrder d.packets
  marker : ∃ i ∈ d.packets, i.bMarker = true

namespace FrameOrganizer

/-- The invariant of an organizer with `n` frame infos. -/
structure Inv (n : Nat) (o : FrameOrganizer) : Prop where
  slots : (o.freeList ++ o.frameMap.map Prod.snd).Perm (List.range n)
  keys : (o.frameMap.map Prod.fst).Nodup
  frames : ∀ e ∈ o.frameMap, (o.heap e.2).Keeps e.1
  free : ∀ p ∈ o.freeList, (o.heap p).packetQueue = []

variable {n : Nat} {o : FrameOrganizer} {info : PackInfo} {q : List PackInfo} {p : Nat} {k : UInt32}

/-! ## Queues -/

theorem insertRange_spec (h : ∃ i ∈ q, info.usSeq ≤ i.usSeq) (hq : InOrder q) :
    ∃ q', insertRange info q = some q' ∧ q'.Perm (info :: q) ∧ InOrder q' := by
  induction q with
  | nil => simp at h
  | cons i q ih =>
    obtain ⟨hi, hq'⟩ := List.pairwise_cons.mp hq
    simp only [insertRange]
    by_cases hle : info.usSeq ≤ i.usSeq
    · refine ⟨_, if_pos hle, .refl _, List.pairwise_cons.mpr ⟨fun j hj => ?_, hq⟩⟩
      rcases List.mem_cons.mp hj with rfl | hj
      · exact hle
      · exact UInt16.le_trans hle (hi j hj)
    · obtain ⟨j, hj, hij⟩ := h
      have hjq : j ∈ q := by
        rcases List.mem_cons.mp hj with rfl | hj
        · exact absurd hij hle
        · exact hj
      obtain ⟨q', hr, hp, ho⟩ := ih ⟨j, hjq, hij⟩ hq'
      refine ⟨i :: q', by rw [if_neg hle, hr]; rfl, (hp.cons i).trans (.swap _ _ _), ?_⟩
      refine List.pairwise_cons.mpr ⟨fun x hx => ?_, ho⟩
      rcases List.mem_cons.mp (hp.mem_iff.mp hx) with rfl | hx
      · exact UInt16.le_of_lt (UInt16.not_le.mp hle)
      · exact hi x hx

/-- `insert` never fails; it adds the packet and keeps the order. -/
theorem insert_spec (info : PackInfo) (hq : InOrder q) :
    ∃ q', insert info q = some q' ∧ q'.Perm (info :: q) ∧ InOrder q' := by
  rcases List.eq_nil_or_concat' q with rfl | ⟨r, last, rfl⟩
  · exact ⟨[info], rfl, .refl _, List.pairwise_singleton _ _⟩
  obtain ⟨first, hf⟩ : ∃ first, (r ++ [last]).head? = some first := by cases r <;> simp
  have hl : (r ++ [last]).getLast? = some last := by simp
  simp only [insert, hf, hl]
  by_cases h1 : last.usSeq ≤ info.usSeq
  · refine ⟨_, if_pos h1, List.perm_append_comm, List.pairwise_append.mpr ⟨hq, by simp, ?_⟩⟩
    intro i hi j hj
    obtain rfl := List.mem_singleton.mp hj
    rcases List.mem_append.mp hi with hi | hi
    · exact UInt16.le_trans ((List.pairwise_append.mp hq).2.2 i hi last (by simp)) h1
    · obtain rfl := List.mem_singleton.mp hi
      exact h1
  rw [if_neg h1]
  by_cases h2 : info.usSeq < first.usSeq
  · refine ⟨_, if_pos h2, .refl _, List.pairwise_cons.mpr ⟨fun i hi => ?_, hq⟩⟩
    have hfi : first.usSeq ≤ i.usSeq := by
      obtain ⟨t, ht⟩ := List.head?_eq_some_iff.mp hf
      rw [ht] at hi hq
      rcases List.mem_cons.mp hi with rfl | hi
      · exact UInt16.le_refl _
      · exact (List.pairwise_cons.mp hq).1 i hi
    exact UInt16.le_trans (UInt16.le_of_lt h2) hfi
  · rw [if_neg h2]
    exact insertRange_spec ⟨last, by simp, UInt16.le_of_lt (UInt16.not_le.mp h1)⟩ hq

/-- A packet that no queued one comes after goes to the end. -/
theorem insert_last (h : ∀ i ∈ q, i.usSeq ≤ info.usSeq) : insert info q = some (q ++ [info]) := by
  rcases List.eq_nil_or_concat' q with rfl | ⟨r, last, rfl⟩
  · rfl
  obtain ⟨first, hf⟩ : ∃ first, (r ++ [last]).head? = some first := by cases r <;> simp
  have hl : (r ++ [last]).getLast? = some last := by simp
  simp only [insert, hf, hl]
  rw [if_pos (h last (by simp))]

/-! ## Frame infos -/

@[simp] theorem heap_setInfo_self (f : FrameInfo) : (o.setInfo p f).heap p = f := by
  simp [setInfo]

theorem heap_setInfo_ne {r : Nat} (f : FrameInfo) (h : r ≠ p) : (o.setInfo p f).heap r = o.heap r := by
  simp [setInfo, h]

@[simp] theorem frameMap_setInfo (f : FrameInfo) : (o.setInfo p f).frameMap = o.frameMap := rfl

/-- No frame info is in two places. -/
theorem Inv.distinct (h : Inv n o) : (o.freeList ++ o.frameMap.map Prod.snd).Nodup :=
  h.slots.nodup_iff.mpr List.nodup_range

/-- Two entries of the map have the same info only if they are the same entry. -/
theorem Inv.entry_eq (h : Inv n o) {e e' : UInt32 × Nat} (he : e ∈ o.frameMap) (he' : e' ∈ o.frameMap)
    (hp : e.2 = e'.2) : e = e' :=
  List.inj_on_of_nodup_map (List.Nodup.of_append_right h.distinct) he he' hp

/-- An info in the map is not free. -/
theorem Inv.notMem_free (h : Inv n o) {e : UInt32 × Nat} (he : e ∈ o.frameMap) :
    e.2 ∉ o.freeList := fun hf =>
  (List.nodup_append.mp h.distinct).2.2 _ hf _ (List.mem_map_of_mem he) rfl

/-- The packets of the other entries. -/
def queuedBut (o : FrameOrganizer) (k : UInt32) : List PackInfo :=
  (Assoc.erase o.frameMap k).flatMap fun e => (o.heap e.2).packetQueue

/-- The queued packets are those of one entry and those of the others. -/
theorem Inv.queued_perm (h : Inv n o) (he : (k, p) ∈ o.frameMap) :
    o.queued.Perm ((o.heap p).packetQueue ++ o.queuedBut k) :=
  (Assoc.perm_erase h.keys he).flatMap_right _

/-- Changing the info of one entry leaves the packets of the others. -/
theorem Inv.queuedBut_setInfo (h : Inv n o) (he : (k, p) ∈ o.frameMap) (f : FrameInfo) :
    (o.setInfo p f).queuedBut k = o.queuedBut k := by
  simp only [queuedBut, frameMap_setInfo]
  apply List.flatMap_congr
  intro e hm
  obtain ⟨hm, hk⟩ := Assoc.mem_erase.mp hm
  rw [heap_setInfo_ne f fun hp => hk (congrArg Prod.fst (h.entry_eq hm he hp))]

/-- A new info under an entry that it fits keeps the invariant. -/
theorem Inv.setInfo (h : Inv n o) (he : (k, p) ∈ o.frameMap) {f : FrameInfo} (hf : f.Keeps k) :
    Inv n (o.setInfo p f) where
  slots := h.slots
  keys := h.keys
  frames e hm := by
    by_cases hp : e.2 = p
    · obtain rfl := h.entry_eq hm he hp
      simpa using hf
    · rw [heap_setInfo_ne f hp]
      exact h.frames e hm
  free r hr := by
    have hp : r ≠ p := by
      rintro rfl
      exact h.notMem_free he hr
    rw [heap_setInfo_ne f hp]
    exact h.free r hr

/-- `InsertFrame` for a timestamp that is not in the map: the new entry has an empty queue. -/
theorem insertFrame_spec (h : Inv n o) (hk : k ∉ o.frameMap.map Prod.fst) {o' : FrameOrganizer}
    (hi : o.insertFrame k = some (p, o')) :
    Inv n o' ∧ (k, p) ∈ o'.frameMap ∧ o'.heap p = ⟨k, false, []⟩ ∧ o'.queued.Perm o.queued ∧
      o'.duplicates = o.duplicates ∧
      o'.frameMap = o.frameMap.orderedInsert (fun a b => a.1 ≤ b.1) (k, p) := by
  unfold insertFrame at hi
  split at hi
  · cases hi
  · rename_i r free hfree
    obtain ⟨rfl, rfl⟩ := Prod.mk.inj (Option.some.inj hi)
    have hempty : (o.heap r).packetQueue = [] := h.free r (by simp [hfree])
    have hnew : ({ o.heap r with bMarker := false, unTimestamp := k } : FrameInfo) = ⟨k, false, []⟩ := by
      rw [FrameInfo.mk.injEq]; exact ⟨rfl, rfl, hempty⟩
    have hperm := List.perm_orderedInsert (fun a b : UInt32 × Nat => a.1 ≤ b.1) (k, r) o.frameMap
    have hdist := h.distinct
    rw [hfree, List.cons_append, List.nodup_cons] at hdist
    have hother : ∀ e ∈ o.frameMap, e.2 ≠ r := fun e he hp =>
      hdist.1 (List.mem_append_right _ (hp ▸ List.mem_map_of_mem he))
    refine ⟨⟨?_, ?_, fun e he => ?_, fun x hx => ?_⟩, hperm.mem_iff.mpr (by simp), ?_, ?_, rfl, rfl⟩
    · have := h.slots
      rw [hfree] at this
      refine List.Perm.trans ?_ this
      exact ((hperm.map _).append_left free).trans List.perm_middle
    · rw [(hperm.map Prod.fst).nodup_iff]
      exact List.nodup_cons.mpr ⟨hk, h.keys⟩
    · rcases List.mem_cons.mp (hperm.mem_iff.mp he) with rfl | he
      · simp only [setInfo, Function.update_self, hnew]
        exact ⟨rfl, by simp, List.Pairwise.nil, by simp⟩
      · simp only [setInfo, Function.update_of_ne (hother e he)]
        exact h.frames e he
    · have hxr : x ≠ r := fun hp => hdist.1 (List.mem_append_left _ (hp ▸ hx))
      simp only [setInfo, Function.update_of_ne hxr]
      exact h.free x (by rw [hfree]; exact List.mem_cons_of_mem _ hx)
    · simp only [setInfo, Function.update_self, hnew]
    · refine (hperm.flatMap_right _).trans ?_
      rw [List.flatMap_cons]
      simp only [setInfo, Function.update_self, hempty, List.nil_append]
      refine .of_eq (List.flatMap_congr fun e he => ?_)
      rw [Function.update_of_ne (hother e he)]

/-- `InsertFrame` leaves the other infos. -/
theorem heap_insertFrame_ne {o' : FrameOrganizer} {r : Nat} (hi : o.insertFrame k = some (p, o'))
    (h : r ≠ p) : o'.heap r = o.heap r := by
  unfold insertFrame at hi
  split at hi
  · cases hi
  · obtain ⟨rfl, rfl⟩ := Prod.mk.inj (Option.some.inj hi)
    exact heap_setInfo_ne _ h

/-- The scan of `GetSmallFrame` from a candidate `r` on. -/
theorem foldl_smaller (o : FrameOrganizer) (l : List (UInt32 × Nat)) (r : Nat) :
    ∃ p, l.foldl o.smaller (some r) = some p ∧ (p = r ∨ ∃ e ∈ l, e.2 = p) ∧
      (o.heap p).unTimestamp ≤ (o.heap r).unTimestamp ∧
      ∀ e ∈ l, (o.heap p).unTimestamp ≤ (o.heap e.2).unTimestamp := by
  induction l generalizing r with
  | nil => exact ⟨r, rfl, .inl rfl, UInt32.le_refl _, by simp⟩
  | cons e l ih =>
    simp only [List.foldl_cons, smaller]
    by_cases hlt : (o.heap e.2).unTimestamp < (o.heap r).unTimestamp
    · rw [if_pos hlt]
      obtain ⟨p, hp, hor, hle, hall⟩ := ih e.2
      refine ⟨p, hp, .inr ?_, UInt32.le_trans hle (UInt32.le_of_lt hlt), fun x hx => ?_⟩
      · rcases hor with rfl | ⟨x, hx, rfl⟩
        · exact ⟨e, by simp, rfl⟩
        · exact ⟨x, List.mem_cons_of_mem _ hx, rfl⟩
      · rcases List.mem_cons.mp hx with rfl | hx
        · exact hle
        · exact hall x hx
    · rw [if_neg hlt]
      obtain ⟨p, hp, hor, hle, hall⟩ := ih r
      refine ⟨p, hp, ?_, hle, fun x hx => ?_⟩
      · rcases hor with h | ⟨x, hx, h⟩
        · exact .inl h
        · exact .inr ⟨x, List.mem_cons_of_mem _ hx, h⟩
      · rcases List.mem_cons.mp hx with rfl | hx
        · exact UInt32.le_trans hle (UInt32.not_lt.mp hlt)
        · exact hall x hx

/-- `GetSmallFrame` finds nothing only in an empty map. -/
theorem getSmallFrame_eq_none (h : o.getSmallFrame = none) : o.frameMap = [] := by
  unfold getSmallFrame at h
  cases hm : o.frameMap with
  | nil => rfl
  | cons e l =>
    obtain ⟨p, hp, -⟩ := foldl_smaller o l e.2
    rw [hm, List.foldl_cons] at h
    rw [show o.smaller none e = some e.2 from rfl, hp] at h
    cases h

/-- `GetSmallFrame` finds the entry with the smallest key. -/
theorem getSmallFrame_spec (h : Inv n o) (hp : o.getSmallFrame = some p) :
    ∃ k, (k, p) ∈ o.frameMap ∧ ∀ e ∈ o.frameMap, k ≤ e.1 := by
  unfold getSmallFrame at hp
  cases hm : o.frameMap with
  | nil => rw [hm] at hp; cases hp
  | cons e l =>
    rw [hm, List.foldl_cons, show o.smaller none e = some e.2 from rfl] at hp
    obtain ⟨r, hr, hor, hle, hall⟩ := foldl_smaller o l e.2
    obtain rfl : r = p := Option.some.inj (hr.symm.trans hp)
    obtain ⟨x, hx, rfl⟩ : ∃ x ∈ e :: l, x.2 = r := by
      rcases hor with rfl | ⟨x, hx, h⟩
      · exact ⟨e, by simp, rfl⟩
      · exact ⟨x, List.mem_cons_of_mem _ hx, h⟩
    refine ⟨x.1, hx, fun y hy => ?_⟩
    rw [← hm] at hx hy
    rw [← (h.frames x hx).stamp, ← (h.frames y hy).stamp]
    rw [hm] at hy
    rcases List.mem_cons.mp hy with rfl | hy
    · exact hle
    · exact hall y hy

/-- `releaseRtpPacket` of an entry takes it out of the map and frees its packets. -/
theorem releaseRtpPacket_spec (h : Inv n o) (he : (k, p) ∈ o.frameMap) :
    Inv n (o.releaseRtpPacket p).1 ∧ (o.releaseRtpPacket p).2 = (o.heap p).packetQueue ∧
      o.queued.Perm ((o.releaseRtpPacket p).1.queued ++ (o.heap p).packetQueue) ∧
      (o.releaseRtpPacket p).1.frameMap = Assoc.erase o.frameMap k ∧
      (o.releaseRtpPacket p).1.duplicates = o.duplicates := by
  have hst : (o.heap p).unTimestamp = k := (h.frames _ he).stamp
  have hl : o.frameMap.lookup k = some p := Assoc.lookup_of_mem h.keys he
  simp only [releaseRtpPacket, hst, hl]
  have hperm := Assoc.perm_erase h.keys he
  have hother : ∀ e ∈ Assoc.erase o.frameMap k, e.2 ≠ p := fun e hm hp =>
    (Assoc.mem_erase.mp hm).2 (congrArg Prod.fst (h.entry_eq (Assoc.mem_erase.mp hm).1 he hp))
  refine ⟨⟨?_, Assoc.nodup_erase h.keys, fun e hm => ?_, fun x hx => ?_⟩, trivial, ?_, trivial, rfl⟩
  · refine List.Perm.trans ?_ h.slots
    simp only [List.append_assoc, List.singleton_append]
    exact ((hperm.map Prod.snd).append_left o.freeList).symm
  · simp only [setInfo, Function.update_of_ne (hother e hm)]
    exact h.frames e (Assoc.mem_erase.mp hm).1
  · by_cases hxp : x = p
    · subst hxp
      simp [setInfo]
    · rcases List.mem_append.mp hx with hx | hx
      · simp only [setInfo, Function.update_of_ne hxp]
        exact h.free x hx
      · exact absurd (List.mem_singleton.mp hx) hxp
  · refine (h.queued_perm he).trans (List.perm_append_comm.trans (.append_right _ (.of_eq ?_)))
    simp only [queued, queuedBut, setInfo]
    exact List.flatMap_congr fun e hm => by rw [Function.update_of_ne (hother e hm)]

/-- `releaseRtpPacket` leaves the other infos. -/
theorem heap_releaseRtpPacket_ne {r : Nat} (h : r ≠ p) :
    (o.releaseRtpPacket p).1.heap r = o.heap r := by
  unfold releaseRtpPacket
  dsimp only
  split
  · rfl
  · exact heap_setInfo_ne _ h

/-! ## Finished frames -/

/-- The scan of `checkFrame`: the numbers count up by one. -/
theorem consecutive_iff {i : PackInfo} :
    consecutive i.usSeq (i :: q) = true ↔ (i :: q).IsChain fun a b => b.usSeq = a.usSeq + 1 := by
  induction q generalizing i with
  | nil => simp [consecutive]
  | cons j q ih =>
    rw [List.isChain_cons_cons, ← ih, consecutive]
    simp only [BEq.rfl, Bool.true_and]
    constructor
    · intro h
      have hj : i.usSeq + 1 = j.usSeq := by
        simpa using (Bool.and_eq_true_iff.mp h).1
      exact ⟨hj.symm, hj ▸ h⟩
    · rintro ⟨hj, h⟩
      exact hj ▸ h

theorem finished_iff {f : FrameInfo} : finished f = true ↔ f.packetQueue ≠ [] ∧ f.bMarker = true ∧
    f.packetQueue.IsChain fun a b => b.usSeq = a.usSeq + 1 := by
  unfold finished
  split
  · simp_all
  · rename_i i q hq
    simp [hq, consecutive_iff]

/-- What `checkFrame` hands over is sound, and it is what leaves the queues. -/
theorem checkFrame_spec (h : Inv n o) :
    Inv n o.checkFrame.1 ∧ (∀ d ∈ o.checkFrame.2, d.Sound) ∧
      o.queued.Perm (o.checkFrame.1.queued ++ o.checkFrame.2.flatMap Delivery.packets) ∧
      o.checkFrame.1.duplicates = o.duplicates := by
  unfold checkFrame
  split
  · exact ⟨h, by simp, by simp, rfl⟩
  · rename_i p hp
    obtain ⟨k, hk, hmin⟩ := getSmallFrame_spec h hp
    by_cases hf : finished (o.heap p) = true
    · obtain ⟨hinv, -, hperm, -, hdup⟩ := releaseRtpPacket_spec h hk
      obtain ⟨hne, hm, hc⟩ := finished_iff.mp hf
      have hkeep := h.frames _ hk
      rw [if_pos hf]
      refine ⟨hinv, fun d hd => ?_, by simpa using hperm, hdup⟩
      obtain rfl := List.mem_singleton.mp hd
      refine ⟨hne, ⟨k, List.mem_map_of_mem hk, hkeep.own, fun t ht => ?_⟩, hc, hkeep.inOrder,
        hkeep.marked hm⟩
      obtain ⟨e, he, rfl⟩ := List.mem_map.mp ht
      exact hmin e he
    · rw [if_neg hf]
      exact ⟨h, by simp, by simp, rfl⟩

/-! ## Calls -/

/-- The frame info for a timestamp is in the map, with the packets as they were. -/
theorem findFrame_spec (h : Inv n o) {o' : FrameOrganizer} (hf : o.findFrame k = some (p, o')) :
    Inv n o' ∧ (k, p) ∈ o'.frameMap ∧ o'.queued.Perm o.queued ∧ o'.duplicates = o.duplicates := by
  unfold findFrame at hf
  split at hf
  · rename_i r hr
    obtain ⟨rfl, rfl⟩ := Prod.mk.inj (Option.some.inj hf)
    exact ⟨h, Assoc.mem_of_lookup hr, .refl _, rfl⟩
  · rename_i hr
    obtain ⟨hi, hm, -, hp, hd, -⟩ := insertFrame_spec h (Assoc.lookup_eq_none_iff.mp hr) hf
    exact ⟨hi, hm, hp, hd⟩

/-- What one call does to an organizer: the invariant stays, what it hands over is sound, it takes
in the packet exactly when it returns `RET_OK`, and what was queued or taken in is queued, handed
over or discarded after it. -/
structure Moves (n : Nat) (o o' : FrameOrganizer) (info : PackInfo) (out : Outcome) : Prop where
  inv : Inv n o'
  sound : ∀ d ∈ out.delivered, d.Sound
  takes : out.accepted = if out.ret = .ok then [info] else []
  account : (o.queued ++ out.accepted).Perm
    (o'.queued ++ out.delivered.flatMap Delivery.packets ++ out.discarded)
  duplicates : o'.duplicates = o.duplicates

theorem evict_spec (h : Inv n o) (info : PackInfo) : Moves n o o.evict.1 info o.evict.2 := by
  unfold evict
  split
  · exact ⟨h, by simp, rfl, by simp, rfl⟩
  · rename_i p hp
    obtain ⟨k, hk, -⟩ := getSmallFrame_spec h hp
    obtain ⟨hinv, hfreed, hperm, -, hdup⟩ := releaseRtpPacket_spec h hk
    exact ⟨hinv, by simp, rfl, by simpa [hfreed] using hperm, hdup⟩

/-- The frame info with the packet put in, as `insertInfo` stores it. -/
theorem Keeps.insert {f : FrameInfo} (hf : f.Keeps info.unTimestamp) {q : List PackInfo}
    (hp : q.Perm (info :: f.packetQueue)) (hq : InOrder q) :
    ({ f with bMarker := f.bMarker || info.bMarker, packetQueue := q } : FrameInfo).Keeps
      info.unTimestamp where
  stamp := hf.stamp
  own i hi := by
    rcases List.mem_cons.mp (hp.mem_iff.mp hi) with rfl | hi
    · rfl
    · exact hf.own i hi
  inOrder := hq
  marked hm := by
    rcases Bool.or_eq_true_iff.mp hm with hm | hm
    · obtain ⟨i, hi, him⟩ := hf.marked hm
      exact ⟨i, hp.mem_iff.mpr (List.mem_cons_of_mem _ hi), him⟩
    · exact ⟨info, hp.mem_iff.mpr (by simp), hm⟩

theorem insertInfo_spec (h : Inv n o) (info : PackInfo) :
    Moves n o (o.insertInfo info).1 info (o.insertInfo info).2 := by
  unfold insertInfo
  split
  · exact evict_spec h info
  · rename_i p o' hf
    obtain ⟨h', hm, hperm, hdup⟩ := findFrame_spec h hf
    have hkeep := h'.frames _ hm
    obtain ⟨q, hq, hqp, hqo⟩ := insert_spec info hkeep.inOrder
    have hinv := h'.setInfo hm (Keeps.insert hkeep hqp hqo)
    obtain ⟨hc, hsound, hcp, hcd⟩ := checkFrame_spec hinv
    simp only [hq]
    refine ⟨hc, hsound, rfl, ?_, hcd.trans hdup⟩
    rw [List.append_nil]
    refine List.Perm.trans ?_ hcp
    -- the queues with the packet put in, entry `k` first
    refine ((hperm.symm.trans (h'.queued_perm hm)).append_right [info]).trans
      (List.Perm.trans ?_ (hinv.queued_perm hm).symm)
    rw [heap_setInfo_self, h'.queuedBut_setInfo hm]
    refine List.perm_append_comm.trans ?_
    exact (hqp.symm.append_right _)

/-- The invariant holds after `init`. -/
theorem init_inv (n : Nat) : Inv n (init n).2 := by
  unfold init
  split
  · rename_i hn
    subst hn
    exact ⟨.refl _, List.nodup_nil, by simp [empty], by simp [empty]⟩
  · exact ⟨by simp [empty], List.nodup_nil, by simp [empty], by simp [empty]⟩

/-! ## Runs -/

/-- The packets that the calls took in. -/
def accepted (outs : List Outcome) : List PackInfo := outs.flatMap Outcome.accepted

/-- The calls of `handleRtpFrame`. -/
def deliveries (outs : List Outcome) : List Delivery := outs.flatMap Outcome.delivered

/-- The packets of all lists handed over. -/
def handedOver (outs : List Outcome) : List PackInfo := (deliveries outs).flatMap Delivery.packets

/-- The packets that the calls freed without handing them over. -/
def discarded (outs : List Outcome) : List PackInfo := outs.flatMap Outcome.discarded

theorem accepted_append (outs outs' : List Outcome) :
    accepted (outs ++ outs') = accepted outs ++ accepted outs' := List.flatMap_append

theorem deliveries_append (outs outs' : List Outcome) :
    deliveries (outs ++ outs') = deliveries outs ++ deliveries outs' := List.flatMap_append

theorem discarded_append (outs outs' : List Outcome) :
    discarded (outs ++ outs') = discarded outs ++ discarded outs' := List.flatMap_append

/-- `i` is the packet info of the block `b`: the fields of its RTP header, and a duplicate of it
(in which `ParsePacket` cleared the padding bit). -/
structure IsInfoOf (b : MsgBlock) (i : PackInfo) : Prop where
  seq : i.usSeq = RtpPacket.getSeqNum b.data b.rd
  stamp : i.unTimestamp = RtpPacket.getTimeStamp b.data b.rd
  marker : i.bMarker = RtpPacket.getMarker b.data b.rd
  block : i.pRtpMsgBlock.block =
    { b with data := (RtpPacket.parsePacket b.data b.rd b.length32).data }

theorem packInfo_isInfoOf (o : FrameOrganizer) (b : MsgBlock) :
    IsInfoOf b (o.packInfo b (RtpPacket.parsePacket b.data b.rd b.length32).data) := by
  have hne : ∀ j : Int, 0 < j →
      (RtpPacket.parsePacket b.data b.rd b.length32).data (b.rd + j) = b.data (b.rd + j) :=
    fun j hj => RtpPacket.parsePacket_data_of_ne (by omega)
  refine ⟨?_, ?_, ?_, rfl⟩ <;>
    simp [packInfo, RtpPacket.getSeqNum, RtpPacket.getTimeStamp, RtpPacket.getMarker, hne]

/-- A call takes in the packet of its block exactly when it returns `RET_OK`. -/
def Takes (b : MsgBlock) (out : Outcome) : Prop :=
  if out.ret = .ok then ∃ i, out.accepted = [i] ∧ IsInfoOf b i else out.accepted = []

/-- The books of a run: the invariant, the soundness of every list handed over, and that the
packets taken in are, each once, queued, handed over or discarded. -/
structure Ledger (n : Nat) (o : FrameOrganizer) (outs : List Outcome) : Prop where
  inv : Inv n o
  sound : ∀ d ∈ deliveries outs, d.Sound
  account : (accepted outs).Perm (o.queued ++ handedOver outs ++ discarded outs)
  fresh : ∀ i ∈ accepted outs, i.pRtpMsgBlock.addr < o.duplicates
  distinct : ((accepted outs).map fun i => i.pRtpMsgBlock.addr).Nodup

/-- The books after a call that moved the packets as `Moves` says, for the next duplicate. -/
theorem Ledger.moves {o' : FrameOrganizer} {outs : List Outcome} {out : Outcome}
    (h : Ledger n o outs) (hm : Moves n { o with duplicates := o.duplicates + 1 } o' info out)
    (haddr : info.pRtpMsgBlock.addr = o.duplicates) : Ledger n o' (outs ++ [out]) := by
  have hacc : accepted (outs ++ [out]) = accepted outs ++ out.accepted := by simp [accepted]
  have hnew : ∀ i ∈ out.accepted, i.pRtpMsgBlock.addr = o.duplicates := by
    intro i hi
    rw [hm.takes] at hi
    split at hi <;> simp_all
  refine ⟨hm.inv, fun d hd => ?_, ?_, fun i hi => ?_, ?_⟩
  · obtain ⟨x, hx, hdx⟩ := List.mem_flatMap.mp hd
    rcases List.mem_append.mp hx with hx | hx
    · exact h.sound d (List.mem_flatMap.mpr ⟨x, hx, hdx⟩)
    · obtain rfl := List.mem_singleton.mp hx
      exact hm.sound d hdx
  · have h1 := h.account
    have h2 : (o.queued ++ out.accepted).Perm _ := hm.account
    rw [hacc]
    simp only [handedOver, deliveries, discarded, List.flatMap_append, List.flatMap_cons,
      List.flatMap_nil, List.append_nil, ← Multiset.coe_eq_coe, ← Multiset.coe_add] at h1 h2 ⊢
    -- what was queued and the new packet stand together, as in `account` of the call
    rw [h1, show ∀ a b c d : Multiset PackInfo, a + b + c + d = (a + d) + (b + c) from
      fun a b c d => by ac_rfl, h2]
    ac_rfl
  · rw [hm.duplicates]
    rw [hacc] at hi
    rcases List.mem_append.mp hi with hi | hi
    · exact Nat.lt_succ_of_lt (h.fresh i hi)
    · rw [hnew i hi]
      exact Nat.lt_succ_self _
  · rw [hacc, List.map_append, List.nodup_append]
    refine ⟨h.distinct, ?_, ?_⟩
    · rw [hm.takes]
      split <;> simp
    · rintro x hx y hy rfl
      obtain ⟨i, hi, rfl⟩ := List.mem_map.mp hx
      obtain ⟨j, hj, hij⟩ := List.mem_map.mp hy
      have := h.fresh i hi
      rw [hnew j hj] at hij
      omega

/-- The books after a call that did nothing. -/
theorem Ledger.refuse {outs : List Outcome} (h : Ledger n o outs) :
    Ledger n o (outs ++ [⟨.fail, [], [], []⟩]) := by
  refine ⟨h.inv, fun d hd => h.sound d ?_, ?_, fun i hi => h.fresh i ?_, ?_⟩
  · simpa [deliveries] using hd
  · simpa [accepted, deliveries, handedOver, discarded] using h.account
  · simpa [accepted] using hi
  · simpa [accepted] using h.distinct

/-- One more call of `insertRtpPacket`. -/
theorem Ledger.insertRtpPacket {outs : List Outcome} (h : Ledger n o outs) (b : MsgBlock) (duplicate : Bool) :
    Ledger n (o.insertRtpPacket b duplicate).1 (outs ++ [(o.insertRtpPacket b duplicate).2]) ∧
      Takes b (o.insertRtpPacket b duplicate).2 := by
  unfold FrameOrganizer.insertRtpPacket
  dsimp only
  split
  · exact ⟨h.refuse, by simp [Takes]⟩
  · have hinv : Inv n { o with duplicates := o.duplicates + 1 } :=
      ⟨h.inv.slots, h.inv.keys, h.inv.frames, h.inv.free⟩
    have hm := insertInfo_spec hinv (o.packInfo b (RtpPacket.parsePacket b.data b.rd b.length32).data)
    refine ⟨h.moves hm rfl, ?_⟩
    have htakes := hm.takes
    unfold Takes
    split
    · rename_i hok
      rw [if_pos hok] at htakes
      exact ⟨_, htakes, packInfo_isInfoOf o b⟩
    · rename_i hok
      rwa [if_neg hok] at htakes

/-- The books after a run of calls. -/
theorem Ledger.run (bs : List MsgBlock) {outs : List Outcome} (h : Ledger n o outs) :
    Ledger n (o.run bs).1 (outs ++ (o.run bs).2) ∧ List.Forall₂ Takes bs (o.run bs).2 := by
  induction bs generalizing o outs with
  | nil => exact ⟨by simpa [FrameOrganizer.run] using h, .nil⟩
  | cons b bs ih =>
    obtain ⟨h1, ht⟩ := h.insertRtpPacket b true
    obtain ⟨h2, hts⟩ := ih h1
    simp only [FrameOrganizer.run]
    exact ⟨by simpa using h2, .cons ht hts⟩

theorem init_ledger (n : Nat) : Ledger n (init n).2 [] := by
  have hq : (init n).2.queued = [] := by unfold init; split <;> rfl
  exact ⟨init_inv n, by simp [deliveries], by simp [accepted, handedOver, deliveries, discarded, hq],
    by simp [accepted], by simp [accepted]⟩

/-- The books of a run after `init`. -/
theorem run_ledger (n : Nat) (bs : List MsgBlock) :
    Ledger n ((init n).2.run bs).1 ((init n).2.run bs).2 ∧
      List.Forall₂ Takes bs ((init n).2.run bs).2 := by
  simpa using (init_ledger n).run bs

/-- **Every reachable state.** After `init(n)` and any calls of `insertRtpPacket`: the free list
and the map hold the `n` frame infos, each in one of them; a key is its info's timestamp; free
infos are empty; a queue holds packets of its key's timestamp in the order of their numbers; and
the packets taken in (those of the calls that returned `RET_OK`, all distinct) are, each exactly
once, in a queue, in a list handed over, or discarded. -/
theorem run_partition (n : Nat) (bs : List MsgBlock) :
    let r := (init n).2.run bs
    let o := r.1
    (o.freeList ++ o.frameMap.map Prod.snd).Perm (List.range n) ∧
    (o.frameMap.map Prod.fst).Nodup ∧
    (∀ e ∈ o.frameMap, (o.heap e.2).unTimestamp = e.1) ∧
    (∀ p ∈ o.freeList, (o.heap p).packetQueue = []) ∧
    (∀ e ∈ o.frameMap, (∀ i ∈ (o.heap e.2).packetQueue, i.unTimestamp = e.1) ∧
      (o.heap e.2).packetQueue.Pairwise fun a b => a.usSeq ≤ b.usSeq) ∧
    List.Forall₂ Takes bs r.2 ∧
    ((accepted r.2).map fun i => i.pRtpMsgBlock.addr).Nodup ∧
    (accepted r.2).Perm (o.queued ++ handedOver r.2 ++ discarded r.2) := by
  obtain ⟨h, ht⟩ := run_ledger n bs
  exact ⟨h.inv.slots, h.inv.keys, fun e he => (h.inv.frames e he).stamp, h.inv.free,
    fun e he => ⟨(h.inv.frames e he).own, (h.inv.frames e he).inOrder⟩, ht, h.distinct, h.account⟩

/-- **Every list handed over.** In any run after `init(n)`, a list that `handleRtpFrame` gets is
not empty, has one timestamp, the smallest one in the map at that moment, numbers that count up by
one, and a packet with the marker; and no packet is in two such lists, or twice in one. -/
theorem run_deliveries_sound (n : Nat) (bs : List MsgBlock) :
    let outs := ((init n).2.run bs).2
    (∀ d ∈ deliveries outs,
      d.packets ≠ [] ∧
      (∃ k ∈ d.cached, (∀ i ∈ d.packets, i.unTimestamp = k) ∧ ∀ t ∈ d.cached, k ≤ t) ∧
      (d.packets.IsChain fun a b => b.usSeq = a.usSeq + 1) ∧
      ∃ i ∈ d.packets, i.bMarker = true) ∧
    ((handedOver outs).map fun i => i.pRtpMsgBlock.addr).Nodup := by
  obtain ⟨h, -⟩ := run_ledger n bs
  refine ⟨fun d hd => ⟨(h.sound d hd).ne_nil, (h.sound d hd).smallest, (h.sound d hd).stepsByOne,
    (h.sound d hd).marker⟩, ?_⟩
  have hn := (h.account.map fun i => i.pRtpMsgBlock.addr).nodup_iff.mp h.distinct
  rw [List.map_append, List.map_append] at hn
  exact hn.of_append_left.of_append_right

end FrameOrganizer

end AllCamera
