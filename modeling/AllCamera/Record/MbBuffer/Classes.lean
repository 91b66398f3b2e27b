import AllCamera.Record.MbBuffer.Partition

/-!
# The classes of the requests

A thread counts a request for the class that one table gives, and is served from the pool that the other
one names. They differ for a normal event of more than 1K and at most 4K: it is counted for 4K and served
from 64K, and when its block is freed the counter for 64K goes down.

* `OneClass`, `Between`, `oneClass_iff`: where the tables agree.
* `Sorted`: the lists of the threads have blocks of their classes.
* `Counted`: the counters of a thread are the numbers of its blocks that are handed out.
* `run_classes`; `not_counted_normal_2000`.
-/

namespace AllCamera

open Run

/-- The class that is counted is the one of the pool. -/
def OneClass (mbType : MbType) (mbSize : UInt32) : Prop :=
  getMbBuffer mbType mbSize = (mbSizeToLenType mbType mbSize).map fun mbLen => (mbType, mbLen)

/-- The requests that the tables do not agree on. -/
def Between (mbType : MbType) (mbSize : UInt32) : Prop :=
  mbType = .normalEvent ∧ buffSize .len1K < mbSize ∧ mbSize ≤ buffSize .len4K

theorem served_eq_iff {c : MbClass} : served c = c ↔ c ≠ (.normalEvent, .len4K) := by
  obtain ⟨mbType, mbLen⟩ := c
  cases mbType <;> cases mbLen <;> decide

/-- What is in the class of 4K of the normal events. -/
theorem mbSizeToLenType_eq_len4K {mbSize : UInt32} :
    mbSizeToLenType .normalEvent mbSize = some .len4K ↔ buffSize .len1K < mbSize ∧ mbSize ≤ buffSize .len4K := by
  have h128 : buffSize .len128 ≤ buffSize .len1K := by decide
  have h256 : buffSize .len256 ≤ buffSize .len1K := by decide
  unfold mbSizeToLenType sizeToLenNormal
  dsimp only
  constructor
  · intro h
    split_ifs at h with h₁ h₂ h₃ h₄ <;> first | exact ⟨UInt32.not_le.mp h₃, h₄⟩ | cases h
  · rintro ⟨hlt, hle⟩
    rw [if_neg fun h => UInt32.not_le.mpr hlt (UInt32.le_trans h h128),
      if_neg fun h => UInt32.not_le.mpr hlt (UInt32.le_trans h h256), if_neg (UInt32.not_le.mpr hlt), if_pos hle]

/-- A request that has no class has no pool. -/
theorem getMbBuffer_eq_none {mbType : MbType} {mbSize : UInt32} (h : mbSizeToLenType mbType mbSize = none) :
    getMbBuffer mbType mbSize = none := by
  have h4K : buffSize .len4K ≤ buffSize .len64K := by decide
  cases mbType <;>
    simp only [mbSizeToLenType, sizeToLenNormal, getMbBuffer, getMbBufferCallBack, getMbBufferSendMsg,
      getMbBufferNormalEvent] at h ⊢ <;>
    split_ifs at h ⊢ <;> rfl

theorem oneClass_iff (mbType : MbType) (mbSize : UInt32) : OneClass mbType mbSize ↔ ¬ Between mbType mbSize := by
  unfold OneClass Between
  cases hlen : mbSizeToLenType mbType mbSize with
  | none =>
    refine iff_of_true (getMbBuffer_eq_none hlen) ?_
    rintro ⟨rfl, hbetween⟩
    rw [mbSizeToLenType_eq_len4K.mpr hbetween] at hlen
    cases hlen
  | some mbLen =>
    rw [(getMbBuffer_served hlen).1, Option.map_some, Option.some_inj, served_eq_iff, not_iff_not]
    constructor
    · intro hc
      obtain ⟨rfl, rfl⟩ := Prod.mk.inj hc
      exact ⟨rfl, mbSizeToLenType_eq_len4K.mp hlen⟩
    · rintro ⟨rfl, hbetween⟩
      rw [mbSizeToLenType_eq_len4K.mpr hbetween] at hlen
      rw [Option.some.inj hlen]

variable {s : MbSystem} {place : Nat → Place} {t : Nat} {mb : Nat} {c : MbClass}

namespace MbSystem

/-- The blocks of a class that a thread has handed out. -/
def outstandingOf (s : MbSystem) (t : Nat) (c : MbClass) : Nat :=
  s.outstanding.countP fun o => o.thread = t ∧ (s.manager.heap o.mb).info = c

/-- The list of a thread for a class has only blocks of the class. -/
def Sorted (s : MbSystem) : Prop :=
  ∀ t c l, LinkedNodes s.manager.heap.conts ((s.threads t).freeMsgBuffer c) l →
    ∀ b ∈ l, (s.manager.heap b).info = c

/-- Each counter is the number of blocks that are handed out, so it is not negative. -/
def Counted (s : MbSystem) : Prop :=
  ∀ t c, ((s.threads t).allocedMsgBufferCount c).toInt = s.outstandingOf t c

/-- No request is one that the tables do not agree on. -/
def Fits : Act → Prop
  | .allocMb _ type mbSize => ∀ mbType, MbType.ofUInt8 type = some mbType → ¬ Between mbType mbSize
  | _ => True

/-- A block is freed by the manager that has handed it out. -/
def Own (s : MbSystem) : Act → Prop
  | .freeMb t mb => ∃ o ∈ s.outstanding, o.mb = mb ∧ o.thread = t
  | _ => True

/-! ## The lists -/

/-- No thread has a list for the class that the tables do not agree on. -/
def NoList (s : MbSystem) : Prop := ∀ t, (s.threads t).freeMsgBuffer (.normalEvent, .len4K) = none

theorem NoList.sorted (h : s.NoList) (hs : Partitioned s place) : s.Sorted := by
  intro t c l hl b hb
  obtain ⟨l', hl', hhome⟩ := hs.free t c
  obtain rfl := hl.eq hl'.chain
  have hc : c ≠ (.normalEvent, .len4K) := by
    rintro rfl
    rw [h t] at hl
    rw [hl.eq_nil] at hb
    cases hb
  rw [(hs.pools.blocks b ((hl'.mem b).mp hb).1).1, hhome b hb, served_eq_iff.mpr hc]

theorem fill_freeMsgBuffer {mbType : MbType} {mbLen : MbLen} {mbSize : UInt32} (hc : c ≠ (mbType, mbLen))
    (t' : Nat) : ((s.fill t mbType mbLen mbSize).threads t').freeMsgBuffer c = (s.threads t').freeMsgBuffer c := by
  unfold fill
  split_ifs
  · exact update_freeMsgBuffer rfl fun h => hc h.2
  · rfl

theorem pop_freeMsgBuffer {c' : MbClass} {mbSize : UInt32} (hc : c ≠ c') (t' : Nat) :
    ((s.pop t c' mbSize).1.threads t').freeMsgBuffer c = (s.threads t').freeMsgBuffer c := by
  unfold pop
  dsimp only
  cases (s.threads t).freeMsgBuffer c' with
  | none => rfl
  | some mb => exact update_freeMsgBuffer rfl fun h => hc h.2

theorem push_freeMsgBuffer (t' : Nat) :
    ((s.push t mb).threads t').freeMsgBuffer = (s.threads t').freeMsgBuffer := by
  unfold push
  exact update_thread ThreadManager.freeMsgBuffer (by rfl) t'

theorem flush_freeMsgBuffer (t' : Nat) :
    ((s.flush t mb).threads t').freeMsgBuffer = (s.threads t').freeMsgBuffer := by
  unfold flush
  exact update_thread ThreadManager.freeMsgBuffer (by rfl) t'

theorem NoList.step (h : s.NoList) {a : Act} (ha : Fits a) : (s.step a).NoList := by
  intro t'
  cases a with
  | allocMb t type mbSize =>
    show ((s.allocMb t type mbSize).1.threads t').freeMsgBuffer (.normalEvent, .len4K) = none
    unfold allocMb
    cases htype : MbType.ofUInt8 type with
    | none => exact h t'
    | some mbType =>
      dsimp only
      cases hlen : mbSizeToLenType mbType mbSize with
      | none => exact h t'
      | some mbLen =>
        have hne : ((.normalEvent, .len4K) : MbClass) ≠ (mbType, mbLen) := by
          intro heq
          obtain ⟨rfl, rfl⟩ := Prod.mk.inj heq
          exact ha _ htype ⟨rfl, mbSizeToLenType_eq_len4K.mp hlen⟩
        dsimp only
        rw [pop_freeMsgBuffer hne, fill_freeMsgBuffer hne]
        exact h t'
  | freeMb t mb =>
    show ((s.freeMb t mb).threads t').freeMsgBuffer (.normalEvent, .len4K) = none
    unfold freeMb
    dsimp only
    split_ifs
    · rw [flush_freeMsgBuffer, push_freeMsgBuffer]
      exact h t'
    · rw [push_freeMsgBuffer]
      exact h t'
  | link mb next cont => exact h t'

/-! ## The counters -/

theorem toInt_add_one {x : Int32} {n : Nat} (h : x.toInt = n) (hlt : n + 1 < 2 ^ 31) :
    (x + 1).toInt = (n + 1 : Nat) := by
  rw [Int32.toInt_add, Int32.toInt_one, h, Int.bmod_eq_of_le (by omega) (by omega)]
  rfl

theorem toInt_sub_one {x : Int32} {n : Nat} (h : x.toInt = (n + 1 : Nat)) (hlt : n + 1 < 2 ^ 31) :
    (x - 1).toInt = n := by
  rw [Int32.toInt_sub, Int32.toInt_one, h, Int.bmod_eq_of_le (by omega) (by omega)]
  omega

theorem outstandingOf_cons (o : Handed) {s' : MbSystem} (hout : s'.outstanding = o :: s.outstanding)
    (hinfo : ∀ b, (s'.manager.heap b).info = (s.manager.heap b).info) (t : Nat) (c : MbClass) :
    s'.outstandingOf t c =
      s.outstandingOf t c + if o.thread = t ∧ (s.manager.heap o.mb).info = c then 1 else 0 := by
  unfold outstandingOf
  rw [hout, List.countP_cons]
  simp only [hinfo, decide_eq_true_eq]

/-- One element with a key is removed. -/
theorem countP_filter_ne {l : List Handed} (hl : (l.map Handed.mb).Nodup) {o : Handed} (ho : o ∈ l)
    (p : Handed → Bool) :
    l.countP p = (l.filter fun o' => o'.mb ≠ o.mb).countP p + if p o then 1 else 0 := by
  induction l with
  | nil => cases ho
  | cons x l ih =>
    rw [List.map_cons, List.nodup_cons] at hl
    obtain ⟨hx, hl⟩ := hl
    rcases List.mem_cons.mp ho with rfl | ho
    · have hrest : (l.filter fun o' => o'.mb ≠ o.mb) = l :=
        List.filter_eq_self.mpr fun o' ho' => decide_eq_true fun heq => hx (heq ▸ List.mem_map_of_mem ho')
      rw [List.filter_cons_of_neg (by simp), hrest, List.countP_cons]
    · have hne : x.mb ≠ o.mb := fun heq => hx (heq ▸ List.mem_map_of_mem ho)
      rw [List.filter_cons_of_pos (by simpa using hne), List.countP_cons, List.countP_cons, ih hl ho]
      omega

theorem outstandingOf_lt (hs : Partitioned s place) (t : Nat) (c : MbClass) : s.outstandingOf t c < 2 ^ 31 := by
  have hsub : s.outstanding.map Handed.mb ⊆ List.range s.manager.created := fun b hb =>
    List.mem_range.mpr ((hs.outstanding b).mp hb).1
  have hlen := (hs.once.subperm hsub).length_le
  rw [List.length_map, List.length_range] at hlen
  exact Nat.lt_of_le_of_lt (Nat.le_trans List.countP_le_length hlen) hs.pools.created

theorem Counted.of_same (h : s.Counted) {s' : MbSystem}
    (hcount : ∀ t, (s'.threads t).allocedMsgBufferCount = (s.threads t).allocedMsgBufferCount)
    (hout : s'.outstanding = s.outstanding)
    (hinfo : ∀ b, (s'.manager.heap b).info = (s.manager.heap b).info) : s'.Counted := by
  intro t c
  rw [hcount, h t c]
  unfold outstandingOf
  rw [hout]
  simp only [hinfo]

/-- A block is handed out. -/
theorem Counted.pop (h : s.Counted) (hsorted : s.Sorted) {mbSize : UInt32} (hs : Partitioned s place)
    (hs' : ∃ place', Partitioned (s.pop t c mbSize).1 place') : (s.pop t c mbSize).1.Counted := by
  obtain ⟨place', hs'⟩ := hs'
  obtain ⟨l, hl, -⟩ := hs.free t c
  unfold MbSystem.pop at hs' ⊢
  dsimp only at hs' ⊢
  cases hhead : (s.threads t).freeMsgBuffer c with
  | none => exact h
  | some mb =>
    have hclass : (s.manager.heap mb).info = c := by
      have hchain := hl.chain
      rw [hhead] at hchain
      obtain ⟨l, rfl, -⟩ := hchain.of_some
      exact hsorted t c _ hl.chain mb List.mem_cons_self
    rw [hhead] at hs'
    dsimp only at hs' ⊢
    intro t' c'
    have hinfo : ∀ b, (s.manager.heap.setCont mb none b).info = (s.manager.heap b).info := fun b =>
      ((Heap.frame_setCont (List.mem_singleton_self mb)).fixed b).2.1
    have hlt := outstandingOf_lt hs' t' c'
    rw [outstandingOf_cons ⟨mb, t, mbSize⟩ rfl hinfo] at hlt ⊢
    dsimp only at hlt ⊢
    rw [hclass] at hlt ⊢
    by_cases ht : t = t'
    · subst ht
      rw [Function.update_self]
      dsimp only
      by_cases hc : c = c'
      · subst hc
        rw [if_pos ⟨rfl, rfl⟩] at hlt ⊢
        rw [Function.update_self]
        exact toInt_add_one (h t c) hlt
      · rw [if_neg fun hboth => hc hboth.2, Function.update_of_ne (Ne.symm hc)]
        exact h t c'
    · rw [if_neg fun hboth => ht hboth.1, Function.update_of_ne (Ne.symm ht)]
      exact h t' c'

theorem push_info (b : Nat) : ((s.push t mb).manager.heap b).info = (s.manager.heap b).info := by
  unfold push
  dsimp only
  cases (s.threads t).usedMsgBuffer with
  | none => rfl
  | some used => exact ((Heap.frame_setCont (List.mem_singleton_self mb)).fixed b).2.1

theorem push_count (t' : Nat) (c : MbClass) : ((s.push t mb).threads t').allocedMsgBufferCount c =
    if t = t' ∧ (s.manager.heap mb).info = c then (s.threads t').allocedMsgBufferCount c - 1
    else (s.threads t').allocedMsgBufferCount c := by
  rw [← @push_info s t mb mb]
  unfold push
  dsimp only
  split_ifs with hboth
  · obtain ⟨rfl, rfl⟩ := hboth
    rw [Function.update_self]
    dsimp only
    rw [Function.update_self]
  · by_cases ht : t = t'
    · subst ht
      rw [Function.update_self]
      dsimp only
      rw [Function.update_of_ne fun hc => hboth ⟨rfl, hc.symm⟩]
    · rw [Function.update_of_ne (Ne.symm ht)]

/-- A block is freed by the manager that has handed it out. -/
theorem Counted.push (h : s.Counted) (hs : Partitioned s place) {o : Handed} (ho : o ∈ s.outstanding) :
    (s.push o.thread o.mb).Counted := by
  intro t' c'
  have hout : s.outstandingOf t' c' = (s.push o.thread o.mb).outstandingOf t' c' +
      if o.thread = t' ∧ (s.manager.heap o.mb).info = c' then 1 else 0 := by
    unfold outstandingOf
    rw [countP_filter_ne hs.once ho]
    simp only [push_info, decide_eq_true_eq]
    rfl
  have hlt := outstandingOf_lt hs t' c'
  have hbefore := h t' c'
  rw [push_count]
  split_ifs at hout ⊢ with hboth
  · rw [hout] at hbefore hlt
    exact toInt_sub_one hbefore hlt
  · rw [hbefore, hout]
    rfl

theorem fill_counts {mbType : MbType} {mbLen : MbLen} {mbSize : UInt32} (t' : Nat) :
    ((s.fill t mbType mbLen mbSize).threads t').allocedMsgBufferCount = (s.threads t').allocedMsgBufferCount ∧
      (s.fill t mbType mbLen mbSize).outstanding = s.outstanding := by
  unfold fill
  split_ifs
  · exact ⟨update_thread ThreadManager.allocedMsgBufferCount (by rfl) t', rfl⟩
  · exact ⟨rfl, rfl⟩

theorem flush_counts (t' : Nat) :
    ((s.flush t mb).threads t').allocedMsgBufferCount = (s.threads t').allocedMsgBufferCount := by
  unfold flush
  exact update_thread ThreadManager.allocedMsgBufferCount (by rfl) t'

/-- A call of a thread that frees only its own blocks. -/
theorem Counted.step (h : s.Counted) (hno : s.NoList) (hs : Partitioned s place) {a : Act} (hok : s.Ok a)
    (hfits : Fits a) (hown : s.Own a) : (s.step a).Counted := by
  cases a with
  | allocMb t type mbSize =>
    show (s.allocMb t type mbSize).1.Counted
    unfold allocMb
    cases htype : MbType.ofUInt8 type with
    | none => exact h
    | some mbType =>
      dsimp only
      cases hlen : mbSizeToLenType mbType mbSize with
      | none => exact h
      | some mbLen =>
        obtain ⟨place', hfill, hinfo⟩ := hs.fill (t := t) hlen
        have hne : ((.normalEvent, .len4K) : MbClass) ≠ (mbType, mbLen) := by
          intro heq
          obtain ⟨rfl, rfl⟩ := Prod.mk.inj heq
          exact hfits _ htype ⟨rfl, mbSizeToLenType_eq_len4K.mp hlen⟩
        have hno' : (s.fill t mbType mbLen mbSize).NoList := fun t' => by
          rw [fill_freeMsgBuffer hne]
          exact hno t'
        have hcounted : (s.fill t mbType mbLen mbSize).Counted :=
          h.of_same (fun t' => (fill_counts t').1) (fill_counts t).2 hinfo
        exact hcounted.pop (hno'.sorted hfill) hfill (hfill.pop (getMbBuffer_served hlen).2)
  | freeMb t mb =>
    obtain ⟨o, ho, rfl, rfl⟩ := hown
    have hpush := h.push hs ho
    have hpushed := hs.push (t := o.thread) hok.1 hok.2
    show (s.freeMb o.thread o.mb).Counted
    unfold freeMb
    dsimp only
    split_ifs
    · have hused : ((s.push o.thread o.mb).threads o.thread).usedMsgBuffer = some o.mb := by
        unfold MbSystem.push
        simp
      obtain ⟨-, -, hinfo⟩ := hpushed.flush hused
      exact hpush.of_same flush_counts rfl hinfo
    · exact hpush
  | link mb next cont =>
    refine h.of_same (fun _ => rfl) rfl fun b => ?_
    exact (((Heap.frame_setNext (List.mem_singleton_self mb)).trans
      (Heap.frame_setCont (List.mem_singleton_self mb)) (List.Subset.refl _)).fixed b).2.1

end MbSystem

open MbSystem

/-- The tables agree on all requests but those for a normal event of more than 1K and at most 4K. In a run
without these the list of a thread for a class has only blocks of the class; if also each block is freed by the
manager that has handed it out, the counter of a thread for a class is the number of its blocks of the class
that are handed out. -/
theorem run_classes {h : Heap} {acts : List Act}
    (hacts : Allowed step (fun s a => s.Ok a ∧ Fits a) (.start h) acts) :
    (∀ mbType mbSize, OneClass mbType mbSize ↔ ¬ Between mbType mbSize) ∧ (run step (.start h) acts).Sorted ∧
      (Allowed step Own (.start h) acts → (run step (.start h) acts).Counted) := by
  refine ⟨oneClass_iff, ?_, fun hown => ?_⟩
  · obtain ⟨⟨place, hs⟩, hno⟩ := hacts.invariant (I := fun s => (∃ place, Partitioned s place) ∧ s.NoList)
      ⟨⟨_, start_partitioned h⟩, fun _ => rfl⟩
      fun s a hs ha => ⟨hs.1.elim fun _ hs => hs.step ha.1, hs.2.step ha.2⟩
    exact hno.sorted hs
  · have hall := hacts.and hown
    obtain ⟨-, -, hcounted⟩ := hall.invariant
      (I := fun s => (∃ place, Partitioned s place) ∧ s.NoList ∧ s.Counted)
      ⟨⟨_, start_partitioned h⟩, fun _ => rfl, fun t c => rfl⟩
      fun s a ⟨⟨place, hs⟩, hno, hcounted⟩ ha =>
        ⟨hs.step ha.1.1, hno.step ha.1.2, hcounted.step hno hs ha.1.1 ha.1.2 ha.2⟩
    exact hcounted

theorem run_alloc_free (type : UInt8) (mbSize : UInt32) :
    run step s [.allocMb t type mbSize, .freeMb t mb] = (s.allocMb t type mbSize).1.freeMb t mb := rfl

theorem allowed_own {type : UInt8} {mbSize : UInt32} (h : (s.allocMb t type mbSize).2 = some mb) :
    Allowed step Own s [.allocMb t type mbSize, .freeMb t mb] :=
  ⟨trivial, ⟨_, (allocMb_handed h).1, rfl, rfl⟩, trivial⟩

/-- The thread 0 frees the block that it has got. -/
theorem run_classes_alarm : ∃ mb, ((MbSystem.start .blank).allocMb 0 0 100).2 = some mb ∧
    (run step (.start .blank) [.allocMb 0 0 100, .freeMb 0 mb]).Sorted ∧
    (run step (.start .blank) [.allocMb 0 0 100, .freeMb 0 mb]).Counted := by
  obtain ⟨mb, hmb⟩ := @start_allocMb 0 .blank 0 .alarmEvent .len128 100 (by decide) (by decide) (by decide)
  have hfits : Allowed step (fun _ a => Fits a) (.start .blank) [.allocMb 0 0 100, .freeMb 0 mb] := by
    refine ⟨fun mbType htype hbetween => ?_, trivial, trivial⟩
    rw [hbetween.1] at htype
    cases htype
  obtain ⟨-, hsorted, hcounted⟩ := run_classes ((allowed_freeMb hmb).and hfits)
  exact ⟨mb, hmb, hsorted, hcounted (allowed_own hmb)⟩

/-- A request for a class is served from the pool that the other table names; only its counter changes. -/
theorem allocMb_served (hs : Partitioned s place) {type : UInt8} {mbType : MbType} {mbLen : MbLen}
    {mbSize : UInt32} (htype : MbType.ofUInt8 type = some mbType)
    (hlen : mbSizeToLenType mbType mbSize = some mbLen) (hmb : (s.allocMb t type mbSize).2 = some mb) :
    ((s.allocMb t type mbSize).1.manager.heap mb).info = served (mbType, mbLen) ∧
      ∀ c, c ≠ (mbType, mbLen) → ((s.allocMb t type mbSize).1.threads t).allocedMsgBufferCount c =
        (s.threads t).allocedMsgBufferCount c := by
  obtain ⟨place', hfill, -⟩ := hs.fill (t := t) hlen
  unfold allocMb at hmb ⊢
  rw [htype] at hmb ⊢
  dsimp only at hmb ⊢
  rw [hlen] at hmb ⊢
  dsimp only at hmb ⊢
  have hcounts := (@fill_counts s t mbType mbLen mbSize t).1
  generalize s.fill t mbType mbLen mbSize = s' at hmb hfill hcounts ⊢
  unfold MbSystem.pop at hmb ⊢
  dsimp only at hmb ⊢
  obtain ⟨l, hl, hhome⟩ := hfill.free t (mbType, mbLen)
  cases hhead : (s'.threads t).freeMsgBuffer (mbType, mbLen) with
  | none => simp [hhead] at hmb
  | some first =>
    rw [hhead] at hmb
    obtain rfl := Option.some.inj hmb
    have hchain := hl.chain
    rw [hhead] at hchain
    obtain ⟨l, rfl, -⟩ := hchain.of_some
    refine ⟨?_, fun c hc => ?_⟩
    · dsimp only
      rw [((Heap.frame_setCont (List.mem_singleton_self first)).fixed first).2.1,
        (hfill.pools.blocks first ((hl.mem first).mp List.mem_cons_self).1).1]
      exact hhome first List.mem_cons_self
    · dsimp only
      rw [Function.update_self]
      dsimp only
      rw [Function.update_of_ne hc, hcounts]

theorem freeMb_count : ((s.freeMb t mb).threads t).allocedMsgBufferCount (s.manager.heap mb).info =
    (s.threads t).allocedMsgBufferCount (s.manager.heap mb).info - 1 := by
  unfold freeMb
  dsimp only
  split_ifs
  · rw [flush_counts, push_count, if_pos ⟨rfl, rfl⟩]
  · rw [push_count, if_pos ⟨rfl, rfl⟩]

/-- For a normal event of 2000 bytes 4K are counted, and a block of 64K is handed out; when it is freed the
counter for 64K goes below zero. -/
theorem not_counted_normal_2000 : ¬ OneClass .normalEvent 2000 ∧
    ∃ mb, ((MbSystem.start .blank).allocMb 0 1 2000).2 = some mb ∧
      Allowed step (fun s a => s.Ok a ∧ s.Own a) (.start .blank) [.allocMb 0 1 2000, .freeMb 0 mb] ∧
      ((run step (.start .blank) [.allocMb 0 1 2000, .freeMb 0 mb]).threads 0).allocedMsgBufferCount
        (.normalEvent, .len64K) = -1 := by
  have hlen : mbSizeToLenType .normalEvent 2000 = some .len4K := by decide
  have htype : MbType.ofUInt8 1 = some .normalEvent := by decide
  obtain ⟨mb, hmb⟩ := @start_allocMb 0 .blank 1 .normalEvent .len4K 2000 htype hlen (by decide)
  refine ⟨fun h => (oneClass_iff _ _).mp h ⟨rfl, mbSizeToLenType_eq_len4K.mp hlen⟩, mb, hmb,
    (allowed_freeMb hmb).and (allowed_own hmb), ?_⟩
  obtain ⟨hinfo, hcount⟩ := allocMb_served (start_partitioned .blank) htype hlen hmb
  rw [show served (.normalEvent, .len4K) = (.normalEvent, .len64K) from rfl] at hinfo
  have hfree := @freeMb_count ((MbSystem.start .blank).allocMb 0 1 2000).1 0 mb
  rw [hinfo, hcount _ (by decide)] at hfree
  have hzero : ((MbSystem.start .blank).threads 0).allocedMsgBufferCount (.normalEvent, .len64K) = 0 := rfl
  rw [run_alloc_free, hfree, hzero]
  rfl

end AllCamera
