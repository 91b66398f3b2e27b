import AllCamera.Stream.FrameOrganizer.Backlog

/-!
# The organizer on a stream with losses

Frames arrive in the order of their timestamps, each without some of its packets. The organizer
follows the backlog of waiting frames (`Waits`):

* `Ready.run`: the packets of a frame that finds a frame info.
* `Waits.run_received`: the packets of any frame. When no frame info is free, the first of them is
  dropped, and the first waiting frame with it.
* `deliversIntact_iff`: the streams of which every intact frame is handed over.
-/

namespace AllCamera

open Backlog

namespace FrameOrganizer

variable {n : Nat} {o o' : FrameOrganizer} {b rs : List Received} {r s : Received} {p j : Nat}
  {k : UInt32} {m : List (UInt32 × Nat)} {info : PackInfo}

/-- The map entry with key `k` and frame info `g` holds what arrived of `r`. -/
structure Queued (r : Received) (k : UInt32) (g : FrameInfo) : Prop where
  key : k = r.frame.stamp
  are : r.frame.Are r.kept g.packetQueue
  marker : g.bMarker = true ↔ r.frame.count - 1 ∈ r.kept

/-- The entries `m` hold the frames `b`, in this order. -/
def Entries (o : FrameOrganizer) (b : List Received) (m : List (UInt32 × Nat)) : Prop :=
  List.Forall₂ (fun r e => Queued r e.1 (o.heap e.2)) b m

/-- The frames that wait in the organizer are `b`. -/
structure Waits (n : Nat) (b : List Received) (o : FrameOrganizer) : Prop where
  inv : Inv n o
  entries : Entries o b o.frameMap
  increasing : (stamps b).Pairwise (· < ·)

theorem Queued.finished_iff {g : FrameInfo} (h : Queued r k g) :
    finished g = true ↔ r.Closed :=
  finished_iff_isTail h.are r.unwrapped (fun _ => Received.lt_of_mem_kept)
    (r.pairwise_kept.imp Nat.le_of_lt) h.marker

/-! ## Entries -/

theorem Entries.keys (h : Entries o b m) : m.map Prod.fst = stamps b := by
  induction h with
  | nil => rfl
  | cons h _ ih => rw [List.map_cons, ih, stamps_cons, h.key]

theorem Entries.congr (h : Entries o b m) (hm : ∀ e ∈ m, o'.heap e.2 = o.heap e.2) :
    Entries o' b m := by
  induction h with
  | nil => exact .nil
  | cons h _ ih =>
    refine .cons ?_ (ih fun e he => hm e (List.mem_cons_of_mem _ he))
    rw [hm _ List.mem_cons_self]
    exact h

theorem Entries.concat (h : Entries o (b ++ [s]) m) :
    ∃ m' p, m = m' ++ [(s.frame.stamp, p)] ∧ Entries o b m' ∧
      Queued s s.frame.stamp (o.heap p) := by
  induction b generalizing m with
  | nil =>
    obtain ⟨⟨k, p⟩, m, hs, hn, rfl⟩ := List.forall₂_cons_left_iff.mp h
    obtain rfl := List.forall₂_nil_left_iff.mp hn
    obtain rfl : k = s.frame.stamp := hs.key
    exact ⟨[], p, rfl, .nil, hs⟩
  | cons r b ih =>
    obtain ⟨e, m, hr, hb, rfl⟩ := List.forall₂_cons_left_iff.mp h
    obtain ⟨m', p, rfl, hm, hs⟩ := ih hb
    exact ⟨e :: m', p, rfl, .cons hr hm, hs⟩

/-- The number of the next duplicate does not matter. -/
theorem Waits.duplicates (h : Waits n b o) (d : Nat) : Waits n b { o with duplicates := d } :=
  ⟨⟨h.inv.slots, h.inv.keys, h.inv.frames, h.inv.free⟩, h.entries, h.increasing⟩

theorem Waits.length_frameMap (h : Waits n b o) : o.frameMap.length = b.length :=
  (List.Forall₂.length_eq h.entries).symm

/-- As many frame infos are free as frames can still come. -/
theorem Waits.length_freeList (h : Waits n b o) : o.freeList.length + b.length = n := by
  have := h.inv.slots.length_eq
  rwa [List.length_append, List.length_map, List.length_range, h.length_frameMap] at this

theorem Waits.lookup_eq_none (h : Waits n b o) (hst : ∀ t ∈ stamps b, t < k) :
    o.frameMap.lookup k = none := by
  rw [Assoc.lookup_eq_none_iff, Entries.keys h.entries]
  intro hk
  exact UInt32.lt_irrefl _ (hst k hk)

/-- The first waiting frame is the one with the smallest timestamp. -/
theorem Waits.getSmallFrame (h : Waits n (r :: b) o) (hm : o.frameMap = (k, p) :: m) :
    o.getSmallFrame = some p := by
  cases hs : o.getSmallFrame with
  | none =>
    rw [getSmallFrame_eq_none hs] at hm
    cases hm
  | some x =>
    obtain ⟨k', hk', hmin⟩ := getSmallFrame_spec h.inv hs
    have hinc := h.increasing
    rw [← Entries.keys h.entries, hm, List.map_cons] at hinc
    rw [hm] at hk' hmin
    rcases List.mem_cons.mp hk' with he | hk'
    · rw [(Prod.mk.inj he).2]
    · have hlt : k < k' := (List.pairwise_cons.mp hinc).1 k' (List.mem_map_of_mem hk')
      exact absurd (hmin (k, p) List.mem_cons_self) (UInt32.not_le.mpr hlt)

/-- The first waiting frame is released. -/
theorem Waits.releaseRtpPacket (h : Waits n (r :: b) o) (hm : o.frameMap = (k, p) :: m) :
    Waits n b (o.releaseRtpPacket p).1 := by
  have hmem : (k, p) ∈ o.frameMap := by rw [hm]; exact List.mem_cons_self
  obtain ⟨hinv, -, -, hmap, -⟩ := releaseRtpPacket_spec h.inv hmem
  have hkeys := h.inv.keys
  rw [hm, List.map_cons, List.nodup_cons] at hkeys
  rw [hm, Assoc.erase_cons_self hkeys.1] at hmap
  have hent := h.entries
  rw [hm] at hent
  refine ⟨hinv, ?_, (List.pairwise_cons.mp h.increasing).2⟩
  rw [hmap]
  refine Entries.congr (List.forall₂_cons.mp hent).2 fun e he => heap_releaseRtpPacket_ne ?_
  -- another entry has another info
  intro hp
  have heq := h.inv.entry_eq (by rw [hm]; exact List.mem_cons_of_mem _ he) hmem hp
  exact hkeys.1 (List.mem_map.mpr ⟨e, he, by rw [heq]⟩)

/-- The handed over list is what arrived of the frame, in order. -/
def Delivers (r : Received) (d : Delivery) : Prop := r.frame.Are r.kept d.packets

/-- `checkFrame` hands the first waiting frame over when it looks complete. -/
theorem Waits.checkFrame (h : Waits n b o) :
    Waits n (b.drop (ripe 1 b)) o.checkFrame.1 ∧
      List.Forall₂ Delivers (b.take (ripe 1 b)) o.checkFrame.2 := by
  unfold FrameOrganizer.checkFrame
  cases b with
  | nil =>
    have hnone : o.getSmallFrame = none := by
      rw [FrameOrganizer.getSmallFrame, List.forall₂_nil_left_iff.mp h.entries]
      rfl
    rw [hnone]
    exact ⟨h, .nil⟩
  | cons r b =>
    obtain ⟨⟨k, p⟩, m, hr, -, hm⟩ := List.forall₂_cons_left_iff.mp h.entries
    simp only [h.getSmallFrame hm]
    by_cases hc : r.Closed
    · rw [if_pos (hr.finished_iff.mpr hc), ripe_cons_of_closed hc, ripe_zero]
      exact ⟨h.releaseRtpPacket hm, .cons hr.are .nil⟩
    · rw [if_neg fun hf => hc (hr.finished_iff.mp hf), ripe_cons_of_not_closed hc]
      exact ⟨h, .nil⟩

/-- The last waiting frame gets another frame info. -/
theorem Waits.setInfo {g : FrameInfo} (h : Waits n (b ++ [s]) o)
    (hp : (s.frame.stamp, p) ∈ o.frameMap) (hr : r.frame = s.frame)
    (hg : Queued r s.frame.stamp g) (hk : g.Keeps s.frame.stamp) :
    Waits n (b ++ [r]) (o.setInfo p g) := by
  obtain ⟨m, p', hm, hb, -⟩ := Entries.concat h.entries
  have hkeys := h.inv.keys
  rw [hm, List.map_append, List.nodup_append] at hkeys
  have hlast : (s.frame.stamp, p') ∈ o.frameMap := by rw [hm]; simp
  obtain rfl : p = p' := by
    have h1 := Assoc.lookup_of_mem h.inv.keys hp
    rw [Assoc.lookup_of_mem h.inv.keys hlast] at h1
    exact (Option.some.inj h1).symm
  refine ⟨h.inv.setInfo hp hk, ?_, ?_⟩
  · rw [frameMap_setInfo, hm]
    refine List.rel_append (Entries.congr hb fun e he => heap_setInfo_ne g ?_) (.cons ?_ .nil)
    · intro hep
      have heq := h.inv.entry_eq (by rw [hm]; exact List.mem_append_left _ he) hp hep
      exact hkeys.2.2 _ (List.mem_map_of_mem he) _ List.mem_cons_self (by rw [heq])
    · rw [heap_setInfo_self]
      exact hg
  · have := h.increasing
    rw [stamps_append, stamps_cons] at this ⊢
    rw [hr]
    exact this

/-! ## One packet -/

/-- The next packet of `r` finds a frame info, with its first `j` packets, behind the frames
`b`. -/
def Ready (n : Nat) (b : List Received) (r : Received) (j : Nat) (o : FrameOrganizer) : Prop :=
  ∃ p o', o.findFrame r.frame.stamp = some (p, o') ∧ Waits n (b ++ [r.upTo j]) o' ∧
    (r.frame.stamp, p) ∈ o'.frameMap

theorem findFrame_duplicates (o : FrameOrganizer) (k : UInt32) (d : Nat) :
    { o with duplicates := d }.findFrame k =
      (o.findFrame k).map fun x => (x.1, { x.2 with duplicates := d }) := by
  unfold findFrame insertFrame
  dsimp only
  cases o.frameMap.lookup k with
  | some p => rfl
  | none => cases o.freeList <;> rfl

theorem Ready.duplicates (h : Ready n b r j o) (d : Nat) :
    Ready n b r j { o with duplicates := d } := by
  obtain ⟨p, o', hf, hw, hp⟩ := h
  exact ⟨p, { o' with duplicates := d }, by rw [findFrame_duplicates, hf]; rfl, hw.duplicates d, hp⟩

/-- The frame of the last packets waits at the end. -/
theorem Waits.ready (h : Waits n (b ++ [r.upTo j]) o) : Ready n b r j o := by
  obtain ⟨m, p, hm, -, -⟩ := Entries.concat h.entries
  have hp : (r.frame.stamp, p) ∈ o.frameMap := by
    rw [hm]
    exact List.mem_append_right _ List.mem_cons_self
  refine ⟨p, o, ?_, h, hp⟩
  rw [findFrame, Assoc.lookup_of_mem h.inv.keys hp]

theorem orderedInsert_last (hm : ∀ e ∈ m, e.1 < k) :
    m.orderedInsert (fun a b => a.1 ≤ b.1) (k, p) = m ++ [(k, p)] := by
  induction m with
  | nil => rfl
  | cons e m ih =>
    rw [List.orderedInsert_cons,
      if_neg (UInt32.not_le.mpr (hm e List.mem_cons_self)),
      ih fun x hx => hm x (List.mem_cons_of_mem _ hx), List.cons_append]

/-- A new frame finds a free frame info when fewer than `n` frames wait. -/
theorem Waits.ready_new (h : Waits n b o) (hlt : b.length < n)
    (hst : ∀ t ∈ stamps b, t < r.frame.stamp) : Ready n b r 0 o := by
  have hnone := h.lookup_eq_none hst
  have hfree : o.freeList ≠ [] := by
    intro hf
    have := h.length_freeList
    rw [hf] at this
    simp at this
    omega
  obtain ⟨p, free, hf⟩ := List.exists_cons_of_ne_nil hfree
  obtain ⟨o', ho'⟩ : ∃ o', o.insertFrame r.frame.stamp = some (p, o') := by
    unfold insertFrame
    rw [hf]
    exact ⟨_, rfl⟩
  obtain ⟨hinv, hmem, hheap, -, -, hmap⟩ :=
    insertFrame_spec h.inv (Assoc.lookup_eq_none_iff.mp hnone) ho'
  have hkeys := Entries.keys h.entries
  rw [orderedInsert_last fun e he => hst e.1 (hkeys ▸ List.mem_map_of_mem he)] at hmap
  refine ⟨p, o', by rw [findFrame, hnone]; exact ho', ⟨hinv, ?_, ?_⟩, hmem⟩
  · rw [hmap]
    refine List.rel_append (Entries.congr h.entries fun e he => heap_insertFrame_ne ho' ?_)
      (.cons ?_ .nil)
    · -- the info was free
      intro hep
      exact h.inv.notMem_free he (by rw [hep, hf]; exact List.mem_cons_self)
    · rw [hheap]
      exact ⟨rfl, .nil, by simp⟩
  · rw [stamps_append, List.pairwise_append]
    exact ⟨h.increasing, List.pairwise_singleton _ _, fun t ht u hu => by
      rw [List.mem_singleton.mp hu]; exact hst t ht⟩

/-- The frame info of `r` with its next packet put in. -/
theorem Queued.insert {g : FrameInfo} (h : Queued (r.upTo j) k g) (hj : j < r.kept.length)
    (hinfo : IsInfoOf (r.frame.packet r.kept[j]) info) :
    Queued (r.upTo (j + 1)) k
      { g with bMarker := g.bMarker || info.bMarker, packetQueue := g.packetQueue ++ [info] } where
  key := h.key
  are := by
    rw [Received.frame_upTo, Received.kept_upTo, List.take_succ_eq_append_getElem hj]
    exact List.rel_append h.are (.cons hinfo .nil)
  marker := by
    have hlt := r.lt_of_mem_kept (List.getElem_mem hj)
    have hm : info.bMarker = decide (r.kept[j] + 1 = r.frame.count) := by
      rw [hinfo.marker, (r.frame.isPacket _ hlt).getMarker]
    have hmarker := h.marker
    rw [Received.frame_upTo, Received.kept_upTo] at hmarker ⊢
    rw [List.take_succ_eq_append_getElem hj, Bool.or_eq_true_iff, hmarker, hm,
      decide_eq_true_iff, List.mem_append, List.mem_singleton]
    exact or_congr Iff.rfl (by omega)

/-- The packets of `r` before its next one have smaller numbers. -/
theorem Queued.usSeq_le {g : FrameInfo} (h : Queued (r.upTo j) k g) (hj : j < r.kept.length)
    (hinfo : IsInfoOf (r.frame.packet r.kept[j]) info) :
    ∀ i ∈ g.packetQueue, i.usSeq ≤ info.usSeq := by
  intro i hi
  have hare := h.are
  rw [Received.frame_upTo, Received.kept_upTo] at hare
  have hmem : i.usSeq ∈ (r.kept.take j).map r.frame.seq := by
    rw [← hare.map_usSeq fun x hx => r.lt_of_mem_kept (List.mem_of_mem_take hx)]
    exact List.mem_map_of_mem hi
  obtain ⟨x, hx, hxi⟩ := List.mem_map.mp hmem
  have hpair := r.pairwise_kept
  rw [← List.take_append_drop (j + 1) r.kept, List.take_succ_eq_append_getElem hj] at hpair
  have hlt := (List.pairwise_append.mp (List.pairwise_append.mp hpair).1).2.2 x hx _
    List.mem_cons_self
  have hlast := r.lt_of_mem_kept (List.getElem_mem hj)
  rw [← hxi, hinfo.seq, (r.frame.isPacket _ hlast).seqNum, UInt16.le_iff_toNat_le,
    Frame.toNat_seq r.unwrapped (by omega)]
  have := Frame.toNat_seq r.unwrapped hlast
  rw [Frame.seq] at this
  omega

/-- What the calls for the packets `is` of the frame `f` do when each finds a frame info: they take
the packets in, free none, and hand the frames `ds` over. -/
structure Took (f : Frame) (is : List Nat) (ds : List Received) (outs : List Outcome) : Prop where
  delivered : List.Forall₂ Delivers ds (deliveries outs)
  accepted : f.Are is (accepted outs)
  discarded : discarded outs = []

theorem Took.nil {f : Frame} : Took f [] [] [] := ⟨.nil, .nil, rfl⟩

theorem Took.append {f : Frame} {is js : List Nat} {ds es : List Received}
    {outs outs' : List Outcome} (h : Took f is ds outs) (h' : Took f js es outs') :
    Took f (is ++ js) (ds ++ es) (outs ++ outs') where
  delivered := by
    rw [deliveries_append]
    exact List.rel_append h.delivered h'.delivered
  accepted := by
    rw [accepted_append]
    exact List.rel_append h.accepted h'.accepted
  discarded := by
    rw [discarded_append, h.discarded, h'.discarded, List.append_nil]

/-- The next packet of `r` goes into its frame info, and the first waiting frame goes if it looks
complete. -/
theorem Ready.insertRtpPacket (h : Ready n b r j o) (hj : j < r.kept.length) :
    let c := b ++ [r.upTo (j + 1)]
    let res := o.insertRtpPacket (r.frame.packet r.kept[j])
    Waits n (c.drop (ripe 1 c)) res.1 ∧ Took r.frame [r.kept[j]] (c.take (ripe 1 c)) [res.2] := by
  intro c res
  obtain ⟨info, hinfo, hstamp, hcall⟩ :=
    insertRtpPacket_packet o (r.lt_of_mem_kept (List.getElem_mem hj))
  obtain ⟨p, o', hf, hw, hp⟩ := h.duplicates (o.duplicates + 1)
  obtain ⟨m, p', hm, -, hq⟩ := Entries.concat hw.entries
  have hlast : (r.frame.stamp, p') ∈ o'.frameMap := by
    rw [hm]
    exact List.mem_append_right _ List.mem_cons_self
  obtain rfl : p = p' := by
    have h1 := Assoc.lookup_of_mem hw.inv.keys hp
    rw [Assoc.lookup_of_mem hw.inv.keys hlast] at h1
    exact (Option.some.inj h1).symm
  have hins := insert_last (hq.usSeq_le hj hinfo)
  have hkeep := hw.inv.frames _ hp
  obtain ⟨q, hins', hperm, horder⟩ := insert_spec info hkeep.inOrder
  obtain rfl : q = (o'.heap p).packetQueue ++ [info] := by
    rw [hins] at hins'
    exact (Option.some.inj hins').symm
  obtain ⟨g, hg⟩ : ∃ g : FrameInfo, g = { o'.heap p with
      bMarker := (o'.heap p).bMarker || info.bMarker,
      packetQueue := (o'.heap p).packetQueue ++ [info] } := ⟨_, rfl⟩
  have hset : Waits n c (o'.setInfo p g) := by
    refine hw.setInfo hp rfl ?_ ?_
    · rw [hg]
      exact hq.insert hj hinfo
    · rw [hg]
      exact hstamp ▸ Keeps.insert (hstamp.symm ▸ hkeep) hperm horder
  obtain ⟨hc, hd⟩ := hset.checkFrame
  have hres : res = ((o'.setInfo p g).checkFrame.1,
      ⟨.ok, [info], (o'.setInfo p g).checkFrame.2, []⟩) := by
    change o.insertRtpPacket _ = _
    rw [hcall, insertInfo, hstamp, hf, hg]
    simp only [hins]
  rw [hres]
  refine ⟨hc, ?_, .cons hinfo .nil, rfl⟩
  simpa [deliveries] using hd

/-! ## One frame -/

/-- The rest of the packets of `r`, from the `j`th on. -/
theorem Ready.run (h : Ready n b r j o) (hj : j < r.kept.length) :
    let i := ripe (r.kept.length - j) (b ++ [r])
    let res := o.run ((r.kept.drop j).map r.frame.packet)
    Waits n ((b ++ [r]).drop i) res.1 ∧ Took r.frame (r.kept.drop j) ((b ++ [r]).take i) res.2 := by
  intro i res
  obtain ⟨l, hl⟩ : ∃ l, r.kept.length - j = l + 1 := ⟨r.kept.length - j - 1, by omega⟩
  have hdrop := List.drop_eq_getElem_cons hj
  simp only [i, res, hl, hdrop]
  clear i res
  induction l generalizing b j o with
  | zero =>
    -- the last packet
    obtain ⟨hw, ht⟩ := h.insertRtpPacket hj
    have hnil : r.kept.drop (j + 1) = [] := List.drop_eq_nil_of_le (by omega)
    rw [Received.upTo_length (by omega)] at hw ht
    rw [hnil]
    exact ⟨hw, ht⟩
  | succ l ih =>
    obtain ⟨hw, ht⟩ := h.insertRtpPacket hj
    have hj' : j + 1 < r.kept.length := by omega
    have hopen := Received.not_closed_upTo hj'
    have hle := ripe_one_le (b := b)
    rw [ripe_one_append hopen, List.drop_append_of_le_length hle] at hw
    rw [ripe_one_append hopen, List.take_append_of_le_length hle] at ht
    obtain ⟨hw', ht'⟩ := ih hw.ready hj' (by omega) (List.drop_eq_getElem_cons hj')
    rw [← List.drop_eq_getElem_cons hj'] at hw' ht'
    rw [ripe_succ_append l.succ_pos]
    refine ⟨?_, ?_⟩
    · rw [← List.drop_drop, List.drop_append_of_le_length hle]
      exact hw'
    · rw [List.take_add, List.drop_append_of_le_length hle, List.take_append_of_le_length hle]
      exact ht.append ht'

/-- The packets of a frame that comes when fewer than `n` frames wait. -/
theorem Waits.run_enter (h : Waits n b o) (hlt : b.length < n)
    (hst : ∀ t ∈ stamps b, t < r.frame.stamp) :
    let i := ripe r.kept.length (enter b r)
    let res := o.run (r.kept.map r.frame.packet)
    Waits n ((enter b r).drop i) res.1 ∧ Took r.frame r.kept ((enter b r).take i) res.2 := by
  intro i res
  by_cases hk : r.kept = []
  · simp only [i, res, hk, enter, if_true, List.length_nil, ripe_zero]
    exact ⟨h, .nil⟩
  · simp only [i, res, enter_of_kept hk]
    exact (h.ready_new hlt hst).run (List.length_pos_iff.mpr hk)

/-- A packet of a new frame when `n` frames wait: it is dropped, and the first of them is freed. -/
theorem Waits.insertInfo_full (h : Waits n (s :: b) o) (hfull : ¬ (s :: b).length < n)
    (hst : ∀ t ∈ stamps (s :: b), t < info.unTimestamp) :
    ∃ freed, (∀ i ∈ freed, i.unTimestamp = s.frame.stamp) ∧
      (o.insertInfo info).2 = ⟨.fail, [], [], freed⟩ ∧ Waits n b (o.insertInfo info).1 := by
  have hnone : o.findFrame info.unTimestamp = none := by
    have hfree : o.freeList = [] := by
      rw [← List.length_eq_zero_iff]
      have := h.length_freeList
      omega
    rw [findFrame, h.lookup_eq_none hst]
    simp only [insertFrame, hfree]
  obtain ⟨⟨k, p⟩, m, hs, -, hm⟩ := List.forall₂_cons_left_iff.mp h.entries
  have hmem : (k, p) ∈ o.frameMap := by rw [hm]; exact List.mem_cons_self
  obtain ⟨-, hfreed, -⟩ := releaseRtpPacket_spec h.inv hmem
  have hcall : o.insertInfo info = ((o.releaseRtpPacket p).1,
      ⟨.fail, [], [], (o.releaseRtpPacket p).2⟩) := by
    simp only [insertInfo, hnone, evict, h.getSmallFrame hm]
  rw [hcall]
  refine ⟨_, fun i hi => ?_, rfl, h.releaseRtpPacket hm⟩
  rw [hfreed] at hi
  exact ((h.inv.frames _ hmem).own i hi).trans hs.key

/-- What the calls for the packets of `r` do when the frames `b` wait. -/
structure Arrives (n : Nat) (b : List Received) (r : Received) (outs : List Outcome) : Prop where
  delivered : List.Forall₂ Delivers (handed n b r) (deliveries outs)
  accepted : b.length < n → r.frame.Are r.kept (accepted outs)
  stamp : ∀ i ∈ FrameOrganizer.accepted outs, i.unTimestamp = r.frame.stamp
  discarded : ∀ i ∈ discarded outs, ∃ s ∈ b, ¬ s.Intact ∧ i.unTimestamp = s.frame.stamp

theorem Are.stamp {f : Frame} {is : List Nat} {q : List PackInfo} (h : f.Are is q)
    (hlt : ∀ i ∈ is, i < f.count) : ∀ i ∈ q, i.unTimestamp = f.stamp := by
  induction h with
  | nil => simp
  | @cons i x is q hi _ ih =>
    intro y hy
    rcases List.mem_cons.mp hy with rfl | hy
    · exact hi.stamp.trans (f.isPacket i (hlt i List.mem_cons_self)).timeStamp
    · exact ih (fun j hj => hlt j (List.mem_cons_of_mem _ hj)) y hy

/-- The packets of a frame for which there is room. -/
theorem Waits.run_received_room (h : Waits n b o) (hst : ∀ t ∈ stamps b, t < r.frame.stamp)
    (hlt : b.length < n) :
    let res := o.run (r.kept.map r.frame.packet)
    Waits n (left n b r) res.1 ∧ Arrives n b r res.2 := by
  intro res
  obtain ⟨hw, ht⟩ := h.run_enter hlt hst
  refine ⟨?_, ?_, fun _ => ht.accepted, ?_, fun i hi => ?_⟩
  · rw [left, lineUp_of_lt hlt, admitted, if_pos hlt]
    exact hw
  · rw [handed, lineUp_of_lt hlt, admitted, if_pos hlt]
    exact ht.delivered
  · exact Are.stamp ht.accepted fun i hi => r.lt_of_mem_kept hi
  · rw [ht.discarded] at hi
    cases hi

/-- Without room and without packets nothing happens. -/
theorem Waits.run_received_nil (h : Waits n b o) (hlt : ¬b.length < n) (hk : r.kept = []) :
    let res := o.run (r.kept.map r.frame.packet)
    Waits n (left n b r) res.1 ∧ Arrives n b r res.2 := by
  intro res
  have hres : res = (o, []) := by
    change o.run (r.kept.map r.frame.packet) = _
    rw [hk]
    rfl
  have hzero : (admitted n b r).kept.length = 0 := by
    rw [admitted, if_neg hlt, Received.kept_dropFirst, hk]
    rfl
  rw [hres]
  refine ⟨?_, ?_, fun hlt' => absurd hlt' hlt, by simp [accepted], by simp [discarded]⟩
  · rw [left, lineUp_of_kept_nil hk, hzero, ripe_zero]
    exact h
  · rw [handed, hzero, ripe_zero]
    exact .nil

/-- Without room, the first packet makes it, and is lost. -/
theorem Waits.run_received_full {i : Nat} {is : List Nat} (h : Waits n (s :: b) o)
    (ho : Orderly n (s :: b) (r :: rs)) (hst : ∀ t ∈ stamps (s :: b), t < r.frame.stamp)
    (hlt : ¬(s :: b).length < n) (hk : r.kept = i :: is) :
    let res := o.run (r.kept.map r.frame.packet)
    Waits n (left n (s :: b) r) res.1 ∧ Arrives n (s :: b) r res.2 := by
  intro res
  have hi : i ∈ r.kept := by rw [hk]; exact List.mem_cons_self
  have hdrop : r.dropFirst.kept = is := by rw [Received.kept_dropFirst, hk, List.tail_cons]
  obtain ⟨info, hinfo, hstamp, hcall⟩ := insertRtpPacket_packet o (r.lt_of_mem_kept hi)
  have hlate : ∀ t ∈ stamps (s :: b), t < info.unTimestamp := hstamp ▸ hst
  obtain ⟨freed, hfreed, hout, hw⟩ :=
    (h.duplicates (o.duplicates + 1)).insertInfo_full hlt hlate
  rw [← hcall] at hout hw
  have hle := ho.le
  rw [List.length_cons] at hle
  obtain ⟨hw', ht⟩ := hw.run_enter (r := r.dropFirst) (by omega)
    fun t ht => hst t (List.mem_cons_of_mem _ ht)
  have hres : res = (((o.insertRtpPacket (r.frame.packet i)).1.run (is.map r.frame.packet)).1,
      ⟨.fail, [], [], freed⟩ ::
        ((o.insertRtpPacket (r.frame.packet i)).1.run (is.map r.frame.packet)).2) := by
    change o.run (r.kept.map r.frame.packet) = _
    rw [hk, List.map_cons, FrameOrganizer.run, hout]
  have hline : lineUp n (s :: b) r = enter b r.dropFirst :=
    lineUp_of_full hlt (by rw [hk]; exact List.cons_ne_nil _ _)
  rw [hdrop, Received.frame_dropFirst] at hw' ht
  rw [hres]
  refine ⟨?_, ?_, fun hlt' => absurd hlt' hlt, ?_, fun x hx => ?_⟩
  · rw [left, hline, admitted, if_neg hlt, hdrop]
    exact hw'
  · rw [handed, hline, admitted, if_neg hlt, hdrop]
    exact ht.delivered
  · exact Are.stamp ht.accepted fun j hj =>
      r.lt_of_mem_kept (by rw [hk]; exact List.mem_cons_of_mem _ hj)
  · have hx : x ∈ freed := by
      rw [← List.singleton_append, discarded_append, ht.discarded, List.append_nil] at hx
      simpa [discarded] using hx
    -- `n` frames wait, so the first of them does not look complete
    refine ⟨s, List.mem_cons_self, fun hi => ?_, hfreed x hx⟩
    exact ho.full (Nat.le_antisymm ho.le (Nat.not_lt.mp hlt)) s rfl hi.closed

/-- The packets of a frame with a later timestamp than those of the waiting frames. -/
theorem Waits.run_received (h : Waits n b o) (ho : Orderly n b (r :: rs)) (hn : 0 < n) :
    let res := o.run (r.kept.map r.frame.packet)
    Waits n (left n b r) res.1 ∧ Arrives n b r res.2 := by
  have hinc := ho.increasing
  rw [stamps_append, List.pairwise_append, stamps_cons] at hinc
  have hst : ∀ t ∈ stamps b, t < r.frame.stamp := fun t ht => hinc.2.2 t ht _ List.mem_cons_self
  by_cases hlt : b.length < n
  · exact h.run_received_room hst hlt
  cases hk : r.kept with
  | nil => exact hk ▸ h.run_received_nil hlt hk
  | cons i is =>
    cases b with
    | nil => exact absurd hn hlt
    | cons s b => exact hk ▸ h.run_received_full ho hst hlt hk

/-! ## Streams with losses -/

/-- The packets of the stream that arrived. -/
def received (rs : List Received) : List MsgBlock :=
  rs.flatMap fun r => r.kept.map r.frame.packet

theorem run_received_cons (o : FrameOrganizer) (r : Received) (rs : List Received) :
    o.run (received (r :: rs)) =
      let res := o.run (r.kept.map r.frame.packet)
      ((res.1.run (received rs)).1, res.2 ++ (res.1.run (received rs)).2) := by
  rw [received, List.flatMap_cons, run_append]
  rfl

/-- The frames that the backlog lets go are handed over. -/
theorem Waits.run_handedAll (h : Waits n b o) (ho : Orderly n b rs) (hn : 0 < n) :
    List.Forall₂ Delivers (handedAll n b rs) (deliveries (o.run (received rs)).2) := by
  induction rs generalizing b o with
  | nil => exact .nil
  | cons r rs ih =>
    obtain ⟨hw, ha⟩ := h.run_received ho hn
    rw [run_received_cons, deliveries_append]
    exact List.rel_append ha.delivered (ih hw (ho.left hn))

/-- A packet that is taken in has the timestamp of a frame of the stream. -/
theorem Waits.run_accepted_stamp (h : Waits n b o) (ho : Orderly n b rs) (hn : 0 < n) :
    ∀ i ∈ accepted (o.run (received rs)).2, i.unTimestamp ∈ stamps rs := by
  induction rs generalizing b o with
  | nil => simp [received, FrameOrganizer.run, accepted]
  | cons r rs ih =>
    obtain ⟨hw, ha⟩ := h.run_received ho hn
    intro i hi
    rw [run_received_cons, accepted_append] at hi
    rw [stamps_cons]
    rcases List.mem_append.mp hi with hi | hi
    · rw [ha.stamp i hi]
      exact List.mem_cons_self
    · exact List.mem_cons_of_mem _ (ih hw (ho.left hn) i hi)

/-- If the intact frames are spared, every packet of theirs is taken in. -/
theorem Waits.run_accepted (h : Waits n b o) (ho : Orderly n b rs) (hn : 0 < n)
    (hs : Spared n b rs) : ∀ r ∈ rs, r.Intact →
      r.frame.Are r.kept ((accepted (o.run (received rs)).2).filter
        fun i => i.unTimestamp = r.frame.stamp) := by
  induction rs generalizing b o with
  | nil => simp
  | cons r rs ih =>
    obtain ⟨hw, ha⟩ := h.run_received ho hn
    obtain ⟨hr, hs⟩ := hs
    have hinc := ho.increasing
    rw [stamps_append, List.pairwise_append, stamps_cons] at hinc
    have hlt := (List.pairwise_cons.mp hinc.2.1).1
    intro x hx hi
    rw [run_received_cons, accepted_append, List.filter_append]
    rcases List.mem_cons.mp hx with rfl | hx
    · -- the later packets have later timestamps
      have hrest := hw.run_accepted_stamp (ho.left hn) hn
      rw [List.filter_eq_self.mpr (by simpa using ha.stamp), List.filter_eq_nil_iff.mpr fun i hi => ?_,
        List.append_nil]
      · exact ha.accepted (hr hi)
      · simpa using (UInt32.ne_of_lt (hlt _ (hrest i hi))).symm
    · have hne : ∀ i ∈ accepted (o.run (r.kept.map r.frame.packet)).2,
          ¬ i.unTimestamp = x.frame.stamp := by
        intro i hi
        rw [ha.stamp i hi]
        exact UInt32.ne_of_lt (hlt _ (mem_stamps hx))
      rw [List.filter_eq_nil_iff.mpr (by simpa using hne), List.nil_append]
      exact ih hw (ho.left hn) hs x hx hi

/-- If the intact frames are spared, what is freed is of other frames. -/
theorem Waits.run_discarded (h : Waits n b o) (ho : Orderly n b rs) (hn : 0 < n)
    (hs : Spared n b rs) : ∀ i ∈ discarded (o.run (received rs)).2,
      ∃ s ∈ b ++ rs, ¬ s.Intact ∧ i.unTimestamp = s.frame.stamp := by
  induction rs generalizing b o with
  | nil => simp [received, FrameOrganizer.run, discarded]
  | cons r rs ih =>
    obtain ⟨hw, ha⟩ := h.run_received ho hn
    obtain ⟨hr, hs⟩ := hs
    intro i hi
    rw [run_received_cons, discarded_append] at hi
    rcases List.mem_append.mp hi with hi | hi
    · obtain ⟨s, hsb, hns⟩ := ha.discarded i hi
      exact ⟨s, List.mem_append_left _ hsb, hns⟩
    obtain ⟨s, hsm, hns, hstamp⟩ := ih hw (ho.left hn) hs i hi
    rcases List.mem_append.mp hsm with hsm | hsm
    · rcases mem_lineUp (List.mem_of_mem_drop hsm) with hsb | rfl
      · exact ⟨s, List.mem_append_left _ hsb, hns, hstamp⟩
      · refine ⟨r, by simp, fun hri => hns ?_, by rw [hstamp, frame_admitted]⟩
        rw [admitted, if_pos (hr hri)]
        exact hri
    · exact ⟨s, by simp [hsm], hns, hstamp⟩

/-- An in-order stream of frames of which packets were lost: the timestamps increase, without
wrap-around. -/
structure LossyStream where
  frames : List Received
  increasing : (stamps frames).Pairwise (· < ·)

/-- Every frame without a lost packet is handed over, whole and in the order of the stream, all of
its packets are taken in, and none is freed without being handed over. -/
structure DeliversIntact (rs : List Received) (outs : List Outcome) : Prop where
  delivered : List.SublistForall₂
    (fun r d => r.frame.Are (List.range r.frame.count) d.packets) (intact rs) (deliveries outs)
  accepted : ∀ r ∈ rs, r.Intact → r.frame.Are (List.range r.frame.count)
    ((accepted outs).filter fun i => i.unTimestamp = r.frame.stamp)
  discarded : ∀ r ∈ rs, r.Intact → ∀ i ∈ discarded outs, i.unTimestamp ≠ r.frame.stamp

theorem init_waits (n : Nat) : Waits (n + 1) [] (init (n + 1)).2 :=
  ⟨init_inv (n + 1), .nil, .nil⟩

theorem LossyStream.orderly (s : LossyStream) (n : Nat) : Orderly (n + 1) [] s.frames where
  increasing := s.increasing
  le := Nat.zero_le _
  full h := by cases h

/-- Frames that the backlog lets go as they were sent are handed over whole. -/
theorem sublistForall₂_intact {ds : List Received} {l : List Delivery}
    (h : List.Forall₂ Delivers ds l) (hs : (intact rs).Sublist ds) :
    List.SublistForall₂ (fun r d => r.frame.Are (List.range r.frame.count) d.packets)
      (intact rs) l := by
  have hall : ∀ r ∈ intact rs, r.Intact := fun r hr => (mem_intact.mp hr).2
  generalize intact rs = is at hs hall
  induction hs generalizing l with
  | slnil => exact .nil
  | cons r _ ih =>
    obtain ⟨d, l, -, hl, rfl⟩ := List.forall₂_cons_left_iff.mp h
    exact .cons_right (ih hl hall)
  | cons_cons r _ ih =>
    obtain ⟨d, l, hd, hl, rfl⟩ := List.forall₂_cons_left_iff.mp h
    refine .cons ?_ (ih hl fun x hx => hall x (List.mem_cons_of_mem _ hx))
    have hr : r.kept = List.range r.frame.count := hall r List.mem_cons_self
    rw [← hr]
    exact hd

theorem exists_of_sublistForall₂ {α β : Type} {R : α → β → Prop} {l : List α} {l' : List β}
    (h : List.SublistForall₂ R l l') : ∀ x ∈ l, ∃ y ∈ l', R x y := by
  induction h with
  | nil => simp
  | cons hr _ ih =>
    intro x hx
    rcases List.mem_cons.mp hx with rfl | hx
    · exact ⟨_, List.mem_cons_self, hr⟩
    · obtain ⟨y, hy, hxy⟩ := ih x hx
      exact ⟨y, List.mem_cons_of_mem _ hy, hxy⟩
  | cons_right _ ih =>
    intro x hx
    obtain ⟨y, hy, hxy⟩ := ih x hx
    exact ⟨y, List.mem_cons_of_mem _ hy, hxy⟩

theorem exists_of_forall₂ {α β : Type} {R : α → β → Prop} {l : List α} {l' : List β}
    (h : List.Forall₂ R l l') : ∀ y ∈ l', ∃ x ∈ l, R x y :=
  exists_of_sublistForall₂ (List.sublistForall₂_iff.mpr ⟨l, h.flip, .refl l⟩)

/-- A frame that is handed over whole is let go by the backlog with all its packets. -/
theorem whole_of_delivered {ds : List Received} {l : List Delivery}
    (h : List.Forall₂ Delivers ds l)
    (hd : List.SublistForall₂ (fun r d => r.frame.Are (List.range r.frame.count) d.packets)
      (intact rs) l) : ∀ r ∈ rs, r.Intact → Whole ds r := by
  intro r hr hi
  obtain ⟨d, hdl, hrd⟩ := exists_of_sublistForall₂ hd r (mem_intact.mpr ⟨hr, hi⟩)
  obtain ⟨s, hs, hsd⟩ := exists_of_forall₂ h d hdl
  have hpos : d.packets ≠ [] := by
    rw [← List.length_pos_iff, ← List.Forall₂.length_eq hrd, List.length_range]
    exact r.frame.pos
  obtain ⟨i, hid⟩ := List.exists_mem_of_ne_nil _ hpos
  refine ⟨s, hs, ?_, ?_⟩
  · rw [← Are.stamp hrd (fun j hj => List.mem_range.mp hj) i hid]
    exact (Are.stamp hsd (fun j hj => s.lt_of_mem_kept hj) i hid).symm
  · rw [List.Forall₂.length_eq hsd, ← List.Forall₂.length_eq hrd, List.length_range]

/-- **Streams with losses.** For every positive number of frame infos and every in-order stream
with any losses, every intact frame is handed over, whole and in order, and none of its packets is
dropped, exactly when no intact frame comes when all frame infos hold waiting frames and none waits
in the end. -/
theorem deliversIntact_iff (n : Nat) (s : LossyStream) :
    DeliversIntact s.frames ((init (n + 1)).2.run (received s.frames)).2 ↔
      Spared (n + 1) [] s.frames := by
  have hw := init_waits n
  have ho := s.orderly n
  have hrun := hw.run_handedAll ho n.succ_pos
  constructor
  · rintro ⟨hd, -, -⟩
    exact spared_of_whole ho n.succ_pos (whole_of_delivered hrun hd)
  · intro hs
    refine ⟨sublistForall₂_intact hrun (hs.sublist_handedAll ho n.succ_pos), fun r hr hi => ?_,
      fun r hr hi i hid hst => ?_⟩
    · have := hw.run_accepted ho n.succ_pos hs r hr hi
      rwa [show r.kept = List.range r.frame.count from hi] at this
    · obtain ⟨x, hx, hnx, hxs⟩ := hw.run_discarded ho n.succ_pos hs i hid
      have hnodup : (stamps s.frames).Nodup := s.increasing.imp UInt32.ne_of_lt
      have := List.inj_on_of_nodup_map hnodup hr hx (hst.symm.trans hxs)
      exact hnx (this ▸ hi)

/-- The packets `kept` of a frame of bare headers. -/
def headerReceived (first : UInt16) (stamp : UInt32) (last : Nat) (kept : List Nat)
    (hk : kept.Sublist (List.range (last + 1))) (hw : first.toNat + (last + 1) ≤ 2 ^ 16) :
    Received :=
  ⟨headerFrame first stamp last, kept, hk, hw⟩

/-- Five frames with the numbers 0 to 9, of which only number 1, the end of the first frame, is
lost. -/
def oneLost : LossyStream where
  frames := [headerReceived 0 0 1 [0] (by decide) (by decide),
    headerReceived 2 1 0 [0] (by decide) (by decide),
    headerReceived 3 2 0 [0] (by decide) (by decide),
    headerReceived 4 3 1 [0, 1] (by decide) (by decide),
    headerReceived 6 4 3 [0, 1, 2, 3] (by decide) (by decide)]
  increasing := by decide

theorem counts_sublist {is : List Received} {l : List Delivery}
    (h : List.SublistForall₂ (fun r d => r.frame.Are (List.range r.frame.count) d.packets) is l) :
    (is.map fun r => r.frame.count).Sublist (l.map fun d => d.packets.length) := by
  induction h with
  | nil => exact List.nil_sublist _
  | @cons r d _ _ hd _ ih =>
    have hlen : r.frame.count = d.packets.length := by
      rw [← List.Forall₂.length_eq hd, List.length_range]
    rw [List.map_cons, List.map_cons, hlen]
    exact ih.cons_cons _
  | cons_right _ ih => exact ih.cons _

/-- With three frame infos the fourth frame loses its first packet, and the rest of it is handed
over as a frame. -/
theorem not_deliversIntact_oneLost :
    ¬ DeliversIntact oneLost.frames ((init 3).2.run (received oneLost.frames)).2 := by
  rintro ⟨hd, -, -⟩
  have hcounts := counts_sublist hd
  revert hcounts
  decide

end FrameOrganizer

end AllCamera
