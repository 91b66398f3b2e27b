import AllCamera.Stream.FrameOrganizer.Invariant
import Mathlib.Data.List.Chain

/-!
# Which frames the organizer puts together

The packets of one frame (`Frame`) arrive in some order, perhaps more than once. The organizer
has no notion of a frame's first number: it hands over whatever is queued as soon as the queue
counts up without a gap and holds the marker. So it hands over, each time, the packets that
arrived since the last time if they are, each once, a final segment of the frame (`IsTail`).

* `Collects f o l`: the organizer holds the packets `l` of `f` and nothing else.
  `Collects.insertRtpPacket` is the step: one more packet is collected, or the collected ones form
  a tail and are handed over. `Collects.run` runs it up to the first tail.
* `deliversOnce_iff`: the orders of arrival for which the frame is handed over once and whole.
* `deliversStream_iff`: the loss-free streams of frames that are handed over as sent.
-/

namespace AllCamera

/-! ## Lists that count up -/

/-- A list counts up by one exactly when it is a range. -/
theorem isChain_succ_iff {l : List Nat} :
    (l.IsChain fun a b => b = a + 1) ↔ ∃ a, l = List.range' a l.length := by
  induction l with
  | nil => simp
  | cons x l ih =>
    cases l with
    | nil => simp
    | cons y l =>
      rw [List.isChain_cons_cons, ih]
      constructor
      · rintro ⟨rfl, a, ha⟩
        have : a = x + 1 := by
          rw [List.length_cons, List.range'_succ] at ha
          exact (List.cons.inj ha).1.symm
        subst this
        refine ⟨x, ?_⟩
        rw [List.length_cons, List.range'_succ, ← ha]
      · rintro ⟨a, ha⟩
        rw [List.length_cons, List.range'_succ] at ha
        obtain ⟨rfl, hl⟩ := List.cons.inj ha
        refine ⟨?_, x + 1, hl⟩
        rw [List.length_cons, List.range'_succ] at hl
        exact (List.cons.inj hl).1

/-! ## Frames -/

/-- `b` is an RTP packet with this number, timestamp and marker. -/
structure IsPacket (b : MsgBlock) (seq : UInt16) (stamp : UInt32) (marker : Bool) : Prop where
  parses : (RtpPacket.parsePacket b.data b.rd b.length32).ret = .ok
  seqNum : RtpPacket.getSeqNum b.data b.rd = seq
  timeStamp : RtpPacket.getTimeStamp b.data b.rd = stamp
  getMarker : RtpPacket.getMarker b.data b.rd = marker

/-- The packets of one frame: numbers that count up from `first` modulo 2^16, one timestamp, the
marker on the last packet. -/
structure Frame where
  first : UInt16
  stamp : UInt32
  count : Nat
  packet : Nat → MsgBlock
  pos : 0 < count
  isPacket : ∀ i < count, IsPacket (packet i) (first + .ofNat i) stamp (decide (i + 1 = count))

namespace Frame

/-- The numbers of the frame do not pass 65535. -/
def Unwrapped (f : Frame) : Prop := f.first.toNat + f.count ≤ 2 ^ 16

/-- `ps` are the packets `is` of the frame, in this order. -/
def Are (f : Frame) (is : List Nat) (ps : List PackInfo) : Prop :=
  List.Forall₂ (fun i p => FrameOrganizer.IsInfoOf (f.packet i) p) is ps

/-- `l` is, each once, the last packets of the frame. -/
def IsTail (f : Frame) (l : List Nat) : Prop :=
  l ≠ [] ∧ l.Perm (List.range' (f.count - l.length) l.length)

variable {f : Frame}

/-- The number of packet `i`. -/
def seq (f : Frame) (i : Nat) : UInt16 := f.first + .ofNat i

theorem toNat_seq (hw : f.Unwrapped) {i : Nat} (hi : i < f.count) :
    (f.seq i).toNat = f.first.toNat + i := by
  unfold Unwrapped at hw
  rw [seq, UInt16.toNat_add, UInt16.toNat_ofNat']
  omega

/-- The number after that of packet `i` is the one of packet `j ≥ i` only for `j = i + 1`. -/
theorem seq_eq_succ_iff (hw : f.Unwrapped) {i j : Nat} (hi : i < f.count) (hj : j < f.count)
    (hij : i ≤ j) : f.seq j = f.seq i + 1 ↔ j = i + 1 := by
  rw [← UInt16.toNat_inj, UInt16.toNat_add, toNat_seq hw hi, toNat_seq hw hj, UInt16.toNat_one]
  unfold Unwrapped at hw
  omega

theorem Are.map_usSeq {is : List Nat} {q : List PackInfo} (h : f.Are is q) (hlt : ∀ i ∈ is, i < f.count) :
    q.map PackInfo.usSeq = is.map f.seq := by
  induction h with
  | nil => rfl
  | @cons i p is q hi _ ih =>
    rw [List.map_cons, List.map_cons, ih fun j hj => hlt j (List.mem_cons_of_mem _ hj), hi.seq,
      (f.isPacket i (hlt i (by simp))).seqNum, seq]

/-- A queue in order holds its packets in order. -/
theorem Are.pairwise (hw : f.Unwrapped) {is : List Nat} {q : List PackInfo} (h : f.Are is q)
    (hlt : ∀ i ∈ is, i < f.count) (ho : InOrder q) : is.Pairwise (· ≤ ·) := by
  have hm : (is.map f.seq).Pairwise (· ≤ ·) := by
    rw [← h.map_usSeq hlt]
    exact List.pairwise_map.mpr ho
  refine (List.pairwise_map.mp hm).imp_of_mem fun {i j} hi hj hle => ?_
  rw [UInt16.le_iff_toNat_le, toNat_seq hw (hlt i hi), toNat_seq hw (hlt j hj)] at hle
  omega

/-- The packets of a whole frame stand in the order of their numbers only in a frame that does not
wrap. -/
theorem Are.unwrapped {q : List PackInfo} (h : f.Are (List.range f.count) q)
    (ho : InOrder q) : f.Unwrapped := by
  by_contra hw
  unfold Unwrapped at hw
  have hlt := UInt16.toNat_lt f.first
  have hs : ((List.range f.count).map f.seq).Pairwise (· ≤ ·) := by
    rw [← h.map_usSeq fun i hi => List.mem_range.mp hi]
    exact List.pairwise_map.mpr ho
  rw [List.pairwise_map, List.pairwise_iff_getElem] at hs
  -- number 65535 stands just before number 0
  have := hs (2 ^ 16 - f.first.toNat - 1) (2 ^ 16 - f.first.toNat) (by simp; omega) (by simp; omega)
    (by omega)
  rw [List.getElem_range, List.getElem_range, UInt16.le_iff_toNat_le, seq, seq,
    UInt16.toNat_add, UInt16.toNat_add, UInt16.toNat_ofNat', UInt16.toNat_ofNat'] at this
  omega

theorem isChain_seq_iff (hw : f.Unwrapped) {is : List Nat} (hlt : ∀ i ∈ is, i < f.count)
    (hs : is.Pairwise (· ≤ ·)) :
    ((is.map f.seq).IsChain fun a b => b = a + 1) ↔ is.IsChain fun a b => b = a + 1 := by
  induction is with
  | nil => simp
  | cons i is ih =>
    cases is with
    | nil => simp
    | cons j is =>
      obtain ⟨hi, hs'⟩ := List.pairwise_cons.mp hs
      have hlt' : ∀ x ∈ j :: is, x < f.count := fun x hx => hlt x (List.mem_cons_of_mem _ hx)
      have hj := seq_eq_succ_iff hw (hlt i (by simp)) (hlt' j (by simp)) (hi j (by simp))
      simp only [List.map_cons, List.isChain_cons_cons] at ih ⊢
      rw [hj, ← ih hlt' hs']

/-- The packets `is` of a frame, in order, count up to the marker exactly when they are a tail of
the frame. -/
theorem isTail_iff {is : List Nat} (hlt : ∀ i ∈ is, i < f.count) (hs : is.Pairwise (· ≤ ·)) :
    f.IsTail is ↔ is ≠ [] ∧ f.count - 1 ∈ is ∧ is.IsChain fun a b => b = a + 1 := by
  have hpos := f.pos
  constructor
  · rintro ⟨hne, hp⟩
    have heq : is = List.range' (f.count - is.length) is.length :=
      hp.eq_of_pairwise (fun a b _ _ => Nat.le_antisymm) hs
        ((List.pairwise_lt_range' (s := f.count - is.length)).imp Nat.le_of_lt)
    have hlen : 0 < is.length := List.length_pos_iff.mpr hne
    refine ⟨hne, ?_, isChain_succ_iff.mpr ⟨_, heq⟩⟩
    have hle : is.length ≤ f.count := by
      have hlast : f.count - is.length + is.length - 1 < f.count := by
        refine hlt _ (hp.mem_iff.mpr ?_)
        rw [List.mem_range'_1]
        omega
      omega
    refine hp.mem_iff.mpr ?_
    rw [List.mem_range'_1]
    omega
  · rintro ⟨hne, hm, hc⟩
    obtain ⟨a, ha⟩ := isChain_succ_iff.mp hc
    have hlen : 0 < is.length := List.length_pos_iff.mpr hne
    have hend : a + is.length = f.count := by
      have h1 : f.count - 1 < a + is.length := by
        rw [ha, List.mem_range'_1] at hm
        simpa using hm.2
      have h2 : a + is.length - 1 < f.count := by
        refine hlt _ ?_
        rw [ha, List.mem_range'_1]
        simp
        omega
      omega
    refine ⟨hne, ?_⟩
    rw [show f.count - is.length = a by omega, ← ha]

theorem IsTail.perm {l l' : List Nat} (h : f.IsTail l) (hp : l'.Perm l) : f.IsTail l' := by
  refine ⟨fun e => h.1 (by subst e; exact hp.symm.eq_nil), ?_⟩
  rw [hp.length_eq]
  exact hp.trans h.2

end Frame

/-! ## Frames of bare headers -/

theorem received_isPacket (h : RtpPacket.Head) :
    IsPacket (RtpPacket.received h []) h.seqNum h.timeStamp h.marker where
  parses := by
    rw [RtpPacket.received_length (by simp), RtpPacket.parsePacket_plain rfl (by simp)]
  seqNum := be16_be16Bytes h.seqNum
  timeStamp := be32_be32Bytes h.timeStamp
  getMarker := by
    have h1 : (RtpPacket.received h []).data 17 =
        .ofNat ((if h.marker then 128 else 0) + h.payloadType.toNat % 128) := rfl
    change RtpPacket.getMarker (RtpPacket.received h []).data 16 = h.marker
    rw [RtpPacket.getMarker, show (16 : Int) + 1 = 17 from rfl, h1, UInt8.toNat_ofNat']
    cases h.marker <;> simp <;> omega

/-- The frame of `last + 1` bare headers, numbered from `first` on. -/
def headerFrame (first : UInt16) (stamp : UInt32) (last : Nat) : Frame where
  first := first
  stamp := stamp
  count := last + 1
  packet i := RtpPacket.received ⟨96, decide (i + 1 = last + 1), first + .ofNat i, stamp, 0⟩ []
  pos := last.succ_pos
  isPacket _ _ := received_isPacket _

/-! ## One frame in the organizer -/

namespace FrameOrganizer

variable {n : Nat} {o : FrameOrganizer} {f : Frame} {l : List Nat} {i : Nat}

/-- The map has one entry, for the frame, with the packets `l` of it in the queue. -/
structure Holds (f : Frame) (o : FrameOrganizer) (p : Nat) (l : List Nat) : Prop where
  entry : o.frameMap = [(f.stamp, p)]
  queue : ∃ is, is.Perm l ∧ f.Are is (o.heap p).packetQueue
  marker : (o.heap p).bMarker = true ↔ f.count - 1 ∈ l

/-- The organizer holds the packets `l` of the frame, and nothing else. -/
structure Collects (f : Frame) (n : Nat) (o : FrameOrganizer) (l : List Nat) : Prop where
  inv : Inv n o
  lt : ∀ i ∈ l, i < f.count
  held : (l = [] ∧ o.frameMap = []) ∨ (l ≠ [] ∧ ∃ p, Holds f o p l)

/-- An organizer with an empty map has collected nothing, of any frame. -/
theorem Inv.collects_nil (h : Inv n o) (he : o.frameMap = []) : Collects f n o [] :=
  ⟨h, by simp, .inl ⟨rfl, he⟩⟩

theorem Collects.frameMap_nil (h : Collects f n o []) : o.frameMap = [] := by
  rcases h.held with ⟨-, h⟩ | ⟨h, -⟩
  · exact h
  · exact absurd rfl h

/-- The next packet of the frame finds its frame info. -/
theorem Collects.findFrame (h : Collects f n o l) (hn : 0 < n) :
    ∃ p o', o.findFrame f.stamp = some (p, o') ∧ Inv n o' ∧ Holds f o' p l := by
  rcases h.held with ⟨rfl, hm⟩ | ⟨-, p, hh⟩
  · have hfree : o.freeList ≠ [] := by
      intro hf
      have := h.inv.slots.length_eq
      rw [hf, hm] at this
      simp at this
      omega
    obtain ⟨p, free, hf⟩ := List.exists_cons_of_ne_nil hfree
    have hnone : o.frameMap.lookup f.stamp = none := by rw [hm]; rfl
    obtain ⟨o', ho'⟩ : ∃ o', o.insertFrame f.stamp = some (p, o') := by
      unfold insertFrame
      rw [hf]
      exact ⟨_, rfl⟩
    obtain ⟨hinv, -, hheap, -, -, hmap⟩ :=
      insertFrame_spec h.inv (Assoc.lookup_eq_none_iff.mp hnone) ho'
    refine ⟨p, o', by rw [FrameOrganizer.findFrame, hnone]; exact ho', hinv, ⟨?_, ⟨[], .refl _, ?_⟩, ?_⟩⟩
    · rw [hmap, hm]
      rfl
    · rw [hheap]
      exact .nil
    · rw [hheap]
      simp
  · refine ⟨p, o, ?_, h.inv, hh⟩
    have hsome : o.frameMap.lookup f.stamp = some p := by simp [hh.entry]
    rw [FrameOrganizer.findFrame, hsome]

/-- The frame info after one more packet went into its queue. -/
theorem Holds.insert {p : Nat} {info : PackInfo} (h : Holds f o p l) (hi : i < f.count)
    (hinfo : IsInfoOf (f.packet i) info) {q : List PackInfo}
    (hq : q.Perm (info :: (o.heap p).packetQueue)) :
    Holds f (o.setInfo p { o.heap p with
      bMarker := (o.heap p).bMarker || info.bMarker, packetQueue := q }) p (l ++ [i]) where
  entry := h.entry
  queue := by
    obtain ⟨is, hp, hare⟩ := h.queue
    rw [heap_setInfo_self]
    obtain ⟨is', hp', hare'⟩ : ∃ is', is'.Perm (i :: is) ∧ f.Are is' q := by
      obtain ⟨is', h1, h2⟩ := List.perm_comp_forall₂ hq
        (List.forall₂_cons.mpr ⟨hinfo, hare.flip⟩ : List.Forall₂
          (flip fun i p => IsInfoOf (f.packet i) p) (info :: (o.heap p).packetQueue) (i :: is))
      exact ⟨is', h2, h1.flip⟩
    exact ⟨is', hp'.trans ((hp.cons i).trans (List.perm_append_singleton i l).symm), hare'⟩
  marker := by
    have hm : info.bMarker = decide (i + 1 = f.count) := by
      rw [hinfo.marker, (f.isPacket i hi).getMarker]
    rw [heap_setInfo_self, Bool.or_eq_true_iff, h.marker, hm, decide_eq_true_iff, List.mem_append,
      List.mem_singleton]
    have := f.pos
    exact or_congr Iff.rfl (by omega)

/-- A frame info with packets of a frame, in order, is finished exactly when they form a tail of
the frame. -/
theorem finished_iff_isTail {g : FrameInfo} (h : f.Are l g.packetQueue) (hw : f.Unwrapped)
    (hlt : ∀ i ∈ l, i < f.count) (hs : l.Pairwise (· ≤ ·))
    (hm : g.bMarker = true ↔ f.count - 1 ∈ l) : finished g = true ↔ f.IsTail l := by
  have hne : g.packetQueue ≠ [] ↔ l ≠ [] := by
    rw [← List.length_pos_iff, ← List.length_pos_iff, List.Forall₂.length_eq h]
  rw [FrameOrganizer.finished_iff, Frame.isTail_iff hlt hs, hne, hm,
    ← Frame.isChain_seq_iff hw hlt hs, ← h.map_usSeq hlt, List.isChain_map]

/-- The queue of the frame is finished exactly when its packets form a tail of the frame. -/
theorem Holds.finished_iff {p : Nat} (h : Holds f o p l) (hinv : Inv n o) (hw : f.Unwrapped)
    (hlt : ∀ i ∈ l, i < f.count) :
    (finished (o.heap p) = true ↔ f.IsTail l) ∧
      (f.IsTail l → f.Are (List.range' (f.count - l.length) l.length) (o.heap p).packetQueue) := by
  obtain ⟨is, hp, hare⟩ := h.queue
  have hlt' : ∀ i ∈ is, i < f.count := fun i hi => hlt i (hp.mem_iff.mp hi)
  have hkeep := hinv.frames (f.stamp, p) (by rw [h.entry]; exact List.mem_singleton_self _)
  have hs : is.Pairwise (· ≤ ·) := hare.pairwise hw hlt' hkeep.inOrder
  have htail : f.IsTail l ↔ f.IsTail is := ⟨fun ht => ht.perm hp, fun ht => ht.perm hp.symm⟩
  constructor
  · rw [htail]
    exact finished_iff_isTail hare hw hlt' hs (h.marker.trans hp.mem_iff.symm)
  · intro ht
    have heq : is = List.range' (f.count - is.length) is.length :=
      (htail.mp ht).2.eq_of_pairwise (fun a b _ _ => Nat.le_antisymm) hs
        ((List.pairwise_lt_range' (s := f.count - is.length)).imp Nat.le_of_lt)
    rw [← hp.length_eq, ← heq]
    exact hare

/-- `checkFrame` hands the frame's packets over when they form a tail of it. -/
theorem Holds.checkFrame {p : Nat} (h : Holds f o p l) (hinv : Inv n o) (hw : f.Unwrapped)
    (hlt : ∀ i ∈ l, i < f.count) :
    (¬ f.IsTail l ∧ o.checkFrame = (o, [])) ∨
      (f.IsTail l ∧ o.checkFrame.1.frameMap = [] ∧ ∃ d, o.checkFrame.2 = [d] ∧
        f.Are (List.range' (f.count - l.length) l.length) d.packets) := by
  obtain ⟨hfin, hare⟩ := h.finished_iff hinv hw hlt
  have hsmall : o.getSmallFrame = some p := by
    rw [getSmallFrame, h.entry]
    rfl
  unfold FrameOrganizer.checkFrame
  rw [hsmall]
  by_cases ht : f.IsTail l
  · refine .inr ⟨ht, ?_, ?_⟩
    · have hmem : (f.stamp, p) ∈ o.frameMap := by rw [h.entry]; exact List.mem_singleton_self _
      obtain ⟨-, -, -, hmap, -⟩ := releaseRtpPacket_spec hinv hmem
      simp only [hfin.mpr ht, if_true, hmap, h.entry, Assoc.erase]
      simp
    · simp only [hfin.mpr ht, if_true]
      exact ⟨_, rfl, hare ht⟩
  · refine .inl ⟨ht, ?_⟩
    simp only [Bool.eq_false_iff.mpr fun hf => ht (hfin.mp hf), Bool.false_eq_true, if_false]

/-- The call took the packet in and freed none. -/
def Intact (out : Outcome) : Prop := out.ret = .ok ∧ out.discarded = []

/-- A packet of a frame is parsed, and its info goes into the queues. -/
theorem insertRtpPacket_packet (o : FrameOrganizer) (hi : i < f.count) :
    ∃ info, IsInfoOf (f.packet i) info ∧ info.unTimestamp = f.stamp ∧
      o.insertRtpPacket (f.packet i) =
        { o with duplicates := o.duplicates + 1 }.insertInfo info := by
  have hpkt := f.isPacket i hi
  have hinfo := packInfo_isInfoOf o (f.packet i)
  refine ⟨_, hinfo, hinfo.stamp.trans hpkt.timeStamp, ?_⟩
  unfold FrameOrganizer.insertRtpPacket
  simp only [hpkt.parses, ne_eq, not_true_eq_false, Bool.true_eq_false, or_false, if_false]

/-- One packet more of the frame: it is collected, or the collected packets form a tail of the
frame and are handed over, in order. -/
theorem Collects.insertRtpPacket (h : Collects f n o l) (hn : 0 < n) (hw : f.Unwrapped)
    (hi : i < f.count) :
    Intact (o.insertRtpPacket (f.packet i)).2 ∧
    ((¬ f.IsTail (l ++ [i]) ∧ (o.insertRtpPacket (f.packet i)).2.delivered = [] ∧
        Collects f n (o.insertRtpPacket (f.packet i)).1 (l ++ [i])) ∨
      (f.IsTail (l ++ [i]) ∧ (∃ d, (o.insertRtpPacket (f.packet i)).2.delivered = [d] ∧
          f.Are (List.range' (f.count - (l.length + 1)) (l.length + 1)) d.packets) ∧
        Collects f n (o.insertRtpPacket (f.packet i)).1 [])) := by
  obtain ⟨info, hinfo, hstamp, hcall⟩ := insertRtpPacket_packet o hi
  rw [hcall]
  -- the duplicate only counts up
  have h0 : Collects f n { o with duplicates := o.duplicates + 1 } l := by
    refine ⟨⟨h.inv.slots, h.inv.keys, h.inv.frames, h.inv.free⟩, h.lt, ?_⟩
    rcases h.held with hh | ⟨hne, p, hh⟩
    · exact .inl hh
    · exact .inr ⟨hne, p, hh.entry, hh.queue, hh.marker⟩
  have hinv := (insertInfo_spec h0.inv info).inv
  obtain ⟨p, o', hfind, hinv', hholds⟩ := h0.findFrame hn
  unfold insertInfo at hinv ⊢
  rw [hstamp, hfind] at hinv ⊢
  have hkeep := hinv'.frames (f.stamp, p) (by rw [hholds.entry]; exact List.mem_singleton_self _)
  obtain ⟨q, hq, hqp, hqo⟩ := insert_spec info hkeep.inOrder
  simp only [hq] at hinv ⊢
  have hlt : ∀ j ∈ l ++ [i], j < f.count := by
    intro j hj
    rcases List.mem_append.mp hj with hj | hj
    · exact h.lt j hj
    · exact (List.mem_singleton.mp hj) ▸ hi
  have hset := hinv'.setInfo (k := f.stamp) (p := p)
    (by rw [hholds.entry]; exact List.mem_singleton_self _)
    (hstamp ▸ Keeps.insert (hstamp.symm ▸ hkeep) hqp hqo)
  have hins := hholds.insert hi hinfo hqp
  refine ⟨⟨rfl, rfl⟩, ?_⟩
  rcases hins.checkFrame hset hw hlt with ⟨ht, hc⟩ | ⟨ht, hmap, hd⟩
  · refine .inl ⟨ht, by rw [hc], hinv, hlt, .inr ⟨by simp, p, ?_⟩⟩
    rw [hc]
    exact hins
  · rw [List.length_append, List.length_singleton] at hd
    exact .inr ⟨ht, hd, hinv.collects_nil hmap⟩

/-- Packets of the frame arrive: nothing is handed over exactly when the collected packets never
form a tail of the frame, and then all are collected. -/
theorem Collects.run {as : List Nat} (h : Collects f n o l) (hn : 0 < n) (hw : f.Unwrapped)
    (has : ∀ i ∈ as, i < f.count) :
    (deliveries (o.run (as.map f.packet)).2 = [] ↔
        ∀ k < as.length, ¬ f.IsTail (l ++ as.take (k + 1))) ∧
      (deliveries (o.run (as.map f.packet)).2 = [] →
        (∀ out ∈ (o.run (as.map f.packet)).2, Intact out) ∧
        Collects f n (o.run (as.map f.packet)).1 (l ++ as)) := by
  induction as generalizing o l with
  | nil =>
    refine ⟨by simp [FrameOrganizer.run, deliveries], fun _ => ⟨by simp [FrameOrganizer.run], ?_⟩⟩
    simpa [FrameOrganizer.run] using h
  | cons i as ih =>
    have hcons : (o.run ((i :: as).map f.packet)).2 = (o.insertRtpPacket (f.packet i)).2 ::
        ((o.insertRtpPacket (f.packet i)).1.run (as.map f.packet)).2 := rfl
    have hdel : deliveries (o.run ((i :: as).map f.packet)).2 =
        (o.insertRtpPacket (f.packet i)).2.delivered ++
          deliveries ((o.insertRtpPacket (f.packet i)).1.run (as.map f.packet)).2 := by
      rw [hcons, deliveries, List.flatMap_cons]
      rfl
    obtain ⟨hint, ⟨ht, hd, hc⟩ | ⟨ht, ⟨d, hd, -⟩, -⟩⟩ := h.insertRtpPacket hn hw (has i (by simp))
    · obtain ⟨hiff, hrest⟩ := ih hc fun j hj => has j (List.mem_cons_of_mem _ hj)
      rw [hdel, hd, List.nil_append, hcons]
      constructor
      · rw [hiff]
        constructor
        · intro hall k hk
          cases k with
          | zero => simpa using ht
          | succ k => simpa using hall k (by simpa using hk)
        · intro hall k hk
          simpa using hall (k + 1) (by simpa using hk)
      · intro hnil
        obtain ⟨hints, hc'⟩ := hrest hnil
        rw [List.append_assoc] at hc'
        refine ⟨fun out hout => ?_, hc'⟩
        rcases List.mem_cons.mp hout with rfl | hout
        · exact hint
        · exact hints out hout
    · rw [hdel, hd]
      refine ⟨⟨fun hnil => by simp at hnil, fun hall => absurd ?_ (hall 0 (by simp))⟩,
        fun hnil => by simp at hnil⟩
      simpa using ht

/-! ## One frame in any order -/

/-- An order in which the packets of a frame arrive: each at least once. -/
structure Arrivals (f : Frame) where
  order : List Nat
  lt : ∀ i ∈ order, i < f.count
  all : ∀ i < f.count, i ∈ order

/-- The calls for packets of a frame, after `init(n + 1)`. -/
def feed (n : Nat) (f : Frame) (as : List Nat) : List Outcome :=
  ((init (n + 1)).2.run (as.map f.packet)).2

/-- The frame is handed over once, whole and in order, by a call before which (or with which) all
of its packets arrived. -/
def DeliversOnce (f : Frame) (as : List Nat) (outs : List Outcome) : Prop :=
  ∃ before out after d, outs = before ++ out :: after ∧ deliveries before = [] ∧
    out.delivered = [d] ∧ deliveries after = [] ∧
    (∀ i < f.count, i ∈ as.take (before.length + 1)) ∧ f.Are (List.range f.count) d.packets

theorem run_append (o : FrameOrganizer) (bs cs : List MsgBlock) :
    o.run (bs ++ cs) = (((o.run bs).1.run cs).1, (o.run bs).2 ++ ((o.run bs).1.run cs).2) := by
  induction bs generalizing o with
  | nil => rfl
  | cons b bs ih => simp only [List.cons_append, FrameOrganizer.run, ih]

/-- The calls of a run, cut at one of them. -/
theorem run_split {g : Nat → MsgBlock} {as : List Nat} {before after : List Outcome} {out : Outcome}
    (h : (o.run (as.map g)).2 = before ++ out :: after) :
    ∃ pre i post, as = pre ++ i :: post ∧ before = (o.run (pre.map g)).2 ∧
      out = ((o.run (pre.map g)).1.insertRtpPacket (g i)).2 ∧
      after = (((o.run (pre.map g)).1.insertRtpPacket (g i)).1.run (post.map g)).2 := by
  induction before generalizing o as with
  | nil =>
    cases as with
    | nil => cases h
    | cons i post =>
      obtain ⟨h1, h2⟩ := List.cons.inj h
      exact ⟨[], i, post, rfl, rfl, h1.symm, h2.symm⟩
  | cons x before ih =>
    cases as with
    | nil => cases h
    | cons j as =>
      obtain ⟨rfl, h2⟩ := List.cons.inj h
      obtain ⟨pre, i, post, rfl, rfl, rfl, rfl⟩ := ih h2
      exact ⟨j :: pre, i, post, rfl, rfl, rfl, rfl⟩

theorem length_run (o : FrameOrganizer) (bs : List MsgBlock) : (o.run bs).2.length = bs.length := by
  induction bs generalizing o with
  | nil => rfl
  | cons b bs ih => simp only [FrameOrganizer.run, List.length_cons, ih]

theorem init_collects (n : Nat) (f : Frame) : Collects f (n + 1) (init (n + 1)).2 [] :=
  (init_inv (n + 1)).collects_nil rfl

/-- Distinct packets, as many as the frame has, are all of its packets. -/
theorem perm_range_of_nodup {as : List Nat} (hlt : ∀ i ∈ as, i < f.count) (hn : as.Nodup)
    (hlen : as.length = f.count) : as.Perm (List.range f.count) := by
  refine (hn.subperm fun i hi => List.mem_range.mpr (hlt i hi)).perm_of_length_le ?_
  rw [List.length_range, hlen]

theorem Arrivals.count_le (a : Arrivals f) : f.count ≤ a.order.length := by
  have hsub : (List.range f.count).Subperm a.order :=
    List.nodup_range.subperm fun i hi => a.all i (List.mem_range.mp hi)
  simpa using hsub.length_le

/-- All packets of the frame, each once, and no tail before the last of them arrived: the last
call, and no other, hands over the frame. -/
theorem Collects.run_whole {p : List Nat} (h : Collects f n o []) (hn : 0 < n)
    (hw : f.Unwrapped) (hp : (p ++ [i]).Perm (List.range f.count))
    (hquiet : ∀ k < p.length, ¬ f.IsTail (p.take (k + 1))) :
    deliveries (o.run (p.map f.packet)).2 = [] ∧
      (∀ out ∈ (o.run ((p ++ [i]).map f.packet)).2, Intact out) ∧
      (∃ d, ((o.run (p.map f.packet)).1.insertRtpPacket (f.packet i)).2.delivered = [d] ∧
        f.Are (List.range f.count) d.packets) ∧
      Collects f n (o.run ((p ++ [i]).map f.packet)).1 [] := by
  have hlt : ∀ j ∈ p ++ [i], j < f.count := fun j hj => List.mem_range.mp (hp.mem_iff.mp hj)
  have hlen : p.length + 1 = f.count := by simpa using hp.length_eq
  obtain ⟨hiff, hrun⟩ := h.run hn hw fun j hj => hlt j (List.mem_append_left _ hj)
  have hb := hiff.mpr hquiet
  obtain ⟨hints, hc⟩ := hrun hb
  rw [List.nil_append] at hc
  have htail : f.IsTail (p ++ [i]) := by
    refine ⟨by simp, ?_⟩
    rw [List.length_append, List.length_singleton, hlen, Nat.sub_self, ← List.range_eq_range']
    exact hp
  rw [List.map_append, run_append]
  obtain ⟨hint, ⟨ht, -⟩ | ⟨-, ⟨d, hd, hare⟩, hc'⟩⟩ :=
    hc.insertRtpPacket hn hw (hlt i (by simp))
  · exact absurd htail ht
  · rw [hlen, Nat.sub_self, ← List.range_eq_range'] at hare
    refine ⟨hb, fun out hout => ?_, ⟨d, hd, hare⟩, hc'⟩
    rcases List.mem_append.mp hout with hout | hout
    · exact hints out hout
    · obtain rfl := List.mem_singleton.mp hout
      exact hint

/-- What the arrivals `pre`, `i`, `post` are, if the call for `i` hands over the whole frame, is
the first to hand over anything, and is the last. -/
theorem Collects.of_deliversOnce {pre post : List Nat} {d : Delivery} (h : Collects f n o [])
    (hn : 0 < n) (hw : f.Unwrapped) (hlt : ∀ j ∈ pre ++ i :: post, j < f.count)
    (hb : deliveries (o.run (pre.map f.packet)).2 = [])
    (hd : ((o.run (pre.map f.packet)).1.insertRtpPacket (f.packet i)).2.delivered = [d])
    (ha : deliveries (((o.run (pre.map f.packet)).1.insertRtpPacket (f.packet i)).1.run
      (post.map f.packet)).2 = [])
    (hwhole : f.Are (List.range f.count) d.packets) :
    pre.length + 1 = f.count ∧ f.IsTail (pre ++ [i]) ∧
      (∀ k < pre.length, ¬ f.IsTail (pre.take (k + 1))) ∧
      ∀ k < post.length, ¬ f.IsTail (post.take (k + 1)) := by
  have hpre : ∀ j ∈ pre, j < f.count := fun j hj => hlt j (by simp [hj])
  have hpost : ∀ j ∈ post, j < f.count := fun j hj => hlt j (by simp [hj])
  obtain ⟨hquiet, hrun⟩ := h.run hn hw hpre
  have hc := (hrun hb).2
  rw [List.nil_append] at hc
  obtain ⟨-, ⟨-, hd', -⟩ | ⟨ht, ⟨d', hd', hare⟩, hc'⟩⟩ := hc.insertRtpPacket hn hw (hlt i (by simp))
  · rw [hd'] at hd
    cases hd
  · rw [hd'] at hd
    obtain rfl : d' = d := (List.cons.inj hd).1
    have hcount : pre.length + 1 = f.count := by
      have h1 := List.Forall₂.length_eq hare
      have h2 := List.Forall₂.length_eq hwhole
      rw [List.length_range'] at h1
      rw [List.length_range] at h2
      omega
    exact ⟨hcount, ht, hquiet.mp hb, (hc'.run hn hw hpost).1.mp ha⟩

/-- **One frame, any order.** For every frame, every order of arrival with any duplication, and
every positive cache size, the frame is handed over once, whole and in order, after all of its
packets arrived, exactly when its numbers do not wrap, its first `count` arrivals are its `count`
packets, no fewer of them form a tail of the frame, and no later arrivals do. -/
theorem deliversOnce_iff (n : Nat) (f : Frame) (a : Arrivals f) :
    DeliversOnce f a.order (feed n f a.order) ↔
      f.Unwrapped ∧ (a.order.take f.count).Nodup ∧
      (∀ k, k + 1 < f.count → ¬ f.IsTail (a.order.take (k + 1))) ∧
      ∀ k < (a.order.drop f.count).length, ¬ f.IsTail ((a.order.drop f.count).take (k + 1)) := by
  have hpos := f.pos
  have hlen := a.count_le
  have hstart := init_collects n f
  constructor
  · rintro ⟨before, out, after, d, houts, hb, hd, ha, -, hwhole⟩
    have hw : f.Unwrapped := by
      refine hwhole.unwrapped ((run_ledger (n + 1) (a.order.map f.packet)).1.sound d ?_).inOrder
      change d ∈ deliveries (feed n f a.order)
      rw [houts]
      simp [deliveries, hd]
    obtain ⟨pre, i, post, horder, rfl, rfl, rfl⟩ := run_split houts
    have hlt : ∀ j ∈ pre ++ i :: post, j < f.count := horder ▸ a.lt
    obtain ⟨hcount, ht, hquiet, hrest⟩ :=
      hstart.of_deliversOnce n.succ_pos hw hlt hb hd ha hwhole
    have hcut : a.order = (pre ++ [i]) ++ post := by simpa using horder
    have hlen' : (pre ++ [i]).length = f.count := by simpa using hcount
    refine ⟨hw, ?_, fun k hk => ?_, ?_⟩
    · rw [hcut, List.take_left' hlen']
      exact ht.2.nodup_iff.mpr List.nodup_range'
    · rw [horder, List.take_append_of_le_length (by omega)]
      exact hquiet k (by omega)
    · rw [hcut, List.drop_left' hlen']
      exact hrest
  · rintro ⟨hw, hnodup, hquiet, hrest⟩
    obtain ⟨pre, i, hpre⟩ : ∃ pre i, a.order.take f.count = pre ++ [i] := by
      rcases List.eq_nil_or_concat' (a.order.take f.count) with h | h
      · have := congrArg List.length h
        rw [List.length_take_of_le hlen] at this
        simp at this
        omega
      · exact h
    have hcount : pre.length + 1 = f.count := by
      have := congrArg List.length hpre
      rw [List.length_take_of_le hlen] at this
      simpa using this.symm
    have hcut : a.order = pre ++ i :: a.order.drop f.count := by
      have := List.take_append_drop f.count a.order
      rw [hpre] at this
      simpa using this.symm
    have hperm : (pre ++ [i]).Perm (List.range f.count) := by
      rw [← hpre]
      exact perm_range_of_nodup (fun j hj => a.lt j (List.mem_of_mem_take hj)) hnodup
        (List.length_take_of_le hlen)
    obtain ⟨hb, -, ⟨d, hd, hare⟩, hc⟩ := hstart.run_whole n.succ_pos hw hperm fun k hk => by
      have := hquiet k (by omega)
      rwa [hcut, List.take_append_of_le_length (by omega)] at this
    rw [List.map_append, run_append] at hc
    have ha := (hc.run n.succ_pos hw fun j hj => a.lt j (List.mem_of_mem_drop hj)).1.mpr hrest
    refine ⟨_, _, _, d, ?_, hb, hd, ha, fun j hj => ?_, hare⟩
    · rw [feed, hcut, List.map_append, run_append, ← hcut]
      rfl
    · rw [length_run, List.length_map, hcount, hpre]
      exact hperm.mem_iff.mpr (List.mem_range.mpr hj)

/-- Two packets that arrive last first: the marker packet alone is handed over. -/
theorem not_deliversOnce_reversed :
    ¬ DeliversOnce (headerFrame 0 0 1) [1, 0] (feed 3 (headerFrame 0 0 1) [1, 0]) := by
  rintro ⟨before, out, after, d, houts, -, hd, -, -, hwhole⟩
  have hlens : (deliveries (feed 3 (headerFrame 0 0 1) [1, 0])).map (fun d => d.packets.length) =
      [1] := by decide
  have hmem : d.packets.length ∈ [1] := by
    rw [← hlens, houts]
    refine List.mem_map_of_mem (f := fun d : Delivery => d.packets.length) ?_
    simp [deliveries, hd]
  have hlen : 2 = d.packets.length := List.Forall₂.length_eq hwhole
  rw [List.mem_singleton] at hmem
  omega

/-! ## Streams of frames -/

/-- The packets of a stream of frames as they are sent. -/
def sent (fs : List Frame) : List MsgBlock :=
  fs.flatMap fun f => (List.range f.count).map f.packet

/-- The calls hand over the frames of the stream, each once, whole, and in the order of the stream,
and no call refuses a packet or frees one. -/
def DeliversStream (fs : List Frame) (outs : List Outcome) : Prop :=
  List.Forall₂ (fun f d => f.Are (List.range f.count) d.packets) fs (deliveries outs) ∧
    ∀ out ∈ outs, Intact out

/-- The packets of a frame in order: only all of them form a tail. -/
theorem not_isTail_range {k : Nat} (hk : k < f.count) : ¬ f.IsTail (List.range k) := by
  intro ht
  have hlt : ∀ i ∈ List.range k, i < f.count := fun i hi => by
    have := List.mem_range.mp hi
    omega
  have hs := (List.pairwise_lt_range (n := k)).imp Nat.le_of_lt
  have := List.mem_range.mp ((Frame.isTail_iff hlt hs).mp ht).2.1
  omega

/-- A frame that arrives in order at an organizer without frames. -/
theorem Inv.run_frame (h : Inv n o) (he : o.frameMap = []) (hn : 0 < n) (hw : f.Unwrapped) :
    let r := o.run ((List.range f.count).map f.packet)
    Inv n r.1 ∧ r.1.frameMap = [] ∧ DeliversStream [f] r.2 := by
  obtain ⟨c, hc⟩ : ∃ c, f.count = c + 1 := ⟨f.count - 1, by have := f.pos; omega⟩
  have hrange : List.range f.count = List.range c ++ [c] := by rw [hc, List.range_succ]
  obtain ⟨hb, hint, ⟨d, hd, hare⟩, hcol⟩ := (h.collects_nil (f := f) he).run_whole (i := c)
    (p := List.range c) hn hw (.of_eq hrange.symm) fun k hk => by
      rw [List.length_range] at hk
      rw [List.take_range]
      exact not_isTail_range (by omega)
  rw [← hrange] at hcol hint
  refine ⟨hcol.inv, hcol.frameMap_nil, ?_, hint⟩
  have hdel : deliveries (o.run ((List.range f.count).map f.packet)).2 = [d] := by
    rw [hrange, List.map_append, run_append, deliveries, List.flatMap_append]
    rw [deliveries] at hb
    rw [hb, List.nil_append]
    simpa [FrameOrganizer.run] using hd
  rw [hdel]
  exact .cons hare .nil

theorem DeliversStream.append {fs gs : List Frame} {outs outs' : List Outcome}
    (h : DeliversStream fs outs) (h' : DeliversStream gs outs') :
    DeliversStream (fs ++ gs) (outs ++ outs') := by
  refine ⟨?_, fun out hout => ?_⟩
  · rw [deliveries, List.flatMap_append]
    exact List.rel_append h.1 h'.1
  · rcases List.mem_append.mp hout with hout | hout
    · exact h.2 out hout
    · exact h'.2 out hout

/-- The frames of a stream, one after the other. -/
theorem Inv.run_stream {fs : List Frame} (h : Inv n o) (he : o.frameMap = []) (hn : 0 < n)
    (hw : ∀ f ∈ fs, f.Unwrapped) : DeliversStream fs (o.run (sent fs)).2 := by
  induction fs generalizing o with
  | nil => exact ⟨.nil, by simp [sent, FrameOrganizer.run]⟩
  | cons f fs ih =>
    obtain ⟨h1, he1, hd⟩ := h.run_frame he hn (hw f (by simp))
    have hcons : sent (f :: fs) = (List.range f.count).map f.packet ++ sent fs := rfl
    rw [hcons, run_append]
    exact hd.append (ih h1 he1 fun g hg => hw g (List.mem_cons_of_mem _ hg))

/-- **Streams in order.** For every positive cache size and every loss-free stream of frames in
order, whatever their timestamps and however many they are, every frame is handed over once, whole
and in stream order, and none is evicted, exactly when no frame's numbers wrap inside the frame. -/
theorem deliversStream_iff (n : Nat) (fs : List Frame) :
    DeliversStream fs ((init (n + 1)).2.run (sent fs)).2 ↔ ∀ f ∈ fs, f.Unwrapped := by
  constructor
  · rintro ⟨hd, -⟩ f hf
    obtain ⟨k, hk, rfl⟩ := List.getElem_of_mem hf
    have hk' : k < (deliveries ((init (n + 1)).2.run (sent fs)).2).length := hd.length_eq ▸ hk
    exact (hd.get hk hk').unwrapped
      ((run_ledger (n + 1) (sent fs)).1.sound _ (List.getElem_mem hk')).inOrder
  · intro hw
    exact (init_inv (n + 1)).run_stream rfl n.succ_pos hw

/-- A stream of one frame with the numbers 65535 and 0: it is never handed over. -/
theorem not_deliversStream_wrapped :
    ¬ DeliversStream [headerFrame 65535 0 1]
      ((init 4).2.run (sent [headerFrame 65535 0 1])).2 := by
  rintro ⟨hd, -⟩
  have hnone : (deliveries ((init 4).2.run (sent [headerFrame 65535 0 1])).2).length = 0 := by
    decide
  rw [← hd.length_eq] at hnone
  cases hnone

end FrameOrganizer

end AllCamera
