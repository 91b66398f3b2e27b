import AllCamera.Stream.FrameOrganizer.Reassembly

/-!
# Streams with losses, and the frames that wait

A stream with losses is a list of frames, each with those of its packets that arrived
(`Received`). What the organizer does with such a stream depends on few things: which frames keep
a final segment of their packets (`Closed`, they look complete), how many packets arrive, and how
many frame infos there are. This module says how, without packets or frame infos: `left n b r` are
the frames that wait once the packets of `r` arrived behind the waiting frames `b`, and
`handed n b r` those that were handed over in between.

* `Spared`: no intact frame comes when `n` frames wait, and none waits in the end.
* `Spared.sublist_handedAll`, `spared_of_mem`: this is when all intact frames are handed over.
-/

namespace AllCamera

/-- A frame whose numbers do not wrap, and the packets of it that arrived, in order. -/
structure Received where
  frame : Frame
  kept : List Nat
  sublist : kept.Sublist (List.range frame.count)
  unwrapped : frame.Unwrapped

namespace Received

variable {r s : Received} {j : Nat}

/-- None of its packets was lost. -/
def Intact (r : Received) : Prop := r.kept = List.range r.frame.count

/-- What arrived is a final segment of the frame. -/
def Closed (r : Received) : Prop := r.frame.IsTail r.kept

instance (r : Received) : Decidable r.Intact := inferInstanceAs (Decidable (_ = _))

instance (r : Received) : Decidable r.Closed := inferInstanceAs (Decidable (_ ∧ _))

/-- The first `j` of the packets that arrived. -/
def upTo (r : Received) (j : Nat) : Received :=
  { r with kept := r.kept.take j, sublist := (List.take_sublist j _).trans r.sublist }

/-- The packets that arrived, without the first one. -/
def dropFirst (r : Received) : Received :=
  { r with kept := r.kept.tail, sublist := (List.tail_sublist _).trans r.sublist }

@[simp] theorem frame_upTo : (r.upTo j).frame = r.frame := rfl

@[simp] theorem kept_upTo : (r.upTo j).kept = r.kept.take j := rfl

@[simp] theorem frame_dropFirst : r.dropFirst.frame = r.frame := rfl

@[simp] theorem kept_dropFirst : r.dropFirst.kept = r.kept.tail := rfl

theorem upTo_length (h : r.kept.length ≤ j) : r.upTo j = r := by
  simp only [upTo, List.take_of_length_le h]

theorem pairwise_kept (r : Received) : r.kept.Pairwise (· < ·) :=
  List.pairwise_lt_range.sublist r.sublist

theorem lt_of_mem_kept {i : Nat} (h : i ∈ r.kept) : i < r.frame.count :=
  List.mem_range.mp (r.sublist.subset h)

/-- What arrived looks complete exactly when it holds the marker packet and has no gap. -/
theorem closed_iff : r.Closed ↔
    r.kept ≠ [] ∧ r.frame.count - 1 ∈ r.kept ∧ r.kept.IsChain fun a b => b = a + 1 :=
  Frame.isTail_iff (fun _ => lt_of_mem_kept) (r.pairwise_kept.imp Nat.le_of_lt)

theorem Intact.kept_ne_nil (h : r.Intact) : r.kept ≠ [] := by
  rw [h, Ne, List.range_eq_nil]
  exact Nat.ne_of_gt r.frame.pos

theorem Intact.closed (h : r.Intact) : r.Closed := by
  refine ⟨h.kept_ne_nil, ?_⟩
  rw [h, List.length_range, Nat.sub_self, List.range_eq_range']

/-- Until the last packet that arrived is in, nothing looks complete: the marker is on the last
packet of the frame. -/
theorem not_closed_upTo (h : j < r.kept.length) : ¬ (r.upTo j).Closed := by
  intro hc
  have hlast := (closed_iff.mp hc).2.1
  rw [frame_upTo, kept_upTo] at hlast
  have hpair := r.pairwise_kept
  rw [← List.take_append_drop j r.kept, List.pairwise_append] at hpair
  have hmem : r.kept[j] ∈ r.kept.drop j := by
    rw [List.drop_eq_getElem_cons h]
    exact List.mem_cons_self
  have h1 := hpair.2.2 _ hlast _ hmem
  have h2 := r.lt_of_mem_kept (List.getElem_mem h)
  omega

/-- Without its first packet a frame is not intact. -/
theorem not_intact_dropFirst : ¬ r.dropFirst.Intact := by
  intro h
  have h1 := congrArg List.length h
  have h2 := r.sublist.length_le
  have h3 := r.frame.pos
  rw [kept_dropFirst, frame_dropFirst, List.length_tail, List.length_range] at h1
  rw [List.length_range] at h2
  omega

end Received

/-! ## One more frame -/

namespace Backlog

/-- How many of the waiting frames `b` go when `k` packets arrive: each packet lets the first one
go, if it looks complete. -/
def ripe : Nat → List Received → Nat
  | k + 1, r :: b => if r.Closed then ripe k b + 1 else 0
  | _, _ => 0

/-- What gets in of the frame `r` behind the frames `b`: its first packet does not when `n` frames
wait. -/
def admitted (n : Nat) (b : List Received) (r : Received) : Received :=
  if b.length < n then r else r.dropFirst

/-- The frames of `b` that wait on: the first one goes with the packet that does not get in. -/
def stay (n : Nat) (b : List Received) (r : Received) : List Received :=
  if b.length < n ∨ r.kept = [] then b else b.tail

/-- The frames `b` with the frame `r` behind them, if it has any packet. -/
def enter (b : List Received) (r : Received) : List Received :=
  if r.kept = [] then b else b ++ [r]

/-- The waiting frames with what gets in of `r`, before any goes. -/
def lineUp (n : Nat) (b : List Received) (r : Received) : List Received :=
  enter (stay n b r) (admitted n b r)

/-- The frames that are handed over while the packets of `r` arrive. -/
def handed (n : Nat) (b : List Received) (r : Received) : List Received :=
  (lineUp n b r).take (ripe (admitted n b r).kept.length (lineUp n b r))

/-- The frames that wait after the packets of `r` arrived. -/
def left (n : Nat) (b : List Received) (r : Received) : List Received :=
  (lineUp n b r).drop (ripe (admitted n b r).kept.length (lineUp n b r))

/-- The frames that are handed over while the frames `rs` arrive. -/
def handedAll (n : Nat) : List Received → List Received → List Received
  | _, [] => []
  | b, r :: rs => handed n b r ++ handedAll n (left n b r) rs

/-- No intact frame of `rs` comes when `n` frames wait, and no intact frame waits in the end. -/
def Spared (n : Nat) : List Received → List Received → Prop
  | b, [] => ∀ r ∈ b, ¬ r.Intact
  | b, r :: rs => (r.Intact → b.length < n) ∧ Spared n (left n b r) rs

instance decidableSpared (n : Nat) : (b rs : List Received) → Decidable (Spared n b rs)
  | b, [] => inferInstanceAs (Decidable (∀ r ∈ b, ¬ r.Intact))
  | b, r :: rs =>
    have := decidableSpared n (left n b r) rs
    inferInstanceAs (Decidable (_ ∧ _))

variable {n k : Nat} {b rs : List Received} {r s : Received}

theorem ripe_cons_of_closed (h : r.Closed) : ripe (k + 1) (r :: b) = ripe k b + 1 := by
  rw [ripe, if_pos h]

theorem ripe_cons_of_not_closed (h : ¬ r.Closed) : ripe k (r :: b) = 0 := by
  cases k with
  | zero => rfl
  | succ k => rw [ripe, if_neg h]

@[simp] theorem ripe_zero : ripe 0 b = 0 := by cases b <;> rfl

@[simp] theorem ripe_nil : ripe k [] = 0 := by cases k <;> rfl

theorem ripe_one_le : ripe 1 b ≤ b.length := by
  cases b with
  | nil => exact Nat.le_refl _
  | cons r b =>
    by_cases h : r.Closed
    · rw [ripe_cons_of_closed h, ripe_zero, List.length_cons]
      omega
    · rw [ripe_cons_of_not_closed h]
      exact Nat.zero_le _

theorem ripe_one_append (h : ¬ s.Closed) : ripe 1 (b ++ [s]) = ripe 1 b := by
  cases b with
  | nil => exact ripe_cons_of_not_closed h
  | cons r b =>
    by_cases hr : r.Closed
    · rw [List.cons_append, ripe_cons_of_closed hr, ripe_cons_of_closed hr, ripe_zero, ripe_zero]
    · rw [List.cons_append, ripe_cons_of_not_closed hr, ripe_cons_of_not_closed hr]

/-- One packet, and then `k` more of a frame that is not complete before the last of them. -/
theorem ripe_succ_append (hk : 0 < k) :
    ripe (k + 1) (b ++ [r]) = ripe 1 b + ripe k (b.drop (ripe 1 b) ++ [r]) := by
  cases b with
  | nil =>
    obtain ⟨k, rfl⟩ := Nat.exists_eq_succ_of_ne_zero (Nat.ne_of_gt hk)
    by_cases hr : r.Closed
    · simp [ripe_cons_of_closed hr]
    · simp [ripe_cons_of_not_closed hr]
  | cons x b =>
    by_cases hx : x.Closed
    · rw [List.cons_append, ripe_cons_of_closed hx, ripe_cons_of_closed hx, ripe_zero, Nat.zero_add,
        List.drop_one, List.tail_cons, Nat.add_comm]
    · rw [List.cons_append, ripe_cons_of_not_closed hx, ripe_cons_of_not_closed hx, List.drop_zero,
        List.cons_append, ripe_cons_of_not_closed hx]

theorem enter_of_kept (h : r.kept ≠ []) : enter b r = b ++ [r] := if_neg h

theorem lineUp_of_lt (h : b.length < n) : lineUp n b r = enter b r := by
  rw [lineUp, stay, admitted, if_pos (Or.inl h), if_pos h]

theorem lineUp_of_kept_nil (h : r.kept = []) : lineUp n b r = b := by
  have hk : (admitted n b r).kept = [] := by
    unfold admitted
    split
    · exact h
    · rw [Received.kept_dropFirst, h, List.tail_nil]
  rw [lineUp, stay, enter, if_pos hk, if_pos (Or.inr h)]

theorem lineUp_of_full (h : ¬ b.length < n) (hk : r.kept ≠ []) :
    lineUp n b r = enter b.tail r.dropFirst := by
  rw [lineUp, stay, admitted, if_neg h, if_neg (not_or.mpr ⟨h, hk⟩)]

@[simp] theorem handed_append_left : handed n b r ++ left n b r = lineUp n b r :=
  List.take_append_drop _ _

theorem frame_admitted : (admitted n b r).frame = r.frame := by
  unfold admitted
  split <;> rfl

theorem mem_lineUp (h : s ∈ lineUp n b r) : s ∈ b ∨ s = admitted n b r := by
  have hstay : ∀ x ∈ stay n b r, x ∈ b := by
    unfold stay
    split
    · exact fun x hx => hx
    · exact fun x hx => List.mem_of_mem_tail hx
  unfold lineUp enter at h
  split at h
  · exact .inl (hstay s h)
  · rcases List.mem_append.mp h with h | h
    · exact .inl (hstay s h)
    · exact .inr (List.mem_singleton.mp h)

/-! ## Timestamps -/

/-- The timestamps of the frames. -/
def stamps (b : List Received) : List UInt32 := b.map fun r => r.frame.stamp

theorem stamps_append (b c : List Received) : stamps (b ++ c) = stamps b ++ stamps c :=
  List.map_append

theorem stamps_cons : stamps (r :: rs) = r.frame.stamp :: stamps rs := rfl

theorem mem_stamps (h : r ∈ b) : r.frame.stamp ∈ stamps b := List.mem_map_of_mem h

theorem stamps_lineUp : (stamps (lineUp n b r)).Sublist (stamps (b ++ [r])) := by
  have hstay : (stay n b r).Sublist b := by
    unfold stay
    split
    · exact .refl _
    · exact List.tail_sublist _
  rw [lineUp, enter, stamps_append]
  split
  · exact (hstay.map _).trans (List.sublist_append_left _ _)
  · rw [stamps_append]
    refine (hstay.map _).append ?_
    rw [stamps_cons, frame_admitted]
    exact .refl _

/-- What waits before the frames `rs` arrive: the timestamps increase, no more than `n` frames
wait, and the first one of `n` does not look complete. -/
structure Orderly (n : Nat) (b rs : List Received) : Prop where
  increasing : (stamps (b ++ rs)).Pairwise (· < ·)
  le : b.length ≤ n
  full : b.length = n → ∀ r ∈ b.head?, ¬ r.Closed

theorem head_not_closed (h : ripe (k + 1) b = 0) : ∀ r ∈ b.head?, ¬ r.Closed := by
  intro r hr hc
  obtain ⟨t, rfl⟩ := List.head?_eq_some_iff.mp hr
  rw [ripe_cons_of_closed hc] at h
  cases h

theorem length_lineUp_le (hn : 0 < n) (hle : b.length ≤ n) : (lineUp n b r).length ≤ n := by
  have henter : ∀ (c : List Received) (s : Received), (enter c s).length ≤ c.length + 1 := by
    intro c s
    unfold enter
    split <;> simp
  by_cases hk : r.kept = []
  · rw [lineUp_of_kept_nil hk]
    exact hle
  by_cases hlt : b.length < n
  · rw [lineUp_of_lt hlt]
    exact Nat.le_trans (henter b r) hlt
  · rw [lineUp_of_full hlt hk]
    refine Nat.le_trans (henter _ _) ?_
    rw [List.length_tail]
    omega

theorem Orderly.increasing_lineUp (h : Orderly n b (r :: rs)) :
    (stamps (lineUp n b r ++ rs)).Pairwise (· < ·) := by
  refine h.increasing.sublist ?_
  rw [List.append_cons, stamps_append, stamps_append (b ++ [r])]
  exact stamps_lineUp.append (.refl _)

theorem Orderly.left (h : Orderly n b (r :: rs)) (hn : 0 < n) : Orderly n (left n b r) rs where
  increasing := by
    refine h.increasing_lineUp.sublist ?_
    exact (((List.drop_sublist _ _).append_right rs).map _)
  le := by
    rw [Backlog.left, List.length_drop]
    exact Nat.le_trans (Nat.sub_le _ _) (length_lineUp_le hn h.le)
  full hlen := by
    have hle := length_lineUp_le (r := r) hn h.le
    rw [Backlog.left, List.length_drop] at hlen
    have hzero : ripe (admitted n b r).kept.length (lineUp n b r) = 0 := by omega
    rw [hzero, Nat.sub_zero] at hlen
    rw [Backlog.left, hzero, List.drop_zero]
    by_cases hk : r.kept = []
    · rw [lineUp_of_kept_nil hk] at hlen ⊢
      exact h.full hlen
    cases hc : (admitted n b r).kept.length with
    | succ k =>
      rw [hc] at hzero
      exact head_not_closed hzero
    | zero =>
      -- nothing of `r` gets in, and one frame fewer waits
      have hnil : (admitted n b r).kept = [] := List.length_eq_zero_iff.mp hc
      by_cases hlt : b.length < n
      · rw [admitted, if_pos hlt] at hnil
        exact absurd hnil hk
      · rw [admitted, if_neg hlt] at hnil
        rw [lineUp_of_full hlt hk, enter, if_pos hnil, List.length_tail] at hlen
        have := h.le
        omega

/-! ## Which intact frames are handed over -/

/-- The intact frames. -/
def intact (b : List Received) : List Received := b.filter fun r => r.Intact

theorem mem_intact : r ∈ intact b ↔ r ∈ b ∧ r.Intact := by
  simp [intact]

theorem intact_append (b c : List Received) : intact (b ++ c) = intact b ++ intact c :=
  List.filter_append ..

theorem intact_singleton (h : ¬ r.Intact) : intact [r] = [] := by
  simp [intact, h]

theorem intact_enter_of_not (h : ¬ r.Intact) : intact (enter b r) = intact b := by
  unfold enter
  split
  · rfl
  · rw [intact_append, intact_singleton h, List.append_nil]

/-- No intact frame goes unless it is handed over, if the new frame is not an intact one that
meets `n` frames. -/
theorem Orderly.intact_lineUp (h : Orderly n b (r :: rs)) (hr : r.Intact → b.length < n) :
    intact (lineUp n b r) = intact (b ++ [r]) := by
  by_cases hlt : b.length < n
  · rw [lineUp_of_lt hlt, enter]
    split
    · rename_i hk
      rw [intact_append, intact_singleton fun hi => hi.kept_ne_nil hk, List.append_nil]
    · rfl
  have hni : ¬ r.Intact := fun hi => hlt (hr hi)
  rw [intact_append, intact_singleton hni, List.append_nil]
  by_cases hk : r.kept = []
  · rw [lineUp_of_kept_nil hk]
  rw [lineUp_of_full hlt hk, intact_enter_of_not Received.not_intact_dropFirst]
  cases b with
  | nil => rfl
  | cons x b =>
    have hx : ¬ x.Intact := fun hi =>
      h.full (Nat.le_antisymm h.le (Nat.not_lt.mp hlt)) x rfl hi.closed
    rw [← List.singleton_append, intact_append, intact_singleton hx]
    rfl

/-- If the intact frames are spared, all of them are handed over, in order. -/
theorem Spared.sublist_handedAll (hs : Spared n b rs) (h : Orderly n b rs) (hn : 0 < n) :
    (intact (b ++ rs)).Sublist (handedAll n b rs) := by
  induction rs generalizing b with
  | nil =>
    have : intact b = [] := List.filter_eq_nil_iff.mpr fun r hr => by simpa using hs r hr
    rw [List.append_nil, this]
    exact List.nil_sublist _
  | cons r rs ih =>
    obtain ⟨hr, hs⟩ := hs
    have hcut : intact (b ++ r :: rs) = intact (handed n b r) ++ intact (left n b r ++ rs) := by
      rw [List.append_cons, intact_append, ← h.intact_lineUp hr, ← handed_append_left,
        intact_append, intact_append, List.append_assoc]
    rw [hcut]
    exact (List.filter_sublist).append (ih hs (h.left hn))

theorem mem_handedAll (h : s ∈ handedAll n b rs) : s ∈ b ∨ ∃ r ∈ rs, s.frame = r.frame := by
  induction rs generalizing b with
  | nil => cases h
  | cons r rs ih =>
    have hline : ∀ x ∈ lineUp n b r, x ∈ b ∨ ∃ y ∈ r :: rs, x.frame = y.frame := by
      intro x hx
      rcases mem_lineUp hx with hx | rfl
      · exact .inl hx
      · exact .inr ⟨r, List.mem_cons_self, frame_admitted⟩
    rcases List.mem_append.mp h with h | h
    · exact hline s (List.mem_of_mem_take h)
    · rcases ih h with h | ⟨x, hx, hf⟩
      · exact hline s (List.mem_of_mem_drop h)
      · exact .inr ⟨x, List.mem_cons_of_mem _ hx, hf⟩

/-- The frame `r` is handed over with as many packets as it has. -/
def Whole (ds : List Received) (r : Received) : Prop :=
  ∃ s ∈ ds, s.frame.stamp = r.frame.stamp ∧ s.kept.length = r.frame.count

/-- An intact frame that comes when `n` frames wait is not handed over whole. -/
theorem Orderly.not_whole (h : Orderly n b (r :: rs)) (hlt : ¬ b.length < n) :
    ¬ Whole (handedAll n b (r :: rs)) r := by
  rintro ⟨s, hs, hstamp, hlen⟩
  have hinc := h.increasing
  rw [stamps_append, stamps_cons] at hinc
  obtain ⟨-, hrs, hb⟩ := List.pairwise_append.mp hinc
  have hnb : s ∉ b := fun hm =>
    UInt32.ne_of_lt (hb _ (mem_stamps hm) _ List.mem_cons_self) hstamp
  have hline : s ∉ lineUp n b r := by
    intro hm
    rcases mem_lineUp hm with hm | rfl
    · exact hnb hm
    · rw [admitted, if_neg hlt, Received.kept_dropFirst, List.length_tail] at hlen
      have h1 := r.sublist.length_le
      have h2 := r.frame.pos
      rw [List.length_range] at h1
      omega
  rcases List.mem_append.mp hs with hs | hs
  · exact hline (List.mem_of_mem_take hs)
  · rcases mem_handedAll hs with hs | ⟨x, hx, hf⟩
    · exact hline (List.mem_of_mem_drop hs)
    · refine UInt32.ne_of_lt ((List.pairwise_cons.mp hrs).1 _ (mem_stamps hx)) ?_
      rw [← hstamp, hf]

/-- If all intact frames are handed over whole, they are spared. -/
theorem spared_of_whole (h : Orderly n b rs) (hn : 0 < n)
    (hw : ∀ r ∈ b ++ rs, r.Intact → Whole (handedAll n b rs) r) : Spared n b rs := by
  induction rs generalizing b with
  | nil =>
    intro r hr hi
    obtain ⟨s, hs, -⟩ := hw r (by simpa using hr) hi
    cases hs
  | cons r rs ih =>
    have hr : r.Intact → b.length < n := by
      intro hi
      by_contra hlt
      exact h.not_whole hlt (hw r (by simp) hi)
    refine ⟨hr, ih (h.left hn) fun x hx hi => ?_⟩
    have hxb : x ∈ intact (b ++ r :: rs) := by
      rw [List.append_cons, intact_append, ← h.intact_lineUp hr, ← handed_append_left,
        intact_append, List.append_assoc, ← intact_append]
      exact List.mem_append_right _ (mem_intact.mpr ⟨hx, hi⟩)
    obtain ⟨s, hs, hstamp, hlen⟩ := hw x (mem_intact.mp hxb).1 hi
    refine ⟨s, (List.mem_append.mp hs).resolve_left fun hm => ?_, hstamp, hlen⟩
    -- what was handed over before has a smaller timestamp
    have hinc := h.increasing_lineUp
    rw [← handed_append_left, List.append_assoc, stamps_append] at hinc
    have := (List.pairwise_append.mp hinc).2.2 _ (mem_stamps hm) _ (mem_stamps hx)
    exact UInt32.ne_of_lt this hstamp

end Backlog

end AllCamera
