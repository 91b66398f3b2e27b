import Mathlib.Data.List.Induction
import AllCamera.Stream.PacketList

/-!
# The order of the packets

What the session accepted and what waits in the list are packets of `Send`, in order, whatever the
session refuses. The loop of `CPacketList::Send` only moves the boundary between the two, so that is
so inside of it too.

* `clearLoop_frames`: `ClearFrame` removes whole frames from the front of the list.
* `Books`: what became of the packets. `Books.step`: a call keeps it.
* `run_order`: the books of every run.
* `recovers_iff`: when a session that accepts everything gets everything; `waits_forever`: when it
  never does again.
-/

namespace AllCamera

variable {p : Packet} {ps : List Packet}

/-! ## `CPacketList` -/

theorem sendLoop_append (accept : Nat → Bool) (ps : List Packet) :
    (sendLoop accept ps).1 ++ (sendLoop accept ps).2 = ps := by
  induction ps generalizing accept with
  | nil => rfl
  | cons p ps ih =>
    unfold sendLoop
    split
    · exact congrArg (p :: ·) (ih _)
    · rfl

/-- A session that accepts everything empties the list. -/
theorem sendLoop_all {accept : Nat → Bool} (h : ∀ k, accept k = true) (ps : List Packet) :
    sendLoop accept ps = (ps, []) := by
  induction ps generalizing accept with
  | nil => rfl
  | cons p ps ih =>
    rw [sendLoop, if_pos (h 0), ih fun k => h (k + 1)]

/-- What was removed ends with the `num`-th packet that has a marker, or is everything, with fewer of
them. -/
def Cleared.Frames (num : Nat) (c : Cleared) : Prop :=
  (∃ front last, c.removed = front ++ [last] ∧ last.hasMarker = true ∧
      front.countP Packet.hasMarker + 1 = num) ∨
    (c.left = [] ∧ c.removed.countP Packet.hasMarker < num)

theorem clearLoop_append (num i : Nat) (ps : List Packet) :
    (clearLoop num i ps).removed ++ (clearLoop num i ps).left = ps := by
  induction ps generalizing i with
  | nil => rfl
  | cons p ps ih =>
    simp only [clearLoop]
    split_ifs
    · rfl
    · exact congrArg (p :: ·) (ih _)
    · exact congrArg (p :: ·) (ih _)

/-- One packet more in front of what is removed. -/
theorem Cleared.Frames.cons {num : Nat} {c : Cleared} (h : c.Frames num)
    (hp : p.hasMarker = false) : Cleared.Frames num { c with removed := p :: c.removed } := by
  rcases h with ⟨front, last, hr, hl, hn⟩ | ⟨hl, hn⟩
  · refine .inl ⟨p :: front, last, by rw [hr]; rfl, hl, ?_⟩
    rw [List.countP_cons_of_neg (by simp [hp]), hn]
  · refine .inr ⟨hl, ?_⟩
    rw [List.countP_cons_of_neg (by simp [hp])]
    exact hn

theorem Cleared.Frames.cons_marker {num i : Nat} {c : Cleared} (h : c.Frames (num - (i + 1)))
    (hi : i + 1 < num) (hp : p.hasMarker = true) :
    Cleared.Frames (num - i) { c with removed := p :: c.removed } := by
  rcases h with ⟨front, last, hr, hl, hn⟩ | ⟨hl, hn⟩
  · refine .inl ⟨p :: front, last, by rw [hr]; rfl, hl, ?_⟩
    rw [List.countP_cons_of_pos hp]
    omega
  · refine .inr ⟨hl, ?_⟩
    rw [List.countP_cons_of_pos hp]
    omega

/-- After `i` frames, the rest of the `num` is removed. -/
theorem clearLoop_frames {num i : Nat} (hi : i < num) (ps : List Packet) :
    (clearLoop num i ps).Frames (num - i) := by
  induction ps generalizing i with
  | nil => exact .inr ⟨rfl, by simp [clearLoop]; omega⟩
  | cons p ps ih =>
    simp only [clearLoop]
    split_ifs with hm hn
    · exact .inl ⟨[], p, rfl, hm, by simp; omega⟩
    · exact (ih (by omega)).cons_marker (by omega) hm
    · exact (ih hi).cons (by simpa using hm)

/-- `ClearFrame` of a list that is not empty makes room. -/
theorem clearLoop_left_lt (num i : Nat) (h : ps ≠ []) :
    (clearLoop num i ps).left.length < ps.length := by
  have happ := congrArg List.length (clearLoop_append num i ps)
  have hne : (clearLoop num i ps).removed ≠ [] := by
    cases ps with
    | nil => exact absurd rfl h
    | cons p ps =>
      simp only [clearLoop]
      split_ifs <;> exact List.cons_ne_nil _ _
  rw [List.length_append] at happ
  have := List.length_pos_iff.mpr hne
  omega

namespace DirectProcessor

variable {d : DirectProcessor} {cs : List Call} {c : Call}

/-! ## Books -/

/-- The packets that `ClearFrame` removed. -/
def removed (d : DirectProcessor) : List Packet := d.cleared.flatMap Cleared.removed

/-- `P` holds of the call that `p` was given to. -/
def OfCall (cs : List Call) (p : Packet) (P : Call → Prop) : Prop := ∃ c, cs[p.id]? = some c ∧ P c

/-- What became of the packets of the calls `cs`: what was accepted and what waits are packets of
`Send`, in order; every packet was accepted, waits, was removed, or was dropped for lack of memory, once;
no more than `maxBufPacketNum` wait; and `ClearFrame` removed two frames each time. -/
structure Books (cs : List Call) (d : DirectProcessor) : Prop where
  given : ∀ p ∈ d.accepted ++ d.packetList, OfCall cs p fun c => c.block = p.block
  inOrder : (d.accepted ++ d.packetList).Pairwise fun p q => p.id < q.id
  account : ((d.accepted ++ d.packetList ++ d.removed ++ d.dropped).map Packet.id).Perm
    (List.range cs.length)
  bound : d.packetList.length ≤ maxBufPacketNum
  frames : ∀ r ∈ d.cleared, r.Frames 2
  memory : ∀ p ∈ d.dropped, OfCall cs p fun c => c.duplicate = false

theorem OfCall.snoc {P : Call → Prop} (h : OfCall cs p P) (c : Call) : OfCall (cs ++ [c]) p P := by
  obtain ⟨x, hx, hP⟩ := h
  exact ⟨x, List.getElem?_append_left (List.getElem?_eq_some_iff.mp hx).1 ▸ hx, hP⟩

/-- Wherever the new packet is put, every packet is accounted for. -/
theorem Books.account_insert (h : Books cs d) (c : Call) (front back : List Packet)
    (hall : front ++ back = d.accepted ++ d.packetList ++ d.removed ++ d.dropped) :
    ((front ++ ⟨cs.length, c.block⟩ :: back).map Packet.id).Perm
      (List.range (cs ++ [c]).length) := by
  have hold := h.account
  rw [← hall] at hold
  rw [List.length_append, List.length_singleton, List.range_succ]
  refine (List.perm_middle.map _).trans ?_
  rw [List.map_cons]
  exact (hold.cons _).trans (List.perm_append_singleton _ _).symm

/-- The packets before the new one have smaller numbers. -/
theorem Books.id_lt (h : Books cs d) (hp : p ∈ d.accepted ++ d.packetList) : p.id < cs.length := by
  rw [← List.mem_range, ← h.account.mem_iff, List.map_append, List.map_append]
  exact List.mem_append_left _ (List.mem_append_left _ (List.mem_map_of_mem hp))

/-- The loop of `CPacketList::Send` moves packets from the list to what is accepted. -/
theorem Books.sendLoop (h : Books cs d) (accept : Nat → Bool) :
    Books cs { d with
      packetList := (AllCamera.sendLoop accept d.packetList).2
      accepted := d.accepted ++ (AllCamera.sendLoop accept d.packetList).1 } := by
  have happ := sendLoop_append accept d.packetList
  have hall : d.accepted ++ (AllCamera.sendLoop accept d.packetList).1 ++
      (AllCamera.sendLoop accept d.packetList).2 = d.accepted ++ d.packetList := by
    rw [List.append_assoc, happ]
  have hle := congrArg List.length happ
  rw [List.length_append] at hle
  refine ⟨?_, ?_, ?_, Nat.le_trans (Nat.le_of_add_left_le (Nat.le_of_eq hle)) h.bound, h.frames,
    h.memory⟩
  · rw [hall]
    exact h.given
  · rw [hall]
    exact h.inOrder
  · rw [hall]
    exact h.account

theorem Books.flush (h : Books cs d) (accept : Nat → Bool) : Books cs (d.flush accept).2 := by
  unfold DirectProcessor.flush
  split
  · exact h
  · exact h.sendLoop accept

/-- `ClearFrame` removes a first part of the list. -/
theorem Books.clearFrame (h : Books cs d) : Books cs (d.clearFrame 2) := by
  have happ := clearLoop_append 2 0 d.packetList
  have hsub : (d.accepted ++ (clearLoop 2 0 d.packetList).left).Sublist
      (d.accepted ++ d.packetList) := by
    conv_rhs => rw [← happ]
    exact (List.Sublist.refl _).append (List.sublist_append_right _ _)
  have hle := congrArg List.length happ
  rw [List.length_append] at hle
  refine ⟨fun p hp => h.given p (hsub.subset hp), h.inOrder.sublist hsub, ?_,
    Nat.le_trans (show _ ≤ d.packetList.length by simp only [DirectProcessor.clearFrame]; omega) h.bound,
    fun r hr => ?_, h.memory⟩
  · refine List.Perm.trans ?_ h.account
    conv_rhs => rw [← happ]
    rw [List.perm_iff_count]
    intro a
    simp only [DirectProcessor.clearFrame, DirectProcessor.removed, List.flatMap_append,
      List.flatMap_cons, List.flatMap_nil, List.map_append, List.count_append, List.append_nil]
    omega
  · rcases List.mem_append.mp hr with hr | hr
    · exact h.frames r hr
    · rw [List.mem_singleton.mp hr]
      exact clearLoop_frames (by decide) _

/-- The session accepts the new packet, and none waits. -/
theorem Books.accept (h : Books cs d) (hnil : d.packetList = []) (c : Call) :
    Books (cs ++ [c]) { d with accepted := d.accepted ++ [⟨cs.length, c.block⟩] } := by
  refine ⟨fun p hp => ?_, ?_, ?_, h.bound, h.frames, fun p hp => ?_⟩
  · rw [hnil, List.append_nil] at hp
    rcases List.mem_append.mp hp with hp | hp
    · exact (h.given p (List.mem_append_left _ hp)).snoc c
    · rw [List.mem_singleton.mp hp]
      exact ⟨c, by simp, rfl⟩
  · have hin := h.inOrder
    simp only [hnil, List.append_nil] at hin ⊢
    refine List.pairwise_append.mpr ⟨hin, List.pairwise_singleton _ _, fun p hp q hq => ?_⟩
    rw [List.mem_singleton.mp hq]
    exact h.id_lt (List.mem_append_left _ hp)
  · have := h.account_insert c d.accepted (d.packetList ++ d.removed ++ d.dropped) (by simp)
    simpa [DirectProcessor.removed] using this
  · exact (h.memory p hp).snoc c

/-- The new packet waits behind the others. -/
theorem Books.push (h : Books cs d) (hlt : d.packetList.length < maxBufPacketNum) (c : Call) :
    Books (cs ++ [c]) { d with packetList := d.packetList ++ [⟨cs.length, c.block⟩] } := by
  refine ⟨fun p hp => ?_, ?_, ?_, ?_, h.frames, fun p hp => ?_⟩
  · simp only [← List.append_assoc] at hp
    rcases List.mem_append.mp hp with hp | hp
    · exact (h.given p hp).snoc c
    · rw [List.mem_singleton.mp hp]
      exact ⟨c, by simp, rfl⟩
  · simp only [← List.append_assoc]
    refine List.pairwise_append.mpr ⟨h.inOrder, List.pairwise_singleton _ _, fun p hp q hq => ?_⟩
    rw [List.mem_singleton.mp hq]
    exact h.id_lt hp
  · have := h.account_insert c (d.accepted ++ d.packetList) (d.removed ++ d.dropped) (by simp)
    simpa [DirectProcessor.removed] using this
  · simp only [List.length_append, List.length_singleton]
    exact hlt
  · exact (h.memory p hp).snoc c

/-- The new packet is dropped: there is no memory for a duplicate. -/
theorem Books.drop (h : Books cs d) (hc : c.duplicate = false) :
    Books (cs ++ [c]) { d with dropped := d.dropped ++ [⟨cs.length, c.block⟩] } := by
  refine ⟨fun p hp => (h.given p hp).snoc c, h.inOrder, ?_, h.bound, h.frames, fun p hp => ?_⟩
  · have := h.account_insert c (d.accepted ++ d.packetList ++ d.removed ++ d.dropped) [] (by simp)
    simpa [DirectProcessor.removed] using this
  · rcases List.mem_append.mp hp with hp | hp
    · exact (h.memory p hp).snoc c
    · rw [List.mem_singleton.mp hp]
      exact ⟨c, by simp, hc⟩

/-- The list after what `Save` does to a full one. -/
theorem Books.makeRoom (h : Books cs d) :
    let d' := if maxBufPacketNum ≤ d.packetList.length then d.clearFrame 2 else d
    Books cs d' ∧ d'.packetList.length < maxBufPacketNum := by
  intro d'
  by_cases hfull : maxBufPacketNum ≤ d.packetList.length
  · have hne : d.packetList ≠ [] := by
      rintro hnil
      rw [hnil] at hfull
      exact absurd hfull (by decide)
    have hd : d' = d.clearFrame 2 := if_pos hfull
    rw [hd]
    exact ⟨h.clearFrame, Nat.lt_of_lt_of_le (clearLoop_left_lt 2 0 hne) h.bound⟩
  · have hd : d' = d := if_neg hfull
    rw [hd]
    exact ⟨h, Nat.not_le.mp hfull⟩

theorem Books.save (h : Books cs d) (c : Call) :
    Books (cs ++ [c]) (d.save ⟨cs.length, c.block⟩ c.duplicate) := by
  obtain ⟨h1, hlt⟩ := h.makeRoom
  unfold DirectProcessor.save savePacket
  cases hc : c.duplicate with
  | true =>
    have := h1.push hlt c
    exact ⟨this.given, this.inOrder, this.account, this.bound, this.frames, this.memory⟩
  | false =>
    have := h1.drop hc
    exact ⟨this.given, this.inOrder, this.account, this.bound, this.frames, this.memory⟩

@[simp] theorem calls_save (p : Packet) (duplicate : Bool) : (d.save p duplicate).calls = d.calls := by
  unfold DirectProcessor.save savePacket
  by_cases hfull : maxBufPacketNum ≤ d.packetList.length <;> cases duplicate <;>
    simp [hfull, DirectProcessor.clearFrame]

/-- `CDirectProcessor::Send` when nothing waits. -/
theorem send_of_nil (h : d.packetList = []) (block : MsgBlock) (accept : Nat → Bool)
    (duplicate : Bool) : d.send block accept duplicate =
      if accept 0 then { d with calls := d.calls + 1, accepted := d.accepted ++ [⟨d.calls, block⟩] }
      else { d with calls := d.calls + 1 }.save ⟨d.calls, block⟩ duplicate := by
  simp only [send, flush, h, if_true]

/-- `CDirectProcessor::Send` when packets wait: the new one is put behind them, also when none waits
any more. -/
theorem send_of_ne_nil (h : d.packetList ≠ []) (block : MsgBlock) (accept : Nat → Bool)
    (duplicate : Bool) : d.send block accept duplicate =
      { d with
        calls := d.calls + 1
        packetList := (AllCamera.sendLoop accept d.packetList).2
        accepted := d.accepted ++ (AllCamera.sendLoop accept d.packetList).1 }.save
          ⟨d.calls, block⟩ duplicate := by
  simp only [send, flush, h, if_false]

/-- One call of `Send`. -/
theorem Books.step (h : Books cs d) (hcalls : d.calls = cs.length) (c : Call) :
    Books (cs ++ [c]) (d.step c) ∧ (d.step c).calls = (cs ++ [c]).length := by
  have hc : ∀ {d : DirectProcessor} (n : Nat), Books cs d → Books cs { d with calls := n } :=
    fun n h => ⟨h.given, h.inOrder, h.account, h.bound, h.frames, h.memory⟩
  unfold DirectProcessor.step
  by_cases hnil : d.packetList = []
  · rw [send_of_nil hnil, hcalls]
    split
    · exact ⟨(hc (cs.length + 1) h).accept hnil c, by simp⟩
    · exact ⟨(hc (cs.length + 1) h).save c, by simp⟩
  · rw [send_of_ne_nil hnil, hcalls]
    exact ⟨(hc (cs.length + 1) (h.sendLoop c.accept)).save c, by simp⟩

theorem init_books : Books [] init :=
  ⟨by simp [init], .nil, .refl _, by simp [init], by simp [init], by simp [init]⟩

theorem run_books (cs : List Call) :
    Books cs (Run.run step init cs) ∧ (Run.run step init cs).calls = cs.length := by
  induction cs using List.reverseRecOn with
  | nil => exact ⟨init_books, rfl⟩
  | append_singleton cs c ih =>
    rw [Run.run_append]
    exact ih.1.step ih.2 c

/-- **Every run.** After any calls of `Send` and whatever the session accepts: what it accepted and
then what waits are packets of `Send` in the order of the calls, none twice, and no more than
`maxBufPacketNum` wait, also after any part of the loop of `CPacketList::Send` (`flush`); every packet
was accepted, or waits, or was removed by `ClearFrame`, or was dropped because there was no memory for
its duplicate; and `ClearFrame` always removes the packets up to the second one with a marker, or all. -/
theorem run_order (cs : List Call) :
    let d := Run.run step init cs
    (∀ accept, let e := (d.flush accept).2
      (∀ p ∈ e.accepted ++ e.packetList, OfCall cs p fun c => c.block = p.block) ∧
      (e.accepted ++ e.packetList).Pairwise (fun p q => p.id < q.id) ∧
      e.packetList.length ≤ maxBufPacketNum) ∧
    ((d.accepted ++ d.packetList ++ d.removed ++ d.dropped).map Packet.id).Perm
      (List.range cs.length) ∧
    (∀ p ∈ d.dropped, OfCall cs p fun c => c.duplicate = false) ∧
    (∀ r ∈ d.cleared, r.Frames 2) ∧
    ∀ e : DirectProcessor, (clearLoop 2 0 e.packetList).removed ++ (e.clearFrame 2).packetList =
      e.packetList := by
  obtain ⟨h, -⟩ := run_books cs
  refine ⟨fun accept => ?_, h.account, h.memory, h.frames,
    fun e => clearLoop_append 2 0 e.packetList⟩
  have he := h.flush accept
  exact ⟨he.given, he.inOrder, he.bound⟩

/-- Two calls, both refused, with no memory for the duplicate of the first: its packet was neither
accepted nor removed by `ClearFrame`, and does not wait. -/
theorem not_run_order_oneDropped :
    let c (duplicate : Bool) : Call := ⟨⟨default, 0, 0, 0⟩, fun _ => false, duplicate⟩
    let d := Run.run step init [c false, c true]
    d.accepted = [] ∧ d.packetList.map Packet.id = [1] ∧ d.cleared = [] ∧
      d.dropped.map Packet.id = [0] := by
  refine ⟨rfl, rfl, rfl, rfl⟩

/-! ## Recovery -/

/-- What is saved waits, or was dropped; the session does not get it. -/
theorem accepted_save (p : Packet) (duplicate : Bool) :
    (d.save p duplicate).accepted = d.accepted := by
  unfold DirectProcessor.save savePacket
  by_cases hfull : maxBufPacketNum ≤ d.packetList.length <;> cases duplicate <;>
    simp [hfull, DirectProcessor.clearFrame]

/-- The number of the new packet is not that of an accepted one. -/
theorem not_accepted_new (h : Books cs d) (hcalls : d.calls = cs.length) (b : MsgBlock) :
    ⟨d.calls, b⟩ ∉ d.accepted := by
  intro hmem
  have := h.id_lt (List.mem_append_left _ hmem)
  exact absurd this (by simp [hcalls])

/-- What is saved with memory for its duplicate waits. -/
theorem packetList_save_ne_nil (p : Packet) : (d.save p true).packetList ≠ [] := by
  simp [DirectProcessor.save, savePacket]

/-- **Recovery.** In every reachable state, a session that accepts every packet that it is offered
gets the new one, and leaves none waiting, exactly if none waited before: `CPacketList::Send` does not
return `RET_OK` when it has emptied the list. -/
theorem recovers_iff (cs : List Call) (block : MsgBlock) (duplicate : Bool) :
    let d := Run.run step init cs
    let e := d.send block (fun _ => true) duplicate
    (e.packetList = [] ∧ ⟨d.calls, block⟩ ∈ e.accepted) ↔ d.packetList = [] := by
  obtain ⟨h, hcalls⟩ := run_books cs
  generalize Run.run step init cs = d at h hcalls
  intro d e
  by_cases hnil : d.packetList = []
  · have he : e = _ := send_of_nil hnil block (fun _ => true) duplicate
    rw [if_pos rfl] at he
    rw [he]
    exact ⟨fun _ => hnil, fun _ => ⟨hnil, List.mem_append_right _ (List.mem_singleton.mpr rfl)⟩⟩
  · have he : e = _ := send_of_ne_nil hnil block (fun _ => true) duplicate
    rw [sendLoop_all fun _ => rfl] at he
    refine ⟨fun ⟨_, hacc⟩ => absurd ?_ (not_accepted_new (h.sendLoop fun _ => true) hcalls block),
      fun hd => absurd hd hnil⟩
    rw [he, accepted_save] at hacc
    rw [sendLoop_all fun _ => rfl]
    exact hacc

/-- One packet is refused, and every packet from then on accepted: the second packet still waits after
its call. -/
theorem not_recovers_oneRefused :
    let d := Run.run step init [⟨⟨default, 0, 0, 0⟩, fun _ => false, true⟩]
    let e := d.send ⟨default, 0, 0, 0⟩ (fun _ => true) true
    ¬(e.packetList = [] ∧ ⟨d.calls, ⟨default, 0, 0, 0⟩⟩ ∈ e.accepted) := by
  intro d e h
  exact absurd h.1 (List.cons_ne_nil _ _)

/-- Once a packet waits, one waits after every later call, as long as there is memory. -/
theorem waits_forever (hne : d.packetList ≠ [])
    (hall : Run.Allowed step (fun _ c => c.duplicate = true) d cs) :
    (Run.run step d cs).packetList ≠ [] := by
  refine Run.Allowed.invariant (I := fun d => d.packetList ≠ []) hall hne fun d c hd hc => ?_
  rw [step, send_of_ne_nil hd, hc]
  exact packetList_save_ne_nil _

end DirectProcessor

end AllCamera
