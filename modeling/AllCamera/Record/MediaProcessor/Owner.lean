import AllCamera.Record.MediaProcessor.Partition

/-!
# The owners of a handle

An index is handed out again and again. What is posted for one owner of it is never tried for a later
one and keeps nothing of a later one waiting, in exactly the runs in which nothing waits for a handle
that is freed, and nothing of an earlier owner is in the main queue when a handle is filled in
(`run_ownersApart_iff`).

* `Queued`: what waits for a handle, and then what is in the main queue, has been posted in this order.
* `Apart`, `Separate`: the invariant, and the condition under which a step keeps it.
-/

namespace AllCamera

open AllCamera.Run

/-- The index that a call has and has not filled in. -/
def AllocCall.takenIndex : AllocCall → Option Nat
  | .taken _ i => some i
  | _ => none

namespace ProcessorSystem

open Processor

variable {s s' : ProcessorSystem} {i : Nat} {msg : MediaEventMsg} {rest : List MediaEventMsg}
  {o : HandleOutcome} {tried : Option MediaEventMsg} {p' : Processor}

/-! ## What is on its way to a handle -/

/-- What waits for handle `i`, and then what is in the main queue for it. -/
def eventsFor (s : ProcessorSystem) (i : Nat) : List MediaEventMsg :=
  ((s.proc.handleArray i).msgQueue ++ s.proc.msgQueue).filter fun m =>
    m.ulIndex = i ∧ m.eventType ≠ .retry

/-- It has been posted in this order. -/
structure Queued (s : ProcessorSystem) : Prop where
  posted : ∀ m ∈ s.posted, m.ulIndex < s.proc.maxHandleNum ∧ m.seq < s.posted.length
  coming : ∀ m ∈ s.proc.msgQueue, m.eventType ≠ .retry → m ∈ s.posted
  waiting : ∀ i, ∀ m ∈ (s.proc.handleArray i).msgQueue, m ∈ s.posted ∧ m.eventType ≠ .retry
  sorted : ∀ i, (s.eventsFor i).Pairwise fun a b => a.seq < b.seq

theorem Queued.frame (h : s.Queued) (hf : Frame s s')
    (hmax : s'.proc.maxHandleNum = s.proc.maxHandleNum) : s'.Queued := by
  refine ⟨?_, ?_, fun i => ?_, fun i => ?_⟩
  · rw [hf.posted, hmax]
    exact h.posted
  · rw [hf.msgQueue, hf.posted]
    exact h.coming
  · rw [hf.waiting, hf.posted]
    exact h.waiting i
  · rw [eventsFor, hf.waiting, hf.msgQueue]
    exact h.sorted i

theorem Queued.post (h : s.Queued) (j : Nat) (eventType : MediaEventType) (putOk : Bool) :
    (s.post j eventType putOk).Queued := by
  rw [ProcessorSystem.post]
  split_ifs with hno
  · exact h
  rw [not_or, not_or, Nat.not_le] at hno
  obtain ⟨hlt, hretry, -⟩ := hno
  have hold : ∀ m ∈ s.posted, ∀ msg, m ∈ s.posted ++ [msg] := fun m hm _ => List.mem_append_left _ hm
  refine ⟨fun m hm => ?_, fun m hm hm' => ?_, fun i m hm => ?_, fun i => ?_⟩
  · rw [List.length_append, List.length_singleton]
    rcases List.mem_append.mp hm with hm | hm
    · exact ⟨(h.posted m hm).1, Nat.lt_succ_of_lt (h.posted m hm).2⟩
    · rw [List.mem_singleton.mp hm]
      exact ⟨hlt, Nat.lt_succ_self _⟩
  · rcases List.mem_append.mp hm with hm | hm
    · exact hold m (h.coming m hm hm') _
    · exact List.mem_append_right _ hm
  · exact ⟨hold m (h.waiting i m hm).1 _, (h.waiting i m hm).2⟩
  · rw [eventsFor, ← List.append_assoc, List.filter_append, List.pairwise_append]
    refine ⟨h.sorted i, (List.pairwise_singleton _ _).filter _, fun a ha b hb => ?_⟩
    rw [List.mem_singleton.mp (List.mem_filter.mp hb).1]
    obtain ⟨ha, hkind⟩ := List.mem_filter.mp ha
    rcases List.mem_append.mp ha with ha | ha
    · exact (h.posted a (h.waiting i a ha).1).2
    · exact (h.posted a (h.coming a ha (of_decide_eq_true hkind).2)).2

theorem Queued.handle (h : s.Queued) (hinv : s.Inv) (o : HandleOutcome) : (s.handle o).Queued := by
  rcases hinv.handle_cases o with ⟨-, heq⟩ | ⟨msg, rest, tried, p', hqueue, hh, heq⟩
  · rw [heq]
    exact h
  have hmax : p'.maxHandleNum = s.proc.maxHandleNum := by
    have := maxHandleNum_step hinv (.handle o)
    rwa [ProcessorSystem.step, heq] at this
  obtain ⟨msgs, hmsgs, hretry⟩ := hh.msgQueue_eq
  have hmsgs : p'.msgQueue = rest ++ msgs := hmsgs
  have hsub := hh.waiting_sublist
  rw [heq]
  refine ⟨?_, ?_, fun i m hm => ?_, fun i => ?_⟩
  · change ∀ m ∈ s.posted, m.ulIndex < p'.maxHandleNum ∧ _
    rw [hmax]
    exact h.posted
  · change ∀ m ∈ p'.msgQueue, m.eventType ≠ .retry → m ∈ s.posted
    rw [hmsgs]
    intro m hm hne
    rcases List.mem_append.mp hm with hm | hm
    · exact h.coming m (hqueue ▸ List.mem_cons_of_mem msg hm) hne
    · rw [hretry m hm] at hne
      exact absurd rfl hne
  · change m ∈ (p'.handleArray i).msgQueue at hm
    change m ∈ s.posted ∧ m.eventType ≠ .retry
    by_cases hi : i = msg.ulIndex
    · rw [hi] at hm
      rcases List.mem_append.mp (hsub.mem hm) with hm | hm
      · exact h.waiting _ m hm
      · split_ifs at hm with hkind
        · cases hm
        · rw [List.mem_singleton.mp hm]
          exact ⟨h.coming msg (hqueue ▸ List.mem_cons_self) hkind, hkind⟩
    · rw [hh.handleArray_of_ne hi] at hm
      exact h.waiting i m hm
  · have hold := h.sorted i
    rw [eventsFor, hqueue] at hold
    have hnil : msgs.filter (fun m => m.ulIndex = i ∧ m.eventType ≠ .retry) = [] := by
      refine List.filter_eq_nil_iff.mpr fun m hm hkind => ?_
      rw [hretry m hm] at hkind
      exact (of_decide_eq_true hkind).2 rfl
    change (((p'.handleArray i).msgQueue ++ p'.msgQueue).filter _).Pairwise _
    rw [hmsgs, ← List.append_assoc, List.filter_append, hnil, List.append_nil]
    refine hold.sublist (List.Sublist.filter _ ?_)
    by_cases hi : i = msg.ulIndex
    · subst hi
      rw [← List.singleton_append, ← List.append_assoc]
      refine (hsub.trans (List.Sublist.append_left ?_ _)).append_right rest
      split_ifs
      · exact List.nil_sublist _
      · exact .refl _
    · rw [hh.handleArray_of_ne hi]
      exact (List.sublist_cons_self msg rest).append_left _

theorem Queued.step (h : s.Queued) (hinv : s.Inv) (a : Act) : (s.step a).Queued := by
  have hmax := maxHandleNum_step hinv a
  cases a with
  | allocCheck c szDevID in_type out_type => exact h.frame (frame_allocCheck s c _) hmax
  | allocIndex c => exact h.frame (hinv.frame_allocIndex c) hmax
  | allocInit c egressOk recvOk => exact h.frame (hinv.frame_allocInit c egressOk recvOk) hmax
  | allocInsert c => exact h.frame (frame_allocInsert s c) hmax
  | post j eventType putOk => exact h.post j eventType putOk
  | handle o => exact h.handle hinv o

theorem queued_init (max_lens : Nat) : (init max_lens).Queued where
  posted _ hm := (List.not_mem_nil hm).elim
  coming _ hm := (List.not_mem_nil hm).elim
  waiting _ _ hm := (List.not_mem_nil hm).elim
  sorted _ := .nil

/-! ## The owners -/

/-- What is tried for a handle, waits for it, or is on its way to it while it is in use has been posted
for its owner, and nothing waits for a handle that is not in use. -/
structure Apart (s : ProcessorSystem) : Prop where
  executed : ∀ e ∈ s.attempts, e.1.owner = e.2
  waiting : ∀ i, (s.proc.handleArray i).InUse →
    ∀ m ∈ (s.proc.handleArray i).msgQueue, m.owner = (s.proc.handleArray i).owner
  freed : ∀ i, ¬ (s.proc.handleArray i).InUse → (s.proc.handleArray i).msgQueue = []
  coming : ∀ m ∈ s.proc.msgQueue, m.eventType ≠ .retry → (s.proc.handleArray m.ulIndex).InUse →
    m.owner = (s.proc.handleArray m.ulIndex).owner

/-- Nothing waits for a handle that the step frees, and nothing of an earlier owner is in the main queue
for a handle that it fills in. -/
def Separate (s : ProcessorSystem) : Act → Prop
  | .handle _ => ∀ msg ∈ s.proc.msgQueue.head?, msg.eventType = .stopFinishNotify →
    (s.proc.handleArray msg.ulIndex).status = .stop →
      (s.proc.handleArray msg.ulIndex).msgQueue = []
  | .allocInit c true true => ∀ i ∈ (s.call c).takenIndex, ∀ m ∈ s.proc.msgQueue, m.ulIndex = i →
    m.eventType ≠ .retry → m.owner = (s.proc.handleArray i).owner
  | _ => True

/-- A section that takes no handle into use. -/
theorem Apart.frame (h : s.Apart) (hf : Frame s s')
    (hback : ∀ i, (s'.proc.handleArray i).InUse → (s.proc.handleArray i).InUse) : s'.Apart := by
  refine ⟨?_, fun i huse => ?_, fun i hnot => ?_, fun m hm hretry huse => ?_⟩
  · rw [hf.attempts]
    exact h.executed
  · rw [hf.used i (hback i huse)]
    exact h.waiting i (hback i huse)
  · rw [hf.waiting]
    exact h.freed i fun huse => hnot ((hf.used i huse).symm ▸ huse)
  · rw [hf.msgQueue] at hm
    rw [hf.used _ (hback _ huse)]
    exact h.coming m hm hretry (hback _ huse)

theorem Apart.allocCheck (h : s.Apart) (c : Nat) (key : DevKey) : (s.allocCheck c key).Apart := by
  refine h.frame (frame_allocCheck s c key) fun i huse => ?_
  rw [ProcessorSystem.allocCheck] at huse
  split at huse
  · split_ifs at huse
    · exact huse
    · exact huse
  · exact huse

theorem Apart.allocIndex (h : s.Apart) (hinv : s.Inv) (c : Nat) : (s.allocIndex c).Apart := by
  refine h.frame (hinv.frame_allocIndex c) fun j huse => ?_
  rcases hinv.allocIndex_cases c with heq | ⟨key, -, heq | ⟨i, rest, -, heq⟩⟩
  · rwa [heq] at huse
  · rw [heq] at huse
    exact huse
  · rw [heq] at huse
    change (Function.update s.proc.handleArray i _ j).InUse at huse
    refine inUse_of_update ?_ huse
    exact fun hin => hin

theorem Apart.allocInsert (h : s.Apart) (c : Nat) : (s.allocInsert c).Apart := by
  refine h.frame (frame_allocInsert s c) fun i huse => ?_
  rw [ProcessorSystem.allocInsert] at huse
  split at huse
  · exact huse
  · exact huse

theorem Apart.post (h : s.Apart) (j : Nat) (eventType : MediaEventType) (putOk : Bool) :
    (s.post j eventType putOk).Apart := by
  rw [ProcessorSystem.post]
  split_ifs
  · exact h
  · refine ⟨h.executed, h.waiting, h.freed, fun m hm hretry huse => ?_⟩
    rcases List.mem_append.mp hm with hm | hm
    · exact h.coming m hm hretry huse
    · rw [List.mem_singleton.mp hm]

/-- A handle is filled in: it is in use then. -/
theorem Apart.fill_iff (h : s.Apart) {c : Nat} {h' : HandleInfo} {call : Nat → AllocCall}
    (hnot : ¬ (s.proc.handleArray i).InUse) (huse : h'.InUse)
    (hqueue : h'.msgQueue = (s.proc.handleArray i).msgQueue)
    (howner : h'.owner = (s.proc.handleArray i).owner) (hc : (s.call c).takenIndex = some i) :
    Apart { s with proc := s.proc.update i h' [], call } ↔
      s.Separate (.allocInit c true true) := by
  have hother : ∀ j, j ≠ i → Function.update s.proc.handleArray i h' j = s.proc.handleArray j :=
    fun j hji => Function.update_of_ne hji _ _
  have hself : Function.update s.proc.handleArray i h' i = h' := Function.update_self ..
  have hmsgs : (s.proc.update i h' []).msgQueue = s.proc.msgQueue := List.append_nil _
  constructor
  · intro h' j hj m hm hmj hretry
    rw [hc] at hj
    obtain rfl := Option.mem_some.mp hj
    have := h'.coming m (hmsgs.symm ▸ hm) hretry
    rw [hmj, handleArray_update, hself] at this
    rw [this huse, howner]
  · intro hok
    refine ⟨h.executed, fun j hj => ?_, fun j hj => ?_, fun m hm hretry hj => ?_⟩
    · rw [handleArray_update] at hj ⊢
      by_cases hji : j = i
      · rw [hji, hself, hqueue, h.freed i hnot]
        intro m hm
        cases hm
      · rw [hother j hji] at hj ⊢
        exact h.waiting j hj
    · rw [handleArray_update] at hj ⊢
      by_cases hji : j = i
      · rw [hji, hself] at hj
        exact absurd huse hj
      · rw [hother j hji] at hj ⊢
        exact h.freed j hj
    · rw [hmsgs] at hm
      rw [handleArray_update] at hj ⊢
      by_cases hji : m.ulIndex = i
      · rw [hji, hself, howner]
        exact hok i hc m hm hji hretry
      · rw [hother _ hji] at hj ⊢
        exact h.coming m hm hretry hj

theorem separate_allocInit (h : egressOk = true ∧ recvOk = true →
      ∀ i ∈ (s.call c).takenIndex, ∀ m ∈ s.proc.msgQueue, m.ulIndex = i →
        m.eventType ≠ .retry → m.owner = (s.proc.handleArray i).owner) :
    s.Separate (.allocInit c egressOk recvOk) := by
  cases egressOk with
  | false => trivial
  | true =>
    cases recvOk with
    | false => trivial
    | true => exact h ⟨rfl, rfl⟩

theorem Apart.allocInit_iff (h : s.Apart) (hinv : s.Inv) (c : Nat) (egressOk recvOk : Bool) :
    (s.allocInit c egressOk recvOk).Apart ↔ s.Separate (.allocInit c egressOk recvOk) := by
  have hframe := hinv.frame_allocInit c egressOk recvOk
  rcases allocInit_cases s c egressOk recvOk with
    ⟨heq, hno⟩ | ⟨key, i, hc, ⟨hfails, heq⟩ | ⟨⟨rfl, rfl⟩, heq⟩⟩
  · rw [heq]
    refine iff_of_true h (separate_allocInit fun _ i hi => ?_)
    cases hc : s.call c with
    | taken key j => exact absurd hc (hno key j)
    | _ =>
      rw [hc] at hi
      cases hi
  · refine iff_of_true (h.frame hframe fun j huse => ?_) (separate_allocInit fun hok => absurd hok hfails)
    rw [heq] at huse
    exact inUse_of_update (fun huse' => absurd (HandleInfo.blank_reset _) huse'.not_blank) huse
  · rw [heq]
    refine h.fill_iff (fun huse => hinv.not_taken huse ⟨c, key, hc⟩) (HandleInfo.inUse_filled _ key)
      rfl rfl ?_
    rw [hc]
    rfl

/-- The notification frees a handle for which nothing waits. -/
theorem Apart.separate_handle (hinv : s.Inv) (hq : s.Queued) (h' : (s.handle o).Apart) :
    s.Separate (.handle o) := by
  intro msg hmsg hfinish hstop
  cases hqueue : s.proc.msgQueue with
  | nil =>
    rw [hqueue] at hmsg
    cases hmsg
  | cons m rest =>
    rw [hqueue] at hmsg
    obtain rfl := Option.mem_some.mp hmsg
    have hretry : m.eventType ≠ .retry := by
      rw [hfinish]
      exact MediaEventType.noConfusion
    have hlt := (hq.posted m (hq.coming m (hqueue ▸ List.mem_cons_self) hretry)).1
    have huse : (s.proc.handleArray m.ulIndex).InUse :=
      hinv.inUse_of_status hlt (by rw [hstop]; exact HandleStatus.noConfusion)
    have hend : ({ s.proc with msgQueue := rest } : Processor).handleMessage m o =
        (some m, ({ s.proc with msgQueue := rest } : Processor).finish m.ulIndex) :=
      handleMessage_finish hlt huse hfinish hstop (hinv.count _)
    rw [ProcessorSystem.handle, hqueue] at h'
    simp only [hend] at h'
    have hfreed := h'.freed m.ulIndex
    change ¬ (Function.update s.proc.handleArray _ _ _).InUse →
      (Function.update s.proc.handleArray _ _ _).msgQueue = [] at hfreed
    rw [Function.update_self] at hfreed
    exact hfreed fun huse' => huse'.not_blank (HandleInfo.blank_reset _)

theorem Apart.handle (h : s.Apart) (hinv : s.Inv) (hok : s.Separate (.handle o)) :
    (s.handle o).Apart := by
  rcases hinv.handle_cases o with ⟨-, heq⟩ | ⟨msg, rest, tried, p', hqueue, hh, heq⟩
  · rw [heq]
    exact h
  rw [heq]
  have hmem : msg ∈ s.proc.msgQueue := hqueue ▸ List.mem_cons_self
  have howner : ∀ i, (p'.handleArray i).owner = (s.proc.handleArray i).owner := hh.owner_eq
  have huse : ∀ i, (p'.handleArray i).InUse → (s.proc.handleArray i).InUse := hh.inUse_of
  refine ⟨fun e he => ?_, fun i hi m hm => ?_, fun i hnot => ?_, fun m hm hretry hi => ?_⟩
  · rcases List.mem_append.mp he with he | he
    · exact h.executed e he
    · obtain ⟨m, hm, rfl⟩ := List.mem_map.mp he
      obtain ⟨hi, hm | ⟨rfl, hretry⟩⟩ := hh.tried_mem m (Option.mem_toList.mp hm)
      · exact h.waiting _ hi m hm
      · exact h.coming m hmem hretry hi
  · change m ∈ (p'.handleArray i).msgQueue at hm
    change m.owner = (p'.handleArray i).owner
    rw [howner]
    by_cases hmsg : i = msg.ulIndex
    · subst hmsg
      rcases List.mem_append.mp (hh.waiting_sublist.mem hm) with hm | hm
      · exact h.waiting _ (huse _ hi) m hm
      · split_ifs at hm with hretry
        · cases hm
        · rw [List.mem_singleton.mp hm]
          exact h.coming msg hmem hretry (huse _ hi)
    · rw [hh.handleArray_of_ne hmsg] at hm
      exact h.waiting i (huse i hi) m hm
  · change (p'.handleArray i).msgQueue = []
    by_cases hi : (s.proc.handleArray i).InUse
    · obtain ⟨rfl, hfinish, hstop, rfl⟩ := hh.freed_of hi hnot
      rw [handleArray_finish, Function.update_self]
      exact hok msg (by rw [hqueue]; rfl) hfinish hstop
    · by_cases hmsg : i = msg.ulIndex
      · subst hmsg
        rw [hh.eq_of_not_inUse hi]
        exact h.freed _ hi
      · rw [hh.handleArray_of_ne hmsg]
        exact h.freed i hi
  · obtain ⟨msgs, hmsgs, hkind⟩ := hh.msgQueue_eq
    change m ∈ p'.msgQueue at hm
    change m.owner = (p'.handleArray m.ulIndex).owner
    rw [hmsgs] at hm
    rw [howner]
    rcases List.mem_append.mp hm with hm | hm
    · exact h.coming m (hqueue ▸ List.mem_cons_of_mem msg hm) hretry (huse _ hi)
    · rw [hkind m hm] at hretry
      exact absurd rfl hretry

/-- A step keeps the owners apart exactly under the condition. -/
theorem Apart.step_iff (h : s.Apart) (hinv : s.Inv) (hq : s.Queued) (a : Act) :
    (s.step a).Apart ↔ s.Separate a := by
  cases a with
  | allocCheck c szDevID in_type out_type => exact iff_of_true (h.allocCheck c _) trivial
  | allocIndex c => exact iff_of_true (h.allocIndex hinv c) trivial
  | allocInit c egressOk recvOk => exact h.allocInit_iff hinv c egressOk recvOk
  | allocInsert c => exact iff_of_true (h.allocInsert c) trivial
  | post j eventType putOk => exact iff_of_true (h.post j eventType putOk) trivial
  | handle o => exact ⟨fun h' => h'.separate_handle hinv hq, h.handle hinv⟩

/-! ## Every run -/

/-- The owners of the handles are kept apart: moreover, the first message of an owner is tried when it
is handled, if it starts the recording. -/
structure OwnersApart (s : ProcessorSystem) : Prop extends Apart s where
  started : ∀ msg ∈ s.proc.msgQueue.head?, ∀ o, msg.eventType = .startRecord →
    (s.proc.handleArray msg.ulIndex).InUse →
      (∀ m ∈ s.posted, m.ulIndex = msg.ulIndex → m.owner = msg.owner → msg.seq ≤ m.seq) →
        (s.handle o).attempts = s.attempts ++ [(msg, (s.proc.handleArray msg.ulIndex).owner)]

theorem apart_init (max_lens : Nat) : (init max_lens).Apart where
  executed _ he := (List.not_mem_nil he).elim
  waiting _ _ _ hm := (List.not_mem_nil hm).elim
  freed _ _ := rfl
  coming _ hm := (List.not_mem_nil hm).elim

/-- What waits for a handle is its owner's and is older than what is in the main queue. -/
theorem Apart.notWaiting_first (h : s.Apart) (hinv : s.Inv) (hq : s.Queued)
    (hqueue : s.proc.msgQueue = msg :: rest) (hretry : msg.eventType ≠ .retry)
    (huse : (s.proc.handleArray msg.ulIndex).InUse)
    (hfirst : ∀ m ∈ s.posted, m.ulIndex = msg.ulIndex → m.owner = msg.owner → msg.seq ≤ m.seq) :
    (s.proc.handleArray msg.ulIndex).msgQueue = [] := by
  refine List.eq_nil_iff_forall_not_mem.mpr fun m hm => ?_
  obtain ⟨hposted, hkind⟩ := hq.waiting _ m hm
  have hindex : m.ulIndex = msg.ulIndex := hinv.waiting _ m hm
  have howner : m.owner = msg.owner :=
    (h.waiting _ huse m hm).trans (h.coming msg (hqueue ▸ List.mem_cons_self) hretry huse).symm
  have hlt : m.seq < msg.seq := by
    have hsorted := hq.sorted msg.ulIndex
    rw [eventsFor, List.filter_append, List.pairwise_append] at hsorted
    refine hsorted.2.2 m ?_ msg ?_
    · exact List.mem_filter.mpr ⟨hm, decide_eq_true ⟨hindex, hkind⟩⟩
    · exact List.mem_filter.mpr ⟨hqueue ▸ List.mem_cons_self, decide_eq_true ⟨rfl, hretry⟩⟩
  exact absurd (hfirst m hposted hindex howner) (Nat.not_le.mpr hlt)

theorem Apart.ownersApart (h : s.Apart) (hinv : s.Inv) (hq : s.Queued) : s.OwnersApart := by
  refine ⟨h, fun msg hmsg o hstart huse hfirst => ?_⟩
  have hretry : msg.eventType ≠ .retry := by
    rw [hstart]
    exact MediaEventType.noConfusion
  have hfinish : msg.eventType ≠ .stopFinishNotify := by
    rw [hstart]
    exact MediaEventType.noConfusion
  rcases hinv.handle_cases o with ⟨hnil, -⟩ | ⟨m, rest, tried, p', hqueue, hh, heq⟩
  · rw [hnil] at hmsg
    cases hmsg
  rw [hqueue] at hmsg
  obtain rfl := Option.mem_some.mp hmsg
  have hlt := (hq.posted m (hq.coming m (hqueue ▸ List.mem_cons_self) hretry)).1
  have hempty := h.notWaiting_first hinv hq hqueue hretry huse hfirst
  rw [heq]
  cases hh with
  | dropped hout => exact absurd hout (not_or.mpr ⟨Nat.not_le.mpr hlt, not_not.mpr huse⟩)
  | swallowed _ _ hkind => exact absurd hkind hretry
  | deferred _ _ _ _ hwait => exact absurd hempty hwait
  | done => rfl
  | failed => rfl
  | freed _ _ hkind => exact absurd hkind hfinish
  | retried _ _ hkind => exact absurd hkind hretry

/-- In exactly the runs in which the steps meet the condition the owners are apart in every state. -/
theorem run_ownersApart_iff (max_lens : Nat) (as : List Act) :
    Allowed step Separate (init max_lens) as ↔
      ∀ pre, pre <+: as → (run step (init max_lens) pre).OwnersApart := by
  have hbase : ∀ pre, (run step (init max_lens) pre).Inv ∧ (run step (init max_lens) pre).Queued := by
    intro pre
    exact run_invariant (I := fun s : ProcessorSystem => s.Inv ∧ s.Queued)
      ⟨inv_init max_lens, queued_init max_lens⟩ fun _ a h => ⟨h.1.step a, h.2.step h.1 a⟩
  rw [allowed_iff (I := fun s : ProcessorSystem => (s.Inv ∧ s.Queued) ∧ s.Apart)
    ⟨⟨inv_init max_lens, queued_init max_lens⟩, apart_init max_lens⟩ fun s a h =>
      ⟨fun h' => (h.2.step_iff h.1.1 h.1.2 a).mp h'.2, fun hok =>
        ⟨⟨h.1.1.step a, h.1.2.step h.1.1 a⟩, (h.2.step_iff h.1.1 h.1.2 a).mpr hok⟩⟩]
  refine forall_congr' fun pre => forall_congr' fun _ => ⟨fun h => ?_, fun h => ?_⟩
  · exact h.2.ownersApart h.1.1 h.1.2
  · exact ⟨hbase pre, h.toApart⟩

/-- A key frame request waits when the notification comes that the recording has stopped. The next owner
of the index waits behind it, and no retry message comes. -/
def deferredRun : List Act :=
  let ok : HandleOutcome := ⟨true, true, true, true, true, true⟩
  [.allocCheck 0 [99] 0 0, .allocIndex 0, .allocInit 0 true true, .allocInsert 0,
    .post 0 .startRecord true, .handle ok, .post 0 .stopRecord true, .handle ok,
    .post 0 .recordKeyFrame true, .handle ok, .handle ok, .post 0 .stopFinishNotify true, .handle ok,
    .allocCheck 0 [99] 0 0, .allocIndex 0, .allocInit 0 true true, .allocInsert 0,
    .post 0 .startRecord true, .handle ok]

theorem not_ownersApart_deferred :
    let s := run step (init 1) deferredRun
    ¬ s.OwnersApart ∧ s.proc.msgQueue = [] ∧
      (s.proc.handleArray 0).msgQueue.map (fun m => (m.eventType, m.owner)) =
        [(.recordKeyFrame, 1), (.startRecord, 2)] := by
  refine ⟨fun h => ?_, by decide, by decide⟩
  have hwaiting := h.waiting 0 (by decide) ⟨.recordKeyFrame, 0, 2, 1⟩ (by decide)
  revert hwaiting
  decide

end ProcessorSystem

end AllCamera
