import AllCamera.Record.MediaProcessor.Partition

/-!
# Requests that wait

The start, stop, key frame and time requests for a handle are tried in the order in which they were
put into the main queue, and as long as some of them wait and the handle is not stopping, a retry message
is in the main queue (`run_requests`).

* `flow`: the requests for a handle, those that were tried first, then those that wait, then those in the
  main queue. A message that is handled goes on from one to the next, or is given up; one that fails at
  once stands twice.
* `Armed`: the retry message.
-/

namespace AllCamera

open AllCamera.Run

/-- What fails at once stands twice. -/
theorem pairwise_stutter {α : Type} {R : α → α → Prop} {as bs : List α} {a : α} (hrefl : R a a)
    (h : (as ++ a :: bs).Pairwise R) : (as ++ a :: a :: bs).Pairwise R := by
  rw [List.pairwise_append] at h ⊢
  obtain ⟨has, habs, hbetween⟩ := h
  rw [List.pairwise_cons] at habs
  refine ⟨has, ?_, fun x hx y hy => ?_⟩
  · rw [List.pairwise_cons, List.pairwise_cons]
    refine ⟨fun b hb => ?_, habs⟩
    rcases List.mem_cons.mp hb with rfl | hb
    · exact hrefl
    · exact habs.1 b hb
  · rcases List.mem_cons.mp hy with rfl | hy
    · exact hbetween x hx y List.mem_cons_self
    · exact hbetween x hx y hy

/-- A start, stop, key frame or time request for handle `i`. -/
def MediaEventMsg.IsRequest (i : Nat) (m : MediaEventMsg) : Prop :=
  m.ulIndex = i ∧ m.eventType ≠ .retry ∧ m.eventType ≠ .stopFinishNotify

instance (i : Nat) (m : MediaEventMsg) : Decidable (m.IsRequest i) :=
  inferInstanceAs (Decidable (_ ∧ _ ∧ _))

/-- The requests for handle `i` among messages. -/
def requestsOf (i : Nat) (msgs : List MediaEventMsg) : List MediaEventMsg :=
  msgs.filter fun m => m.IsRequest i

section RequestsOf

variable {i : Nat} {m : MediaEventMsg} {msgs : List MediaEventMsg}

@[simp] theorem requestsOf_nil (i : Nat) : requestsOf i [] = [] := rfl

@[simp] theorem requestsOf_append (i : Nat) (as bs : List MediaEventMsg) :
    requestsOf i (as ++ bs) = requestsOf i as ++ requestsOf i bs := List.filter_append as bs

theorem requestsOf_cons (hm : m.IsRequest i) :
    requestsOf i (m :: msgs) = m :: requestsOf i msgs := List.filter_cons_of_pos (decide_eq_true hm)

theorem requestsOf_cons_of_not (hm : ¬ m.IsRequest i) :
    requestsOf i (m :: msgs) = requestsOf i msgs := List.filter_cons_of_neg (by simpa using hm)

theorem requestsOf_sublist (i : Nat) (m : MediaEventMsg) (msgs : List MediaEventMsg) :
    (requestsOf i msgs).Sublist (requestsOf i (m :: msgs)) := (List.sublist_cons_self m msgs).filter _

theorem requestsOf_eq_nil (hmsgs : ∀ m ∈ msgs, ¬ m.IsRequest i) : requestsOf i msgs = [] :=
  List.filter_eq_nil_iff.mpr fun m hm hreq => hmsgs m hm (of_decide_eq_true hreq)

end RequestsOf

namespace ProcessorSystem

open Processor

variable {s s' : ProcessorSystem} {i : Nat} {msg : MediaEventMsg} {rest : List MediaEventMsg}
  {o : HandleOutcome} {tried : Option MediaEventMsg} {p' : Processor}

/-! ## The order -/

/-- The requests for handle `i` that were tried. -/
def requestsTried (s : ProcessorSystem) (i : Nat) : List MediaEventMsg :=
  requestsOf i (s.attempts.map Prod.fst)

/-- The requests for handle `i`: tried, waiting, and in the main queue. -/
def flow (s : ProcessorSystem) (i : Nat) : List MediaEventMsg :=
  s.requestsTried i ++
    (requestsOf i (s.proc.handleArray i).msgQueue ++ requestsOf i s.proc.msgQueue)

/-- They are in the order in which they were posted. -/
structure Ordered (s : ProcessorSystem) (i : Nat) : Prop where
  sorted : (s.flow i).Pairwise fun a b => a.seq ≤ b.seq
  bound : ∀ m ∈ s.flow i, m.seq < s.posted.length

theorem Frame.flow_eq (hf : Frame s s') (i : Nat) : s'.flow i = s.flow i := by
  rw [flow, flow, requestsTried, requestsTried, hf.attempts, hf.waiting, hf.msgQueue]

theorem Ordered.frame (h : s.Ordered i) (hf : Frame s s') : s'.Ordered i := by
  refine ⟨?_, ?_⟩
  · rw [hf.flow_eq]
    exact h.sorted
  · rw [hf.flow_eq, hf.posted]
    exact h.bound

theorem Ordered.post (h : s.Ordered i) (j : Nat) (eventType : MediaEventType) (putOk : Bool) :
    (s.post j eventType putOk).Ordered i := by
  rw [ProcessorSystem.post]
  split_ifs
  · exact h
  generalize hmsg : (⟨eventType, j, s.posted.length, (s.proc.handleArray j).owner⟩ :
    MediaEventMsg) = msg
  have hseq : msg.seq = s.posted.length := hmsg ▸ rfl
  have hflow : ProcessorSystem.flow
      { s with proc := { s.proc with msgQueue := s.proc.msgQueue ++ [msg] }
               posted := s.posted ++ [msg] } i =
      s.flow i ++ requestsOf i [msg] := by
    simp only [flow, requestsTried, requestsOf_append, List.append_assoc]
  have hnew : ∀ m ∈ requestsOf i [msg], m.seq = s.posted.length := by
    intro m hm
    rw [List.mem_singleton.mp (List.mem_filter.mp hm).1, hseq]
  refine ⟨?_, fun m hm => ?_⟩
  · rw [hflow, List.pairwise_append]
    refine ⟨h.sorted, (List.pairwise_singleton _ _).filter _, fun a ha b hb => ?_⟩
    rw [hnew b hb]
    exact (h.bound a ha).le
  · rw [hflow] at hm
    rw [List.length_append, List.length_singleton]
    rcases List.mem_append.mp hm with hm | hm
    · exact Nat.lt_succ_of_lt (h.bound m hm)
    · rw [hnew m hm]
      exact Nat.lt_succ_self _

/-- The requests when a message has been handled. -/
theorem flow_handled_eq (hh : Handled { s.proc with msgQueue := rest } msg o tried p') (i : Nat) :
    (s.handled msg tried p').flow i = s.requestsTried i ++ (requestsOf i tried.toList ++
      (requestsOf i (p'.handleArray i).msgQueue ++ requestsOf i rest)) := by
  obtain ⟨msgs, hqueue, hmsgs⟩ := hh.msgQueue_eq
  have hfst : (tried.toList.map fun m => (m, (s.proc.handleArray msg.ulIndex).owner)).map Prod.fst =
      tried.toList := by
    rw [List.map_map]
    exact List.map_id _
  have hretry : requestsOf i msgs = [] := requestsOf_eq_nil fun m hm hreq => by
    rw [hmsgs m hm] at hreq
    exact hreq.2.1 rfl
  simp only [flow, requestsTried, handled, hqueue, List.map_append, hfst, requestsOf_append, hretry,
    List.append_nil, List.append_assoc]

/-- A message that is handled goes on, is given up, or stands twice. -/
theorem flow_handled (hqueue : s.proc.msgQueue = msg :: rest)
    (hh : Handled { s.proc with msgQueue := rest } msg o tried p')
    (hown : ∀ m ∈ (s.proc.handleArray msg.ulIndex).msgQueue, m.ulIndex = msg.ulIndex) (i : Nat) :
    ((s.handled msg tried p').flow i).Sublist (s.flow i) ∨
      ∃ as bs, s.flow i = as ++ msg :: bs ∧
        (s.handled msg tried p').flow i = as ++ msg :: msg :: bs := by
  rw [flow_handled_eq hh, flow, hqueue]
  by_cases hi : i = msg.ulIndex
  · subst hi
    -- a message that is no request has gone, and the waiting ones are what they were
    have hgone : ∀ {queue : List MediaEventMsg}, queue = (s.proc.handleArray msg.ulIndex).msgQueue →
        (s.requestsTried msg.ulIndex ++ ([] ++ (requestsOf msg.ulIndex queue ++
          requestsOf msg.ulIndex rest))).Sublist
        (s.requestsTried msg.ulIndex ++
          (requestsOf msg.ulIndex (s.proc.handleArray msg.ulIndex).msgQueue ++
            requestsOf msg.ulIndex (msg :: rest))) := by
      rintro queue rfl
      exact ((requestsOf_sublist _ msg rest).append_left _).append_left _
    have hno : msg.eventType = .stopFinishNotify → ¬ msg.IsRequest msg.ulIndex :=
      fun hfinish hreq => hreq.2.2 hfinish
    cases hh with
    | dropped hout => exact .inl (hgone rfl)
    | swallowed hin huse hretry hidle => exact .inl (hgone rfl)
    | deferred hin huse hretry hfinish hwait =>
      left
      have hreq : msg.IsRequest msg.ulIndex := ⟨rfl, hretry, hfinish⟩
      rw [handleArray_update, Function.update_self]
      cases o.tailOk with
      | false =>
        simp only [Bool.false_eq_true, if_false, List.append_nil]
        exact hgone rfl
      | true => simp [requestsOf_cons hreq]
    | done hin huse hretry hdirect status hstatus ulRefCount hcount =>
      left
      rw [handleArray_update, Function.update_self]
      by_cases hfinish : msg.eventType = .stopFinishNotify
      · simp [requestsOf_cons_of_not (hno hfinish)]
      · have hwait : (s.proc.handleArray msg.ulIndex).msgQueue = [] := hdirect.resolve_left hfinish
        have hreq : msg.IsRequest msg.ulIndex := ⟨rfl, hretry, hfinish⟩
        simp [requestsOf_cons hreq, hwait]
    | failed hin huse hretry hdirect =>
      rw [handleArray_update, Function.update_self]
      by_cases hfinish : msg.eventType = .stopFinishNotify
      · left
        cases o.tailOk with
        | false => simp [requestsOf_cons_of_not (hno hfinish)]
        | true => simp [requestsOf_cons_of_not (hno hfinish)]
      · have hwait : (s.proc.handleArray msg.ulIndex).msgQueue = [] := hdirect.resolve_left hfinish
        have hreq : msg.IsRequest msg.ulIndex := ⟨rfl, hretry, hfinish⟩
        cases o.tailOk with
        | false =>
          left
          simp [requestsOf_cons hreq, hwait]
        | true =>
          right
          refine ⟨s.requestsTried msg.ulIndex, requestsOf msg.ulIndex rest, ?_, ?_⟩
          · simp [requestsOf_cons hreq, hwait]
          · simp [requestsOf_cons hreq, hwait]
    | freed hin huse hfinish hstop =>
      left
      rw [handleArray_finish, Function.update_self]
      simp [requestsOf_cons_of_not (hno hfinish), HandleInfo.reset]
    | retried hin huse hretry hstop pEvent rest' hwait status hstatus =>
      left
      have hnot : ¬ msg.IsRequest msg.ulIndex := fun hreq => hreq.2.1 hretry
      have hwait : (s.proc.handleArray msg.ulIndex).msgQueue = [pEvent] ++ rest' := hwait
      rw [handleArray_update, Function.update_self, hwait, requestsOf_append]
      simp [requestsOf_cons_of_not hnot]
  · -- a message of another handle
    have htried : requestsOf i tried.toList = [] := requestsOf_eq_nil fun m hm hreq => hi <|
      hreq.1.symm.trans (hh.tried_ulIndex hown m (Option.mem_toList.mp hm))
    rw [htried, hh.handleArray_of_ne hi]
    exact .inl (((requestsOf_sublist i msg rest).append_left _).append_left _)

theorem Ordered.handle (h : s.Ordered i) (hinv : s.Inv) (o : HandleOutcome) : (s.handle o).Ordered i := by
  rcases hinv.handle_cases o with ⟨-, heq⟩ | ⟨msg, rest, tried, p', hqueue, hh, heq⟩
  · rw [heq]
    exact h
  rw [heq]
  rcases flow_handled hqueue hh (hinv.waiting msg.ulIndex) i with hsub | ⟨as, bs, hold, hnew⟩
  · exact ⟨h.sorted.sublist hsub, fun m hm => h.bound m (hsub.mem hm)⟩
  · refine ⟨?_, fun m hm => h.bound m ?_⟩
    · rw [hnew]
      exact pairwise_stutter le_rfl (hold ▸ h.sorted)
    · rw [hnew] at hm
      rw [hold]
      simpa using hm

theorem Ordered.step (h : s.Ordered i) (hinv : s.Inv) (a : Act) : (s.step a).Ordered i := by
  cases a with
  | allocCheck c szDevID in_type out_type => exact h.frame (frame_allocCheck s c _)
  | allocIndex c => exact h.frame (hinv.frame_allocIndex c)
  | allocInit c egressOk recvOk => exact h.frame (hinv.frame_allocInit c egressOk recvOk)
  | allocInsert c => exact h.frame (frame_allocInsert s c)
  | post j eventType putOk => exact h.post j eventType putOk
  | handle o => exact h.handle hinv o

/-! ## The retry message -/

/-- Something waits, and the handle is not stopping: a retry message is in the main queue. -/
def Armed (s : ProcessorSystem) (i : Nat) : Prop :=
  (s.proc.handleArray i).msgQueue ≠ [] → (s.proc.handleArray i).status ≠ .stop →
    ∃ m ∈ s.proc.msgQueue, m.eventType = .retry ∧ m.ulIndex = i

/-- What is put into queues while the message is handled goes in. -/
def Act.Enqueues : Act → Prop
  | .handle o => o.tailOk = true ∧ o.putOk = true
  | _ => True

instance : ∀ a : Act, Decidable a.Enqueues
  | .handle o => inferInstanceAs (Decidable (o.tailOk = true ∧ o.putOk = true))
  | .allocCheck .. | .allocIndex .. | .allocInit .. | .allocInsert .. | .post .. =>
    inferInstanceAs (Decidable True)

theorem Armed.frame (h : s.Armed i) (hf : Frame s s') (huse : (s.proc.handleArray i).InUse) :
    s'.Armed i := by
  rw [Armed, hf.used i huse, hf.msgQueue]
  exact h

theorem Armed.post (h : s.Armed i) (j : Nat) (eventType : MediaEventType) (putOk : Bool) :
    (s.post j eventType putOk).Armed i := by
  rw [ProcessorSystem.post]
  split_ifs
  · exact h
  · intro hwait hstop
    obtain ⟨m, hm, hretry⟩ := h hwait hstop
    exact ⟨m, List.mem_append_left _ hm, hretry⟩

/-- The retry message in the main queue is still there when another message has been handled. -/
theorem retry_of_cons (hne : msg.eventType ≠ .retry ∨ msg.ulIndex ≠ i)
    (h : ∃ m ∈ msg :: rest, m.eventType = .retry ∧ m.ulIndex = i) (msgs : List MediaEventMsg) :
    ∃ m ∈ rest ++ msgs, m.eventType = .retry ∧ m.ulIndex = i := by
  obtain ⟨m, hm, hretry, hi⟩ := h
  refine ⟨m, List.mem_append_left _ ?_, hretry, hi⟩
  rcases List.mem_cons.mp hm with rfl | hm
  · exact (hne.elim (fun h => h hretry) fun h => h hi).elim
  · exact hm

/-- Something waits behind the message: a retry message is put into the main queue. -/
theorem retry_armed {p : Processor} {waiting : List MediaEventMsg} (hput : o.putOk = true)
    (hwait : waiting ≠ []) : ∃ m ∈ rest ++ p.armed i waiting o, m.eventType = .retry ∧ m.ulIndex = i := by
  refine ⟨p.retryMsg i, List.mem_append_right _ ?_, rfl, rfl⟩
  rw [armed, if_pos ⟨List.length_pos_iff.mpr hwait, hput⟩]
  exact List.mem_singleton_self _

theorem Armed.handle (h : s.Armed i) (hinv : s.Inv) (hlt : i < s.proc.maxHandleNum)
    (hput : o.tailOk = true ∧ o.putOk = true) (huse' : ((s.handle o).proc.handleArray i).InUse) :
    (s.handle o).Armed i := by
  rcases hinv.handle_cases o with ⟨-, heq⟩ | ⟨msg, rest, tried, p', hqueue, hh, heq⟩
  · rw [heq]
    exact h
  rw [heq] at huse' ⊢
  change (p'.handleArray i).InUse at huse'
  intro hwait' hstop'
  change (p'.handleArray i).msgQueue ≠ [] at hwait'
  change (p'.handleArray i).status ≠ .stop at hstop'
  change ∃ m ∈ p'.msgQueue, m.eventType = .retry ∧ m.ulIndex = i
  rw [Armed, hqueue] at h
  by_cases hi : i = msg.ulIndex
  · subst hi
    cases hh with
    | dropped hout => exact absurd hout (not_or.mpr ⟨Nat.not_le.mpr hlt, not_not.mpr huse'⟩)
    | swallowed hin huse hretry hidle => exact absurd hidle (not_or.mpr ⟨hstop', hwait'⟩)
    | deferred hin huse hretry hfinish hwait =>
      rw [handleArray_update, Function.update_self] at hstop'
      exact retry_of_cons (.inl hretry) (h hwait hstop') []
    | done hin huse hretry hdirect status hstatus ulRefCount hcount =>
      rw [handleArray_update, Function.update_self] at hwait'
      exact retry_armed hput.2 hwait'
    | failed hin huse hretry hdirect =>
      refine ⟨retryMsg { s.proc with msgQueue := rest } msg.ulIndex, List.mem_append_right _ ?_, rfl, rfl⟩
      rw [if_pos hput]
      exact List.mem_singleton_self _
    | freed hin huse hfinish hstop =>
      rw [handleArray_finish, Function.update_self] at huse'
      exact absurd (HandleInfo.blank_reset _) huse'.not_blank
    | retried hin huse hretry hstop pEvent rest' hwait status hstatus =>
      rw [handleArray_update, Function.update_self] at hwait'
      exact retry_armed hput.2 hwait'
  · obtain ⟨msgs, hmsgs, -⟩ := hh.msgQueue_eq
    rw [hh.handleArray_of_ne hi] at hwait' hstop'
    rw [hmsgs]
    exact retry_of_cons (.inr (Ne.symm hi)) (h hwait' hstop') msgs

/-! ## Every run -/

/-- Step `a` leaves handle `i` in use, and its messages go into the queues. -/
def Unfreed (i : Nat) (s : ProcessorSystem) (a : Act) : Prop :=
  a.Enqueues ∧ ((s.step a).proc.handleArray i).InUse

instance (i : Nat) (s : ProcessorSystem) (a : Act) : Decidable (s.Unfreed i a) :=
  inferInstanceAs (Decidable (_ ∧ _))

theorem Armed.step (h : s.Armed i) (hinv : s.Inv) (hlt : i < s.proc.maxHandleNum)
    (huse : (s.proc.handleArray i).InUse) {a : Act} (ha : s.Unfreed i a) : (s.step a).Armed i := by
  cases a with
  | allocCheck c szDevID in_type out_type => exact h.frame (frame_allocCheck s c _) huse
  | allocIndex c => exact h.frame (hinv.frame_allocIndex c) huse
  | allocInit c egressOk recvOk => exact h.frame (hinv.frame_allocInit c egressOk recvOk) huse
  | allocInsert c => exact h.frame (frame_allocInsert s c) huse
  | post j eventType putOk => exact h.post j eventType putOk
  | handle o => exact h.handle hinv hlt ha.1 ha.2

/-- A handle is in use in which nothing waits. As long as it is not freed: whenever something waits and
it is not stopping, a retry message for it is in the main queue; and its requests are tried in the order
in which they were posted. -/
theorem run_requests (max_lens : Nat) (before as : List Act) (i : Nat) (hlt : i < max_lens)
    (huse : ((run step (init max_lens) before).proc.handleArray i).InUse)
    (hempty : ((run step (init max_lens) before).proc.handleArray i).msgQueue = [])
    (hrun : Allowed step (Unfreed i) (run step (init max_lens) before) as) :
    let s := run step (run step (init max_lens) before) as
    ((s.proc.handleArray i).msgQueue ≠ [] → (s.proc.handleArray i).status ≠ .stop →
      ∃ m ∈ s.proc.msgQueue, m.eventType = .retry ∧ m.ulIndex = i) ∧
    (s.requestsTried i).Pairwise fun a b => a.seq ≤ b.seq := by
  have hbefore : (run step (init max_lens) before).Inv ∧
      (run step (init max_lens) before).Ordered i := by
    refine run_invariant (I := fun s : ProcessorSystem => s.Inv ∧ s.Ordered i)
      ⟨inv_init max_lens, ?_, ?_⟩ fun _ a h => ⟨h.1.step a, h.2.step h.1 a⟩
    · exact .nil
    · intro m hm
      cases hm
  have hafter := hrun.invariant
    (I := fun s : ProcessorSystem => (s.Inv ∧ s.Ordered i) ∧ i < s.proc.maxHandleNum ∧
      (s.proc.handleArray i).InUse ∧ s.Armed i)
    ⟨hbefore, (run_maxHandleNum max_lens before).symm ▸ hlt, huse, fun hwait => absurd hempty hwait⟩
    fun s a h ha => ⟨⟨h.1.1.step a, h.1.2.step h.1.1 a⟩,
      (maxHandleNum_step h.1.1 a).symm ▸ h.2.1, ha.2, h.2.2.2.step h.1.1 h.2.1 h.2.2.1 ha⟩
  exact ⟨hafter.2.2.2, hafter.1.2.sorted.sublist (List.sublist_append_left _ _)⟩

/-- A start request fails: it waits, with a retry message in the main queue. -/
theorem waitingStart_requests :
    let s := run step (init 1) [.allocCheck 0 [99] 0 0, .allocIndex 0, .allocInit 0 true true,
      .allocInsert 0, .post 0 .startRecord true, .handle ⟨false, true, true, true, true, true⟩]
    (s.proc.handleArray 0).msgQueue ≠ [] ∧ ∃ m ∈ s.proc.msgQueue, m.eventType = .retry ∧ m.ulIndex = 0 := by
  have h := run_requests 1 [.allocCheck 0 [99] 0 0, .allocIndex 0, .allocInit 0 true true,
      .allocInsert 0] [.post 0 .startRecord true, .handle ⟨false, true, true, true, true, true⟩] 0
      (by decide) (by decide) (by decide) (by decide)
  exact ⟨by decide, h.1 (by decide) (by decide)⟩

end ProcessorSystem

end AllCamera
