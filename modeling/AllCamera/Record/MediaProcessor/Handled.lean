import AllCamera.Record.MediaProcessor
import Mathlib.Tactic.SplitIfs

/-!
# What a message does to its handle

* `Handled`: the ways in which a message is handled.
* `handleMessage_cases`: a message is handled in one of them.
* `Handled.handleArray_of_ne`, `Handled.msgQueue_eq`, `Handled.waiting_sublist`, `Handled.freed_of` and
  others: what all of them have in common.
-/

namespace AllCamera

/-- What a handle is allocated for, as it has it. -/
def HandleInfo.devKey (h : HandleInfo) : DevKey := ⟨h.szDevID, h.nInType, h.nOutType⟩

namespace Processor

variable {p : Processor} {i j : Nat} {h : HandleInfo} {msg : MediaEventMsg} {o : HandleOutcome}

@[simp] theorem handleArray_update (p : Processor) (i : Nat) (h : HandleInfo)
    (msgs : List MediaEventMsg) :
    (p.update i h msgs).handleArray = Function.update p.handleArray i h := rfl

@[simp] theorem handleArray_finish (p : Processor) (i : Nat) :
    (p.finish i).handleArray = Function.update p.handleArray i (p.handleArray i).reset := rfl

/-- The retry message for handle `i`. -/
def retryMsg (p : Processor) (i : Nat) : MediaEventMsg :=
  { eventType := .retry, ulIndex := i, seq := 0, owner := (p.handleArray i).owner }

/-- The retry message that is put into the main queue if something waits. -/
def armed (p : Processor) (i : Nat) (waiting : List MediaEventMsg) (o : HandleOutcome) :
    List MediaEventMsg :=
  if 0 < waiting.length ∧ o.putOk then [p.retryMsg i] else []

theorem enqueueRetryIfWaiting_update (p : Processor) (i : Nat) (h : HandleInfo) (o : HandleOutcome)
    (howner : h.owner = (p.handleArray i).owner) :
    (p.update i h []).enqueueRetryIfWaiting i o.putOk = p.update i h (p.armed i h.msgQueue o) := by
  rw [enqueueRetryIfWaiting, armed, retryMsg, ← howner]
  by_cases hwait : 0 < h.msgQueue.length
  · cases hput : o.putOk with
    | true => simp [update, enqueueRetry, hwait]
    | false => simp [update, enqueueRetry]
  · simp [update, hwait]

theorem update_self (p : Processor) (i : Nat) : p.update i (p.handleArray i) [] = p := by
  simp [update]

/-- The ways in which a message is handled: it is dropped; a retry message finds that the handle is
stopping or that nothing waits; the message waits behind others; it is tried, and is done, has to
wait, or frees the handle; a retry message has the first waiting one tried. -/
inductive Handled (p : Processor) (msg : MediaEventMsg) (o : HandleOutcome) :
    Option MediaEventMsg → Processor → Prop
  | dropped (hout : p.maxHandleNum ≤ msg.ulIndex ∨ ¬ (p.handleArray msg.ulIndex).InUse) :
      Handled p msg o none p
  | swallowed (hin : msg.ulIndex < p.maxHandleNum) (huse : (p.handleArray msg.ulIndex).InUse)
      (hretry : msg.eventType = .retry)
      (hidle : (p.handleArray msg.ulIndex).status = .stop ∨
        (p.handleArray msg.ulIndex).msgQueue = []) :
      Handled p msg o none p
  | deferred (hin : msg.ulIndex < p.maxHandleNum) (huse : (p.handleArray msg.ulIndex).InUse)
      (hretry : msg.eventType ≠ .retry) (hfinish : msg.eventType ≠ .stopFinishNotify)
      (hwait : (p.handleArray msg.ulIndex).msgQueue ≠ []) :
      Handled p msg o none (p.update msg.ulIndex
        { p.handleArray msg.ulIndex with
          msgQueue := (p.handleArray msg.ulIndex).msgQueue ++ if o.tailOk then [msg] else [] } [])
  | done (hin : msg.ulIndex < p.maxHandleNum) (huse : (p.handleArray msg.ulIndex).InUse)
      (hretry : msg.eventType ≠ .retry)
      (hdirect : msg.eventType = .stopFinishNotify ∨ (p.handleArray msg.ulIndex).msgQueue = [])
      (status : HandleStatus) (hstatus : status ≠ .invalid) (ulRefCount : UInt32)
      (hcount : ulRefCount = (p.handleArray msg.ulIndex).ulRefCount ∨
        (p.handleArray msg.ulIndex).ulRefCount ≠ 1) :
      Handled p msg o (some msg) (p.update msg.ulIndex
        { p.handleArray msg.ulIndex with status, ulRefCount }
        (p.armed msg.ulIndex (p.handleArray msg.ulIndex).msgQueue o))
  | failed (hin : msg.ulIndex < p.maxHandleNum) (huse : (p.handleArray msg.ulIndex).InUse)
      (hretry : msg.eventType ≠ .retry)
      (hdirect : msg.eventType = .stopFinishNotify ∨ (p.handleArray msg.ulIndex).msgQueue = []) :
      Handled p msg o (some msg) (p.update msg.ulIndex
        { p.handleArray msg.ulIndex with
          msgQueue := (p.handleArray msg.ulIndex).msgQueue ++ if o.tailOk then [msg] else [] }
        (if o.tailOk ∧ o.putOk then [p.retryMsg msg.ulIndex] else []))
  | freed (hin : msg.ulIndex < p.maxHandleNum) (huse : (p.handleArray msg.ulIndex).InUse)
      (hfinish : msg.eventType = .stopFinishNotify)
      (hstop : (p.handleArray msg.ulIndex).status = .stop) :
      Handled p msg o (some msg) (p.finish msg.ulIndex)
  | retried (hin : msg.ulIndex < p.maxHandleNum) (huse : (p.handleArray msg.ulIndex).InUse)
      (hretry : msg.eventType = .retry) (hstop : (p.handleArray msg.ulIndex).status ≠ .stop)
      (pEvent : MediaEventMsg) (rest : List MediaEventMsg)
      (hwait : (p.handleArray msg.ulIndex).msgQueue = pEvent :: rest)
      (status : HandleStatus) (hstatus : status ≠ .invalid) :
      Handled p msg o (some pEvent) (p.update msg.ulIndex
        { p.handleArray msg.ulIndex with status, msgQueue := rest } (p.armed msg.ulIndex rest o))

/-- A message that can not be done leaves the handle as it is. -/
theorem handleStandMessage_fails (hr : (p.handleStandMessage msg o).1 = false) :
    (p.handleStandMessage msg o).2 = p := by
  rw [handleStandMessage] at hr ⊢
  cases hkind : msg.eventType with
  | startRecord =>
    simp only [hkind, handleStartRecordMsg] at hr ⊢
    split_ifs at hr ⊢
    all_goals rfl
  | stopRecord =>
    simp only [hkind, handleStopRecordMsg] at hr ⊢
    split_ifs at hr ⊢
    all_goals rfl
  | recordKeyFrame =>
    simp only [hkind] at hr ⊢
    split_ifs at hr ⊢
    rfl
  | setTimeRemove =>
    simp only [hkind] at hr ⊢
    split_ifs at hr ⊢
    rfl
  | stopFinishNotify =>
    simp only [hkind, handleStopFinishNotifyMsg] at hr ⊢
    split_ifs at hr ⊢
    rfl
  | retry =>
    rw [hkind] at hr
    cases hr

/-- A message that is done changes the status, or it is the notification that the recording has
stopped. -/
theorem handleStandMessage_ok (huse : (p.handleArray msg.ulIndex).InUse)
    (hr : (p.handleStandMessage msg o).1 = true) :
    (∃ status ≠ HandleStatus.invalid, (p.handleStandMessage msg o).2 =
        p.update msg.ulIndex { p.handleArray msg.ulIndex with status }
          (p.armed msg.ulIndex (p.handleArray msg.ulIndex).msgQueue o)) ∨
      msg.eventType = .stopFinishNotify ∧ (p.handleArray msg.ulIndex).status = .stop ∧
        ((p.handleStandMessage msg o).2 = p.finish msg.ulIndex ∨
          (p.handleArray msg.ulIndex).ulRefCount ≠ 1 ∧ ∃ ulRefCount,
            (p.handleStandMessage msg o).2 =
              p.update msg.ulIndex { p.handleArray msg.ulIndex with status := .init, ulRefCount }
                (p.armed msg.ulIndex (p.handleArray msg.ulIndex).msgQueue o)) := by
  -- what only puts a retry message into the queue keeps the status
  have hsame : p.enqueueRetryIfWaiting msg.ulIndex o.putOk =
      p.update msg.ulIndex { p.handleArray msg.ulIndex with
        status := (p.handleArray msg.ulIndex).status }
        (p.armed msg.ulIndex (p.handleArray msg.ulIndex).msgQueue o) := by
    have := enqueueRetryIfWaiting_update p msg.ulIndex (p.handleArray msg.ulIndex) o rfl
    rwa [update_self] at this
  rw [handleStandMessage] at hr ⊢
  cases hkind : msg.eventType with
  | startRecord =>
    simp only [hkind, handleStartRecordMsg] at hr ⊢
    split_ifs at hr ⊢
    exact .inl ⟨.start, by decide, enqueueRetryIfWaiting_update p msg.ulIndex _ o rfl⟩
  | stopRecord =>
    simp only [hkind, handleStopRecordMsg] at hr ⊢
    split_ifs at hr ⊢
    exact .inl ⟨.stop, by decide, enqueueRetryIfWaiting_update p msg.ulIndex _ o rfl⟩
  | recordKeyFrame =>
    simp only [hkind] at hr ⊢
    split_ifs at hr ⊢
    exact .inl ⟨_, huse.1, hsame⟩
  | setTimeRemove =>
    simp only [hkind] at hr ⊢
    split_ifs at hr ⊢
    exact .inl ⟨_, huse.1, hsame⟩
  | stopFinishNotify =>
    simp only [hkind, handleStopFinishNotifyMsg] at hr ⊢
    split_ifs at hr ⊢ with hstop hlast
    · exact .inr ⟨trivial, not_not.mp hstop, .inl rfl⟩
    · refine .inr ⟨trivial, not_not.mp hstop, .inr ⟨fun hone => hlast (by rw [hone]; rfl),
        (p.handleArray msg.ulIndex).ulRefCount - 1, ?_⟩⟩
      exact enqueueRetryIfWaiting_update p msg.ulIndex _ o rfl
  | retry => exact .inl ⟨_, huse.1, hsame⟩

/-- The first waiting message is tried. -/
theorem handleRetryMessage_cases {pEvent : MediaEventMsg} {rest : List MediaEventMsg}
    (hin : msg.ulIndex < p.maxHandleNum) (huse : (p.handleArray msg.ulIndex).InUse)
    (hretry : msg.eventType = .retry) (hstop : (p.handleArray msg.ulIndex).status ≠ .stop)
    (hwait : (p.handleArray msg.ulIndex).msgQueue = pEvent :: rest)
    (hpEvent : pEvent.ulIndex = msg.ulIndex) :
    Handled p msg o (p.handleRetryMessage msg.ulIndex o).1 (p.handleRetryMessage msg.ulIndex o).2 := by
  have hretried := Handled.retried (o := o) hin huse hretry hstop pEvent rest hwait
  rw [handleRetryMessage]
  simp only [hstop, hwait, if_false]
  generalize hp : p.update msg.ulIndex { p.handleArray msg.ulIndex with msgQueue := rest } [] = p'
  have hhandle : p'.handleArray pEvent.ulIndex =
      { p.handleArray msg.ulIndex with msgQueue := rest } := by
    rw [← hp, hpEvent, handleArray_update, Function.update_self]
  -- handle `i` is changed twice
  have htwice : ∀ (h : HandleInfo) (msgs : List MediaEventMsg),
      p'.update msg.ulIndex h msgs = p.update msg.ulIndex h msgs := by
    intro h msgs
    rw [← hp]
    simp [update]
  have harmed : p'.armed msg.ulIndex rest o = p.armed msg.ulIndex rest o := by
    rw [armed, armed, retryMsg, retryMsg, ← hpEvent, hhandle, hpEvent]
  cases hr : (p'.handleStandMessage pEvent o).1 with
  | true =>
    simp only [if_true]
    rcases handleStandMessage_ok (by rw [hhandle]; exact huse) hr with
      ⟨status, hstatus, heq⟩ | ⟨-, hstop', -⟩
    · rw [heq, hhandle, hpEvent, htwice, harmed]
      exact hretried status hstatus
    · rw [hhandle] at hstop'
      exact absurd hstop' hstop
  | false =>
    rw [handleStandMessage_fails hr]
    by_cases hstart : pEvent.eventType = .startRecord
    · simp only [hstart, if_true, setStatus, Bool.false_eq_true, if_false]
      rw [hpEvent] at hhandle
      rw [hhandle, htwice, enqueueRetryIfWaiting_update]
      · exact hretried .start (by decide)
      · rfl
    · simp only [hstart, if_false, Bool.false_eq_true]
      rw [← hp, enqueueRetryIfWaiting_update]
      · exact hretried _ huse.1
      · rfl

/-- A message is handled in one of these ways, if those that wait for its handle are for it. -/
theorem handleMessage_cases
    (hown : ∀ m ∈ (p.handleArray msg.ulIndex).msgQueue, m.ulIndex = msg.ulIndex) :
    Handled p msg o (p.handleMessage msg o).1 (p.handleMessage msg o).2 := by
  have hsame : p.update msg.ulIndex { p.handleArray msg.ulIndex with
      msgQueue := (p.handleArray msg.ulIndex).msgQueue } [] = p := update_self p msg.ulIndex
  rw [handleMessage]
  by_cases hin : p.maxHandleNum ≤ msg.ulIndex
  · simp only [hin, if_true]
    exact .dropped (.inl hin)
  by_cases huse : (p.handleArray msg.ulIndex).InUse
  · have hin := Nat.not_le.mp hin
    have hout : ¬ ((p.handleArray msg.ulIndex).status = .invalid ∨
        (p.handleArray msg.ulIndex).pRecvStream = false ∨
        (p.handleArray msg.ulIndex).pFileEgress = false) := by
      rintro (h | h | h)
      · exact huse.1 h
      · exact Bool.false_ne_true (h.symm.trans huse.2.1)
      · exact Bool.false_ne_true (h.symm.trans huse.2.2)
    simp only [Nat.not_le.mpr hin, hout, if_false]
    by_cases hretry : msg.eventType = .retry
    · rw [if_pos hretry]
      by_cases hstop : (p.handleArray msg.ulIndex).status = .stop
      · rw [handleRetryMessage, if_pos hstop]
        exact .swallowed hin huse hretry (.inl hstop)
      cases hwait : (p.handleArray msg.ulIndex).msgQueue with
      | nil =>
        simp only [handleRetryMessage, hstop, hwait, if_false]
        exact .swallowed hin huse hretry (.inr hwait)
      | cons pEvent rest =>
        have hpEvent : pEvent.ulIndex = msg.ulIndex := hown pEvent (hwait ▸ List.mem_cons_self)
        exact handleRetryMessage_cases hin huse hretry hstop hwait hpEvent
    · rw [if_neg hretry]
      by_cases hwait : 0 < (p.handleArray msg.ulIndex).msgQueue.length ∧
          msg.eventType ≠ .stopFinishNotify
      · rw [if_pos hwait]
        have hdeferred := Handled.deferred (o := o) hin huse hretry hwait.2
          (List.length_pos_iff.mp hwait.1)
        cases htail : o.tailOk with
        | true => simpa [htail] using hdeferred
        | false =>
          simp only [htail, Bool.false_eq_true, if_false, List.append_nil, hsame] at hdeferred ⊢
          exact hdeferred
      · rw [if_neg hwait]
        have hdirect : msg.eventType = .stopFinishNotify ∨
            (p.handleArray msg.ulIndex).msgQueue = [] := by
          rw [not_and_or, not_not, List.length_pos_iff, not_not] at hwait
          exact hwait.symm
        cases hr : (p.handleStandMessage msg o).1 with
        | true =>
          simp only [if_true]
          rcases handleStandMessage_ok huse hr with ⟨status, hstatus, heq⟩ | ⟨hfinish, hstop, heq⟩
          · rw [heq]
            exact .done hin huse hretry hdirect status hstatus _ (.inl rfl)
          · rcases heq with heq | ⟨hcount, ulRefCount, heq⟩
            · rw [heq]
              exact .freed hin huse hfinish hstop
            · rw [heq]
              exact .done hin huse hretry hdirect .init (by decide) ulRefCount (.inr hcount)
        | false =>
          have hfailed := Handled.failed (o := o) hin huse hretry hdirect
          rw [handleStandMessage_fails hr]
          cases htail : o.tailOk with
          | true =>
            cases hput : o.putOk with
            | true => simpa [htail, hput, update, enqueueRetry, retryMsg] using hfailed
            | false => simpa [htail, hput, update, enqueueRetry] using hfailed
          | false =>
            simp only [htail, Bool.false_eq_true, false_and, if_false, List.append_nil,
              hsame] at hfailed ⊢
            exact hfailed
  · have hdrop : (p.handleArray msg.ulIndex).status = .invalid ∨
        (p.handleArray msg.ulIndex).pRecvStream = false ∨
        (p.handleArray msg.ulIndex).pFileEgress = false := by
      by_contra hne
      rw [not_or, not_or, Bool.not_eq_false, Bool.not_eq_false] at hne
      exact huse ⟨hne.1, hne.2.1, hne.2.2⟩
    simp only [hin, hdrop, if_true, if_false]
    exact .dropped (.inr huse)

/-- The notification that the recording has stopped frees the handle if it is stopping. -/
theorem handleMessage_finish (hin : msg.ulIndex < p.maxHandleNum)
    (huse : (p.handleArray msg.ulIndex).InUse) (hfinish : msg.eventType = .stopFinishNotify)
    (hstop : (p.handleArray msg.ulIndex).status = .stop)
    (hcount : (p.handleArray msg.ulIndex).ulRefCount = 1) :
    p.handleMessage msg o = (some msg, p.finish msg.ulIndex) := by
  have hout : ¬ p.maxHandleNum ≤ msg.ulIndex := Nat.not_le.mpr hin
  simp [handleMessage, hout, hstop, huse.2.1, huse.2.2, hfinish, handleStandMessage,
    handleStopFinishNotifyMsg, hcount]

/-- The handles are in use for the same as before. -/
structure Kept (p p' : Processor) : Prop where
  freeIndexList : p'.freeIndexList = p.freeIndexList
  devIndexMap : p'.devIndexMap = p.devIndexMap
  inUse : ∀ j, (p'.handleArray j).InUse ↔ (p.handleArray j).InUse
  devKey : ∀ j, (p'.handleArray j).devKey = (p.handleArray j).devKey

namespace Handled

variable {tried : Option MediaEventMsg} {p' : Processor}

/-- The other handles are left as they are. -/
theorem handleArray_of_ne (hh : Handled p msg o tried p') (hj : j ≠ msg.ulIndex) :
    p'.handleArray j = p.handleArray j := by
  cases hh with
  | dropped => rfl
  | swallowed => rfl
  | _ => exact Function.update_of_ne hj _ _

/-- A message of the handle is tried. -/
theorem tried_ulIndex (hh : Handled p msg o tried p')
    (hown : ∀ m ∈ (p.handleArray msg.ulIndex).msgQueue, m.ulIndex = msg.ulIndex) :
    ∀ m ∈ tried, m.ulIndex = msg.ulIndex := by
  intro m hm
  cases hh with
  | retried _ _ _ _ pEvent rest hwait =>
    rw [← Option.mem_some.mp hm]
    exact hown pEvent (hwait ▸ List.mem_cons_self)
  | dropped => cases hm
  | swallowed => cases hm
  | deferred => cases hm
  | _ => rw [← Option.mem_some.mp hm]

/-- A message is tried that is no retry message, or one that waits. -/
theorem tried_mem (hh : Handled p msg o tried p') :
    ∀ m ∈ tried, (p.handleArray msg.ulIndex).InUse ∧
      (m ∈ (p.handleArray msg.ulIndex).msgQueue ∨ m = msg ∧ msg.eventType ≠ .retry) := by
  intro m hm
  cases hh with
  | dropped => cases hm
  | swallowed => cases hm
  | deferred => cases hm
  | done hin huse hretry => exact ⟨huse, .inr ⟨(Option.mem_some.mp hm).symm, hretry⟩⟩
  | failed hin huse hretry => exact ⟨huse, .inr ⟨(Option.mem_some.mp hm).symm, hretry⟩⟩
  | freed hin huse hfinish =>
    refine ⟨huse, .inr ⟨(Option.mem_some.mp hm).symm, fun hretry => ?_⟩⟩
    rw [hfinish] at hretry
    cases hretry
  | retried hin huse hretry hstop pEvent rest hwait =>
    rw [← Option.mem_some.mp hm, hwait]
    exact ⟨huse, .inl List.mem_cons_self⟩

/-- Those that waited wait, or fewer, and the message may wait behind them. -/
theorem waiting_sublist (hh : Handled p msg o tried p') :
    (p'.handleArray msg.ulIndex).msgQueue.Sublist
      ((p.handleArray msg.ulIndex).msgQueue ++ if msg.eventType = .retry then [] else [msg]) := by
  have htail : msg.eventType ≠ .retry →
      ((p.handleArray msg.ulIndex).msgQueue ++ if o.tailOk then [msg] else []).Sublist
        ((p.handleArray msg.ulIndex).msgQueue ++ if msg.eventType = .retry then [] else [msg]) := by
    intro hretry
    rw [if_neg hretry]
    cases o.tailOk with
    | true => exact .refl _
    | false => exact (List.nil_sublist _).append_left _
  cases hh with
  | dropped => exact List.sublist_append_left _ _
  | swallowed => exact List.sublist_append_left _ _
  | deferred hin huse hretry =>
    rw [handleArray_update, Function.update_self]
    exact htail hretry
  | done =>
    rw [handleArray_update, Function.update_self]
    exact List.sublist_append_left _ _
  | failed hin huse hretry =>
    rw [handleArray_update, Function.update_self]
    exact htail hretry
  | freed =>
    rw [handleArray_finish, Function.update_self]
    exact List.sublist_append_left _ _
  | retried hin huse hretry hstop pEvent rest hwait =>
    rw [handleArray_update, Function.update_self, hwait]
    exact (List.sublist_cons_self pEvent rest).trans (List.sublist_append_left _ _)

/-- For a handle that is not in use nothing is done. -/
theorem eq_of_not_inUse (hh : Handled p msg o tried p')
    (hnot : ¬ (p.handleArray msg.ulIndex).InUse) : p' = p := by
  cases hh with
  | dropped => rfl
  | swallowed => rfl
  | deferred hin huse => exact absurd huse hnot
  | done hin huse => exact absurd huse hnot
  | failed hin huse => exact absurd huse hnot
  | freed hin huse => exact absurd huse hnot
  | retried hin huse => exact absurd huse hnot

/-- A message takes no handle into use. -/
theorem inUse_of (hh : Handled p msg o tried p') (j : Nat) (huse' : (p'.handleArray j).InUse) :
    (p.handleArray j).InUse := by
  by_cases hj : j = msg.ulIndex
  · subst hj
    cases hh with
    | dropped => exact huse'
    | swallowed hin huse => exact huse
    | deferred hin huse => exact huse
    | done hin huse => exact huse
    | failed hin huse => exact huse
    | freed hin huse => exact huse
    | retried hin huse => exact huse
  · rwa [hh.handleArray_of_ne hj] at huse'

/-- A handle is taken out of use by the notification that its recording has stopped. -/
theorem freed_of (hh : Handled p msg o tried p') (huse : (p.handleArray i).InUse)
    (hnot : ¬ (p'.handleArray i).InUse) : i = msg.ulIndex ∧ msg.eventType = .stopFinishNotify ∧
      (p.handleArray i).status = .stop ∧ p' = p.finish i := by
  by_cases hi : i = msg.ulIndex
  · subst hi
    cases hh with
    | dropped => exact absurd huse hnot
    | swallowed => exact absurd huse hnot
    | deferred =>
      rw [handleArray_update, Function.update_self] at hnot
      exact absurd huse hnot
    | done hin _ hretry hdirect status hstatus =>
      rw [handleArray_update, Function.update_self] at hnot
      exact absurd ⟨hstatus, huse.2⟩ hnot
    | failed =>
      rw [handleArray_update, Function.update_self] at hnot
      exact absurd huse hnot
    | freed hin _ hfinish hstop => exact ⟨rfl, hfinish, hstop, rfl⟩
    | retried hin _ hretry hstop pEvent rest hwait status hstatus =>
      rw [handleArray_update, Function.update_self] at hnot
      exact absurd ⟨hstatus, huse.2⟩ hnot
  · rw [hh.handleArray_of_ne hi] at hnot
    exact absurd huse hnot

/-- The message frees its handle, or it leaves what handles are allocated for as it is. -/
theorem freed_or_kept (hh : Handled p msg o tried p') :
    (msg.ulIndex < p.maxHandleNum ∧ (p.handleArray msg.ulIndex).InUse ∧
      msg.eventType = .stopFinishNotify ∧ (p.handleArray msg.ulIndex).status = .stop ∧
        p' = p.finish msg.ulIndex) ∨ Kept p p' := by
  have hupdate : ∀ (h : HandleInfo) (msgs : List MediaEventMsg),
      (h.InUse ↔ (p.handleArray msg.ulIndex).InUse) →
      h.devKey = (p.handleArray msg.ulIndex).devKey → Kept p (p.update msg.ulIndex h msgs) := by
    intro h msgs huse hkey
    refine ⟨rfl, rfl, fun j => ?_, fun j => ?_⟩
    · by_cases hj : j = msg.ulIndex
      · rw [handleArray_update, hj, Function.update_self, huse]
      · rw [handleArray_update, Function.update_of_ne hj]
    · by_cases hj : j = msg.ulIndex
      · rw [handleArray_update, hj, Function.update_self, hkey]
      · rw [handleArray_update, Function.update_of_ne hj]
  cases hh with
  | dropped => exact .inr ⟨rfl, rfl, fun _ => Iff.rfl, fun _ => rfl⟩
  | swallowed => exact .inr ⟨rfl, rfl, fun _ => Iff.rfl, fun _ => rfl⟩
  | deferred => exact .inr (hupdate _ _ Iff.rfl rfl)
  | done hin huse hretry hdirect status hstatus =>
    exact .inr (hupdate _ _ (iff_of_true ⟨hstatus, huse.2⟩ huse) rfl)
  | failed => exact .inr (hupdate _ _ Iff.rfl rfl)
  | freed hin huse hfinish hstop => exact .inl ⟨hin, huse, hfinish, hstop, rfl⟩
  | retried hin huse hretry hstop pEvent rest hwait status hstatus =>
    exact .inr (hupdate _ _ (iff_of_true ⟨hstatus, huse.2⟩ huse) rfl)

/-- Only retry messages for the handle are put into the main queue. -/
theorem msgQueue_eq (hh : Handled p msg o tried p') :
    ∃ msgs, p'.msgQueue = p.msgQueue ++ msgs ∧ ∀ m ∈ msgs, m = p.retryMsg msg.ulIndex := by
  have harmed : ∀ waiting, ∀ m ∈ p.armed msg.ulIndex waiting o, m = p.retryMsg msg.ulIndex := by
    intro waiting m hm
    rw [armed] at hm
    split_ifs at hm
    · exact List.mem_singleton.mp hm
    · cases hm
  have hnone : ∀ m ∈ ([] : List MediaEventMsg), m = p.retryMsg msg.ulIndex := by
    intro m hm
    cases hm
  cases hh with
  | dropped => exact ⟨[], (List.append_nil _).symm, hnone⟩
  | swallowed => exact ⟨[], (List.append_nil _).symm, hnone⟩
  | deferred => exact ⟨[], rfl, hnone⟩
  | done => exact ⟨_, rfl, harmed _⟩
  | failed =>
    refine ⟨_, rfl, fun m hm => ?_⟩
    split_ifs at hm
    · exact List.mem_singleton.mp hm
    · cases hm
  | freed => exact ⟨[], rfl, hnone⟩
  | retried => exact ⟨_, rfl, harmed _⟩

/-- The owner of a handle is not changed. -/
theorem owner_eq (hh : Handled p msg o tried p') (j : Nat) :
    (p'.handleArray j).owner = (p.handleArray j).owner := by
  by_cases hj : j = msg.ulIndex
  · rw [hj]
    cases hh with
    | dropped => rfl
    | swallowed => rfl
    | _ => exact (congrArg HandleInfo.owner (Function.update_self _ _ p.handleArray)).trans rfl
  · rw [hh.handleArray_of_ne hj]

end Handled

end Processor

end AllCamera
