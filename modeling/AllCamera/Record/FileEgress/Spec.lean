import AllCamera.Record.FileEgress
import Mathlib.Tactic.SplitIfs
import Mathlib.Data.List.Basic

/-!
# What the functions of the file egress do to the list of parameters

* `Kept`, `Writes`, `Submits`, `submit_spec`: `write` leaves the list as it is or puts its parameter to the end.
* `Drains`, `handleFinished_drains`: the second loop of `on_write_finish` handles the parameters at the
  front that have finished.
* `kept_markFinished`: the first loop marks the first parameter with the index.
* `InTime`: no parameter is overdue behind one that is handled; `InTime.crashed`.
* `Marks`, `StaysOpen`: what they do to the members from which `close` is decided.
-/

namespace AllCamera

namespace FileEgress

variable {e e' : FileEgress} {m : MediaMemory} {i t : Nat} {p : CallBackParam} {now : Int}
  {indexOk : Nat → Bool}

/-! ## A call of `write` -/

/-- The list, the index and the parameters are left as they are. -/
structure Kept (e e' : FileEgress) : Prop where
  ulWriteIndex : e'.ulWriteIndex = e.ulWriteIndex
  param : e'.param = e.param
  list : e'.mediaCallbackParamList = e.mediaCallbackParamList
  handled : e'.handled = e.handled
  updates : e'.updates = e.updates
  crashed : e'.crashed = e.crashed

/-- The same for the members from which `close` is decided: at most a file is opened, and the record is not
closed. -/
structure Writes (e e' : FileEgress) : Prop extends Kept e e' where
  egressStatus : e'.egressStatus = .closed → e.egressStatus = .closed
  recordFileFD : e.recordFileFD = true → e'.recordFileFD = true
  received : e'.ullAllRecvedDataSize = e.ullAllRecvedDataSize
  written : e'.ullWriteDataSize = e.ullWriteDataSize
  finished : e'.finished = e.finished

/-- A parameter is put into the list; this needs a file. -/
structure Submits (e : FileEgress) (i : Nat) (place : MediaPlace) (e' : FileEgress) : Prop where
  ulWriteIndex : e'.ulWriteIndex = e.ulWriteIndex + 1
  param : ∃ p : CallBackParam, e'.param = Function.update e.param i p ∧
    p.ulWriteIndex = e.ulWriteIndex + 1 ∧ p.pMediaData = some place ∧ p.bIsFinished = false
  list : e'.mediaCallbackParamList = e.mediaCallbackParamList ++ [i]
  handled : e'.handled = e.handled
  updates : e'.updates = e.updates
  crashed : e'.crashed = e.crashed
  egressStatus : e'.egressStatus = .closed → e.egressStatus = .closed
  recordFileFD : e'.recordFileFD = true
  received : e'.ullAllRecvedDataSize = e.ullAllRecvedDataSize
  written : e'.ullWriteDataSize = e.ullWriteDataSize
  finished : e'.finished = e.finished

theorem Kept.refl (e : FileEgress) : Kept e e := ⟨rfl, rfl, rfl, rfl, rfl, rfl⟩

theorem Kept.trans {e'' : FileEgress} (h : Kept e e') (h' : Kept e' e'') : Kept e e'' :=
  ⟨h'.ulWriteIndex.trans h.ulWriteIndex, h'.param.trans h.param, h'.list.trans h.list,
    h'.handled.trans h.handled, h'.updates.trans h.updates, h'.crashed.trans h.crashed⟩

theorem Writes.trans {e'' : FileEgress} (h : Writes e e') (h' : Writes e' e'') : Writes e e'' :=
  ⟨h.toKept.trans h'.toKept, fun hclosed => h.egressStatus (h'.egressStatus hclosed),
    fun hfile => h'.recordFileFD (h.recordFileFD hfile), h'.received.trans h.received,
    h'.written.trans h.written, h'.finished.trans h.finished⟩

theorem Writes.submits {e'' : FileEgress} {place : MediaPlace} (h : Writes e e')
    (h' : Submits e' i place e'') : Submits e i place e'' := by
  obtain ⟨p, hp⟩ := h'.param
  rw [h.param, h.ulWriteIndex] at hp
  exact ⟨h.ulWriteIndex ▸ h'.ulWriteIndex, ⟨p, hp⟩, h.list ▸ h'.list, h'.handled.trans h.handled,
    h'.updates.trans h.updates, h'.crashed.trans h.crashed,
    fun hclosed => h.egressStatus (h'.egressStatus hclosed), h'.recordFileFD, h'.received.trans h.received,
    h'.written.trans h.written, h'.finished.trans h.finished⟩

theorem writes_openFile (e : FileEgress) (dataTime : Int) (r : OpenResult) :
    Writes e (e.openFile dataTime r).2 := by
  cases r with
  | ok => exact ⟨⟨rfl, rfl, rfl, rfl, rfl, rfl⟩, id, fun _ => rfl, rfl, rfl, rfl⟩
  | noName => exact ⟨⟨rfl, rfl, rfl, rfl, rfl, rfl⟩, id, fun _ => rfl, rfl, rfl, rfl⟩
  | noRaid =>
    exact ⟨⟨rfl, rfl, rfl, rfl, rfl, rfl⟩, fun h => EgressStatus.noConfusion h, id, rfl, rfl, rfl⟩
  | fails =>
    exact ⟨⟨rfl, rfl, rfl, rfl, rfl, rfl⟩, fun h => EgressStatus.noConfusion h, id, rfl, rfl, rfl⟩

theorem writes_openTurn (e : FileEgress) (p : CallBackParam) (recvFrameTime : Int) (r : OpenResult) :
    Writes e (e.openTurn p recvFrameTime r).2 := by
  have hopen := writes_openFile e recvFrameTime r
  rw [openTurn]
  split
  · simp only
    split
    · exact { hopen with egressStatus := fun h => EgressStatus.noConfusion h }
    · exact hopen
  · exact ⟨.refl e, id, id, rfl, rfl, rfl⟩

/-- What a turn of the loop does. -/
def TurnSpec (e : FileEgress) (i : Nat) (place : MediaPlace) : TurnResult → Prop
  | .submitted _ e' => Submits e i place e'
  | .failed e' | .again e' => Writes e e'

theorem writeTurn_spec {place : MediaPlace} (hplace : p.pMediaData = some place)
    (hfinished : p.bIsFinished = false) (recvFrameTime : Int) (turn : Turn) :
    TurnSpec e i place (e.writeTurn i p recvFrameTime turn) := by
  rw [writeTurn]
  have hopen := writes_openTurn e p recvFrameTime turn.opened
  generalize e.openTurn p recvFrameTime turn.opened = r at hopen ⊢
  obtain ⟨ok, e'⟩ := r
  have hindex : e'.ulWriteIndex = e.ulWriteIndex := hopen.ulWriteIndex
  have hparam : e'.param = e.param := hopen.param
  have hlist : e'.mediaCallbackParamList = e.mediaCallbackParamList := hopen.list
  cases ok with
  | false => exact hopen
  | true =>
    simp only [Bool.not_true, Bool.false_eq_true, if_false]
    cases hqueue : (if e'.recordFileFD = true then turn.queue else none) with
    | some t =>
      have hfile : e'.recordFileFD = true := by
        by_contra hno
        rw [if_neg hno] at hqueue
        cases hqueue
      simp only [hindex, hparam, hlist]
      exact ⟨rfl, ⟨_, rfl, rfl, hplace, hfinished⟩, rfl, hopen.handled, hopen.updates, hopen.crashed,
        hopen.egressStatus, hfile, hopen.received, hopen.written, hopen.finished⟩
    | none =>
      have hback : e'.ulWriteIndex + 1 - 1 = e.ulWriteIndex := by
        rw [UInt32.add_sub_cancel, hindex]
      simp only
      split
      · exact ⟨⟨hback, hparam, hlist, hopen.handled, hopen.updates, hopen.crashed⟩,
          fun h => EgressStatus.noConfusion h, hopen.recordFileFD, hopen.received, hopen.written, hopen.finished⟩
      · exact ⟨⟨hback, hparam, hlist, hopen.handled, hopen.updates, hopen.crashed⟩, hopen.egressStatus,
          hopen.recordFileFD, hopen.received, hopen.written, hopen.finished⟩

/-- What a call of `write` does up to the count. -/
def SubmitSpec (e : FileEgress) (i : Nat) (place : MediaPlace) : Option Nat × FileEgress → Prop
  | (some _, e') => Submits e i place e'
  | (none, e') => Writes e e'

/-- A call of `write` puts its parameter into the list, or leaves the list as it is. -/
theorem submit_spec (e : FileEgress) (i : Nat) (place : MediaPlace) (recvFrameTime now : Int)
    (first second : Turn) : SubmitSpec e i place (e.submit i place recvFrameTime now first second) := by
  rw [submit]
  generalize hp : (CallBackParam.mk _ (some place) 0 now false 0) = p
  have hplace : p.pMediaData = some place := hp ▸ rfl
  have hfinished : p.bIsFinished = false := hp ▸ rfl
  have hfirst := writeTurn_spec (e := e) (i := i) hplace hfinished recvFrameTime first
  cases hturn : e.writeTurn i p recvFrameTime first with
  | submitted t e' =>
    rw [hturn] at hfirst
    exact hfirst
  | failed e' =>
    rw [hturn] at hfirst
    exact hfirst
  | again e' =>
    rw [hturn] at hfirst
    simp only
    have hsecond : TurnSpec e' i place
        (e'.writeTurn i { p with ulChangeRecordFile := true } recvFrameTime second) :=
      writeTurn_spec (p := { p with ulChangeRecordFile := true }) hplace hfinished recvFrameTime second
    cases hturn' : e'.writeTurn i { p with ulChangeRecordFile := true } recvFrameTime second with
    | submitted t e'' =>
      rw [hturn'] at hsecond
      exact hfirst.submits hsecond
    | failed e'' =>
      rw [hturn'] at hsecond
      exact hfirst.trans hsecond
    | again e'' =>
      rw [hturn'] at hsecond
      exact hfirst.trans hsecond

/-! ## A callback -/

/-- What is read for the index update of write `i`. -/
def updateOf (m : MediaMemory) (i : Nat) (place : MediaPlace) (write_result : Int32) :
    List (Nat × Option MediaData) :=
  if write_result = svsResultOk then [(i, m.read place)] else []

theorem kept_setError (e : FileEgress) : Kept e e.setError := by
  rw [setError]
  split
  · exact ⟨rfl, rfl, rfl, rfl, rfl, rfl⟩
  · exact .refl e

theorem kept_handleWriteCallBackParam (e : FileEgress) (m : MediaMemory) (i : Nat)
    (place : MediaPlace) (write_result : Int32) (ok : Bool) :
    Kept { e with
      handled := e.handled ++ [(i, write_result)]
      updates := e.updates ++ updateOf m i place write_result }
      (e.handleWriteCallBackParam m i place write_result ok) := by
  have hresult : ∀ e0 : FileEgress,
      Kept { e0 with updates := e0.updates ++ updateOf m i place write_result }
        (if write_result = svsResultOk then
          if (e0.updateRecordIndex m i place ok).1 then (e0.updateRecordIndex m i place ok).2
          else (e0.updateRecordIndex m i place ok).2.setError
        else e0.setError) := by
    intro e0
    rw [updateOf]
    split
    · split
      · exact .refl _
      · exact kept_setError _
    · rw [List.append_nil]
      exact kept_setError _
  have hkept := hresult { e with handled := e.handled ++ [(i, write_result)] }
  rw [handleWriteCallBackParam]
  simp only
  generalize (if write_result = svsResultOk then _ else _ : FileEgress) = e1 at hkept ⊢
  split
  · exact ⟨hkept.ulWriteIndex, hkept.param, hkept.list, hkept.handled, hkept.updates, hkept.crashed⟩
  · exact hkept

/-- What is read for the index update of write `i` with a parameter. -/
def updateOfParam (m : MediaMemory) (p : CallBackParam) (i : Nat) : List (Nat × Option MediaData) :=
  match p.pMediaData with
  | some place => updateOf m i place p.nWriteRet
  | none => []

theorem mem_updateOfParam {u : Nat × Option MediaData} : u ∈ updateOfParam m p i ↔
    u.1 = i ∧ p.nWriteRet = svsResultOk ∧ ∃ place, p.pMediaData = some place ∧ u.2 = m.read place := by
  obtain ⟨j, bytes⟩ := u
  rw [updateOfParam]
  cases hdata : p.pMediaData with
  | none =>
    refine iff_of_false List.not_mem_nil ?_
    rintro ⟨-, -, place, hplace, -⟩
    cases hplace
  | some place =>
    simp only [updateOf]
    split
    · next hok =>
      rw [List.mem_singleton, Prod.mk.injEq]
      exact ⟨fun h => ⟨h.1, hok, place, rfl, h.2⟩, fun ⟨hj, _, _, hplace, hread⟩ =>
        ⟨hj, Option.some_inj.mp hplace ▸ hread⟩⟩
    · next hfail => exact iff_of_false List.not_mem_nil fun h => hfail h.2.1

/-- From `e` to `e'` the parameters at the front of `l` that have finished are handled. -/
structure Drains (m : MediaMemory) (l : List Nat) (e e' : FileEgress) : Prop where
  ulWriteIndex : e'.ulWriteIndex = e.ulWriteIndex
  param : e'.param = e.param
  list : e'.mediaCallbackParamList = l.dropWhile fun i => (e.param i).bIsFinished
  handled : e'.handled = e.handled ++
    (l.takeWhile fun i => (e.param i).bIsFinished).map fun i => (i, (e.param i).nWriteRet)
  updates : e'.updates = e.updates ++
    (l.takeWhile fun i => (e.param i).bIsFinished).flatMap fun i => updateOfParam m (e.param i) i

/-- The second loop of `on_write_finish`. -/
theorem handleFinished_drains {l : List Nat} {deleted : Bool}
    (hdata : ∀ i ∈ l, (e.param i).pMediaData ≠ none) :
    Drains m l e (handleFinished m now indexOk deleted l e) := by
  induction l generalizing e deleted with
  | nil => exact ⟨rfl, rfl, rfl, (List.append_nil _).symm, (List.append_nil _).symm⟩
  | cons i rest ih =>
    rw [handleFinished]
    simp only
    cases hfin : (e.param i).bIsFinished with
    | false =>
      simp only [Bool.false_eq_true, if_false]
      have hdrop : (i :: rest).dropWhile (fun i => (e.param i).bIsFinished) = i :: rest :=
        List.dropWhile_cons_of_neg (by simp [hfin])
      have htake : (i :: rest).takeWhile (fun i => (e.param i).bIsFinished) = [] :=
        List.takeWhile_cons_of_neg (by simp [hfin])
      have hlater : ∀ e' : FileEgress, e'.ulWriteIndex = e.ulWriteIndex → e'.param = e.param →
          e'.mediaCallbackParamList = i :: rest → e'.handled = e.handled →
          e'.updates = e.updates → Drains m (i :: rest) e e' := by
        intro e' hindex hparam hlist hhandled hupdates
        refine ⟨hindex, hparam, hlist.trans hdrop.symm, ?_, ?_⟩
        · rw [htake, hhandled, List.map_nil, List.append_nil]
        · rw [htake, hupdates, List.flatMap_nil, List.append_nil]
      split
      · split
        · exact hlater _ rfl rfl rfl rfl rfl
        · have hkept := kept_setError { e with mediaCallbackParamList := i :: rest }
          exact hlater _ hkept.ulWriteIndex hkept.param hkept.list hkept.handled hkept.updates
      · exact hlater _ rfl rfl rfl rfl rfl
    | true =>
      simp only [if_true]
      obtain ⟨place, hplace⟩ := Option.ne_none_iff_exists'.mp (hdata i List.mem_cons_self)
      simp only [hplace]
      have hkept := kept_handleWriteCallBackParam
        { e with mediaCallbackParamList := rest } m i place (e.param i).nWriteRet (indexOk i)
      generalize FileEgress.handleWriteCallBackParam _ m i place _ _ = e1 at hkept ⊢
      have hindex : e1.ulWriteIndex = e.ulWriteIndex := hkept.ulWriteIndex
      have hparam : e1.param = e.param := hkept.param
      have hhandled : e1.handled = e.handled ++ [(i, (e.param i).nWriteRet)] := hkept.handled
      have hupdates : e1.updates = e.updates ++ updateOfParam m (e.param i) i := by
        rw [updateOfParam, hplace]
        exact hkept.updates
      have hdrains : Drains m rest e1 (handleFinished m now indexOk true rest e1) := ih fun j hj => by
        rw [hparam]
        exact hdata j (List.mem_cons_of_mem i hj)
      have htake : (i :: rest).takeWhile (fun i => (e.param i).bIsFinished) =
          i :: rest.takeWhile (fun i => (e.param i).bIsFinished) := List.takeWhile_cons_of_pos hfin
      have hdrop : (i :: rest).dropWhile (fun i => (e.param i).bIsFinished) =
          rest.dropWhile fun i => (e.param i).bIsFinished := List.dropWhile_cons_of_pos hfin
      refine ⟨hdrains.ulWriteIndex.trans hindex, hdrains.param.trans hparam, ?_, ?_, ?_⟩
      · rw [hdrop, hdrains.list, hparam]
      · rw [htake, hdrains.handled, hhandled, hparam, List.append_assoc]
        rfl
      · rw [htake, hdrains.updates, hupdates, hparam, List.append_assoc]
        rfl

theorem kept_markFinished {e : FileEgress} {j : Nat} {r : Int32} (m : MediaMemory)
    (hfind : e.mediaCallbackParamList.find?
      (fun j => (e.param j).ulWriteIndex = (e.param i).ulWriteIndex) = some j) :
    Kept { e with
      param := Function.update e.param j { e.param j with bIsFinished := true, nWriteRet := r } }
      (e.markFinished m i r) := by
  rw [markFinished, hfind]
  exact ⟨rfl, rfl, rfl, rfl, rfl, rfl⟩

/-! ## Parameters that are overdue -/

/-- Parameter `i` is not the first in the list, or the first other one that has not finished is not overdue. -/
def InTime (e : FileEgress) (i : Nat) (now : Int) : Prop :=
  e.mediaCallbackParamList.head? = some i →
    ∀ j ∈ e.mediaCallbackParamList.find? fun j => j ≠ i ∧ (e.param j).bIsFinished = false,
      now - (e.param j).ulWriteTime < bigRecordfileTimeSlice

instance (e : FileEgress) (i : Nat) (now : Int) : Decidable (e.InTime i now) :=
  inferInstanceAs (Decidable (_ → ∀ j ∈ e.mediaCallbackParamList.find? _, _))

/-- The second loop of `on_write_finish` does not crash if the first parameter that has not finished is not
overdue, or nothing has been deleted when it comes there. -/
theorem handleFinished_crashed {l : List Nat} {deleted : Bool} (he : e.crashed = false)
    (hfirst : ∀ j ∈ l.find? fun j => (e.param j).bIsFinished = false,
      now - (e.param j).ulWriteTime < bigRecordfileTimeSlice ∨ deleted = false ∧ l.head? = some j) :
    (handleFinished m now indexOk deleted l e).crashed = false := by
  induction l generalizing e deleted with
  | nil => exact he
  | cons i rest ih =>
    rw [handleFinished]
    simp only
    cases hfin : (e.param i).bIsFinished with
    | false =>
      simp only [Bool.false_eq_true, if_false]
      have hkept := kept_setError { e with mediaCallbackParamList := i :: rest }
      rcases hfirst i (List.find?_cons_of_pos (by simp [hfin])) with htime | ⟨rfl, -⟩
      · rw [if_neg (Int.not_le.mpr htime)]
        exact he
      · split
        · exact hkept.crashed.trans he
        · exact he
    | true =>
      simp only [if_true]
      cases (e.param i).pMediaData with
      | none =>
        simp only
        split
        · exact he
        · exact he
      | some place =>
        simp only
        have hkept := kept_handleWriteCallBackParam { e with mediaCallbackParamList := rest } m i place
          (e.param i).nWriteRet (indexOk i)
        refine ih (hkept.crashed.trans he) fun j hj => .inl ?_
        rw [show (FileEgress.handleWriteCallBackParam _ m i place _ _).param = e.param from hkept.param] at hj ⊢
        rcases hfirst j (by rw [List.find?_cons_of_neg (by simp [hfin])]; exact hj) with htime | ⟨-, hhead⟩
        · exact htime
        · -- the first one has finished
          obtain rfl := Option.some.inj hhead
          have hj := List.find?_some hj
          simp [hfin] at hj

/-- A callback that marks parameter `i` in time does not crash. -/
theorem InTime.crashed {e1 : FileEgress} (h : e.InTime i now)
    (hhead : ∀ f ∈ e.mediaCallbackParamList.head?, (e.param f).bIsFinished = false)
    (hparam : e1.param = Function.update e.param i p) (hp : p.bIsFinished = true) (he1 : e1.crashed = false) :
    (handleFinished m now indexOk false e.mediaCallbackParamList e1).crashed = false := by
  refine handleFinished_crashed he1 fun j hj => ?_
  have hself : (e1.param i).bIsFinished = true := by
    rw [hparam, Function.update_self, hp]
  have hother : ∀ j, j ≠ i → e1.param j = e.param j := fun j hj => by
    rw [hparam, Function.update_of_ne hj]
  have hsame : (fun j => decide ((e1.param j).bIsFinished = false)) =
      fun j => decide (j ≠ i ∧ (e.param j).bIsFinished = false) := by
    funext j
    by_cases hji : j = i
    · simp [hji, hself]
    · simp [hji, hother j hji]
  rw [hsame] at hj
  have hji : j ≠ i := by
    have := List.find?_some hj
    simp only [decide_eq_true_eq] at this
    exact this.1
  unfold InTime at h
  cases hlist : e.mediaCallbackParamList with
  | nil =>
    rw [hlist] at hj
    cases hj
  | cons f rest =>
    rw [hlist] at h hj hhead
    by_cases hfi : f = i
    · rw [hother j hji]
      exact .inl (h (congrArg some hfi) j hj)
    · rw [List.find?_cons_of_pos (by simp [hfi, hhead f rfl])] at hj
      exact .inr ⟨rfl, hj⟩

/-! ## The members from which `close` is decided -/

/-- The data of a length is counted as written. -/
structure Marks (n : Nat) (e e' : FileEgress) : Prop where
  egressStatus : e'.egressStatus = e.egressStatus
  recordFileFD : e'.recordFileFD = e.recordFileFD
  received : e'.ullAllRecvedDataSize = e.ullAllRecvedDataSize
  written : e'.ullWriteDataSize = e.ullWriteDataSize + UInt64.ofNat n
  finished : e'.finished = e.finished

/-- At most a record that is being written has gone wrong. -/
structure StaysOpen (e e' : FileEgress) : Prop where
  egressStatus : e'.egressStatus = e.egressStatus ∨ e.egressStatus = .writing ∧ e'.egressStatus = .error
  recordFileFD : e'.recordFileFD = e.recordFileFD
  received : e'.ullAllRecvedDataSize = e.ullAllRecvedDataSize
  written : e'.ullWriteDataSize = e.ullWriteDataSize
  finished : e'.finished = e.finished

theorem StaysOpen.refl (e : FileEgress) : StaysOpen e e := ⟨.inl rfl, rfl, rfl, rfl, rfl⟩

theorem StaysOpen.trans {e'' : FileEgress} (h : StaysOpen e e') (h' : StaysOpen e' e'') :
    StaysOpen e e'' := by
  refine ⟨?_, h'.recordFileFD.trans h.recordFileFD, h'.received.trans h.received,
    h'.written.trans h.written, h'.finished.trans h.finished⟩
  rcases h.egressStatus with heq | ⟨hwriting, herror⟩
  · rw [← heq]
    exact h'.egressStatus
  · rcases h'.egressStatus with heq | ⟨hwriting', -⟩
    · exact .inr ⟨hwriting, heq.trans herror⟩
    · rw [herror] at hwriting'
      cases hwriting'

theorem StaysOpen.ne_closed (h : StaysOpen e e') (he : e.egressStatus ≠ .closed) :
    e'.egressStatus ≠ .closed := by
  rcases h.egressStatus with heq | ⟨-, herror⟩
  · rwa [heq]
  · rw [herror]
    exact EgressStatus.noConfusion

theorem StaysOpen.closing (h : StaysOpen e e') (he : e.egressStatus = .closing) :
    e'.egressStatus = .closing := by
  rcases h.egressStatus with heq | ⟨hwriting, -⟩
  · rw [heq, he]
  · rw [he] at hwriting
    cases hwriting

theorem staysOpen_setError (e : FileEgress) : StaysOpen e e.setError := by
  rw [setError]
  split
  · next hwriting => exact ⟨.inr ⟨hwriting, rfl⟩, rfl, rfl, rfl, rfl⟩
  · exact .refl e

theorem staysOpen_handleWriteCallBackParam (he : e.egressStatus ≠ .closed) (m : MediaMemory) (i : Nat)
    (place : MediaPlace) (write_result : Int32) (ok : Bool) :
    StaysOpen e (e.handleWriteCallBackParam m i place write_result ok) := by
  have hresult : ∀ e0 : FileEgress,
      StaysOpen e0 (if write_result = svsResultOk then
        if (e0.updateRecordIndex m i place ok).1 then (e0.updateRecordIndex m i place ok).2
        else (e0.updateRecordIndex m i place ok).2.setError
      else e0.setError) := by
    intro e0
    have hread : StaysOpen e0 (e0.updateRecordIndex m i place ok).2 := ⟨.inl rfl, rfl, rfl, rfl, rfl⟩
    split
    · split
      · exact hread
      · exact hread.trans (staysOpen_setError _)
    · exact staysOpen_setError e0
  have hhandled : StaysOpen e { e with handled := e.handled ++ [(i, write_result)] } :=
    ⟨.inl rfl, rfl, rfl, rfl, rfl⟩
  have hopen := hhandled.trans (hresult { e with handled := e.handled ++ [(i, write_result)] })
  rw [handleWriteCallBackParam]
  simp only
  generalize (if write_result = svsResultOk then _ else _ : FileEgress) = e1 at hopen ⊢
  rw [if_neg fun hclosed => hopen.ne_closed he hclosed.1]
  exact hopen

/-- The second loop of `on_write_finish` while the record is not closed. -/
theorem staysOpen_handleFinished {l : List Nat} {deleted : Bool} (he : e.egressStatus ≠ .closed)
    (hdata : ∀ i ∈ l, (e.param i).pMediaData ≠ none) :
    StaysOpen e (handleFinished m now indexOk deleted l e) := by
  induction l generalizing e deleted with
  | nil => exact ⟨.inl rfl, rfl, rfl, rfl, rfl⟩
  | cons i rest ih =>
    rw [handleFinished]
    simp only
    cases hfin : (e.param i).bIsFinished with
    | false =>
      simp only [Bool.false_eq_true, if_false]
      have hlist : StaysOpen e { e with mediaCallbackParamList := i :: rest } := ⟨.inl rfl, rfl, rfl, rfl, rfl⟩
      split
      · split
        · exact ⟨.inl rfl, rfl, rfl, rfl, rfl⟩
        · exact hlist.trans (staysOpen_setError _)
      · exact hlist
    | true =>
      simp only [if_true]
      obtain ⟨place, hplace⟩ := Option.ne_none_iff_exists'.mp (hdata i List.mem_cons_self)
      simp only [hplace]
      have hlist : StaysOpen e { e with mediaCallbackParamList := rest } := ⟨.inl rfl, rfl, rfl, rfl, rfl⟩
      have hhandled := hlist.trans (staysOpen_handleWriteCallBackParam
        (e := { e with mediaCallbackParamList := rest }) he m i place (e.param i).nWriteRet (indexOk i))
      have hparam := (kept_handleWriteCallBackParam { e with mediaCallbackParamList := rest } m i place
        (e.param i).nWriteRet (indexOk i)).param
      refine hhandled.trans (ih (hhandled.ne_closed he) fun j hj => ?_)
      rw [hparam]
      exact hdata j (List.mem_cons_of_mem i hj)

theorem marks_markFinished {j : Nat} {r : Int32} (m : MediaMemory)
    (hfind : e.mediaCallbackParamList.find?
      (fun j => (e.param j).ulWriteIndex = (e.param i).ulWriteIndex) = some j) :
    Marks (((e.param i).pMediaData.map m.length).getD 0) e (e.markFinished m i r) := by
  rw [markFinished, hfind]
  exact ⟨rfl, rfl, rfl, rfl, rfl⟩

end FileEgress

end AllCamera
