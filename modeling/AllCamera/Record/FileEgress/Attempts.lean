import AllCamera.Record.FileEgress.Spec
import AllCamera.Record.DiskManager

/-!
# The attempts of `write`

`write` tries to submit a block until that works, or a file that it has just opened fails. What the list, the index,
the size and the allocated parameters are after it depends only on whether it returns `SVS_RESULT_OK`.

* `IoScheduler.addIO`, `DiskManager.writeFile`: their results, and the queue that a block is put into.
* `EgressWrites`: the egress, the allocated parameters and the requests; `turn`, `loop`, `write`.
* `turn_follows`, `write_follows`: the egress is the one of `FileEgress.write`.
* `Unchanged`, `Submitted`, `WriteOutcome`, `write_outcome`.
-/

namespace AllCamera

/-- `SVS_ERR_QUEUE`. -/
def svsErrQueue : Int32 := 0x0002

/-- `SVS_ERR_PARAM`. -/
def svsErrParam : Int32 := 0x0003

/-- `SVS_ERR_INVALIDFD`. -/
def svsErrInvalidfd : Int32 := 0x100C

/-- `SVS_ERR_FD_SWITCH_FILE`. -/
def svsErrFdSwitchFile : Int32 := 0x1010

/-- `SVS_IO_Scheduler`: whether it has its queues, and their number. -/
structure IoScheduler where
  outputQueue : Bool
  threadTotal : UInt32

/-- `add_IO` of a write, with the queue that the request is put into; `mb` is whether a message block can be had,
`enqueued` whether the queue takes it in time. -/
def IoScheduler.addIO (io : IoScheduler) (queueIndex : Int) (mb enqueued : Bool) : Int32 × Option Nat :=
  if !io.outputQueue ∨ queueIndex < 0 ∨ io.threadTotal.toInt32.toInt ≤ queueIndex then (svsErrParam, none)
  else if !mb then (svsErrParam, none)
  else if !enqueued then (svsErrQueue, none)
  else (svsResultOk, some queueIndex.toNat)

/-- What a turn of the loop in `write` meets: the result of `open_file`, then the disk manager with the handle of the
file, and the scheduler with what `add_IO` gets. -/
structure WriteTry where
  opened : OpenResult
  manager : DiskManager
  vFd : Nat
  io : IoScheduler
  mb : Bool
  enqueued : Bool

/-- `writeFile` of a block; `recordFileFD` is whether there is a handle. -/
def WriteTry.writeFile (c : WriteTry) (recordFileFD : Bool) : Int32 × Option Nat :=
  if !recordFileFD ∨ recordMaxLensNum ≤ c.vFd then (svsErrParam, none)
  else
    let vFile := c.manager.fileList c.vFd
    if vFile.sysFd ≤ -1 ∨ vFile.vfdStatus ≠ .usable then
      if vFile.vfdStatus = .switchFile then (svsErrFdSwitchFile, none) else (svsErrInvalidfd, none)
    else c.io.addIO vFile.ioQueueIndex c.mb c.enqueued

/-- The results of the turn, as `FileEgress.write` is given them. -/
def WriteTry.turn (c : WriteTry) : Turn := ⟨c.opened, (c.writeFile true).2⟩

/-- A request in a queue, with the parameter of its callback. -/
structure IoRequest where
  queue : Nat
  param : Nat
  deriving DecidableEq, Repr

/-- What `write` reads of a media block and its header. -/
structure RecvMedia where
  place : MediaPlace
  length : Nat
  isTmpfsMemory : Bool
  tmpfsDatalen : UInt32
  firstFrameRecvTime : Int

/-- What `update_recved_info` counts. -/
def RecvMedia.size (mb : RecvMedia) : Nat := if mb.isTmpfsMemory then mb.tmpfsDatalen.toNat else mb.length

/-- The egress, at which addresses there is a parameter that has not been deleted, and the requests that were put into
queues. For the statements there is how often `writeFile` was called. -/
structure EgressWrites where
  egress : FileEgress
  live : Nat → Bool
  requests : List IoRequest
  attempts : Nat

namespace EgressWrites

/-- A turn of the loop ends: `write` returns, there is another turn, or the loop is left. -/
inductive TurnEnd where
  | returned (nRet : Int32) (s : EgressWrites)
  | again (s : EgressWrites)
  | left (s : EgressWrites)

/-- `SVS_DELETE` of the parameter at address `i`. -/
def delete (s : EgressWrites) (i : Nat) : EgressWrites := { s with live := Function.update s.live i false }

/-- A turn of the loop, with parameter `p` at address `i`. -/
def turn (s : EgressWrites) (i : Nat) (p : CallBackParam) (recvFrameTime : Int) (c : WriteTry) : TurnEnd :=
  let r := s.egress.openTurn p recvFrameTime c.opened
  if !r.1 then .returned svsResultFailure (delete { s with egress := r.2 } i)
  else
    let e := { r.2 with ulWriteIndex := r.2.ulWriteIndex + 1 }
    let w := c.writeFile e.recordFileFD
    let s := { s with
      requests := s.requests ++ (w.2.map (IoRequest.mk · i)).toList
      attempts := s.attempts + 1 }
    if w.1 ≠ svsResultOk then
      let e := { e with ulWriteIndex := e.ulWriteIndex - 1 }
      if p.ulChangeRecordFile then .returned w.1 (delete { s with egress := { e with egressStatus := .error } } i)
      else .again { s with egress := e }
    else
      .left { s with egress := { e with
        param := Function.update e.param i { p with ulWriteIndex := e.ulWriteIndex }
        mediaCallbackParamList := e.mediaCallbackParamList ++ [i] } }

/-- The loop from turn `n` on: what is returned in it, if it is not left; `none` if it goes on for longer than
`fuel` turns. -/
def loop (tries : Nat → WriteTry) (i : Nat) (recvFrameTime : Int) :
    Nat → Nat → CallBackParam → EgressWrites → Option (Option Int32 × EgressWrites)
  | 0, _, _, _ => none
  | fuel + 1, n, p, s =>
    match s.turn i p recvFrameTime (tries n) with
    | .returned nRet s => some (some nRet, s)
    | .again s => loop tries i recvFrameTime fuel (n + 1) { p with ulChangeRecordFile := true } s
    | .left s => some (none, s)

/-- The parameter that `write` allocates and fills. -/
def funcParam (e : FileEgress) (mb : RecvMedia) (now : Int) : CallBackParam where
  ulChangeRecordFile := e.lastSwitchRecordTime + bigRecordfileTimeSlice ≤ mb.firstFrameRecvTime
  pMediaData := some mb.place
  ulWriteIndex := 0
  ulWriteTime := now
  bIsFinished := false
  nWriteRet := 0

/-- `write`; `pFuncParam` is the address of the parameter, if it can be allocated. -/
def write (s : EgressWrites) (pMediaData : Option RecvMedia) (pFuncParam : Option Nat) (now : Int)
    (tries : Nat → WriteTry) (fuel : Nat) : Option (Int32 × EgressWrites) :=
  match pMediaData, pFuncParam with
  | some mb, some i =>
    match loop tries i mb.firstFrameRecvTime fuel 0 (funcParam s.egress mb now)
      { s with live := Function.update s.live i true } with
    | some (some nRet, s) => some (nRet, s)
    | some (none, s) => some (svsResultOk, { s with egress := s.egress.updateRecvedInfo mb.size })
    | none => none
  | _, _ => some (svsResultFailure, s)

end EgressWrites

/-! ## The disk manager and the scheduler -/

variable {c : WriteTry} {recordFileFD : Bool}

/-- `SVS_RESULT_OK` comes with a queue, another result without. -/
def QueuedIfOk (w : Int32 × Option Nat) : Prop := w.1 = svsResultOk ↔ w.2 ≠ none

theorem IoScheduler.addIO_queued (io : IoScheduler) (queueIndex : Int) (mb enqueued : Bool) :
    QueuedIfOk (io.addIO queueIndex mb enqueued) := by
  have hparam : QueuedIfOk (svsErrParam, none) := iff_of_false (by decide) (fun h => h rfl)
  have hqueue : QueuedIfOk (svsErrQueue, none) := iff_of_false (by decide) (fun h => h rfl)
  unfold addIO
  split_ifs
  · exact hparam
  · exact hparam
  · exact hqueue
  · exact iff_of_true rfl (Option.some_ne_none _)

theorem WriteTry.writeFile_queued (c : WriteTry) (recordFileFD : Bool) : QueuedIfOk (c.writeFile recordFileFD) := by
  unfold writeFile
  simp only
  split_ifs
  · exact iff_of_false (by decide) (fun h => h rfl)
  · exact iff_of_false (by decide) (fun h => h rfl)
  · exact iff_of_false (by decide) (fun h => h rfl)
  · exact c.io.addIO_queued _ _ _

/-- Without a handle nothing is put into a queue. -/
theorem WriteTry.writeFile_queue (c : WriteTry) (recordFileFD : Bool) :
    (c.writeFile recordFileFD).2 = if recordFileFD then c.turn.queue else none := by
  cases recordFileFD with
  | true => exact (if_pos rfl).symm
  | false => rfl

namespace EgressWrites

open FileEgress

variable {s s' : EgressWrites} {e e' : FileEgress} {i fuel n : Nat} {p : CallBackParam} {recvFrameTime now : Int}
  {tries : Nat → WriteTry}

/-! ## The egress of `FileEgress.write` -/

/-- The turn ends as one of `FileEgress.writeTurn` does. -/
def Follows (s : EgressWrites) (i : Nat) : TurnEnd → TurnResult → Prop
  | .left s', .submitted t e => s'.egress = e ∧ s'.requests = s.requests ++ [⟨t, i⟩]
  | .returned _ s', .failed e | .again s', .again e => s'.egress = e ∧ s'.requests = s.requests
  | _, _ => False

theorem Follows.of_returned {nRet : Int32} {w : TurnResult} (h : Follows s i (.returned nRet s') w) :
    w = .failed s'.egress ∧ s'.requests = s.requests := by
  cases w with
  | submitted t e => exact h.elim
  | failed e => exact ⟨congrArg _ h.1.symm, h.2⟩
  | again e => exact h.elim

theorem Follows.of_again {w : TurnResult} (h : Follows s i (.again s') w) :
    w = .again s'.egress ∧ s'.requests = s.requests := by
  cases w with
  | submitted t e => exact h.elim
  | failed e => exact h.elim
  | again e => exact ⟨congrArg _ h.1.symm, h.2⟩

theorem Follows.of_left {w : TurnResult} (h : Follows s i (.left s') w) :
    ∃ t, w = .submitted t s'.egress ∧ s'.requests = s.requests ++ [⟨t, i⟩] := by
  cases w with
  | submitted t e => exact ⟨t, congrArg _ h.1.symm, h.2⟩
  | failed e => exact h.elim
  | again e => exact h.elim

theorem turn_follows (s : EgressWrites) (i : Nat) (p : CallBackParam) (recvFrameTime : Int) (c : WriteTry) :
    Follows s i (s.turn i p recvFrameTime c) (s.egress.writeTurn i p recvFrameTime c.turn) := by
  have hopened : c.turn.opened = c.opened := rfl
  rw [turn, writeTurn, hopened]
  generalize s.egress.openTurn p recvFrameTime c.opened = r
  obtain ⟨ok, e⟩ := r
  cases ok with
  | false => exact ⟨rfl, rfl⟩
  | true =>
    simp only [Bool.not_true, Bool.false_eq_true, if_false]
    have hqueued := c.writeFile_queued e.recordFileFD
    rw [← c.writeFile_queue]
    generalize c.writeFile e.recordFileFD = w at hqueued ⊢
    obtain ⟨nRet, queue⟩ := w
    cases queue with
    | some t =>
      rw [if_neg (not_not.mpr (hqueued.mpr (Option.some_ne_none t)))]
      exact ⟨rfl, rfl⟩
    | none =>
      rw [if_pos fun hok => hqueued.mp hok rfl]
      cases p.ulChangeRecordFile with
      | true => exact ⟨rfl, List.append_nil _⟩
      | false => exact ⟨rfl, List.append_nil _⟩

/-! ## What a turn does -/

/-- The requests, the list, the index and the size are left as they are. -/
structure Unchanged (s s' : EgressWrites) : Prop where
  requests : s'.requests = s.requests
  list : s'.egress.mediaCallbackParamList = s.egress.mediaCallbackParamList
  ulWriteIndex : s'.egress.ulWriteIndex = s.egress.ulWriteIndex
  received : s'.egress.ullAllRecvedDataSize = s.egress.ullAllRecvedDataSize

/-- One request is submitted, with parameter `i`, which has the next index and is put into the list; a block of a
size is counted. -/
structure Submitted (s : EgressWrites) (i size : Nat) (s' : EgressWrites) : Prop where
  requests : ∃ t, s'.requests = s.requests ++ [⟨t, i⟩]
  list : s'.egress.mediaCallbackParamList = s.egress.mediaCallbackParamList ++ [i]
  paramIndex : (s'.egress.param i).ulWriteIndex = s.egress.ulWriteIndex + 1
  ulWriteIndex : s'.egress.ulWriteIndex = s.egress.ulWriteIndex + 1
  received : s'.egress.ullAllRecvedDataSize = s.egress.ullAllRecvedDataSize + UInt64.ofNat size

theorem Unchanged.trans {s'' : EgressWrites} (h : Unchanged s s') (h' : Unchanged s' s'') : Unchanged s s'' :=
  ⟨h'.requests.trans h.requests, h'.list.trans h.list, h'.ulWriteIndex.trans h.ulWriteIndex,
    h'.received.trans h.received⟩

theorem Unchanged.submitted {s'' : EgressWrites} {size : Nat} (h : Unchanged s s') (h' : Submitted s' i size s'') :
    Submitted s i size s'' := by
  obtain ⟨requests, list, paramIndex, ulWriteIndex, received⟩ := h'
  rw [h.requests] at requests
  rw [h.list] at list
  rw [h.ulWriteIndex] at paramIndex ulWriteIndex
  rw [h.received] at received
  exact ⟨requests, list, paramIndex, ulWriteIndex, received⟩

theorem Submitted.not_unchanged {size : Nat} (h : Submitted s i size s') : ¬ Unchanged s s' := by
  intro hunchanged
  have hlist := h.list
  rw [hunchanged.list] at hlist
  exact List.cons_ne_nil i [] (List.self_eq_append_right.mp hlist)

/-- What a turn does; before `update_recved_info` nothing is counted. -/
def TurnSpec (s : EgressWrites) (i : Nat) (p : CallBackParam) : TurnEnd → Prop
  | .returned nRet s' => nRet ≠ svsResultOk ∧ Unchanged s s' ∧ s'.live = Function.update s.live i false ∧
    s'.attempts ≤ s.attempts + 1
  | .again s' => p.ulChangeRecordFile = false ∧ Unchanged s s' ∧ s'.live = s.live ∧ s'.attempts ≤ s.attempts + 1
  | .left s' => Submitted s i 0 s' ∧ s'.live = s.live ∧ s'.attempts ≤ s.attempts + 1

theorem turn_spec (s : EgressWrites) (i : Nat) (p : CallBackParam) (recvFrameTime : Int) (c : WriteTry) :
    TurnSpec s i p (s.turn i p recvFrameTime c) := by
  rw [turn]
  have hopen := writes_openTurn s.egress p recvFrameTime c.opened
  generalize s.egress.openTurn p recvFrameTime c.opened = r at hopen ⊢
  obtain ⟨ok, e⟩ := r
  have hindex : e.ulWriteIndex = s.egress.ulWriteIndex := hopen.ulWriteIndex
  have hlist : e.mediaCallbackParamList = s.egress.mediaCallbackParamList := hopen.list
  have hreceived : e.ullAllRecvedDataSize = s.egress.ullAllRecvedDataSize := hopen.received
  cases ok with
  | false => exact ⟨by decide, ⟨rfl, hlist, hindex, hreceived⟩, rfl, Nat.le_succ _⟩
  | true =>
    simp only [Bool.not_true, Bool.false_eq_true, if_false]
    have hqueued := c.writeFile_queued e.recordFileFD
    generalize c.writeFile e.recordFileFD = w at hqueued ⊢
    obtain ⟨nRet, queue⟩ := w
    cases queue with
    | some t =>
      rw [if_neg (not_not.mpr (hqueued.mpr (Option.some_ne_none t)))]
      refine ⟨⟨⟨t, rfl⟩, ?_, ?_, ?_, ?_⟩, rfl, Nat.le_refl _⟩
      · simp only [hlist]
      · simp only [Function.update_self, hindex]
      · simp only [hindex]
      · exact hreceived.trans (UInt64.add_zero _).symm
    | none =>
      have hfails : nRet ≠ svsResultOk := fun hok => hqueued.mp hok rfl
      have hback : e.ulWriteIndex + 1 - 1 = s.egress.ulWriteIndex := by rw [UInt32.add_sub_cancel, hindex]
      rw [if_pos hfails]
      cases hchange : p.ulChangeRecordFile with
      | true => exact ⟨hfails, ⟨List.append_nil _, hlist, hback, hreceived⟩, rfl, Nat.le_refl _⟩
      | false => exact ⟨hchange, ⟨List.append_nil _, hlist, hback, hreceived⟩, rfl, Nat.le_refl _⟩

/-! ## The loop -/

/-- What the loop does in `k` attempts. -/
def LoopSpec (s : EgressWrites) (i k : Nat) : Option (Option Int32 × EgressWrites) → Prop
  | some (some nRet, s') => nRet ≠ svsResultOk ∧ Unchanged s s' ∧ s'.live = Function.update s.live i false ∧
    s'.attempts ≤ s.attempts + k
  | some (none, s') => Submitted s i 0 s' ∧ s'.live = s.live ∧ s'.attempts ≤ s.attempts + k
  | none => False

/-- With a new file there is one turn. -/
theorem loop_changed (hchange : p.ulChangeRecordFile = true) :
    LoopSpec s i 1 (loop tries i recvFrameTime (fuel + 1) n p s) := by
  have hspec := turn_spec s i p recvFrameTime (tries n)
  rw [loop]
  cases hturn : s.turn i p recvFrameTime (tries n) with
  | returned nRet s' =>
    rw [hturn] at hspec
    exact hspec
  | again s' =>
    rw [hturn] at hspec
    have hno : p.ulChangeRecordFile = false := hspec.1
    rw [hchange] at hno
    cases hno
  | left s' =>
    rw [hturn] at hspec
    exact hspec

theorem loop_spec : LoopSpec s i 2 (loop tries i recvFrameTime (fuel + 2) n p s) := by
  have hspec := turn_spec s i p recvFrameTime (tries n)
  rw [loop]
  cases hturn : s.turn i p recvFrameTime (tries n) with
  | returned nRet s' =>
    rw [hturn] at hspec
    obtain ⟨hfails, hunchanged, hlive, hattempts⟩ := hspec
    exact ⟨hfails, hunchanged, hlive, hattempts.trans (Nat.le_succ _)⟩
  | again s' =>
    rw [hturn] at hspec
    obtain ⟨-, hunchanged, hlive, hattempts⟩ := hspec
    have hsecond : LoopSpec s' i 1 (loop tries i recvFrameTime (fuel + 1) (n + 1)
        { p with ulChangeRecordFile := true } s') := loop_changed rfl
    simp only
    cases hloop : loop tries i recvFrameTime (fuel + 1) (n + 1) { p with ulChangeRecordFile := true } s' with
    | none =>
      rw [hloop] at hsecond
      exact hsecond
    | some r =>
      rw [hloop] at hsecond
      obtain ⟨returned, s''⟩ := r
      cases returned with
      | some nRet =>
        obtain ⟨hfails, hunchanged', hlive', hattempts'⟩ := hsecond
        exact ⟨hfails, hunchanged.trans hunchanged', by rw [hlive', hlive], by omega⟩
      | none =>
        obtain ⟨hsubmitted, hlive', hattempts'⟩ := hsecond
        exact ⟨hunchanged.submitted hsubmitted, hlive'.trans hlive, by omega⟩
  | left s' =>
    rw [hturn] at hspec
    obtain ⟨hsubmitted, hlive, hattempts⟩ := hspec
    exact ⟨hsubmitted, hlive, hattempts.trans (Nat.le_succ _)⟩

/-- More fuel changes nothing. -/
theorem loop_add {r : Option Int32 × EgressWrites} (h : loop tries i recvFrameTime fuel n p s = some r) (k : Nat) :
    loop tries i recvFrameTime (fuel + k) n p s = some r := by
  induction fuel generalizing n p s with
  | zero => cases h
  | succ fuel ih =>
    rw [Nat.succ_add]
    rw [loop] at h ⊢
    cases hturn : s.turn i p recvFrameTime (tries n) with
    | returned nRet s' =>
      rw [hturn] at h
      exact h
    | again s' =>
      rw [hturn] at h
      exact ih h
    | left s' =>
      rw [hturn] at h
      exact h

/-- The loop ends, whatever the fuel from two turns on. -/
theorem loop_ends (tries : Nat → WriteTry) (i : Nat) (recvFrameTime : Int) (n : Nat) (p : CallBackParam)
    (s : EgressWrites) : ∃ r, LoopSpec s i 2 (some r) ∧
      ∀ fuel, loop tries i recvFrameTime (fuel + 2) n p s = some r := by
  have hspec : LoopSpec s i 2 (loop tries i recvFrameTime 2 n p s) := loop_spec
  cases hloop : loop tries i recvFrameTime 2 n p s with
  | none =>
    rw [hloop] at hspec
    exact hspec.elim
  | some r =>
    rw [hloop] at hspec
    refine ⟨r, hspec, fun fuel => ?_⟩
    rw [Nat.add_comm]
    exact loop_add hloop fuel

/-! ## `write` -/

/-- No request refers to a parameter that has been deleted. -/
def Safe (s : EgressWrites) : Prop := ∀ r ∈ s.requests, s.live r.param = true

/-- What a call of `write` that returns `nRet` has done. -/
structure WriteOutcome (s : EgressWrites) (pMediaData : Option RecvMedia) (pFuncParam : Option Nat) (nRet : Int32)
    (s' : EgressWrites) : Prop where
  attempts : s'.attempts ≤ s.attempts + 2
  ok : nRet = svsResultOk ↔
    ∃ mb i, pMediaData = some mb ∧ pFuncParam = some i ∧ Submitted s i mb.size s'
  fails : nRet ≠ svsResultOk → Unchanged s s'
  safe : s.Safe → s'.Safe

theorem WriteOutcome.of_unchanged {pMediaData : Option RecvMedia} {pFuncParam : Option Nat} {nRet : Int32}
    (hattempts : s'.attempts ≤ s.attempts + 2) (hfails : nRet ≠ svsResultOk) (h : Unchanged s s')
    (hsafe : s.Safe → s'.Safe) : WriteOutcome s pMediaData pFuncParam nRet s' where
  attempts := hattempts
  ok := iff_of_false hfails fun ⟨_, _, _, _, hsubmitted⟩ => hsubmitted.not_unchanged h
  fails _ := h
  safe := hsafe

/-- `write` ends, and does all that belongs to a submitted block or nothing; `new` gives an address at which there is
no parameter. -/
theorem write_outcome (s : EgressWrites) (pMediaData : Option RecvMedia) (pFuncParam : Option Nat) (now : Int)
    (tries : Nat → WriteTry) (hnew : ∀ i ∈ pFuncParam, s.live i = false) :
    ∃ nRet s', (∀ fuel, s.write pMediaData pFuncParam now tries (fuel + 2) = some (nRet, s')) ∧
      WriteOutcome s pMediaData pFuncParam nRet s' := by
  have hreturns : WriteOutcome s pMediaData pFuncParam svsResultFailure s :=
    .of_unchanged (Nat.le_add_right _ _) (by decide) ⟨rfl, rfl, rfl, rfl⟩ id
  cases pMediaData with
  | none => exact ⟨svsResultFailure, s, fun _ => rfl, hreturns⟩
  | some mb =>
    cases pFuncParam with
    | none => exact ⟨svsResultFailure, s, fun _ => rfl, hreturns⟩
    | some i =>
      have hi : s.live i = false := hnew i rfl
      have hne : s.Safe → ∀ r ∈ s.requests, r.param ≠ i := by
        intro hsafe r hr heq
        have hlive := hsafe r hr
        rw [heq, hi] at hlive
        cases hlive
      obtain ⟨⟨returned, s'⟩, hspec, hloop⟩ := loop_ends tries i mb.firstFrameRecvTime 0 (funcParam s.egress mb now)
        { s with live := Function.update s.live i true }
      cases returned with
      | some nRet =>
        obtain ⟨hfails, hunchanged, hlive, hattempts⟩ := hspec
        have hunchanged' : Unchanged s s' :=
          ⟨hunchanged.requests, hunchanged.list, hunchanged.ulWriteIndex, hunchanged.received⟩
        refine ⟨nRet, s', fun fuel => by simp only [write, hloop], .of_unchanged hattempts hfails hunchanged' ?_⟩
        intro hsafe r hr
        rw [hunchanged'.requests] at hr
        rw [hlive, Function.update_of_ne (hne hsafe r hr)]
        simp only
        rw [Function.update_of_ne (hne hsafe r hr)]
        exact hsafe r hr
      | none =>
        obtain ⟨hsubmitted, hlive, hattempts⟩ := hspec
        have hreceived : s'.egress.ullAllRecvedDataSize = s.egress.ullAllRecvedDataSize :=
          hsubmitted.received.trans (UInt64.add_zero _)
        have hcounted : Submitted s i mb.size { s' with egress := s'.egress.updateRecvedInfo mb.size } :=
          ⟨hsubmitted.requests, hsubmitted.list, hsubmitted.paramIndex, hsubmitted.ulWriteIndex, by
            simp only [updateRecvedInfo, hreceived]⟩
        refine ⟨svsResultOk, { s' with egress := s'.egress.updateRecvedInfo mb.size },
          fun fuel => by simp only [write, hloop], hattempts, iff_of_true rfl ⟨mb, i, rfl, rfl, hcounted⟩,
          fun hfails => (hfails rfl).elim, ?_⟩
        intro hsafe r hr
        obtain ⟨t, hrequests⟩ := hsubmitted.requests
        simp only [hrequests] at hr
        simp only [hlive]
        rcases List.mem_append.mp hr with hr | hr
        · rw [Function.update_of_ne (hne hsafe r hr)]
          exact hsafe r hr
        · rw [List.mem_singleton.mp hr]
          exact Function.update_self _ _ _

/-- An egress without a file and a disk manager with one: the second attempt works. -/
def reopened : WriteTry where
  opened := .ok
  manager := ⟨0, fun _ => .new, fun _ => { VFile.new with sysFd := 5, vfdStatus := .usable, ioQueueIndex := 0 }, 0, []⟩
  vFd := 3
  io := ⟨true, 1⟩
  mb := true
  enqueued := true

theorem write_outcome_reopened :
    (∃ nRet s', (∀ fuel, write ⟨.opened, fun _ => false, [], 0⟩ (some ⟨.block 0, 9, false, 0, 100⟩) (some 7) 100
        (fun _ => reopened) (fuel + 2) = some (nRet, s')) ∧
      WriteOutcome ⟨.opened, fun _ => false, [], 0⟩ (some ⟨.block 0, 9, false, 0, 100⟩) (some 7) nRet s') ∧
      (write ⟨.opened, fun _ => false, [], 0⟩ (some ⟨.block 0, 9, false, 0, 100⟩) (some 7) 100
        (fun _ => reopened) 2).map (fun r => (r.1, r.2.requests, r.2.attempts)) = some (svsResultOk, [⟨0, 7⟩], 2) :=
  ⟨write_outcome _ _ _ _ _ fun _ _ => rfl, by decide⟩

/-- The egress and the new request are those of `FileEgress.write` with the results of the first two turns. -/
theorem write_follows {mb : RecvMedia} {nRet : Int32}
    (h : s.write (some mb) (some i) now tries fuel = some (nRet, s')) :
    s'.egress = (s.egress.write i mb.place mb.size mb.firstFrameRecvTime now (tries 0).turn (tries 1).turn).2 ∧
      s'.requests = s.requests ++ ((s.egress.write i mb.place mb.size mb.firstFrameRecvTime now (tries 0).turn
        (tries 1).turn).1.map (IoRequest.mk · i)).toList := by
  rw [FileEgress.write, FileEgress.submit]
  generalize hp : (CallBackParam.mk _ (some mb.place) 0 now false 0) = p
  have hparam : funcParam s.egress mb now = p := hp
  rw [write, hparam] at h
  cases fuel with
  | zero => cases h
  | succ fuel =>
    rw [loop] at h
    have hfirst := turn_follows { s with live := Function.update s.live i true } i p
      mb.firstFrameRecvTime (tries 0)
    simp only at hfirst
    generalize turn _ i p mb.firstFrameRecvTime (tries 0) = r at h hfirst
    generalize s.egress.writeTurn i _ _ _ = w at hfirst ⊢
    cases r with
    | returned nRet' s1 =>
      obtain ⟨rfl, hrequests⟩ := hfirst.of_returned
      cases h
      simp only
      exact ⟨trivial, hrequests.trans (List.append_nil _).symm⟩
    | left s1 =>
      obtain ⟨t, rfl, hrequests⟩ := hfirst.of_left
      cases h
      simp only
      exact ⟨trivial, hrequests⟩
    | again s1 =>
      obtain ⟨rfl, hrequests⟩ := hfirst.of_again
      cases fuel with
      | zero => cases h
      | succ fuel =>
        simp only at h hrequests ⊢
        rw [loop] at h
        have hsecond := turn_follows s1 i { p with ulChangeRecordFile := true }
          mb.firstFrameRecvTime (tries 1)
        have hspec := turn_spec s1 i { p with ulChangeRecordFile := true }
          mb.firstFrameRecvTime (tries 1)
        generalize s1.turn i _ _ _ = r' at h hsecond hspec
        generalize s1.egress.writeTurn i _ _ _ = w' at hsecond ⊢
        cases r' with
        | returned nRet' s2 =>
          obtain ⟨rfl, hlater⟩ := hsecond.of_returned
          cases h
          simp only
          exact ⟨trivial, (hlater.trans hrequests).trans (List.append_nil _).symm⟩
        | left s2 =>
          obtain ⟨t, rfl, hlater⟩ := hsecond.of_left
          cases h
          rw [hrequests] at hlater
          exact ⟨rfl, hlater⟩
        -- with a new file there is no third turn
        | again s2 => cases hspec.1

end EgressWrites

end AllCamera
