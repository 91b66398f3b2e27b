import AllCamera.Record.FileEgress.Blocks
import Mathlib.Data.List.Find
import Mathlib.Algebra.BigOperators.Group.Finset.Basic

/-!
# The end of a record

`close` puts a request without data behind the writes; when that and all writes have completed and been
handled, `close_finished` is run. Whether all has been written is told from two sizes. So it is run exactly
once, without the mutex and not before the end, as long as what is counted for a write has its length, when it
is submitted and when it is called back, no parameter is overdue behind one that is handled, and the request can
be allocated and submitted, or no write is under way when it can not be.

* `CloseSystem`: the system with `close`; all writes come before it.
* `bytesOf`, `Counted`, `Opened`: the invariant before `close`.
* `Beside`: the egress with the request, and one without it that has the same writes.
* `Finishes`, `ClosesOnce`, `run_closesOnce`.
-/

namespace AllCamera

open AllCamera.Run

/-- The egress, the blocks and the I/O threads, whether `close` was called, and how far its request is. -/
structure CloseSystem where
  sys : EgressSystem
  closeCalled : Bool
  request : IoTask

namespace CloseSystem

/-- A step: one of the writes and the threads; a call of `close`; the callback of its request. -/
inductive Act where
  | io (a : EgressSystem.Act)
  | close (allocated : Bool) (queue : Option Nat) (now : Int)
  | callbackClose (now : Int) (indexOk : Nat → Bool)

def init (debugWriteFile : Bool) : CloseSystem := ⟨.init debugWriteFile, false, .none⟩

/-- Each call of `write` has returned. -/
def Returned (s : CloseSystem) : Prop := ∀ i < s.sys.submitted, s.sys.counted i = true

instance (s : CloseSystem) : Decidable s.Returned := inferInstanceAs (Decidable (∀ i < s.sys.submitted, _))

/-- `close`, behind all calls of `write`; the parameter of the request gets the next address. -/
def close (s : CloseSystem) (allocated : Bool) (queue : Option Nat) (now : Int) : CloseSystem :=
  if s.closeCalled ∨ ¬ s.Returned then s
  else
    let r := s.sys.egress.close s.sys.submitted allocated queue now
    { sys := { s.sys with egress := r.2.1 }
      closeCalled := true
      request := match r.1 with
        | some t => .queued t
        | none => .none }

/-- `write_media_data` without data: the thread calls back. -/
def callbackClose (s : CloseSystem) (now : Int) (indexOk : Nat → Bool) : CloseSystem :=
  match s.request with
  | .queued t =>
    if s.sys.Idle t ∧ ∀ j < s.sys.submitted, s.sys.task j ≠ .queued t then
      { s with
        sys := { s.sys with
          egress := s.sys.egress.onWriteFinish s.sys.mem now indexOk svsResultOk s.sys.submitted }
        request := .called t svsResultOk }
    else s
  | _ => s

/-- The step is one of a call of `write`. -/
def isWrite : EgressSystem.Act → Bool
  | .write .. | .count _ => true
  | _ => false

def step (s : CloseSystem) : Act → CloseSystem
  | .io a => if s.closeCalled && isWrite a then s else { s with sys := s.sys.step a }
  | .close allocated queue now => s.close allocated queue now
  | .callbackClose now indexOk => s.callbackClose now indexOk

/-- All that was submitted has completed. -/
structure Completed (s : CloseSystem) : Prop where
  writes : ∀ i < s.sys.submitted, (s.sys.task i).result ≠ none
  request : ∀ t, s.request ≠ .queued t

/-- `close_finished` has been run at most once, without the mutex, and only when `close` had been called and
all that was submitted had completed; then it has been run. No callback has crashed. -/
structure ClosesOnce (s : CloseSystem) : Prop where
  once : s.sys.egress.finished.length ≤ 1
  mutex : ∀ hasMutex ∈ s.sys.egress.finished, hasMutex = false
  last : s.sys.egress.finished ≠ [] → s.closeCalled = true ∧ s.Completed
  all : s.closeCalled = true → s.Completed → s.sys.egress.finished.length = 1
  alive : s.sys.egress.crashed = false

end CloseSystem

namespace EgressSystem

open FileEgress

variable {s s' : EgressSystem} {i t : Nat} {ret : Int32}

/-! ## What is counted -/

/-- How many bytes some of the writes have that were submitted. -/
def bytesOf (s : EgressSystem) (p : Nat → Bool) : Nat :=
  ∑ i ∈ Finset.range s.submitted, if p i then (s.data i).length else 0

/-- Of those that have not been called back. -/
def pending (s : EgressSystem) : Nat := s.bytesOf fun i => (s.task i).result.isNone

/-- Of those that have not been counted. -/
def uncounted (s : EgressSystem) : Nat := s.bytesOf fun i => !s.counted i

/-- The two sizes differ by what has not been called back and what has not been counted, and the record is not
closed. -/
structure Counted (s : EgressSystem) : Prop where
  sizes : s.egress.ullAllRecvedDataSize + UInt64.ofNat s.uncounted =
    s.egress.ullWriteDataSize + UInt64.ofNat s.pending
  egressStatus : s.egress.egressStatus ≠ .closed
  recordFileFD : s.egress.recordFileFD = false → s.submitted = 0
  finished : s.egress.finished = []

/-- What holds until `close`. -/
structure Opened (s : EgressSystem) : Prop where
  ordered : s.Ordered
  held : s.Held
  counted : s.Counted

theorem bytesOf_congr {p p' : Nat → Bool} (hsubmitted : s'.submitted = s.submitted) (hdata : s'.data = s.data)
    (hp : ∀ i, p' i = p i) : s'.bytesOf p' = s.bytesOf p := by
  unfold bytesOf
  rw [hsubmitted, hdata]
  simp only [hp]

/-- Another write is submitted. -/
theorem bytesOf_submit {p p' : Nat → Bool} (hsubmitted : s'.submitted = s.submitted + 1) {bytes : List UInt8}
    (hdata : s'.data = Function.update s.data s.submitted bytes) (hp : ∀ i, i ≠ s.submitted → p' i = p i)
    (hlast : p' s.submitted = true) : s'.bytesOf p' = s.bytesOf p + bytes.length := by
  unfold bytesOf
  rw [hsubmitted, Finset.sum_range_succ, hdata]
  congr 1
  · refine Finset.sum_congr rfl fun i hi => ?_
    have hne : i ≠ s.submitted := Nat.ne_of_lt (Finset.mem_range.mp hi)
    rw [Function.update_of_ne hne, hp i hne]
  · rw [Function.update_self, if_pos hlast]

/-- One write is taken away. -/
theorem bytesOf_remove {p p' : Nat → Bool} (hlt : i < s.submitted) (hi : p i = true)
    (hsubmitted : s'.submitted = s.submitted) (hdata : s'.data = s.data) (hi' : p' i = false)
    (hp : ∀ j, j ≠ i → p' j = p j) : s.bytesOf p = (s.data i).length + s'.bytesOf p' := by
  have hmem : i ∈ Finset.range s.submitted := Finset.mem_range.mpr hlt
  unfold bytesOf
  rw [hsubmitted, hdata, ← Finset.add_sum_erase _ _ hmem, ← Finset.add_sum_erase _ _ hmem, if_pos hi,
    if_neg (by simp [hi']), Nat.zero_add]
  congr 1
  refine Finset.sum_congr rfl fun j hj => ?_
  rw [hp j (Finset.ne_of_mem_erase hj)]

theorem bytesOf_eq_zero {p : Nat → Bool} (h : ∀ i < s.submitted, p i = false) : s.bytesOf p = 0 := by
  refine Finset.sum_eq_zero fun i hi => ?_
  rw [h i (Finset.mem_range.mp hi)]
  rfl

/-- When all has been counted and called back the sizes agree. -/
theorem Counted.sizes_eq (h : s.Counted) (hcounted : ∀ i < s.submitted, s.counted i = true)
    (hall : ∀ i < s.submitted, (s.task i).result ≠ none) :
    s.egress.ullAllRecvedDataSize = s.egress.ullWriteDataSize := by
  have hpending : s.pending = 0 := bytesOf_eq_zero fun i hi => by
    rw [Option.isNone_eq_false_iff, Option.isSome_iff_ne_none]
    exact hall i hi
  have huncounted : s.uncounted = 0 := bytesOf_eq_zero fun i hi => by
    simp [hcounted i hi]
  have hsizes := h.sizes
  rw [hpending, huncounted] at hsizes
  exact (UInt64.add_zero _).symm.trans (hsizes.trans (UInt64.add_zero _))

/-- A step that submits, counts and calls back no write. -/
theorem Counted.frame (h : s.Counted) (hegress : s'.egress = s.egress)
    (hsubmitted : s'.submitted = s.submitted) (hdata : s'.data = s.data) (hcounted : s'.counted = s.counted)
    (hresult : ∀ i, (s'.task i).result = (s.task i).result) : s'.Counted := by
  have hpending : s'.pending = s.pending := bytesOf_congr hsubmitted hdata fun i => by rw [hresult]
  have huncounted : s'.uncounted = s.uncounted := bytesOf_congr hsubmitted hdata fun i => by rw [hcounted]
  refine ⟨?_, ?_, ?_, ?_⟩
  · rw [hegress, hpending, huncounted]
    exact h.sizes
  · rw [hegress]
    exact h.egressStatus
  · rw [hegress, hsubmitted]
    exact h.recordFileFD
  · rw [hegress]
    exact h.finished

/-! ## The steps of the writes -/

theorem Counted.write (h : s.Counted) (b : Nat) (bytes : List UInt8)
    (isTmpfsMemory hasIndexList : Bool) (recvFrameTime now : Int) (first second : Turn) :
    (s.write b bytes isTmpfsMemory hasIndexList recvFrameTime now first second).Counted := by
  rcases write_cases s b bytes isTmpfsMemory hasIndexList recvFrameTime now first second with
    heq | ⟨-, ⟨e', hwrites, heq⟩ | ⟨t, e', hsubmits, heq⟩⟩
  · rw [heq]
    exact h
  · rw [heq]
    refine ⟨?_, fun hclosed => h.egressStatus (hwrites.egressStatus hclosed), fun hno => ?_, ?_⟩
    · change e'.ullAllRecvedDataSize + UInt64.ofNat s.uncounted = e'.ullWriteDataSize + UInt64.ofNat s.pending
      rw [hwrites.received, hwrites.written, h.sizes]
    · change e'.recordFileFD = false at hno
      refine h.recordFileFD (Bool.eq_false_iff.mpr fun hfile => ?_)
      rw [hwrites.recordFileFD hfile] at hno
      cases hno
    · exact hwrites.finished.trans h.finished
  · rw [heq]
    refine ⟨?_, fun hclosed => h.egressStatus (hsubmits.egressStatus hclosed), fun hno => ?_, ?_⟩
    · -- the bytes are added to both sums
      rw [pending, bytesOf_submit (s := s) (p := fun i => (s.task i).result.isNone) rfl rfl
        (fun i hi => by simp only [EgressSystem.submit, Function.update_of_ne hi])
        (by simp only [EgressSystem.submit, Function.update_self]; rfl),
        uncounted, bytesOf_submit (s := s) (p := fun i => !s.counted i) rfl rfl
        (fun i hi => by simp only [EgressSystem.submit, Function.update_of_ne hi])
        (by simp only [EgressSystem.submit, Function.update_self]; rfl)]
      change e'.ullAllRecvedDataSize + UInt64.ofNat (s.uncounted + bytes.length) =
        e'.ullWriteDataSize + UInt64.ofNat (s.pending + bytes.length)
      rw [hsubmits.received, hsubmits.written, UInt64.ofNat_add, UInt64.ofNat_add, ← UInt64.add_assoc,
        h.sizes, UInt64.add_assoc]
    · change e'.recordFileFD = false at hno
      rw [hsubmits.recordFileFD] at hno
      cases hno
    · exact hsubmits.finished.trans h.finished

/-- The block still has the length of its write when `update_recved_info` reads it. -/
theorem Counted.count (h : s.Counted) (i : Nat)
    (hlength : i < s.submitted → s.counted i = false → s.mem.recvedLength (s.mb i) = (s.data i).length) :
    (s.count i).Counted := by
  rw [EgressSystem.count]
  split
  · next hi =>
    refine ⟨?_, h.egressStatus, h.recordFileFD, h.finished⟩
    have hpending : pending { s with
        egress := s.egress.updateRecvedInfo (s.mem.recvedLength (s.mb i))
        counted := Function.update s.counted i true } = s.pending := rfl
    have huncounted : s.uncounted = (s.data i).length + uncounted { s with
        egress := s.egress.updateRecvedInfo (s.mem.recvedLength (s.mb i))
        counted := Function.update s.counted i true } :=
      bytesOf_remove hi.1 (by simp [hi.2]) rfl rfl (by simp) fun j hj => by
        simp only [Function.update_of_ne hj]
    have hsizes := h.sizes
    rw [huncounted, ← hlength hi.1 hi.2, UInt64.ofNat_add, ← UInt64.add_assoc] at hsizes
    rw [hpending]
    exact hsizes
  · exact h

theorem Counted.output (h : s.Counted) (i : Nat) (io : IoOutcome) : (s.output i io).Counted := by
  rcases output_cases s i io with ⟨heq, -⟩ | ⟨t, ret, hi, -, -, heq, -⟩
  · rw [heq]
    exact h
  · rw [heq]
    exact h.frame rfl rfl rfl rfl (result_update (hi ▸ rfl))

theorem Counted.release (h : s.Counted) (i : Nat) : (s.release i).Counted := by
  rw [EgressSystem.release]
  split
  · next t ret hi => exact h.frame rfl rfl rfl rfl (result_update (hi ▸ rfl))
  · exact h

theorem Counted.otherOutput (h : s.Counted) (t : Nat) (bytes : List UInt8) :
    (s.otherOutput t bytes).Counted := by
  rw [EgressSystem.otherOutput]
  split
  · exact h.frame rfl rfl rfl rfl fun _ => rfl
  · exact h

theorem Counted.otherBlock (h : s.Counted) (b : Nat) (bytes : List UInt8) (isTmpfsMemory : Bool) :
    (s.otherBlock b bytes isTmpfsMemory).Counted := by
  rw [EgressSystem.otherBlock]
  split
  · exact h
  · exact h.frame rfl rfl rfl rfl fun _ => rfl

/-- What is in the buffer for a write from tmpfs has its length, when it is called back. -/
def ReadsAll (s : EgressSystem) (i : Nat) : IoTask → Prop
  | .written t _ => s.isTmpfsMemory i = true → (s.mem.tmpfsMb t).bytes.length = (s.data i).length
  | _ => True

instance (s : EgressSystem) (i : Nat) : ∀ task, Decidable (s.ReadsAll i task)
  | .written _ _ => inferInstanceAs (Decidable (_ = true → _ = (s.data i).length))
  | .none | .queued _ | .called _ _ | .released _ _ => inferInstanceAs (Decidable True)

/-- The length that is counted for a write. -/
theorem Opened.length_completed (h : s.Opened) (hi : s.task i = .written t ret)
    (hreads : s.ReadsAll i (s.task i)) :
    ((s.completed i t ret).pMediaData.map s.mem.length).getD 0 = (s.data i).length := by
  rw [hi] at hreads
  rw [completed]
  cases htmpfs : s.isTmpfsMemory i with
  | true => exact hreads htmpfs
  | false =>
    have hlt := h.ordered.unused i (hi ▸ IoTask.noConfusion)
    have hblock := h.held.block i (hi ▸ trivial)
    rw [htmpfs] at hblock
    simp only [Bool.false_eq_true, if_false] at hblock ⊢
    rw [h.held.place i hlt htmpfs]
    change (s.mem.block (s.mb i)).data.bytes.length = _
    rw [hblock]
    rfl

theorem Opened.callback (h : s.Opened) (i : Nat) (now : Int) (indexOk : Nat → Bool)
    (hlist : s.egress.mediaCallbackParamList.length ≤ 2 ^ 32) (hreads : s.ReadsAll i (s.task i)) :
    (s.callback i now indexOk).Opened := by
  refine ⟨h.ordered.callback i now indexOk hlist, h.held.callback h.ordered i now indexOk hlist, ?_⟩
  cases hi : s.task i with
  | written t ret =>
    have ho := h.ordered
    obtain ⟨e, he, hmarks, heq⟩ := callback_eq_of_find now indexOk hi (ho.find_eq hlist (ho.mem_list hi))
    have hopen := @staysOpen_handleFinished e s.mem now indexOk s.egress.mediaCallbackParamList false
      (hmarks.egressStatus ▸ h.counted.egressStatus) (ho.marked_data he)
    have hlength := h.length_completed hi hreads
    have hresult : (s.task i).result.isNone = true := hi ▸ rfl
    rw [heq]
    generalize FileEgress.handleFinished _ _ _ _ _ e = e1 at hopen ⊢
    refine ⟨?_, hopen.ne_closed (hmarks.egressStatus ▸ h.counted.egressStatus), fun hno => ?_, ?_⟩
    · -- the bytes go from one sum to the other
      have hsizes := h.counted.sizes
      have hpending : s.pending = (s.data i).length +
          pending { s with egress := e1, task := Function.update s.task i (.called t ret) } :=
        bytesOf_remove (h.ordered.unused i (hi ▸ IoTask.noConfusion)) hresult rfl rfl
          (by simp only [Function.update_self]; rfl) fun j hj => by simp only [Function.update_of_ne hj]
      rw [hpending] at hsizes
      rw [hopen.received, hopen.written, hmarks.received, hmarks.written, hlength, UInt64.add_assoc,
        ← UInt64.ofNat_add]
      exact hsizes
    · exact h.counted.recordFileFD (hmarks.recordFileFD.symm.trans (hopen.recordFileFD.symm.trans hno))
    · rw [hopen.finished, hmarks.finished, h.counted.finished]
  | _ =>
    rw [EgressSystem.callback, hi]
    exact h.counted

/-- The condition for a step of the writes: of a callback, and when a write is counted. -/
def CallsBack (s : EgressSystem) : Act → Prop
  | .callback i now _ =>
    s.egress.mediaCallbackParamList.length ≤ 2 ^ 32 ∧ s.egress.InTime i now ∧ s.ReadsAll i (s.task i)
  | .count i => i < s.submitted → s.counted i = false → s.mem.recvedLength (s.mb i) = (s.data i).length
  | _ => True

instance (s : EgressSystem) : ∀ a, Decidable (s.CallsBack a)
  | .callback i now _ =>
    inferInstanceAs (Decidable (_ ∧ s.egress.InTime i now ∧ s.ReadsAll i (s.task i)))
  | .count i => inferInstanceAs (Decidable (i < s.submitted → _ = false → _ = (s.data i).length))
  | .write .. | .output .. | .release _ | .otherOutput .. | .otherBlock .. =>
    inferInstanceAs (Decidable True)

theorem Opened.step (h : s.Opened) (a : Act) (hok : s.CallsBack a) : (s.step a).Opened := by
  cases a with
  | write b bytes isTmpfsMemory hasIndexList recvFrameTime now first second =>
    exact ⟨h.ordered.write b bytes isTmpfsMemory hasIndexList recvFrameTime now first second,
      h.held.write h.ordered b bytes isTmpfsMemory hasIndexList recvFrameTime now first second,
      h.counted.write b bytes isTmpfsMemory hasIndexList recvFrameTime now first second⟩
  | count i => exact ⟨h.ordered.counts i, h.held.count i, h.counted.count i hok⟩
  | output i io => exact ⟨h.ordered.output i io, h.held.output h.ordered i io, h.counted.output i io⟩
  | callback i now indexOk => exact h.callback i now indexOk hok.1 hok.2.2
  | release i => exact ⟨h.ordered.release i, h.held.release i, h.counted.release i⟩
  | otherOutput t bytes =>
    exact ⟨h.ordered.otherOutput t bytes, h.held.otherOutput h.ordered t bytes, h.counted.otherOutput t bytes⟩
  | otherBlock b bytes isTmpfsMemory =>
    exact ⟨h.ordered.otherBlock b bytes isTmpfsMemory, h.held.otherBlock b bytes isTmpfsMemory,
      h.counted.otherBlock b bytes isTmpfsMemory⟩

theorem opened_init (debugWriteFile : Bool) : (init debugWriteFile).Opened :=
  ⟨ordered_init debugWriteFile, held_init debugWriteFile, rfl, EgressStatus.noConfusion, fun _ => rfl, rfl⟩

end EgressSystem

/-! ## The request of `close` -/

namespace FileEgress

variable {e e' e0 e0' : FileEgress} {c : Nat} {m : MediaMemory} {now : Int} {indexOk : Nat → Bool}

/-- `e` is closing: it is as `e0`, but it has the request at address `c` at the end of the list. -/
structure Beside (c : Nat) (e e0 : FileEgress) : Prop where
  egressStatus : e.egressStatus = .closing
  list : e.mediaCallbackParamList = e0.mediaCallbackParamList ++ [c]
  param : ∀ i, i ≠ c → e.param i = e0.param i
  index : (e.param c).ulWriteIndex = UInt32.ofNat (c + 1)
  data : (e.param c).pMediaData = none
  received : e.ullAllRecvedDataSize = e0.ullAllRecvedDataSize
  written : e.ullWriteDataSize = e0.ullWriteDataSize
  finished : e.finished = []

/-- The other egress may change where nothing is said of it. -/
theorem Beside.right (h : Beside c e e0) (hlist : e0'.mediaCallbackParamList = e0.mediaCallbackParamList)
    (hparam : e0'.param = e0.param) (hreceived : e0'.ullAllRecvedDataSize = e0.ullAllRecvedDataSize)
    (hwritten : e0'.ullWriteDataSize = e0.ullWriteDataSize) : Beside c e e0' :=
  ⟨h.egressStatus, by rw [hlist]; exact h.list, by rw [hparam]; exact h.param, h.index, h.data,
    h.received.trans hreceived.symm, h.written.trans hwritten.symm, h.finished⟩

theorem setError_closing (h : e.egressStatus = .closing) : e.setError = e := by
  rw [setError, if_neg]
  rw [h]
  exact EgressStatus.noConfusion

/-- A write is handled in both. -/
theorem Beside.handle (h : Beside c e e0) (hopen : e0.egressStatus ≠ .closed) (i : Nat) (place : MediaPlace)
    (write_result : Int32) (ok : Bool) (rest : List Nat) :
    Beside c
      (FileEgress.handleWriteCallBackParam { e with mediaCallbackParamList := rest ++ [c] } m i place
        write_result ok)
      (FileEgress.handleWriteCallBackParam { e0 with mediaCallbackParamList := rest } m i place
        write_result ok) := by
  have hclosing : e.egressStatus ≠ .closed := by
    rw [h.egressStatus]
    exact EgressStatus.noConfusion
  have hkept := kept_handleWriteCallBackParam { e with mediaCallbackParamList := rest ++ [c] } m i place
    write_result ok
  have hkept0 := kept_handleWriteCallBackParam { e0 with mediaCallbackParamList := rest } m i place
    write_result ok
  have hstays := staysOpen_handleWriteCallBackParam
    (e := { e with mediaCallbackParamList := rest ++ [c] }) hclosing m i place write_result ok
  have hstays0 := staysOpen_handleWriteCallBackParam
    (e := { e0 with mediaCallbackParamList := rest }) hopen m i place write_result ok
  generalize FileEgress.handleWriteCallBackParam _ m i place write_result ok = e1 at hkept hstays ⊢
  generalize FileEgress.handleWriteCallBackParam _ m i place write_result ok = e2 at hkept0 hstays0 ⊢
  have hparam : e1.param = e.param := hkept.param
  have hparam0 : e2.param = e0.param := hkept0.param
  refine ⟨hstays.closing h.egressStatus, ?_, fun j hj => ?_, ?_, ?_, ?_, ?_, hstays.finished.trans h.finished⟩
  · rw [hkept.list, hkept0.list]
  · rw [hparam, hparam0]
    exact h.param j hj
  · rw [hparam]
    exact h.index
  · rw [hparam]
    exact h.data
  · exact hstays.received.trans (h.received.trans hstays0.received.symm)
  · exact hstays.written.trans (h.written.trans hstays0.written.symm)

/-- The second loop of `on_write_finish`. When the writes have all been handled and the request has finished,
it ends the record if the sizes agree; otherwise the request stays behind the writes. -/
theorem Beside.handleFinished {l : List Nat} {deleted : Bool} (h : Beside c e e0) (hc : c ∉ l)
    (hopen : e0.egressStatus ≠ .closed) (hdata : ∀ i ∈ l, (e0.param i).pMediaData ≠ none) :
    let r := handleFinished m now indexOk deleted (l ++ [c]) e
    let r0 := handleFinished m now indexOk deleted l e0
    (r0.mediaCallbackParamList ≠ [] ∨ (e.param c).bIsFinished = false →
      Beside c r r0 ∧ r.param c = e.param c) ∧
    (r0.mediaCallbackParamList = [] → (e.param c).bIsFinished = true →
      e0.ullAllRecvedDataSize = e0.ullWriteDataSize → r.finished = [false]) := by
  induction l generalizing e e0 deleted with
  | nil =>
    simp only [List.nil_append]
    rw [FileEgress.handleFinished, FileEgress.handleFinished]
    simp only
    cases hfin : (e.param c).bIsFinished with
    | false =>
      have hlast : ∀ b, Beside c { e with mediaCallbackParamList := [c], crashed := b }
          { e0 with mediaCallbackParamList := [] } :=
        fun _ => ⟨h.egressStatus, rfl, h.param, h.index, h.data, h.received, h.written, h.finished⟩
      simp only [Bool.false_eq_true, if_false]
      rw [setError_closing (e := { e with mediaCallbackParamList := [c] }) h.egressStatus]
      refine ⟨fun _ => ?_, fun _ hf => by cases hf⟩
      split
      · split
        · exact ⟨hlast true, rfl⟩
        · exact ⟨hlast e.crashed, rfl⟩
      · exact ⟨hlast e.crashed, rfl⟩
    | true =>
      simp only [if_true, h.data]
      refine ⟨fun hno => ?_, fun _ _ hsizes => ?_⟩
      · rcases hno with hno | hno
        · exact absurd rfl hno
        · cases hno
      · rw [if_neg (not_not.mpr (h.received.trans (hsizes.trans h.written.symm)))]
        change e.finished ++ [false] = [false]
        rw [h.finished]
        rfl
  | cons i rest ih =>
    obtain ⟨hci, hcrest⟩ := not_or.mp (mt List.mem_cons.mpr hc)
    have hparam : e.param i = e0.param i := h.param i (Ne.symm hci)
    obtain ⟨hplaced, hdata'⟩ := List.forall_mem_cons.mp hdata
    rw [List.cons_append, FileEgress.handleFinished, FileEgress.handleFinished]
    simp only [hparam]
    cases hfin : (e0.param i).bIsFinished with
    | false =>
      -- the first write has not completed
      have hlist : ∀ b b', Beside c { e with mediaCallbackParamList := i :: (rest ++ [c]), crashed := b }
          { e0 with mediaCallbackParamList := i :: rest, crashed := b' } :=
        fun _ _ => ⟨h.egressStatus, rfl, h.param, h.index, h.data, h.received, h.written, h.finished⟩
      simp only [Bool.false_eq_true, if_false]
      rw [setError_closing (e := { e with mediaCallbackParamList := i :: (rest ++ [c]) }) h.egressStatus]
      have herror : ∀ e1 : FileEgress, e1.setError.mediaCallbackParamList = e1.mediaCallbackParamList :=
        fun e1 => (kept_setError e1).list
      have hstays := staysOpen_setError { e0 with mediaCallbackParamList := i :: rest }
      have hkept := kept_setError { e0 with mediaCallbackParamList := i :: rest }
      split
      · cases deleted with
        | true => exact ⟨fun _ => ⟨hlist true true, rfl⟩, fun hnil => by cases hnil⟩
        | false =>
          refine ⟨fun _ => ⟨(hlist e.crashed e0.crashed).right hkept.list hkept.param hstays.received
            hstays.written, rfl⟩, fun hnil => ?_⟩
          simp only [Bool.false_eq_true, if_false] at hnil
          rw [herror] at hnil
          cases hnil
      · exact ⟨fun _ => ⟨hlist e.crashed e0.crashed, rfl⟩, fun hnil => by cases hnil⟩
    | true =>
      simp only [if_true]
      obtain ⟨place, hplace⟩ := Option.ne_none_iff_exists'.mp hplaced
      simp only [hplace]
      have hbeside := h.handle (m := m) hopen i place (e0.param i).nWriteRet (indexOk i) rest
      have hkept := kept_handleWriteCallBackParam { e with mediaCallbackParamList := rest ++ [c] } m i place
        (e0.param i).nWriteRet (indexOk i)
      have hkept0 := kept_handleWriteCallBackParam { e0 with mediaCallbackParamList := rest } m i place
        (e0.param i).nWriteRet (indexOk i)
      have hstays0 := staysOpen_handleWriteCallBackParam
        (e := { e0 with mediaCallbackParamList := rest }) hopen m i place (e0.param i).nWriteRet (indexOk i)
      generalize FileEgress.handleWriteCallBackParam _ m i place _ _ = e1 at hbeside hkept ⊢
      generalize FileEgress.handleWriteCallBackParam _ m i place _ _ = e2 at hbeside hkept0 hstays0 ⊢
      have hparam1 : e1.param = e.param := hkept.param
      have hparam2 : e2.param = e0.param := hkept0.param
      obtain ⟨hstay, hend⟩ := ih hbeside hcrest (hstays0.ne_closed hopen) (by rw [hparam2]; exact hdata')
      rw [hparam1] at hstay hend
      refine ⟨hstay, fun hnil hfinished hsizes => hend hnil hfinished ?_⟩
      rw [hstays0.received, hstays0.written]
      exact hsizes

end FileEgress

/-! ## While the request is in the list -/

namespace EgressSystem

open FileEgress

variable {s s0 : EgressSystem} {e : FileEgress} {i t : Nat} {ret : Int32} {request : IoTask}

/-- The list is empty exactly if all writes have completed. -/
theorem Ordered.list_eq_nil_iff (h : s.Ordered) :
    s.egress.mediaCallbackParamList = [] ↔ ∀ i < s.submitted, (s.task i).result ≠ none := by
  have hcount := h.count
  rw [h.list, List.range'_eq_nil_iff]
  constructor
  · intro hnil i hi
    have hmem : i ∈ s.egress.handled.map Prod.fst := h.handled ▸ List.mem_range.mpr (by omega)
    obtain ⟨u, hu, rfl⟩ := List.mem_map.mp hmem
    rw [h.results u hu]
    exact Option.some_ne_none _
  · intro hall
    by_contra hlt
    exact hall s.handledCount (by omega) (h.first (by omega))

theorem Ordered.list_mem (h : s.Ordered) {j : Nat} (hj : j ∈ s.egress.mediaCallbackParamList) :
    s.handledCount ≤ j ∧ j < s.submitted := by
  have hcount := h.count
  rw [h.list, List.mem_range'_1] at hj
  omega

/-- With the egress `e` the system waits for writes or for the request; without the request it is `s0`. -/
structure Waits (s0 : EgressSystem) (e : FileEgress) (request : IoTask) : Prop where
  opened : s0.Opened
  beside : Beside s0.submitted e s0.egress
  isFinished : (e.param s0.submitted).bIsFinished = true ↔ ∀ t, request ≠ .queued t
  list : (∀ t, request ≠ .queued t) → s0.egress.mediaCallbackParamList ≠ []
  counted : ∀ i < s0.submitted, s0.counted i = true

/-- `close_finished` has been run, and nothing is under way. -/
structure Ended (s : EgressSystem) (request : IoTask) : Prop where
  finished : s.egress.finished = [false]
  writes : ∀ i < s.submitted, (s.task i).result ≠ none
  called : ∀ t, request ≠ .queued t
  unused : ∀ i, s.task i ≠ .none → i < s.submitted

theorem output_withEgress (s : EgressSystem) (e : FileEgress) (i : Nat) (io : IoOutcome) :
    ({ s with egress := e } : EgressSystem).output i io = { s.output i io with egress := e } := by
  cases hi : s.task i with
  | queued t =>
    simp only [EgressSystem.output, hi]
    by_cases hgo : s.Idle t ∧ ∀ j < i, s.task j ≠ .queued t
    · rw [if_pos hgo]
      exact if_pos hgo
    · rw [if_neg hgo]
      exact if_neg hgo
  | _ => simp only [EgressSystem.output, hi]

theorem release_withEgress (s : EgressSystem) (e : FileEgress) (i : Nat) :
    ({ s with egress := e } : EgressSystem).release i = { s.release i with egress := e } := by
  cases hi : s.task i with
  | called t ret => simp only [EgressSystem.release, hi]
  | _ => simp only [EgressSystem.release, hi]

theorem otherOutput_withEgress (s : EgressSystem) (e : FileEgress) (t : Nat) (bytes : List UInt8) :
    ({ s with egress := e } : EgressSystem).otherOutput t bytes = { s.otherOutput t bytes with egress := e } := by
  simp only [EgressSystem.otherOutput]
  by_cases hidle : s.Idle t
  · rw [if_pos hidle]
    exact if_pos hidle
  · rw [if_neg hidle]
    exact if_neg hidle

theorem otherBlock_withEgress (s : EgressSystem) (e : FileEgress) (b : Nat) (bytes : List UInt8)
    (isTmpfsMemory : Bool) : ({ s with egress := e } : EgressSystem).otherBlock b bytes isTmpfsMemory =
      { s.otherBlock b bytes isTmpfsMemory with egress := e } := by
  simp only [EgressSystem.otherBlock]
  by_cases hused : (s.mem.block b).allocated = true
  · simp only [if_pos hused]
  · simp only [if_neg hused]

/-- The request has another index than the writes in the list. -/
theorem Waits.find_writes (h : Waits s0 e request) (hlist : e.mediaCallbackParamList.length ≤ 2 ^ 32)
    (hi : s0.handledCount ≤ i ∧ i < s0.submitted) :
    e.mediaCallbackParamList.find?
      (fun j => (e.param j).ulWriteIndex = (e.param i).ulWriteIndex) = some i := by
  have hlength := congrArg List.length h.beside.list
  rw [List.length_append, List.length_singleton] at hlength
  have hfind := h.opened.ordered.find_eq (by omega) hi
  have hsame : s0.egress.mediaCallbackParamList.find?
      (fun j => (e.param j).ulWriteIndex = (s0.egress.param i).ulWriteIndex) = some i := by
    rw [← hfind]
    refine List.find?_congr fun j hj => ?_
    rw [h.beside.param j (Nat.ne_of_lt (h.opened.ordered.list_mem hj).2)]
  rw [h.beside.list, List.find?_append, h.beside.param i (Nat.ne_of_lt hi.2), hsame]
  rfl

theorem Waits.find_request (h : Waits s0 e request) (hlist : e.mediaCallbackParamList.length ≤ 2 ^ 32) :
    e.mediaCallbackParamList.find?
      (fun j => (e.param j).ulWriteIndex = (e.param s0.submitted).ulWriteIndex) = some s0.submitted := by
  have hlength := congrArg List.length h.beside.list
  rw [List.length_append, List.length_singleton, h.opened.ordered.list, List.length_range'] at hlength
  rw [h.beside.list, List.find?_append, List.find?_eq_none.mpr, Option.none_or]
  · exact List.find?_cons_of_pos (decide_eq_true rfl)
  intro j hj
  obtain ⟨hge, hlt⟩ := h.opened.ordered.list_mem hj
  rw [h.beside.param j (Nat.ne_of_lt hlt), (h.opened.ordered.param j hlt).1, h.beside.index]
  have hne : UInt32.ofNat (j + 1) ≠ UInt32.ofNat (s0.submitted + 1) := by
    intro heq
    have heq := congrArg UInt32.toNat heq
    rw [UInt32.toNat_ofNat', UInt32.toNat_ofNat'] at heq
    omega
  rw [decide_eq_false hne]
  exact Bool.noConfusion

/-- A callback of a write. -/
theorem Waits.callback (h : Waits s0 e request) (i : Nat) (now : Int) (indexOk : Nat → Bool)
    (hlist : e.mediaCallbackParamList.length ≤ 2 ^ 32) (hreads : s0.ReadsAll i (s0.task i)) :
    (∃ s0' e', ({ s0 with egress := e } : EgressSystem).callback i now indexOk = { s0' with egress := e' } ∧
      Waits s0' e' request) ∨
    Ended (({ s0 with egress := e } : EgressSystem).callback i now indexOk) request := by
  cases hi : s0.task i with
  | written t ret =>
    have ho := h.opened.ordered
    have hmem := ho.mem_list hi
    have hne : i ≠ s0.submitted := Nat.ne_of_lt hmem.2
    have hlist0 : s0.egress.mediaCallbackParamList.length ≤ 2 ^ 32 := by
      have hlength := congrArg List.length h.beside.list
      rw [List.length_append] at hlength
      omega
    obtain ⟨e1, he1, hmarks1, heq1⟩ := callback_eq_of_find (s := { s0 with egress := e }) now indexOk hi
      (h.find_writes hlist hmem)
    obtain ⟨e2, he2, hmarks2, heq2⟩ := callback_eq_of_find now indexOk hi (ho.find_eq hlist0 hmem)
    have hcompleted : ({ s0 with egress := e } : EgressSystem).completed i t ret = s0.completed i t ret := by
      rw [completed, completed, h.beside.param i hne]
    rw [hcompleted] at he1 hmarks1
    have hparam1 : e1.param = Function.update e.param i (s0.completed i t ret) := he1.param
    have hparam2 : e2.param = Function.update s0.egress.param i (s0.completed i t ret) := he2.param
    have hrequest : e1.param s0.submitted = e.param s0.submitted := by
      rw [hparam1, Function.update_of_ne hne.symm]
    have hbeside : Beside s0.submitted e1 e2 := by
      refine ⟨hmarks1.egressStatus.trans h.beside.egressStatus, ?_, fun j hj => ?_, hrequest ▸ h.beside.index,
        hrequest ▸ h.beside.data, ?_, ?_, hmarks1.finished.trans h.beside.finished⟩
      · rw [he1.list, he2.list]
        exact h.beside.list
      · rw [hparam1, hparam2]
        by_cases hji : j = i
        · rw [hji, Function.update_self, Function.update_self]
        · rw [Function.update_of_ne hji, Function.update_of_ne hji]
          exact h.beside.param j hj
      · exact hmarks1.received.trans (h.beside.received.trans hmarks2.received.symm)
      · exact hmarks1.written.trans (h.beside.written ▸ hmarks2.written.symm)
    have hopen2 : e2.egressStatus ≠ .closed := hmarks2.egressStatus ▸ h.opened.counted.egressStatus
    have hdata2 := ho.marked_data he2
    obtain ⟨hstay, hend⟩ := @Beside.handleFinished _ _ _ s0.mem now indexOk _ false hbeside
      (fun hc => Nat.lt_irrefl _ (ho.list_mem hc).2) hopen2 hdata2
    have hstays2 := @staysOpen_handleFinished _ s0.mem now indexOk _ false hopen2 hdata2
    have hopened := h.opened.callback i now indexOk hlist0 hreads
    have hegress1 : ({ s0 with egress := e } : EgressSystem).egress.mediaCallbackParamList =
        s0.egress.mediaCallbackParamList ++ [s0.submitted] := h.beside.list
    rw [hegress1] at heq1
    rw [hrequest] at hstay hend
    rw [heq2] at hopened
    rw [heq1]
    by_cases hall : (FileEgress.handleFinished s0.mem now indexOk false s0.egress.mediaCallbackParamList
      e2).mediaCallbackParamList = [] ∧ (e.param s0.submitted).bIsFinished = true
    · right
      have hwrites := hopened.ordered.list_eq_nil_iff.mp hall.1
      have hsizes := hopened.counted.sizes_eq h.counted hwrites
      exact ⟨hend hall.1 hall.2 (hstays2.received.symm.trans (hsizes.trans hstays2.written)), hwrites,
        h.isFinished.mp hall.2, hopened.ordered.unused⟩
    · left
      obtain ⟨hbeside', hrequest'⟩ := hstay (by
        by_cases hnil : (FileEgress.handleFinished s0.mem now indexOk false s0.egress.mediaCallbackParamList
          e2).mediaCallbackParamList = []
        · exact .inr (Bool.eq_false_iff.mpr fun hfin => hall ⟨hnil, hfin⟩)
        · exact .inl hnil)
      refine ⟨_, _, rfl, hopened, hbeside', ?_, fun hdone hnil => hall ⟨hnil, h.isFinished.mpr hdone⟩,
        h.counted⟩
      rw [hrequest']
      exact h.isFinished
  | _ =>
    left
    refine ⟨s0, e, ?_, h⟩
    simp only [EgressSystem.callback, hi]

/-- While writes wait, the loop changes nothing that matters: the first one has not completed. -/
theorem Opened.handleFinished_waiting (h : s.Opened) (hne : s.egress.mediaCallbackParamList ≠ [])
    (now : Int) (indexOk : Nat → Bool) :
    let r := handleFinished s.mem now indexOk false s.egress.mediaCallbackParamList s.egress
    r.mediaCallbackParamList = s.egress.mediaCallbackParamList ∧ r.param = s.egress.param ∧
      r.ullAllRecvedDataSize = s.egress.ullAllRecvedDataSize ∧
      r.ullWriteDataSize = s.egress.ullWriteDataSize := by
  have ho := h.ordered
  have hdata : ∀ j ∈ s.egress.mediaCallbackParamList, (s.egress.param j).pMediaData ≠ none :=
    fun j hj => (ho.param j (ho.list_mem hj).2).2
  have hdrains := @handleFinished_drains _ s.mem now indexOk _ false hdata
  have hstays := @staysOpen_handleFinished _ s.mem now indexOk _ false h.counted.egressStatus hdata
  refine ⟨?_, hdrains.param, hstays.received, hstays.written⟩
  obtain ⟨f, rest, hcons⟩ := List.exists_cons_of_ne_nil hne
  have hfirst : (s.egress.param f).bIsFinished = false := ho.head_waits f (by rw [hcons]; rfl)
  have hdrop := hdrains.list
  rw [hcons, List.dropWhile_cons_of_neg (by simp [hfirst]), ← hcons] at hdrop
  exact hdrop

/-- The first parameter in the list has not finished. -/
theorem Waits.head_waits (h : Waits s0 e request) :
    ∀ f ∈ e.mediaCallbackParamList.head?, (e.param f).bIsFinished = false := by
  intro f hf
  rw [h.beside.list] at hf
  cases hlist : s0.egress.mediaCallbackParamList with
  | nil =>
    rw [hlist] at hf
    obtain rfl := Option.some.inj hf
    by_contra hfin
    exact h.list (h.isFinished.mp (Bool.not_eq_false _ ▸ hfin)) hlist
  | cons j rest =>
    rw [hlist] at hf
    obtain rfl := Option.some.inj hf
    have hmem : j ∈ s0.egress.mediaCallbackParamList := hlist ▸ List.mem_cons_self
    rw [h.beside.param j (Nat.ne_of_lt (h.opened.ordered.list_mem hmem).2)]
    exact h.opened.ordered.head_waits j (hlist ▸ rfl)

/-- The callback of the request. -/
theorem Waits.callbackClose (h : Waits s0 e (.queued t)) (now : Int) (indexOk : Nat → Bool)
    (hlist : e.mediaCallbackParamList.length ≤ 2 ^ 32) :
    Waits s0 (e.onWriteFinish s0.mem now indexOk svsResultOk s0.submitted) (.called t svsResultOk) ∨
    Ended { s0 with egress := e.onWriteFinish s0.mem now indexOk svsResultOk s0.submitted }
      (.called t svsResultOk) := by
  have ho := h.opened.ordered
  have hfind := h.find_request hlist
  have hkept := kept_markFinished (r := svsResultOk) s0.mem hfind
  have hmarks := marks_markFinished (r := svsResultOk) s0.mem hfind
  rw [onWriteFinish]
  rw [h.beside.data] at hmarks
  generalize e.markFinished s0.mem s0.submitted svsResultOk = e1 at hkept hmarks ⊢
  have hparam : e1.param = Function.update e.param s0.submitted
      { e.param s0.submitted with bIsFinished := true, nWriteRet := svsResultOk } := hkept.param
  have hrequest : e1.param s0.submitted =
      { e.param s0.submitted with bIsFinished := true, nWriteRet := svsResultOk } := by
    rw [hparam, Function.update_self]
  have hlist1 : e1.mediaCallbackParamList = s0.egress.mediaCallbackParamList ++ [s0.submitted] :=
    hkept.list.trans h.beside.list
  have hbeside : Beside s0.submitted e1 s0.egress := by
    refine ⟨hmarks.egressStatus.trans h.beside.egressStatus, hlist1, fun j hj => ?_, ?_, ?_,
      hmarks.received.trans h.beside.received, ?_, hmarks.finished.trans h.beside.finished⟩
    · rw [hparam, Function.update_of_ne hj]
      exact h.beside.param j hj
    · rw [hrequest]
      exact h.beside.index
    · rw [hrequest]
      exact h.beside.data
    · exact hmarks.written.trans ((UInt64.add_zero _).trans h.beside.written)
  obtain ⟨hstay, hend⟩ := @Beside.handleFinished _ _ _ s0.mem now indexOk _ false hbeside
    (fun hc => Nat.lt_irrefl _ (ho.list_mem hc).2) h.opened.counted.egressStatus
    fun j hj => (ho.param j (ho.list_mem hj).2).2
  rw [hlist1]
  rw [hrequest] at hstay hend
  by_cases hnil : s0.egress.mediaCallbackParamList = []
  · right
    have hwrites := ho.list_eq_nil_iff.mp hnil
    refine ⟨hend ?_ rfl (h.opened.counted.sizes_eq h.counted hwrites), hwrites,
      fun _ => IoTask.noConfusion, ho.unused⟩
    rw [hnil]
    rfl
  · left
    obtain ⟨hsame, hsameParam, hreceived, hwritten⟩ := h.opened.handleFinished_waiting hnil now indexOk
    obtain ⟨hbeside', hrequest'⟩ := hstay (.inl (by rw [hsame]; exact hnil))
    refine ⟨h.opened, hbeside'.right hsame.symm hsameParam.symm hreceived.symm hwritten.symm, ?_,
      fun _ => hnil, h.counted⟩
    rw [hrequest']
    exact iff_of_true rfl fun _ => IoTask.noConfusion

/-- The callback of the request does not crash: no other parameter is behind it. -/
theorem Waits.callbackClose_crashed (h : Waits s0 e (.queued t)) (now : Int) (indexOk : Nat → Bool)
    (hlist : e.mediaCallbackParamList.length ≤ 2 ^ 32) (he : e.crashed = false) :
    (e.onWriteFinish s0.mem now indexOk svsResultOk s0.submitted).crashed = false := by
  have hkept := kept_markFinished (r := svsResultOk) s0.mem (h.find_request hlist)
  have htime : e.InTime s0.submitted now := by
    intro hhead j hj
    rw [h.beside.list] at hhead hj
    cases hwrites : s0.egress.mediaCallbackParamList with
    | nil =>
      rw [hwrites] at hj
      simp at hj
    | cons f rest =>
      rw [hwrites] at hhead
      obtain rfl := Option.some.inj hhead
      exact absurd (h.opened.ordered.list_mem (hwrites ▸ List.mem_cons_self)).2 (Nat.lt_irrefl _)
  rw [onWriteFinish, hkept.list]
  exact htime.crashed h.head_waits hkept.param rfl (hkept.crashed.trans he)

/-- At the end there is nothing to be called back. -/
theorem Ended.callback (h : Ended s request) (i : Nat) (now : Int) (indexOk : Nat → Bool) :
    s.callback i now indexOk = s := by
  cases hi : s.task i with
  | written t ret => exact absurd (hi ▸ rfl) (h.writes i (h.unused i (hi ▸ IoTask.noConfusion)))
  | _ => rw [EgressSystem.callback, hi]

/-- At the end no write is under way. -/
theorem Ended.io (h : Ended s request) (a : Act) (hwrite : CloseSystem.isWrite a = false) :
    Ended (s.step a) request := by
  have hresult : ∀ i, s.task i ≠ .none → (s.task i).result ≠ none := fun i hi => h.writes i (h.unused i hi)
  cases a with
  | write | count i => cases hwrite
  | output i io =>
    rcases output_cases s i io with ⟨heq, -⟩ | ⟨t, ret, hi, -⟩
    · change Ended (s.output i io) request
      rw [heq]
      exact h
    · exact absurd (hi ▸ rfl) (hresult i (hi ▸ IoTask.noConfusion))
  | callback i now indexOk =>
    change Ended (s.callback i now indexOk) request
    rw [h.callback]
    exact h
  | release i =>
    change Ended (s.release i) request
    rw [EgressSystem.release]
    split
    · next t ret hi =>
      have hsame : ∀ j, (Function.update s.task i (.released t ret) j).result = (s.task j).result :=
        result_update (hi ▸ rfl)
      refine ⟨h.finished, fun j hj hnone => h.writes j hj ((hsame j).symm.trans hnone), h.called,
        fun j hj => h.unused j fun hnone => hj ?_⟩
      change Function.update s.task i _ j = .none
      rw [Function.update_of_ne, hnone]
      rintro rfl
      rw [hi] at hnone
      cases hnone
    · exact h
  | otherOutput t bytes =>
    change Ended (s.otherOutput t bytes) request
    rw [EgressSystem.otherOutput]
    split
    · exact ⟨h.finished, h.writes, h.called, h.unused⟩
    · exact h
  | otherBlock b bytes isTmpfsMemory =>
    change Ended (s.otherBlock b bytes isTmpfsMemory) request
    rw [EgressSystem.otherBlock]
    split
    · exact h
    · exact ⟨h.finished, h.writes, h.called, h.unused⟩

theorem Waits.frame (h : Waits s0 e request) {s0' : EgressSystem} (ho : s0'.Opened)
    (hsubmitted : s0'.submitted = s0.submitted) (hegress : s0'.egress = s0.egress)
    (hcounted : s0'.counted = s0.counted) : Waits s0' e request := by
  refine ⟨ho, ?_, ?_, ?_, ?_⟩
  · rw [hsubmitted, hegress]
    exact h.beside
  · rw [hsubmitted]
    exact h.isFinished
  · rw [hegress]
    exact h.list
  · rw [hsubmitted, hcounted]
    exact h.counted

/-- A step of the writes and the threads after `close`. -/
theorem Waits.io (h : Waits s0 e request) (a : Act) (hwrite : CloseSystem.isWrite a = false)
    (hok : ({ s0 with egress := e } : EgressSystem).CallsBack a) :
    (∃ s0' e', ({ s0 with egress := e } : EgressSystem).step a = { s0' with egress := e' } ∧
      Waits s0' e' request) ∨
    Ended (({ s0 with egress := e } : EgressSystem).step a) request := by
  cases a with
  | write | count i => cases hwrite
  | output i io =>
    refine .inl ⟨s0.output i io, e, output_withEgress s0 e i io, ?_⟩
    have ho := h.opened.step (.output i io) trivial
    change (s0.output i io).Opened at ho
    rcases output_cases s0 i io with ⟨heq, -⟩ | ⟨t, ret, -, -, -, heq, -⟩
    · rw [heq]
      exact h
    · rw [heq] at ho ⊢
      exact h.frame ho rfl rfl rfl
  | callback i now indexOk => exact h.callback i now indexOk hok.1 hok.2.2
  | release i =>
    refine .inl ⟨s0.release i, e, release_withEgress s0 e i, ?_⟩
    have ho := h.opened.step (.release i) trivial
    change (s0.release i).Opened at ho
    rw [EgressSystem.release] at ho ⊢
    split at ho
    · exact h.frame ho rfl rfl rfl
    · exact h
  | otherOutput t bytes =>
    refine .inl ⟨s0.otherOutput t bytes, e, otherOutput_withEgress s0 e t bytes, ?_⟩
    have ho := h.opened.step (.otherOutput t bytes) trivial
    change (s0.otherOutput t bytes).Opened at ho
    rw [EgressSystem.otherOutput] at ho ⊢
    by_cases hidle : s0.Idle t
    · rw [if_pos hidle] at ho ⊢
      exact h.frame ho rfl rfl rfl
    · rw [if_neg hidle]
      exact h
  | otherBlock b bytes isTmpfsMemory =>
    refine .inl ⟨s0.otherBlock b bytes isTmpfsMemory, e, otherBlock_withEgress s0 e b bytes isTmpfsMemory, ?_⟩
    have ho := h.opened.step (.otherBlock b bytes isTmpfsMemory) trivial
    change (s0.otherBlock b bytes isTmpfsMemory).Opened at ho
    rw [EgressSystem.otherBlock] at ho ⊢
    by_cases hused : (s0.mem.block b).allocated = true
    · rw [if_pos hused]
      exact h
    · rw [if_neg hused] at ho ⊢
      exact h.frame ho rfl rfl rfl

/-- A callback of a write does not crash. -/
theorem Waits.step_crashed (h : Waits s0 e request) (a : Act)
    (hok : ({ s0 with egress := e } : EgressSystem).CallsBack a) (he : e.crashed = false) :
    (({ s0 with egress := e } : EgressSystem).step a).egress.crashed = false := by
  cases a with
  | callback i now indexOk =>
    change (({ s0 with egress := e } : EgressSystem).callback i now indexOk).egress.crashed = false
    cases hi : s0.task i with
    | written t ret =>
      exact callback_crashed now indexOk hi (h.find_writes hok.1 (h.opened.ordered.mem_list hi)) h.head_waits
        hok.2.1 he
    | _ =>
      simp only [EgressSystem.callback, hi]
      exact he
  | _ => exact (EgressSystem.step_crashed _ _ (by simp)).trans he

end EgressSystem

/-! ## Every run -/

namespace CloseSystem

open EgressSystem

variable {s : CloseSystem}

/-- When `update_recved_info` counts a write, the length that it takes from the block is the one of that write.
When a request is called back, fewer are in the list than there are indices, no other is overdue behind it, and
what is counted for a write from tmpfs has its length. If there is a file, `close` can allocate its request, and
submit it unless all writes have completed. -/
def Finishes (s : CloseSystem) : Act → Prop
  | .io a => s.sys.CallsBack a
  | .close allocated queue _ => s.closeCalled = false → s.sys.egress.recordFileFD = true →
    allocated = true ∧ (queue = none → ∀ i < s.sys.submitted, (s.sys.task i).result ≠ none)
  | .callbackClose _ _ => s.sys.egress.mediaCallbackParamList.length ≤ 2 ^ 32

instance (s : CloseSystem) : ∀ a, Decidable (s.Finishes a)
  | .io a => inferInstanceAs (Decidable (s.sys.CallsBack a))
  | .close _ queue _ =>
    inferInstanceAs (Decidable (_ = false → _ = true → _ = true ∧ (queue = none → _)))
  | .callbackClose _ _ => inferInstanceAs (Decidable (_ ≤ _))

/-- What holds in every state. -/
inductive Sound (s : CloseSystem) : Prop where
  | opened (called : s.closeCalled = false) (request : s.request = .none) (opened : s.sys.Opened)
  | waits (called : s.closeCalled = true) (s0 : EgressSystem) (e : FileEgress)
      (sys : s.sys = { s0 with egress := e }) (waits : Waits s0 e s.request)
  | ended (called : s.closeCalled = true) (ended : Ended s.sys s.request)

/-- `close` when the record is open. -/
theorem sound_close (hcalled : s.closeCalled = false) (hrequest : s.request = .none) (h : s.sys.Opened)
    (allocated : Bool) (queue : Option Nat) (now : Int) (hok : s.Finishes (.close allocated queue now)) :
    (s.close allocated queue now).Sound := by
  have ho := h.ordered
  rw [close]
  by_cases hreturned : s.Returned
  swap
  · rw [if_pos (.inr hreturned)]
    exact .opened hcalled hrequest h
  rw [if_neg (by simp [hcalled, hreturned])]
  simp only [FileEgress.close]
  cases hfile : s.sys.egress.recordFileFD with
  | false =>
    -- without a file there was no write
    have hnone := h.counted.recordFileFD hfile
    simp only [Bool.false_eq_true, if_false]
    refine .ended rfl ⟨?_, fun i hi => ?_, fun _ => IoTask.noConfusion, ho.unused⟩
    · change s.sys.egress.finished ++ [false] = [false]
      rw [h.counted.finished]
      rfl
    · change i < s.sys.submitted at hi
      omega
  | true =>
    obtain ⟨rfl, hwrites⟩ := hok hcalled hfile
    simp only [Bool.not_true, Bool.false_eq_true, if_false, if_true]
    cases queue with
    | some t =>
      simp only
      refine .waits rfl s.sys _ rfl ⟨h, ?_, ?_, fun hno => absurd rfl (hno t), hreturned⟩
      · refine ⟨rfl, rfl, fun i hi => Function.update_of_ne hi _ _, ?_, ?_, rfl, rfl, h.counted.finished⟩
        · simp only [Function.update_self]
          rw [ho.index, UInt32.ofNat_add]
          rfl
        · simp only [Function.update_self]
      · simp only [Function.update_self]
        exact iff_of_false Bool.noConfusion fun hno => hno t rfl
    | none =>
      have hall := hwrites rfl
      simp only [ne_eq, h.counted.sizes_eq hreturned hall, not_true_eq_false, if_false]
      refine .ended rfl ⟨?_, hall, fun _ => IoTask.noConfusion, ho.unused⟩
      change s.sys.egress.finished ++ [false] = [false]
      rw [h.counted.finished]
      rfl

theorem Sound.step (h : s.Sound) (a : Act) (hok : s.Finishes a) : (s.step a).Sound := by
  cases a with
  | io a =>
    change (if s.closeCalled && isWrite a then s else { s with sys := s.sys.step a } : CloseSystem).Sound
    cases h with
    | opened called request opened =>
      rw [called]
      exact .opened rfl request (opened.step a hok)
    | waits called s0 e sys waits =>
      rw [called]
      cases hwrite : isWrite a with
      | true => exact .waits called s0 e sys waits
      | false =>
        simp only [Bool.and_false, Bool.false_eq_true, if_false]
        have hok' : s.sys.CallsBack a := hok
        rw [sys] at hok' ⊢
        rcases waits.io a hwrite hok' with ⟨s0', e', heq, hwaits⟩ | hended
        · exact .waits rfl s0' e' heq hwaits
        · exact .ended rfl hended
    | ended called ended =>
      rw [called]
      cases hwrite : isWrite a with
      | true => exact .ended called ended
      | false => exact .ended rfl (ended.io a hwrite)
  | close allocated queue now =>
    have hagain : s.closeCalled = true → s.step (.close allocated queue now) = s :=
      fun called => if_pos (.inl called)
    cases h with
    | opened called request opened => exact sound_close called request opened allocated queue now hok
    | waits called s0 e sys waits =>
      rw [hagain called]
      exact .waits called s0 e sys waits
    | ended called ended =>
      rw [hagain called]
      exact .ended called ended
  | callbackClose now indexOk =>
    change (s.callbackClose now indexOk).Sound
    rw [callbackClose]
    cases hrequest : s.request with
    | queued t =>
      simp only
      split
      · cases h with
        | opened called request opened =>
          rw [request] at hrequest
          cases hrequest
        | waits called s0 e sys waits =>
          have hok' : s.sys.egress.mediaCallbackParamList.length ≤ 2 ^ 32 := hok
          rw [sys] at hok' ⊢
          rw [hrequest] at waits
          rcases waits.callbackClose now indexOk hok' with hwaits | hended
          · exact .waits called s0 _ rfl hwaits
          · exact .ended called hended
        | ended called ended => exact absurd hrequest (ended.called t)
      · exact h
    | _ => exact h

theorem sound_init (debugWriteFile : Bool) : (init debugWriteFile).Sound :=
  .opened rfl rfl (opened_init debugWriteFile)

theorem close_crashed (e : FileEgress) (i : Nat) (allocated : Bool) (queue : Option Nat) (now : Int) :
    (e.close i allocated queue now).2.1.crashed = e.crashed := by
  rw [FileEgress.close]
  cases e.recordFileFD with
  | false => rfl
  | true =>
    cases allocated with
    | false => rfl
    | true =>
      cases queue with
      | some t => rfl
      | none =>
        simp only [Bool.not_true, Bool.false_eq_true, if_false, if_true]
        split
        · rfl
        · rfl

/-- A step does not crash. -/
theorem Sound.step_crashed (h : s.Sound) (a : Act) (hok : s.Finishes a) (hs : s.sys.egress.crashed = false) :
    (s.step a).sys.egress.crashed = false := by
  cases a with
  | io a =>
    change (if s.closeCalled && isWrite a then s else { s with sys := s.sys.step a } :
      CloseSystem).sys.egress.crashed = false
    split
    · exact hs
    cases h with
    | opened called request opened =>
      cases a with
      | callback i now indexOk =>
        exact opened.ordered.step_crashed (.callback i now indexOk) hok.1 hok.2.1 hs
      | _ => exact (EgressSystem.step_crashed _ _ (by simp)).trans hs
    | waits called s0 e sys waits =>
      have hok' : s.sys.CallsBack a := hok
      change (s.sys.step a).egress.crashed = false
      rw [sys] at hok' hs ⊢
      exact waits.step_crashed a hok' hs
    | ended called ended =>
      cases a with
      | callback i now indexOk =>
        change (s.sys.callback i now indexOk).egress.crashed = false
        rw [ended.callback]
        exact hs
      | _ => exact (EgressSystem.step_crashed _ _ (by simp)).trans hs
  | close allocated queue now =>
    change (s.close allocated queue now).sys.egress.crashed = false
    rw [close]
    split
    · exact hs
    · exact (close_crashed ..).trans hs
  | callbackClose now indexOk =>
    change (s.callbackClose now indexOk).sys.egress.crashed = false
    rw [callbackClose]
    cases hrequest : s.request with
    | queued t =>
      simp only
      split
      · cases h with
        | opened called request opened =>
          rw [request] at hrequest
          cases hrequest
        | waits called s0 e sys waits =>
          have hok' : s.sys.egress.mediaCallbackParamList.length ≤ 2 ^ 32 := hok
          rw [sys] at hok' hs ⊢
          rw [hrequest] at waits
          exact waits.callbackClose_crashed now indexOk hok' hs
        | ended called ended => exact absurd hrequest (ended.called t)
      · exact hs
    | _ => exact hs

theorem Sound.closesOnce (h : s.Sound) (hs : s.sys.egress.crashed = false) : s.ClosesOnce := by
  cases h with
  | opened called request opened =>
    have hfinished := opened.counted.finished
    refine ⟨by rw [hfinished]; exact Nat.zero_le 1, by simp [hfinished], fun hne => absurd hfinished hne, ?_, hs⟩
    intro hclosed
    rw [called] at hclosed
    cases hclosed
  | waits called s0 e sys waits =>
    have hfinished : s.sys.egress.finished = [] := by
      rw [sys]
      exact waits.beside.finished
    refine ⟨by rw [hfinished]; exact Nat.zero_le 1, by simp [hfinished], fun hne => absurd hfinished hne, ?_, hs⟩
    rintro - ⟨hwrites, hrequest⟩
    rw [sys] at hwrites
    exact absurd (waits.opened.ordered.list_eq_nil_iff.mpr hwrites) (waits.list hrequest)
  | ended called ended =>
    refine ⟨?_, ?_, fun _ => ⟨called, ended.writes, ended.called⟩, fun _ _ => ?_, hs⟩
    · rw [ended.finished]
      exact Nat.le_refl 1
    · simp [ended.finished]
    · rw [ended.finished]
      rfl

/-- Whatever is written, however `close` fares, and in which order the threads complete it. -/
theorem run_closesOnce (debugWriteFile : Bool) (as : List Act)
    (has : Allowed step Finishes (init debugWriteFile) as) :
    (run step (init debugWriteFile) as).ClosesOnce := by
  obtain ⟨hsound, hs⟩ := has.invariant (I := fun s : CloseSystem => s.Sound ∧ s.sys.egress.crashed = false)
    ⟨sound_init debugWriteFile, rfl⟩ fun _ a h hok => ⟨h.1.step a hok, h.1.step_crashed a hok h.2⟩
  exact hsound.closesOnce hs

/-- Two writes, one of them from tmpfs and one that fails; the request completes before them. -/
theorem requestFirst_closesOnce :
    let s := run step (init true)
      [.io (.write 0 [1, 2] true false 3600 0 ⟨.ok, some 0⟩ ⟨.ok, none⟩),
        .io (.write 1 [3] false false 7200 0 ⟨.ok, some 1⟩ ⟨.ok, none⟩), .io (.count 1), .io (.count 0),
        .close true (some 2) 0, .callbackClose 0 fun _ => true, .io (.output 1 ⟨true, true, false, 28⟩),
        .io (.callback 1 0 fun _ => true), .io (.output 0 ⟨true, true, true, 0⟩),
        .io (.callback 0 0 fun _ => true)]
    s.ClosesOnce ∧ s.sys.egress.finished = [false] := by
  exact ⟨run_closesOnce true _ (by decide), by decide⟩

/-- The request can not be submitted while a write is under way: then nothing ends the record. -/
theorem notSubmitted_never_finished :
    let s := run step (init true)
      [.io (.write 0 [1] false false 3600 0 ⟨.ok, some 0⟩ ⟨.ok, none⟩), .io (.count 0), .close true none 0,
        .io (.output 0 ⟨true, true, true, 0⟩), .io (.callback 0 0 fun _ => true), .io (.release 0)]
    s.closeCalled = true ∧ s.Completed ∧ s.sys.egress.finished = [] ∧ ¬ s.ClosesOnce := by
  intro s
  have hfinished : s.sys.egress.finished = [] := by decide
  have hcompleted : s.Completed := ⟨by decide, fun _ => IoTask.noConfusion⟩
  refine ⟨rfl, hcompleted, hfinished, fun h => ?_⟩
  have hlength := h.all rfl hcompleted
  rw [hfinished] at hlength
  cases hlength

end CloseSystem

end AllCamera
