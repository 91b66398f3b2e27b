import AllCamera.Record.FileEgress.Spec

/-!
# The order of the callbacks

However the writes of an egress are completed by the I/O threads, they are handled once each, in the
order in which they were submitted, and as soon as they and all earlier ones have completed
(`run_handledInOrder`), as long as no two writes in the list have one index, and the loop comes to no
parameter that is overdue behind one that it has handled.

* `Ordered`: the invariant; `Below`, `OnTime`: the conditions.
* `not_handledInOrder_overdue`: a callback crashes.
-/

namespace AllCamera

open AllCamera.Run

/-- The numbers up to the first one without a property. -/
theorem range'_span (p : Nat → Bool) (k m : Nat) :
    ∃ c ≤ m, (List.range' k m).takeWhile p = List.range' k c ∧
      (List.range' k m).dropWhile p = List.range' (k + c) (m - c) ∧
      (∀ j, k ≤ j → j < k + c → p j = true) ∧ (c < m → p (k + c) = false) := by
  induction m generalizing k with
  | zero => exact ⟨0, Nat.le_refl 0, rfl, rfl, fun j hk hj => by omega, fun h => by omega⟩
  | succ m ih =>
    rw [List.range'_succ]
    cases hk : p k with
    | false =>
      refine ⟨0, Nat.zero_le _, ?_, ?_, fun j hj hj' => by omega, fun _ => hk⟩
      · rw [List.takeWhile_cons_of_neg (by simp [hk])]
        rfl
      · rw [List.dropWhile_cons_of_neg (by simp [hk]), ← List.range'_succ]
        rfl
    | true =>
      obtain ⟨c, hc, htake, hdrop, hall, hnext⟩ := ih (k + 1)
      have hsum : k + (c + 1) = k + 1 + c := by omega
      refine ⟨c + 1, Nat.succ_le_succ hc, ?_, ?_, fun j hj hj' => ?_, fun h => ?_⟩
      · rw [List.takeWhile_cons_of_pos hk, htake, List.range'_succ]
      · rw [List.dropWhile_cons_of_pos hk, hdrop, hsum, Nat.succ_sub_succ]
      · by_cases hjk : j = k
        · rw [hjk, hk]
        · exact hall j (by omega) (by omega)
      · rw [hsum]
        exact hnext (by omega)

namespace EgressSystem

open FileEgress

variable {s s' : EgressSystem} {i t : Nat} {ret : Int32}

/-- How many writes have been handled. -/
def handledCount (s : EgressSystem) : Nat := s.egress.handled.length

/-- The list has the writes that have not been handled, in the order in which they were submitted, and
the first of them has not completed. -/
structure Ordered (s : EgressSystem) : Prop where
  count : s.handledCount ≤ s.submitted
  list : s.egress.mediaCallbackParamList =
    List.range' s.handledCount (s.submitted - s.handledCount)
  handled : s.egress.handled.map Prod.fst = List.range s.handledCount
  results : ∀ e ∈ s.egress.handled, (s.task e.1).result = some e.2
  first : s.handledCount < s.submitted → (s.task s.handledCount).result = none
  index : s.egress.ulWriteIndex = UInt32.ofNat s.submitted
  param : ∀ i < s.submitted, (s.egress.param i).ulWriteIndex = UInt32.ofNat (i + 1) ∧
    (s.egress.param i).pMediaData ≠ none
  waiting : ∀ i, s.handledCount ≤ i → i < s.submitted →
    (s.task i).result =
      if (s.egress.param i).bIsFinished then some (s.egress.param i).nWriteRet else none
  unused : ∀ i, s.task i ≠ .none → i < s.submitted

/-- No two writes in the list have one index when a write is called back. -/
def Below (s : EgressSystem) : Act → Prop
  | .callback _ _ _ => s.egress.mediaCallbackParamList.length ≤ 2 ^ 32
  | _ => True

instance (s : EgressSystem) : ∀ a, Decidable (s.Below a)
  | .callback _ _ _ => inferInstanceAs (Decidable (_ ≤ _))
  | .write .. | .count _ | .output .. | .release _ | .otherOutput .. | .otherBlock .. =>
    inferInstanceAs (Decidable True)

/-- No parameter is overdue behind one that a callback handles. -/
def OnTime (s : EgressSystem) : Act → Prop
  | .callback i now _ => s.egress.InTime i now
  | _ => True

instance (s : EgressSystem) : ∀ a, Decidable (s.OnTime a)
  | .callback i now _ => inferInstanceAs (Decidable (s.egress.InTime i now))
  | .write .. | .count _ | .output .. | .release _ | .otherOutput .. | .otherBlock .. =>
    inferInstanceAs (Decidable True)

/-- A step that submits and completes no write. -/
theorem Ordered.frame (h : s.Ordered) (hegress : Kept s.egress s'.egress)
    (hsubmitted : s'.submitted = s.submitted) (hresult : ∀ i, (s'.task i).result = (s.task i).result)
    (htask : ∀ i, s'.task i ≠ .none → s.task i ≠ .none) : s'.Ordered := by
  have hcount : s'.handledCount = s.handledCount := by
    rw [handledCount, hegress.handled, handledCount]
  refine ⟨?_, ?_, ?_, ?_, ?_, ?_, ?_, ?_, fun i hi => hsubmitted ▸ h.unused i (htask i hi)⟩
  · rw [hcount, hsubmitted]
    exact h.count
  · rw [hegress.list, hcount, hsubmitted]
    exact h.list
  · rw [hegress.handled, hcount]
    exact h.handled
  · intro e he
    rw [hresult]
    exact h.results e (hegress.handled ▸ he)
  · rw [hcount, hsubmitted, hresult]
    exact h.first
  · rw [hegress.ulWriteIndex, hsubmitted]
    exact h.index
  · rw [hegress.param, hsubmitted]
    exact h.param
  · intro i hi hi'
    rw [hegress.param, hresult]
    exact h.waiting i (hcount ▸ hi) (hsubmitted ▸ hi')

theorem Ordered.task_submitted (h : s.Ordered) : s.task s.submitted = .none := by
  by_contra hne
  exact Nat.lt_irrefl _ (h.unused _ hne)

theorem result_update {task : IoTask} (h : task.result = (s.task i).result) (j : Nat) :
    (Function.update s.task i task j).result = (s.task j).result := by
  by_cases hji : j = i
  · rw [hji, Function.update_self, h]
  · rw [Function.update_of_ne hji]

theorem Ordered.submit (h : s.Ordered) {place : MediaPlace}
    (hsubmits : Submits s.egress s.submitted place s'.egress) (hsubmitted : s'.submitted = s.submitted + 1)
    (htask : s'.task = Function.update s.task s.submitted (.queued t)) : s'.Ordered := by
  obtain ⟨p, hparam, hindex, hplace, hfinished⟩ := hsubmits.param
  have hcount' := h.count
  have hcount : s'.handledCount = s.handledCount := by
    rw [handledCount, hsubmits.handled, handledCount]
  have hresult : ∀ i, (s'.task i).result = (s.task i).result :=
    fun i => htask ▸ result_update (h.task_submitted ▸ rfl) i
  refine ⟨?_, ?_, ?_, fun e he => ?_, fun _ => ?_, ?_, fun i hi => ?_, fun i hi hi' => ?_, fun i hi => ?_⟩
  · omega
  · have hlen : s.submitted + 1 - s.handledCount = s.submitted - s.handledCount + 1 := by omega
    rw [hsubmits.list, h.list, hcount, hsubmitted, hlen, List.range'_concat, Nat.one_mul,
      Nat.add_sub_cancel' hcount']
  · rw [hsubmits.handled, hcount]
    exact h.handled
  · rw [hresult]
    exact h.results e (hsubmits.handled ▸ he)
  · rw [hcount, hresult]
    by_cases hlt : s.handledCount < s.submitted
    · exact h.first hlt
    · rw [Nat.le_antisymm hcount' (Nat.not_lt.mp hlt), h.task_submitted]
      rfl
  · rw [hsubmits.ulWriteIndex, hsubmitted, h.index, UInt32.ofNat_add]
    rfl
  · rw [hparam]
    by_cases hi' : i = s.submitted
    · rw [hi', Function.update_self, hindex, h.index, hplace, UInt32.ofNat_add]
      exact ⟨rfl, Option.some_ne_none _⟩
    · rw [Function.update_of_ne hi']
      exact h.param i (by omega)
  · rw [hparam, hresult]
    by_cases hne : i = s.submitted
    · rw [hne, Function.update_self, h.task_submitted, hfinished]
      rfl
    · rw [Function.update_of_ne hne]
      exact h.waiting i (hcount ▸ hi) (by omega)
  · rw [htask] at hi
    by_cases hne : i = s.submitted
    · omega
    · rw [Function.update_of_ne hne] at hi
      have := h.unused i hi
      omega

/-- Block `b` is filled, and given to thread `t` with the next write. -/
def submit (s : EgressSystem) (b : Nat) (bytes : List UInt8) (isTmpfsMemory hasIndexList : Bool)
    (t : Nat) (e' : FileEgress) : EgressSystem :=
  { s with
    egress := e'
    mem := fillBlock s.mem b (some s.submitted) bytes isTmpfsMemory hasIndexList
    submitted := s.submitted + 1
    task := Function.update s.task s.submitted (.queued t)
    counted := Function.update s.counted s.submitted false
    mb := Function.update s.mb s.submitted b
    isTmpfsMemory := Function.update s.isTmpfsMemory s.submitted isTmpfsMemory
    hasIndexList := Function.update s.hasIndexList s.submitted hasIndexList
    data := Function.update s.data s.submitted bytes }

/-- Nothing happens since the block is in use; or it is filled, and then released again or given to a
thread. -/
theorem write_cases (s : EgressSystem) (b : Nat) (bytes : List UInt8) (isTmpfsMemory hasIndexList : Bool)
    (recvFrameTime now : Int) (first second : Turn) :
    let s' := s.write b bytes isTmpfsMemory hasIndexList recvFrameTime now first second
    s' = s ∨ (s.mem.block b).allocated = false ∧
      ((∃ e', Writes s.egress e' ∧
        s' = { s with
          egress := e'
          mem := (fillBlock s.mem b (some s.submitted) bytes isTmpfsMemory hasIndexList).release b }) ∨
      ∃ t e', Submits s.egress s.submitted (.block b) e' ∧
        s' = s.submit b bytes isTmpfsMemory hasIndexList t e') := by
  intro s'
  by_cases hfree : (s.mem.block b).allocated = true
  · exact .inl (if_pos hfree)
  refine .inr ⟨Bool.eq_false_iff.mpr hfree, ?_⟩
  have hs' : s' = _ := if_neg hfree
  rw [hs']
  simp only
  have hspec := submit_spec s.egress s.submitted (.block b) recvFrameTime now first second
  generalize s.egress.submit _ _ _ _ _ _ = r at hspec ⊢
  obtain ⟨queue, e'⟩ := r
  cases queue with
  | none => exact .inl ⟨e', hspec, rfl⟩
  | some t => exact .inr ⟨t, e', hspec, rfl⟩

theorem Ordered.write (h : s.Ordered) (b : Nat) (bytes : List UInt8) (isTmpfsMemory hasIndexList : Bool)
    (recvFrameTime now : Int) (first second : Turn) :
    (s.write b bytes isTmpfsMemory hasIndexList recvFrameTime now first second).Ordered := by
  rcases write_cases s b bytes isTmpfsMemory hasIndexList recvFrameTime now first second with
    heq | ⟨-, ⟨e', hwrites, heq⟩ | ⟨t, e', hsubmits, heq⟩⟩
  · rw [heq]
    exact h
  · rw [heq]
    exact h.frame hwrites.toKept rfl (fun _ => rfl) fun _ hi => hi
  · rw [heq]
    exact h.submit hsubmits rfl rfl

theorem Ordered.counts (h : s.Ordered) (i : Nat) : (s.count i).Ordered := by
  rw [EgressSystem.count]
  split
  · exact h.frame ⟨rfl, rfl, rfl, rfl, rfl, rfl⟩ rfl (fun _ => rfl) fun _ hi => hi
  · exact h

/-- A write gets further in its thread. -/
theorem Ordered.advance (h : s.Ordered) (hegress : s'.egress = s.egress)
    (hsubmitted : s'.submitted = s.submitted) {task : IoTask}
    (htask : s'.task = Function.update s.task i task) (hi : s.task i ≠ .none)
    (hresult : task.result = (s.task i).result) : s'.Ordered := by
  refine h.frame (hegress ▸ .refl _) hsubmitted (fun j => htask ▸ result_update hresult j) fun j hj => ?_
  rw [htask] at hj
  by_cases hji : j = i
  · rwa [hji]
  · rwa [Function.update_of_ne hji] at hj

theorem Ordered.output (h : s.Ordered) (i : Nat) (io : IoOutcome) : (s.output i io).Ordered := by
  rw [EgressSystem.output]
  split
  · next t hi =>
    split
    · exact h.advance rfl rfl rfl (hi ▸ IoTask.noConfusion) (hi ▸ rfl)
    · exact h
  · exact h

theorem release_egress (s : EgressSystem) (i : Nat) : (s.release i).egress = s.egress := by
  rw [EgressSystem.release]
  split
  · rfl
  · rfl

theorem Ordered.release (h : s.Ordered) (i : Nat) : (s.release i).Ordered := by
  rw [EgressSystem.release]
  split
  · next t ret hi => exact h.advance rfl rfl rfl (hi ▸ IoTask.noConfusion) (hi ▸ rfl)
  · exact h

theorem Ordered.otherOutput (h : s.Ordered) (t : Nat) (bytes : List UInt8) :
    (s.otherOutput t bytes).Ordered := by
  rw [EgressSystem.otherOutput]
  split
  · exact h.frame (.refl _) rfl (fun _ => rfl) fun _ hi => hi
  · exact h

theorem Ordered.otherBlock (h : s.Ordered) (b : Nat) (bytes : List UInt8) (isTmpfsMemory : Bool) :
    (s.otherBlock b bytes isTmpfsMemory).Ordered := by
  rw [EgressSystem.otherBlock]
  split
  · exact h
  · exact h.frame (.refl _) rfl (fun _ => rfl) fun _ hi => hi

/-! ## A callback -/

/-- The parameter of a write that has completed. -/
def completed (s : EgressSystem) (i t : Nat) (ret : Int32) : CallBackParam :=
  { s.egress.param i with
    pMediaData := if s.isTmpfsMemory i then some (.tmpfsMb t) else (s.egress.param i).pMediaData
    bIsFinished := true
    nWriteRet := ret }

/-- The completed parameter has its index and its block. -/
theorem Ordered.param_update (h : s.Ordered) (j : Nat) (hj : j < s.submitted) :
    (Function.update s.egress.param i (s.completed i t ret) j).ulWriteIndex = UInt32.ofNat (j + 1) ∧
      (Function.update s.egress.param i (s.completed i t ret) j).pMediaData ≠ none := by
  have hold := h.param j hj
  by_cases hji : j = i
  · rw [hji, Function.update_self, completed]
    refine ⟨hji ▸ hold.1, ?_⟩
    simp only
    split
    · exact Option.some_ne_none _
    · exact hji ▸ hold.2
  · rwa [Function.update_of_ne hji]

/-- A write that has not been handled is in the list. -/
theorem Ordered.mem_list (h : s.Ordered) (hi : s.task i = .written t ret) :
    s.handledCount ≤ i ∧ i < s.submitted := by
  refine ⟨Nat.not_lt.mp fun hlt => ?_, h.unused i (hi ▸ IoTask.noConfusion)⟩
  have hmem : i ∈ s.egress.handled.map Prod.fst := h.handled ▸ List.mem_range.mpr hlt
  obtain ⟨e, he, rfl⟩ := List.mem_map.mp hmem
  have := h.results e he
  rw [hi] at this
  cases this

/-- The first parameter with the index of a write is its own. -/
theorem Ordered.find_eq (h : s.Ordered) (hlist : s.egress.mediaCallbackParamList.length ≤ 2 ^ 32)
    (hi : s.handledCount ≤ i ∧ i < s.submitted) :
    s.egress.mediaCallbackParamList.find?
      (fun j => (s.egress.param j).ulWriteIndex = (s.egress.param i).ulWriteIndex) = some i := by
  rw [h.list, List.length_range'] at hlist
  rw [h.list, List.find?_range'_eq_some]
  refine ⟨decide_eq_true rfl, ?_, fun j hj hji => ?_⟩
  · rw [List.mem_range'_1]
    omega
  · rw [(h.param j (by omega)).1, (h.param i hi.2).1]
    have hne : UInt32.ofNat (j + 1) ≠ UInt32.ofNat (i + 1) := by
      intro heq
      have heq := congrArg UInt32.toNat heq
      rw [UInt32.toNat_ofNat', UInt32.toNat_ofNat'] at heq
      omega
    rw [decide_eq_false hne]
    rfl

/-- The callback marks the parameter of its write, if it finds that, and goes over the list. -/
theorem callback_eq_of_find (now : Int) (indexOk : Nat → Bool) (hi : s.task i = .written t ret)
    (hfind : s.egress.mediaCallbackParamList.find?
      (fun j => (s.egress.param j).ulWriteIndex = (s.egress.param i).ulWriteIndex) = some i) :
    ∃ e : FileEgress, Kept { s.egress with
        param := Function.update s.egress.param i (s.completed i t ret) } e ∧
      Marks (((s.completed i t ret).pMediaData.map s.mem.length).getD 0) s.egress e ∧
      s.callback i now indexOk = { s with
        egress := handleFinished s.mem now indexOk false s.egress.mediaCallbackParamList e
        task := Function.update s.task i (.called t ret) } := by
  rw [EgressSystem.callback]
  simp only [hi, onWriteFinish]
  cases htmpfs : s.isTmpfsMemory i with
  | false =>
    have hkept := kept_markFinished (r := ret) s.mem hfind
    refine ⟨s.egress.markFinished s.mem i ret, ?_, ?_, ?_⟩
    · rw [completed, htmpfs]
      exact hkept
    · rw [completed, htmpfs]
      exact marks_markFinished s.mem hfind
    · simp only [Bool.false_eq_true, if_false]
      rw [hkept.list]
  | true =>
    -- the buffer of the thread is put into the parameter before
    let e : FileEgress := { s.egress with
      param := Function.update s.egress.param i
        { s.egress.param i with pMediaData := some (.tmpfsMb t) } }
    have hindex : ∀ j, (e.param j).ulWriteIndex = (s.egress.param j).ulWriteIndex := by
      intro j
      change (Function.update s.egress.param i _ j).ulWriteIndex = _
      by_cases hji : j = i
      · rw [hji, Function.update_self]
      · rw [Function.update_of_ne hji]
    have hself : e.param i = { s.egress.param i with pMediaData := some (.tmpfsMb t) } :=
      Function.update_self ..
    have hfind' : e.mediaCallbackParamList.find?
        (fun j => (e.param j).ulWriteIndex = (e.param i).ulWriteIndex) = some i := by
      simpa only [hindex] using hfind
    have hkept := kept_markFinished (r := ret) s.mem hfind'
    have hmarks := marks_markFinished (r := ret) s.mem hfind'
    have hparam : Function.update e.param i { e.param i with bIsFinished := true, nWriteRet := ret } =
        Function.update s.egress.param i (s.completed i t ret) := by
      rw [hself, completed, htmpfs]
      exact Function.update_idem ..
    rw [hparam] at hkept
    rw [hself] at hmarks
    refine ⟨e.markFinished s.mem i ret, hkept, ?_, ?_⟩
    · rw [completed, htmpfs]
      exact ⟨hmarks.1, hmarks.2, hmarks.3, hmarks.4, hmarks.5⟩
    · simp only [if_true]
      rw [hkept.list]

/-- Behind the mark, the writes in the list have their blocks. -/
theorem Ordered.marked_data (h : s.Ordered) {e : FileEgress}
    (he : Kept { s.egress with param := Function.update s.egress.param i (s.completed i t ret) } e) :
    ∀ j ∈ s.egress.mediaCallbackParamList, (e.param j).pMediaData ≠ none := by
  intro j hj
  rw [h.list, List.mem_range'_1] at hj
  have hparam : e.param = Function.update s.egress.param i (s.completed i t ret) := he.param
  rw [hparam]
  exact (h.param_update j (by omega)).2

theorem Ordered.callback_drains (h : s.Ordered) (now : Int) (indexOk : Nat → Bool)
    (hlist : s.egress.mediaCallbackParamList.length ≤ 2 ^ 32) (hi : s.task i = .written t ret) :
    ∃ e e' : FileEgress, Kept { s.egress with
        param := Function.update s.egress.param i (s.completed i t ret) } e ∧
      Drains s.mem s.egress.mediaCallbackParamList e e' ∧
      s.callback i now indexOk = { s with
        egress := e', task := Function.update s.task i (.called t ret) } := by
  obtain ⟨e, he, -, heq⟩ := callback_eq_of_find now indexOk hi (h.find_eq hlist (h.mem_list hi))
  exact ⟨e, _, he, handleFinished_drains (h.marked_data he), heq⟩

/-- The parameters of the writes from a number on that have completed are handled. -/
theorem Ordered.complete (h : s.Ordered) (hi : s.task i = .written t ret) {e : FileEgress}
    (he : Kept { s.egress with param := Function.update s.egress.param i (s.completed i t ret) } e)
    {e' : FileEgress} {m : MediaMemory} (hdrains : Drains m s.egress.mediaCallbackParamList e e') :
    Ordered { s with egress := e', task := Function.update s.task i (.called t ret) } := by
  obtain ⟨hge, hlt⟩ := h.mem_list hi
  have hparam : e.param = Function.update s.egress.param i (s.completed i t ret) := he.param
  generalize htask : Function.update s.task i (.called t ret) = task
  have hres : ∀ j, j ≠ i → (task j).result = (s.task j).result := by
    intro j hji
    rw [← htask, Function.update_of_ne hji]
  have hresi : (task i).result = some ret := by
    rw [← htask, Function.update_self]
    rfl
  have hwaiting : ∀ j, s.handledCount ≤ j → j < s.submitted → (task j).result =
      if (e.param j).bIsFinished then some (e.param j).nWriteRet else none := by
    intro j hj hj'
    rw [hparam]
    by_cases hji : j = i
    · rw [hji, Function.update_self, hresi]
      rfl
    · rw [Function.update_of_ne hji, hres j hji]
      exact h.waiting j hj hj'
  obtain ⟨c, hc, htake, hdrop, hall, hnext⟩ := range'_span (fun j => (e.param j).bIsFinished)
    s.handledCount (s.submitted - s.handledCount)
  have hcount' := h.count
  have hhandled : e'.handled = s.egress.handled ++
      (List.range' s.handledCount c).map fun j => (j, (e.param j).nWriteRet) := by
    rw [hdrains.handled, h.list, htake, he.handled]
  have hcount : e'.handled.length = s.handledCount + c := by
    rw [hhandled, List.length_append, List.length_map, List.length_range']
    rfl
  refine ⟨?_, ?_, ?_, fun u hu => ?_, fun hlt' => ?_, ?_, fun j hj => ?_, fun j hj hj' => ?_, fun j hj => ?_⟩
  · change e'.handled.length ≤ s.submitted
    omega
  · change e'.mediaCallbackParamList = List.range' e'.handled.length (s.submitted - e'.handled.length)
    rw [hdrains.list, h.list, hdrop, hcount, Nat.sub_sub]
  · change e'.handled.map Prod.fst = List.range e'.handled.length
    rw [hcount, hhandled, List.map_append, h.handled, List.map_map, List.range_eq_range',
      List.range_eq_range', ← List.range'_append_1, Nat.zero_add]
    exact congrArg _ (List.map_id _)
  · change (task u.1).result = some u.2
    rw [hhandled] at hu
    rcases List.mem_append.mp hu with hu | hu
    · have hold := h.results u hu
      rw [hres u.1 fun hui => ?_]
      · exact hold
      · rw [hui, hi] at hold
        cases hold
    · obtain ⟨j, hj, rfl⟩ := List.mem_map.mp hu
      rw [List.mem_range'_1] at hj
      rw [hwaiting j hj.1 (by omega), hall j hj.1 hj.2]
      rfl
  · change e'.handled.length < s.submitted at hlt'
    change (task e'.handled.length).result = none
    rw [hcount, hwaiting _ (by omega) (by omega), hnext (by omega)]
    rfl
  · exact (hdrains.ulWriteIndex.trans he.ulWriteIndex).trans h.index
  · change (e'.param j).ulWriteIndex = _ ∧ (e'.param j).pMediaData ≠ none
    rw [hdrains.param, hparam]
    exact h.param_update j hj
  · change e'.handled.length ≤ j at hj
    change (task j).result = if (e'.param j).bIsFinished then some (e'.param j).nWriteRet else none
    rw [hdrains.param]
    exact hwaiting j (by omega) hj'
  · change task j ≠ .none at hj
    by_cases hji : j = i
    · rw [hji]
      exact hlt
    · rw [← htask, Function.update_of_ne hji] at hj
      exact h.unused j hj

theorem Ordered.callback (h : s.Ordered) (i : Nat) (now : Int) (indexOk : Nat → Bool)
    (hok : s.Below (.callback i now indexOk)) : (s.callback i now indexOk).Ordered := by
  cases hi : s.task i with
  | written t ret =>
    obtain ⟨e, e', he, hdrains, heq⟩ := h.callback_drains now indexOk hok hi
    rw [heq]
    exact h.complete hi he hdrains
  | _ =>
    rw [EgressSystem.callback, hi]
    exact h

/-! ## Every run -/

theorem Ordered.step (h : s.Ordered) (a : Act) (hok : s.Below a) : (s.step a).Ordered := by
  cases a with
  | write b bytes isTmpfsMemory hasIndexList recvFrameTime now first second =>
    exact h.write b bytes isTmpfsMemory hasIndexList recvFrameTime now first second
  | count i => exact h.counts i
  | output i io => exact h.output i io
  | callback i now indexOk => exact h.callback i now indexOk hok
  | release i => exact h.release i
  | otherOutput t bytes => exact h.otherOutput t bytes
  | otherBlock b bytes isTmpfsMemory => exact h.otherBlock b bytes isTmpfsMemory

theorem ordered_init (debugWriteFile : Bool) : (init debugWriteFile).Ordered where
  count := Nat.le_refl 0
  list := rfl
  handled := rfl
  results _ he := (List.not_mem_nil he).elim
  first h := (Nat.lt_irrefl 0 h).elim
  index := rfl
  param i h := (Nat.not_lt_zero i h).elim
  waiting i _ h := (Nat.not_lt_zero i h).elim
  unused _ h := (h rfl).elim

/-- The first write in the list has not completed. -/
theorem Ordered.head_waits (h : s.Ordered) :
    ∀ f ∈ s.egress.mediaCallbackParamList.head?, (s.egress.param f).bIsFinished = false := by
  intro f hf
  have hmem := List.mem_of_mem_head? hf
  rw [h.list, List.mem_range'_1] at hmem
  have hlt : s.handledCount < s.submitted := by omega
  obtain ⟨n, hn⟩ : ∃ n, s.submitted - s.handledCount = n + 1 := ⟨s.submitted - s.handledCount - 1, by omega⟩
  rw [h.list, hn, List.range'_succ] at hf
  obtain rfl := Option.some.inj hf
  have hwaiting := h.waiting s.handledCount (Nat.le_refl _) hlt
  rw [h.first hlt] at hwaiting
  by_contra hfin
  rw [if_pos (Bool.not_eq_false _ ▸ hfin)] at hwaiting
  cases hwaiting

/-- A step but for a callback does not crash. -/
theorem step_crashed (s : EgressSystem) (a : Act) (ha : ∀ i now indexOk, a ≠ .callback i now indexOk) :
    (s.step a).egress.crashed = s.egress.crashed := by
  cases a with
  | write b bytes isTmpfsMemory hasIndexList recvFrameTime now first second =>
    change (s.write b bytes isTmpfsMemory hasIndexList recvFrameTime now first second).egress.crashed = _
    rcases write_cases s b bytes isTmpfsMemory hasIndexList recvFrameTime now first second with
      heq | ⟨-, ⟨e', hwrites, heq⟩ | ⟨t, e', hsubmits, heq⟩⟩
    · rw [heq]
    · rw [heq]
      exact hwrites.crashed
    · rw [heq]
      exact hsubmits.crashed
  | callback i now indexOk => exact absurd rfl (ha i now indexOk)
  | release i => exact congrArg FileEgress.crashed (release_egress s i)
  | output i io =>
    change (s.output i io).egress.crashed = _
    rw [EgressSystem.output]
    split
    · split <;> rfl
    · rfl
  | count i =>
    change (s.count i).egress.crashed = _
    rw [EgressSystem.count]
    split <;> rfl
  | otherOutput t bytes =>
    change (s.otherOutput t bytes).egress.crashed = _
    rw [EgressSystem.otherOutput]
    split <;> rfl
  | otherBlock b bytes isTmpfsMemory =>
    change (s.otherBlock b bytes isTmpfsMemory).egress.crashed = _
    rw [EgressSystem.otherBlock]
    split <;> rfl

/-- A callback in time does not crash. -/
theorem callback_crashed (now : Int) (indexOk : Nat → Bool) (hi : s.task i = .written t ret)
    (hfind : s.egress.mediaCallbackParamList.find?
      (fun j => (s.egress.param j).ulWriteIndex = (s.egress.param i).ulWriteIndex) = some i)
    (hhead : ∀ f ∈ s.egress.mediaCallbackParamList.head?, (s.egress.param f).bIsFinished = false)
    (htime : s.egress.InTime i now) (hs : s.egress.crashed = false) :
    (s.callback i now indexOk).egress.crashed = false := by
  obtain ⟨e, he, -, heq⟩ := callback_eq_of_find now indexOk hi hfind
  rw [heq]
  exact htime.crashed hhead he.param rfl (he.crashed.trans hs)

theorem Ordered.step_crashed (h : s.Ordered) (a : Act) (hok : s.Below a) (htime : s.OnTime a)
    (hs : s.egress.crashed = false) : (s.step a).egress.crashed = false := by
  cases a with
  | callback i now indexOk =>
    change (s.callback i now indexOk).egress.crashed = false
    cases hi : s.task i with
    | written t ret =>
      exact callback_crashed now indexOk hi (h.find_eq hok (h.mem_list hi)) h.head_waits htime hs
    | _ =>
      rw [EgressSystem.callback, hi]
      exact hs
  | _ => exact (EgressSystem.step_crashed s _ (by simp)).trans hs

/-- The writes are handled once each, in the order in which they were submitted, with their results;
those that have completed together with all earlier ones have been handled, and no other; and no callback has
crashed. -/
structure HandledInOrder (s : EgressSystem) : Prop where
  order : s.egress.handled.map Prod.fst = List.range s.handledCount
  submitted : s.handledCount ≤ s.submitted
  completed : ∀ e ∈ s.egress.handled, (s.task e.1).result = some e.2
  all : ∀ k ≤ s.submitted, (∀ i < k, (s.task i).result ≠ none) → k ≤ s.handledCount
  alive : s.egress.crashed = false

theorem Ordered.handledInOrder (h : s.Ordered) (hs : s.egress.crashed = false) : s.HandledInOrder where
  order := h.handled
  submitted := h.count
  completed := h.results
  all k hk hall := by
    by_contra hlt
    exact hall s.handledCount (by omega) (h.first (by omega))
  alive := hs

/-- Whatever is written and in which order the threads complete it. -/
theorem run_handledInOrder (debugWriteFile : Bool) (as : List Act)
    (hbelow : Allowed step Below (init debugWriteFile) as)
    (htime : Allowed step OnTime (init debugWriteFile) as) :
    (run step (init debugWriteFile) as).HandledInOrder := by
  obtain ⟨hordered, hs⟩ := (hbelow.and htime).invariant
    (I := fun s : EgressSystem => s.Ordered ∧ s.egress.crashed = false) ⟨ordered_init debugWriteFile, rfl⟩
    fun _ a h hok => ⟨h.1.step a hok.1, h.1.step_crashed a hok.1 hok.2 h.2⟩
  exact hordered.handledInOrder hs

/-- Three writes on two threads are handled in order, though the second one fails and completes first. -/
theorem outOfOrder_handledInOrder :
    let ok : IoOutcome := ⟨true, true, true, 0⟩
    let s := run step (init true)
      [.write 0 [1] false false 3600 0 ⟨.ok, some 0⟩ ⟨.ok, none⟩, .count 0,
        .write 1 [2] false false 3601 0 ⟨.ok, some 1⟩ ⟨.ok, none⟩, .count 1,
        .write 2 [3] false false 3602 0 ⟨.ok, some 0⟩ ⟨.ok, none⟩, .output 1 ⟨true, true, false, 28⟩,
        .callback 1 0 fun _ => true, .output 0 ok, .count 2, .callback 0 0 fun _ => true]
    s.HandledInOrder ∧ s.egress.handled = [(0, 0), (1, 0x1001)] := by
  exact ⟨run_handledInOrder true _ (by decide) (by decide), by decide⟩

/-- Two writes wait in one queue, and the first one completes after an hour. -/
theorem not_handledInOrder_overdue :
    ¬ (run step (init true)
      [.write 0 [1] false false 3600 0 ⟨.ok, some 0⟩ ⟨.ok, none⟩, .count 0,
        .write 1 [2] false false 3601 1 ⟨.ok, some 0⟩ ⟨.ok, none⟩, .count 1,
        .output 0 ⟨true, true, true, 0⟩, .callback 0 3601 fun _ => true]).HandledInOrder :=
  fun h => absurd h.alive (by decide)

end EgressSystem

end AllCamera
