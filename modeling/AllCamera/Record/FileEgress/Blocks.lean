import AllCamera.Record.FileEgress.Order

/-!
# The blocks that the index updates read

A block is released when its callback returns, its index lists are deleted with it, and the buffer of a
thread is filled by the next write from tmpfs, while the index update of a write may have been put off
until an earlier write completes. The index updates read what was written, in exactly the runs in which
this does no harm (`run_readsOwn_iff`).

* `Held`: what is in the blocks and buffers, and where the parameters point.
* `ReadsOwn`, `Timely`: the property, and the condition under which a step keeps it.
-/

namespace AllCamera

open AllCamera.Run

namespace IoTask

/-- The block of the write has not been released. -/
def Live : IoTask → Prop
  | none | released _ _ => False
  | queued _ | written _ _ | called _ _ => True

end IoTask

/-- What a write from tmpfs puts into the buffer of its thread. -/
def IoOutcome.loaded (io : IoOutcome) (old tmpfsData : MediaData) : MediaData :=
  if io.seekOk then
    if io.readOk then tmpfsData else { tmpfsData with bytes := [] }
  else { old with bytes := [] }

namespace MediaMemory

variable {m m' : MediaMemory} {b b' t t' : Nat} {d data : MediaData} {n : Option Nat} {place : MediaPlace}

theorem block_fill_self : (m.fill b data n).block b = ⟨true, data⟩ := Function.update_self ..

theorem block_fill_of_ne (h : b' ≠ b) : (m.fill b data n).block b' = m.block b' :=
  Function.update_of_ne h _ _

theorem allocated_release_self : ((m.release b).block b).allocated = false := by
  change (Function.update m.block b _ b).allocated = false
  rw [Function.update_self]

theorem block_release_of_ne (h : b' ≠ b) : (m.release b).block b' = m.block b' :=
  Function.update_of_ne h _ _

theorem tmpfsMb_load_self : (m.load t data).tmpfsMb t = data := Function.update_self ..

theorem tmpfsMb_load_of_ne (h : t' ≠ t) : (m.load t data).tmpfsMb t' = m.tmpfsMb t' :=
  Function.update_of_ne h _ _

theorem read_block_eq : m.read (.block b) = some d ↔
    (m.block b).allocated = true ∧ (m.block b).data = d := by
  rw [read]
  split
  · next h => exact ⟨fun h' => ⟨h, Option.some_inj.mp h'⟩, fun h' => congrArg some h'.2⟩
  · next h => exact ⟨nofun, fun h' => absurd h'.1 h⟩

theorem read_tmpfsMb_eq : m.read (.tmpfsMb t) = some d ↔ m.ListsKept d ∧ m.tmpfsMb t = d := by
  rw [read]
  split
  · next h =>
    exact ⟨fun h' => ⟨Option.some_inj.mp h' ▸ h, Option.some_inj.mp h'⟩, fun h' => congrArg some h'.2⟩
  · next h => exact ⟨nofun, fun h' => absurd (h'.2.symm ▸ h'.1) h⟩

/-- Index lists are kept by what leaves their block as it is. -/
theorem ListsKept.congr (h : m.ListsKept d)
    (hblock : ∀ b ∈ d.indexList, (m.block b).allocated = true → m'.block b = m.block b) :
    m'.ListsKept d := by
  intro b hb
  rw [hblock b hb (h b hb).1]
  exact h b hb

/-- What can be read can still be read where the blocks and the buffer that are read are as before. -/
theorem read_congr (h : m.read place = some d)
    (hblock : ∀ b, place = .block b ∨ b ∈ d.indexList → (m.block b).allocated = true →
      m'.block b = m.block b)
    (htmpfsMb : ∀ t, place = .tmpfsMb t → m'.tmpfsMb t = m.tmpfsMb t) : m'.read place = some d := by
  cases place with
  | block b =>
    rw [read_block_eq] at h ⊢
    rwa [hblock b (.inl rfl) h.1]
  | tmpfsMb t =>
    rw [read_tmpfsMb_eq] at h ⊢
    rw [htmpfsMb t rfl]
    exact ⟨h.1.congr fun b hb => hblock b (.inr hb), h.2⟩

/-- What can be read can still be read when a free block is filled. -/
theorem read_fill (hfree : (m.block b).allocated = false) (h : m.read place = some d) :
    (m.fill b data n).read place = some d ∧ ((m.fill b data n).release b).read place = some d := by
  have hne : ∀ b', (m.block b').allocated = true → b' ≠ b := by
    rintro b' hb' rfl
    rw [hfree] at hb'
    cases hb'
  refine ⟨read_congr h (fun b' _ hb' => block_fill_of_ne (hne b' hb')) fun _ _ => rfl,
    read_congr h (fun b' _ hb' => ?_) fun _ _ => rfl⟩
  rw [block_release_of_ne (hne b' hb'), block_fill_of_ne (hne b' hb')]

end MediaMemory

theorem convertErrNo_ne_ok (sysErrNum : Int32) : convertErrNo sysErrNum ≠ svsResultOk := by
  rw [convertErrNo]
  split_ifs
  all_goals decide

/-- A thread writes a block: no block changes, and of the buffers only its own, if the block is in
tmpfs; it has the data if the write succeeds. -/
theorem outputRecordFile_spec (m : MediaMemory) (debugWriteFile : Bool) (t : Nat)
    (isTmpfsMemory : Bool) (tmpfsData : MediaData) (io : IoOutcome) :
    let r := outputRecordFile m debugWriteFile t isTmpfsMemory tmpfsData io
    r.2 = (if debugWriteFile ∧ isTmpfsMemory then m.load t (io.loaded (m.tmpfsMb t) tmpfsData) else m) ∧
      (r.1 = true → debugWriteFile = true → isTmpfsMemory = true →
        io.loaded (m.tmpfsMb t) tmpfsData = tmpfsData) := by
  rw [outputRecordFile, IoOutcome.loaded]
  cases debugWriteFile with
  | false => exact ⟨rfl, fun _ h => Bool.noConfusion h⟩
  | true =>
    cases isTmpfsMemory with
    | false => exact ⟨rfl, fun _ _ h => Bool.noConfusion h⟩
    | true =>
      obtain ⟨seekOk, readOk, writeOk, sysErrNum⟩ := io
      cases seekOk with
      | false => exact ⟨rfl, fun h => Bool.noConfusion h⟩
      | true =>
        cases readOk with
        | false => exact ⟨rfl, fun h => Bool.noConfusion h⟩
        | true => exact ⟨rfl, fun _ _ _ => rfl⟩

namespace EgressSystem

open FileEgress

variable {s s' : EgressSystem} {i t : Nat} {ret : Int32}

/-- A block that has not been released has the header of its write, and the data unless that is in
tmpfs. -/
structure Held (s : EgressSystem) : Prop where
  block : ∀ i, (s.task i).Live →
    s.mem.block (s.mb i) = ⟨true, if s.isTmpfsMemory i then { s.own i with bytes := [] } else s.own i⟩
  owner : ∀ b i, (s.mem.block b).allocated = true → (s.mem.block b).data.owner = some i →
    (s.task i).Live ∧ s.mb i = b
  place : ∀ i < s.submitted, s.isTmpfsMemory i = false →
    (s.egress.param i).pMediaData = some (.block (s.mb i))
  placeTmpfs : ∀ i, (s.task i).result ≠ none → s.isTmpfsMemory i = true →
    ∃ t, (s.egress.param i).pMediaData = some (.tmpfsMb t)
  buffer : ∀ i t, s.task i = .written t svsResultOk → s.isTmpfsMemory i = true →
    s.debugWriteFile = true → s.mem.tmpfsMb t = s.own i
  unloaded : s.debugWriteFile = false → ∀ t, (s.mem.tmpfsMb t).owner = none
  updated : ∀ u ∈ s.egress.updates, u.1 < s.submitted

/-- Write `i` has succeeded, and its index update waits for an earlier write. -/
def Deferred (s : EgressSystem) (i : Nat) : Prop :=
  (s.task i).result = some svsResultOk ∧ ∃ j < i, (s.task j).result = none

instance (s : EgressSystem) (i : Nat) : Decidable (s.Deferred i) :=
  inferInstanceAs (Decidable (_ ∧ ∃ j < i, (s.task j).result = none))

/-- Each index update has read the data of its own write, and that can be read for each write whose
update waits. -/
structure ReadsOwn (s : EgressSystem) : Prop where
  updates : ∀ u ∈ s.egress.updates, u.2 = some (s.own u.1)
  deferred : ∀ i, s.Deferred i → ∀ place ∈ (s.egress.param i).pMediaData,
    s.mem.read place = some (s.own i)

/-- The index update of write `i` reads its block: the data, or the index lists. -/
def NeedsBlock (s : EgressSystem) (i : Nat) : Prop :=
  s.isTmpfsMemory i = false ∨ s.hasIndexList i = true

/-- The buffer of thread `t` can be filled with `d`: no index update waits for anything else in it. -/
def Spares (s : EgressSystem) (t : Nat) (d : MediaData) : Prop :=
  ∀ i < s.submitted, s.Deferred i → (s.egress.param i).pMediaData = some (.tmpfsMb t) → d = s.own i

/-- No index update waits for a block that is released or for a buffer that is filled, and where data is
in tmpfs the file is really written. -/
def Timely (s : EgressSystem) : Act → Prop
  | .write .. => True
  | .output i io => ∀ t, s.task i = .queued t → s.Idle t → (∀ j < i, s.task j ≠ .queued t) →
    s.debugWriteFile = true → s.isTmpfsMemory i = true →
      s.Spares t (io.loaded (s.mem.tmpfsMb t) (s.own i))
  | .callback i _ _ => ∀ t, s.task i = .written t svsResultOk → s.isTmpfsMemory i = true →
    s.debugWriteFile = true
  | .release i => ∀ t ret, s.task i = .called t ret → s.NeedsBlock i → ¬ s.Deferred i
  | .otherOutput t bytes => s.Idle t → s.Spares t ⟨none, bytes, none⟩
  | .count _ | .otherBlock .. => True

/-! ## The blocks -/

theorem Held.mb_ne (h : s.Held) {b : Nat} (hfree : (s.mem.block b).allocated = false)
    (hi : (s.task i).Live) : s.mb i ≠ b := by
  intro heq
  rw [← heq, h.block i hi] at hfree
  cases hfree

theorem Held.owner_mb (h : s.Held) (hi : (s.task i).Live) :
    (s.mem.block (s.mb i)).allocated = true ∧ (s.mem.block (s.mb i)).data.owner = some i := by
  rw [h.block i hi]
  refine ⟨rfl, ?_⟩
  simp only
  split
  · rfl
  · rfl

/-- No two writes whose blocks have not been released have one block. -/
theorem Held.mb_inj (h : s.Held) {j : Nat} (hi : (s.task i).Live) (hj : (s.task j).Live)
    (heq : s.mb i = s.mb j) : i = j := by
  have hi' := (h.owner_mb hi).2
  rw [heq, (h.owner_mb hj).2] at hi'
  exact (Option.some_inj.mp hi').symm

theorem Held.submit (h : s.Held) (ho : s.Ordered) {b : Nat} (bytes : List UInt8)
    (isTmpfsMemory hasIndexList : Bool) (t : Nat) {e' : FileEgress}
    (hfree : (s.mem.block b).allocated = false)
    (hsubmits : Submits s.egress s.submitted (.block b) e') :
    (s.submit b bytes isTmpfsMemory hasIndexList t e').Held := by
  obtain ⟨p, hparam, -, hplace, -⟩ := hsubmits.param
  generalize hs' : s.submit b bytes isTmpfsMemory hasIndexList t e' = s'
  have hegress : s'.egress = e' := hs' ▸ rfl
  have hmem : s'.mem = s.mem.fill b
      ⟨some s.submitted, if isTmpfsMemory then [] else bytes, if hasIndexList then some b else none⟩
      (if isTmpfsMemory then some bytes.length else none) :=
    hs' ▸ rfl
  have hdebug : s'.debugWriteFile = s.debugWriteFile := hs' ▸ rfl
  have hsubmitted : s'.submitted = s.submitted + 1 := hs' ▸ rfl
  have htask : s'.task = Function.update s.task s.submitted (.queued t) := hs' ▸ rfl
  have hmb : s'.mb = Function.update s.mb s.submitted b := hs' ▸ rfl
  have htmpfs : s'.isTmpfsMemory = Function.update s.isTmpfsMemory s.submitted isTmpfsMemory :=
    hs' ▸ rfl
  have hlist : s'.hasIndexList = Function.update s.hasIndexList s.submitted hasIndexList := hs' ▸ rfl
  have hdata : s'.data = Function.update s.data s.submitted bytes := hs' ▸ rfl
  rw [← hegress] at hsubmits hparam
  -- the other writes are as before
  have hold : ∀ i, i ≠ s.submitted → s'.task i = s.task i ∧ s'.mb i = s.mb i ∧
      s'.isTmpfsMemory i = s.isTmpfsMemory i ∧ s'.own i = s.own i := by
    intro i hi
    simp only [own, htask, hmb, htmpfs, hlist, hdata, Function.update_of_ne hi, and_self]
  have hnew : s'.mb s.submitted = b := by rw [hmb, Function.update_self]
  have hlive : (s'.task s.submitted).Live := by
    rw [htask, Function.update_self]
    trivial
  refine ⟨fun i hi => ?_, fun b' i hb' hi => ?_, fun i hi htmpfs' => ?_, fun i hi htmpfs' => ?_,
    fun i t' hi htmpfs' hfile => ?_, fun hfile => ?_, fun u hu => ?_⟩
  · by_cases hne : i = s.submitted
    · rw [hne, hnew, hmem, own, htmpfs, hlist, hdata, Function.update_self, Function.update_self,
        Function.update_self, hnew, MediaMemory.block_fill_self]
      split
      · rfl
      · rfl
    · obtain ⟨htask', hmb', htmpfs', hown'⟩ := hold i hne
      rw [htask'] at hi
      rw [hmem, hmb', htmpfs', hown', MediaMemory.block_fill_of_ne (h.mb_ne hfree hi)]
      exact h.block i hi
  · rw [hmem] at hb' hi
    by_cases hbb : b' = b
    · rw [hbb, MediaMemory.block_fill_self] at hi
      obtain rfl := Option.some_inj.mp hi
      exact ⟨hlive, hnew.trans hbb.symm⟩
    · rw [MediaMemory.block_fill_of_ne hbb] at hb' hi
      obtain ⟨hi', hmb'⟩ := h.owner b' i hb' hi
      have hne : i ≠ s.submitted := by
        rintro rfl
        rwa [ho.task_submitted] at hi'
      rw [(hold i hne).1, (hold i hne).2.1]
      exact ⟨hi', hmb'⟩
  · rw [hparam]
    by_cases hne : i = s.submitted
    · rw [hne, Function.update_self, hplace, hnew]
    · rw [(hold i hne).2.2.1] at htmpfs'
      rw [Function.update_of_ne hne, (hold i hne).2.1]
      exact h.place i (by omega) htmpfs'
  · by_cases hne : i = s.submitted
    · rw [hne, htask, Function.update_self] at hi
      exact absurd rfl hi
    · obtain ⟨htask', -, htmpfs'', -⟩ := hold i hne
      rw [htask'] at hi
      rw [htmpfs''] at htmpfs'
      rw [hparam, Function.update_of_ne hne]
      exact h.placeTmpfs i hi htmpfs'
  · by_cases hne : i = s.submitted
    · rw [hne, htask, Function.update_self] at hi
      cases hi
    · obtain ⟨htask', -, htmpfs'', hown'⟩ := hold i hne
      rw [htask'] at hi
      rw [htmpfs''] at htmpfs'
      rw [hmem, hown']
      exact h.buffer i t' hi htmpfs' (hdebug ▸ hfile)
  · rw [hmem]
    exact h.unloaded (hdebug ▸ hfile)
  · rw [hsubmitted]
    exact Nat.lt_succ_of_lt (h.updated u (hsubmits.updates ▸ hu))

/-- A block that is free is filled, and free again. -/
theorem Held.refill (h : s.Held) {b : Nat} (hfree : (s.mem.block b).allocated = false) {e' : FileEgress}
    (hkept : Kept s.egress e') (data : MediaData) (n : Option Nat) :
    Held { s with egress := e', mem := (s.mem.fill b data n).release b } := by
  refine ⟨fun i hi => ?_, fun b' i hb' hi => ?_, ?_, ?_, h.buffer, h.unloaded, hkept.updates ▸ h.updated⟩
  · have hne := h.mb_ne hfree hi
    exact (MediaMemory.block_release_of_ne hne).trans
      ((MediaMemory.block_fill_of_ne hne).trans (h.block i hi))
  · have hbb : b' ≠ b := by
      rintro rfl
      rw [MediaMemory.allocated_release_self] at hb'
      cases hb'
    rw [MediaMemory.block_release_of_ne hbb, MediaMemory.block_fill_of_ne hbb] at hb' hi
    exact h.owner b' i hb' hi
  · change ∀ i < s.submitted, s.isTmpfsMemory i = false → (e'.param i).pMediaData = _
    rw [hkept.param]
    exact h.place
  · change ∀ i, _ → _ → ∃ t, (e'.param i).pMediaData = _
    rw [hkept.param]
    exact h.placeTmpfs

theorem Held.write (h : s.Held) (ho : s.Ordered) (b : Nat) (bytes : List UInt8)
    (isTmpfsMemory hasIndexList : Bool) (recvFrameTime now : Int) (first second : Turn) :
    (s.write b bytes isTmpfsMemory hasIndexList recvFrameTime now first second).Held := by
  rcases write_cases s b bytes isTmpfsMemory hasIndexList recvFrameTime now first second with
    heq | ⟨hfree, ⟨e', hwrites, heq⟩ | ⟨t, e', hsubmits, heq⟩⟩
  · rw [heq]
    exact h
  · rw [heq]
    exact h.refill hfree hwrites.toKept _ _
  · rw [heq]
    exact h.submit ho bytes isTmpfsMemory hasIndexList t hfree hsubmits

/-- What is known of the writes is left as it is. -/
structure SameWrites (s s' : EgressSystem) : Prop where
  debugWriteFile : s'.debugWriteFile = s.debugWriteFile
  submitted : s'.submitted = s.submitted
  mb : s'.mb = s.mb
  isTmpfsMemory : s'.isTmpfsMemory = s.isTmpfsMemory
  hasIndexList : s'.hasIndexList = s.hasIndexList
  data : s'.data = s.data

theorem SameWrites.own (h : SameWrites s s') : s'.own = s.own := by
  funext i
  rw [EgressSystem.own, h.hasIndexList, h.mb, h.data, EgressSystem.own]

theorem live_update {task : IoTask} (h : task.Live ↔ (s.task i).Live) (j : Nat) :
    (Function.update s.task i task j).Live ↔ (s.task j).Live := by
  by_cases hji : j = i
  · rw [hji, Function.update_self, h]
  · rw [Function.update_of_ne hji]

/-- A step that changes no block. -/
theorem Held.frame (h : s.Held) (hsame : SameWrites s s') (hblock : s'.mem.block = s.mem.block)
    (hlive : ∀ i, (s'.task i).Live ↔ (s.task i).Live)
    (hplace : ∀ i, s.isTmpfsMemory i = false →
      (s'.egress.param i).pMediaData = (s.egress.param i).pMediaData)
    (hplaceTmpfs : ∀ i, (s'.task i).result ≠ none → s.isTmpfsMemory i = true →
      ∃ t, (s'.egress.param i).pMediaData = some (.tmpfsMb t))
    (hbuffer : ∀ i t, s'.task i = .written t svsResultOk → s.isTmpfsMemory i = true →
      s.debugWriteFile = true → s'.mem.tmpfsMb t = s.own i)
    (hunloaded : s.debugWriteFile = false → ∀ t, (s'.mem.tmpfsMb t).owner = none)
    (hupdated : ∀ u ∈ s'.egress.updates, u.1 < s.submitted) : s'.Held := by
  have hown := hsame.own
  obtain ⟨hdebug, hsubmitted, hmb, htmpfs, -, -⟩ := hsame
  refine ⟨fun i hi => ?_, fun b i hb hi => ?_, fun i hi ht => ?_, ?_, ?_, hdebug ▸ hunloaded,
    hsubmitted ▸ hupdated⟩
  · rw [hblock, hmb, htmpfs, hown]
    exact h.block i ((hlive i).mp hi)
  · rw [hblock] at hb hi
    rw [hmb, hlive i]
    exact h.owner b i hb hi
  · rw [htmpfs] at ht
    rw [hmb, hplace i ht]
    exact h.place i (hsubmitted ▸ hi) ht
  · rw [htmpfs]
    exact hplaceTmpfs
  · rw [htmpfs, hdebug, hown]
    exact hbuffer

/-- Thread `t` takes write `i`, or nothing happens. -/
theorem output_cases (s : EgressSystem) (i : Nat) (io : IoOutcome) :
    (s.output i io = s ∧ ∀ t, s.task i = .queued t → s.Idle t → ¬ ∀ j < i, s.task j ≠ .queued t) ∨
    ∃ t ret, s.task i = .queued t ∧ s.Idle t ∧ (∀ j < i, s.task j ≠ .queued t) ∧
      s.output i io = { s with
        mem := if s.debugWriteFile ∧ s.isTmpfsMemory i then
          s.mem.load t (io.loaded (s.mem.tmpfsMb t) (s.own i)) else s.mem
        task := Function.update s.task i (.written t ret) } ∧
      (ret = svsResultOk → s.debugWriteFile = true → s.isTmpfsMemory i = true →
        io.loaded (s.mem.tmpfsMb t) (s.own i) = s.own i) := by
  rw [EgressSystem.output]
  split
  · next t hi =>
    split
    · next hfirst =>
      right
      obtain ⟨hmem, hdata⟩ :=
        outputRecordFile_spec s.mem s.debugWriteFile t (s.isTmpfsMemory i) (s.own i) io
      generalize outputRecordFile s.mem _ t _ _ io = r at hmem hdata ⊢
      refine ⟨t, if r.1 then svsResultOk else convertErrNo io.sysErrNum, hi, hfirst.1, hfirst.2, ?_,
        fun hok => hdata ?_⟩
      · rw [← hmem]
      · by_contra hfail
        rw [if_neg hfail] at hok
        exact convertErrNo_ne_ok _ hok
    · next hno =>
      refine .inl ⟨rfl, fun t' hi' hidle hfirst => ?_⟩
      rw [hi] at hi'
      cases hi'
      exact hno ⟨hidle, hfirst⟩
  · next hno => exact .inl ⟨rfl, fun t hi => absurd hi (hno t)⟩

theorem Held.output (h : s.Held) (ho : s.Ordered) (i : Nat) (io : IoOutcome) :
    (s.output i io).Held := by
  rcases output_cases s i io with ⟨heq, -⟩ | ⟨t, ret, hi, hidle, -, heq, hdata⟩
  · rw [heq]
    exact h
  rw [heq]
  have hresult : ∀ j, (Function.update s.task i (.written t ret) j).result = (s.task j).result :=
    result_update (hi ▸ rfl)
  refine h.frame ⟨rfl, rfl, rfl, rfl, rfl, rfl⟩ ?_ (live_update (hi ▸ Iff.rfl)) (fun _ _ => rfl)
    (fun j hj => h.placeTmpfs j fun hnone => hj ((hresult j).trans hnone))
    (fun j t' hj htmpfs hdebug => ?_) (fun hdebug => ?_) h.updated
  · simp only
    split
    · rfl
    · rfl
  · change Function.update s.task i _ j = _ at hj
    by_cases hji : j = i
    · rw [hji, Function.update_self] at hj
      cases hj
      rw [hji] at htmpfs ⊢
      simp only [hdebug, htmpfs, and_self, if_true]
      rw [hdata rfl hdebug htmpfs]
      exact MediaMemory.tmpfsMb_load_self
    · rw [Function.update_of_ne hji] at hj
      have hne : t' ≠ t := by
        rintro rfl
        exact hidle j (ho.unused j (hj ▸ IoTask.noConfusion)) (hj ▸ rfl)
      have hold := h.buffer j t' hj htmpfs hdebug
      split
      · exact (MediaMemory.tmpfsMb_load_of_ne hne).trans hold
      · exact hold
  · simp only [hdebug, Bool.false_eq_true, false_and, if_false]
    exact h.unloaded hdebug

theorem Held.release (h : s.Held) (i : Nat) : (s.release i).Held := by
  rw [EgressSystem.release]
  split
  · next t ret hi =>
    have hresult : ∀ j, (Function.update s.task i (.released t ret) j).result = (s.task j).result :=
      result_update (hi ▸ rfl)
    have hlive : (s.task i).Live := hi ▸ trivial
    refine ⟨fun j hj => ?_, fun b j hb hj => ?_, h.place, fun j hj => h.placeTmpfs j fun hnone =>
      hj ((hresult j).trans hnone), fun j t' hj => ?_, h.unloaded, h.updated⟩
    · change (Function.update s.task i _ j).Live at hj
      have hji : j ≠ i := by
        rintro rfl
        rw [Function.update_self] at hj
        exact hj
      rw [Function.update_of_ne hji] at hj
      have hmb : s.mb j ≠ s.mb i := fun heq => hji (h.mb_inj hj hlive heq)
      exact (MediaMemory.block_release_of_ne hmb).trans (h.block j hj)
    · have hbne : b ≠ s.mb i := by
        rintro rfl
        rw [MediaMemory.allocated_release_self] at hb
        cases hb
      rw [MediaMemory.block_release_of_ne hbne] at hb hj
      obtain ⟨hj', hmb⟩ := h.owner b j hb hj
      have hji : j ≠ i := by
        rintro rfl
        exact hbne hmb.symm
      refine ⟨?_, hmb⟩
      change (Function.update s.task i _ j).Live
      rwa [Function.update_of_ne hji]
    · change Function.update s.task i _ j = _ at hj
      by_cases hji : j = i
      · rw [hji, Function.update_self] at hj
        cases hj
      · rw [Function.update_of_ne hji] at hj
        exact h.buffer j t' hj
  · exact h

theorem Held.otherOutput (h : s.Held) (ho : s.Ordered) (t : Nat) (bytes : List UInt8) :
    (s.otherOutput t bytes).Held := by
  rw [EgressSystem.otherOutput]
  split
  · next hidle =>
    refine h.frame ⟨rfl, rfl, rfl, rfl, rfl, rfl⟩ rfl (fun _ => Iff.rfl) (fun _ _ => rfl) h.placeTmpfs
      (fun j t' hj htmpfs hdebug => ?_) (fun hdebug t' => ?_) h.updated
    · have hj : s.task j = .written t' svsResultOk := hj
      have hne : t' ≠ t := by
        rintro rfl
        exact hidle j (ho.unused j (hj ▸ IoTask.noConfusion)) (hj ▸ rfl)
      exact (MediaMemory.tmpfsMb_load_of_ne hne).trans (h.buffer j t' hj htmpfs hdebug)
    · by_cases htt : t' = t
      · rw [htt]
        exact congrArg MediaData.owner MediaMemory.tmpfsMb_load_self
      · exact (congrArg MediaData.owner (MediaMemory.tmpfsMb_load_of_ne htt)).trans (h.unloaded hdebug t')
  · exact h

theorem Held.count (h : s.Held) (i : Nat) : (s.count i).Held := by
  rw [EgressSystem.count]
  split
  · exact h.frame ⟨rfl, rfl, rfl, rfl, rfl, rfl⟩ rfl (fun _ => Iff.rfl) (fun _ _ => rfl) h.placeTmpfs
      h.buffer h.unloaded h.updated
  · exact h

theorem Held.otherBlock (h : s.Held) (b : Nat) (bytes : List UInt8) (isTmpfsMemory : Bool) :
    (s.otherBlock b bytes isTmpfsMemory).Held := by
  rw [EgressSystem.otherBlock]
  split
  · exact h
  · next hused => exact h.refill (Bool.eq_false_iff.mpr hused) (.refl _) _ _

/-! ## A callback -/

/-- What the callback of write `i` by thread `t` does to the blocks and the updates. -/
structure Calls (s : EgressSystem) (i t : Nat) (ret : Int32) (s' : EgressSystem) : Prop where
  task : s'.task = Function.update s.task i (.called t ret)
  mem : s'.mem = s.mem
  param : s'.egress.param = Function.update s.egress.param i (s.completed i t ret)
  count : s.handledCount ≤ s'.handledCount
  updates : s'.egress.updates = s.egress.updates ++
    (List.range' s.handledCount (s'.handledCount - s.handledCount)).flatMap fun j =>
      updateOfParam s.mem (s'.egress.param j) j
  same : SameWrites s s'

/-- The parameters that are handled are the next ones. -/
theorem takeWhile_eq_range' {m : MediaMemory} {l : List Nat} {e e' : FileEgress}
    (hdrains : Drains m l e e') (he : e.handled.map Prod.fst = List.range e.handled.length)
    (he' : e'.handled.map Prod.fst = List.range e'.handled.length) :
    e.handled.length ≤ e'.handled.length ∧ l.takeWhile (fun i => (e.param i).bIsFinished) =
      List.range' e.handled.length (e'.handled.length - e.handled.length) := by
  have hlength := congrArg List.length hdrains.handled
  rw [List.length_append] at hlength
  have hle : e.handled.length ≤ e'.handled.length := by omega
  refine ⟨hle, ?_⟩
  have hsplit : List.range e'.handled.length =
      List.range e.handled.length ++ List.range' e.handled.length (e'.handled.length - e.handled.length) := by
    obtain ⟨c, hc⟩ := Nat.exists_eq_add_of_le hle
    rw [hc, Nat.add_sub_cancel_left, List.range_eq_range', List.range_eq_range', ← List.range'_append_1,
      Nat.zero_add]
  have hfst : e'.handled.map Prod.fst = List.range e.handled.length ++
      l.takeWhile fun i => (e.param i).bIsFinished := by
    rw [hdrains.handled, List.map_append, he, List.map_map]
    exact congrArg _ (List.map_id _)
  rw [he', hsplit] at hfst
  exact (List.append_cancel_left hfst).symm

theorem Ordered.calls (h : s.Ordered) (now : Int) (indexOk : Nat → Bool)
    (hok : s.Below (.callback i now indexOk)) (hi : s.task i = .written t ret) :
    Calls s i t ret (s.callback i now indexOk) := by
  have h' := h.callback i now indexOk hok
  obtain ⟨e, e', he, hdrains, heq⟩ := h.callback_drains now indexOk hok hi
  rw [heq] at h' ⊢
  have hhandled : e.handled = s.egress.handled := he.handled
  have hparam : e'.param = e.param := hdrains.param
  obtain ⟨hcount, htake⟩ := takeWhile_eq_range' hdrains (hhandled ▸ h.handled) h'.handled
  rw [hhandled] at hcount htake
  refine ⟨rfl, rfl, hparam.trans he.param, hcount, ?_, rfl, rfl, rfl, rfl, rfl, rfl⟩
  have hupdates := hdrains.updates
  rw [htake, he.updates, ← hparam] at hupdates
  exact hupdates

theorem Held.callback (h : s.Held) (ho : s.Ordered) (i : Nat) (now : Int) (indexOk : Nat → Bool)
    (hok : s.Below (.callback i now indexOk)) : (s.callback i now indexOk).Held := by
  cases hi : s.task i with
  | written t ret =>
    have h' := ho.callback i now indexOk hok
    have hcalls := ho.calls now indexOk hok hi
    generalize s.callback i now indexOk = s' at h' hcalls ⊢
    have hlive : ∀ j, (s'.task j).Live ↔ (s.task j).Live := by
      rw [hcalls.task]
      exact live_update (hi ▸ Iff.rfl)
    refine h.frame hcalls.same (hcalls.mem ▸ rfl) hlive (fun j htmpfs => ?_) (fun j hj htmpfs => ?_)
      (fun j t' hj htmpfs hdebug => ?_) (hcalls.mem ▸ h.unloaded) fun u hu => ?_
    · rw [hcalls.param]
      by_cases hji : j = i
      · rw [hji, Function.update_self, completed, ← hji, htmpfs]
        rfl
      · rw [Function.update_of_ne hji]
    · rw [hcalls.task] at hj
      rw [hcalls.param]
      by_cases hji : j = i
      · rw [hji, Function.update_self, completed, ← hji, htmpfs]
        exact ⟨t, rfl⟩
      · rw [Function.update_of_ne hji] at hj ⊢
        exact h.placeTmpfs j hj htmpfs
    · rw [hcalls.task] at hj
      rw [hcalls.mem]
      by_cases hji : j = i
      · rw [hji, Function.update_self] at hj
        cases hj
      · rw [Function.update_of_ne hji] at hj
        exact h.buffer j t' hj htmpfs hdebug
    · rw [hcalls.updates] at hu
      rcases List.mem_append.mp hu with hu | hu
      · exact h.updated u hu
      · obtain ⟨j, hj, hu⟩ := List.mem_flatMap.mp hu
        rw [List.mem_range'_1] at hj
        have hcount := h'.count
        rw [hcalls.same.submitted] at hcount
        rw [(mem_updateOfParam.mp hu).1]
        omega
  | _ =>
    rw [EgressSystem.callback, hi]
    exact h

theorem Held.step (h : s.Held) (ho : s.Ordered) (a : Act) (hok : s.Below a) : (s.step a).Held := by
  cases a with
  | write b bytes isTmpfsMemory hasIndexList recvFrameTime now first second =>
    exact h.write ho b bytes isTmpfsMemory hasIndexList recvFrameTime now first second
  | count i => exact h.count i
  | output i io => exact h.output ho i io
  | callback i now indexOk => exact h.callback ho i now indexOk hok
  | release i => exact h.release i
  | otherOutput t bytes => exact h.otherOutput ho t bytes
  | otherBlock b bytes isTmpfsMemory => exact h.otherBlock b bytes isTmpfsMemory

theorem held_init (debugWriteFile : Bool) : (init debugWriteFile).Held where
  block _ h := h.elim
  owner _ _ h := nomatch h
  place i h := (Nat.not_lt_zero i h).elim
  placeTmpfs _ h := (h rfl).elim
  buffer _ _ h := nomatch h
  unloaded _ _ := rfl
  updated _ h := (List.not_mem_nil h).elim

/-! ## What the updates read -/

theorem Deferred.lt (h : s.Deferred i) (ho : s.Ordered) : i < s.submitted := by
  refine ho.unused i fun hnone => ?_
  rw [Deferred, hnone] at h
  cases h.1

theorem Ordered.deferred_iff (h : s.Ordered) :
    s.Deferred i ↔ (s.task i).result = some svsResultOk ∧ s.handledCount ≤ i := by
  constructor
  · rintro ⟨hok, j, hji, hnone⟩
    refine ⟨hok, Nat.not_lt.mp fun hlt => ?_⟩
    have hmem : j ∈ s.egress.handled.map Prod.fst := h.handled ▸ List.mem_range.mpr (by omega)
    obtain ⟨e, he, rfl⟩ := List.mem_map.mp hmem
    rw [h.results e he] at hnone
    cases hnone
  · rintro ⟨hok, hge⟩
    have hlt : i < s.submitted := by
      refine h.unused i fun hnone => ?_
      rw [hnone] at hok
      cases hok
    have hfirst := h.first (by omega)
    refine ⟨hok, s.handledCount, Nat.lt_of_le_of_ne hge fun heq => ?_, hfirst⟩
    rw [heq, hok] at hfirst
    cases hfirst

/-- A step that completes no write keeps what has been read; what can be read depends on the blocks. -/
theorem ReadsOwn.frame_iff (h : s.ReadsOwn) (hheld : s.Held) (ho : s.Ordered)
    (hresult : ∀ i, (s'.task i).result = (s.task i).result)
    (hupdates : s'.egress.updates = s.egress.updates) (hown : ∀ i < s.submitted, s'.own i = s.own i)
    (hparam : ∀ i < s.submitted, s'.egress.param i = s.egress.param i) :
    s'.ReadsOwn ↔ ∀ i, s.Deferred i → ∀ place ∈ (s.egress.param i).pMediaData,
      s'.mem.read place = some (s.own i) := by
  have hdeferred : ∀ i, s'.Deferred i ↔ s.Deferred i := by
    intro i
    simp only [Deferred, hresult]
  refine ⟨fun h' i hi => ?_, fun h' => ⟨fun u hu => ?_, fun i hi => ?_⟩⟩
  · have hlt := hi.lt ho
    rw [← hparam i hlt, ← hown i hlt]
    exact h'.deferred i ((hdeferred i).mpr hi)
  · rw [hupdates] at hu
    rw [hown u.1 (hheld.updated u hu)]
    exact h.updates u hu
  · have hi := (hdeferred i).mp hi
    rw [hparam i (hi.lt ho), hown i (hi.lt ho)]
    exact h' i hi

theorem ReadsOwn.write (h : s.ReadsOwn) (hheld : s.Held) (ho : s.Ordered) (b : Nat) (bytes : List UInt8)
    (isTmpfsMemory hasIndexList : Bool) (recvFrameTime now : Int) (first second : Turn) :
    (s.write b bytes isTmpfsMemory hasIndexList recvFrameTime now first second).ReadsOwn := by
  rcases write_cases s b bytes isTmpfsMemory hasIndexList recvFrameTime now first second with
    heq | ⟨hfree, ⟨e', hwrites, heq⟩ | ⟨t, e', hsubmits, heq⟩⟩
  · rw [heq]
    exact h
  · rw [heq]
    refine Iff.mpr (h.frame_iff hheld ho (fun _ => rfl) hwrites.updates (fun _ _ => rfl)
      fun j _ => congrFun hwrites.param j) fun j hj place hplace => ?_
    exact (MediaMemory.read_fill hfree (h.deferred j hj place hplace)).2
  · rw [heq]
    obtain ⟨p, hparam, -⟩ := hsubmits.param
    have hresult : ∀ j, (Function.update s.task s.submitted (.queued t) j).result =
        (s.task j).result := result_update (ho.task_submitted ▸ rfl)
    refine Iff.mpr (h.frame_iff hheld ho hresult hsubmits.updates (fun j hj => ?_) fun j hj => ?_)
      fun j hj place hplace => (MediaMemory.read_fill hfree (h.deferred j hj place hplace)).1
    · simp only [own, submit, Function.update_of_ne (Nat.ne_of_lt hj)]
    · change e'.param j = _
      rw [hparam, Function.update_of_ne (Nat.ne_of_lt hj)]

theorem ReadsOwn.count (h : s.ReadsOwn) (hheld : s.Held) (ho : s.Ordered) (i : Nat) :
    (s.count i).ReadsOwn := by
  rw [EgressSystem.count]
  split
  · refine Iff.mpr (h.frame_iff hheld ho (fun _ => rfl) rfl (fun _ _ => rfl) fun _ _ => rfl) ?_
    exact h.deferred
  · exact h

theorem ReadsOwn.otherBlock (h : s.ReadsOwn) (hheld : s.Held) (ho : s.Ordered) (b : Nat)
    (bytes : List UInt8) (isTmpfsMemory : Bool) : (s.otherBlock b bytes isTmpfsMemory).ReadsOwn := by
  rw [EgressSystem.otherBlock]
  split
  · exact h
  · next hused =>
    refine Iff.mpr (h.frame_iff hheld ho (fun _ => rfl) rfl (fun _ _ => rfl) fun _ _ => rfl) ?_
    exact fun j hj place hplace =>
      (MediaMemory.read_fill (Bool.eq_false_iff.mpr hused) (h.deferred j hj place hplace)).2

/-- The buffer of thread `t` is filled. -/
theorem ReadsOwn.load_iff (h : s.ReadsOwn) (ho : s.Ordered) (t : Nat) (d : MediaData) :
    (∀ i, s.Deferred i → ∀ place ∈ (s.egress.param i).pMediaData,
      (s.mem.load t d).read place = some (s.own i)) ↔ s.Spares t d := by
  constructor
  · intro h' i _ hi hplace
    have hread := (MediaMemory.read_tmpfsMb_eq.mp (h' i hi _ hplace)).2
    rwa [MediaMemory.tmpfsMb_load_self] at hread
  · intro hspares i hi place hplace
    have hread := h.deferred i hi place hplace
    by_cases hne : place = .tmpfsMb t
    · rw [hne] at hread hplace ⊢
      have hlists := (MediaMemory.read_tmpfsMb_eq.mp hread).1
      rw [hspares i (hi.lt ho) hi hplace]
      exact MediaMemory.read_tmpfsMb_eq.mpr
        ⟨hlists.congr fun _ _ _ => rfl, MediaMemory.tmpfsMb_load_self⟩
    · refine MediaMemory.read_congr hread (fun _ _ _ => rfl) fun t' ht' => ?_
      exact MediaMemory.tmpfsMb_load_of_ne fun heq => hne (heq ▸ ht')

theorem ReadsOwn.output_iff (h : s.ReadsOwn) (hheld : s.Held) (ho : s.Ordered) (i : Nat)
    (io : IoOutcome) : (s.output i io).ReadsOwn ↔ s.Timely (.output i io) := by
  rcases output_cases s i io with ⟨heq, hno⟩ | ⟨t, ret, hi, hidle, hfirst, heq, -⟩
  · rw [heq]
    exact iff_of_true h fun t hi hidle hfirst => absurd hfirst (hno t hi hidle)
  have hresult : ∀ j, (Function.update s.task i (.written t ret) j).result = (s.task j).result :=
    result_update (hi ▸ rfl)
  rw [heq]
  refine Iff.trans (h.frame_iff hheld ho hresult rfl (fun _ _ => rfl) fun _ _ => rfl) ?_
  by_cases hload : s.debugWriteFile = true ∧ s.isTmpfsMemory i = true
  · simp only [hload.1, hload.2, and_self, if_true]
    refine (h.load_iff ho t _).trans ⟨fun h' t' hi' _ _ _ _ => ?_, fun hok => ?_⟩
    · rw [hi] at hi'
      cases hi'
      exact h'
    · exact hok t hi hidle hfirst hload.1 hload.2
  · simp only [hload, if_false]
    exact iff_of_true h.deferred fun t' _ _ _ hdebug htmpfs => absurd ⟨hdebug, htmpfs⟩ hload

theorem ReadsOwn.otherOutput_iff (h : s.ReadsOwn) (hheld : s.Held) (ho : s.Ordered) (t : Nat)
    (bytes : List UInt8) : (s.otherOutput t bytes).ReadsOwn ↔ s.Timely (.otherOutput t bytes) := by
  rw [EgressSystem.otherOutput]
  split
  · next hidle =>
    refine Iff.trans (h.frame_iff hheld ho (fun _ => rfl) rfl (fun _ _ => rfl) fun _ _ => rfl) ?_
    exact (h.load_iff ho t _).trans ⟨fun h' _ => h', fun h' => h' hidle⟩
  · next hno => exact iff_of_true h fun hidle => absurd hidle hno

/-- Where the index update of a write can read what it needs, the block of the write is still its own. -/
theorem Held.owner_of_read (h : s.Held) (hi : s.Deferred i) (hlt : i < s.submitted)
    (hneeds : s.NeedsBlock i) {m : MediaMemory} {place : MediaPlace}
    (hplace : place ∈ (s.egress.param i).pMediaData) (hread : m.read place = some (s.own i)) :
    (m.block (s.mb i)).allocated = true ∧ (m.block (s.mb i)).data.owner = some i := by
  cases htmpfs : s.isTmpfsMemory i with
  | false =>
    rw [h.place i hlt htmpfs] at hplace
    cases hplace
    obtain ⟨halloc, hdata⟩ := MediaMemory.read_block_eq.mp hread
    exact ⟨halloc, hdata ▸ rfl⟩
  | true =>
    have hlist : s.hasIndexList i = true := hneeds.resolve_left (htmpfs ▸ Bool.noConfusion)
    obtain ⟨t, ht⟩ := h.placeTmpfs i (hi.1 ▸ Option.some_ne_none _) htmpfs
    rw [ht] at hplace
    cases hplace
    refine (MediaMemory.read_tmpfsMb_eq.mp hread).1 (s.mb i) ?_
    rw [own, hlist]
    rfl

/-- It needs no other block. -/
theorem Held.needs_of_mem (h : s.Held) (hi : s.Deferred i) (hlt : i < s.submitted) {b : Nat}
    {place : MediaPlace} (hplace : place ∈ (s.egress.param i).pMediaData)
    (hb : place = .block b ∨ b ∈ (s.own i).indexList) : s.NeedsBlock i ∧ s.mb i = b := by
  rcases hb with rfl | hb
  · cases htmpfs : s.isTmpfsMemory i with
    | false =>
      rw [h.place i hlt htmpfs] at hplace
      cases hplace
      exact ⟨.inl htmpfs, rfl⟩
    | true =>
      obtain ⟨t, ht⟩ := h.placeTmpfs i (hi.1 ▸ Option.some_ne_none _) htmpfs
      rw [ht] at hplace
      cases hplace
  · rw [own] at hb
    simp only at hb
    split at hb
    · next hlist =>
      cases hb
      exact ⟨.inr hlist, rfl⟩
    · cases hb

theorem ReadsOwn.release_iff (h : s.ReadsOwn) (hheld : s.Held) (ho : s.Ordered) (i : Nat) :
    (s.release i).ReadsOwn ↔ s.Timely (.release i) := by
  rw [EgressSystem.release]
  split
  · next t ret hi =>
    have hresult : ∀ j, (Function.update s.task i (.released t ret) j).result = (s.task j).result :=
      result_update (hi ▸ rfl)
    refine Iff.trans (h.frame_iff hheld ho hresult rfl (fun _ _ => rfl) fun _ _ => rfl) ?_
    constructor
    · intro h' _ _ _ hneeds hdeferred
      have hlt := hdeferred.lt ho
      obtain ⟨place, hplace⟩ := Option.ne_none_iff_exists'.mp (ho.param i hlt).2
      have halloc := (hheld.owner_of_read hdeferred hlt hneeds hplace (h' i hdeferred place hplace)).1
      rw [MediaMemory.allocated_release_self] at halloc
      cases halloc
    · intro hok j hj place hplace
      have hread := h.deferred j hj place hplace
      refine MediaMemory.read_congr hread (fun b hb _ => ?_) fun _ _ => rfl
      obtain ⟨hneeds, rfl⟩ := hheld.needs_of_mem hj (hj.lt ho) hplace hb
      refine MediaMemory.block_release_of_ne fun heq => ?_
      -- the block would have two owners
      have howner := (hheld.owner_of_read hj (hj.lt ho) hneeds hplace hread).2
      rw [heq, (hheld.owner_mb (i := i) (hi ▸ trivial)).2] at howner
      obtain rfl := Option.some_inj.mp howner
      exact hok t ret hi hneeds hj
  · next hno => exact iff_of_true h fun t ret hi => absurd hi (hno t ret)

/-- The data of a write that is called back can be read, but for data in tmpfs that was never loaded. -/
theorem Held.read_completed_iff (h : s.Held) (ho : s.Ordered) (hi : s.task i = .written t svsResultOk) :
    (∀ place ∈ (s.completed i t svsResultOk).pMediaData, s.mem.read place = some (s.own i)) ↔
      (s.isTmpfsMemory i = true → s.debugWriteFile = true) := by
  have hlive : (s.task i).Live := hi ▸ trivial
  rw [completed]
  cases htmpfs : s.isTmpfsMemory i with
  | false =>
    refine iff_of_true (fun place hplace => ?_) fun h => Bool.noConfusion h
    have hlt := ho.unused i (hi ▸ IoTask.noConfusion)
    simp only [Bool.false_eq_true, if_false, h.place i hlt htmpfs] at hplace
    cases hplace
    rw [MediaMemory.read_block_eq, h.block i hlive, htmpfs]
    exact ⟨rfl, rfl⟩
  | true =>
    simp only [if_true]
    constructor
    · intro hread _
      obtain ⟨-, hdata⟩ := MediaMemory.read_tmpfsMb_eq.mp (hread _ rfl)
      by_contra hdebug
      have hnone := h.unloaded (Bool.not_eq_true _ ▸ hdebug) t
      rw [hdata] at hnone
      cases hnone
    · intro hdebug place hplace
      cases hplace
      refine MediaMemory.read_tmpfsMb_eq.mpr ⟨fun b hb => ?_, h.buffer i t hi htmpfs (hdebug trivial)⟩
      rw [own] at hb
      simp only at hb
      split at hb
      · cases hb
        exact h.owner_mb hlive
      · cases hb

theorem ReadsOwn.callback_iff (h : s.ReadsOwn) (hheld : s.Held) (ho : s.Ordered) (i : Nat) (now : Int)
    (indexOk : Nat → Bool) (hok : s.Below (.callback i now indexOk)) :
    (s.callback i now indexOk).ReadsOwn ↔ s.Timely (.callback i now indexOk) := by
  cases hi : s.task i with
  | written t ret =>
    have ho' := ho.callback i now indexOk hok
    have hcalls := ho.calls now indexOk hok hi
    generalize s.callback i now indexOk = s' at ho' hcalls ⊢
    have hresi : (s'.task i).result = some ret := by
      rw [hcalls.task, Function.update_self]
      rfl
    have hres : ∀ j, j ≠ i → (s'.task j).result = (s.task j).result := by
      intro j hji
      rw [hcalls.task, Function.update_of_ne hji]
    have hparami : s'.egress.param i = s.completed i t ret := by
      rw [hcalls.param, Function.update_self]
    have hparam : ∀ j, j ≠ i → s'.egress.param j = s.egress.param j := by
      intro j hji
      rw [hcalls.param, Function.update_of_ne hji]
    constructor
    · intro h' t' hi' htmpfs
      rw [hi] at hi'
      cases hi'
      refine (hheld.read_completed_iff ho hi).mp (fun place hplace => ?_) htmpfs
      rw [← hcalls.same.own]
      by_cases hlt : i < s'.handledCount
      · refine h'.updates (i, s.mem.read place) ?_
        have hge := (ho.mem_list hi).1
        rw [hcalls.updates]
        refine List.mem_append_right _ (List.mem_flatMap.mpr ⟨i, List.mem_range'_1.mpr (by omega), ?_⟩)
        rw [hparami]
        exact mem_updateOfParam.mpr ⟨rfl, rfl, place, hplace, rfl⟩
      · rw [← hcalls.mem]
        exact h'.deferred i (ho'.deferred_iff.mpr ⟨hresi, Nat.not_lt.mp hlt⟩) place (hparami ▸ hplace)
    · intro htimely
      have hread : ret = svsResultOk → ∀ place ∈ (s.completed i t ret).pMediaData,
          s.mem.read place = some (s.own i) := by
        rintro rfl
        exact (hheld.read_completed_iff ho hi).mpr (htimely t hi)
      -- what is handled or waits after the callback was not handled before
      have hnew : ∀ j, s.handledCount ≤ j → (s'.task j).result = some svsResultOk →
          ∀ place ∈ (s'.egress.param j).pMediaData, s.mem.read place = some (s.own j) := by
        intro j hj hresult place hplace
        by_cases hji : j = i
        · rw [hji, hresi] at hresult
          rw [hji, hparami] at hplace
          rw [hji]
          exact hread (Option.some_inj.mp hresult) place hplace
        · rw [hres j hji] at hresult
          rw [hparam j hji] at hplace
          exact h.deferred j (ho.deferred_iff.mpr ⟨hresult, hj⟩) place hplace
      have hret : ∀ j, s.handledCount ≤ j → j < s'.handledCount →
          (s'.task j).result = some (s'.egress.param j).nWriteRet := by
        intro j hge hlt
        by_cases hji : j = i
        · rw [hji, hresi, hparami]
          rfl
        · have hmem : j ∈ s'.egress.handled.map Prod.fst := ho'.handled ▸ List.mem_range.mpr hlt
          obtain ⟨e, he, rfl⟩ := List.mem_map.mp hmem
          have hresult := ho'.results e he
          have hcount := ho'.count
          rw [hcalls.same.submitted] at hcount
          rw [hres _ hji] at hresult ⊢
          rw [hparam _ hji]
          have hwaiting := ho.waiting e.1 hge (by omega)
          rw [hresult] at hwaiting ⊢
          split at hwaiting
          · exact hwaiting
          · cases hwaiting
      refine ⟨fun u hu => ?_, fun j hj => ?_⟩
      · rw [hcalls.same.own]
        rw [hcalls.updates] at hu
        rcases List.mem_append.mp hu with hu | hu
        · exact h.updates u hu
        · obtain ⟨j, hj, hu⟩ := List.mem_flatMap.mp hu
          rw [List.mem_range'_1] at hj
          obtain ⟨rfl, hok', place, hplace, heq⟩ := mem_updateOfParam.mp hu
          rw [heq]
          refine hnew u.1 hj.1 ?_ place hplace
          rw [hret u.1 hj.1 (by omega), hok']
      · obtain ⟨hresult, hge⟩ := ho'.deferred_iff.mp hj
        rw [hcalls.mem, hcalls.same.own]
        exact hnew j (Nat.le_trans hcalls.count hge) hresult
  | _ =>
    rw [EgressSystem.callback, hi]
    refine iff_of_true h fun t hi' => ?_
    rw [hi] at hi'
    cases hi'

/-! ## Every run -/

theorem ReadsOwn.step_iff (h : s.ReadsOwn) (hheld : s.Held) (ho : s.Ordered) (a : Act)
    (hok : s.Below a) : (s.step a).ReadsOwn ↔ s.Timely a := by
  cases a with
  | write b bytes isTmpfsMemory hasIndexList recvFrameTime now first second =>
    exact iff_of_true
      (h.write hheld ho b bytes isTmpfsMemory hasIndexList recvFrameTime now first second) trivial
  | count i => exact iff_of_true (h.count hheld ho i) trivial
  | otherBlock b bytes isTmpfsMemory =>
    exact iff_of_true (h.otherBlock hheld ho b bytes isTmpfsMemory) trivial
  | output i io => exact h.output_iff hheld ho i io
  | callback i now indexOk => exact h.callback_iff hheld ho i now indexOk hok
  | release i => exact h.release_iff hheld ho i
  | otherOutput t bytes => exact h.otherOutput_iff hheld ho t bytes

theorem readsOwn_init (debugWriteFile : Bool) : (init debugWriteFile).ReadsOwn where
  updates _ h := (List.not_mem_nil h).elim
  deferred i h := (Nat.not_lt_zero i (h.lt (ordered_init debugWriteFile))).elim

/-- Whatever is written and in which order the threads complete it. -/
theorem run_readsOwn_iff (debugWriteFile : Bool) (as : List Act)
    (has : Allowed step Below (init debugWriteFile) as) :
    Allowed step Timely (init debugWriteFile) as ↔
      ∀ pre, pre <+: as → (run step (init debugWriteFile) pre).ReadsOwn := by
  let I (s : EgressSystem) : Prop := (s.Ordered ∧ s.Held) ∧ s.ReadsOwn
  have hbase : ∀ pre, pre <+: as → (run step (init debugWriteFile) pre).Ordered ∧
      (run step (init debugWriteFile) pre).Held := by
    rintro pre ⟨rest, rfl⟩
    exact (allowed_append.mp has).1.invariant (I := fun s : EgressSystem => s.Ordered ∧ s.Held)
      ⟨ordered_init debugWriteFile, held_init debugWriteFile⟩
      fun _ a h hok => ⟨h.1.step a hok, h.2.step h.1 a hok⟩
  have hiff : Allowed step Timely (init debugWriteFile) as ↔
      ∀ pre, pre <+: as → I (run step (init debugWriteFile) pre) :=
    has.allowed_iff
      ⟨⟨ordered_init debugWriteFile, held_init debugWriteFile⟩, readsOwn_init debugWriteFile⟩
      fun s a h hok => ⟨fun h' => (h.2.step_iff h.1.2 h.1.1 a hok).mp h'.2, fun htimely =>
        ⟨⟨h.1.1.step a hok, h.1.2.step h.1.1 a hok⟩,
          (h.2.step_iff h.1.2 h.1.1 a hok).mpr htimely⟩⟩
  exact hiff.trans ⟨fun h pre hpre => (h pre hpre).2, fun h pre hpre => ⟨hbase pre hpre, h pre hpre⟩⟩

/-- Three writes, of which the first two are on one thread and the first one is from tmpfs, complete in
order. -/
def inOrderRun : List Act :=
  let ok : IoOutcome := ⟨true, true, true, 0⟩
  [.write 0 [1] true true 3600 0 ⟨.ok, some 0⟩ ⟨.ok, none⟩,
    .write 1 [2] true false 3601 0 ⟨.ok, some 0⟩ ⟨.ok, none⟩,
    .write 2 [3] false true 3602 0 ⟨.ok, some 1⟩ ⟨.ok, none⟩,
    .output 0 ok, .callback 0 0 fun _ => true, .release 0, .output 1 ok, .callback 1 0 fun _ => true,
    .release 1, .otherOutput 0 [4], .output 2 ok, .callback 2 0 fun _ => true, .release 2]

theorem inOrderRun_readsOwn :
    (∀ pre, pre <+: inOrderRun → (run step (init true) pre).ReadsOwn) ∧
      (run step (init true) inOrderRun).egress.updates =
        [(0, some ⟨some 0, [1], some 0⟩), (1, some ⟨some 1, [2], none⟩), (2, some ⟨some 2, [3], some 2⟩)] := by
  refine ⟨(run_readsOwn_iff true inOrderRun (by decide)).mp ?_, by decide⟩
  have hspares : ∀ (s : EgressSystem) (t : Nat) (d : MediaData),
      (∀ i < s.submitted, ¬ s.Deferred i) → s.Spares t d :=
    fun s t d h i hi hdeferred => absurd hdeferred (h i hi)
  refine ⟨trivial, trivial, trivial, fun t _ _ _ _ _ => hspares _ t _ (by decide), ?_⟩
  refine ⟨fun _ _ _ => rfl, fun _ _ _ _ => by decide, fun t _ _ _ _ _ => hspares _ t _ (by decide), ?_⟩
  refine ⟨fun _ _ _ => rfl, fun _ _ _ _ => by decide, fun _ => hspares _ 0 _ (by decide), ?_⟩
  exact ⟨fun t _ _ _ _ h => Bool.noConfusion h, fun _ _ _ => rfl, fun _ _ _ _ => by decide, trivial⟩

/-- The second write completes first: its block has been released when its index update is run. -/
theorem not_readsOwn_released :
    let ok : IoOutcome := ⟨true, true, true, 0⟩
    let s := run step (init true)
      [.write 0 [1] false false 3600 0 ⟨.ok, some 0⟩ ⟨.ok, none⟩,
        .write 1 [2] false false 3601 0 ⟨.ok, some 1⟩ ⟨.ok, none⟩, .output 1 ok,
        .callback 1 0 fun _ => true, .release 1, .output 0 ok, .callback 0 0 fun _ => true]
    ¬ s.ReadsOwn ∧ s.egress.updates = [(0, some ⟨some 0, [1], none⟩), (1, none)] := by
  refine ⟨fun h => ?_, by decide⟩
  have hread := h.updates (1, none) (by decide)
  cases hread

end EgressSystem

end AllCamera
