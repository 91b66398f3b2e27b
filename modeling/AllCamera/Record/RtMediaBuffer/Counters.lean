import AllCamera.Lib.Run
import AllCamera.Record.RtMediaBuffer
import Mathlib.Data.List.Perm.Basic
import Mathlib.Data.UInt

/-!
# The counters of the free buffers

`init` fills the lists of the free buffers, but leaves their counters at zero: each is too small by the number
of the buffers, modulo 2^32, in every state. So the number of the cameras that have no buffer yet is compared
with a counter that has wrapped, and a camera is given the buffers that are to be kept for the others.

* `init_spec`: the lists and the counters after `init`.
* `Kept`: the lists have all buffers; what the counters are.
* `Sound`: what they are to be; `run_not_sound`: they never are.
* `not_sound_two_cameras`: a camera takes the buffer that is to be kept for another one.
-/

namespace AllCamera

open Run

namespace RtMediaBuffer

theorem initTempfsLoop_spec (tmpfsOk : Nat → Bool) (n i : Nat) {s : RtMediaBuffer}
    (h : (initTempfsLoop tmpfsOk n i s).2 = true) :
    (initTempfsLoop tmpfsOk n i s).1 =
      { s with
        tmpfsFreeBufferList := s.tmpfsFreeBufferList ++ List.range' s.created n
        created := s.created + n } := by
  induction n generalizing i s with
  | zero => simp [initTempfsLoop]
  | succ n ih =>
    unfold initTempfsLoop at h ⊢
    split_ifs at h ⊢
    rw [ih (i + 1) h, List.append_assoc, List.singleton_append, List.range'_succ, Nat.add_right_comm,
      Nat.add_assoc]

/-- The loop of `init` goes on to the end only if all buffers were allocated. -/
theorem initLoop_spec (memoryOk : Nat → Bool) (n i : Nat) {s : RtMediaBuffer} :
    (initLoop memoryOk n i s).2 ≤ i + n ∧ ((initLoop memoryOk n i s).2 = i + n →
      (initLoop memoryOk n i s).1 =
        { s with
          freeBufferList := s.freeBufferList ++ List.range' s.created n
          created := s.created + n }) := by
  induction n generalizing i s with
  | zero => simp [initLoop]
  | succ n ih =>
    unfold initLoop
    split_ifs
    · obtain ⟨hle, hall⟩ := @ih (i + 1)
        { s with freeBufferList := s.freeBufferList ++ [s.created], created := s.created + 1 }
      refine ⟨by omega, fun hend => ?_⟩
      rw [hall (by omega), List.append_assoc, List.singleton_append, List.range'_succ, Nat.add_right_comm,
        Nat.add_assoc]
    · exact ⟨by omega, fun hend => by omega⟩

variable {memoryOk tmpfsOk : Nat → Bool} {bufferLen bufferNum tmpfsBufferNum serveLensNum : UInt32}

/-- The buffers after a successful `init`: all are free, and the counters are zero. -/
theorem init_spec (htmpfs : 0 < tmpfsBufferNum)
    (h : (new.init memoryOk tmpfsOk bufferLen bufferNum tmpfsBufferNum serveLensNum).2 = true) :
    bufferNum ≠ 0 ∧ (new.init memoryOk tmpfsOk bufferLen bufferNum tmpfsBufferNum serveLensNum).1 =
      { initFlag := true
        bufferLen
        freeBufferList := List.range' tmpfsBufferNum.toNat bufferNum.toNat
        usedBufferList := []
        tmpfsFreeBufferList := List.range tmpfsBufferNum.toNat
        tmpfsUsedBufferList := []
        serveLensNum
        currServeLensNum := 0
        freeMemoryBufferNum := 0
        freeTmpfsBufferNum := 0
        usedTmpfsBufferFlag := true
        created := tmpfsBufferNum.toNat + bufferNum.toNat } := by
  unfold init at h ⊢
  rw [if_neg (show ¬ new.initFlag = true from Bool.false_ne_true)] at h ⊢
  by_cases hzero : bufferNum = 0
  · rw [if_pos hzero] at h
    cases h
  refine ⟨hzero, ?_⟩
  rw [if_neg hzero] at h ⊢
  by_cases hmax : svsRecvRtMediaDataPoolMaxLen / bufferLen < bufferNum
  · rw [if_pos hmax] at h
    cases h
  rw [if_neg hmax] at h ⊢
  dsimp only at h ⊢
  rw [if_pos htmpfs] at h ⊢
  unfold initTempfsBuffer at h ⊢
  dsimp only at h ⊢
  generalize hcleared : ({ new with
      usedBufferList := []
      freeBufferList := []
      serveLensNum
      currServeLensNum := 0
      tmpfsUsedBufferList := []
      tmpfsFreeBufferList := []
      usedTmpfsBufferFlag := true } : RtMediaBuffer) = cleared at h ⊢
  have htmpfsLoop := @initTempfsLoop_spec tmpfsOk tmpfsBufferNum.toNat 0 cleared
  generalize initTempfsLoop tmpfsOk tmpfsBufferNum.toNat 0 cleared = r at h htmpfsLoop ⊢
  obtain ⟨s, ok⟩ := r
  cases ok with
  | false => cases h
  | true =>
    obtain rfl := htmpfsLoop rfl
    dsimp only at h ⊢
    rw [if_neg (by simp)] at h ⊢
    generalize htmpfsFilled : ({ cleared with
        tmpfsFreeBufferList := cleared.tmpfsFreeBufferList ++ List.range' cleared.created tmpfsBufferNum.toNat
        created := cleared.created + tmpfsBufferNum.toNat } : RtMediaBuffer) = s at h ⊢
    obtain ⟨-, hloop⟩ := @initLoop_spec memoryOk bufferNum.toNat 0 s
    generalize initLoop memoryOk bufferNum.toNat 0 s = r at h hloop ⊢
    obtain ⟨s', i⟩ := r
    dsimp only at h hloop ⊢
    by_cases hi : i = bufferNum.toNat
    · rw [if_neg (not_not.mpr hi)]
      obtain rfl := hloop (by omega)
      subst htmpfsFilled hcleared
      simp [new, List.range_eq_range']
    · rw [if_pos hi] at h
      cases h

variable (s : RtMediaBuffer)

/-- What `alloc_buffer` can do. -/
theorem allocBuffer_cases (first : Bool) : s.allocBuffer first = (s, none) ∨
    ∃ buffer rest, s.freeBufferList = buffer :: rest ∧ s.allocBuffer first =
      ({ s with
        currServeLensNum := if first then s.currServeLensNum + 1 else s.currServeLensNum
        freeBufferList := rest
        usedBufferList := s.usedBufferList ++ [buffer]
        freeMemoryBufferNum := s.freeMemoryBufferNum - 1 }, some buffer) := by
  unfold allocBuffer
  by_cases hinit : (!s.initFlag) = true
  · exact .inl (if_pos hinit)
  rw [if_neg hinit]
  by_cases hkept : !first ∧ s.usedTmpfsBufferFlag ∧ s.freeMemoryBufferNum < s.serveLensNum - s.currServeLensNum
  · exact .inl (if_pos hkept)
  rw [if_neg hkept]
  cases s.freeBufferList with
  | nil => exact .inl rfl
  | cons buffer rest => exact .inr ⟨buffer, rest, rfl, rfl⟩

/-- What `alloc_tmpfs_buffer` can do. -/
theorem allocTmpfsBuffer_cases : s.allocTmpfsBuffer = (s, none) ∨
    ∃ buffer rest, s.tmpfsFreeBufferList = buffer :: rest ∧ s.allocTmpfsBuffer =
      ({ s with
        tmpfsFreeBufferList := rest
        tmpfsUsedBufferList := s.tmpfsUsedBufferList ++ [buffer]
        freeTmpfsBufferNum := s.freeTmpfsBufferNum - 1 }, some buffer) := by
  unfold allocTmpfsBuffer
  split_ifs
  · exact .inl rfl
  · cases s.tmpfsFreeBufferList with
    | nil => exact .inl rfl
    | cons buffer rest => exact .inr ⟨buffer, rest, rfl, rfl⟩

end RtMediaBuffer

/-! ## Lists and counters -/

theorem perm_alloc {free used all : List Nat} {buffer : Nat} (h : (buffer :: free ++ used).Perm all) :
    (free ++ (used ++ [buffer])).Perm all := by
  rw [← List.append_assoc]
  exact (List.perm_append_comm.trans (List.Perm.refl _)).trans h

theorem perm_free {free used all : List Nat} {buffer : Nat} (h : (free ++ used).Perm all) (hall : all.Nodup)
    (hbuffer : buffer ∈ used) : (free ++ [buffer] ++ used.filter fun b => b ≠ buffer).Perm all := by
  have hused : used.Nodup := (List.nodup_append.mp (h.nodup_iff.mpr hall)).2.1
  have herase : (used.filter fun b => b ≠ buffer) = used.erase buffer := by
    rw [hused.erase_eq_filter]
    exact List.filter_congr fun b _ => decide_not
  rw [herase, List.append_assoc, List.singleton_append]
  exact ((List.perm_cons_erase hbuffer).symm.append_left free).trans h

theorem ofNat_succ_sub (k : Nat) (n : UInt32) : UInt32.ofNat (k + 1) - n - 1 = UInt32.ofNat k - n := by
  rw [UInt32.ofNat_add]
  grind

theorem ofNat_sub_add (k : Nat) (n : UInt32) : UInt32.ofNat k - n + 1 = UInt32.ofNat (k + 1) - n := by
  rw [UInt32.ofNat_add]
  grind

namespace MediaBufferSystem

variable {s : MediaBufferSystem} {n tn : UInt32}

/-- The lists have all buffers of their kind, each once. -/
structure Parted (n tn : UInt32) (s : MediaBufferSystem) : Prop where
  memory : (s.buffers.freeBufferList ++ s.buffers.usedBufferList).Perm (List.range' tn.toNat n.toNat)
  tmpfs : (s.buffers.tmpfsFreeBufferList ++ s.buffers.tmpfsUsedBufferList).Perm (List.range tn.toNat)

/-- What the counters are to be, and what they are for: a camera gets a first buffer while fewer are served
than there may be. -/
structure Sound (n tn : UInt32) (s : MediaBufferSystem) : Prop where
  parted : Parted n tn s
  memoryNum : s.buffers.freeMemoryBufferNum.toNat = s.buffers.freeBufferList.length
  tmpfsNum : s.buffers.freeTmpfsBufferNum.toNat = s.buffers.tmpfsFreeBufferList.length
  first : s.cameras.length < s.buffers.serveLensNum.toNat →
    ∀ camera, s.Ok (.allocBuffer camera true) → (s.buffers.allocBuffer true).2 ≠ none

/-- Each counter is too small by the number of the buffers. -/
structure Kept (n tn : UInt32) (s : MediaBufferSystem) : Prop where
  parted : Parted n tn s
  memoryNum : s.buffers.freeMemoryBufferNum = UInt32.ofNat s.buffers.freeBufferList.length - n
  tmpfsNum : s.buffers.freeTmpfsBufferNum = UInt32.ofNat s.buffers.tmpfsFreeBufferList.length - tn
  served : s.buffers.currServeLensNum = UInt32.ofNat s.cameras.length
  cameras : s.cameras.Nodup
  initFlag : s.buffers.initFlag = true

theorem Kept.allocBuffer (h : Kept n tn s) {camera : Nat} {first : Bool}
    (hok : s.Ok (.allocBuffer camera first)) : Kept n tn (s.step (.allocBuffer camera first)) := by
  unfold step
  dsimp only
  rcases s.buffers.allocBuffer_cases first with heq | ⟨buffer, rest, hfree, heq⟩
  · rw [heq]
    cases first <;> exact h
  · rw [heq]
    have hmemory := h.parted.memory
    have hnum := h.memoryNum
    rw [hfree] at hmemory hnum
    have hkept : s.buffers.freeMemoryBufferNum - 1 = UInt32.ofNat rest.length - n := by
      rw [hnum]
      exact ofNat_succ_sub _ _
    cases first with
    | false => exact ⟨⟨perm_alloc hmemory, h.parted.tmpfs⟩, hkept, h.tmpfsNum, h.served, h.cameras, h.initFlag⟩
    | true =>
      refine ⟨⟨perm_alloc hmemory, h.parted.tmpfs⟩, hkept, h.tmpfsNum, ?_, ?_, h.initFlag⟩
      · show s.buffers.currServeLensNum + 1 = UInt32.ofNat (s.cameras.length + 1)
        rw [h.served, UInt32.ofNat_add]
        rfl
      · exact List.nodup_cons.mpr ⟨hok, h.cameras⟩

theorem Kept.allocTmpfsBuffer (h : Kept n tn s) : Kept n tn (s.step .allocTmpfsBuffer) := by
  unfold step
  dsimp only
  rcases s.buffers.allocTmpfsBuffer_cases with heq | ⟨buffer, rest, hfree, heq⟩
  · rw [heq]
    exact h
  · rw [heq]
    have htmpfs := h.parted.tmpfs
    have hnum := h.tmpfsNum
    rw [hfree] at htmpfs hnum
    refine ⟨⟨h.parted.memory, perm_alloc htmpfs⟩, h.memoryNum, ?_, h.served, h.cameras, h.initFlag⟩
    show s.buffers.freeTmpfsBufferNum - 1 = UInt32.ofNat rest.length - tn
    rw [hnum]
    exact ofNat_succ_sub _ _

theorem Kept.freeBuffer (h : Kept n tn s) {buffer : Nat} {last : Option Nat}
    (hok : s.Ok (.freeBuffer buffer last)) : Kept n tn (s.step (.freeBuffer buffer last)) := by
  unfold step RtMediaBuffer.freeBuffer
  dsimp only
  rw [if_neg (by simp [h.initFlag]), if_neg Bool.false_ne_true]
  refine ⟨⟨perm_free h.parted.memory List.nodup_range' hok.1, h.parted.tmpfs⟩, ?_, h.tmpfsNum, ?_,
    h.cameras.filter _, h.initFlag⟩
  · show s.buffers.freeMemoryBufferNum + 1 = UInt32.ofNat (s.buffers.freeBufferList ++ [buffer]).length - n
    rw [h.memoryNum, List.length_append]
    exact ofNat_sub_add _ _
  · show (if last.isSome then s.buffers.currServeLensNum - 1 else s.buffers.currServeLensNum) =
      UInt32.ofNat (s.cameras.filter fun camera => last ≠ some camera).length
    cases last with
    | none => simpa using h.served
    | some camera =>
      have hmem := hok.2 camera rfl
      have herase : (s.cameras.filter fun c => some camera ≠ some c) = s.cameras.erase camera := by
        rw [h.cameras.erase_eq_filter]
        refine List.filter_congr fun c _ => ?_
        by_cases hc : c = camera
        · simp [hc]
        · simp [hc, Ne.symm hc]
      have hlen := List.length_erase_add_one hmem
      rw [if_pos (show (some camera).isSome = true from rfl), herase, h.served, ← hlen, UInt32.ofNat_add]
      exact add_sub_cancel_right _ _

theorem Kept.freeTmpfsBuffer (h : Kept n tn s) {buffer : Nat} (hok : s.Ok (.freeTmpfsBuffer buffer)) :
    Kept n tn (s.step (.freeTmpfsBuffer buffer)) := by
  unfold step RtMediaBuffer.freeBuffer
  dsimp only
  rw [if_neg (by simp [h.initFlag]), if_pos rfl]
  refine ⟨⟨h.parted.memory, perm_free h.parted.tmpfs List.nodup_range hok⟩, h.memoryNum, ?_, h.served, h.cameras,
    h.initFlag⟩
  show s.buffers.freeTmpfsBufferNum + 1 = UInt32.ofNat (s.buffers.tmpfsFreeBufferList ++ [buffer]).length - tn
  rw [h.tmpfsNum, List.length_append]
  exact ofNat_sub_add _ _

theorem Kept.step (h : Kept n tn s) {a : Act} (hok : s.Ok a) : Kept n tn (s.step a) := by
  cases a with
  | allocBuffer camera first => exact h.allocBuffer hok
  | allocTmpfsBuffer => exact h.allocTmpfsBuffer
  | freeBuffer buffer last => exact h.freeBuffer hok
  | freeTmpfsBuffer buffer => exact h.freeTmpfsBuffer hok

theorem Kept.not_sound (h : Kept n tn s) (hn : n ≠ 0) : ¬ Sound n tn s := by
  intro hsound
  have hnum := h.memoryNum
  rw [← hsound.memoryNum, UInt32.ofNat_toNat] at hnum
  exact hn (by grind)

/-- The state after `init`, with no camera. -/
def start (memoryOk tmpfsOk : Nat → Bool) (bufferLen bufferNum tmpfsBufferNum serveLensNum : UInt32) :
    MediaBufferSystem where
  buffers := (RtMediaBuffer.new.init memoryOk tmpfsOk bufferLen bufferNum tmpfsBufferNum serveLensNum).1
  cameras := []

variable {memoryOk tmpfsOk : Nat → Bool} {bufferLen bufferNum tmpfsBufferNum serveLensNum : UInt32}

theorem start_kept (htmpfs : 0 < tmpfsBufferNum) (hinit :
    (RtMediaBuffer.new.init memoryOk tmpfsOk bufferLen bufferNum tmpfsBufferNum serveLensNum).2 = true) :
    Kept bufferNum tmpfsBufferNum
      (start memoryOk tmpfsOk bufferLen bufferNum tmpfsBufferNum serveLensNum) := by
  obtain ⟨-, heq⟩ := RtMediaBuffer.init_spec htmpfs hinit
  unfold start
  rw [heq]
  refine ⟨⟨?_, ?_⟩, ?_, ?_, rfl, List.nodup_nil, rfl⟩
  · simp
  · simp
  · simp
  · simp

/-- After every successful `init` with tmpfs buffers, in every run the lists have all buffers, each once, but
the counters are too small by the numbers of the buffers, so they are never the lengths of the lists. -/
theorem run_not_sound {acts : List Act} (htmpfs : 0 < tmpfsBufferNum)
    (hinit :
      (RtMediaBuffer.new.init memoryOk tmpfsOk bufferLen bufferNum tmpfsBufferNum serveLensNum).2 = true)
    (hacts : Allowed step Ok (start memoryOk tmpfsOk bufferLen bufferNum tmpfsBufferNum serveLensNum) acts) :
    Kept bufferNum tmpfsBufferNum
        (run step (start memoryOk tmpfsOk bufferLen bufferNum tmpfsBufferNum serveLensNum) acts) ∧
      ¬ Sound bufferNum tmpfsBufferNum
        (run step (start memoryOk tmpfsOk bufferLen bufferNum tmpfsBufferNum serveLensNum) acts) := by
  have hkept := hacts.invariant (start_kept htmpfs hinit) fun _ _ hs hok => hs.step hok
  exact ⟨hkept, hkept.not_sound (RtMediaBuffer.init_spec htmpfs hinit).1⟩

/-- Two buffers for two cameras. -/
def startTwo : MediaBufferSystem := start (fun _ => true) (fun _ => true) 1024 2 1 2

theorem allowed_startTwo : Allowed step Ok startTwo [.allocBuffer 0 true, .allocBuffer 0 false] := by
  refine ⟨List.not_mem_nil, ?_, trivial⟩
  show 0 ∈ (startTwo.step (.allocBuffer 0 true)).cameras
  decide

theorem run_not_sound_two_cameras :
    Kept 2 1 (run step startTwo [.allocBuffer 0 true, .allocBuffer 0 false]) ∧
      ¬ Sound 2 1 (run step startTwo [.allocBuffer 0 true, .allocBuffer 0 false]) :=
  run_not_sound (by decide) (by decide) allowed_startTwo

/-- The first camera is given the second buffer, too, and the first allocation of the second camera fails. -/
theorem not_sound_two_cameras :
    (RtMediaBuffer.new.init (fun _ => true) (fun _ => true) 1024 2 1 2).2 = true ∧
      Allowed step Ok startTwo [.allocBuffer 0 true, .allocBuffer 0 false] ∧
      ((run step startTwo [.allocBuffer 0 true, .allocBuffer 0 false]).buffers.allocBuffer true).2 = none ∧
      ¬ Sound 2 1 (run step startTwo [.allocBuffer 0 true, .allocBuffer 0 false]) := by
  have hinit : (RtMediaBuffer.new.init (fun _ => true) (fun _ => true) 1024 2 1 2).2 = true := by decide
  have hrun : run step startTwo [.allocBuffer 0 true, .allocBuffer 0 false] =
    { buffers :=
        { initFlag := true
          bufferLen := 1024
          freeBufferList := []
          usedBufferList := [1, 2]
          tmpfsFreeBufferList := [0]
          tmpfsUsedBufferList := []
          serveLensNum := 2
          currServeLensNum := 1
          freeMemoryBufferNum := -2
          freeTmpfsBufferNum := 0
          usedTmpfsBufferFlag := true
          created := 3 }
      cameras := [0] } := by decide
  refine ⟨hinit, allowed_startTwo, ?_, fun hsound => ?_⟩
  · rw [hrun]
    rfl
  · rw [hrun] at hsound
    exact hsound.first (by decide) 1 (show 1 ∉ [0] by decide) rfl

end MediaBufferSystem

end AllCamera
