import AllCamera.Record.DiskManager.Groups
import AllCamera.Record.DiskManager.OpenFile

/-!
# The vfds of the callers

`openFile` writes a vfd back also when it fails, but takes the slot only when it succeeds. So a caller may keep
the vfd of a successful open only, as `SVS_File_Egress` does, and it has to close the file before it frees the
vfd.

* `Safe`: what is asked of a step; `Calls`: what the callers see to.
* `Held`: the slots of the callers are taken, are different and have a raid; `held_step`.
* `run_vfds`: all steps are safe.
-/

namespace AllCamera

open Run

namespace DiskManager

variable {c : DiskConfig} {m m' : DiskManager} {vfd vfd' : Int} {v : Nat} {r : DiskRet} {cameraId : Nat}
  {createDir : Option FileErr} {createFile : Except FileErr Nat}

/-- A subscript of the raids that there are. -/
def HasRaid (m : DiskManager) (k : Int) : Prop := 0 ≤ k ∧ k < m.raidTotal

instance {k : Int} : Decidable (m.HasRaid k) := inferInstanceAs (Decidable (_ ∧ _))

/-- The slot `v` is taken, by a file of a raid that there is. -/
structure Taken (m : DiskManager) (v : Nat) : Prop where
  lt : v < recordMaxLensNum
  status : (m.fileList v).vfdStatus ≠ .free
  raid : m.HasRaid (m.fileList v).raidIndex

/-- The file of a slot that is free is not open. -/
def FreeClosed (m : DiskManager) : Prop := ∀ v, (m.fileList v).vfdStatus = .free → (m.fileList v).sysFd ≤ -1

theorem Chosen.hasRaid {k q : Int} (h : m.Chosen c vfd v k q) (hheld : 0 ≤ vfd → m.Taken vfd.toNat) :
    m.HasRaid k := by
  cases h with
  | new _ hk _ => exact ⟨by omega, by omega⟩
  | stay hv _ =>
    subst hv
    have htaken := hheld (by omega)
    rw [Int.toNat_natCast] at htaken
    exact htaken.raid

theorem fileList_setFile_of_ne {file : VFile} {w : Nat} (h : w ≠ v) :
    (m.setFile v file).fileList w = m.fileList w :=
  Function.update_of_ne h ..

@[simp] theorem fileList_setRaid {k : Int} {raid : RecordRaid} : (m.setRaid k raid).fileList = m.fileList := rfl

/-- What an open leaves as it is, and what it makes of the slot that it writes back. -/
structure OpenKeeps (m m' : DiskManager) (vfd vfd' : Int) (r : DiskRet) : Prop where
  raidTotal : m'.raidTotal = m.raidTotal
  frame : ∀ w, w ≠ vfd'.toNat → m'.fileList w = m.fileList w
  failed : ¬ r.Succeeded → ∀ w, (m'.fileList w).vfdStatus = (m.fileList w).vfdStatus ∧
    (m'.fileList w).sysFd = (m.fileList w).sysFd ∧ (m.Taken w → m.HasRaid (m'.fileList w).raidIndex)
  succeeded : r.Succeeded → 0 ≤ vfd' ∧ m'.Taken vfd'.toNat
  slot : vfd' = vfd ∨ vfd ≤ -1 ∧ 0 ≤ vfd' ∧ (m.fileList vfd'.toNat).vfdStatus = .free

theorem Slot.written {cursor : Nat} (h : m.Slot vfd v cursor) :
    (v : Int) = vfd ∨ vfd ≤ -1 ∧ 0 ≤ (v : Int) ∧ (m.fileList (v : Int).toNat).vfdStatus = .free := by
  cases h with
  | first hfirst hfind => exact .inr ⟨hfirst, by omega, (findVfd_eq_some hfind).2⟩
  | again _ => exact .inl rfl

theorem Opening.keeps (h : m.Opening c cameraId vfd createDir createFile m' vfd' r)
    (hheld : 0 ≤ vfd → m.Taken vfd.toNat) : m.OpenKeeps m' vfd vfd' r := by
  cases h with
  | refused hvfd hr =>
    exact ⟨rfl, fun _ _ => rfl, fun _ w => ⟨rfl, rfl, fun htaken => htaken.raid⟩,
      fun hr' => absurd hr' hr, .inl rfl⟩
  | noRaid hslot hload _ =>
    exact ⟨rfl, fun _ _ => rfl, fun _ w => ⟨rfl, rfl, fun htaken => htaken.raid⟩,
      fun hr => absurd hr (by decide), hslot.written⟩
  | @failed v cursor raidList k q d e hslot hload hchosen _ =>
    refine ⟨rfl, fun w hw => fileList_setFile_of_ne hw, fun _ w => ?_,
      fun hr => by unfold DiskRet.Succeeded at hr; simp at hr, hslot.written⟩
    by_cases hw : w = v
    · subst hw
      rw [fileList_setFile]
      exact ⟨rfl, rfl, fun _ => hchosen.hasRaid hheld⟩
    · rw [fileList_setFile_of_ne hw]
      exact ⟨rfl, rfl, fun htaken => htaken.raid⟩
  | @done v cursor fd raidList k q d r hslot hload hchosen hr hdir hfile =>
    refine ⟨rfl, fun w hw => fileList_setFile_of_ne hw, fun hr' => absurd hr hr', fun _ => ⟨by omega, ?_⟩,
      hslot.written⟩
    rw [Int.toNat_natCast]
    refine ⟨hslot.lt, ?_, ?_⟩
    · rw [fileList_setRaid, fileList_setFile]
      simp
    · rw [fileList_setRaid, fileList_setFile]
      exact hchosen.hasRaid hheld

theorem Taken.congr (h : m.Taken v) (htotal : m'.raidTotal = m.raidTotal)
    (hfile : m'.fileList v = m.fileList v) : m'.Taken v := by
  obtain ⟨hlt, hstatus, hraid⟩ := h
  unfold HasRaid at hraid
  exact ⟨hlt, by rwa [hfile], by unfold HasRaid; rwa [hfile, htotal]⟩

/-- What an open may subscript the raids with. -/
theorem openFileRaids_hasRaid {loads : Nat → Option Int} (hheld : 0 ≤ vfd → m.Taken vfd.toNat) {k : Int}
    (hk : k ∈ m.openFileRaids c vfd loads) : m.HasRaid k := by
  unfold openFileRaids at hk
  by_cases hlarge : (recordMaxLensNum : Int) ≤ vfd
  · rw [if_pos hlarge] at hk
    cases hk
  rw [if_neg hlarge] at hk
  have halloc := @allocDisk_allocated c m vfd loads (by omega) 0
  generalize m.allocDisk c vfd 0 loads = o at halloc hk
  obtain ⟨m', v', k', r⟩ := o
  dsimp only at halloc hk
  rcases List.mem_append.mp hk with hk | hk
  · -- the raid of the slot that the caller has
    unfold allocDiskRaids at hk
    split_ifs at hk with hfirst
    · cases hk
    · obtain rfl := List.mem_singleton.mp hk
      exact (hheld (by omega)).raid
  · split_ifs at hk with hfailed
    · cases hk
    · obtain rfl := List.mem_singleton.mp hk
      cases halloc with
      | noVfd _ _ => exact absurd (by decide) hfailed
      | noRaid _ _ _ => exact absurd (by decide) hfailed
      | chosen _ _ hchosen _ => exact hchosen.hasRaid hheld

/-- A check changes the state of open files only, and never to free. -/
theorem checkRaid_keeps (c : DiskConfig) (m : DiskManager) (flag : Nat → DiskErr) (i v : Nat) :
    ((m.checkRaid c flag i).fileList v).sysFd = (m.fileList v).sysFd ∧
      ((m.checkRaid c flag i).fileList v).raidIndex = (m.fileList v).raidIndex ∧
      ((m.checkRaid c flag i).fileList v).ioQueueIndex = (m.fileList v).ioQueueIndex ∧
      (((m.checkRaid c flag i).fileList v).vfdStatus = (m.fileList v).vfdStatus ∨
        -1 < (m.fileList v).sysFd ∧ ((m.checkRaid c flag i).fileList v).vfdStatus ≠ .free) := by
  obtain ⟨raid, freeList, fileList, -, hfiles, heq⟩ := checkRaid_eq c m flag i
  rw [heq]
  dsimp only
  obtain rfl | ⟨e, rfl⟩ := hfiles
  · exact ⟨rfl, rfl, rfl, .inl rfl⟩
  unfold notifyExcept
  dsimp only
  split_ifs with hopen hbad
  · exact ⟨rfl, rfl, rfl, .inr ⟨hopen.2.2, by simp⟩⟩
  · exact ⟨rfl, rfl, rfl, .inr ⟨hopen.2.2, by simp⟩⟩
  · exact ⟨rfl, rfl, rfl, .inl rfl⟩

end DiskManager

namespace DiskSystem

open DiskManager

/-- No two callers have the same vfd. -/
def Distinct (s : DiskSystem) : Prop := ∀ j k, j ≠ k → 0 ≤ s.vfd j → s.vfd j ≠ s.vfd k

/-- The subscripts of the raids in a step, those of the loops over the raids left out. -/
def raidsUsed (c : DiskConfig) (s : DiskSystem) : Act → List Int
  | .openFile caller _ loads _ _ => s.manager.openFileRaids c (s.vfd caller) loads
  | .closeFile caller _ => s.manager.closeFileRaids (s.vfd caller)
  | _ => []

/-- The slot that a step hands to a caller that did not have it. -/
def handedOut (c : DiskConfig) (s : DiskSystem) : Act → Option Nat
  | .openFile caller cameraId loads createDir createFile =>
    let v := (s.manager.openFile c cameraId (s.vfd caller) loads createDir createFile).2.1
    if 0 ≤ v ∧ v ≠ s.vfd caller then some v.toNat else none
  | _ => none

/-- What is asked of a step. -/
structure Safe (c : DiskConfig) (keeps : DiskRet → Bool) (s : DiskSystem) (a : Act) : Prop where
  raids : ∀ k ∈ s.raidsUsed c a, s.manager.HasRaid k
  handed : ∀ v ∈ s.handedOut c a, (s.manager.fileList v).sysFd ≤ -1
  distinct : (s.step c keeps a).Distinct

/-- A caller keeps the vfd that an open which succeeds writes back. -/
def keepsOpened (r : DiskRet) : Bool := decide r.Succeeded

/-- A vfd is freed when its file is closed. -/
def Calls (s : DiskSystem) : Act → Prop
  | .freeVfd caller => 0 ≤ s.vfd caller → (s.manager.fileList (s.vfd caller).toNat).sysFd ≤ -1
  | _ => True

structure Held (s : DiskSystem) : Prop where
  taken : ∀ k, 0 ≤ s.vfd k → s.manager.Taken (s.vfd k).toNat
  distinct : s.Distinct
  closed : s.manager.FreeClosed

variable {c : DiskConfig} {s : DiskSystem} {a : Act} {caller : Nat}

/-- The other callers have other slots. -/
theorem Held.toNat_ne (h : s.Held) {k : Nat} (hk : k ≠ caller) (hvfd : 0 ≤ s.vfd k) (hvfd' : 0 ≤ s.vfd caller) :
    (s.vfd k).toNat ≠ (s.vfd caller).toNat := by
  have := h.distinct k caller hk hvfd
  omega

theorem Distinct.update {v : Int} (h : s.Distinct) (hv : ∀ k, k ≠ caller → 0 ≤ s.vfd k → s.vfd k ≠ v) :
    Distinct ⟨s.manager, Function.update s.vfd caller v⟩ := by
  intro j k hjk hj
  dsimp only at hj ⊢
  rw [Function.update_apply] at hj
  rw [Function.update_apply, Function.update_apply]
  split_ifs at hj ⊢ with hjc hkc hkc
  · exact absurd (hjc.trans hkc.symm) hjk
  · intro heq
    exact hv k hkc (heq ▸ hj) heq.symm
  · exact hv j hjc hj
  · exact h j k hjk hj

theorem Held.openFile (h : s.Held) (cameraId : Nat) (loads : Nat → Option Int)
    (createDir : Option FileErr) (createFile : Except FileErr Nat) :
    (s.step c keepsOpened (.openFile caller cameraId loads createDir createFile)).Held := by
  have hkeeps := (openFile_opening c s.manager cameraId (s.vfd caller) loads createDir createFile).keeps
    (h.taken caller)
  unfold step
  dsimp only
  generalize s.manager.openFile c cameraId (s.vfd caller) loads createDir createFile = o at hkeeps ⊢
  obtain ⟨m', v', r⟩ := o
  dsimp only at hkeeps ⊢
  unfold keepsOpened
  by_cases hr : r.Succeeded
  · rw [if_pos (decide_eq_true hr)]
    obtain ⟨hv', htaken⟩ := hkeeps.succeeded hr
    -- no other caller has the slot that was handed out
    have hother : ∀ k, k ≠ caller → 0 ≤ s.vfd k → s.vfd k ≠ v' := by
      intro k hk hvfd
      obtain rfl | ⟨-, -, hfree⟩ := hkeeps.slot
      · exact h.distinct k caller hk hvfd
      · rintro rfl
        exact (h.taken k hvfd).status hfree
    refine ⟨fun k hvfd => ?_, h.distinct.update hother, fun v hfree => ?_⟩
    · dsimp only at hvfd ⊢
      rw [Function.update_apply] at hvfd ⊢
      split_ifs at hvfd ⊢ with hk
      · exact htaken
      · have hne := hother k hk hvfd
        exact (h.taken k hvfd).congr hkeeps.raidTotal (hkeeps.frame _ (by omega))
    · dsimp only at hfree ⊢
      by_cases hv : v = v'.toNat
      · subst hv
        exact absurd hfree htaken.status
      · rw [hkeeps.frame v hv] at hfree ⊢
        exact h.closed v hfree
  · rw [if_neg (by simpa using hr)]
    have hsame := hkeeps.failed hr
    refine ⟨fun k hvfd => ?_, h.distinct, fun v hfree => ?_⟩
    · obtain ⟨hstatus, -, hraid⟩ := hsame (s.vfd k).toNat
      have htaken := h.taken k hvfd
      refine ⟨htaken.lt, by rw [hstatus]; exact htaken.status, ?_⟩
      have hhas := hraid htaken
      unfold HasRaid at hhas ⊢
      rwa [hkeeps.raidTotal]
    · obtain ⟨hstatus, hfd, -⟩ := hsame v
      dsimp only at hfree ⊢
      rw [hfd]
      exact h.closed v (hstatus.symm.trans hfree)

theorem Held.closeFile (h : s.Held) (ret : DiskRet) :
    (s.step c keepsOpened (.closeFile caller ret)).Held := by
  unfold step DiskManager.closeFile
  dsimp only
  split_ifs with hrange hopen
  · exact h
  · exact h
  obtain ⟨v, hv⟩ := Int.eq_ofNat_of_zero_le (show 0 ≤ s.vfd caller by omega)
  rw [hv, Int.toNat_natCast]
  refine ⟨fun k hvfd => ?_, h.distinct, fun w hfree => ?_⟩
  · have htaken := h.taken k hvfd
    dsimp only at hvfd ⊢
    by_cases hk : (s.vfd k).toNat = v
    · rw [hk] at htaken ⊢
      exact ⟨htaken.lt, by rw [fileList_setFile]; simp, by rw [fileList_setFile]; exact htaken.raid⟩
    · exact htaken.congr rfl (fileList_setFile_of_ne hk)
  · dsimp only at hfree ⊢
    by_cases hw : w = v
    · subst hw
      exact Int.le_of_eq (by rw [fileList_setFile])
    · rw [fileList_setFile_of_ne hw] at hfree ⊢
      exact h.closed w hfree

theorem Held.freeVfd (h : s.Held) (hcalls : s.Calls (.freeVfd caller)) :
    (s.step c keepsOpened (.freeVfd caller)).Held := by
  have hdistinct : Distinct ⟨s.manager, Function.update s.vfd caller (-1)⟩ :=
    h.distinct.update fun k _ hvfd => by omega
  unfold step DiskManager.freeVfd
  dsimp only
  split_ifs with hrange
  · refine ⟨fun k hvfd => ?_, hdistinct, h.closed⟩
    dsimp only at hvfd ⊢
    rw [Function.update_apply] at hvfd ⊢
    split_ifs at hvfd ⊢
    · omega
    · exact h.taken k hvfd
  have hvfd' : 0 ≤ s.vfd caller := by omega
  refine ⟨fun k hvfd => ?_, hdistinct, fun w hfree => ?_⟩
  · dsimp only at hvfd ⊢
    rw [Function.update_apply] at hvfd ⊢
    split_ifs at hvfd ⊢ with hk
    · omega
    · exact (h.taken k hvfd).congr rfl (fileList_setFile_of_ne (h.toNat_ne hk hvfd hvfd'))
  · dsimp only at hfree ⊢
    by_cases hw : w = (s.vfd caller).toNat
    · subst hw
      rw [fileList_setFile]
      exact hcalls hvfd'
    · rw [fileList_setFile_of_ne hw] at hfree ⊢
      exact h.closed w hfree

theorem Held.checkRaid (h : s.Held) (i : Nat) (flag : Nat → DiskErr) :
    (s.step c keepsOpened (.checkRaid i flag)).Held := by
  unfold step
  dsimp only
  split_ifs with hi
  · refine ⟨fun k hvfd => ?_, h.distinct, fun v hfree => ?_⟩
    · obtain ⟨-, hraid, -, hstatus⟩ := checkRaid_keeps c s.manager flag i (s.vfd k).toNat
      have htaken := h.taken k hvfd
      refine ⟨htaken.lt, ?_, ?_⟩
      · obtain heq | ⟨-, hne⟩ := hstatus
        · exact fun hfree => htaken.status (heq.symm.trans hfree)
        · exact hne
      · have hhas := htaken.raid
        dsimp only
        unfold HasRaid at hhas ⊢
        rwa [hraid, raidTotal_checkRaid]
    · obtain ⟨hfd, -, -, hstatus⟩ := checkRaid_keeps c s.manager flag i v
      dsimp only at hfree ⊢
      rw [hfd]
      obtain heq | ⟨-, hne⟩ := hstatus
      · exact h.closed v (heq.symm.trans hfree)
      · exact absurd hfree hne
  · exact h

theorem Held.step (h : s.Held) (hcalls : s.Calls a) : (s.step c keepsOpened a).Held := by
  cases a with
  | openFile caller cameraId loads createDir createFile => exact h.openFile cameraId loads createDir createFile
  | closeFile caller ret => exact h.closeFile ret
  | freeVfd caller => exact h.freeVfd hcalls
  | checkRaid i flag => exact h.checkRaid i flag

theorem opened_held (c : DiskConfig) (memory : Int → RecordRaid) (disks : List Nat) :
    (opened c memory disks).Held := by
  refine ⟨fun k hvfd => ?_, fun j k _ hvfd => ?_, fun v _ => Int.le_refl _⟩
  · exact absurd hvfd (show ¬ (0 : Int) ≤ -1 by decide)
  · exact absurd hvfd (show ¬ (0 : Int) ≤ -1 by decide)

theorem Held.safe (h : s.Held) (hcalls : s.Calls a) : s.Safe c keepsOpened a := by
  refine ⟨fun k hk => ?_, fun v hv => ?_, (h.step hcalls).distinct⟩
  · cases a with
    | openFile caller cameraId loads createDir createFile => exact openFileRaids_hasRaid (h.taken caller) hk
    | closeFile caller ret =>
      unfold raidsUsed closeFileRaids at hk
      dsimp only at hk
      split_ifs at hk
      · cases hk
      · cases hk
      · obtain rfl := List.mem_singleton.mp hk
        exact (h.taken caller (by omega)).raid
    | freeVfd caller => cases hk
    | checkRaid i flag => cases hk
  · cases a with
    | openFile caller cameraId loads createDir createFile =>
      have hslot := ((openFile_opening c s.manager cameraId (s.vfd caller) loads createDir createFile).keeps
        (h.taken caller)).slot
      unfold handedOut at hv
      dsimp only at hv hslot
      split_ifs at hv with hnew
      · obtain rfl := Option.some.inj hv
        obtain heq | ⟨-, -, hfree⟩ := hslot
        · exact absurd heq hnew.2
        · exact h.closed _ hfree
      · cases hv
    | closeFile caller ret => cases hv
    | freeVfd caller => cases hv
    | checkRaid i flag => cases hv

/-- Whatever fails in between: no two callers have the same vfd, a slot with an open file is not handed out, and
only raids that there are are used. -/
theorem run_vfds (c : DiskConfig) (memory : Int → RecordRaid) (disks : List Nat) (acts : List Act)
    (hcalls : Allowed (step c keepsOpened) Calls (opened c memory disks) acts) :
    Allowed (step c keepsOpened) (Safe c keepsOpened) (opened c memory disks) acts := by
  have hheld := opened_held c memory disks
  generalize opened c memory disks = s at hcalls hheld
  induction acts generalizing s with
  | nil => trivial
  | cons a acts ih => exact ⟨hheld.safe hcalls.1, ih _ hcalls.2 (hheld.step hcalls.1)⟩

instance : Decidable (s.Calls a) :=
  match a with
  | .openFile .. | .closeFile .. | .checkRaid .. => inferInstanceAs (Decidable True)
  | .freeVfd caller =>
    inferInstanceAs (Decidable (0 ≤ s.vfd caller → (s.manager.fileList (s.vfd caller).toNat).sysFd ≤ -1))

/-- One group of two threads, and raids for two cameras. -/
def oneGroup : DiskConfig where
  outputThreadNumPerRaid := 2
  syncWorkRaidGroupNum := 1
  maxLensPerRaid := 2
  thread_range := by decide
  group_range := by decide
  lens_range := by decide

/-- One raid with one disk. -/
def oneRaid : DiskSystem := opened oneGroup (fun _ => RecordRaid.new) [1]

/-- An open for the camera `k` by the caller `k`, whose directory is created or not. -/
def openBy (k : Nat) (createDir : Option FileErr) : Act := .openFile k k (fun _ => none) createDir (.ok 5)

/-- The caller 1 fails and tries again; the caller 0 opens its file again, and then closes and frees it. -/
theorem run_vfds_retry :
    let acts := [.checkRaid 0 fun _ => .ok, openBy 0 none, openBy 1 (some .nospace), openBy 1 none, .closeFile 0 .ok,
      openBy 0 none, .closeFile 0 .ok, .freeVfd 0]
    Allowed (step oneGroup keepsOpened) Calls oneRaid acts ∧
      Allowed (step oneGroup keepsOpened) (Safe oneGroup keepsOpened) oneRaid acts := by
  intro acts
  have hcalls : Allowed (step oneGroup keepsOpened) Calls oneRaid acts := by decide
  exact ⟨hcalls, run_vfds oneGroup (fun _ => RecordRaid.new) [1] acts hcalls⟩

/-! ### Without what the callers see to -/

/-- All slots are free, and the search begins at the slot `n`; the slot 0 has an open file. -/
structure Unclosed (s : DiskSystem) (n : Nat) : Prop where
  free : ∀ v, (s.manager.fileList v).vfdStatus = .free
  cursor : s.manager.vfdCursor = n
  none : s.vfd 1 = -1
  opened : (s.manager.fileList 0).sysFd = 5

theorem Unclosed.findVfd {n : Nat} (h : s.Unclosed n) :
    s.manager.findVfd = some (n % recordMaxLensNum) := by
  unfold DiskManager.findVfd
  rw [h.cursor, show recordMaxLensNum = 1999 + 1 from rfl, List.range'_succ,
    List.find?_cons_of_pos (by simpa using h.free _)]
  rfl

/-- An open that fails hands out the slot that the cursor is at. -/
theorem Unclosed.openFile {n : Nat} (h : s.Unclosed n) :
    let o := s.manager.openFile oneGroup 1 (s.vfd 1) (fun _ => Option.none) (some .ioerr) (.ok 5)
    o.2.1 = ((n % recordMaxLensNum : Nat) : Int) ∧ o.1.vfdCursor = n % recordMaxLensNum + 1 ∧
      ¬ o.2.2.Succeeded := by
  have hopening := openFile_opening oneGroup s.manager 1 (s.vfd 1) (fun _ => Option.none) (some .ioerr) (.ok 5)
  have hfind := h.findVfd
  have hneg := h.none
  generalize s.manager.openFile oneGroup 1 (s.vfd 1) (fun _ => Option.none) (some .ioerr) (.ok 5) = o at hopening ⊢
  obtain ⟨m', v', r⟩ := o
  dsimp only at hopening ⊢
  cases hopening with
  | refused hvfd hr =>
    obtain ⟨-, hnone⟩ | hlarge := hvfd
    · rw [hfind] at hnone
      cases hnone
    · unfold recordMaxLensNum at hlarge
      omega
  | noRaid hslot _ _ =>
    obtain ⟨hv, rfl⟩ := hslot.of_neg (by omega)
    rw [hfind] at hv
    obtain rfl := Option.some.inj hv
    exact ⟨rfl, rfl, by decide⟩
  | failed hslot _ _ _ =>
    obtain ⟨hv, rfl⟩ := hslot.of_neg (by omega)
    rw [hfind] at hv
    obtain rfl := Option.some.inj hv
    exact ⟨rfl, rfl, by unfold DiskRet.Succeeded; simp⟩
  | done _ _ _ _ hdir _ => cases hdir

/-- It only moves the cursor. -/
theorem Unclosed.openBy {n : Nat} (h : s.Unclosed n) (hn : n < recordMaxLensNum) :
    (s.step oneGroup keepsOpened (openBy 1 (some .ioerr))).Unclosed (n + 1) := by
  obtain ⟨-, hcursor, hfailed⟩ := h.openFile
  have hneg := h.none
  have hkeeps := (openFile_opening oneGroup s.manager 1 (s.vfd 1) (fun _ => Option.none) (some .ioerr)
    (.ok 5)).keeps fun hvfd => by omega
  rw [Nat.mod_eq_of_lt hn] at hcursor
  unfold DiskSystem.openBy step
  dsimp only
  generalize s.manager.openFile oneGroup 1 (s.vfd 1) (fun _ => Option.none) (some .ioerr) (.ok 5) = o
    at hcursor hfailed hkeeps ⊢
  unfold keepsOpened
  rw [if_neg (by simpa using hfailed)]
  have hsame := hkeeps.failed hfailed
  exact ⟨fun v => (hsame v).1.trans (h.free v), hcursor, h.none, (hsame 0).2.1.trans h.opened⟩

theorem Unclosed.run {n : Nat} (h : s.Unclosed n) (k : Nat) (hk : n + k ≤ recordMaxLensNum) :
    (run (step oneGroup keepsOpened) s (List.replicate k (DiskSystem.openBy 1 (some .ioerr)))).Unclosed (n + k) := by
  induction k generalizing s n with
  | zero => exact h
  | succ k ih =>
    rw [show n + (k + 1) = n + 1 + k by omega]
    exact ih (h.openBy (by omega)) (by omega)

/-- When the search has come round, the open slot is handed out. -/
theorem Unclosed.not_safe (h : s.Unclosed recordMaxLensNum) :
    ¬ s.Safe oneGroup keepsOpened (DiskSystem.openBy 1 (some .ioerr)) := by
  intro hsafe
  obtain ⟨hwritten, -, -⟩ := h.openFile
  rw [Nat.mod_self] at hwritten
  have hneg := h.none
  have hhanded : 0 ∈ s.handedOut oneGroup (DiskSystem.openBy 1 (some .ioerr)) := by
    unfold handedOut DiskSystem.openBy
    dsimp only
    rw [hwritten, if_pos (by omega)]
    rfl
  have hclosed := hsafe.handed 0 hhanded
  rw [h.opened] at hclosed
  omega

theorem fileList_freeVfd_of_ne {m : DiskManager} {vfd : Int} {v : Nat} (hv : v ≠ vfd.toNat) :
    (m.freeVfd vfd).fileList v = m.fileList v := by
  unfold DiskManager.freeVfd
  split_ifs
  · rfl
  · exact fileList_setFile_of_ne hv

/-- A slot that nobody has used is not touched when the caller 0 opens a file and frees its vfd. -/
theorem free_of_ne (hfree : ∀ v, (s.manager.fileList v).vfdStatus = .free) (hnone : s.vfd 0 = -1)
    {v : Nat} (hopened : ((s.step oneGroup keepsOpened (DiskSystem.openBy 0 none)).vfd 0).toNat ≠ v)
    (hwritten : (s.manager.openFile oneGroup 0 (s.vfd 0) (fun _ => none) none (.ok 5)).2.1.toNat ≠ v) :
    (((s.step oneGroup keepsOpened (DiskSystem.openBy 0 none)).step oneGroup keepsOpened
      (.freeVfd 0)).manager.fileList v).vfdStatus = .free := by
  have hopen := (openFile_opening oneGroup s.manager 0 (s.vfd 0) (fun _ => none) none (.ok 5)).keeps
    fun h => by omega
  have hframe := hopen.frame v (Ne.symm hwritten)
  calc (((s.step oneGroup keepsOpened (DiskSystem.openBy 0 none)).step oneGroup keepsOpened
        (.freeVfd 0)).manager.fileList v).vfdStatus
      = ((s.step oneGroup keepsOpened (DiskSystem.openBy 0 none)).manager.fileList v).vfdStatus :=
        congrArg VFile.vfdStatus (fileList_freeVfd_of_ne (Ne.symm hopened))
    _ = (s.manager.fileList v).vfdStatus := congrArg VFile.vfdStatus hframe
    _ = .free := hfree v

/-- The file of the slot 0 is open when its vfd is freed. -/
theorem unclosed_freed :
    (run (step oneGroup keepsOpened) oneRaid [.checkRaid 0 fun _ => .ok, openBy 0 none, .freeVfd 0]).Unclosed 1 := by
  refine ⟨fun v => ?_, by decide, by decide, by decide⟩
  by_cases hv : v = 0
  · subst hv
    decide
  refine free_of_ne (fun w => ?_) (by decide) (Ne.symm ?_) (Ne.symm ?_)
  · obtain ⟨-, -, -, hsame | ⟨hopen, -⟩⟩ := checkRaid_keeps oneGroup oneRaid.manager (fun _ => .ok) 0 w
    · exact hsame
    · exact absurd hopen (show ¬ (-1 : Int) < -1 by decide)
  · exact fun h => hv (h.trans (by decide))
  · exact fun h => hv (h.trans (by decide))

/-- A caller that keeps the vfd of an open that failed uses the raid -1 when it tries again; and the slot of a file
that is freed before it is closed is handed out when the search has come round. -/
theorem not_safe_kept_or_unclosed :
    (¬ ∀ c memory disks acts, Allowed (step c fun _ => true) (Safe c fun _ => true) (opened c memory disks) acts) ∧
      ¬ ∀ c memory disks acts, Allowed (step c keepsOpened) (Safe c keepsOpened) (opened c memory disks) acts := by
  constructor
  · intro h
    obtain ⟨-, hretry, -⟩ := h oneGroup (fun _ => RecordRaid.new) [1] [openBy 0 none, openBy 0 none]
    have hraid := hretry.raids (-1) (by decide)
    exact absurd hraid.1 (by decide)
  · intro h
    have hall := h oneGroup (fun _ => RecordRaid.new) [1] ([.checkRaid 0 fun _ => .ok, openBy 0 none, .freeVfd 0] ++
      (List.replicate 1999 (openBy 1 (some .ioerr)) ++ [openBy 1 (some .ioerr)]))
    obtain ⟨-, hlast⟩ := allowed_append.mp (allowed_append.mp hall).2
    exact (unclosed_freed.run 1999 (by decide)).not_safe hlast.1

end DiskSystem

end AllCamera
