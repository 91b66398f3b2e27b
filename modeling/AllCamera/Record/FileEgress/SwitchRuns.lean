import AllCamera.Record.FileEgress.Switch

/-!
# The record file of the index

Whether a write tells that its file is new is decided by `m_LastSwitchRecordTime`, which `open_file` moves on, and
by `SVS_ERR_CHANGEDISK`, which is returned once. When the block is not put into a queue then, the next write opens
the file again and finds neither.

* `NewFile`, `Tells`: a write to another file than the last one; what its parameter has to say.
* `Switched`: the new files are told, and the index file is always that of the file of the block.
* `Known`: what is asked of a write. `switched_write_iff`, and `run_switched_iff` for every sequence of writes.
-/

namespace AllCamera

open Run

namespace SwitchEgress

/-- A write to another file than that of the last write. -/
def NewFile (last : Option SubmittedWrite) (w : SubmittedWrite) : Prop :=
  last.map (fun last => last.vfile.file) ≠ some w.vfile.file

/-- The parameter has the record file or the disk changed, with the file and its size at the start. -/
structure Tells (w : SubmittedWrite) : Prop where
  flag : w.param.ulChangeRecordFile ∨ w.param.ulChangeDisk
  size : w.param.ullRecordFileSize = w.vfile.startSize
  name : w.param.recordFileName = some w.vfile.file

/-- The first write to a new file tells it, and `update_record_index` has the index file of the file of the
block. -/
structure Switched (submitted : List SubmittedWrite) : Prop where
  tells : ∀ pre w, pre ++ [w] <+: submitted → NewFile pre.getLast? w → Tells w
  index : ∀ pre w, pre ++ [w] <+: submitted →
    (recordIndex (pre ++ [w])).bind RecordIndexFile.recordFile = some w.vfile.file

/-- While it is being written to, the file of the egress is that of the last write. -/
def LastFile (e : SwitchEgress) : Prop :=
  e.egressStatus = .writing → e.recordFileFD = true →
    e.submitted.getLast?.map (fun w => w.vfile.file) = some e.vfile.file

/-- What is asked of a write: if it is in the hour of the last switch, is put into a queue at once, and has to open
the file as the last write went wrong, then the disk changes, or did so and was not told, or the file is the one
of the last write that was put into a queue. -/
def Known (e : SwitchEgress) (w : WriteCall) : Prop :=
  w.recvFrameTime < e.lastSwitchRecordTime + bigRecordfileTimeSlice → w.first.queue.isSome →
  e.egressStatus ≠ .writing → ∀ disk fileSize medaDataPartedFlag,
    w.first.opened = .opens disk fileSize medaDataPartedFlag →
    e.changesDisk disk ∨ e.hasSwitchDisk ∨
      e.submitted.getLast?.map (fun w => w.vfile.file) = some ⟨disk, fileTime w.recvFrameTime⟩

variable {e : SwitchEgress} {p : SwitchParam} {w : WriteCall}

/-- What a turn leaves: nothing is submitted and the egress is not writing; nothing is submitted yet; a write to
the file that is open, or to one that is opened for it. -/
inductive TurnCases (e : SwitchEgress) (p : SwitchParam) (turn : SwitchTurn) : TurnResult → Prop
  | failed {e' : SwitchEgress} : e'.submitted = e.submitted → e'.egressStatus ≠ .writing →
      TurnCases e p turn (.failed e')
  | again {p' : SwitchParam} {e' : SwitchEgress} : e'.submitted = e.submitted →
      p.ulChangeRecordFile = false → TurnCases e p turn (.again p' e')
  | same {e' : SwitchEgress} : e'.submitted = e.submitted ++ [⟨p, e.vfile⟩] → e'.vfile = e.vfile →
      e.egressStatus = .writing → e.recordFileFD = true → p.ulChangeRecordFile = false →
      TurnCases e p turn (.submitted e')
  | opened {e' : SwitchEgress} {p' : SwitchParam} {disk : Int × Int} {fileSize : UInt64} {parted : Bool} :
      e'.submitted = e.submitted ++ [⟨p', ⟨disk, ⟨disk, fileTime p.firstFrameRecvTime⟩, fileSize⟩⟩] →
      e'.vfile = ⟨disk, ⟨disk, fileTime p.firstFrameRecvTime⟩, fileSize⟩ →
      p'.ulChangeRecordFile = p.ulChangeRecordFile → p'.ullRecordFileSize = fileSize →
      p'.recordFileName = some ⟨disk, fileTime p.firstFrameRecvTime⟩ →
      turn.opened = .opens disk fileSize parted → turn.queue.isSome →
      (e.egressStatus ≠ .writing ∨ p.ulChangeRecordFile = true) → TurnCases e p turn (.submitted e')

theorem writeTurn_cases (e : SwitchEgress) (p : SwitchParam) (turn : SwitchTurn) :
    TurnCases e p turn (e.writeTurn p turn) := by
  obtain ⟨opened, queue⟩ := turn
  unfold writeTurn openTurn
  by_cases hopen : e.egressStatus ≠ .writing ∨ p.ulChangeRecordFile = true
  · rw [if_pos hopen]
    cases opened with
    | noDisk noRaid =>
      cases noRaid with
      | false => exact .failed rfl (by simp)
      | true => exact .failed rfl (by simp)
    | noFile disk => exact .failed rfl (by simp)
    | opens disk fileSize parted =>
      simp only [openFile, true_and]
      split
      · rename_i hqueue
        exact .opened rfl rfl rfl rfl rfl rfl hqueue hopen
      · split
        · exact .failed rfl (by simp)
        · rename_i hflag
          exact .again rfl (by simpa using hflag)
  · rw [if_neg hopen]
    push Not at hopen
    obtain ⟨hstatus, hflag⟩ := hopen
    have hflag : p.ulChangeRecordFile = false := by simpa using hflag
    simp only [hflag, Bool.false_eq_true, if_false]
    split
    · rename_i hsubmits
      exact .same rfl rfl hstatus hsubmits.1 hflag
    · exact .again rfl hflag

/-- A turn that has the flag ends the call. -/
theorem TurnCases.changed {turn : SwitchTurn} {r : TurnResult} (h : TurnCases e p turn r)
    (hflag : p.ulChangeRecordFile = true) :
    (∃ e', r = .failed e' ∧ e'.submitted = e.submitted ∧ e'.egressStatus ≠ .writing) ∨
    ∃ e' sw, r = .submitted e' ∧ e'.submitted = e.submitted ++ [sw] ∧ e'.vfile = sw.vfile ∧ Tells sw := by
  cases h with
  | failed hsub hstatus => exact .inl ⟨_, rfl, hsub, hstatus⟩
  | again _ hflag' => rw [hflag] at hflag'; cases hflag'
  | same _ _ _ _ hflag' => rw [hflag] at hflag'; cases hflag'
  | opened hsub hvfile hp hsize hname =>
    exact .inr ⟨_, _, rfl, hsub, hvfile, .inl (hp.trans hflag), hsize, hname⟩

/-- The write opens the file as the last one went wrong, in the hour of the last switch, and is put into a
queue. -/
structure Reopens (e : SwitchEgress) (w : WriteCall) (disk : Int × Int) (fileSize : UInt64) (parted : Bool) :
    Prop where
  time : w.recvFrameTime < e.lastSwitchRecordTime + bigRecordfileTimeSlice
  queue : w.first.queue.isSome
  status : e.egressStatus ≠ .writing
  opened : w.first.opened = .opens disk fileSize parted

/-- Such a write tells the disk at most. -/
theorem Reopens.write {disk : Int × Int} {fileSize : UInt64} {parted : Bool}
    (h : Reopens e w disk fileSize parted) : ∃ sw, (e.write w).submitted = e.submitted ++ [sw] ∧
      (e.write w).vfile = sw.vfile ∧ sw.vfile.file = ⟨disk, fileTime w.recvFrameTime⟩ ∧
      sw.param.ulChangeRecordFile = false ∧
      sw.param.ulChangeDisk = (e.hasSwitchDisk || e.changesDisk disk) ∧
      (sw.param.ulChangeDisk = true → Tells sw) := by
  have htime : ¬e.lastSwitchRecordTime + bigRecordfileTimeSlice ≤ w.recvFrameTime := by
    have := h.time
    omega
  unfold SwitchEgress.write writeTurn openTurn
  rw [if_pos (.inl h.status), h.opened]
  simp only [openFile, newParam, true_and, h.queue, if_true, htime, decide_false, Bool.false_or]
  exact ⟨_, rfl, rfl, rfl, rfl, rfl, fun hdisk => ⟨.inr hdisk, rfl, rfl⟩⟩

/-- Any other write is not put into a queue, tells its file, or goes to the file that is being written to. -/
theorem write_cases (h : ∀ disk fileSize parted, ¬Reopens e w disk fileSize parted) :
    ((e.write w).submitted = e.submitted ∧ (e.write w).egressStatus ≠ .writing) ∨
    ∃ sw, (e.write w).submitted = e.submitted ++ [sw] ∧ (e.write w).vfile = sw.vfile ∧
      (Tells sw ∨ (sw.param.ulChangeRecordFile = false ∧ sw.param.ulChangeDisk = false ∧
        sw.vfile = e.vfile ∧ e.egressStatus = .writing ∧ e.recordFileFD = true)) := by
  unfold write
  have hfirst := writeTurn_cases e (e.newParam w.recvFrameTime) w.first
  generalize e.writeTurn (e.newParam w.recvFrameTime) w.first = r at hfirst ⊢
  cases hfirst with
  | failed hsub hstatus => exact .inl ⟨hsub, hstatus⟩
  | same hsub hvfile hstatus hfd hflag => exact .inr ⟨_, hsub, hvfile, .inr ⟨hflag, rfl, rfl, hstatus, hfd⟩⟩
  | @opened e' p' disk fileSize parted hsub hvfile hp hsize hname hopens hqueue hwhy =>
    -- the hour is over, as the write does not reopen
    have hflag : (e.newParam w.recvFrameTime).ulChangeRecordFile = true := by
      by_contra hflag
      have htime : ¬e.lastSwitchRecordTime + bigRecordfileTimeSlice ≤ w.recvFrameTime := by
        simpa [newParam] using hflag
      exact h disk fileSize parted ⟨by omega, hqueue, hwhy.resolve_right hflag, hopens⟩
    exact .inr ⟨_, hsub, hvfile, .inl ⟨.inl (hp.trans hflag), hsize, hname⟩⟩
  | @again p' e' hsub hflag =>
    have hsecond := writeTurn_cases e' { p' with ulChangeRecordFile := true } w.second
    obtain ⟨e'', hr, hsub', hstatus⟩ | ⟨e'', sw, hr, hsub', hvfile, htells⟩ := hsecond.changed rfl
    · simp only [hr]
      exact .inl ⟨hsub'.trans hsub, hstatus⟩
    · simp only [hr]
      exact .inr ⟨sw, hsub ▸ hsub', hvfile, .inl htells⟩

/-! ## The writes -/

theorem known_iff : Known e w ↔ ∀ disk fileSize parted, Reopens e w disk fileSize parted →
    e.changesDisk disk ∨ e.hasSwitchDisk ∨
      e.submitted.getLast?.map (fun w => w.vfile.file) = some ⟨disk, fileTime w.recvFrameTime⟩ := by
  constructor
  · intro h disk fileSize parted hre
    exact h hre.time hre.queue hre.status disk fileSize parted hre.opened
  · intro h htime hqueue hstatus disk fileSize parted hopened
    exact h disk fileSize parted ⟨htime, hqueue, hstatus, hopened⟩

/-- A parameter that changes nothing. -/
def Silent (w : SubmittedWrite) : Prop := w.param.ulChangeRecordFile = false ∧ w.param.ulChangeDisk = false

theorem Tells.not_silent {sw : SubmittedWrite} (h : Tells sw) : ¬Silent sw := by
  rintro ⟨hfile, hdisk⟩
  rcases h.flag with hflag | hflag
  · rw [hfile] at hflag
    cases hflag
  · rw [hdisk] at hflag
    cases hflag

theorem prefix_append_singleton {pre l : List SubmittedWrite} {w sw : SubmittedWrite}
    (h : pre ++ [w] <+: l ++ [sw]) : pre ++ [w] <+: l ∨ (pre = l ∧ w = sw) := by
  rcases List.prefix_concat_iff.mp h with h | h
  · exact .inr (List.append_inj' h rfl |>.imp id fun h => by simpa using h)
  · exact .inl h

/-- One more write: it tells its file, or goes to that of the last write. -/
theorem switched_append_iff {submitted : List SubmittedWrite} {sw : SubmittedWrite} (h : Switched submitted)
    (hsw : Tells sw ∨ Silent sw) :
    Switched (submitted ++ [sw]) ↔ Tells sw ∨ ¬NewFile submitted.getLast? sw := by
  constructor
  · intro hnext
    by_cases hnew : NewFile submitted.getLast? sw
    · exact .inl (hnext.tells submitted sw (List.prefix_refl _) hnew)
    · exact .inr hnew
  · intro hok
    constructor
    case tells =>
      intro pre w hpre hnew
      rcases prefix_append_singleton hpre with hpre | ⟨rfl, rfl⟩
      · exact h.tells pre w hpre hnew
      · exact hok.resolve_right fun hold => hold hnew
    case index =>
      intro pre w hpre
      rcases prefix_append_singleton hpre with hpre | ⟨rfl, rfl⟩
      · exact h.index pre w hpre
      · rw [recordIndex_append]
        rcases hsw with htells | ⟨hfile, hdisk⟩
        · rw [updateRecordIndex, if_pos htells.flag.symm]
          exact htells.name
        · -- the index file of the last write, whose file it is
          have hold := hok.resolve_left fun htells => htells.not_silent ⟨hfile, hdisk⟩
          rw [updateRecordIndex, hfile, hdisk, if_neg (by simp)]
          rw [NewFile, not_not] at hold
          obtain ⟨last, hlast, hsame⟩ := Option.map_eq_some_iff.mp hold
          obtain ⟨init, rfl⟩ := List.getLast?_eq_some_iff.mp hlast
          rw [h.index init last (List.prefix_refl _), hsame]

/-- A write keeps the new files told exactly if it meets what is asked of it. -/
theorem switched_write_iff (hlast : e.LastFile) (h : Switched e.submitted) (w : WriteCall) :
    (Switched (e.write w).submitted ↔ Known e w) ∧ (e.write w).LastFile := by
  by_cases hre : ∃ disk fileSize parted, Reopens e w disk fileSize parted
  · obtain ⟨disk, fileSize, parted, hre⟩ := hre
    obtain ⟨sw, hsub, hvfile, hfile, hflag, hdisk, htells⟩ := hre.write
    have hsilent : Tells sw ∨ Silent sw := by
      cases hchange : sw.param.ulChangeDisk with
      | true => exact .inl (htells hchange)
      | false => exact .inr ⟨hflag, hchange⟩
    have htells : Tells sw ↔ e.changesDisk disk ∨ e.hasSwitchDisk := by
      rw [← Bool.or_eq_true, Bool.or_comm, ← hdisk]
      refine ⟨fun h => ?_, htells⟩
      rcases h.flag with h | h
      · rw [hflag] at h
        cases h
      · exact h
    have hknown : Known e w ↔ e.changesDisk disk ∨ e.hasSwitchDisk ∨
        e.submitted.getLast?.map (fun w => w.vfile.file) = some ⟨disk, fileTime w.recvFrameTime⟩ := by
      rw [known_iff]
      refine ⟨fun h => h disk fileSize parted hre, fun h disk' fileSize' parted' hre' => ?_⟩
      have hopened := hre.opened.symm.trans hre'.opened
      simp only [OpenCall.opens.injEq] at hopened
      exact hopened.1 ▸ h
    refine ⟨?_, fun _ _ => by simp [hsub, hvfile]⟩
    rw [hsub, switched_append_iff h hsilent, htells, hknown, NewFile, not_not, hfile, or_assoc]
  · push Not at hre
    have hknown : Known e w := known_iff.mpr fun disk fileSize parted h => absurd h (hre disk fileSize parted)
    obtain ⟨hsub, hstatus⟩ | ⟨sw, hsub, hvfile, htells⟩ := write_cases hre
    · refine ⟨?_, fun hwriting => absurd hwriting hstatus⟩
      rw [hsub]
      exact ⟨fun _ => hknown, fun _ => h⟩
    · refine ⟨⟨fun _ => hknown, fun _ => ?_⟩, fun _ _ => by simp [hsub, hvfile]⟩
      rw [hsub]
      rcases htells with htells | ⟨hfile, hdisk, hsame, hstatus, hfd⟩
      · exact (switched_append_iff h (.inl htells)).mpr (.inl htells)
      · refine (switched_append_iff h (.inr ⟨hfile, hdisk⟩)).mpr (.inr ?_)
        rw [NewFile, not_not, hsame]
        exact hlast hstatus hfd

theorem switched_nil : Switched [] := ⟨by simp, by simp⟩

theorem lastFile_opened : opened.LastFile := fun _ hfd => by cases hfd

/-- For every sequence of writes: the first write to a new file always tells it, and the index file is always that
of the file of the block, exactly if every write meets what is asked of it. -/
theorem run_switched_iff (writes : List WriteCall) :
    Allowed write Known opened writes ↔ ∀ pre, pre <+: writes → Switched (run write opened pre).submitted :=
  allowed_iff_of_invariant (J := fun e => Switched e.submitted) lastFile_opened switched_nil fun e w hlast h => by
    obtain ⟨hiff, hkeep⟩ := switched_write_iff hlast h w
    exact ⟨hiff, fun _ => hkeep⟩

/-- In the first hour the file is opened and written to. At the beginning of the second the file is opened and the
block can not be put into the queue. The next block goes to that file and tells nothing: the index file is that of
the first hour. -/
theorem not_switched_queueFull :
    let opens : OpenCall := .opens (0, 0) 0 false
    let writes : List WriteCall :=
      [⟨3600, ⟨opens, some 0⟩, ⟨opens, some 0⟩⟩, ⟨7200, ⟨opens, none⟩, ⟨opens, none⟩⟩,
        ⟨7201, ⟨opens, some 0⟩, ⟨opens, some 0⟩⟩]
    ¬Switched (run write opened writes).submitted ∧
      (run write opened writes).submitted.map (fun w => (w.vfile.file.fileTime, w.param.ulChangeRecordFile,
        w.param.ulChangeDisk)) = [(3600, true, false), (7200, false, false)] ∧
      (recordIndex (run write opened writes).submitted).bind RecordIndexFile.recordFile = some ⟨(0, 0), 3600⟩ := by
  intro opens writes
  refine ⟨fun h => ?_, by decide, by decide⟩
  have hindex := h.index (run write opened writes).submitted.dropLast
    ((run write opened writes).submitted.getLast (by decide)) (by rw [List.dropLast_append_getLast])
  revert hindex
  decide

end SwitchEgress

end AllCamera
