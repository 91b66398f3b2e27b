import AllCamera.Record.RecordIndex.Spec

/-!
# The lengths in an index file

In every run the lengths in an open index file are right, and so they are in every file that was written,
whether it is opened again for the same record file or for another one. Nothing is written behind the
buffer.

* `IsSaved`: a file as `update_indexfile` writes it; `parseIndexfile_cases`: what becomes of it when it is
  opened again.
* `IndexRun.Sound`: the invariant; `Sound.create`, `Sound.update`.
* `IndexRun.run_lengths`.
-/

namespace AllCamera

open Run IndexFormat

variable {L : IndexFormat}

/-- What `memset` to 0 leaves. -/
theorem Memory.clear_apply {m : Memory} {n i : Nat} (h : i < n) : m.clear n i = 0 := by
  rw [Memory.clear, if_pos (by omega)]

theorem Memory.confined_clear (m : Memory) (n : Nat) : Confined (m.clear n) m n := by
  intro i hi
  rw [Memory.clear, if_neg (by omega)]

/-- A length that lies in zero bytes is 0. -/
theorem Field.get_of_zero {f : Field} {m : Memory} {p : Nat}
    (h : ∀ i : Nat, p + f.off ≤ i → i < p + f.stop → m i = 0) : f.get m p = 0 := by
  have hzero : ∀ w, leValue (List.replicate w 0) = 0 := by
    intro w
    induction w with
    | zero => rfl
    | succ w ih => simp [List.replicate_succ, leValue, ih]
  have hread : m.read (p + f.off : Nat) f.width = List.replicate f.width 0 := by
    apply List.ext_getElem?
    intro i
    by_cases hi : i < f.width
    · rw [Memory.getElem?_read _ _ _ _ hi, List.getElem?_replicate, if_pos hi,
        ← Int.natCast_add, h _ (by omega) (by unfold Field.stop; omega)]
    · rw [List.getElem?_eq_none (by simp; omega), List.getElem?_eq_none (by simp; omega)]
  rw [Field.get, hread, hzero]

namespace IndexFormat

/-- A file as `update_indexfile` writes it. -/
def IsSaved (L : IndexFormat) (c : List UInt8) : Prop :=
  c.length ≤ recordIndexfileBufMax ∧ ∃ m : Memory, m.read 0 c.length = c ∧ L.IsIndex m c.length

/-- In a buffer into which it is read it is well formed. -/
theorem IsSaved.isIndex_read (hL : L.Valid) {c : List UInt8} (h : L.IsSaved c) (m : Memory) :
    L.IsIndex (m.write 0 c) c.length := by
  obtain ⟨-, m', hread, hindex⟩ := h
  have hagree := Agree.of_write_read m' m 0 c.length
  simp only [Int.natCast_zero, hread] at hagree
  exact hindex.agree hL (hagree.symm.mono (Nat.le_refl _) (by omega))

end IndexFormat

namespace RecordIndexfile

variable {s : RecordIndexfile}

/-- `parse_indexfile` returns, and if it succeeds the last big file is found. -/
theorem parseIndexfile_cases (hL : L.Valid) (path : List UInt8) {n : Nat} (hsize : s.indexfileSize = n)
    (hn : n ≤ recordIndexfileBufMax) (h : L.IsIndex s.recordIndexBuffer n) :
    ∃ res, s.parseIndexfile L path = some res ∧
      ((∃ unlinked, res = .failed unlinked) ∨ res = .parsed true n ∨
        ∃ ls r l, res = .parsed false r ∧
          Records (L.IsBigFile s.recordIndexBuffer) L.sizeofIndexfileHeader ls r ∧
          L.IsBigFile s.recordIndexBuffer r l ∧ r + l = n) := by
  obtain ⟨-, ls, hrec, hsum⟩ := h
  have hsteps := hrec.mono fun r l _ _ hb => hb.steps hL
  have hcount := length_le_of_steps hsteps
  have hstart : toI32 ((n : Int) - L.sizeofIndexfileHeader) = (n : Int) - L.sizeofIndexfileHeader := by
    unfold recordIndexfileBufMax at hn
    exact toI32_of_lt (by omega) (by omega)
  have hwalk : bigFileWalk L s.recordIndexBuffer (recordIndexfileBufMax + 1)
      L.sizeofIndexfileHeader (toI32 ((n : Int) - L.sizeofIndexfileHeader)) =
        some (Records.starts L.sizeofIndexfileHeader ls) := by
    rw [hstart]
    unfold recordIndexfileBufMax at hn ⊢
    exact bigFileWalk_eq hsteps (by omega) (by omega)
  simp only [parseIndexfile, hsize, hwalk, Option.map_some]
  split
  · exact ⟨_, rfl, .inl ⟨true, rfl⟩⟩
  by_cases hne : ls = []
  · subst hne
    exact ⟨_, rfl, .inl ⟨false, rfl⟩⟩
  obtain ⟨ls', r, l, hrec', hl, rfl, rfl⟩ := hrec.exists_last hne
  rw [Records.getLast?_starts hrec' rfl]
  refine ⟨_, rfl, .inr ?_⟩
  dsimp only
  split
  · exact .inr ⟨ls', r, l, rfl, hrec', hl, rfl⟩
  · exact .inl rfl

/-- The index file is open, in the buffer. -/
structure Opened (L : IndexFormat) (s : RecordIndexfile) : Prop where
  isOpen : L.IsOpen s.recordIndexBuffer s.currBigFileCursor s.currSecCursor s.indexfileSize
  le : s.indexfileSize ≤ recordIndexfileBufMax

theorem newBigFile_confined (hL : L.Valid) {dataTime : Int} {path : List UInt8}
    (hpath : path.length < L.filePathLen)
    (h : s.currBigFileCursor + L.bigFileFixed ≤ recordIndexfileBufMax) :
    Confined (s.newBigFile L dataTime path).recordIndexBuffer s.recordIndexBuffer
      recordIndexfileBufMax := by
  obtain ⟨-, ⟨-, hstart, hend, hfile, -⟩, -⟩ := hL.stops
  have hwidth := hL.filePath
  unfold Field.stop at hfile
  refine (Confined.write (by omega)).trans ((Field.confined_set (by omega)).trans ?_)
  exact Field.confined_set (by omega)

theorem newSection_confined (hL : L.Valid) {increaseLen : Nat} {recordFileSize : UInt64} {dataTime : Int}
    {parted : Bool} (hcursor : s.currBigFileCursor + L.bigFileFixed ≤ recordIndexfileBufMax)
    (h : (s.newSection L increaseLen dataTime recordFileSize parted).currSecCursor + L.sectionFixed ≤
      recordIndexfileBufMax) :
    Confined (s.newSection L increaseLen dataTime recordFileSize parted).recordIndexBuffer
      s.recordIndexBuffer recordIndexfileBufMax := by
  obtain ⟨⟨hheader, -⟩, ⟨hfile, -, -, -, hparted⟩, ⟨hsec, hstart, hend, hoff⟩, -⟩ := hL.stops
  have hbuffer := hL.buffer
  have hput : ∀ m cur, cur + L.sectionFixed ≤ recordIndexfileBufMax →
      Confined (putSection L m cur dataTime recordFileSize) m recordIndexfileBufMax := by
    intro m cur hcur
    refine (Field.confined_set (by omega)).trans ((Field.confined_set (by omega)).trans ?_)
    exact (Field.confined_set (by omega)).trans (Field.confined_set (by omega))
  refine (hput _ _ h).trans ((Field.confined_set (by omega)).trans ?_)
  exact (Field.confined_set (by omega)).trans (Field.confined_set (by omega))

/-- Another section, with its confines. -/
theorem newSection_opened (hL : L.Valid) (increaseLen : Nat) (dataTime : Int) (recordFileSize : UInt64)
    (parted : Bool) {n : Nat} (hn : n ≤ recordIndexfileBufMax)
    (h : (s.newSection L increaseLen dataTime recordFileSize parted).indexfileSize = n ∧
      (s.newSection L increaseLen dataTime recordFileSize parted).currSecCursor = n - L.sectionFixed ∧
      L.IsOpen (s.newSection L increaseLen dataTime recordFileSize parted).recordIndexBuffer
        s.currBigFileCursor (n - L.sectionFixed) n) :
    (s.newSection L increaseLen dataTime recordFileSize parted).Opened L ∧
      (s.newSection L increaseLen dataTime recordFileSize parted).indexfileSize = n ∧
      Confined (s.newSection L increaseLen dataTime recordFileSize parted).recordIndexBuffer
        s.recordIndexBuffer recordIndexfileBufMax := by
  obtain ⟨hsize, hsec, hopen⟩ := h
  have hrange := hopen.le
  refine ⟨⟨?_, ?_⟩, hsize, newSection_confined hL (by omega) (by omega)⟩
  · rw [hsize, hsec]
    exact hopen
  · rw [hsize]
    exact hn

/-- What `create_indexfile` leaves: the index file is open only if it has returned `SVS_RESULT_OK`, and
then nothing of the file is lost. -/
structure Created (L : IndexFormat) (m : Memory) (path : String) (c : List UInt8) (files files' : IndexFiles)
    (s : RecordIndexfile) : Prop where
  confined : Confined s.recordIndexBuffer m recordIndexfileBufMax
  kept : files' = files ∨ files' = Function.update files path none
  opened : s.indexFileOpenFlag = true →
    s.Opened L ∧ files' = files ∧ s.strFilePath = path ∧ c.length ≤ s.indexfileSize

/-- `create_indexfile` of a file that is not there, or is empty. -/
theorem openIndexfile_new (hL : L.Valid) (e : CreateEnv) (files : IndexFiles) (dataTime : Int)
    {path : List UInt8} (recordFileSize : UInt64) (parted : Bool) (hpath : path.length < L.filePathLen)
    (hsize : s.indexfileSize = 0) :
    ∃ s' r, s.openIndexfile L e files dataTime path recordFileSize parted = some (files, s', r) ∧
      Created L s.recordIndexBuffer s.strFilePath [] files files s' := by
  obtain ⟨⟨hstop, -⟩, ⟨hfstop, -⟩, -⟩ := hL.stops
  have hbuffer := hL.buffer
  have hsection := hL.section_le
  have hcluster := hL.cluster_le
  have hstr := hL.headerStr
  rw [openIndexfile, if_pos hsize]
  refine ⟨_, _, rfl, ?_⟩
  -- the header and the fixed part of the big file
  generalize hs₁ : s.newIndexfile L dataTime path = s₁
  have hcursor : s₁.currBigFileCursor = L.sizeofIndexfileHeader := by rw [← hs₁]; rfl
  have hpath₁ : s₁.strFilePath = s.strFilePath := by rw [← hs₁]; rfl
  have hfixed : L.sizeofIndexfileHeader + L.bigFileFixed ≤ recordIndexfileBufMax := by
    unfold bigFileFixed
    omega
  have hheader : L.indexFileTotalLen.get s₁.recordIndexBuffer 0 = L.sizeofIndexfileHeader := by
    rw [← hs₁]
    show L.indexFileTotalLen.get (L.fileInfoTotalLen.set _ L.sizeofIndexfileHeader 0) 0 = _
    rw [Field.get_set_of_disjoint (.inl (by omega))]
    have hagree : Agree ((s.newHeader L).newBigFile L dataTime path).recordIndexBuffer
        (s.newHeader L).recordIndexBuffer 0 L.sizeofIndexfileHeader :=
      newBigFile_agree hL hpath (.inl (Nat.le_refl _))
    rw [Field.get_agree hagree (Nat.zero_le _) (by omega)]
    unfold recordIndexfileBufMax at hbuffer
    exact Field.get_set_len hL.indexFileTotalLen (by omega)
  have hfile : L.fileInfoTotalLen.get s₁.recordIndexBuffer s₁.currBigFileCursor = 0 := by
    rw [hcursor, ← hs₁]
    exact Field.get_set_len hL.fileInfoTotalLen (by omega)
  have hconf : Confined s₁.recordIndexBuffer s.recordIndexBuffer recordIndexfileBufMax := by
    rw [← hs₁]
    refine (Field.confined_set (show L.sizeofIndexfileHeader + _ ≤ _ by omega)).trans
      ((newBigFile_confined hL hpath hfixed).trans ((Field.confined_set (by omega)).trans ?_))
    exact Confined.write (p := 0) (by omega)
  obtain ⟨hopened, hn, hconf'⟩ := newSection_opened (s := s₁)
    (n := L.sizeofIndexfileHeader + (L.sizeofBigfileInfo - L.sizeofClusterInfo)) hL
    (L.sizeofBigfileInfo - L.sizeofClusterInfo) _ _ _ (by omega) (newSection_isOpen hL
    dataTime recordFileSize parted (by omega) (by omega)
    ⟨[], by simp [Records, hcursor]⟩ (by omega)
    ⟨[], by simp only [Records, hcursor]; unfold bigFileFixed sectionFixed; omega⟩
    (by unfold sectionFixed; omega))
  exact ⟨hconf'.trans hconf, .inl rfl, fun _ => ⟨hopened, rfl, hpath₁, Nat.zero_le _⟩⟩

/-- Another big file behind a well-formed index file in a buffer of zeros. -/
theorem newBigFile_opened (hL : L.Valid) (dataTime : Int) {path : List UInt8} (recordFileSize : UInt64)
    (parted : Bool) {n : Nat} (hpath : path.length < L.filePathLen) (hindex : L.IsIndex s.recordIndexBuffer n)
    (hcursor : s.currBigFileCursor = n)
    (hroom : n + L.sizeofBigfileInfo + L.sizeofIndexfileHeader ≤ recordIndexfileBufMax)
    (hzero : ∀ i : Nat, n ≤ i → i < recordIndexfileBufMax → s.recordIndexBuffer i = 0) :
    ((s.newBigFile L dataTime path).newSection L (L.sizeofBigfileInfo - L.sizeofClusterInfo) dataTime
        recordFileSize parted).Opened L ∧
      ((s.newBigFile L dataTime path).newSection L (L.sizeofBigfileInfo - L.sizeofClusterInfo) dataTime
        recordFileSize parted).indexfileSize = n + (L.sizeofBigfileInfo - L.sizeofClusterInfo) ∧
      Confined ((s.newBigFile L dataTime path).newSection L (L.sizeofBigfileInfo - L.sizeofClusterInfo)
        dataTime recordFileSize parted).recordIndexBuffer s.recordIndexBuffer
        recordIndexfileBufMax := by
  obtain ⟨⟨hstop, -⟩, ⟨hfstop, -⟩, -⟩ := hL.stops
  have hsection := hL.section_le
  have hcluster := hL.cluster_le
  have hfixed : L.bigFileFixed ≤ L.sizeofBigfileInfo := Nat.sub_le _ _
  obtain ⟨hlen, ls, hrec, -⟩ := hindex
  have hle := hrec.le
  have hagree : Agree s.recordIndexBuffer (s.newBigFile L dataTime path).recordIndexBuffer 0 n :=
    (newBigFile_agree hL hpath (.inl (Nat.le_of_eq hcursor.symm))).symm
  have hcursor' : (s.newBigFile L dataTime path).currBigFileCursor = n := hcursor
  have hheader : L.indexFileTotalLen.get (s.newBigFile L dataTime path).recordIndexBuffer 0 = n := by
    rw [← Field.get_agree hagree (Nat.zero_le _) (by omega), hlen]
  have hfile : L.fileInfoTotalLen.get (s.newBigFile L dataTime path).recordIndexBuffer n = 0 := by
    have htotal : L.fileInfoTotalLen.get (s.newBigFile L dataTime path).recordIndexBuffer
        s.currBigFileCursor = L.fileInfoTotalLen.get s.recordIndexBuffer s.currBigFileCursor :=
      newBigFile_fileInfoTotalLen hL hpath
    rw [hcursor] at htotal
    rw [htotal]
    exact Field.get_of_zero fun i hi hi' => hzero i (by omega) (by omega)
  obtain ⟨hopened, hsize, hconf⟩ := newSection_opened (s := s.newBigFile L dataTime path)
    (n := n + (L.sizeofBigfileInfo - L.sizeofClusterInfo)) hL
    (L.sizeofBigfileInfo - L.sizeofClusterInfo) _ _ _ (by omega) (newSection_isOpen hL
    dataTime recordFileSize parted (by omega) (by omega)
    ⟨ls, by
      rw [hcursor']
      exact hrec.mono fun r l hr hl hb => hb.agree hL (hagree.mono (Nat.zero_le _) hl)⟩
    (by rw [hcursor', hfile]; omega)
    ⟨[], by simp only [Records, hcursor']; unfold bigFileFixed sectionFixed; omega⟩
    (by unfold sectionFixed; omega))
  exact ⟨hopened, hsize, hconf.trans (newBigFile_confined hL hpath (by omega))⟩

/-- `create_indexfile` of a file that was written before. -/
theorem reopen_created (hL : L.Valid) {files : IndexFiles} {dataTime : Int} {path c : List UInt8}
    {recordFileSize : UInt64} {parted : Bool} {m : Memory} {filePath : String}
    (hpath : path.length < L.filePathLen) (hfile : s.strFilePath = filePath)
    (hsize : s.indexfileSize = c.length) (hindex : L.IsIndex s.recordIndexBuffer c.length)
    (hroom : c.length + L.sizeofBigfileInfo + L.sizeofIndexfileHeader ≤ recordIndexfileBufMax)
    (hzero : ∀ i : Nat, c.length ≤ i → i < recordIndexfileBufMax → s.recordIndexBuffer i = 0)
    (hflag : s.indexFileOpenFlag = false)
    (hconf : Confined s.recordIndexBuffer m recordIndexfileBufMax) :
    ∃ files' s' r, s.reopen L files dataTime path recordFileSize parted = some (files', s', r) ∧
      Created L m filePath c files files' s' := by
  subst hfile
  have hsection := hL.section_le
  have hclosed : s.indexFileOpenFlag = true → False := by simp [hflag]
  obtain ⟨res, hres, hcases⟩ := parseIndexfile_cases hL path hsize (by omega) hindex
  rw [reopen, hres, Option.map_some]
  rcases hcases with ⟨unlinked, rfl⟩ | rfl | ⟨ls, r, l, rfl, hfiles, hlast, hrl⟩
  · cases unlinked with
    | true => exact ⟨_, _, _, rfl, hconf, .inr rfl, fun h => (hclosed h).elim⟩
    | false => exact ⟨_, _, _, rfl, hconf, .inl rfl, fun h => (hclosed h).elim⟩
  · -- the last big file is another one
    obtain ⟨hopened, hn, hconf'⟩ := newBigFile_opened (s := { s with currBigFileCursor := c.length }) hL
      dataTime recordFileSize parted hpath hindex rfl hroom hzero
    refine ⟨_, _, _, rfl, hconf'.trans hconf, .inl rfl, fun _ => ⟨hopened, rfl, rfl, ?_⟩⟩
    rw [hn]
    exact Nat.le_add_right _ _
  · -- the last big file goes on
    obtain ⟨hlen, ss, hss, hsum⟩ := hlast
    have hfixed : L.sectionFixed ≤ L.sizeofBigfileInfo := Nat.le_trans (Nat.sub_le _ _) hsection
    obtain ⟨hopened, hn, hconf'⟩ := newSection_opened (s := { s with currBigFileCursor := r })
      (n := c.length + L.sectionFixed) hL L.sectionFixed _ _ _ (by omega) (newSection_isOpen hL
      dataTime recordFileSize parted (by omega)
      (by rw [hindex.1]) ⟨ls, hfiles⟩ (show r + _ + _ = _ by rw [hlen]; omega)
      ⟨ss, by rw [Nat.add_sub_cancel, ← hrl]; exact hss⟩ (Nat.le_add_left _ _))
    refine ⟨_, _, _, rfl, hconf'.trans hconf, .inl rfl, fun _ => ⟨hopened, rfl, rfl, ?_⟩⟩
    rw [hn]
    exact Nat.le_add_right _ _

theorem openIndexfile_old (hL : L.Valid) {e : CreateEnv} {files : IndexFiles} {dataTime : Int}
    {path : List UInt8} {recordFileSize : UInt64} {parted : Bool} (hpath : path.length < L.filePathLen)
    {c : List UInt8} (hc : files s.strFilePath = some c) (hsize : s.indexfileSize = c.length)
    (hne : 0 < c.length) (hsaved : L.IsSaved c)
    (hroom : c.length + L.sizeofBigfileInfo + L.sizeofIndexfileHeader ≤ recordIndexfileBufMax)
    (hzero : ∀ i : Nat, i < recordIndexfileBufMax → s.recordIndexBuffer i = 0)
    (hflag : s.indexFileOpenFlag = false) :
    ∃ files' s' r, s.openIndexfile L e files dataTime path recordFileSize parted =
        some (files', s', r) ∧ Created L s.recordIndexBuffer s.strFilePath c files files' s' := by
  rw [openIndexfile, if_neg (by omega)]
  by_cases hread : e.read = true
  · have htake : ((files s.strFilePath).getD []).take s.indexfileSize = c := by
      rw [hc, Option.getD_some, hsize, List.take_length]
    rw [if_neg (by simp [hread]), htake]
    refine reopen_created hL hpath rfl hsize (hsaved.isIndex_read hL _) hroom ?_ hflag
      (Confined.write (p := 0) (by omega))
    intro i hi hi'
    show Memory.write _ _ _ _ = _
    rw [Memory.write_of_ge (by omega), hzero i hi']
  · rw [if_pos (by simp [hread])]
    exact ⟨_, _, _, rfl, .refl _ _, .inl rfl, fun h => by simp [hflag] at h⟩

/-- What `create_indexfile` leaves in every case. -/
theorem createIndexfile_sound (hL : L.Valid) (e : CreateEnv) {files : IndexFiles} (dataTime : Int)
    {path : List UInt8} (recordFileSize : UInt64) (parted : Bool) (hpath : path.length < L.filePathLen)
    (hfiles : ∀ p c, files p = some c → c = [] ∨ L.IsSaved c) :
    ∃ files' s' r, s.createIndexfile L e files dataTime (some path) recordFileSize parted =
        some (files', s', r) ∧
      Confined s'.recordIndexBuffer s.recordIndexBuffer recordIndexfileBufMax ∧
      (∀ p c, files' p = some c → c = [] ∨ L.IsSaved c) ∧
      (s'.indexFileOpenFlag = true → s'.Opened L ∧
        ∃ c, files' s'.strFilePath = some c ∧ c.length ≤ s'.indexfileSize) := by
  have hclear := Memory.confined_clear s.recordIndexBuffer recordIndexfileBufMax
  simp only [createIndexfile]
  generalize L.indexfilePath (dataTime - dataTime.tmod L.timeSlice) = filePath
  have hsaved : (files filePath).getD [] = [] ∨ L.IsSaved ((files filePath).getD []) := by
    cases hf : files filePath with
    | none => exact .inl rfl
    | some c => exact hfiles filePath c hf
  generalize (files filePath).getD [] = c at hsaved ⊢
  have hlen : toU32 (c.length : Nat) = c.length := by
    apply toU32_of_lt
    rcases hsaved with rfl | hsaved
    · simp
    · have := hsaved.1
      unfold recordIndexfileBufMax at this
      omega
  rw [hlen]
  by_cases hmake : e.makeDir = true
  case neg =>
    rw [if_pos (by simp [hmake])]
    exact ⟨_, _, _, rfl, hclear, hfiles, fun h => by simp [reset] at h⟩
  rw [if_neg (by simp [hmake])]
  by_cases hbig : 0 < c.length ∧
      recordIndexfileBufMax < c.length + L.sizeofBigfileInfo + L.sizeofIndexfileHeader
  case pos =>
    rw [if_pos hbig]
    exact ⟨_, _, _, rfl, hclear, hfiles, fun h => by simp [reset] at h⟩
  rw [if_neg hbig]
  by_cases hconnect : e.connect = true
  case neg =>
    rw [if_pos (by simp [hconnect])]
    exact ⟨_, _, _, rfl, hclear, hfiles, fun h => by simp [reset] at h⟩
  rw [if_neg (by simp [hconnect])]
  -- the file is there now
  generalize hfs : Function.update files filePath (some c) = fs
  have hfs' : fs filePath = some c := by rw [← hfs, Function.update_self]
  have hfiles' : ∀ p d, fs p = some d → d = [] ∨ L.IsSaved d := by
    intro p d hd
    by_cases hp : p = filePath
    · subst hp
      rw [hfs'] at hd
      exact Option.some.inj hd ▸ hsaved
    · rw [← hfs, Function.update_of_ne hp] at hd
      exact hfiles p d hd
  generalize hs₁ : ({ s.reset with strFilePath := filePath, indexfileSize := c.length } :
    RecordIndexfile) = s₁
  have hbuf₁ : s₁.recordIndexBuffer = s.recordIndexBuffer.clear recordIndexfileBufMax := by
    rw [← hs₁]
    rfl
  have hsize₁ : s₁.indexfileSize = c.length := by rw [← hs₁]
  have hpath₁ : s₁.strFilePath = filePath := by rw [← hs₁]
  have hcreated : ∃ files' s' r, s₁.openIndexfile L e fs dataTime path recordFileSize parted =
      some (files', s', r) ∧ Created L s₁.recordIndexBuffer s₁.strFilePath c fs files' s' := by
    by_cases hc : c = []
    · subst hc
      obtain ⟨s', r, hopen, hs'⟩ := openIndexfile_new hL e fs dataTime recordFileSize parted hpath hsize₁
      exact ⟨_, _, _, hopen, hs'⟩
    · have hpos : 0 < c.length := List.length_pos_iff.mpr hc
      refine openIndexfile_old hL hpath (by rw [hpath₁, hfs']) hsize₁ hpos (hsaved.resolve_left hc)
        (by omega) (fun i hi => ?_) (by rw [← hs₁]; rfl)
      rw [hbuf₁]
      exact Memory.clear_apply hi
  obtain ⟨files', s', r, hopen, hs'⟩ := hcreated
  refine ⟨files', s', r, hopen, hs'.confined.trans (hbuf₁ ▸ hclear), ?_, fun hflag => ?_⟩
  · rcases hs'.kept with rfl | rfl
    · exact hfiles'
    · intro p d hd
      by_cases hp : p = s₁.strFilePath
      · rw [hp, Function.update_self] at hd
        cases hd
      · rw [Function.update_of_ne hp] at hd
        exact hfiles' p d hd
  · obtain ⟨hopened, rfl, hp, hle⟩ := hs'.opened hflag
    exact ⟨hopened, c, by rw [hp, hpath₁, hfs'], hle⟩

theorem addCluster_confined (hL : L.Valid) (endTime : Int) (h : s.Opened L)
    (hroom : s.indexfileSize + s.keyClusterSize L ≤ recordIndexfileBufMax) :
    Confined (s.addCluster L endTime).recordIndexBuffer s.recordIndexBuffer
      recordIndexfileBufMax := by
  obtain ⟨⟨hstop, -⟩, ⟨hfile, -, hend, -⟩, ⟨hsec, -, hsecEnd, -⟩, htotal, hflag, htick, hoff⟩ := hL.stops
  have hinfo := hL.keyFrameInfo_eq
  have hlen := length_cluster_le hL s
  have hbuffer := h.le
  obtain ⟨hcursor, hseccur, hn⟩ := h.isOpen.le
  rw [keyClusterSize_eq hL] at hroom
  have hput : ∀ m, Confined (s.putCluster L m) m recordIndexfileBufMax := by
    intro m
    refine (Confined.write (by omega)).trans ((Field.confined_set (by omega)).trans ?_)
    refine (Field.confined_set (by omega)).trans ((Field.confined_set (by omega)).trans ?_)
    exact Field.confined_set (by omega)
  refine (hput _).trans ((Field.confined_set (by omega)).trans ((Field.confined_set (by omega)).trans ?_))
  refine (Field.confined_set (by omega)).trans ((Field.confined_set (by omega)).trans ?_)
  exact Field.confined_set (by omega)

/-- The digest is put into the header of an open index file. -/
theorem encode_opened (hL : L.Valid) (h : s.Opened L) : ∃ s', s.encode L = some s' ∧ s'.Opened L ∧
    Confined s'.recordIndexBuffer s.recordIndexBuffer recordIndexfileBufMax ∧
    s'.indexfileSize = s.indexfileSize ∧ s'.strFilePath = s.strFilePath ∧
    s'.indexFileOpenFlag = s.indexFileOpenFlag := by
  obtain ⟨⟨hstop, hmd5⟩, ⟨hfstop, -⟩, -⟩ := hL.stops
  obtain ⟨hapart, -⟩ := hL.totals_apart
  obtain ⟨hcursor, hsec, hn⟩ := h.isOpen.le
  have hskip := hL.md5Skip
  have hwidth := hL.fileInfoTotalLen
  have hbuffer := hL.buffer
  have hle := h.le
  have hcode : ∀ l, (L.md5 l).length = L.md5code.width := fun l => (hL.md5 l).trans hL.md5code.symm
  -- there is something to digest: the big file
  have hsrc : toU32 ((s.indexfileSize : Int) - L.md5Skip) ≠ 0 := by
    unfold Field.stop at hfstop
    unfold recordIndexfileBufMax at hle
    rw [show (s.indexfileSize : Int) - L.md5Skip = (s.indexfileSize - L.md5Skip : Nat) by omega,
      toU32_of_lt (by omega)]
    omega
  unfold Field.stop at hmd5
  rw [encode, if_neg hsrc]
  refine ⟨_, rfl, ⟨?_, h.le⟩, Confined.write (by rw [hcode]; omega), rfl, rfl, rfl⟩
  refine h.isOpen.agree hL ?_ (Agree.write (.inr (by rw [hcode]; omega))).symm
  unfold Field.Apart at hapart
  exact Field.get_write_of_disjoint (by rw [hcode]; unfold Field.stop at *; omega)

/-- `update_indexfile` when it appends a cluster. -/
theorem updateIndexfile_append (hL : L.Valid) (e : UpdateEnv) (files : IndexFiles) {endTime : Int}
    (h : s.Opened L) (hflag : s.indexFileOpenFlag = true) (hnull : s.clusterNullFlag = false)
    (hend : endTime ≠ 0) (hroom : s.indexfileSize + s.keyClusterSize L ≤ recordIndexfileBufMax) :
    ∃ s' : RecordIndexfile, s.updateIndexfile L e files endTime =
        (s'.writeFile e files, s'.clearCluster, svsResultOk) ∧
      s'.Opened L ∧ Confined s'.recordIndexBuffer s.recordIndexBuffer recordIndexfileBufMax ∧
      s'.indexfileSize = s.indexfileSize + s.keyClusterSize L ∧ s'.strFilePath = s.strFilePath ∧
      s'.indexFileOpenFlag = true := by
  have hsize : toU32 ((s.indexfileSize : Int) + s.keyClusterSize L) =
      s.indexfileSize + s.keyClusterSize L := by
    unfold recordIndexfileBufMax at hroom
    rw [← Int.natCast_add]
    exact toU32_of_lt (by omega)
  have hsize' : (s.addCluster L endTime).indexfileSize = s.indexfileSize + s.keyClusterSize L := hsize
  have hopened : (s.addCluster L endTime).Opened L :=
    ⟨hsize'.symm ▸ addCluster_isOpen hL endTime h.isOpen hroom, hsize'.symm ▸ hroom⟩
  obtain ⟨s', hencode, hs', hconf, hn, hpath, hopen⟩ := encode_opened hL hopened
  refine ⟨s', ?_, hs', hconf.trans (addCluster_confined hL endTime h hroom), hn.trans hsize', hpath,
    hopen.trans hflag⟩
  rw [updateIndexfile, if_neg (by simp [hnull, hend]), if_neg (by simp [hflag]),
    if_neg (by rw [hsize]; omega)]
  simp only [hencode]

theorem keyClusterSize_lt (hL : L.Valid) (s : RecordIndexfile) : s.keyClusterSize L < 2 ^ 31 := by
  rw [keyClusterSize_eq hL]
  exact cluster_small hL s

/-- What `update_indexfile` does: nothing, or it appends a cluster. -/
theorem updateIndexfile_cases (hL : L.Valid) (e : UpdateEnv) (files : IndexFiles) (endTime : Int)
    (h : s.indexFileOpenFlag = true → s.Opened L) :
    (s.updateIndexfile L e files endTime).1 = files ∧ (s.updateIndexfile L e files endTime).2.1 = s ∧
        ((s.updateIndexfile L e files endTime).2.2 = svsResultOk →
          s.clusterNullFlag = true ∨ endTime = 0) ∨
      s.indexFileOpenFlag = true ∧ s.clusterNullFlag = false ∧ endTime ≠ 0 ∧
        s.indexfileSize + s.keyClusterSize L ≤ recordIndexfileBufMax := by
  by_cases hnoop : s.clusterNullFlag = true ∨ endTime = 0
  · rw [updateIndexfile, if_pos hnoop]
    exact .inl ⟨rfl, rfl, fun _ => hnoop⟩
  by_cases hflag : s.indexFileOpenFlag = true
  case neg =>
    rw [updateIndexfile, if_neg hnoop, if_pos (by simp [hflag])]
    exact .inl ⟨rfl, rfl, fun hok => absurd hok (show svsResultFailure ≠ svsResultOk by decide)⟩
  by_cases hroom : recordIndexfileBufMax < toU32 ((s.indexfileSize : Int) + s.keyClusterSize L)
  · rw [updateIndexfile, if_neg hnoop, if_neg (by simp [hflag]), if_pos hroom]
    exact .inl ⟨rfl, rfl, fun hok => absurd hok (show svsResultFailure ≠ svsResultOk by decide)⟩
  · have hlt := keyClusterSize_lt hL s
    have hle := (h hflag).le
    obtain ⟨hnull, hend⟩ := not_or.mp hnoop
    refine .inr ⟨hflag, by simpa using hnull, hend, ?_⟩
    unfold recordIndexfileBufMax at hle
    rw [← Int.natCast_add, toU32_of_lt (by omega)] at hroom
    omega

/-- Where nothing of the old file is behind it, the file is the index file in the buffer. -/
theorem writeFile_eq {e : UpdateEnv} {files : IndexFiles} {c : List UInt8}
    (hw : (e.locked && e.written) = true) (hc : files s.strFilePath = some c)
    (hle : c.length ≤ s.indexfileSize) : s.writeFile e files =
      Function.update files s.strFilePath (some (s.recordIndexBuffer.read 0 s.indexfileSize)) := by
  rw [writeFile, if_pos hw, hc, Option.getD_some, List.drop_of_length_le hle, List.append_nil]

/-- What is written is a well-formed file. -/
theorem Opened.isSaved (h : s.Opened L) : L.IsSaved (s.recordIndexBuffer.read 0 s.indexfileSize) := by
  refine ⟨by rw [Memory.length_read]; exact h.le, s.recordIndexBuffer, ?_, ?_⟩
  · rw [Memory.length_read]
  · rw [Memory.length_read]
    exact h.isOpen.isIndex

end RecordIndexfile

/-! ## Runs -/

/-- The path of the record file fits in a big file. -/
def IndexAct.PathFits (L : IndexFormat) : IndexAct → Prop
  | .create _ _ (some recordFilePath) _ _ => recordFilePath.length < L.filePathLen
  | _ => True

/-- The loop of `parse_indexfile` over an index file of `n` bytes ends, at the end of the file. -/
def IndexFormat.WalkLands (L : IndexFormat) (m : Memory) (n : Nat) : Prop :=
  ∃ fuel visited pos,
    bigFileWalk L m fuel L.sizeofIndexfileHeader (toI32 ((n : Int) - L.sizeofIndexfileHeader)) =
        some visited ∧
      visited.getLast? = some pos ∧ pos + L.fileInfoTotalLen.get m pos = n

theorem RecordIndexfile.Opened.walkLands (hL : L.Valid) {s : RecordIndexfile} (h : s.Opened L) :
    L.WalkLands s.recordIndexBuffer s.indexfileSize := by
  obtain ⟨-, ⟨hfstop, -⟩, -⟩ := hL.stops
  have hwidth := hL.fileInfoTotalLen
  obtain ⟨hcursor, hsec, hn⟩ := h.isOpen.le
  have hle := h.le
  obtain ⟨-, ls, hrec, hsum⟩ := h.isOpen.isIndex
  have hsteps := hrec.mono fun r l _ _ hb => hb.steps hL
  unfold recordIndexfileBufMax at hle
  have hne : ls ≠ [] := by
    rintro rfl
    unfold Field.stop at hfstop
    rw [List.sum_nil] at hsum
    omega
  obtain ⟨ls', r, l, hrec', hl, rfl, hrl⟩ := hrec.exists_last hne
  refine ⟨(ls' ++ [l]).length + 1, Records.starts L.sizeofIndexfileHeader (ls' ++ [l]), r, ?_,
    Records.getLast?_starts hrec' rfl, by rw [hl.1, hrl]⟩
  rw [toI32_of_lt (by omega) (by omega)]
  exact bigFileWalk_eq hsteps (by omega) (Nat.lt_succ_self _)

namespace IndexRun

variable {m : Memory} {s : IndexRun}

/-- What holds in every state of a run. -/
structure Sound (L : IndexFormat) (m : Memory) (s : IndexRun) : Prop where
  hangs : s.hangs = false
  confined : Confined s.index.recordIndexBuffer m recordIndexfileBufMax
  files : ∀ path c, s.files path = some c → c = [] ∨ L.IsSaved c
  opened : s.index.indexFileOpenFlag = true → s.index.Opened L ∧
    ∃ c, s.files s.index.strFilePath = some c ∧ c.length ≤ s.index.indexfileSize

theorem Sound.init (L : IndexFormat) (m : Memory) : Sound L m (init m) where
  hangs := rfl
  confined := Memory.confined_clear m _
  files := by simp [IndexRun.init]
  opened := by simp [IndexRun.init, RecordIndexfile.new]

theorem Sound.create (hL : L.Valid) (h : Sound L m s) {e : CreateEnv} {dataTime : Int}
    {path : Option (List UInt8)} {recordFileSize : UInt64} {parted : Bool}
    (hpath : ∀ p, path = some p → p.length < L.filePathLen) :
    Sound L m (step L s (.create e dataTime path recordFileSize parted)) := by
  cases path with
  | none => exact ⟨h.hangs, h.confined, h.files, h.opened⟩
  | some p =>
    obtain ⟨files, index, r, hcreate, hconf, hfiles, hopened⟩ :=
      RecordIndexfile.createIndexfile_sound (s := s.index) hL e dataTime recordFileSize parted
        (hpath p rfl) h.files
    simp only [step, hcreate]
    exact ⟨h.hangs, hconf.trans h.confined, hfiles, hopened⟩

/-- An update that appends a cluster, and what it leaves. -/
theorem Sound.update (hL : L.Valid) (h : Sound L m s) (e : UpdateEnv) {endTime : Int}
    (hflag : s.index.indexFileOpenFlag = true) (hnull : s.index.clusterNullFlag = false)
    (hend : endTime ≠ 0)
    (hroom : s.index.indexfileSize + s.index.keyClusterSize L ≤ recordIndexfileBufMax) :
    Sound L m (step L s (.update e endTime)) ∧ (step L s (.update e endTime)).index.Opened L ∧
      ((e.locked && e.written) = true →
        (step L s (.update e endTime)).files (step L s (.update e endTime)).index.strFilePath =
          some ((step L s (.update e endTime)).index.recordIndexBuffer.read 0
            (step L s (.update e endTime)).index.indexfileSize)) := by
  obtain ⟨hopened, c, hc, hle⟩ := h.opened hflag
  obtain ⟨s', hupdate, hs', hconf, hsize, hpath, hflag'⟩ :=
    RecordIndexfile.updateIndexfile_append hL e s.files hopened hflag hnull hend hroom
  have hc' : s.files s'.strFilePath = some c := by rw [hpath, hc]
  have hle' : c.length ≤ s'.indexfileSize := by omega
  have hstep : step L s (.update e endTime) =
      { s with files := s'.writeFile e s.files, index := s'.clearCluster } := by
    simp only [step, hupdate]
  have hclear : s'.clearCluster.Opened L := ⟨hs'.isOpen, hs'.le⟩
  rw [hstep]
  by_cases hw : (e.locked && e.written) = true
  · have hfile := RecordIndexfile.writeFile_eq hw hc' hle'
    have hself : (Function.update s.files s'.strFilePath
        (some (s'.recordIndexBuffer.read 0 s'.indexfileSize))) s'.strFilePath =
          some (s'.recordIndexBuffer.read 0 s'.indexfileSize) := Function.update_self _ _ _
    refine ⟨⟨h.hangs, hconf.trans h.confined, ?_, fun _ => ⟨hclear, ?_⟩⟩, hclear, fun _ => ?_⟩
    · intro path d hd
      dsimp only at hd
      rw [hfile] at hd
      by_cases hp : path = s'.strFilePath
      · rw [hp, hself] at hd
        exact .inr (Option.some.inj hd ▸ hs'.isSaved)
      · rw [Function.update_of_ne hp] at hd
        exact h.files path d hd
    · refine ⟨s'.recordIndexBuffer.read 0 s'.indexfileSize, ?_, ?_⟩
      · rw [hfile]
        exact hself
      · rw [Memory.length_read]
        exact Nat.le_refl _
    · rw [hfile]
      exact hself
  · have hfile : s'.writeFile e s.files = s.files := by
      rw [RecordIndexfile.writeFile, if_neg hw]
    rw [hfile]
    exact ⟨⟨h.hangs, hconf.trans h.confined, h.files, fun _ => ⟨hclear, c, hc', hle'⟩⟩, hclear,
      fun h' => absurd h' hw⟩

/-- Each call keeps it. -/
theorem Sound.step (hL : L.Valid) (h : Sound L m s) {a : IndexAct} (ha : a.PathFits L) :
    Sound L m (step L s a) := by
  cases a with
  | create e dataTime path recordFileSize parted =>
    refine h.create hL fun p hp => ?_
    subst hp
    exact ha
  | updateKeyFrame first rest =>
    have hsame : ∀ i, i = s.index.updateKeyFrame first rest →
        i.recordIndexBuffer = s.index.recordIndexBuffer ∧
        i.indexFileOpenFlag = s.index.indexFileOpenFlag ∧ i.strFilePath = s.index.strFilePath ∧
        i.indexfileSize = s.index.indexfileSize ∧
        i.currBigFileCursor = s.index.currBigFileCursor ∧ i.currSecCursor = s.index.currSecCursor := by
      rintro i rfl
      unfold RecordIndexfile.updateKeyFrame
      split <;> exact ⟨rfl, rfl, rfl, rfl, rfl, rfl⟩
    obtain ⟨hbuf, hflag, hpath, hsize, hcursor, hsec⟩ := hsame _ rfl
    refine ⟨h.hangs, ?_, h.files, fun hopen => ?_⟩
    · show Confined (s.index.updateKeyFrame first rest).recordIndexBuffer _ _
      rw [hbuf]
      exact h.confined
    · obtain ⟨hopened, c, hc, hle⟩ := h.opened (hflag ▸ hopen)
      refine ⟨⟨?_, ?_⟩, c, ?_, ?_⟩ <;> dsimp only [IndexRun.step]
      · rw [hbuf, hcursor, hsec, hsize]
        exact hopened.isOpen
      · rw [hsize]
        exact hopened.le
      · rw [hpath]
        exact hc
      · rw [hsize]
        exact hle
  | update e endTime =>
    rcases RecordIndexfile.updateIndexfile_cases hL e s.files endTime fun hf => (h.opened hf).1 with
      ⟨hfiles, hindex, -⟩ | ⟨hflag, hnull, hend, hroom⟩
    · have hstep : IndexRun.step L s (.update e endTime) = s := by
        simp only [IndexRun.step, hfiles, hindex]
      rw [hstep]
      exact h
    · exact (h.update hL e hflag hnull hend hroom).1
  | close =>
    exact ⟨h.hangs, (Memory.confined_clear _ _).trans h.confined, h.files, fun hopen => by
      simp [IndexRun.step, RecordIndexfile.reset] at hopen⟩

/-- In every run no call hangs and nothing is written behind the buffer, and after every update that appends
a cluster the lengths are right, the loop of `parse_indexfile` ends at the end of the file, and the file,
if it was written, is the whole index file. -/
theorem run_lengths (hL : L.Valid) (m : Memory) {acts : List IndexAct}
    (h : ∀ a ∈ acts, a.PathFits L) :
    (run (step L) (init m) acts).hangs = false ∧
    Confined (run (step L) (init m) acts).index.recordIndexBuffer m recordIndexfileBufMax ∧
    ∀ (e : UpdateEnv) (endTime : Int) (s s' : IndexRun), s = run (step L) (init m) acts →
      s' = step L s (.update e endTime) → s.index.clusterNullFlag = false → endTime ≠ 0 →
      (s.index.updateIndexfile L e s.files endTime).2.2 = svsResultOk →
        L.IsIndex s'.index.recordIndexBuffer s'.index.indexfileSize ∧
        L.WalkLands s'.index.recordIndexBuffer s'.index.indexfileSize ∧
        ((e.locked && e.written) = true → ∃ c, s'.files s'.index.strFilePath = some c ∧
          c.length = s'.index.indexfileSize ∧
          c = s'.index.recordIndexBuffer.read 0 s'.index.indexfileSize) := by
  have hsound : Sound L m (run (step L) (init m) acts) := by
    have hall := (@allowed_true _ _ (step L) (init m) acts).and_forall h
    exact hall.invariant (Sound.init L m) fun s a hs ha => hs.step hL ha.1
  refine ⟨hsound.hangs, hsound.confined, ?_⟩
  rintro e endTime s s' rfl rfl hnull hend hok
  rcases RecordIndexfile.updateIndexfile_cases hL e _ endTime fun hf => (hsound.opened hf).1 with
    ⟨-, -, hnoop⟩ | ⟨hflag, -, -, hroom⟩
  · rcases hnoop hok with hnull' | hend'
    · rw [hnull] at hnull'
      cases hnull'
    · exact absurd hend' hend
  · obtain ⟨-, hopened, hfile⟩ := hsound.update hL e hflag hnull hend hroom
    refine ⟨hopened.isOpen.isIndex, hopened.walkLands hL, fun hw => ⟨_, hfile hw, ?_, rfl⟩⟩
    rw [Memory.length_read]

/-- A call of `create_indexfile` in which everything succeeds. -/
def createAct : IndexAct := .create ⟨true, true, true⟩ 7200 (some [97]) 0 false

/-- An update without key frames succeeds, and the file is not written. -/
theorem noop_update_ok :
    ((run (step (smallFormat [])) (init fun _ => 0) [createAct]).index.updateIndexfile (smallFormat [])
        ⟨true, true⟩ (run (step (smallFormat [])) (init fun _ => 0) [createAct]).files 7300).2.2 =
        svsResultOk ∧
      (run (step (smallFormat [])) (init fun _ => 0) [createAct, .update ⟨true, true⟩ 7300]).files "7200" =
        some [] ∧
      (run (step (smallFormat [])) (init fun _ => 0)
        [createAct, .update ⟨true, true⟩ 7300]).index.indexfileSize = 93 := by
  decide

/-- The format, with the MD5 digest of the file below. -/
def oneClusterFormat : IndexFormat :=
  smallFormat [7, 79, 76, 184, 200, 69, 146, 43, 139, 107, 118, 51, 34, 101, 223, 56]

/-- A new index file, and a key frame. -/
def oneKeyFrame : List IndexAct := [createAct, .updateKeyFrame ⟨4096, 5⟩ [⟨4096, 5⟩]]

/-- The update with this key frame. -/
def oneCluster : IndexRun :=
  step oneClusterFormat (run (step oneClusterFormat) (init fun _ => 0) oneKeyFrame)
    (.update ⟨true, true⟩ 7300)

theorem run_lengths_oneCluster :
    oneClusterFormat.IsIndex oneCluster.index.recordIndexBuffer oneCluster.index.indexfileSize ∧
    oneClusterFormat.WalkLands oneCluster.index.recordIndexBuffer oneCluster.index.indexfileSize ∧
    ∃ c, oneCluster.files oneCluster.index.strFilePath = some c ∧
      c.length = oneCluster.index.indexfileSize ∧
      c = oneCluster.index.recordIndexBuffer.read 0 oneCluster.index.indexfileSize := by
  have hfits : ∀ a ∈ oneKeyFrame, a.PathFits oneClusterFormat := by
    simp [oneKeyFrame, createAct, IndexAct.PathFits, oneClusterFormat, smallFormat]
  obtain ⟨-, -, hupdate⟩ := run_lengths (L := oneClusterFormat) (smallFormat_valid rfl) (fun _ => 0) hfits
  obtain ⟨hindex, hwalk, hfile⟩ := hupdate ⟨true, true⟩ 7300 _ oneCluster rfl rfl (by decide)
    (by decide) (by decide)
  exact ⟨hindex, hwalk, hfile rfl⟩

end IndexRun

end AllCamera
