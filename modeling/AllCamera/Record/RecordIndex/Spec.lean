import AllCamera.Record.RecordIndex

/-!
# The structure of an index file

An index file is well formed if its lengths are right: that of the file is its header and the big files,
that of a big file is its fixed part and the sections, that of a section its fixed part and the clusters.
While it is open, its last big file and the last section of that are at the two cursors
(`IndexFormat.IsOpen`).

* `IndexFormat.Valid`: what the layout of the structures has to have.
* `IsIndex`, `IsBigFile`, `IsSection`, `IsCluster`, and how they depend on the memory.
* `bigFileWalk_eq`: the loop of `parse_indexfile` over records.
* `newSection_isOpen`, `addCluster_isOpen`: what a new section and a new cluster do to an index file.
-/

namespace AllCamera

namespace IndexFormat

variable (L : IndexFormat)

def headerFields : List Field := [L.indexFileTotalLen, L.md5code]

def bigFileFields : List Field :=
  [L.fileInfoTotalLen, L.bigFileStartTime, L.bigFileEndTime, L.filePath, L.metaDataPartedFlag]

def sectionFields : List Field :=
  [L.sectionTotalLen, L.sectionStartTime, L.sectionEndTime, L.fileOff]

def clusterFields : List Field :=
  [L.clusterTotalLen, L.keyFrameFlag, L.firstTimeTick, L.clusterFileOffset]

/-- The members of each structure have their own bytes. The array at the end of a structure, of which one
element is declared, is behind the others. -/
structure Valid : Prop where
  header : ∀ f ∈ L.headerFields, f.stop ≤ L.sizeofIndexfileHeader
  headerApart : L.headerFields.Pairwise Field.Apart
  bigFile : ∀ f ∈ L.bigFileFields, f.stop ≤ L.bigFileFixed
  bigFileApart : L.bigFileFields.Pairwise Field.Apart
  sectionInfo : ∀ f ∈ L.sectionFields, f.stop ≤ L.sectionFixed
  sectionApart : L.sectionFields.Pairwise Field.Apart
  cluster : ∀ f ∈ L.clusterFields, f.stop ≤ L.clusterFixed
  clusterApart : L.clusterFields.Pairwise Field.Apart
  keyFrameInfo_eq : L.keyFrameInfo = L.clusterFixed
  keyframe_pos : 0 < L.sizeofKeyframeInfo
  keyframe_le : L.sizeofKeyframeInfo ≤ L.sizeofClusterInfo
  cluster_le : L.sizeofClusterInfo ≤ L.sizeofSectionInfo
  section_le : L.sizeofSectionInfo ≤ L.sizeofBigfileInfo
  buffer : L.sizeofIndexfileHeader + L.sizeofBigfileInfo ≤ recordIndexfileBufMax
  indexFileTotalLen : 4 ≤ L.indexFileTotalLen.width
  fileInfoTotalLen : 4 ≤ L.fileInfoTotalLen.width
  sectionTotalLen : 4 ≤ L.sectionTotalLen.width
  clusterTotalLen : 4 ≤ L.clusterTotalLen.width
  firstTimeTick : L.firstTimeTick.width = 4
  clusterFileOffset : L.clusterFileOffset.width = 8
  filePath : L.filePathLen ≤ L.filePath.width
  keyFrameBytes : ∀ k, (L.keyFrameBytes k).length = L.sizeofKeyframeInfo
  md5 : ∀ l, (L.md5 l).length = L.md5CodeLen
  md5code : L.md5code.width = L.md5CodeLen
  headerStr : L.indexfileHeaderStr.length ≤ L.sizeofIndexfileHeader
  md5Skip : L.md5Skip ≤ L.sizeofIndexfileHeader

/-! ## What an index file is -/

/-- A cluster at `p` of length `l`. -/
def IsCluster (m : Memory) (p l : Nat) : Prop :=
  L.clusterTotalLen.get m p = l ∧ L.clusterFixed ≤ l

/-- A section: its fixed part, and clusters. -/
def IsSection (m : Memory) (p l : Nat) : Prop :=
  L.sectionTotalLen.get m p = l ∧
    ∃ ls, Records (L.IsCluster m) (p + L.sectionFixed) ls (p + l) ∧ l = L.sectionFixed + ls.sum

/-- A big file: its fixed part, and sections. -/
def IsBigFile (m : Memory) (p l : Nat) : Prop :=
  L.fileInfoTotalLen.get m p = l ∧
    ∃ ls, Records (L.IsSection m) (p + L.bigFileFixed) ls (p + l) ∧ l = L.bigFileFixed + ls.sum

/-- An index file of `n` bytes: its header, and big files. -/
def IsIndex (m : Memory) (n : Nat) : Prop :=
  L.indexFileTotalLen.get m 0 = n ∧
    ∃ ls, Records (L.IsBigFile m) L.sizeofIndexfileHeader ls n ∧ n = L.sizeofIndexfileHeader + ls.sum

variable {L} {m m' : Memory} {p l n : Nat} {ls : List Nat}

theorem isSection_of_records (hlen : L.sectionTotalLen.get m p = l)
    (h : Records (L.IsCluster m) (p + L.sectionFixed) ls (p + l)) : L.IsSection m p l := by
  have hstop := h.stop_eq
  exact ⟨hlen, ls, h, by omega⟩

theorem isBigFile_of_records (hlen : L.fileInfoTotalLen.get m p = l)
    (h : Records (L.IsSection m) (p + L.bigFileFixed) ls (p + l)) : L.IsBigFile m p l := by
  have hstop := h.stop_eq
  exact ⟨hlen, ls, h, by omega⟩

theorem isIndex_of_records (hlen : L.indexFileTotalLen.get m 0 = n)
    (h : Records (L.IsBigFile m) L.sizeofIndexfileHeader ls n) : L.IsIndex m n :=
  ⟨hlen, ls, h, h.stop_eq⟩

namespace Valid

/-- Where the members of the structures end. -/
theorem stops (hL : L.Valid) :
    (L.indexFileTotalLen.stop ≤ L.sizeofIndexfileHeader ∧ L.md5code.stop ≤ L.sizeofIndexfileHeader) ∧
    (L.fileInfoTotalLen.stop ≤ L.bigFileFixed ∧ L.bigFileStartTime.stop ≤ L.bigFileFixed ∧
      L.bigFileEndTime.stop ≤ L.bigFileFixed ∧ L.filePath.stop ≤ L.bigFileFixed ∧
      L.metaDataPartedFlag.stop ≤ L.bigFileFixed) ∧
    (L.sectionTotalLen.stop ≤ L.sectionFixed ∧ L.sectionStartTime.stop ≤ L.sectionFixed ∧
      L.sectionEndTime.stop ≤ L.sectionFixed ∧ L.fileOff.stop ≤ L.sectionFixed) ∧
    (L.clusterTotalLen.stop ≤ L.clusterFixed ∧ L.keyFrameFlag.stop ≤ L.clusterFixed ∧
      L.firstTimeTick.stop ≤ L.clusterFixed ∧ L.clusterFileOffset.stop ≤ L.clusterFixed) := by
  have h1 := hL.header
  have h2 := hL.bigFile
  have h3 := hL.sectionInfo
  have h4 := hL.cluster
  simp only [headerFields, bigFileFields, sectionFields, clusterFields, List.forall_mem_cons,
    List.not_mem_nil, false_implies, implies_true, and_true] at h1 h2 h3 h4
  exact ⟨h1, h2, h3, h4⟩

/-- The length of a big file, and of a section, have their own bytes. -/
theorem totals_apart (hL : L.Valid) :
    L.indexFileTotalLen.Apart L.md5code ∧
    (L.fileInfoTotalLen.Apart L.bigFileStartTime ∧ L.fileInfoTotalLen.Apart L.bigFileEndTime ∧
      L.fileInfoTotalLen.Apart L.filePath ∧ L.fileInfoTotalLen.Apart L.metaDataPartedFlag) ∧
    (L.sectionTotalLen.Apart L.sectionStartTime ∧ L.sectionTotalLen.Apart L.sectionEndTime ∧
      L.sectionTotalLen.Apart L.fileOff) := by
  have h1 := hL.headerApart
  have h2 := hL.bigFileApart
  have h3 := hL.sectionApart
  simp only [headerFields, bigFileFields, sectionFields, List.pairwise_cons, List.forall_mem_cons,
    List.not_mem_nil, false_implies, implies_true, and_true, List.Pairwise.nil] at h1 h2 h3
  exact ⟨h1, h2.1, h3.1⟩

end Valid

/-- A layout without padding, with short texts, and a digest that is given. -/
def smallFormat (digest : List UInt8) : IndexFormat where
  sizeofIndexfileHeader := 28
  sizeofBigfileInfo := 94
  sizeofSectionInfo := 57
  sizeofClusterInfo := 29
  sizeofKeyframeInfo := 12
  indexFileTotalLen := ⟨24, 4⟩
  md5code := ⟨8, 16⟩
  bigFileStartTime := ⟨4, 8⟩
  bigFileEndTime := ⟨12, 8⟩
  fileInfoTotalLen := ⟨0, 4⟩
  filePath := ⟨20, 16⟩
  metaDataPartedFlag := ⟨36, 1⟩
  sectionStartTime := ⟨4, 8⟩
  sectionEndTime := ⟨12, 8⟩
  fileOff := ⟨20, 8⟩
  sectionTotalLen := ⟨0, 4⟩
  clusterTotalLen := ⟨0, 4⟩
  keyFrameFlag := ⟨4, 1⟩
  firstTimeTick := ⟨5, 4⟩
  clusterFileOffset := ⟨9, 8⟩
  keyFrameInfo := 17
  keyFrameBytes k := leBytes 8 k.fileOffset.toNat ++ leBytes 4 k.timeTick.toNat
  indexfileHeaderStr := [73, 78, 68, 69, 88, 0]
  magicDateLen := 8
  md5CodeLen := 16
  filePathLen := 16
  metaDataParted := 1
  metaDataDisparted := 0
  timeSlice := 3600
  md5 _ := digest
  indexfilePath t := toString t

theorem smallFormat_valid {digest : List UInt8} (h : digest.length = 16) :
    (smallFormat digest).Valid := by
  constructor <;>
    simp [smallFormat, headerFields, bigFileFields, sectionFields, clusterFields, bigFileFixed,
      sectionFixed, clusterFixed, md5Skip, Field.stop, Field.Apart, recordIndexfileBufMax, h]

/-! ## They depend on their own bytes only -/

theorem IsCluster.agree (hL : L.Valid) (h : L.IsCluster m p l) (ha : Agree m m' p (p + l)) :
    L.IsCluster m' p l := by
  obtain ⟨-, -, -, hstop, -⟩ := hL.stops
  have hle := h.2
  refine ⟨?_, hle⟩
  rw [← Field.get_agree ha (by omega) (by omega)]
  exact h.1

theorem IsSection.agree (hL : L.Valid) (h : L.IsSection m p l) (ha : Agree m m' p (p + l)) :
    L.IsSection m' p l := by
  obtain ⟨-, -, ⟨hstop, -⟩, -⟩ := hL.stops
  obtain ⟨hlen, ls, hrec, hsum⟩ := h
  refine ⟨?_, ls, hrec.mono fun r k hr hk hc => hc.agree hL (ha.mono (by omega) (by omega)), hsum⟩
  rw [← Field.get_agree ha (by omega) (by omega)]
  exact hlen

theorem IsBigFile.agree (hL : L.Valid) (h : L.IsBigFile m p l) (ha : Agree m m' p (p + l)) :
    L.IsBigFile m' p l := by
  obtain ⟨-, ⟨hstop, -⟩, -⟩ := hL.stops
  obtain ⟨hlen, ls, hrec, hsum⟩ := h
  refine ⟨?_, ls, hrec.mono fun r k hr hk hc => hc.agree hL (ha.mono (by omega) (by omega)), hsum⟩
  rw [← Field.get_agree ha (by omega) (by omega)]
  exact hlen

theorem IsIndex.agree (hL : L.Valid) (h : L.IsIndex m n) (ha : Agree m m' 0 n) : L.IsIndex m' n := by
  obtain ⟨⟨hstop, -⟩, -⟩ := hL.stops
  obtain ⟨hlen, ls, hrec, hsum⟩ := h
  refine ⟨?_, ls, hrec.mono fun r k hr hk hb => hb.agree hL (ha.mono (Nat.zero_le _) hk), hsum⟩
  rw [← Field.get_agree ha (by omega) (by omega)]
  exact hlen

/-! ## The loop over the big files -/

/-- A big file as the loops take it: its length moves them on. -/
def Steps (L : IndexFormat) (m : Memory) (p l : Nat) : Prop := L.fileInfoTotalLen.get m p = l ∧ 0 < l

theorem IsBigFile.steps (hL : L.Valid) (h : L.IsBigFile m p l) : L.Steps m p l := by
  obtain ⟨-, ⟨hstop, -⟩, -⟩ := hL.stops
  obtain ⟨hlen, ls, -, hsum⟩ := h
  have hwidth := hL.fileInfoTotalLen
  unfold Field.stop at hstop
  exact ⟨hlen, by omega⟩

end IndexFormat

namespace Records

/-- Where the records are. -/
def starts : Nat → List Nat → List Nat
  | _, [] => []
  | p, l :: ls => p :: starts (p + l) ls

theorem getLast?_starts {P : Nat → Nat → Prop} {p q r l : Nat} {ls : List Nat} (h : Records P p ls r)
    (hq : q = r) : (starts p (ls ++ [l])).getLast? = some q := by
  induction ls generalizing p with
  | nil =>
    obtain rfl : p = r := h
    simp [starts, hq]
  | cons k ls ih =>
    have hne : starts (p + k) (ls ++ [l]) ≠ [] := by cases ls <;> simp [starts]
    rw [List.cons_append, starts, List.getLast?_cons_of_ne_nil hne]
    exact ih h.2

end Records

/-- A length in the buffer is not changed by the conversion. -/
theorem toI32_of_lt {x : Int} (h0 : 0 ≤ x) (h : x < 2 ^ 31) : toI32 x = x := by
  unfold toI32
  rw [Int.bmod_eq_of_le (by omega) (by omega)]

theorem toU32_of_lt {x : Nat} (h : x < 2 ^ 32) : toU32 x = x := by
  unfold toU32
  omega

/-- One step of the loop, inside a file. -/
theorem bigFileWalk_succ {L : IndexFormat} {m : Memory} {fuel p l n : Nat} (hl : L.Steps m p l)
    (hn : p + l ≤ n) (hlt : n < 2 ^ 31) : bigFileWalk L m (fuel + 1) p ((n : Int) - p) =
      (bigFileWalk L m fuel (p + l) ((n : Int) - (p + l : Nat))).map (p :: ·) := by
  obtain ⟨hlen, hpos⟩ := hl
  have hsize : toI32 ((n : Int) - p - toI32 l) = (n : Int) - (p + l : Nat) := by
    have hl : toI32 (l : Int) = l := toI32_of_lt (by omega) (by omega)
    rw [hl, toI32_of_lt (by omega) (by omega)]
    omega
  rw [bigFileWalk, if_pos (by omega)]
  simp only [hlen, hsize]

/-- The loop comes to each of the records, and ends. -/
theorem bigFileWalk_eq {L : IndexFormat} {m : Memory} {fuel p n : Nat} {ls : List Nat}
    (h : Records (L.Steps m) p ls n) (hlt : n < 2 ^ 31) (hfuel : ls.length < fuel) :
    bigFileWalk L m fuel p ((n : Int) - p) = some (Records.starts p ls) := by
  induction ls generalizing p fuel with
  | nil =>
    obtain rfl : p = n := h
    obtain ⟨k, rfl⟩ := Nat.exists_eq_succ_of_ne_zero (Nat.ne_of_gt hfuel)
    rw [bigFileWalk, if_neg (by omega)]
    rfl
  | cons l ls ih =>
    obtain ⟨k, rfl⟩ := Nat.exists_eq_succ_of_ne_zero (Nat.ne_of_gt (Nat.zero_lt_of_lt hfuel))
    rw [bigFileWalk_succ h.1 h.2.le hlt, ih h.2 (by simpa using hfuel)]
    rfl

/-- There are no more records than bytes. -/
theorem length_le_of_steps {L : IndexFormat} {m : Memory} {p n : Nat} {ls : List Nat}
    (h : Records (L.Steps m) p ls n) : p + ls.length ≤ n := by
  induction ls generalizing p with
  | nil => exact Nat.le_of_eq h
  | cons l ls ih =>
    have hpos := h.1.2
    have hrest := ih h.2
    rw [List.length_cons]
    omega

/-! ## An open index file -/

/-- The index file of `n` bytes that is open: its last big file is at `cursor`, and the last section of that
at `secCursor`. -/
structure IndexFormat.IsOpen (L : IndexFormat) (m : Memory) (cursor secCursor n : Nat) : Prop where
  header : L.indexFileTotalLen.get m 0 = n
  bigFiles : ∃ ls, Records (L.IsBigFile m) L.sizeofIndexfileHeader ls cursor
  bigFile : cursor + L.fileInfoTotalLen.get m cursor = n
  sections : ∃ ls, Records (L.IsSection m) (cursor + L.bigFileFixed) ls secCursor
  lastSection : secCursor + L.sectionTotalLen.get m secCursor = n
  clusters : ∃ ls, Records (L.IsCluster m) (secCursor + L.sectionFixed) ls n

namespace IndexFormat.IsOpen

variable {L : IndexFormat} {m m' : Memory} {cursor secCursor n : Nat}

theorem le (h : L.IsOpen m cursor secCursor n) : L.sizeofIndexfileHeader ≤ cursor ∧
    cursor + L.bigFileFixed ≤ secCursor ∧ secCursor + L.sectionFixed ≤ n := by
  obtain ⟨bs, hbs⟩ := h.bigFiles
  obtain ⟨ss, hss⟩ := h.sections
  obtain ⟨cs, hcs⟩ := h.clusters
  exact ⟨hbs.le, hss.le, hcs.le⟩

/-- It is well formed. -/
theorem isIndex (h : L.IsOpen m cursor secCursor n) : L.IsIndex m n := by
  obtain ⟨hcursor, hsec, hn⟩ := h.le
  obtain ⟨bs, hbs⟩ := h.bigFiles
  obtain ⟨ss, hss⟩ := h.sections
  obtain ⟨cs, hcs⟩ := h.clusters
  have hlast : L.IsSection m secCursor (n - secCursor) := by
    have hlen := h.lastSection
    have hrecords : Records (L.IsCluster m) (secCursor + L.sectionFixed) cs (secCursor + (n - secCursor)) := by
      rwa [Nat.add_sub_cancel' (by omega)]
    exact isSection_of_records (by omega) hrecords
  have hfile : L.IsBigFile m cursor (n - cursor) := by
    have hlen := h.bigFile
    have hrecords : Records (L.IsSection m) (cursor + L.bigFileFixed) (ss ++ [n - secCursor])
        (cursor + (n - cursor)) := by
      have hsnoc := hss.snoc hlast
      rw [Nat.add_sub_cancel' (by omega)] at hsnoc
      rwa [Nat.add_sub_cancel' (by omega)]
    exact isBigFile_of_records (by omega) hrecords
  have hsnoc := hbs.snoc hfile
  rw [Nat.add_sub_cancel' (by omega)] at hsnoc
  exact isIndex_of_records h.header hsnoc

/-- What is written into the header beside the length does not matter. -/
theorem agree (hL : L.Valid) (h : L.IsOpen m cursor secCursor n)
    (hheader : L.indexFileTotalLen.get m' 0 = L.indexFileTotalLen.get m 0)
    (ha : Agree m m' L.sizeofIndexfileHeader n) : L.IsOpen m' cursor secCursor n := by
  obtain ⟨-, ⟨hfstop, -⟩, ⟨hsstop, -⟩, -⟩ := hL.stops
  obtain ⟨hcursor, hsec, hn⟩ := h.le
  obtain ⟨bs, hbs⟩ := h.bigFiles
  obtain ⟨ss, hss⟩ := h.sections
  obtain ⟨cs, hcs⟩ := h.clusters
  constructor
  case header => rw [hheader, h.header]
  case bigFiles => exact ⟨bs, hbs.mono fun r l hr hl hb => hb.agree hL (ha.mono hr (by omega))⟩
  case bigFile => rw [← Field.get_agree ha (by omega) (by omega), h.bigFile]
  case sections =>
    exact ⟨ss, hss.mono fun r l hr hl hc => hc.agree hL (ha.mono (by omega) (by omega))⟩
  case lastSection => rw [← Field.get_agree ha (by omega) (by omega), h.lastSection]
  case clusters => exact ⟨cs, hcs.mono fun r l hr hl hc => hc.agree hL (ha.mono (by omega) hl)⟩

end IndexFormat.IsOpen

/-! ## What the operations write -/

/-- A length below `2 ^ 32` fits in a member for lengths. -/
theorem Field.get_set_len {f : Field} {m : Memory} {p v : Nat} (hw : 4 ≤ f.width) (hv : v < 2 ^ 32) :
    f.get (f.set m p v) p = v := by
  apply Field.get_set_of_lt
  have hpow : 256 ^ 4 ≤ 256 ^ f.width := Nat.pow_le_pow_right (by omega) hw
  omega

namespace RecordIndexfile

open IndexFormat

variable {L : IndexFormat} {s : RecordIndexfile} {m : Memory} {a b n increaseLen : Nat}

theorem newBigFile_agree (hL : L.Valid) {dataTime : Int} {path : List UInt8}
    (hpath : path.length < L.filePathLen)
    (h : b ≤ s.currBigFileCursor ∨ s.currBigFileCursor + L.bigFileFixed ≤ a) :
    Agree (s.newBigFile L dataTime path).recordIndexBuffer s.recordIndexBuffer a b := by
  obtain ⟨-, ⟨-, hstart, hend, hfile, -⟩, -⟩ := hL.stops
  have hwidth := hL.filePath
  unfold Field.stop at hfile
  refine (Agree.write (by omega)).trans ((Field.agree_set (by omega)).trans ?_)
  exact Field.agree_set (by omega)

/-- The length of a big file is not set with the rest. -/
theorem newBigFile_fileInfoTotalLen (hL : L.Valid) {dataTime : Int} {path : List UInt8}
    (hpath : path.length < L.filePathLen) :
    L.fileInfoTotalLen.get (s.newBigFile L dataTime path).recordIndexBuffer s.currBigFileCursor =
      L.fileInfoTotalLen.get s.recordIndexBuffer s.currBigFileCursor := by
  obtain ⟨-, ⟨hstart, hend, hfile, -⟩, -⟩ := hL.totals_apart
  have hwidth := hL.filePath
  unfold Field.Apart Field.stop at hfile
  show L.fileInfoTotalLen.get (Memory.write _ _ _) _ = _
  rw [Field.get_write_of_disjoint (by unfold Field.stop; omega), hend.get_set, hstart.get_set]

theorem addLength_agree (hL : L.Valid) {parted : Bool} (ha : L.sizeofIndexfileHeader ≤ a)
    (h : b ≤ s.currBigFileCursor ∨ s.currBigFileCursor + L.bigFileFixed ≤ a) :
    Agree (s.addLength L increaseLen parted) s.recordIndexBuffer a b := by
  obtain ⟨⟨hheader, -⟩, ⟨hfile, -, -, -, hparted⟩, -⟩ := hL.stops
  refine (Field.agree_set (by omega)).trans ((Field.agree_set (by omega)).trans ?_)
  exact Field.agree_set (by omega)

theorem putSection_agree (hL : L.Valid) {secCursor : Nat} {dataTime : Int} {recordFileSize : UInt64}
    (h : b ≤ secCursor ∨ secCursor + L.sectionFixed ≤ a) :
    Agree (putSection L m secCursor dataTime recordFileSize) m a b := by
  obtain ⟨-, -, ⟨htotal, hstart, hend, hoff⟩, -⟩ := hL.stops
  refine (Field.agree_set (by omega)).trans ((Field.agree_set (by omega)).trans ?_)
  exact (Field.agree_set (by omega)).trans (Field.agree_set (by omega))

/-- The index file gets another section, at its end. -/
theorem newSection_isOpen (hL : L.Valid) (dataTime : Int) (recordFileSize : UInt64) (parted : Bool)
    (hn : n ≤ recordIndexfileBufMax)
    (hheader : L.indexFileTotalLen.get s.recordIndexBuffer 0 + increaseLen = n)
    (hfiles : ∃ ls, Records (L.IsBigFile s.recordIndexBuffer) L.sizeofIndexfileHeader ls
      s.currBigFileCursor)
    (hfile : s.currBigFileCursor + L.fileInfoTotalLen.get s.recordIndexBuffer s.currBigFileCursor +
      increaseLen = n)
    (hsecs : ∃ ls, Records (L.IsSection s.recordIndexBuffer) (s.currBigFileCursor + L.bigFileFixed) ls
      (n - L.sectionFixed))
    (hle : L.sectionFixed ≤ n) :
    (s.newSection L increaseLen dataTime recordFileSize parted).indexfileSize = n ∧
    (s.newSection L increaseLen dataTime recordFileSize parted).currSecCursor = n - L.sectionFixed ∧
    L.IsOpen (s.newSection L increaseLen dataTime recordFileSize parted).recordIndexBuffer
      s.currBigFileCursor (n - L.sectionFixed) n := by
  obtain ⟨⟨hstop, -⟩, ⟨hfstop, -, -, -, hpstop⟩, ⟨hsstop, -⟩, -⟩ := hL.stops
  obtain ⟨-, ⟨-, -, -, hapart⟩, -⟩ := hL.totals_apart
  obtain ⟨fs, hfiles⟩ := hfiles
  obtain ⟨ss, hsecs⟩ := hsecs
  have hcursor := hfiles.le
  have hsec := hsecs.le
  unfold recordIndexfileBufMax at hn
  -- the lengths of the index file and of the big file
  have hlen : L.indexFileTotalLen.get (s.addLength L increaseLen parted) 0 = n := by
    rw [addLength, Field.get_set_of_disjoint (.inl (by omega)),
      Field.get_set_of_disjoint (.inl (by omega)), hheader,
      Field.get_set_len hL.indexFileTotalLen (by omega)]
  have hflen : s.currBigFileCursor +
      L.fileInfoTotalLen.get (s.addLength L increaseLen parted) s.currBigFileCursor = n := by
    rw [addLength, hapart.get_set, Field.get_set_len hL.fileInfoTotalLen]
    · rw [Field.get_set_of_disjoint (.inr (by omega))]
      omega
    · rw [Field.get_set_of_disjoint (.inr (by omega))]
      omega
  have hsize : toU32 (L.indexFileTotalLen.get (s.addLength L increaseLen parted) 0) = n := by
    rw [hlen, toU32_of_lt (by omega)]
  have hseccur : toU32 ((n : Int) - L.sectionFixed) = n - L.sectionFixed := by
    rw [← toU32_of_lt (x := n - L.sectionFixed) (by omega)]
    congr 1
    omega
  have hmem : (s.newSection L increaseLen dataTime recordFileSize parted).recordIndexBuffer =
      putSection L (s.addLength L increaseLen parted) (n - L.sectionFixed) dataTime recordFileSize := by
    simp only [newSection, hsize, hseccur]
  refine ⟨hsize, ?_, ?_⟩
  · simp only [newSection, hsize, hseccur]
  rw [hmem]
  -- where the two parts have not written
  have hagree : ∀ a b, L.sizeofIndexfileHeader ≤ a →
      (b ≤ s.currBigFileCursor ∨ s.currBigFileCursor + L.bigFileFixed ≤ a) →
      b ≤ n - L.sectionFixed →
      Agree s.recordIndexBuffer
        (putSection L (s.addLength L increaseLen parted) (n - L.sectionFixed) dataTime recordFileSize)
        a b :=
    fun a b ha hb hb' => ((putSection_agree hL (.inl hb')).trans (addLength_agree hL ha hb)).symm
  have hput : ∀ (f : Field) (p : Nat), p + f.stop ≤ n - L.sectionFixed →
      f.get (putSection L (s.addLength L increaseLen parted) (n - L.sectionFixed) dataTime
        recordFileSize) p = f.get (s.addLength L increaseLen parted) p :=
    fun f p hp => Field.get_agree (putSection_agree hL (.inl hp)) (Nat.le_add_right p f.off)
      (Nat.le_refl _)
  constructor
  case header => rw [hput _ _ (by omega), hlen]
  case bigFiles =>
    refine ⟨fs, hfiles.mono fun r l hr hl hb => hb.agree hL (hagree _ _ hr (.inl hl) (by omega))⟩
  case bigFile => rw [hput _ _ (by omega), hflen]
  case sections =>
    refine ⟨ss, hsecs.mono fun r l hr hl hc => hc.agree hL (hagree _ _ (by omega) (.inr hr) hl)⟩
  case lastSection =>
    rw [putSection, Field.get_set_len hL.sectionTotalLen (by omega)]
    omega
  case clusters => exact ⟨[], by simp only [Records]; omega⟩

/-- A cluster with the most key frames is small. -/
theorem cluster_small (hL : L.Valid) (s : RecordIndexfile) :
    L.clusterFixed + s.keyFrameCount * L.sizeofKeyframeInfo < 2 ^ 31 := by
  have hk := hL.keyframe_le
  have hc := hL.cluster_le
  have hs := hL.section_le
  have hb := hL.buffer
  have hcount : s.keyFrameCount * L.sizeofKeyframeInfo ≤ 255 * L.sizeofKeyframeInfo := by
    apply Nat.mul_le_mul_right
    unfold keyFrameCount
    omega
  unfold recordIndexfileBufMax at hb
  unfold clusterFixed
  omega

/-- The size of a cluster: its fixed part, and the key frames. -/
theorem keyClusterSize_eq (hL : L.Valid) :
    s.keyClusterSize L = L.clusterFixed + s.keyFrameCount * L.sizeofKeyframeInfo := by
  have hk := hL.keyframe_le
  have hsmall := cluster_small hL s
  have hint : (L.sizeofClusterInfo : Int) + ((s.keyFrameCount : Int) - 1) * L.sizeofKeyframeInfo =
      (L.clusterFixed + s.keyFrameCount * L.sizeofKeyframeInfo : Nat) := by
    rw [Int.sub_mul, Int.one_mul, Int.natCast_add, Int.natCast_mul]
    unfold clusterFixed
    omega
  rw [keyClusterSize, hint, toU32_of_lt (by omega)]

theorem length_keyFrames (hL : L.Valid) (ks : List KeyFrameInfo) :
    (ks.flatMap L.keyFrameBytes).length = ks.length * L.sizeofKeyframeInfo := by
  induction ks with
  | nil => simp
  | cons k ks ih =>
    rw [List.flatMap_cons, List.length_append, ih, hL.keyFrameBytes, List.length_cons, Nat.succ_mul,
      Nat.add_comm]

theorem length_cluster_le (hL : L.Valid) (s : RecordIndexfile) :
    ((s.keyframeVec.take s.keyFrameCount).flatMap L.keyFrameBytes).length ≤
      s.keyFrameCount * L.sizeofKeyframeInfo := by
  rw [length_keyFrames hL, List.length_take]
  exact Nat.mul_le_mul_right _ (Nat.min_le_left _ _)

theorem addClusterSize_agree (hL : L.Valid) {endTime : Int} (ha : L.sizeofIndexfileHeader ≤ a)
    (h : b ≤ s.currBigFileCursor ∨ s.currBigFileCursor + L.bigFileFixed ≤ a)
    (h' : b ≤ s.currSecCursor ∨ s.currSecCursor + L.sectionFixed ≤ a) :
    Agree (s.addClusterSize L endTime) s.recordIndexBuffer a b := by
  obtain ⟨⟨hheader, -⟩, ⟨hfile, -, hend, -⟩, ⟨hsec, -, hsecEnd, -⟩, -⟩ := hL.stops
  refine (Field.agree_set (by omega)).trans ((Field.agree_set (by omega)).trans ?_)
  refine (Field.agree_set (by omega)).trans ((Field.agree_set (by omega)).trans ?_)
  exact Field.agree_set (by omega)

theorem putCluster_agree (hL : L.Valid)
    (h : b ≤ s.indexfileSize ∨ s.indexfileSize + s.keyClusterSize L ≤ a) :
    Agree (s.putCluster L m) m a b := by
  obtain ⟨-, -, -, htotal, hflag, htick, hoff⟩ := hL.stops
  have hinfo := hL.keyFrameInfo_eq
  have hlen := length_cluster_le hL s
  rw [keyClusterSize_eq hL] at h
  refine (Agree.write (by omega)).trans ((Field.agree_set (by omega)).trans ?_)
  refine (Field.agree_set (by omega)).trans ((Field.agree_set (by omega)).trans ?_)
  exact Field.agree_set (by omega)

theorem putCluster_clusterTotalLen (hL : L.Valid) (hn : s.keyClusterSize L < 2 ^ 32) :
    L.clusterTotalLen.get (s.putCluster L m) s.indexfileSize = s.keyClusterSize L := by
  obtain ⟨-, -, -, htotal, -⟩ := hL.stops
  have hinfo := hL.keyFrameInfo_eq
  have hapart := hL.clusterApart
  simp only [clusterFields, List.pairwise_cons, List.forall_mem_cons] at hapart
  obtain ⟨⟨hflag, htick, hoff, -⟩, -⟩ := hapart
  rw [putCluster, Field.get_write_of_disjoint (.inl (by omega)), hoff.get_set, htick.get_set,
    hflag.get_set, Field.get_set_len hL.clusterTotalLen hn]

/-- The last section of an open index file gets another cluster. -/
theorem addCluster_isOpen (hL : L.Valid) (endTime : Int)
    (h : L.IsOpen s.recordIndexBuffer s.currBigFileCursor s.currSecCursor s.indexfileSize)
    (hn : s.indexfileSize + s.keyClusterSize L ≤ recordIndexfileBufMax) :
    L.IsOpen (s.addCluster L endTime).recordIndexBuffer s.currBigFileCursor s.currSecCursor
      (s.indexfileSize + s.keyClusterSize L) := by
  obtain ⟨⟨hstop, -⟩, ⟨hfstop, -, hfend, -⟩, ⟨hsstop, -, hsend, -⟩, -⟩ := hL.stops
  obtain ⟨-, ⟨-, hfapart, -⟩, -, hsapart, -⟩ := hL.totals_apart
  obtain ⟨hcursor, hsec, hsize⟩ := h.le
  have hfile := h.bigFile
  have hlast := h.lastSection
  unfold recordIndexfileBufMax at hn
  -- the three lengths
  have hlen : L.indexFileTotalLen.get (s.addClusterSize L endTime) 0 =
      s.indexfileSize + s.keyClusterSize L := by
    rw [addClusterSize, Field.get_set_of_disjoint (.inl (by omega)),
      Field.get_set_of_disjoint (.inl (by omega)), Field.get_set_of_disjoint (.inl (by omega)),
      Field.get_set_of_disjoint (.inl (by omega)), Field.get_set_len hL.indexFileTotalLen (by omega)]
  have hflen : s.currBigFileCursor +
      L.fileInfoTotalLen.get (s.addClusterSize L endTime) s.currBigFileCursor =
        s.indexfileSize + s.keyClusterSize L := by
    have hold : ∀ v, L.fileInfoTotalLen.get (L.indexFileTotalLen.set s.recordIndexBuffer 0 v)
        s.currBigFileCursor = L.fileInfoTotalLen.get s.recordIndexBuffer s.currBigFileCursor :=
      fun v => Field.get_set_of_disjoint (.inr (by omega))
    rw [addClusterSize, Field.get_set_of_disjoint (.inl (by omega)),
      Field.get_set_of_disjoint (.inl (by omega)), hfapart.get_set,
      Field.get_set_len hL.fileInfoTotalLen (by rw [hold]; omega), hold]
    omega
  have hslen : s.currSecCursor +
      L.sectionTotalLen.get (s.addClusterSize L endTime) s.currSecCursor =
        s.indexfileSize + s.keyClusterSize L := by
    have hold : ∀ v w t, L.sectionTotalLen.get (L.bigFileEndTime.set (L.fileInfoTotalLen.set
        (L.indexFileTotalLen.set s.recordIndexBuffer 0 v) s.currBigFileCursor w) s.currBigFileCursor t)
        s.currSecCursor = L.sectionTotalLen.get s.recordIndexBuffer s.currSecCursor := fun v w t => by
      rw [Field.get_set_of_disjoint (.inr (by omega)), Field.get_set_of_disjoint (.inr (by omega)),
        Field.get_set_of_disjoint (.inr (by omega))]
    rw [addClusterSize, hsapart.get_set,
      Field.get_set_len hL.sectionTotalLen (by rw [hold]; omega), hold]
    omega
  -- where nothing is written
  have hagree : ∀ a b, L.sizeofIndexfileHeader ≤ a →
      (b ≤ s.currBigFileCursor ∨ s.currBigFileCursor + L.bigFileFixed ≤ a) →
      (b ≤ s.currSecCursor ∨ s.currSecCursor + L.sectionFixed ≤ a) → b ≤ s.indexfileSize →
      Agree s.recordIndexBuffer (s.addCluster L endTime).recordIndexBuffer a b :=
    fun a b ha hb hb' hn =>
      ((putCluster_agree hL (.inl hn)).trans (addClusterSize_agree hL ha hb hb')).symm
  have hput : ∀ (f : Field) (p : Nat), p + f.stop ≤ s.indexfileSize →
      f.get (s.addCluster L endTime).recordIndexBuffer p = f.get (s.addClusterSize L endTime) p :=
    fun f p hp => Field.get_agree (putCluster_agree hL (.inl hp)) (Nat.le_add_right p f.off)
      (Nat.le_refl _)
  obtain ⟨fs, hfs⟩ := h.bigFiles
  obtain ⟨ss, hss⟩ := h.sections
  obtain ⟨cs, hcs⟩ := h.clusters
  constructor
  case header => rw [hput _ _ (by omega), hlen]
  case bigFiles =>
    refine ⟨fs, hfs.mono fun r l hr hl hb => hb.agree hL ?_⟩
    exact hagree _ _ hr (.inl hl) (.inl (by omega)) (by omega)
  case bigFile => rw [hput _ _ (by omega), hflen]
  case sections =>
    refine ⟨ss, hss.mono fun r l hr hl hc => hc.agree hL ?_⟩
    exact hagree _ _ (by omega) (.inr hr) (.inl hl) (by omega)
  case lastSection => rw [hput _ _ (by omega), hslen]
  case clusters =>
    have hkeep := hcs.mono fun r l hr hl hc => hc.agree hL
      (hagree r (r + l) (by omega) (.inr (by omega)) (.inr hr) hl)
    refine ⟨cs ++ [s.keyClusterSize L], hkeep.snoc ⟨?_, ?_⟩⟩
    · exact putCluster_clusterTotalLen hL (by omega)
    · rw [keyClusterSize_eq hL]
      exact Nat.le_add_right _ _

end RecordIndexfile

end AllCamera
