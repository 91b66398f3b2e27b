import AllCamera.Lib.Field
import AllCamera.Record.RecvStream
import Mathlib.Logic.Function.Basic

/-!
# The index file of a camera's record (`CSVS_Record_Indexfile`)

For each hour there is an index file. It is held in a buffer, and the whole of it is written again at each
update. Behind its header lie big files, one for each record file; in a big file lie sections, and in a
section clusters, each with its key frames. All four begin with their length.

* `IndexFormat`: the layout of these structures, the digest, and the paths.
* `RecordIndexfile`: the members; `createIndexfile`, `parseIndexfile`, `updateKeyFrame`, `updateIndexfile`
  and `reset`.
* `bigFileWalk`, `pathWalk`: the loops of `parse_indexfile` and `parse_all_big_recordfile_path` over the big
  files. They end only if the lengths in the file let them.
* `step`: one call.

What the system calls return are arguments.
-/

namespace AllCamera

/-- `RECORD_INDEXFILE_BUF_MAX`. -/
def recordIndexfileBufMax : Nat := 128 * 1024

/-- A value as a `uint32_t`. -/
def toU32 (x : Int) : Nat := (x % 2 ^ 32).toNat

/-- A value as an `int32_t`. -/
def toI32 (x : Int) : Int := x.bmod (2 ^ 32)

/-- `KEYFRAME_INFO`. -/
structure KeyFrameInfo where
  fileOffset : UInt64
  timeTick : UInt32
  deriving DecidableEq, Repr

/-- The structures of an index file (their sizes and members), and what else is not given here: some
constants, the MD5 library, and how an index file is named after its time. -/
structure IndexFormat where
  sizeofIndexfileHeader : Nat
  sizeofBigfileInfo : Nat
  sizeofSectionInfo : Nat
  sizeofClusterInfo : Nat
  sizeofKeyframeInfo : Nat
  /-- of `SVS_INDEXFILE_HEADER` -/
  indexFileTotalLen : Field
  md5code : Field
  /-- of `SVS_BIGFILE_INFO` -/
  bigFileStartTime : Field
  bigFileEndTime : Field
  fileInfoTotalLen : Field
  filePath : Field
  metaDataPartedFlag : Field
  /-- of `SVS_BIGFILE_SECTION_INFO` -/
  sectionStartTime : Field
  sectionEndTime : Field
  fileOff : Field
  sectionTotalLen : Field
  /-- of `SVS_BIGFILECLUSTER_INFO` -/
  clusterTotalLen : Field
  keyFrameFlag : Field
  firstTimeTick : Field
  clusterFileOffset : Field
  keyFrameInfo : Nat
  keyFrameBytes : KeyFrameInfo → List UInt8
  indexfileHeaderStr : List UInt8
  magicDateLen : Nat
  md5CodeLen : Nat
  filePathLen : Nat
  metaDataParted : Nat
  metaDataDisparted : Nat
  timeSlice : Int
  md5 : List UInt8 → List UInt8
  indexfilePath : Int → String

namespace IndexFormat

variable (L : IndexFormat)

/-- What a big file has beside its sections, a section beside its clusters, and a cluster beside its key
frames. -/
def bigFileFixed : Nat := L.sizeofBigfileInfo - L.sizeofSectionInfo

def sectionFixed : Nat := L.sizeofSectionInfo - L.sizeofClusterInfo

def clusterFixed : Nat := L.sizeofClusterInfo - L.sizeofKeyframeInfo

/-- What the header leaves out of the digest. -/
def md5Skip : Nat := L.magicDateLen + L.md5CodeLen

end IndexFormat

/-- `memset` to 0 of the first `n` bytes. -/
def Memory.clear (m : Memory) (n : Nat) : Memory := fun i => if 0 ≤ i ∧ i < n then 0 else m i

/-- What `strncmp` compares: the text before the first zero byte, at most `n` bytes. -/
def strn (n : Nat) (l : List UInt8) : List UInt8 := (l.take n).takeWhile (· ≠ 0)

/-- `md5_decode` of an index file of `fileSize` bytes. -/
def md5Decode (L : IndexFormat) (m : Memory) (fileSize : Nat) : Bool :=
  let md5SrcLen := toU32 ((fileSize : Int) - L.md5Skip)
  if md5SrcLen = 0 then false
  else
    strn L.md5CodeLen (L.md5 (m.read L.md5Skip md5SrcLen)) =
      strn L.md5CodeLen (m.read L.md5code.off L.md5CodeLen)

/-- The loop of `parse_indexfile`: where the big files are that it comes to; none if it has not ended after
`fuel` tests. -/
def bigFileWalk (L : IndexFormat) (m : Memory) : Nat → Nat → Int → Option (List Nat)
  | 0, _, _ => none
  | fuel + 1, pos, fileSize =>
    if 0 < fileSize then
      let len := L.fileInfoTotalLen.get m pos
      (bigFileWalk L m fuel (pos + len) (toI32 (fileSize - toI32 len))).map (pos :: ·)
    else some []

/-! ## `parse_all_big_recordfile_path` -/

/-- The loop over the paths that are known, with its counter of 16 bits: whether `filePath` is one of them;
none if it has not ended after `fuel` tests. -/
def findPath (L : IndexFormat) (known : List (List UInt8)) (filePath : List UInt8) :
    Nat → UInt16 → Option Bool
  | 0, _ => none
  | fuel + 1, vectorLoop =>
    if vectorLoop.toNat < known.length then
      if strn L.filePathLen filePath = strn L.filePathLen (known.getD vectorLoop.toNat []) then
        some true
      else findPath L known filePath fuel (vectorLoop + 1)
    else some false

/-- `strlen` of what lies at `p`; `n + 1` if it is more than `n`. -/
def strlenUpTo (m : Memory) (p n : Nat) : Nat := ((m.read p (n + 1)).takeWhile (· ≠ 0)).length

/-- A big file that the loop comes to, and how many bytes of its path are copied. -/
structure PathVisit where
  pos : Nat
  copied : Nat
  deriving DecidableEq, Repr

/-- The loop of `parse_all_big_recordfile_path`; none if it has not ended after `fuel` tests. -/
def pathWalk (L : IndexFormat) (m : Memory) :
    Nat → List (List UInt8) → Nat → Int → Option (List PathVisit)
  | 0, _, _, _ => none
  | fuel + 1, known, pos, fileSize =>
    if 0 < fileSize then
      let filePath := m.read (pos + L.filePath.off : Nat) L.filePathLen
      let len := L.fileInfoTotalLen.get m pos
      let fileSize := toI32 (fileSize - toI32 len)
      (findPath L known filePath fuel 0).bind fun found =>
        if found then
          (pathWalk L m fuel known (pos + len) fileSize).map (⟨pos, 0⟩ :: ·)
        else
          let known := known ++ [strn L.filePathLen filePath]
          let copied := strlenUpTo m (pos + L.filePath.off) L.filePathLen
          (pathWalk L m fuel known (pos + len) fileSize).map (⟨pos, copied⟩ :: ·)
    else some []

/-! ## The members -/

/-- `CSVS_Record_Indexfile`, as to the index file. -/
structure RecordIndexfile where
  recordIndexBuffer : Memory
  indexFileOpenFlag : Bool
  strFilePath : String
  currBigFileCursor : Nat
  currSecCursor : Nat
  indexfileSize : Nat
  keyframeVec : List KeyFrameInfo
  clusterOffset : UInt64
  clusterNullFlag : Bool
  clusterStartTimetick : UInt32

/-- The index files by their paths. -/
abbrev IndexFiles := String → Option (List UInt8)

/-- What `make_dir`, `connect` and `read` return to `create_indexfile`. -/
structure CreateEnv where
  makeDir : Bool
  connect : Bool
  read : Bool
  deriving DecidableEq, Repr

/-- Whether `update_indexfile` gets the lock, and `write` writes the file. -/
structure UpdateEnv where
  locked : Bool
  written : Bool
  deriving DecidableEq, Repr

/-- What comes of `parse_indexfile`. -/
inductive ParseResult
  | failed (unlinked : Bool)
  | parsed (isNewBigFile : Bool) (currBigFileCursor : Nat)
  deriving DecidableEq, Repr

namespace RecordIndexfile

variable (L : IndexFormat) (s : RecordIndexfile)

/-- After the constructor; the memory is that of the buffer and around it. -/
def new (m : Memory) : RecordIndexfile where
  recordIndexBuffer := m.clear recordIndexfileBufMax
  indexFileOpenFlag := false
  strFilePath := ""
  currBigFileCursor := 0
  currSecCursor := 0
  indexfileSize := 0
  keyframeVec := []
  clusterOffset := 0
  clusterNullFlag := true
  clusterStartTimetick := 0

/-- `reset`. -/
def reset : RecordIndexfile :=
  { s with
    recordIndexBuffer := s.recordIndexBuffer.clear recordIndexfileBufMax
    strFilePath := ""
    currBigFileCursor := 0
    indexfileSize := 0
    clusterOffset := 0
    clusterNullFlag := true
    clusterStartTimetick := 0
    keyframeVec := []
    indexFileOpenFlag := false }

/-- `parse_indexfile`, when the file has been read; none if the loop does not end. Inside the buffer it has
ended after as many tests as the buffer has bytes. -/
def parseIndexfile (recordFilePath : List UInt8) : Option ParseResult :=
  let m := s.recordIndexBuffer
  if !md5Decode L m s.indexfileSize then some (.failed true)
  else
    let fileSize := toI32 ((s.indexfileSize : Int) - L.sizeofIndexfileHeader)
    (bigFileWalk L m (recordIndexfileBufMax + 1) L.sizeofIndexfileHeader fileSize).map fun visited =>
      match visited.getLast? with
      | none => .failed false
      | some pos =>
        if strn L.filePathLen (m.read (pos + L.filePath.off : Nat) L.filePathLen) =
            strn L.filePathLen recordFilePath then
          .parsed false pos
        else .parsed true s.indexfileSize

/-- The beginning of a new index file. -/
def newHeader : RecordIndexfile :=
  let m := s.recordIndexBuffer.write 0 L.indexfileHeaderStr
  { s with
    recordIndexBuffer := L.indexFileTotalLen.set m 0 L.sizeofIndexfileHeader
    currBigFileCursor := L.sizeofIndexfileHeader }

/-- A new big file at `curr_big_file_cursor_`. -/
def newBigFile (dataTime : Int) (recordFilePath : List UInt8) : RecordIndexfile :=
  let cursor := s.currBigFileCursor
  let m := L.bigFileStartTime.set s.recordIndexBuffer cursor (dataTime % 2 ^ 64).toNat
  let m := L.bigFileEndTime.set m cursor (dataTime % 2 ^ 64).toNat
  { s with recordIndexBuffer := m.write (cursor + L.filePath.off : Nat) recordFilePath }

/-- What another section adds to the lengths of the index file and of the big file. -/
def addLength (increaseLen : Nat) (medaDataPartedFlag : Bool) : Memory :=
  let cursor := s.currBigFileCursor
  let m := s.recordIndexBuffer
  let m := L.indexFileTotalLen.set m 0 (L.indexFileTotalLen.get m 0 + increaseLen)
  let m := L.fileInfoTotalLen.set m cursor (L.fileInfoTotalLen.get m cursor + increaseLen)
  L.metaDataPartedFlag.set m cursor
    (if medaDataPartedFlag then L.metaDataParted else L.metaDataDisparted)

/-- The fixed part of a section. -/
def putSection (m : Memory) (secCursor : Nat) (dataTime : Int) (recordFileSize : UInt64) : Memory :=
  let m := L.sectionStartTime.set m secCursor (dataTime % 2 ^ 64).toNat
  let m := L.sectionEndTime.set m secCursor (dataTime % 2 ^ 64).toNat
  let m := L.fileOff.set m secCursor recordFileSize.toNat
  L.sectionTotalLen.set m secCursor L.sectionFixed

/-- The end of `create_indexfile`: the index file gets another section. -/
def newSection (increaseLen : Nat) (dataTime : Int) (recordFileSize : UInt64) (medaDataPartedFlag : Bool) :
    RecordIndexfile :=
  let m := s.addLength L increaseLen medaDataPartedFlag
  let indexfileSize := toU32 (L.indexFileTotalLen.get m 0)
  let secCursor := toU32 ((indexfileSize : Int) - L.sectionFixed)
  { s with
    recordIndexBuffer := putSection L m secCursor dataTime recordFileSize
    indexfileSize
    currSecCursor := secCursor
    indexFileOpenFlag := true }

/-- A new index file. -/
def newIndexfile (dataTime : Int) (recordFilePath : List UInt8) : RecordIndexfile :=
  let s := (s.newHeader L).newBigFile L dataTime recordFilePath
  { s with recordIndexBuffer := L.fileInfoTotalLen.set s.recordIndexBuffer s.currBigFileCursor 0 }

/-- `create_indexfile` from where an index file has been read; none if `parse_indexfile` does not return. -/
def reopen (files : IndexFiles) (dataTime : Int) (recordFilePath : List UInt8) (recordFileSize : UInt64)
    (medaDataPartedFlag : Bool) : Option (IndexFiles × RecordIndexfile × Int32) :=
  (s.parseIndexfile L recordFilePath).map fun
    | .failed true => (Function.update files s.strFilePath none, s, svsResultFailure)
    | .failed false => (files, s, svsResultFailure)
    | .parsed true cursor =>
      let s := { s with currBigFileCursor := cursor }.newBigFile L dataTime recordFilePath
      let increaseLen := L.sizeofBigfileInfo - L.sizeofClusterInfo
      (files, s.newSection L increaseLen dataTime recordFileSize medaDataPartedFlag, svsResultOk)
    | .parsed false cursor =>
      let s := { s with currBigFileCursor := cursor }
      let increaseLen := L.sectionFixed
      (files, s.newSection L increaseLen dataTime recordFileSize medaDataPartedFlag, svsResultOk)

/-- `create_indexfile` from where the file is open. -/
def openIndexfile (e : CreateEnv) (files : IndexFiles) (dataTime : Int) (recordFilePath : List UInt8)
    (recordFileSize : UInt64) (medaDataPartedFlag : Bool) :
    Option (IndexFiles × RecordIndexfile × Int32) :=
  if s.indexfileSize = 0 then
    let s := s.newIndexfile L dataTime recordFilePath
    let increaseLen := L.sizeofBigfileInfo - L.sizeofClusterInfo
    some (files, s.newSection L increaseLen dataTime recordFileSize medaDataPartedFlag, svsResultOk)
  else if !e.read then some (files, s, svsResultFailure)
  else
    let content := ((files s.strFilePath).getD []).take s.indexfileSize
    { s with recordIndexBuffer := s.recordIndexBuffer.write 0 content }.reopen L files dataTime
      recordFilePath recordFileSize medaDataPartedFlag

/-- `create_indexfile`. -/
def createIndexfile (e : CreateEnv) (files : IndexFiles) (dataTime : Int)
    (recordFilePath : Option (List UInt8)) (recordFileSize : UInt64) (medaDataPartedFlag : Bool) :
    Option (IndexFiles × RecordIndexfile × Int32) :=
  match recordFilePath with
  | none => some (files, s, svsResultFailure)
  | some recordFilePath =>
    let s := s.reset
    if !e.makeDir then some (files, s, svsResultFailure)
    else
      let path := L.indexfilePath (dataTime - dataTime.tmod L.timeSlice)
      let size := toU32 ((files path).getD []).length
      let s := { s with strFilePath := path, indexfileSize := size }
      if 0 < size ∧ recordIndexfileBufMax < size + L.sizeofBigfileInfo + L.sizeofIndexfileHeader then
        some (files, s, svsResultFailure)
      else if !e.connect then some (files, s, svsResultFailure)
      else
        -- `O_CREAT`
        let files := Function.update files path (some ((files path).getD []))
        s.openIndexfile L e files dataTime recordFilePath recordFileSize medaDataPartedFlag

/-- `update_key_frame` of a vector with a first element; the counter has 8 bits. -/
def updateKeyFrame (first : KeyFrameInfo) (rest : List KeyFrameInfo) : RecordIndexfile :=
  let keyFrameSize := (rest.length + 1) % 256
  let s :=
    if s.clusterNullFlag then
      { s with
        clusterOffset := first.fileOffset
        clusterStartTimetick := first.timeTick
        clusterNullFlag := false }
    else s
  { s with keyframeVec := s.keyframeVec ++ rest.take (keyFrameSize - 1) }

/-- `keyFrameCount` of `update_indexfile`, in 8 bits, and the size of the cluster. -/
def keyFrameCount : Nat := s.keyframeVec.length % 256

def keyClusterSize : Nat :=
  toU32 (L.sizeofClusterInfo + ((s.keyFrameCount : Int) - 1) * L.sizeofKeyframeInfo)

/-- What another cluster adds to the lengths of the index file, the big file and the section. -/
def addClusterSize (endTime : Int) : Memory :=
  let m := s.recordIndexBuffer
  let m := L.indexFileTotalLen.set m 0 (s.indexfileSize + s.keyClusterSize L)
  let cursor := s.currBigFileCursor
  let m := L.fileInfoTotalLen.set m cursor (L.fileInfoTotalLen.get m cursor + s.keyClusterSize L)
  let m := L.bigFileEndTime.set m cursor (endTime % 2 ^ 64).toNat
  let secCursor := s.currSecCursor
  let m := L.sectionTotalLen.set m secCursor (L.sectionTotalLen.get m secCursor + s.keyClusterSize L)
  L.sectionEndTime.set m secCursor (endTime % 2 ^ 64).toNat

/-- The cluster. -/
def putCluster (m : Memory) : Memory :=
  let pos := s.indexfileSize
  let m := L.clusterTotalLen.set m pos (s.keyClusterSize L)
  let m := L.keyFrameFlag.set m pos (if 0 < s.keyFrameCount then 1 else 0)
  let m := L.firstTimeTick.set m pos s.clusterStartTimetick.toNat
  let m := L.clusterFileOffset.set m pos s.clusterOffset.toNat
  m.write (pos + L.keyFrameInfo : Nat) ((s.keyframeVec.take s.keyFrameCount).flatMap L.keyFrameBytes)

/-- `update_indexfile` as to the buffer: the cluster is put at the end. -/
def addCluster (endTime : Int) : RecordIndexfile :=
  { s with
    recordIndexBuffer := s.putCluster L (s.addClusterSize L endTime)
    indexfileSize := toU32 (s.indexfileSize + s.keyClusterSize L) }

/-- The digest is put into the header; none if there is nothing to digest. -/
def encode : Option RecordIndexfile :=
  let md5SrcLen := toU32 ((s.indexfileSize : Int) - L.md5Skip)
  if md5SrcLen = 0 then none
  else
    let md5Temp := L.md5 (s.recordIndexBuffer.read L.md5Skip md5SrcLen)
    some { s with recordIndexBuffer := s.recordIndexBuffer.write L.md5code.off md5Temp }

/-- The index file is written from its beginning. -/
def writeFile (e : UpdateEnv) (files : IndexFiles) : IndexFiles :=
  if e.locked && e.written then
    Function.update files s.strFilePath
      (some (s.recordIndexBuffer.read 0 s.indexfileSize ++
        ((files s.strFilePath).getD []).drop s.indexfileSize))
  else files

/-- The end of `update_indexfile`. -/
def clearCluster : RecordIndexfile :=
  { s with
    clusterOffset := 0
    clusterNullFlag := true
    clusterStartTimetick := 0
    keyframeVec := [] }

/-- `update_indexfile`. -/
def updateIndexfile (e : UpdateEnv) (files : IndexFiles) (endTime : Int) :
    IndexFiles × RecordIndexfile × Int32 :=
  if s.clusterNullFlag ∨ endTime = 0 then (files, s, svsResultOk)
  else if !s.indexFileOpenFlag then (files, s, svsResultFailure)
  else if recordIndexfileBufMax < toU32 (s.indexfileSize + s.keyClusterSize L) then
    (files, s, svsResultFailure)
  else
    let s := s.addCluster L endTime
    match s.encode L with
    | none => (files, s.clearCluster, svsResultOk)
    | some s => (s.writeFile e files, s.clearCluster, svsResultOk)

end RecordIndexfile

/-! ## Runs -/

/-- The index files, the object, and whether a call has not returned. -/
structure IndexRun where
  files : IndexFiles
  index : RecordIndexfile
  hangs : Bool

/-- A call. -/
inductive IndexAct
  | create (e : CreateEnv) (dataTime : Int) (recordFilePath : Option (List UInt8)) (recordFileSize : UInt64)
      (medaDataPartedFlag : Bool)
  | updateKeyFrame (first : KeyFrameInfo) (rest : List KeyFrameInfo)
  | update (e : UpdateEnv) (endTime : Int)
  | close

namespace IndexRun

/-- There are no files yet. -/
def init (m : Memory) : IndexRun := ⟨fun _ => none, .new m, false⟩

/-- The state after a call. -/
def step (L : IndexFormat) (s : IndexRun) : IndexAct → IndexRun
  | .create e dataTime recordFilePath recordFileSize medaDataPartedFlag =>
    match s.index.createIndexfile L e s.files dataTime recordFilePath recordFileSize
        medaDataPartedFlag with
    | none => { s with hangs := true }
    | some (files, index, _) => { s with files, index }
  | .updateKeyFrame first rest => { s with index := s.index.updateKeyFrame first rest }
  | .update e endTime =>
    let (files, index, _) := s.index.updateIndexfile L e s.files endTime
    { s with files, index }
  | .close => { s with index := s.index.reset }

end IndexRun

end AllCamera
