import AllCamera.Record.RecordIndex
import Mathlib.Data.List.Perm.Subperm

/-!
# The key frames of a block (`parse_key_frame`)

When a block has been written, its frames are gone over once more. The key frames, at most one of each second,
are collected with their places in the record file and passed to the index file. At a frame that the index
list names, what has been collected is passed and the index file is written; at one that the index break list
names, it is also closed, and another one is created.

* `KeyFrameIndex`: the index file as to its key frames; what becomes of them in it is in `RecordIndex`.
* `KeyFrameParser`: the variables and members; `parseFrame`, `parseKeyFrame`.
* `Splits`: the key frames are in the index files of their frames; `KeepsApart`: the condition.
* `KeyFrameBlock.splits_iff`.
-/

namespace AllCamera

open Run

/-- A `KEYFRAME_INFO`. For the statements, there is the number of its frame. -/
structure KeyFrame where
  frame : Nat
  info : KeyFrameInfo
  deriving DecidableEq, Repr

/-- `SVS_Media_Index`, of an index break. -/
structure IndexBreak where
  lastIndexRecvTime : Int
  newIndexFrameID : UInt32
  newIndexRecvTime : Int
  deriving DecidableEq, Repr

/-- What comes of `update_indexfile` when there is a cluster: it finds no room in the buffer, or the buffer is
not written to the file, or it is. -/
inductive IndexUpdate
  | noRoom
  | notWritten
  | written
  deriving DecidableEq, Repr

/-- A frame in a block, of its headers; `bKeyFrame` is whether it is 1. What comes of the calls at this frame:
`update_indexfile` for the index list and for an index break, and whether `create_indexfile` succeeds. -/
structure MediaFrame where
  frameID : UInt32
  bKeyFrame : Bool
  nTimeTick : UInt32
  nAdjustFrameSize : UInt32
  listUpdate : IndexUpdate
  breakUpdate : IndexUpdate
  created : Bool
  deriving DecidableEq, Repr

/-- What a loop with a counter of 8 bits goes over. -/
def counted (l : List KeyFrame) : List KeyFrame := l.take (l.length % 256)

/-- `m_RecordIndexFile`, as to key frames: those of the next cluster, and those that are in its buffer and not
in the file. For the statements, there are the files that were created for this block, each with the frame and
the place at which it begins, and the key frames that were written, each with how many files there were then. -/
structure KeyFrameIndex where
  indexFileOpenFlag : Bool
  recordFileSize : UInt64
  keyframeVec : List KeyFrame
  buffered : List KeyFrame
  starts : List (Nat × UInt64)
  written : List (Nat × KeyFrame)
  deriving DecidableEq, Repr

namespace KeyFrameIndex

/-- `update_key_frame`; the first element is the beginning of a cluster. -/
def updateKeyFrame (x : KeyFrameIndex) (keyFrameVec : List KeyFrame) : KeyFrameIndex :=
  { x with keyframeVec := x.keyframeVec ++ (counted keyFrameVec).tail }

/-- `update_indexfile` puts a cluster into the buffer. -/
def Updates (x : KeyFrameIndex) (update : IndexUpdate) (endTime : Int) : Prop :=
  endTime ≠ 0 ∧ x.indexFileOpenFlag = true ∧ update ≠ .noRoom

instance (x : KeyFrameIndex) (update : IndexUpdate) (endTime : Int) :
    Decidable (x.Updates update endTime) :=
  inferInstanceAs (Decidable (_ ∧ _ ∧ _))

/-- `update_indexfile`, after `update_key_frame`. -/
def updateIndexfile (x : KeyFrameIndex) (update : IndexUpdate) (endTime : Int) : KeyFrameIndex :=
  if x.Updates update endTime then
    let x := { x with buffered := x.buffered ++ counted x.keyframeVec, keyframeVec := [] }
    if update = .written then
      { x with written := x.written ++ x.buffered.map (x.starts.length, ·), buffered := [] }
    else x
  else x

/-- `close`. -/
def close (x : KeyFrameIndex) : KeyFrameIndex :=
  { x with indexFileOpenFlag := false, recordFileSize := 0, keyframeVec := [], buffered := [] }

/-- `create_indexfile` at a frame; it closes the file first. -/
def createIndexfile (x : KeyFrameIndex) (frame : Nat) (fileSize : UInt64) (created : Bool) :
    KeyFrameIndex :=
  if created then
    { x.close with indexFileOpenFlag := true, starts := x.starts ++ [(frame, fileSize)] }
  else x.close

end KeyFrameIndex

/-- The variables of `parse_key_frame`, whether it has returned from its loop, and the members. A list that is
not there is empty. `localIndexes` are the calls of `updateLocalIndex`: whether there is a name, and the times.
For the statements, there are the number of the frame, the key frames that were found, and the frames that an
index break names, each with its place in the record file. -/
structure KeyFrameParser where
  ulChangeDiskFlag : Bool
  currKeyFrameTime : UInt32
  recordFileSize : UInt64
  bInsertClusterOffset : Bool
  keyFrameVec : List KeyFrame
  ulIFrameNum : UInt32
  returned : Bool
  indexList : List MediaIndex
  indexBreakList : List IndexBreak
  firstWriteRecordTime : Int
  lastWriteRecordTime : Int
  localIndexes : List (Bool × Int × Int)
  index : KeyFrameIndex
  frame : Nat
  found : List KeyFrame
  named : List (Nat × UInt64)
  deriving DecidableEq, Repr

namespace KeyFrameParser

variable (s : KeyFrameParser) (f : MediaFrame)

/-- An index break names the frame. -/
def Names : Prop := ∃ mediaIndex ∈ s.indexBreakList, mediaIndex.newIndexFrameID = f.frameID

instance : Decidable (s.Names f) := inferInstanceAs (Decidable (∃ mediaIndex ∈ s.indexBreakList, _))

/-- The frame is a key frame of another second. -/
def Finds : Prop := f.bKeyFrame = true ∧ s.currKeyFrameTime < f.nTimeTick / 1000

instance : Decidable (s.Finds f) := inferInstanceAs (Decidable (_ ∧ _))

/-- The place of the frame, as an element of the vector. -/
def keyFrameInfo : KeyFrame := ⟨s.frame, s.recordFileSize, f.nTimeTick⟩

/-- The frame gets its number. -/
def nameFrame : KeyFrameParser :=
  { s with named := if s.Names f then s.named ++ [(s.frame, s.recordFileSize)] else s.named }

/-- The beginning of a cluster. -/
def insertClusterOffset : KeyFrameParser :=
  if s.bInsertClusterOffset then
    { s with keyFrameVec := s.keyFrameVec ++ [s.keyFrameInfo f], bInsertClusterOffset := false }
  else s

/-- A key frame. -/
def addKeyFrame : KeyFrameParser :=
  let ulIFrameNum := if f.bKeyFrame then s.ulIFrameNum + 1 else s.ulIFrameNum
  if s.Finds f then
    { s with
      currKeyFrameTime := f.nTimeTick / 1000
      keyFrameVec := s.keyFrameVec ++ [s.keyFrameInfo f]
      found := s.found ++ [s.keyFrameInfo f]
      ulIFrameNum }
  else { s with ulIFrameNum }

/-- The loop of `parse_key_frame` up to where the size of the record file is brought up to date. -/
def takeFrame : KeyFrameParser :=
  let s := ((s.nameFrame f).insertClusterOffset f).addKeyFrame f
  { s with recordFileSize := s.recordFileSize + f.nAdjustFrameSize.toUInt64 }

/-- `update_db_record_index`. -/
def updateDbRecordIndex (hasName : Bool) : KeyFrameParser :=
  { s with localIndexes := s.localIndexes ++ [(hasName, s.firstWriteRecordTime, s.lastWriteRecordTime)] }

/-- What has been collected is passed to the index file, and that is written. -/
def passKeyFrames (update : IndexUpdate) (lastIndexRecvTime : Int) : KeyFrameParser :=
  { s with
    index := (s.index.updateKeyFrame s.keyFrameVec).updateIndexfile update lastIndexRecvTime
    keyFrameVec := []
    lastWriteRecordTime := lastIndexRecvTime }

/-- The part of the loop for the index list. -/
def parseIndexList : KeyFrameParser :=
  match s.indexList with
  | [] => s
  | mediaIndex :: rest =>
    if f.frameID = mediaIndex.lastIndexFrameID then
      let s := s.passKeyFrames f.listUpdate mediaIndex.lastIndexRecvTime
      let s := s.updateDbRecordIndex true
      { s with ulChangeDiskFlag := false, indexList := rest, bInsertClusterOffset := true }
    else s

/-- The end time for the old index file. -/
def breakTime (mediaIndex : IndexBreak) : Int :=
  if mediaIndex.lastIndexRecvTime = 0 then s.lastWriteRecordTime else mediaIndex.lastIndexRecvTime

/-- `parse_index_seg`, and what the loop does with its result. -/
def parseIndexSeg : KeyFrameParser :=
  match s.indexBreakList with
  | [] => s
  | mediaIndex :: rest =>
    if f.frameID = mediaIndex.newIndexFrameID then
      let lastIndexRecvTime := s.breakTime mediaIndex
      let s := s.passKeyFrames f.breakUpdate lastIndexRecvTime
      let s := s.updateDbRecordIndex true
      let s := if s.ulChangeDiskFlag then { s.updateDbRecordIndex true with ulChangeDiskFlag := false } else s
      let s := s.updateDbRecordIndex false
      let fileSize := s.recordFileSize - f.nAdjustFrameSize.toUInt64
      let index := s.index.close.createIndexfile s.frame fileSize f.created
      if !f.created then
        { s with index, returned := true, indexBreakList := { mediaIndex with lastIndexRecvTime } :: rest }
      else
        let s :=
          { s with
            index := { index with recordFileSize := fileSize }
            firstWriteRecordTime := mediaIndex.newIndexRecvTime
            lastWriteRecordTime := mediaIndex.newIndexRecvTime }
        let s := s.updateDbRecordIndex true
        { s with indexBreakList := rest, bInsertClusterOffset := true }
    else s

/-- The loop, for a frame. -/
def parseFrame : KeyFrameParser :=
  if s.returned then s
  else
    let s := ((s.takeFrame f).parseIndexList f).parseIndexSeg f
    { s with frame := s.frame + 1 }

/-- `parse_key_frame` after its loop. -/
def finish (lastFrameRecvTime : Int) : KeyFrameParser :=
  if s.returned then s
  else
    let s :=
      if s.keyFrameVec ≠ [] then { s with index := s.index.updateKeyFrame s.keyFrameVec, keyFrameVec := [] } else s
    let s := { s with lastWriteRecordTime := lastFrameRecvTime }
    let s := if s.ulChangeDiskFlag then { s.updateDbRecordIndex true with ulChangeDiskFlag := false } else s
    { s with index := { s.index with recordFileSize := s.recordFileSize } }

end KeyFrameParser

/-- Key frames get numbers from `n` on. -/
def number (n : Nat) (l : List KeyFrameInfo) : List KeyFrame := (l.zipIdx n).map fun p => ⟨p.2, p.1⟩

/-- What `parse_key_frame` reads of the egress and the block. The key frames of earlier blocks that are not
in the index file yet are in its buffer, or not even there. -/
structure KeyFrameBlock where
  ulChangeDisk : Bool
  indexFileOpenFlag : Bool
  recordFileSize : UInt64
  buffered : List KeyFrameInfo
  keyframeVec : List KeyFrameInfo
  firstWriteRecordTime : Int
  lastWriteRecordTime : Int
  indexList : List MediaIndex
  indexBreakList : List IndexBreak
  frames : List MediaFrame
  lastFrameRecvTime : Int
  deriving DecidableEq, Repr

namespace KeyFrameBlock

variable (block : KeyFrameBlock)

/-- The index file before the loop. -/
def index : KeyFrameIndex where
  indexFileOpenFlag := block.indexFileOpenFlag
  recordFileSize := block.recordFileSize
  keyframeVec := number block.buffered.length block.keyframeVec
  buffered := number 0 block.buffered
  starts := []
  written := []

/-- Before the loop. The frames get numbers behind the earlier ones. -/
def start : KeyFrameParser where
  ulChangeDiskFlag := block.ulChangeDisk
  currKeyFrameTime := 0
  recordFileSize := block.recordFileSize
  bInsertClusterOffset := true
  keyFrameVec := []
  ulIFrameNum := 0
  returned := false
  indexList := block.indexList
  indexBreakList := block.indexBreakList
  firstWriteRecordTime := block.firstWriteRecordTime
  lastWriteRecordTime := block.lastWriteRecordTime
  localIndexes := []
  index := block.index
  frame := block.buffered.length + block.keyframeVec.length
  found := number 0 (block.buffered ++ block.keyframeVec)
  named := []

/-- `parse_key_frame`. -/
def parseKeyFrame : KeyFrameParser :=
  (run KeyFrameParser.parseFrame block.start block.frames).finish block.lastFrameRecvTime

end KeyFrameBlock

/-! ## What is counted and numbered -/

section

variable {l : List KeyFrame}

theorem counted_sublist (l : List KeyFrame) : (counted l).Sublist l := List.take_sublist _ _

theorem length_counted (l : List KeyFrame) : (counted l).length = l.length % 256 := by
  rw [counted, List.length_take]
  exact Nat.min_eq_left (Nat.mod_le _ _)

theorem counted_eq (h : l.length < 256) : counted l = l := by
  rw [counted, Nat.mod_eq_of_lt h, List.take_length]

/-- The vector passes its elements behind the first one, and what has been passed goes into a cluster. -/
theorem cluster_sublist (old vec : List KeyFrame) :
    (counted (old ++ (counted vec).tail)).Sublist (old ++ vec.tail) :=
  (counted_sublist _).trans ((List.Sublist.refl old).append (counted_sublist vec).tail)

theorem cluster_eq_iff (old vec : List KeyFrame) :
    counted (old ++ (counted vec).tail) = old ++ vec.tail ↔
      vec.length < 256 ∧ (old ++ vec.tail).length < 256 := by
  constructor
  · intro h
    have hlen := congrArg List.length h
    have hvec := length_counted vec
    simp only [length_counted, List.length_append, List.length_tail] at hlen ⊢
    omega
  · rintro ⟨hvec, hall⟩
    rw [counted_eq hvec, counted_eq hall]

theorem collected_eq_iff (old vec : List KeyFrame) :
    old ++ (counted vec).tail = old ++ vec.tail ↔ vec.length < 256 := by
  constructor
  · intro h
    have hlen := congrArg List.length h
    have hvec := length_counted vec
    simp only [List.length_append, List.length_tail] at hlen
    omega
  · intro hvec
    rw [counted_eq hvec]

theorem number_append (n : Nat) (l l' : List KeyFrameInfo) :
    number n (l ++ l') = number n l ++ number (n + l.length) l' := by
  simp [number, List.zipIdx_append]

theorem number_frames (n : Nat) (l : List KeyFrameInfo) :
    (number n l).map KeyFrame.frame = List.range' n l.length := by
  rw [number, List.map_map, ← List.zipIdx_map_snd]
  rfl

theorem number_lt {n : Nat} {l : List KeyFrameInfo} {k : KeyFrame} (hk : k ∈ number n l) :
    k.frame < n + l.length := by
  have hmem := List.mem_map_of_mem (f := KeyFrame.frame) hk
  rw [number_frames] at hmem
  have hlt := (List.mem_range'_1.mp hmem).2
  exact hlt

theorem number_sorted (n : Nat) (l : List KeyFrameInfo) :
    (number n l).Pairwise fun k k' => k.frame < k'.frame := by
  have hrange : (List.range' n l.length).Pairwise (· < ·) := List.pairwise_lt_range'
  rw [← number_frames] at hrange
  exact List.pairwise_map.mp hrange

end

/-! ## Which key frames are where -/

/-- How many index files begin up to a frame: the key frame of this frame belongs in the last one. -/
def fileOf (starts : List (Nat × UInt64)) (frame : Nat) : Nat := starts.countP fun p => p.1 ≤ frame

/-- The key frames are in the index files of their frames: written, or still waiting for the one that is
open. -/
def InPlace (starts : List (Nat × UInt64)) (found : List KeyFrame) (written : List (Nat × KeyFrame))
    (waiting : List KeyFrame) : Prop :=
  ∀ k ∈ found, (fileOf starts k.frame, k) ∈ written ∨ fileOf starts k.frame = starts.length ∧ k ∈ waiting

section

variable {starts : List (Nat × UInt64)} {found waiting : List KeyFrame} {written : List (Nat × KeyFrame)}
  {k : KeyFrame} {n : Nat} {offset : UInt64}

theorem fileOf_eq (h : ∀ p ∈ starts, p.1 ≤ n) : fileOf starts n = starts.length :=
  List.countP_eq_length.mpr fun p hp => decide_eq_true (h p hp)

/-- A file that begins at `n` does not count for the frames before. -/
theorem fileOf_append (starts : List (Nat × UInt64)) (n : Nat) (offset : UInt64) (frame : Nat) :
    fileOf (starts ++ [(n, offset)]) frame = fileOf starts frame + if n ≤ frame then 1 else 0 := by
  unfold fileOf
  rw [List.countP_append, List.countP_singleton]
  simp

/-- Another key frame is found. -/
theorem inPlace_found (hlt : ∀ k' ∈ found, k'.frame < k.frame) (hstarts : ∀ p ∈ starts, p.1 ≤ k.frame) :
    InPlace starts (found ++ [k]) written (waiting ++ [k]) ↔ InPlace starts found written waiting := by
  constructor
  · intro h k' hk'
    rcases h k' (List.mem_append_left _ hk') with hw | ⟨hfile, hwait⟩
    · exact .inl hw
    · rcases List.mem_append.mp hwait with hwait | hself
      · exact .inr ⟨hfile, hwait⟩
      · have hlt' := hlt k' hk'
        rw [List.mem_singleton.mp hself] at hlt'
        omega
  · intro h k' hk'
    rcases List.mem_append.mp hk' with hk' | hself
    · rcases h k' hk' with hw | ⟨hfile, hwait⟩
      · exact .inl hw
      · exact .inr ⟨hfile, List.mem_append_left _ hwait⟩
    · rw [List.mem_singleton.mp hself]
      exact .inr ⟨fileOf_eq hstarts, List.mem_append_right _ (List.mem_singleton_self k)⟩

/-- What waits is written. -/
theorem inPlace_written : InPlace starts found (written ++ waiting.map (starts.length, ·)) [] ↔
    InPlace starts found written waiting := by
  refine forall₂_congr fun k' _ => ?_
  simp only [List.mem_append, List.mem_map, Prod.mk.injEq, exists_eq_right_right, List.not_mem_nil, and_false,
    or_false]
  constructor
  · rintro (hw | ⟨hwait, hfile⟩)
    · exact .inl hw
    · exact .inr ⟨hfile.symm, hwait⟩
  · rintro (hw | ⟨hfile, hwait⟩)
    · exact .inl hw
    · exact .inr ⟨hwait, hfile.symm⟩

/-- Of what waits, nothing may be lost. -/
theorem inPlace_lost {kept : List KeyFrame} (hkept : kept.Sublist waiting) (hfound : ∀ k ∈ waiting, k ∈ found)
    (hsorted : waiting.Pairwise fun k k' => k.frame < k'.frame)
    (horder : ∀ w ∈ written, ∀ k ∈ waiting, w.2.frame < k.frame) :
    InPlace starts found written kept ↔ InPlace starts found written waiting ∧ kept = waiting := by
  constructor
  · intro h
    have hsub : waiting ⊆ kept := by
      intro k hk
      rcases h k (hfound k hk) with hw | ⟨-, hk'⟩
      · exact absurd (horder _ hw k hk) (Nat.lt_irrefl _)
      · exact hk'
    have hnodup : waiting.Nodup := hsorted.imp fun hlt heq => Nat.ne_of_lt hlt (congrArg KeyFrame.frame heq)
    have heq : kept = waiting := hkept.eq_of_length_le (hnodup.subperm hsub).length_le
    exact ⟨heq ▸ h, heq⟩
  · rintro ⟨h, rfl⟩
    exact h

/-- Another file begins at the last frame: nothing may wait, and no key frame may be of this frame. -/
theorem inPlace_start (hstarts : ∀ p ∈ starts, p.1 < n) (hfound : ∀ k ∈ found, k.frame ≤ n)
    (hwaiting : ∀ k ∈ waiting, k ∈ found) (hwritten : ∀ w ∈ written, w.1 ≤ starts.length)
    (horder : ∀ w ∈ written, ∀ k ∈ waiting, w.2.frame < k.frame) :
    InPlace (starts ++ [(n, offset)]) found written [] ↔
      InPlace starts found written waiting ∧ waiting = [] ∧ ∀ k ∈ found, k.frame ≠ n := by
  constructor
  · intro h
    have hw : ∀ k ∈ found, (fileOf (starts ++ [(n, offset)]) k.frame, k) ∈ written :=
      fun k hk => (h k hk).resolve_right fun hno => List.not_mem_nil hno.2
    -- the number of the new file is more than any that was written
    have hne : ∀ k ∈ found, k.frame ≠ n := by
      intro k hk hkn
      have hle := hwritten _ (hw k hk)
      have hall : fileOf starts k.frame = starts.length :=
        fileOf_eq fun p hp => Nat.le_of_lt (hkn ▸ hstarts p hp)
      rw [fileOf_append, if_pos (Nat.le_of_eq hkn.symm), hall] at hle
      dsimp only at hle
      omega
    have hsame : ∀ k ∈ found, fileOf (starts ++ [(n, offset)]) k.frame = fileOf starts k.frame := by
      intro k hk
      have hle := hfound k hk
      have hkn := hne k hk
      rw [fileOf_append, if_neg (by omega), Nat.add_zero]
    refine ⟨fun k hk => .inl (hsame k hk ▸ hw k hk), ?_, hne⟩
    refine List.eq_nil_iff_forall_not_mem.mpr fun k hk => ?_
    exact Nat.lt_irrefl _ (horder _ (hw k (hwaiting k hk)) k hk)
  · rintro ⟨h, rfl, hne⟩ k hk
    have hle := hfound k hk
    have hkn := hne k hk
    rw [fileOf_append, if_neg (by omega), Nat.add_zero]
    exact (h k hk).imp id fun hno => absurd hno.2 List.not_mem_nil

end

namespace KeyFrameParser

variable {s : KeyFrameParser} {f : MediaFrame} {m : Nat}

/-- The key frames that are not in the index file yet. -/
def waiting (s : KeyFrameParser) : List KeyFrame :=
  s.index.buffered ++ (s.index.keyframeVec ++ s.keyFrameVec.tail)

/-- The key frames are in the index files of their frames, and the vector can still be passed. -/
structure Kept (s : KeyFrameParser) : Prop where
  inPlace : InPlace s.index.starts s.found s.index.written s.waiting
  vector : s.keyFrameVec.length < 256

/-- And each frame that an index break names begins an index file at its place. -/
structure Splits (s : KeyFrameParser) : Prop extends s.Kept where
  named : ∀ p ∈ s.named, p ∈ s.index.starts

/-- If the vector is passed and the file is updated, the cluster can be counted. -/
def Fits (s : KeyFrameParser) (update : IndexUpdate) (endTime : Int) : Prop :=
  s.index.Updates update endTime → (s.index.keyframeVec ++ s.keyFrameVec.tail).length < 256

instance (s : KeyFrameParser) (update : IndexUpdate) (endTime : Int) : Decidable (s.Fits update endTime) :=
  inferInstanceAs (Decidable (_ → _))

/-- The same at the index list. -/
def ListFits (s : KeyFrameParser) (f : MediaFrame) : Prop :=
  ∀ mediaIndex ∈ s.indexList.head?, f.frameID = mediaIndex.lastIndexFrameID →
    s.Fits f.listUpdate mediaIndex.lastIndexRecvTime

instance (s : KeyFrameParser) (f : MediaFrame) : Decidable (s.ListFits f) :=
  inferInstanceAs (Decidable (∀ mediaIndex ∈ s.indexList.head?, _))

/-- `update_indexfile` writes the file. -/
def Writes (s : KeyFrameParser) (update : IndexUpdate) (endTime : Int) : Prop :=
  update = .written ∧ s.index.Updates update endTime

instance (s : KeyFrameParser) (update : IndexUpdate) (endTime : Int) : Decidable (s.Writes update endTime) :=
  inferInstanceAs (Decidable (_ ∧ _))

/-- With the first index break that is left, the old index file gets what waits for it, and another one can be
created. -/
def Breaks (s : KeyFrameParser) (f : MediaFrame) : Prop :=
  ∃ mediaIndex ∈ s.indexBreakList.head?, f.frameID = mediaIndex.newIndexFrameID ∧ f.created = true ∧
    s.Fits f.breakUpdate (s.breakTime mediaIndex) ∧
    (s.waiting = [] ∨ s.Writes f.breakUpdate (s.breakTime mediaIndex))

instance (s : KeyFrameParser) (f : MediaFrame) : Decidable (s.Breaks f) :=
  inferInstanceAs (Decidable (∃ mediaIndex ∈ s.indexBreakList.head?, _))

/-- What has been collected can be counted. If an index break names the frame, it is the first one that is
left, the frame is not found as a key frame, and the old index file gets what waits for it. -/
def KeepsApart (s : KeyFrameParser) (f : MediaFrame) : Prop :=
  (s.takeFrame f).keyFrameVec.length < 256 ∧ (s.takeFrame f).ListFits f ∧
    (s.Names f → ¬ s.Finds f ∧ ((s.takeFrame f).parseIndexList f).Breaks f)

instance (s : KeyFrameParser) (f : MediaFrame) : Decidable (s.KeepsApart f) :=
  inferInstanceAs (Decidable (_ ∧ _ ∧ _))

/-- What holds of the numbers below `m` in every state. -/
structure Tracks (m : Nat) (s : KeyFrameParser) : Prop where
  found : ∀ k ∈ s.found, k.frame < m
  waiting : ∀ k ∈ s.waiting, k ∈ s.found
  sorted : s.waiting.Pairwise fun k k' => k.frame < k'.frame
  starts : ∀ p ∈ s.index.starts, p.1 < m
  named : ∀ p ∈ s.named, p.1 < m
  written : ∀ w ∈ s.index.written, w.1 ≤ s.index.starts.length ∧ w.2.frame < m
  order : ∀ w ∈ s.index.written, ∀ k ∈ s.waiting, w.2.frame < k.frame

/-! ## A frame is taken -/

theorem nameFrame_eq (s : KeyFrameParser) (f : MediaFrame) : s.nameFrame f =
    { s with named := s.named ++ if s.Names f then [(s.frame, s.recordFileSize)] else [] } := by
  unfold nameFrame
  split <;> simp

theorem insertClusterOffset_eq (s : KeyFrameParser) (f : MediaFrame) : s.insertClusterOffset f =
    { s with
      keyFrameVec := s.keyFrameVec ++ if s.bInsertClusterOffset then [s.keyFrameInfo f] else []
      bInsertClusterOffset := false } := by
  cases s
  unfold insertClusterOffset
  split <;> simp_all

theorem addKeyFrame_eq (s : KeyFrameParser) (f : MediaFrame) : s.addKeyFrame f =
    { s with
      currKeyFrameTime := if s.Finds f then f.nTimeTick / 1000 else s.currKeyFrameTime
      keyFrameVec := s.keyFrameVec ++ if s.Finds f then [s.keyFrameInfo f] else []
      ulIFrameNum := if f.bKeyFrame then s.ulIFrameNum + 1 else s.ulIFrameNum
      found := s.found ++ if s.Finds f then [s.keyFrameInfo f] else [] } := by
  unfold addKeyFrame
  by_cases hfinds : s.Finds f <;> simp [hfinds]

/-- What becomes of the members when a frame is taken. -/
theorem takeFrame_eq (s : KeyFrameParser) (f : MediaFrame) : s.takeFrame f =
    { s with
      currKeyFrameTime := if s.Finds f then f.nTimeTick / 1000 else s.currKeyFrameTime
      recordFileSize := s.recordFileSize + f.nAdjustFrameSize.toUInt64
      bInsertClusterOffset := false
      keyFrameVec := s.keyFrameVec ++ (if s.bInsertClusterOffset then [s.keyFrameInfo f] else []) ++
        (if s.Finds f then [s.keyFrameInfo f] else [])
      ulIFrameNum := if f.bKeyFrame then s.ulIFrameNum + 1 else s.ulIFrameNum
      found := s.found ++ (if s.Finds f then [s.keyFrameInfo f] else [])
      named := s.named ++ (if s.Names f then [(s.frame, s.recordFileSize)] else []) } := by
  unfold takeFrame
  rw [nameFrame_eq, insertClusterOffset_eq, addKeyFrame_eq]
  rfl

/-- Before the first frame of a cluster, and only there, the vector is empty. -/
def Starts (s : KeyFrameParser) : Prop := s.bInsertClusterOffset = true ↔ s.keyFrameVec = []

theorem takeFrame_starts (s : KeyFrameParser) (hs : s.Starts) (f : MediaFrame) : (s.takeFrame f).Starts := by
  have hne : (s.takeFrame f).keyFrameVec ≠ [] := by
    rw [takeFrame_eq]
    cases hinsert : s.bInsertClusterOffset with
    | true => simp
    | false =>
      have hvec : s.keyFrameVec ≠ [] := fun hnil => by simp [hs.mpr hnil] at hinsert
      simp [hvec]
  have hinsert : (s.takeFrame f).bInsertClusterOffset = false := by rw [takeFrame_eq]
  simp [Starts, hinsert, hne]

/-- The first element of the vector does not count. -/
theorem takeFrame_waiting (hs : s.Starts) :
    (s.takeFrame f).waiting = s.waiting ++ if s.Finds f then [s.keyFrameInfo f] else [] := by
  have htail : (s.takeFrame f).keyFrameVec.tail =
      s.keyFrameVec.tail ++ if s.Finds f then [s.keyFrameInfo f] else [] := by
    rw [takeFrame_eq]
    dsimp only
    cases hinsert : s.bInsertClusterOffset with
    | true =>
      rw [hs.mp hinsert]
      rfl
    | false =>
      have hvec : s.keyFrameVec ≠ [] := fun hnil => by simp [hs.mpr hnil] at hinsert
      rw [if_neg (by simp), List.append_nil, List.tail_append_of_ne_nil hvec]
  have hindex : (s.takeFrame f).index = s.index := by rw [takeFrame_eq]
  unfold waiting
  rw [htail, hindex]
  simp only [List.append_assoc]

/-- What is found has the number of the frame. -/
theorem mem_takeFrame_found {k : KeyFrame} : k ∈ (s.takeFrame f).found ↔
    k ∈ s.found ∨ s.Finds f ∧ k = s.keyFrameInfo f := by
  rw [takeFrame_eq, List.mem_append]
  by_cases hfinds : s.Finds f <;> simp [hfinds]

theorem mem_takeFrame_named {p : Nat × UInt64} : p ∈ (s.takeFrame f).named ↔
    p ∈ s.named ∨ s.Names f ∧ p = (s.frame, s.recordFileSize) := by
  rw [takeFrame_eq, List.mem_append]
  by_cases hnames : s.Names f <;> simp [hnames]

theorem Tracks.takeFrame (h : Tracks s.frame s) (hs : s.Starts) (f : MediaFrame) :
    Tracks (s.frame + 1) (s.takeFrame f) := by
  have hindex : (s.takeFrame f).index = s.index := by rw [takeFrame_eq]
  have hmem : ∀ k ∈ (s.takeFrame f).waiting, k ∈ s.waiting ∨ s.Finds f ∧ k = s.keyFrameInfo f := by
    intro k hk
    rw [takeFrame_waiting hs, List.mem_append] at hk
    by_cases hfinds : s.Finds f <;> simpa [hfinds] using hk
  refine ⟨?_, ?_, ?_, ?_, ?_, ?_, ?_⟩
  · intro k hk
    rcases mem_takeFrame_found.mp hk with hk | ⟨-, rfl⟩
    · exact Nat.lt_succ_of_lt (h.found k hk)
    · exact Nat.lt_succ_self _
  · intro k hk
    exact mem_takeFrame_found.mpr ((hmem k hk).imp (h.waiting k) id)
  · rw [takeFrame_waiting hs, List.pairwise_append]
    refine ⟨h.sorted, ?_, fun k hk k' hk' => ?_⟩
    · split <;> simp
    · have hlt := h.found k (h.waiting k hk)
      split at hk'
      · rw [List.mem_singleton.mp hk']
        exact hlt
      · exact absurd hk' List.not_mem_nil
  · rw [hindex]
    exact fun p hp => Nat.lt_succ_of_lt (h.starts p hp)
  · intro p hp
    rcases mem_takeFrame_named.mp hp with hp | ⟨-, rfl⟩
    · exact Nat.lt_succ_of_lt (h.named p hp)
    · exact Nat.lt_succ_self _
  · rw [hindex]
    exact fun w hw => ⟨(h.written w hw).1, Nat.lt_succ_of_lt (h.written w hw).2⟩
  · rw [hindex]
    intro w hw k hk
    rcases hmem k hk with hk | ⟨-, rfl⟩
    · exact h.order w hw k hk
    · exact (h.written w hw).2

theorem kept_takeFrame (h : Tracks s.frame s) (hs : s.Starts) :
    (s.takeFrame f).Kept ↔ s.Kept ∧ (s.takeFrame f).keyFrameVec.length < 256 := by
  have hindex : (s.takeFrame f).index = s.index := by rw [takeFrame_eq]
  have hinPlace : InPlace s.index.starts (s.takeFrame f).found s.index.written (s.takeFrame f).waiting ↔
      InPlace s.index.starts s.found s.index.written s.waiting := by
    rw [takeFrame_waiting hs, takeFrame_eq]
    by_cases hfinds : s.Finds f
    · simp only [hfinds, if_true]
      exact inPlace_found h.found fun p hp => Nat.le_of_lt (h.starts p hp)
    · simp only [hfinds, if_false, List.append_nil]
  have hlength : s.keyFrameVec.length ≤ (s.takeFrame f).keyFrameVec.length := by
    rw [takeFrame_eq]
    simp only [List.length_append]
    omega
  constructor
  · rintro ⟨hkept, hvec⟩
    rw [hindex] at hkept
    exact ⟨⟨hinPlace.mp hkept, Nat.lt_of_le_of_lt hlength hvec⟩, hvec⟩
  · rintro ⟨hkept, hvec⟩
    refine ⟨?_, hvec⟩
    rw [hindex]
    exact hinPlace.mpr hkept.inPlace

/-! ## What has been collected is passed -/

/-- What is left of what waits, when the vector is passed and the file is updated. -/
def passed (s : KeyFrameParser) (update : IndexUpdate) (endTime : Int) : List KeyFrame :=
  s.index.buffered ++
    if s.index.Updates update endTime then counted (s.index.keyframeVec ++ (counted s.keyFrameVec).tail)
    else s.index.keyframeVec ++ (counted s.keyFrameVec).tail

section

variable {update : IndexUpdate} {endTime : Int}

theorem passed_sublist (s : KeyFrameParser) (update : IndexUpdate) (endTime : Int) :
    (s.passed update endTime).Sublist s.waiting := by
  unfold passed waiting
  refine (List.Sublist.refl _).append ?_
  split
  · exact cluster_sublist _ _
  · exact (List.Sublist.refl _).append (counted_sublist _).tail

theorem passed_eq_iff : s.passed update endTime = s.waiting ↔
    s.keyFrameVec.length < 256 ∧ s.Fits update endTime := by
  unfold passed waiting Fits
  rw [List.append_cancel_left_eq]
  split
  · next hupdates =>
    rw [cluster_eq_iff]
    simp [hupdates]
  · next hupdates =>
    rw [collected_eq_iff]
    simp [hupdates]

theorem pass_of_writes (h : s.Writes update endTime) :
    (s.passKeyFrames update endTime).index.written =
        s.index.written ++ (s.passed update endTime).map (s.index.starts.length, ·) ∧
      (s.passKeyFrames update endTime).waiting = [] := by
  obtain ⟨rfl, hupdates⟩ := h
  have hupdates' : (s.index.updateKeyFrame s.keyFrameVec).Updates .written endTime := hupdates
  unfold passKeyFrames waiting passed KeyFrameIndex.updateIndexfile
  simp only [if_pos hupdates', if_pos hupdates, if_true]
  exact ⟨rfl, rfl⟩

theorem pass_of_not_writes (h : ¬ s.Writes update endTime) :
    (s.passKeyFrames update endTime).index.written = s.index.written ∧
      (s.passKeyFrames update endTime).waiting = s.passed update endTime := by
  unfold passKeyFrames waiting passed KeyFrameIndex.updateIndexfile
  by_cases hupdates : s.index.Updates update endTime
  · have hupdates' : (s.index.updateKeyFrame s.keyFrameVec).Updates update endTime := hupdates
    have hne : update ≠ .written := fun heq => h ⟨heq, hupdates⟩
    simp only [if_pos hupdates', if_pos hupdates, if_neg hne]
    exact ⟨rfl, List.append_nil _⟩
  · have hupdates' : ¬ (s.index.updateKeyFrame s.keyFrameVec).Updates update endTime := hupdates
    simp only [if_neg hupdates', if_neg hupdates]
    exact ⟨rfl, by simp [KeyFrameIndex.updateKeyFrame]⟩

theorem pass_starts (s : KeyFrameParser) (update : IndexUpdate) (endTime : Int) :
    (s.passKeyFrames update endTime).index.starts = s.index.starts := by
  unfold passKeyFrames KeyFrameIndex.updateIndexfile
  dsimp only
  split_ifs <;> rfl

/-- What is written has not been lost. -/
theorem pass_inPlace (h : Tracks m s) (update : IndexUpdate) (endTime : Int) :
    InPlace (s.passKeyFrames update endTime).index.starts s.found (s.passKeyFrames update endTime).index.written
        (s.passKeyFrames update endTime).waiting ↔
      InPlace s.index.starts s.found s.index.written s.waiting ∧ s.passed update endTime = s.waiting := by
  rw [pass_starts, ← inPlace_lost (passed_sublist s update endTime) h.waiting h.sorted h.order]
  by_cases hwrites : s.Writes update endTime
  · rw [(pass_of_writes hwrites).1, (pass_of_writes hwrites).2]
    exact inPlace_written
  · rw [(pass_of_not_writes hwrites).1, (pass_of_not_writes hwrites).2]

theorem kept_pass (h : Tracks m s) (update : IndexUpdate) (endTime : Int) :
    (s.passKeyFrames update endTime).Kept ↔ s.Kept ∧ s.Fits update endTime := by
  have hiff := pass_inPlace h update endTime
  rw [passed_eq_iff] at hiff
  constructor
  · rintro ⟨hinPlace, -⟩
    obtain ⟨hinPlace, hvec, hfits⟩ := hiff.mp hinPlace
    exact ⟨⟨hinPlace, hvec⟩, hfits⟩
  · rintro ⟨⟨hinPlace, hvec⟩, hfits⟩
    exact ⟨hiff.mpr ⟨hinPlace, hvec, hfits⟩, Nat.zero_lt_succ _⟩

theorem Tracks.pass (h : Tracks m s) (update : IndexUpdate) (endTime : Int) :
    Tracks m (s.passKeyFrames update endTime) := by
  have hsub := passed_sublist s update endTime
  by_cases hwrites : s.Writes update endTime
  · obtain ⟨hwritten, hwaiting⟩ := pass_of_writes hwrites
    refine ⟨h.found, ?_, ?_, ?_, h.named, ?_, ?_⟩
    · rw [hwaiting]
      exact fun k hk => absurd hk List.not_mem_nil
    · rw [hwaiting]
      exact .nil
    · rw [pass_starts]
      exact h.starts
    · rw [pass_starts, hwritten]
      intro w hw
      rcases List.mem_append.mp hw with hw | hw
      · exact h.written w hw
      · obtain ⟨k, hk, rfl⟩ := List.mem_map.mp hw
        exact ⟨Nat.le_refl _, h.found k (h.waiting k (hsub.subset hk))⟩
    · rw [hwaiting]
      exact fun w _ k hk => absurd hk List.not_mem_nil
  · obtain ⟨hwritten, hwaiting⟩ := pass_of_not_writes hwrites
    refine ⟨h.found, ?_, ?_, ?_, h.named, ?_, ?_⟩
    · rw [hwaiting]
      exact fun k hk => h.waiting k (hsub.subset hk)
    · rw [hwaiting]
      exact h.sorted.sublist hsub
    · rw [pass_starts]
      exact h.starts
    · rw [pass_starts, hwritten]
      exact h.written
    · rw [hwritten, hwaiting]
      exact fun w hw k hk => h.order w hw k (hsub.subset hk)

end

/-! ## The index list -/

/-- What `parse_key_frame` reads and writes beside the key frames does not matter for them. -/
structure SameKeyFrames (s s' : KeyFrameParser) : Prop where
  index : s'.index = s.index
  keyFrameVec : s'.keyFrameVec = s.keyFrameVec
  found : s'.found = s.found
  named : s'.named = s.named

theorem SameKeyFrames.waiting {s' : KeyFrameParser} (h : SameKeyFrames s s') : s'.waiting = s.waiting := by
  unfold KeyFrameParser.waiting
  rw [h.index, h.keyFrameVec]

theorem SameKeyFrames.tracks {s' : KeyFrameParser} (h : SameKeyFrames s s') (ht : Tracks m s) :
    Tracks m s' := by
  obtain ⟨hfound, hwaiting, hsorted, hstarts, hnamed, hwritten, horder⟩ := ht
  refine ⟨?_, ?_, ?_, ?_, ?_, ?_, ?_⟩ <;> simp only [h.index, h.found, h.named, h.waiting] <;> assumption

theorem SameKeyFrames.kept {s' : KeyFrameParser} (h : SameKeyFrames s s') : s'.Kept ↔ s.Kept := by
  constructor
  · rintro ⟨hinPlace, hvec⟩
    rw [h.index, h.found, h.waiting] at hinPlace
    exact ⟨hinPlace, h.keyFrameVec ▸ hvec⟩
  · rintro ⟨hinPlace, hvec⟩
    refine ⟨?_, h.keyFrameVec ▸ hvec⟩
    rw [h.index, h.found, h.waiting]
    exact hinPlace

theorem sameKeyFrames_frame (s : KeyFrameParser) (n : Nat) : SameKeyFrames s { s with frame := n } :=
  ⟨rfl, rfl, rfl, rfl⟩

/-- The index list is not there, or names another frame, or names this one. -/
theorem parseIndexList_cases (s : KeyFrameParser) (f : MediaFrame) :
    (s.parseIndexList f = s ∧
        ∀ mediaIndex ∈ s.indexList.head?, f.frameID ≠ mediaIndex.lastIndexFrameID) ∨
      ∃ mediaIndex ∈ s.indexList.head?, f.frameID = mediaIndex.lastIndexFrameID ∧
        (s.parseIndexList f).bInsertClusterOffset = true ∧
        SameKeyFrames (s.passKeyFrames f.listUpdate mediaIndex.lastIndexRecvTime) (s.parseIndexList f) := by
  unfold parseIndexList
  split
  · next hlist => exact .inl ⟨rfl, by simp [hlist]⟩
  · next mediaIndex rest hlist =>
    split
    · next hid => exact .inr ⟨mediaIndex, by simp [hlist], hid, rfl, rfl, rfl, rfl, rfl⟩
    · next hid => exact .inl ⟨rfl, by simpa [hlist] using hid⟩

theorem Tracks.parseIndexList (h : Tracks m s) (f : MediaFrame) : Tracks m (s.parseIndexList f) := by
  obtain ⟨heq, -⟩ | ⟨mediaIndex, -, -, -, hsame⟩ := parseIndexList_cases s f
  · rw [heq]
    exact h
  · exact hsame.tracks (h.pass _ _)

theorem kept_parseIndexList (h : Tracks m s) : (s.parseIndexList f).Kept ↔ s.Kept ∧ s.ListFits f := by
  obtain ⟨heq, hno⟩ | ⟨mediaIndex, hmem, hid, -, hsame⟩ := parseIndexList_cases s f
  · rw [heq]
    exact ⟨fun hkept => ⟨hkept, fun mediaIndex hmem hid => absurd hid (hno mediaIndex hmem)⟩, fun hkept => hkept.1⟩
  · rw [hsame.kept, kept_pass h]
    refine and_congr_right fun _ => ⟨fun hfits mediaIndex' hmem' _ => ?_, fun hfits => hfits _ hmem hid⟩
    obtain rfl := Option.mem_unique hmem hmem'
    exact hfits

theorem parseIndexList_starts (hs : s.Starts) (f : MediaFrame) : (s.parseIndexList f).Starts := by
  obtain ⟨heq, -⟩ | ⟨mediaIndex, -, -, hinsert, hsame⟩ := parseIndexList_cases s f
  · rw [heq]
    exact hs
  · have hvec : (s.parseIndexList f).keyFrameVec = [] := hsame.keyFrameVec
    simp [Starts, hinsert, hvec]

/-- The rest is as before. -/
theorem parseIndexList_rest (s : KeyFrameParser) (f : MediaFrame) :
    (s.parseIndexList f).index.starts = s.index.starts ∧ (s.parseIndexList f).found = s.found ∧
      (s.parseIndexList f).named = s.named ∧ (s.parseIndexList f).indexBreakList = s.indexBreakList ∧
      (s.parseIndexList f).recordFileSize = s.recordFileSize ∧ (s.parseIndexList f).frame = s.frame ∧
      (s.parseIndexList f).returned = s.returned := by
  unfold parseIndexList
  split
  · exact ⟨rfl, rfl, rfl, rfl, rfl, rfl, rfl⟩
  · split
    · exact ⟨pass_starts s _ _, rfl, rfl, rfl, rfl, rfl, rfl⟩
    · exact ⟨rfl, rfl, rfl, rfl, rfl, rfl, rfl⟩

/-! ## An index break -/

/-- Another index file begins at frame `n`, for which nothing waits yet. -/
structure Begins (s : KeyFrameParser) (n : Nat) (offset : UInt64) (s' : KeyFrameParser) : Prop where
  starts : s'.index.starts = s.index.starts ++ [(n, offset)]
  written : s'.index.written = s.index.written
  waiting : s'.waiting = []
  found : s'.found = s.found
  named : s'.named = s.named
  vector : s'.bInsertClusterOffset = true ∧ s'.keyFrameVec = []
  returned : s'.returned = s.returned

section

variable {s' : KeyFrameParser} {n : Nat} {offset : UInt64}

theorem Begins.tracks (h : Begins s n offset s') (ht : Tracks (n + 1) s) : Tracks (n + 1) s' := by
  refine ⟨?_, ?_, ?_, ?_, ?_, ?_, ?_⟩
  · rw [h.found]
    exact ht.found
  · rw [h.waiting]
    exact fun k hk => absurd hk List.not_mem_nil
  · rw [h.waiting]
    exact .nil
  · rw [h.starts]
    intro p hp
    rcases List.mem_append.mp hp with hp | hp
    · exact ht.starts p hp
    · rw [List.mem_singleton.mp hp]
      exact Nat.lt_succ_self n
  · rw [h.named]
    exact ht.named
  · rw [h.written, h.starts, List.length_append]
    exact fun w hw => ⟨Nat.le_add_right_of_le (ht.written w hw).1, (ht.written w hw).2⟩
  · rw [h.waiting]
    exact fun w _ k hk => absurd hk List.not_mem_nil

theorem Begins.kept (h : Begins s n offset s') (ht : Tracks (n + 1) s)
    (hstarts : ∀ p ∈ s.index.starts, p.1 < n) (hvec : s.keyFrameVec = []) :
    s'.Kept ↔ s.Kept ∧ s.waiting = [] ∧ ∀ k ∈ s.found, k.frame ≠ n := by
  have hiff : InPlace s'.index.starts s'.found s'.index.written s'.waiting ↔
      InPlace s.index.starts s.found s.index.written s.waiting ∧ s.waiting = [] ∧
        ∀ k ∈ s.found, k.frame ≠ n := by
    rw [h.starts, h.found, h.written, h.waiting]
    exact inPlace_start hstarts (fun k hk => Nat.le_of_lt_succ (ht.found k hk)) ht.waiting
      (fun w hw => (ht.written w hw).1) ht.order
  constructor
  · rintro ⟨hinPlace, -⟩
    obtain ⟨hinPlace, hrest⟩ := hiff.mp hinPlace
    exact ⟨⟨hinPlace, by simp [hvec]⟩, hrest⟩
  · rintro ⟨⟨hinPlace, -⟩, hrest⟩
    exact ⟨hiff.mpr ⟨hinPlace, hrest⟩, by simp [h.vector.2]⟩

end

/-- Nothing waits any more if nothing has waited or the file is written. -/
theorem pass_waiting_nil {update : IndexUpdate} {endTime : Int} (hkept : s.Kept)
    (hfits : s.Fits update endTime) :
    (s.passKeyFrames update endTime).waiting = [] ↔ s.waiting = [] ∨ s.Writes update endTime := by
  by_cases hwrites : s.Writes update endTime
  · simp [(pass_of_writes hwrites).2, hwrites]
  · rw [(pass_of_not_writes hwrites).2, passed_eq_iff.mpr ⟨hkept.vector, hfits⟩]
    simp [hwrites]

/-- The first index break that is left names the frame. -/
def Fronts (s : KeyFrameParser) (f : MediaFrame) : Prop :=
  ∃ mediaIndex ∈ s.indexBreakList.head?, f.frameID = mediaIndex.newIndexFrameID

theorem parseIndexSeg_of_not_fronts (h : ¬ s.Fronts f) : s.parseIndexSeg f = s := by
  unfold parseIndexSeg
  split
  · rfl
  · next mediaIndex rest hlist =>
    have hid : f.frameID ≠ mediaIndex.newIndexFrameID := fun hid => h ⟨mediaIndex, by simp [hlist], hid⟩
    rw [if_neg hid]

theorem parseIndexSeg_of_not_created (h : s.Fronts f) (hcreated : f.created = false) :
    (s.parseIndexSeg f).returned = true ∧ (s.parseIndexSeg f).index.starts = s.index.starts ∧
      (s.parseIndexSeg f).named = s.named := by
  obtain ⟨mediaIndex, hmem, hid⟩ := h
  obtain ⟨rest, hlist⟩ := List.head?_eq_some_iff.mp hmem
  unfold parseIndexSeg
  simp only [hlist, hid, if_pos, hcreated, Bool.not_false]
  refine ⟨trivial, ?_, ?_⟩
  · split <;> exact pass_starts s _ _
  · split <;> rfl

theorem parseIndexSeg_of_created {mediaIndex : IndexBreak} (hmem : mediaIndex ∈ s.indexBreakList.head?)
    (hid : f.frameID = mediaIndex.newIndexFrameID) (hcreated : f.created = true) :
    Begins (s.passKeyFrames f.breakUpdate (s.breakTime mediaIndex)) s.frame
      (s.recordFileSize - f.nAdjustFrameSize.toUInt64) (s.parseIndexSeg f) := by
  obtain ⟨rest, hlist⟩ := List.head?_eq_some_iff.mp hmem
  unfold parseIndexSeg
  simp only [hlist, hid, if_pos, hcreated, Bool.not_true, Bool.false_eq_true, if_false]
  refine ⟨?_, ?_, ?_, ?_, ?_, ⟨rfl, ?_⟩, ?_⟩ <;> split <;> rfl

/-- With an index file to be created, the key frames stay apart exactly if the old file gets what waits for
it and none is of this frame. -/
theorem kept_parseIndexSeg {n : Nat} (h : Tracks (n + 1) s) (hstarts : ∀ p ∈ s.index.starts, p.1 < n)
    (hn : s.frame = n) (hfronts : s.Fronts f) (hcreated : f.created = true) :
    (s.parseIndexSeg f).Kept ↔ s.Kept ∧ s.Breaks f ∧ ∀ k ∈ s.found, k.frame ≠ n := by
  obtain ⟨mediaIndex, hmem, hid⟩ := hfronts
  have hbegins := parseIndexSeg_of_created hmem hid hcreated
  rw [hn] at hbegins
  have hpassed := h.pass f.breakUpdate (s.breakTime mediaIndex)
  rw [hbegins.kept hpassed (by rwa [pass_starts]) rfl, kept_pass h, and_assoc]
  refine and_congr_right fun hkept => ?_
  have hbreaks : s.Breaks f ↔ s.Fits f.breakUpdate (s.breakTime mediaIndex) ∧
      (s.waiting = [] ∨ s.Writes f.breakUpdate (s.breakTime mediaIndex)) := by
    constructor
    · rintro ⟨mediaIndex', hmem', -, -, hrest⟩
      obtain rfl := Option.mem_unique hmem hmem'
      exact hrest
    · exact fun hrest => ⟨mediaIndex, hmem, hid, hcreated, hrest⟩
  rw [hbreaks, and_assoc]
  exact and_congr_right fun hfits => and_congr_left fun _ => pass_waiting_nil hkept hfits

/-! ## The loop -/

theorem parseIndexSeg_frame (s : KeyFrameParser) (f : MediaFrame) : (s.parseIndexSeg f).frame = s.frame := by
  unfold parseIndexSeg
  dsimp only
  split
  · rfl
  · split_ifs <;> rfl

theorem parseFrame_of_open (h : s.returned = false) (f : MediaFrame) : s.parseFrame f =
    { ((s.takeFrame f).parseIndexList f).parseIndexSeg f with frame := s.frame + 1 } := by
  have hframe : (((s.takeFrame f).parseIndexList f).parseIndexSeg f).frame = s.frame := by
    obtain ⟨-, -, -, -, -, hframe, -⟩ := parseIndexList_rest (s.takeFrame f) f
    rw [parseIndexSeg_frame, hframe, takeFrame_eq]
  unfold parseFrame
  rw [if_neg (by simp [h])]
  dsimp only
  rw [hframe]

/-- At the index break, the members that it reads are as before the frame. -/
theorem collected_rest (s : KeyFrameParser) (f : MediaFrame) :
    ((s.takeFrame f).parseIndexList f).index.starts = s.index.starts ∧
      ((s.takeFrame f).parseIndexList f).found = (s.takeFrame f).found ∧
      ((s.takeFrame f).parseIndexList f).named = (s.takeFrame f).named ∧
      ((s.takeFrame f).parseIndexList f).indexBreakList = s.indexBreakList ∧
      ((s.takeFrame f).parseIndexList f).recordFileSize = s.recordFileSize + f.nAdjustFrameSize.toUInt64 ∧
      ((s.takeFrame f).parseIndexList f).frame = s.frame ∧
      ((s.takeFrame f).parseIndexList f).returned = s.returned := by
  obtain ⟨hstarts, hfound, hnamed, hbreaks, hsize, hframe, hreturned⟩ := parseIndexList_rest (s.takeFrame f) f
  refine ⟨hstarts.trans ?_, hfound, hnamed, hbreaks.trans ?_, hsize.trans ?_, hframe.trans ?_,
    hreturned.trans ?_⟩ <;> rw [takeFrame_eq]

theorem collected_kept (h : Tracks s.frame s) (hs : s.Starts) :
    ((s.takeFrame f).parseIndexList f).Kept ↔
      s.Kept ∧ (s.takeFrame f).keyFrameVec.length < 256 ∧ (s.takeFrame f).ListFits f := by
  rw [kept_parseIndexList (h.takeFrame hs f), kept_takeFrame h hs, and_assoc]

/-- The frame is found exactly if there is a key frame with its number. -/
theorem found_ne_iff (h : Tracks s.frame s) :
    (∀ k ∈ ((s.takeFrame f).parseIndexList f).found, k.frame ≠ s.frame) ↔ ¬ s.Finds f := by
  rw [(collected_rest s f).2.1]
  constructor
  · intro hne hfinds
    exact hne _ (mem_takeFrame_found.mpr (.inr ⟨hfinds, rfl⟩)) rfl
  · intro hfinds k hk
    rcases mem_takeFrame_found.mp hk with hk | ⟨hyes, -⟩
    · exact Nat.ne_of_lt (h.found k hk)
    · exact absurd hyes hfinds

/-- What every state of the loop has. -/
structure Inv (s : KeyFrameParser) : Prop where
  goes : s.returned = false → Tracks s.frame s ∧ s.Starts
  returned : s.returned = true → ∃ p ∈ s.named, p ∉ s.index.starts

theorem fronts_names (h : ((s.takeFrame f).parseIndexList f).Fronts f) : s.Names f := by
  obtain ⟨mediaIndex, hmem, hid⟩ := h
  rw [(collected_rest s f).2.2.2.1] at hmem
  exact ⟨mediaIndex, List.mem_of_head? hmem, hid.symm⟩

/-- The frame has not begun a file before. -/
theorem not_mem_starts (h : Tracks s.frame s) {offset : UInt64} : (s.frame, offset) ∉ s.index.starts :=
  fun hmem => Nat.lt_irrefl _ (h.starts _ hmem)

theorem Inv.parseFrame (h : Inv s) (f : MediaFrame) : Inv (s.parseFrame f) := by
  cases hreturned : s.returned with
  | true =>
    have heq : s.parseFrame f = s := if_pos hreturned
    rw [heq]
    exact h
  | false =>
    obtain ⟨htracks, hs⟩ := h.goes hreturned
    rw [parseFrame_of_open hreturned]
    have hcollected := (htracks.takeFrame hs f).parseIndexList f
    obtain ⟨hstarts, -, hnamed, -, -, hframe, hret⟩ := collected_rest s f
    by_cases hfronts : ((s.takeFrame f).parseIndexList f).Fronts f
    · cases hcreated : f.created with
      | false =>
        obtain ⟨hret', hstarts', hnamed'⟩ := parseIndexSeg_of_not_created hfronts hcreated
        refine ⟨fun hno => absurd hno (by simp [hret']), fun _ => ⟨(s.frame, s.recordFileSize), ?_, ?_⟩⟩
        · dsimp only
          rw [hnamed', hnamed]
          exact mem_takeFrame_named.mpr (.inr ⟨fronts_names hfronts, rfl⟩)
        · dsimp only
          rw [hstarts', hstarts]
          exact not_mem_starts htracks
      | true =>
        obtain ⟨mediaIndex, hmem, hid⟩ := hfronts
        have hbegins := parseIndexSeg_of_created hmem hid hcreated
        rw [hframe] at hbegins
        have hpassed := hcollected.pass f.breakUpdate (((s.takeFrame f).parseIndexList f).breakTime mediaIndex)
        refine ⟨fun _ => ⟨?_, ?_⟩, fun hyes => ?_⟩
        · exact (sameKeyFrames_frame _ _).tracks (hbegins.tracks hpassed)
        · simp [Starts, hbegins.vector.1, hbegins.vector.2]
        · have hno := hbegins.returned.trans (hret.trans hreturned)
          exact absurd hyes (by simp [hno])
    · rw [parseIndexSeg_of_not_fronts hfronts]
      refine ⟨fun _ => ⟨?_, ?_⟩, fun hyes => ?_⟩
      · exact (sameKeyFrames_frame _ _).tracks hcollected
      · exact parseIndexList_starts (takeFrame_starts s hs f) f
      · exact absurd hyes (by simp [hret, hreturned])

/-- After a return, a frame that an index break names begins no file. -/
theorem Inv.not_splits (h : Inv s) (hreturned : s.returned = true) : ¬ s.Splits := by
  intro hsplits
  obtain ⟨p, hp, hno⟩ := h.returned hreturned
  exact hno (hsplits.named p hp)

theorem splits_iff_kept : s.Splits ↔ s.Kept ∧ ∀ p ∈ s.named, p ∈ s.index.starts :=
  ⟨fun h => ⟨h.toKept, h.named⟩, fun h => ⟨h.1, h.2⟩⟩

/-- A frame that no index break names. -/
theorem named_of_not_names (hnames : ¬ s.Names f) :
    (∀ p ∈ (s.takeFrame f).named, p ∈ s.index.starts) ↔ ∀ p ∈ s.named, p ∈ s.index.starts := by
  constructor
  · exact fun h p hp => h p (mem_takeFrame_named.mpr (.inl hp))
  · intro h p hp
    rcases mem_takeFrame_named.mp hp with hp | ⟨hyes, -⟩
    · exact h p hp
    · exact absurd hyes hnames

/-- A frame that begins a file. -/
theorem named_of_begins (h : Tracks s.frame s) (f : MediaFrame) :
    (∀ p ∈ (s.takeFrame f).named, p ∈ s.index.starts ++ [(s.frame, s.recordFileSize)]) ↔
      ∀ p ∈ s.named, p ∈ s.index.starts := by
  constructor
  · intro hall p hp
    rcases List.mem_append.mp (hall p (mem_takeFrame_named.mpr (.inl hp))) with hmem | hself
    · exact hmem
    · have hlt := h.named p hp
      rw [List.mem_singleton.mp hself] at hlt
      exact absurd hlt (Nat.lt_irrefl _)
  · intro hall p hp
    rcases mem_takeFrame_named.mp hp with hp | ⟨-, rfl⟩
    · exact List.mem_append_left _ (hall p hp)
    · exact List.mem_append_right _ (List.mem_singleton_self _)

/-- A frame at which another index file begins. -/
theorem splits_of_begins (htracks : Tracks s.frame s) (hs : s.Starts) (hreturned : s.returned = false)
    (hfronts : ((s.takeFrame f).parseIndexList f).Fronts f) (hcreated : f.created = true) :
    (s.parseFrame f).Splits ↔ s.Splits ∧ s.KeepsApart f := by
  have hcollected := (htracks.takeFrame hs f).parseIndexList f
  obtain ⟨hstarts, -, hnamed, -, hsize, hframe, -⟩ := collected_rest s f
  have hkept : (((s.takeFrame f).parseIndexList f).parseIndexSeg f).Kept ↔
      (s.Kept ∧ (s.takeFrame f).keyFrameVec.length < 256 ∧ (s.takeFrame f).ListFits f) ∧
        ((s.takeFrame f).parseIndexList f).Breaks f ∧ ¬ s.Finds f := by
    rw [kept_parseIndexSeg hcollected (hstarts ▸ htracks.starts) hframe hfronts hcreated,
      found_ne_iff htracks, collected_kept htracks hs]
  obtain ⟨mediaIndex, hmem, hid⟩ := id hfronts
  have hbegins := parseIndexSeg_of_created hmem hid hcreated
  -- the size is behind the frame by then; the file begins before it
  have hbegin : (((s.takeFrame f).parseIndexList f).parseIndexSeg f).index.starts =
      s.index.starts ++ [(s.frame, s.recordFileSize)] := by
    rw [hbegins.starts, pass_starts, hstarts, hframe, hsize, UInt64.add_sub_cancel]
  have hnamed' : (((s.takeFrame f).parseIndexList f).parseIndexSeg f).named = (s.takeFrame f).named :=
    hbegins.named.trans hnamed
  rw [parseFrame_of_open hreturned, splits_iff_kept, splits_iff_kept, (sameKeyFrames_frame _ _).kept, hkept]
  dsimp only
  rw [hnamed', hbegin, named_of_begins htracks]
  constructor
  · rintro ⟨⟨⟨hkept, hvec, hlist⟩, hbreaks, hfinds⟩, hall⟩
    exact ⟨⟨hkept, hall⟩, hvec, hlist, fun _ => ⟨hfinds, hbreaks⟩⟩
  · rintro ⟨⟨hkept, hall⟩, hvec, hlist, hapart⟩
    obtain ⟨hfinds, hbreaks⟩ := hapart (fronts_names hfronts)
    exact ⟨⟨⟨hkept, hvec, hlist⟩, hbreaks, hfinds⟩, hall⟩

/-- A frame at which the index file stays. -/
theorem splits_of_not_fronts (htracks : Tracks s.frame s) (hs : s.Starts) (hreturned : s.returned = false)
    (hfronts : ¬ ((s.takeFrame f).parseIndexList f).Fronts f) :
    (s.parseFrame f).Splits ↔ s.Splits ∧ s.KeepsApart f := by
  obtain ⟨hstarts, -, hnamed, -, -, -, -⟩ := collected_rest s f
  have hbreaks : ¬ ((s.takeFrame f).parseIndexList f).Breaks f :=
    fun ⟨mediaIndex, hmem, hid, _⟩ => hfronts ⟨mediaIndex, hmem, hid⟩
  rw [parseFrame_of_open hreturned, splits_iff_kept, splits_iff_kept, (sameKeyFrames_frame _ _).kept,
    parseIndexSeg_of_not_fronts hfronts, collected_kept htracks hs]
  dsimp only
  rw [hstarts, hnamed]
  by_cases hnames : s.Names f
  · -- it has no index file
    constructor
    · rintro ⟨-, hall⟩
      exact absurd (hall _ (mem_takeFrame_named.mpr (.inr ⟨hnames, rfl⟩))) (not_mem_starts htracks)
    · rintro ⟨-, -, -, hapart⟩
      exact absurd (hapart hnames).2 hbreaks
  · rw [named_of_not_names hnames]
    constructor
    · rintro ⟨⟨hkept, hvec, hlist⟩, hall⟩
      exact ⟨⟨hkept, hall⟩, hvec, hlist, fun hyes => absurd hyes hnames⟩
    · rintro ⟨⟨hkept, hall⟩, hvec, hlist, -⟩
      exact ⟨⟨hkept, hvec, hlist⟩, hall⟩

/-- Exactly the frames that keep the segments apart keep the split. -/
theorem splits_parseFrame (h : Inv s) (f : MediaFrame) :
    (s.parseFrame f).Splits ↔ s.Splits ∧ s.KeepsApart f := by
  cases hreturned : s.returned with
  | true =>
    have heq : s.parseFrame f = s := if_pos hreturned
    rw [heq]
    exact ⟨fun hsplits => absurd hsplits (h.not_splits hreturned), fun hsplits => hsplits.1⟩
  | false =>
    obtain ⟨htracks, hs⟩ := h.goes hreturned
    by_cases hfronts : ((s.takeFrame f).parseIndexList f).Fronts f
    · cases hcreated : f.created with
      | true => exact splits_of_begins htracks hs hreturned hfronts hcreated
      | false =>
        have hret : (s.parseFrame f).returned = true := by
          rw [parseFrame_of_open hreturned]
          exact (parseIndexSeg_of_not_created hfronts hcreated).1
        constructor
        · exact fun hsplits => absurd hsplits ((h.parseFrame f).not_splits hret)
        · rintro ⟨-, -, -, hapart⟩
          obtain ⟨-, mediaIndex, -, -, hyes, -⟩ := hapart (fronts_names hfronts)
          exact absurd hyes (by simp [hcreated])
    · exact splits_of_not_fronts htracks hs hreturned hfronts

/-! ## After the loop -/

/-- What is left in the vector is passed. -/
theorem finish_spec (hreturned : s.returned = false) (lastFrameRecvTime : Int) :
    (s.finish lastFrameRecvTime).index.starts = s.index.starts ∧
      (s.finish lastFrameRecvTime).index.written = s.index.written ∧
      (s.finish lastFrameRecvTime).found = s.found ∧ (s.finish lastFrameRecvTime).named = s.named ∧
      (s.finish lastFrameRecvTime).keyFrameVec = [] ∧ (s.finish lastFrameRecvTime).waiting =
        s.index.buffered ++ (s.index.keyframeVec ++ (counted s.keyFrameVec).tail) := by
  unfold finish waiting
  rw [if_neg (by simp [hreturned])]
  dsimp only
  by_cases hvec : s.keyFrameVec ≠ []
  · rw [if_pos hvec]
    refine ⟨?_, ?_, ?_, ?_, ?_, ?_⟩ <;> split <;> simp [KeyFrameIndex.updateKeyFrame, updateDbRecordIndex]
  · rw [if_neg hvec]
    rw [not_not] at hvec
    refine ⟨?_, ?_, ?_, ?_, ?_, ?_⟩ <;> split <;> simp [updateDbRecordIndex, hvec, counted]

/-- It goes into the index file that is open. -/
theorem splits_finish (h : Inv s) (lastFrameRecvTime : Int) :
    (s.finish lastFrameRecvTime).Splits ↔ s.Splits := by
  cases hreturned : s.returned with
  | true =>
    have heq : s.finish lastFrameRecvTime = s := if_pos hreturned
    rw [heq]
  | false =>
    obtain ⟨htracks, -⟩ := h.goes hreturned
    obtain ⟨hstarts, hwritten, hfound, hnamed, hvec, hwaiting⟩ := finish_spec hreturned lastFrameRecvTime
    have hsub : (s.index.buffered ++ (s.index.keyframeVec ++ (counted s.keyFrameVec).tail)).Sublist s.waiting :=
      (List.Sublist.refl _).append ((List.Sublist.refl _).append (counted_sublist _).tail)
    have hlost := @inPlace_lost s.index.starts _ _ _ _ hsub htracks.waiting htracks.sorted htracks.order
    have hall : s.index.buffered ++ (s.index.keyframeVec ++ (counted s.keyFrameVec).tail) = s.waiting ↔
        s.keyFrameVec.length < 256 := by
      unfold waiting
      rw [List.append_cancel_left_eq, collected_eq_iff]
    have hkept : (s.finish lastFrameRecvTime).Kept ↔ s.Kept := by
      constructor
      · rintro ⟨hinPlace, -⟩
        rw [hstarts, hwritten, hfound, hwaiting, hlost] at hinPlace
        exact ⟨hinPlace.1, hall.mp hinPlace.2⟩
      · rintro ⟨hinPlace, hlength⟩
        refine ⟨?_, by simp [hvec]⟩
        rw [hstarts, hwritten, hfound, hwaiting, hlost]
        exact ⟨hinPlace, hall.mpr hlength⟩
    rw [splits_iff_kept, splits_iff_kept, hkept, hstarts, hnamed]

end KeyFrameParser

namespace KeyFrameBlock

open KeyFrameParser

variable (block : KeyFrameBlock)

theorem start_waiting : block.start.waiting = block.start.found := by
  simp [KeyFrameParser.waiting, start, index, number_append]

/-- Before the loop: the key frames of earlier blocks wait for the index file that is open. -/
theorem start_inv : Inv block.start := by
  refine ⟨fun _ => ⟨?_, ?_⟩, fun h => absurd h (by simp [start])⟩
  · have hlt : ∀ k ∈ block.start.found, k.frame < block.start.frame := by
      intro k hk
      have hk' := number_lt hk
      rw [Nat.zero_add, List.length_append] at hk'
      exact hk'
    refine ⟨hlt, ?_, ?_, by simp [start, index], by simp [start], by simp [start, index],
      by simp [start, index]⟩
    · rw [start_waiting]
      exact fun k hk => hk
    · rw [start_waiting]
      exact number_sorted _ _
  · simp [Starts, start]

theorem start_splits : block.start.Splits := by
  refine ⟨⟨fun k hk => .inr ⟨rfl, ?_⟩, by simp [start]⟩, by simp [start]⟩
  rw [start_waiting]
  exact hk

/-- The key frames are in the index files of their frames, and the files begin where they are to, exactly if
each frame in the loop keeps them apart. -/
theorem splits_iff :
    block.parseKeyFrame.Splits ↔ Allowed KeyFrameParser.parseFrame KeepsApart block.start block.frames := by
  have hinv := @run_invariant _ _ _ _ _ block.frames block.start_inv fun s f h => h.parseFrame f
  have hrun := @run_iff_allowed _ _ _ _ _ _ block.frames _ block.start_inv (fun s f h => h.parseFrame f)
    fun s f h => splits_parseFrame h f
  unfold parseKeyFrame
  rw [splits_finish hinv, hrun]
  exact and_iff_right block.start_splits

/-- Two frames; an index break names the second one. -/
def breakBlock (bKeyFrame : Bool) : KeyFrameBlock where
  ulChangeDisk := false
  indexFileOpenFlag := true
  recordFileSize := 0
  buffered := []
  keyframeVec := []
  firstWriteRecordTime := 10
  lastWriteRecordTime := 10
  indexList := []
  indexBreakList := [⟨11, 2, 12⟩]
  frames := [⟨1, true, 11000, 100, .written, .written, true⟩, ⟨2, bKeyFrame, 12000, 100, .written, .written, true⟩]
  lastFrameRecvTime := 12

/-- If it is a key frame, it is only in the old index file. -/
theorem not_splits_keyFrame : ¬ (breakBlock true).parseKeyFrame.Splits ∧
    (breakBlock true).parseKeyFrame.named = [(1, 100)] ∧
    (breakBlock true).parseKeyFrame.index.starts = [(1, 100)] ∧
    (breakBlock true).parseKeyFrame.index.written = [(0, ⟨0, 0, 11000⟩), (0, ⟨1, 100, 12000⟩)] ∧
    (breakBlock true).parseKeyFrame.waiting = [] := by
  have hwritten : (breakBlock true).parseKeyFrame.index.written =
      [(0, ⟨0, 0, 11000⟩), (0, ⟨1, 100, 12000⟩)] := by decide
  have hwaiting : (breakBlock true).parseKeyFrame.waiting = [] := by decide
  refine ⟨fun h => ?_, by decide, by decide, hwritten, hwaiting⟩
  have hfound : (⟨1, 100, 12000⟩ : KeyFrame) ∈ (breakBlock true).parseKeyFrame.found := by decide
  rcases h.inPlace _ hfound with hw | ⟨-, hw⟩
  · rw [hwritten] at hw
    exact absurd hw (by decide)
  · rw [hwaiting] at hw
    exact absurd hw List.not_mem_nil

end KeyFrameBlock

end AllCamera
