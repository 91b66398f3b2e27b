import AllCamera.Record.FileEgress.KeyFrames

/-!
# The places of the key frames (`parse_key_frame` over blocks)

* `WrittenBlock`, `KeyFrameParser.parseBlock`: `parse_key_frame` of a block without index breaks, in the state that the
  blocks before have left. `parseKeyFrame_eq`: it is the one of `KeyFrames`.
* `Pass`: a call of `update_key_frame`, with how many frames have been gone over; `passAt`, `passAtEnd`, and
  `parseFrame_index`, `finish_index`: the index file changes by these calls.
* `PassRun`: the blocks, one after the other. `KeyFrame.Right`, `FirstFrames`: what the calls are to be.
* `run_places`.
-/

namespace AllCamera

open Run

/-- A call of `update_key_frame`; `gone` is how many frames of all blocks have been gone over. -/
structure Pass where
  gone : Nat
  vec : List KeyFrame
  deriving DecidableEq, Repr

/-- A block that has been written, without index breaks. -/
structure WrittenBlock where
  ulChangeDisk : Bool
  indexList : List MediaIndex
  frames : List MediaFrame
  lastFrameRecvTime : Int
  deriving DecidableEq, Repr

namespace KeyFrameParser

variable (s : KeyFrameParser) (f : MediaFrame) (b : WrittenBlock)

/-- The variables of `parse_key_frame` before its loop; the members are what they were. -/
def enter : KeyFrameParser :=
  { s with
    ulChangeDiskFlag := b.ulChangeDisk
    currKeyFrameTime := 0
    recordFileSize := s.index.recordFileSize
    bInsertClusterOffset := true
    keyFrameVec := []
    ulIFrameNum := 0
    returned := false
    indexList := b.indexList
    indexBreakList := [] }

/-- `parse_key_frame`. -/
def parseBlock : KeyFrameParser := (run parseFrame (s.enter b) b.frames).finish b.lastFrameRecvTime

/-- The call of `update_key_frame` at a frame that the index list names. -/
def passAt : List Pass :=
  if s.returned then []
  else
    match s.indexList with
    | [] => []
    | mediaIndex :: _ =>
      if f.frameID = mediaIndex.lastIndexFrameID then [⟨s.frame + 1, (s.takeFrame f).keyFrameVec⟩] else []

/-- The call behind the loop. -/
def passAtEnd : List Pass := if s.keyFrameVec ≠ [] then [⟨s.frame, s.keyFrameVec⟩] else []

variable {s f b}

theorem parseIndexSeg_nil (h : s.indexBreakList = []) : s.parseIndexSeg f = s := by
  unfold parseIndexSeg
  rw [h]

theorem parseIndexList_breaks : (s.parseIndexList f).indexBreakList = s.indexBreakList := by
  unfold parseIndexList
  split
  · rfl
  · split <;> rfl

/-- The loop without index breaks. -/
theorem parseFrame_eq (hreturned : s.returned = false) (hbreaks : s.indexBreakList = []) :
    s.parseFrame f =
      { (s.takeFrame f).parseIndexList f with frame := ((s.takeFrame f).parseIndexList f).frame + 1 } := by
  have hnil : ((s.takeFrame f).parseIndexList f).indexBreakList = [] := by
    rw [parseIndexList_breaks, takeFrame_eq]
    exact hbreaks
  rw [parseFrame, hreturned, parseIndexSeg_nil hnil]
  rfl

/-- At a frame that the index list names, the vector is passed. -/
theorem parseFrame_named (hreturned : s.returned = false) (hbreaks : s.indexBreakList = []) {mediaIndex : MediaIndex}
    {rest : List MediaIndex} (hlist : s.indexList = mediaIndex :: rest)
    (hname : f.frameID = mediaIndex.lastIndexFrameID) :
    s.passAt f = [⟨s.frame + 1, (s.takeFrame f).keyFrameVec⟩] ∧
      (s.parseFrame f).index = (s.index.updateKeyFrame (s.takeFrame f).keyFrameVec).updateIndexfile f.listUpdate
        mediaIndex.lastIndexRecvTime ∧
      (s.parseFrame f).keyFrameVec = [] ∧ (s.parseFrame f).bInsertClusterOffset = true ∧
      (s.parseFrame f).frame = s.frame + 1 ∧
      (s.parseFrame f).recordFileSize = s.recordFileSize + f.nAdjustFrameSize.toUInt64 ∧
      (s.parseFrame f).returned = false ∧ (s.parseFrame f).indexBreakList = [] := by
  have hlist' : (s.takeFrame f).indexList = mediaIndex :: rest := by
    rw [takeFrame_eq]
    exact hlist
  have htake := takeFrame_eq s f
  refine ⟨by simp [passAt, hreturned, hlist, hname], ?_⟩
  rw [parseFrame_eq hreturned hbreaks]
  have hlists : (s.takeFrame f).parseIndexList f =
      { ((s.takeFrame f).passKeyFrames f.listUpdate mediaIndex.lastIndexRecvTime).updateDbRecordIndex true with
        ulChangeDiskFlag := false
        indexList := rest
        bInsertClusterOffset := true } := by
    unfold parseIndexList
    rw [hlist']
    exact if_pos hname
  rw [hlists, htake]
  exact ⟨rfl, rfl, rfl, rfl, rfl, hreturned, hbreaks⟩

/-- At any other frame it goes on. -/
theorem parseFrame_unnamed (hreturned : s.returned = false) (hbreaks : s.indexBreakList = [])
    (hname : ∀ mediaIndex ∈ s.indexList.head?, f.frameID ≠ mediaIndex.lastIndexFrameID) :
    s.passAt f = [] ∧ s.parseFrame f = { s.takeFrame f with frame := s.frame + 1 } := by
  have hlist : (s.takeFrame f).indexList = s.indexList := by rw [takeFrame_eq]
  have hframe : (s.takeFrame f).frame = s.frame := by rw [takeFrame_eq]
  have hsame : (s.takeFrame f).parseIndexList f = s.takeFrame f := by
    unfold parseIndexList
    rw [hlist]
    split
    · rfl
    · rename_i mediaIndex rest heq
      exact if_neg (hname mediaIndex (by rw [heq]; rfl))
  refine ⟨?_, ?_⟩
  · unfold passAt
    rw [hreturned]
    simp only [Bool.false_eq_true, if_false]
    split
    · rfl
    · rename_i mediaIndex rest heq
      exact if_neg (hname mediaIndex (by rw [heq]; rfl))
  · rw [parseFrame_eq hreturned hbreaks, hsame, hframe]

/-- A frame is named or not. -/
theorem named_or_not (s : KeyFrameParser) (f : MediaFrame) :
    (∃ mediaIndex rest, s.indexList = mediaIndex :: rest ∧ f.frameID = mediaIndex.lastIndexFrameID) ∨
      ∀ mediaIndex ∈ s.indexList.head?, f.frameID ≠ mediaIndex.lastIndexFrameID := by
  cases hlist : s.indexList with
  | nil => exact .inr nofun
  | cons mediaIndex rest =>
    by_cases hname : f.frameID = mediaIndex.lastIndexFrameID
    · exact .inl ⟨mediaIndex, rest, rfl, hname⟩
    · refine .inr fun mediaIndex' h => ?_
      obtain rfl := Option.some.inj h
      exact hname

/-- At a frame, the index file changes by the calls only. -/
theorem parseFrame_index (hreturned : s.returned = false) (hbreaks : s.indexBreakList = []) (f : MediaFrame) :
    ∃ endTime, (s.parseFrame f).index =
      (s.passAt f).foldl (fun x pass => (x.updateKeyFrame pass.vec).updateIndexfile f.listUpdate endTime) s.index := by
  rcases s.named_or_not f with ⟨mediaIndex, rest, hlist, hname⟩ | hname
  · obtain ⟨hpass, hindex, -⟩ := parseFrame_named hreturned hbreaks hlist hname
    exact ⟨mediaIndex.lastIndexRecvTime, by rw [hpass, hindex]; rfl⟩
  · obtain ⟨hpass, hsame⟩ := parseFrame_unnamed hreturned hbreaks hname
    exact ⟨0, by rw [hpass, hsame, takeFrame_eq]; rfl⟩

/-- Behind the loop, it changes by the call, and gets the size of the record file. -/
theorem finish_index (hreturned : s.returned = false) (lastFrameRecvTime : Int) :
    (s.finish lastFrameRecvTime).index =
        { s.passAtEnd.foldl (fun x pass => x.updateKeyFrame pass.vec) s.index with
          recordFileSize := s.recordFileSize } ∧
      (s.finish lastFrameRecvTime).frame = s.frame := by
  unfold finish passAtEnd
  rw [hreturned]
  by_cases hvec : s.keyFrameVec = []
  · simp only [hvec, Bool.false_eq_true, ne_eq, not_true_eq_false, if_false]
    split <;> exact ⟨rfl, rfl⟩
  · simp only [hvec, Bool.false_eq_true, ne_eq, not_false_eq_true, if_false, if_true]
    split <;> exact ⟨rfl, rfl⟩

end KeyFrameParser

/-- `parse_key_frame` of a block without index breaks. -/
theorem KeyFrameBlock.parseKeyFrame_eq {block : KeyFrameBlock} (hbreaks : block.indexBreakList = []) :
    block.parseKeyFrame =
      block.start.parseBlock ⟨block.ulChangeDisk, block.indexList, block.frames, block.lastFrameRecvTime⟩ := by
  have hstart : block.start.enter ⟨block.ulChangeDisk, block.indexList, block.frames, block.lastFrameRecvTime⟩ =
      block.start := by
    unfold KeyFrameParser.enter start
    rw [hbreaks]
    rfl
  rw [KeyFrameParser.parseBlock, hstart]
  rfl

/-! ## The blocks, one after the other -/

/-- `parse_key_frame`, the frames that have been gone over, and the calls of `update_key_frame`. -/
structure PassRun where
  parser : KeyFrameParser
  frames : List MediaFrame
  passes : List Pass

/-- The place of a frame behind these ones, in a record file that begins with `start` bytes. -/
def placeBehind (start : UInt64) (frames : List MediaFrame) : UInt64 :=
  start + (frames.map fun f => f.nAdjustFrameSize.toUInt64).sum

/-- An element of a vector is a frame, with its place and its own time tick. -/
def KeyFrame.Right (start : UInt64) (frames : List MediaFrame) (k : KeyFrame) : Prop :=
  ∃ f, frames[k.frame]? = some f ∧ k.info = ⟨placeBehind start (frames.take k.frame), f.nTimeTick⟩

/-- Each vector begins with the first frame behind the call before. -/
def FirstFrames : Nat → List Pass → Prop
  | _, [] => True
  | gone, pass :: passes => pass.vec.head?.map KeyFrame.frame = some gone ∧ FirstFrames pass.gone passes

/-- How many frames have been gone over at the last call. -/
def lastGone (passes : List Pass) : Nat := (passes.getLast?.map Pass.gone).getD 0

section

variable {start : UInt64} {frames : List MediaFrame} {k : KeyFrame}

theorem placeBehind_append (f : MediaFrame) :
    placeBehind start (frames ++ [f]) = placeBehind start frames + f.nAdjustFrameSize.toUInt64 := by
  simp [placeBehind, UInt64.add_assoc]

/-- More frames change nothing. -/
theorem KeyFrame.Right.append (h : k.Right start frames) (frames' : List MediaFrame) :
    k.Right start (frames ++ frames') := by
  obtain ⟨f, hf, hinfo⟩ := h
  have hlt := (List.getElem?_eq_some_iff.mp hf).1
  refine ⟨f, ?_, ?_⟩
  · rw [List.getElem?_append_left hlt]
    exact hf
  · rw [List.take_append_of_le_length (Nat.le_of_lt hlt)]
    exact hinfo

theorem firstFrames_append {pass : Pass} {passes : List Pass} {gone : Nat} :
    FirstFrames gone (passes ++ [pass]) ↔ FirstFrames gone passes ∧
      pass.vec.head?.map KeyFrame.frame = some ((passes.getLast?.map Pass.gone).getD gone) := by
  induction passes generalizing gone with
  | nil => simp [FirstFrames]
  | cons first passes ih =>
    rw [List.cons_append, FirstFrames, FirstFrames, ih, and_assoc, List.getLast?_cons]
    cases passes.getLast? <;> rfl

end

namespace PassRun

open KeyFrameParser (takeFrame_eq passAtEnd)

def frameStep (r : PassRun) (f : MediaFrame) : PassRun :=
  ⟨r.parser.parseFrame f, r.frames ++ [f], r.passes ++ r.parser.passAt f⟩

/-- A block. -/
def step (r : PassRun) (b : WrittenBlock) : PassRun :=
  let r := run frameStep { r with parser := r.parser.enter b } b.frames
  { r with parser := r.parser.finish b.lastFrameRecvTime, passes := r.passes ++ r.parser.passAtEnd }

/-- In the loop: where it is, what is in the vector, and what was in those that were passed. -/
structure Going (start : UInt64) (r : PassRun) : Prop where
  returned : r.parser.returned = false
  breaks : r.parser.indexBreakList = []
  starts : r.parser.Starts
  frame : r.parser.frame = r.frames.length
  size : r.parser.recordFileSize = placeBehind start r.frames
  vec : ∀ k ∈ r.parser.keyFrameVec, k.Right start r.frames
  first : (r.parser.keyFrameVec.head?.map KeyFrame.frame).getD r.frames.length = lastGone r.passes
  passes : ∀ pass ∈ r.passes, ∀ k ∈ pass.vec, k.Right start r.frames
  firsts : FirstFrames 0 r.passes

/-- Between two blocks. -/
structure Rests (start : UInt64) (r : PassRun) : Prop where
  frame : r.parser.frame = r.frames.length
  size : r.parser.index.recordFileSize = placeBehind start r.frames
  last : lastGone r.passes = r.frames.length
  passes : ∀ pass ∈ r.passes, ∀ k ∈ pass.vec, k.Right start r.frames
  firsts : FirstFrames 0 r.passes

variable {start : UInt64} {r : PassRun}

theorem Rests.enter (h : Rests start r) (b : WrittenBlock) : Going start { r with parser := r.parser.enter b } where
  returned := rfl
  breaks := rfl
  starts := ⟨fun _ => rfl, fun _ => rfl⟩
  frame := h.frame
  size := h.size
  vec := List.forall_mem_nil _
  first := h.last.symm
  passes := h.passes
  firsts := h.firsts

/-- The element that a frame gives. -/
theorem Going.keyFrameInfo (h : Going start r) (f : MediaFrame) :
    (r.parser.keyFrameInfo f).Right start (r.frames ++ [f]) := by
  have hframe : (r.parser.keyFrameInfo f).frame = r.frames.length := h.frame
  refine ⟨f, ?_, ?_⟩
  · rw [hframe, List.getElem?_append_right (Nat.le_refl _), Nat.sub_self]
    rfl
  · rw [hframe, List.take_left, ← h.size]
    rfl

/-- The vector behind a frame: its elements are right. -/
theorem Going.right_takeFrame (h : Going start r) (f : MediaFrame) :
    ∀ k ∈ (r.parser.takeFrame f).keyFrameVec, k.Right start (r.frames ++ [f]) := by
  have hself := h.keyFrameInfo f
  rw [takeFrame_eq]
  simp only [List.forall_mem_append]
  refine ⟨⟨fun k hk => (h.vec k hk).append [f], ?_⟩, ?_⟩
  · split
    · exact List.forall_mem_singleton.mpr hself
    · exact List.forall_mem_nil _
  · split
    · exact List.forall_mem_singleton.mpr hself
    · exact List.forall_mem_nil _

/-- Its first element is what it was, or the frame. -/
theorem Going.head_takeFrame (h : Going start r) (f : MediaFrame) :
    (r.parser.takeFrame f).keyFrameVec.head?.map KeyFrame.frame = some (lastGone r.passes) := by
  have hfirst := h.first
  rw [takeFrame_eq]
  dsimp only
  cases hvec : r.parser.keyFrameVec with
  | nil =>
    rw [hvec] at hfirst
    rw [h.starts.mpr hvec, if_pos rfl]
    exact congrArg some (h.frame.trans hfirst)
  | cons k vec =>
    rw [hvec] at hfirst
    exact congrArg some hfirst

theorem Going.frameStep (h : Going start r) (f : MediaFrame) : Going start (r.frameStep f) := by
  have hright := h.right_takeFrame f
  have hhead := h.head_takeFrame f
  have hpasses : ∀ pass ∈ r.passes, ∀ k ∈ pass.vec, k.Right start (r.frames ++ [f]) :=
    fun pass hpass k hk => (h.passes pass hpass k hk).append [f]
  have hlength : (r.frames ++ [f]).length = r.frames.length + 1 := List.length_append
  have hsize : r.parser.recordFileSize + f.nAdjustFrameSize.toUInt64 = placeBehind start (r.frames ++ [f]) := by
    rw [placeBehind_append, h.size]
  unfold PassRun.frameStep
  rcases r.parser.named_or_not f with ⟨mediaIndex, rest, hlist, hname⟩ | hname
  · obtain ⟨hpass, -, hvec, hinsert, hframe, hplace, hreturned, hbreaks⟩ :=
      KeyFrameParser.parseFrame_named h.returned h.breaks hlist hname
    refine ⟨hreturned, hbreaks, iff_of_true hinsert hvec, ?_, hplace.trans hsize, ?_, ?_, ?_, ?_⟩
    · rw [hframe, hlength, h.frame]
    · rw [hvec]
      exact List.forall_mem_nil _
    · rw [hvec, hpass, lastGone, List.getLast?_concat, hlength, ← h.frame]
      rfl
    · rw [hpass, List.forall_mem_append, List.forall_mem_singleton]
      exact ⟨hpasses, hright⟩
    · rw [hpass, firstFrames_append]
      exact ⟨h.firsts, hhead⟩
  · obtain ⟨hpass, hsame⟩ := KeyFrameParser.parseFrame_unnamed h.returned h.breaks hname
    have hstarts := r.parser.takeFrame_starts h.starts f
    rw [hpass, List.append_nil, hsame]
    refine ⟨?_, ?_, hstarts, ?_, ?_, hright, ?_, hpasses, h.firsts⟩
    · rw [takeFrame_eq]
      exact h.returned
    · rw [takeFrame_eq]
      exact h.breaks
    · rw [hlength, ← h.frame]
    · rw [takeFrame_eq]
      exact hsize
    · show ((r.parser.takeFrame f).keyFrameVec.head?.map KeyFrame.frame).getD _ = _
      rw [hhead]
      rfl

theorem Going.finish (h : Going start r) (lastFrameRecvTime : Int) :
    Rests start { r with
      parser := r.parser.finish lastFrameRecvTime
      passes := r.passes ++ r.parser.passAtEnd } := by
  obtain ⟨hindex, hframe⟩ := KeyFrameParser.finish_index h.returned lastFrameRecvTime
  have hfirst := h.first
  cases hvec : r.parser.keyFrameVec with
  | nil =>
    -- the last frame was named: there is nothing to pass
    have hnone : r.parser.passAtEnd = [] := by simp [passAtEnd, hvec]
    rw [hvec] at hfirst
    rw [hnone, List.append_nil]
    exact ⟨hframe.trans h.frame, by rw [hindex]; exact h.size, hfirst.symm, h.passes, h.firsts⟩
  | cons k vec =>
    have hpass : r.parser.passAtEnd = [⟨r.parser.frame, k :: vec⟩] := by simp [passAtEnd, hvec]
    have hright := h.vec
    rw [hvec] at hfirst hright
    rw [hpass]
    refine ⟨hframe.trans h.frame, by rw [hindex]; exact h.size, ?_, ?_, ?_⟩
    · rw [lastGone, List.getLast?_concat]
      exact h.frame
    · rw [List.forall_mem_append, List.forall_mem_singleton]
      exact ⟨h.passes, hright⟩
    · exact firstFrames_append.mpr ⟨h.firsts, congrArg some hfirst⟩

/-- One frame after the other. -/
theorem Going.run_frames (h : Going start r) (frames : List MediaFrame) :
    Going start (run PassRun.frameStep r frames) :=
  run_invariant h fun _ f hgoing => hgoing.frameStep f

theorem Rests.step (h : Rests start r) (b : WrittenBlock) : Rests start (r.step b) :=
  ((h.enter b).run_frames b.frames).finish b.lastFrameRecvTime

theorem run_frameStep (r : PassRun) (frames : List MediaFrame) :
    (run frameStep r frames).parser = run KeyFrameParser.parseFrame r.parser frames ∧
      (run frameStep r frames).frames = r.frames ++ frames := by
  induction frames generalizing r with
  | nil => exact ⟨rfl, (List.append_nil _).symm⟩
  | cons f frames ih =>
    obtain ⟨hparser, hframes⟩ := ih (r.frameStep f)
    exact ⟨hparser, hframes.trans (List.append_assoc _ [f] frames)⟩

/-- It is `parse_key_frame`. -/
theorem step_parsed (r : PassRun) (b : WrittenBlock) :
    (r.step b).parser = r.parser.parseBlock b ∧ (r.step b).frames = r.frames ++ b.frames := by
  obtain ⟨hparser, hframes⟩ := run_frameStep { r with parser := r.parser.enter b } b.frames
  exact ⟨congrArg (·.finish b.lastFrameRecvTime) hparser, hframes⟩

/-- Before the first block: the index file, whose record file has its size, and the two times. -/
def init (index : KeyFrameIndex) (firstWriteRecordTime lastWriteRecordTime : Int) : PassRun where
  parser :=
    { ulChangeDiskFlag := false
      currKeyFrameTime := 0
      recordFileSize := 0
      bInsertClusterOffset := true
      keyFrameVec := []
      ulIFrameNum := 0
      returned := false
      indexList := []
      indexBreakList := []
      firstWriteRecordTime
      lastWriteRecordTime
      localIndexes := []
      index
      frame := 0
      found := []
      named := [] }
  frames := []
  passes := []

theorem run_step (r : PassRun) (blocks : List WrittenBlock) :
    (run step r blocks).parser = run KeyFrameParser.parseBlock r.parser blocks ∧
      (run step r blocks).frames = r.frames ++ blocks.flatMap WrittenBlock.frames := by
  induction blocks generalizing r with
  | nil => exact ⟨rfl, (List.append_nil _).symm⟩
  | cons b blocks ih =>
    obtain ⟨hparser, hframes⟩ := ih (r.step b)
    obtain ⟨hstep, hstepFrames⟩ := step_parsed r b
    refine ⟨?_, ?_⟩
    · rw [run, hparser, hstep]
      rfl
    · rw [run, hframes, hstepFrames, List.flatMap_cons, List.append_assoc]

/-- **The places of the key frames.** Over all blocks without index breaks: what is passed to `update_key_frame` has the
place and the time tick of its frame; each vector begins with the first frame behind the call before; and the record
file has its size at the start and what all frames take. -/
theorem run_places (index : KeyFrameIndex) (firstWriteRecordTime lastWriteRecordTime : Int)
    (blocks : List WrittenBlock) :
    let r := run step (init index firstWriteRecordTime lastWriteRecordTime) blocks
    (∀ pass ∈ r.passes, ∀ k ∈ pass.vec,
      k.Right index.recordFileSize (blocks.flatMap WrittenBlock.frames)) ∧
      FirstFrames 0 r.passes ∧
      (run KeyFrameParser.parseBlock (init index firstWriteRecordTime lastWriteRecordTime).parser
        blocks).index.recordFileSize = placeBehind index.recordFileSize (blocks.flatMap WrittenBlock.frames) := by
  have hinit : Rests index.recordFileSize (init index firstWriteRecordTime lastWriteRecordTime) :=
    ⟨rfl, (UInt64.add_zero _).symm, rfl, List.forall_mem_nil _, trivial⟩
  have hrests : Rests index.recordFileSize
      (run step (init index firstWriteRecordTime lastWriteRecordTime) blocks) :=
    run_invariant hinit fun _ b h => h.step b
  obtain ⟨hparser, hframes⟩ := run_step (init index firstWriteRecordTime lastWriteRecordTime) blocks
  have hpasses := hrests.passes
  have hsize := hrests.size
  rw [hframes] at hpasses hsize
  rw [hparser] at hsize
  exact ⟨hpasses, hrests.firsts, hsize⟩

end PassRun

end AllCamera
