import AllCamera.Record.RecordIndex.Lengths

/-!
# The key frames of a cluster

`update_indexfile` puts into a cluster what `update_key_frame` has been given since the one before. The
counters of both are of 8 bits: a vector of more than 255 elements, and more than 255 key frames in all, are
cut off.

* `Between`: what holds between two clusters; `Sound.between`: it does in every run.
* `HoldsAll`: the cluster is the one for these vectors.
* `holdsAll_iff`.
-/

namespace AllCamera

open Run IndexFormat

variable {L : IndexFormat}

namespace RecordIndexfile

variable {s : RecordIndexfile}

/-- The index file is open, and nothing has been passed since the last cluster. -/
structure Between (L : IndexFormat) (s : RecordIndexfile) : Prop where
  opened : s.indexFileOpenFlag = true
  null : s.clusterNullFlag = true
  keyframeVec : s.keyframeVec = []
  header : L.sizeofIndexfileHeader ≤ s.indexfileSize
  buffer : s.indexfileSize ≤ recordIndexfileBufMax

/-- A vector for `update_key_frame`: the start of the block, and its key frames. -/
abbrev KeyFrameVector := KeyFrameInfo × List KeyFrameInfo

/-- Calls of `update_key_frame`. -/
def updateKeyFrames (s : RecordIndexfile) (vs : List KeyFrameVector) : RecordIndexfile :=
  vs.foldl (fun s v => s.updateKeyFrame v.1 v.2) s

/-- The cluster at `p` is that of these vectors: it has all their key frames, and the start of the first. -/
def HoldsAll (L : IndexFormat) (m : Memory) (p : Nat) (v : KeyFrameVector) (vs : List KeyFrameVector) :
    Prop :=
  let all := (v :: vs).flatMap (·.2)
  L.clusterTotalLen.get m p = L.clusterFixed + all.length * L.sizeofKeyframeInfo ∧
    m.read (p + L.keyFrameInfo : Nat) (all.length * L.sizeofKeyframeInfo) = all.flatMap L.keyFrameBytes ∧
    L.clusterFileOffset.get m p = v.1.fileOffset.toNat ∧
    L.firstTimeTick.get m p = v.1.timeTick.toNat

/-- What `update_key_frame` takes of a vector. -/
def taken (v : KeyFrameVector) : List KeyFrameInfo := v.2.take ((v.2.length + 1) % 256 - 1)

/-- What the calls leave: the start of the first vector, and what was taken of each. -/
theorem updateKeyFrames_eq (hs : s.Between L) (v : KeyFrameVector) (vs : List KeyFrameVector) :
    s.updateKeyFrames (v :: vs) =
      { s with
        clusterOffset := v.1.fileOffset
        clusterStartTimetick := v.1.timeTick
        clusterNullFlag := false
        keyframeVec := (v :: vs).flatMap taken } := by
  have hrest : ∀ (us : List KeyFrameVector) (t : RecordIndexfile), t.clusterNullFlag = false →
      t.updateKeyFrames us = { t with keyframeVec := t.keyframeVec ++ us.flatMap taken } := by
    intro us
    induction us with
    | nil => intro t _; simp [updateKeyFrames]
    | cons u us ih =>
      intro t ht
      have hstep : t.updateKeyFrame u.1 u.2 = { t with keyframeVec := t.keyframeVec ++ taken u } := by
        simp [updateKeyFrame, ht, taken]
      have hcons : t.updateKeyFrames (u :: us) =
          ({ t with keyframeVec := t.keyframeVec ++ taken u } : RecordIndexfile).updateKeyFrames us := by
        rw [← hstep]
        rfl
      rw [hcons, ih { t with keyframeVec := t.keyframeVec ++ taken u } ht, List.flatMap_cons,
        List.append_assoc]
  have hfirst : s.updateKeyFrame v.1 v.2 =
      { s with
        clusterOffset := v.1.fileOffset
        clusterStartTimetick := v.1.timeTick
        clusterNullFlag := false
        keyframeVec := taken v } := by
    simp [updateKeyFrame, hs.null, hs.keyframeVec, taken]
  have hcons : s.updateKeyFrames (v :: vs) = (s.updateKeyFrame v.1 v.2).updateKeyFrames vs := rfl
  rw [hcons, hfirst, hrest _ _ rfl, List.flatMap_cons]

theorem length_taken_le (v : KeyFrameVector) : (taken v).length ≤ v.2.length := by
  rw [taken, List.length_take]
  exact Nat.min_le_right _ _

/-- All of a vector is taken exactly if it has at most 255 elements. -/
theorem length_taken_eq_iff (v : KeyFrameVector) :
    (taken v).length = v.2.length ↔ v.2.length + 1 ≤ 255 := by
  rw [taken, List.length_take]
  omega

theorem taken_eq (v : KeyFrameVector) (h : v.2.length + 1 ≤ 255) : taken v = v.2 := by
  rw [taken, List.take_of_length_le]
  omega

/-- As many key frames are taken as there are exactly if all vectors have at most 255 elements. -/
theorem length_flatMap_taken (vs : List KeyFrameVector) :
    (vs.flatMap taken).length ≤ (vs.flatMap (·.2)).length ∧
      ((vs.flatMap taken).length = (vs.flatMap (·.2)).length ↔ ∀ v ∈ vs, v.2.length + 1 ≤ 255) := by
  induction vs with
  | nil => simp
  | cons v vs ih =>
    have hle := length_taken_le v
    have hiff := length_taken_eq_iff v
    simp only [List.flatMap_cons, List.length_append, List.forall_mem_cons]
    refine ⟨by omega, ?_⟩
    rw [← ih.2, ← hiff]
    omega

theorem flatMap_taken_eq {vs : List KeyFrameVector} (h : ∀ v ∈ vs, v.2.length + 1 ≤ 255) :
    vs.flatMap taken = vs.flatMap (·.2) := by
  induction vs with
  | nil => rfl
  | cons v vs ih =>
    rw [List.flatMap_cons, List.flatMap_cons, taken_eq v (h v List.mem_cons_self),
      ih fun u hu => h u (List.mem_cons_of_mem _ hu)]

/-- An update that returns `SVS_RESULT_OK` has put the cluster at the end. -/
theorem updateIndexfile_ok (hL : L.Valid) (e : UpdateEnv) (files : IndexFiles) {endTime : Int}
    (hnull : s.clusterNullFlag = false) (hend : endTime ≠ 0)
    (hok : (s.updateIndexfile L e files endTime).2.2 = svsResultOk) :
    Agree (s.updateIndexfile L e files endTime).2.1.recordIndexBuffer
      (s.putCluster L (s.addClusterSize L endTime)) L.sizeofIndexfileHeader
      (s.indexfileSize + L.clusterFixed + s.keyFrameCount * L.sizeofKeyframeInfo) := by
  obtain ⟨⟨-, hmd5⟩, -⟩ := hL.stops
  have hcode : ∀ l, (L.md5 l).length = L.md5code.width := fun l => (hL.md5 l).trans hL.md5code.symm
  have hfail : svsResultFailure ≠ svsResultOk := by decide
  unfold Field.stop at hmd5
  rw [updateIndexfile, if_neg (by simp [hnull, hend])] at hok ⊢
  split_ifs at hok ⊢ with hflag hroom
  · exact absurd hok hfail
  · exact absurd hok hfail
  by_cases hsrc : toU32 (((s.addCluster L endTime).indexfileSize : Int) - L.md5Skip) = 0
  · have hencode : (s.addCluster L endTime).encode L = none := if_pos hsrc
    simp only [hencode]
    exact .refl _ _ _
  · simp only [encode, if_neg hsrc]
    exact Agree.write (.inr (by rw [hcode]; omega))

theorem putCluster_read (L : IndexFormat) (s : RecordIndexfile) (m : Memory) :
    (s.putCluster L m).read (s.indexfileSize + L.keyFrameInfo : Nat)
        ((s.keyframeVec.take s.keyFrameCount).flatMap L.keyFrameBytes).length =
      (s.keyframeVec.take s.keyFrameCount).flatMap L.keyFrameBytes :=
  Memory.read_write _ _ _

theorem putCluster_start (hL : L.Valid) (m : Memory) :
    L.clusterFileOffset.get (s.putCluster L m) s.indexfileSize = s.clusterOffset.toNat ∧
      L.firstTimeTick.get (s.putCluster L m) s.indexfileSize = s.clusterStartTimetick.toNat := by
  obtain ⟨-, -, -, -, -, htick, hoff⟩ := hL.stops
  have hinfo := hL.keyFrameInfo_eq
  have hapart := hL.clusterApart
  simp only [clusterFields, List.pairwise_cons, List.forall_mem_cons] at hapart
  obtain ⟨-, -, ⟨hto, -⟩, -⟩ := hapart
  constructor
  · rw [putCluster, Field.get_write_of_disjoint (.inl (by omega)), Field.get_set_of_lt]
    rw [hL.clusterFileOffset]
    exact s.clusterOffset.toNat_lt
  · rw [putCluster, Field.get_write_of_disjoint (.inl (by omega)), hto.get_set, Field.get_set_of_lt]
    rw [hL.firstTimeTick]
    exact s.clusterStartTimetick.toNat_lt

/-- The cluster that the next update appends holds all key frames exactly if no vector has more than 255
elements and there are no more than 255 key frames. -/
theorem holdsAll_iff (hL : L.Valid) (hs : s.Between L) (v : KeyFrameVector) (vs : List KeyFrameVector)
    {e : UpdateEnv} {files : IndexFiles} {endTime : Int} (hend : endTime ≠ 0)
    (hok : ((s.updateKeyFrames (v :: vs)).updateIndexfile L e files endTime).2.2 = svsResultOk) :
    HoldsAll L ((s.updateKeyFrames (v :: vs)).updateIndexfile L e files endTime).2.1.recordIndexBuffer
        s.indexfileSize v vs ↔
      (∀ u ∈ v :: vs, u.2.length + 1 ≤ 255) ∧ ((v :: vs).flatMap (·.2)).length ≤ 255 := by
  obtain ⟨-, -, -, hcstop, -, htstop, hostop⟩ := hL.stops
  have hinfo := hL.keyFrameInfo_eq
  have hpos := hL.keyframe_pos
  have hheader := hs.header
  obtain ⟨hle, hiff⟩ := length_flatMap_taken (v :: vs)
  rw [updateKeyFrames_eq hs] at hok ⊢
  generalize hs' : ({ s with
    clusterOffset := v.1.fileOffset
    clusterStartTimetick := v.1.timeTick
    clusterNullFlag := false
    keyframeVec := (v :: vs).flatMap taken } : RecordIndexfile) = s' at hok ⊢
  have hvec : s'.keyframeVec = (v :: vs).flatMap taken := by rw [← hs']
  have hsize : s'.indexfileSize = s.indexfileSize := by rw [← hs']
  have hcount : s'.keyFrameCount = ((v :: vs).flatMap taken).length % 256 := by
    rw [keyFrameCount, hvec]
  have hkcs := keyClusterSize_lt hL s'
  -- the cluster is that of `putCluster`
  have hagree := updateIndexfile_ok hL e files (by rw [← hs']) hend hok
  rw [hsize] at hagree
  have htotal := putCluster_clusterTotalLen (s := s') (m := s'.addClusterSize L endTime) hL (by omega)
  obtain ⟨hoff, htick⟩ := putCluster_start (s := s') hL (s'.addClusterSize L endTime)
  have hread := putCluster_read L s' (s'.addClusterSize L endTime)
  rw [hsize] at htotal hoff htick hread
  rw [HoldsAll, Field.get_agree hagree (by omega) (by omega), Field.get_agree hagree (by omega) (by omega),
    Field.get_agree hagree (by omega) (by omega), htotal, hoff, htick, keyClusterSize_eq hL]
  constructor
  · rintro ⟨hlen, -⟩
    have heq : s'.keyFrameCount = ((v :: vs).flatMap (·.2)).length :=
      Nat.eq_of_mul_eq_mul_right hpos (by omega)
    have hmod := Nat.mod_le ((v :: vs).flatMap taken).length 256
    exact ⟨hiff.mp (by omega), by omega⟩
  · rintro ⟨hshort, hall⟩
    have htaken := flatMap_taken_eq hshort
    have hcount' : s'.keyFrameCount = ((v :: vs).flatMap (·.2)).length := by
      rw [hcount, htaken]
      omega
    have hbytes : (s'.keyframeVec.take s'.keyFrameCount).flatMap L.keyFrameBytes =
        ((v :: vs).flatMap (·.2)).flatMap L.keyFrameBytes := by
      rw [hvec, htaken, hcount', List.take_length]
    rw [hbytes, length_keyFrames hL] at hread
    refine ⟨by rw [hcount'], ?_, by rw [← hs'], by rw [← hs']⟩
    rw [← hread]
    have hframes := hagree.mono (Nat.le_trans hheader (Nat.le_add_right _ L.keyFrameInfo))
      (Nat.le_refl _)
    refine hframes.read ?_
    exact Nat.le_of_eq (by rw [hcount', hinfo])

end RecordIndexfile

namespace IndexRun

open RecordIndexfile

/-- An update that appends a cluster leaves an index file between two clusters. -/
theorem Sound.between (hL : L.Valid) {m : Memory} {s : IndexRun} (h : Sound L m s) (e : UpdateEnv)
    {endTime : Int} (hflag : s.index.indexFileOpenFlag = true) (hnull : s.index.clusterNullFlag = false)
    (hend : endTime ≠ 0)
    (hroom : s.index.indexfileSize + s.index.keyClusterSize L ≤ recordIndexfileBufMax) :
    (IndexRun.step L s (.update e endTime)).index.Between L := by
  obtain ⟨hopened, -⟩ := h.opened hflag
  obtain ⟨s', hupdate, hs', -, -, -, hflag'⟩ :=
    updateIndexfile_append hL e s.files hopened hflag hnull hend hroom
  have hindex : (IndexRun.step L s (.update e endTime)).index = s'.clearCluster := by
    simp only [IndexRun.step, hupdate]
  obtain ⟨hcursor, hsec, hn⟩ := hs'.isOpen.le
  rw [hindex]
  exact ⟨hflag', rfl, rfl, by show _ ≤ s'.indexfileSize; omega, hs'.le⟩

/-- The index file when it has been created. -/
def created (L : IndexFormat) : IndexRun := run (step L) (init fun _ => 0) [createAct]

theorem holdsAll_one :
    HoldsAll oneClusterFormat
        (((created oneClusterFormat).index.updateKeyFrames [(⟨4096, 5⟩, [⟨4096, 5⟩])]).updateIndexfile
          oneClusterFormat ⟨true, true⟩ (created oneClusterFormat).files 7300).2.1.recordIndexBuffer
        (created oneClusterFormat).index.indexfileSize (⟨4096, 5⟩, [⟨4096, 5⟩]) [] ↔
      (∀ u ∈ [((⟨4096, 5⟩, [⟨4096, 5⟩]) : KeyFrameVector)], u.2.length + 1 ≤ 255) ∧
        ([((⟨4096, 5⟩, [⟨4096, 5⟩]) : KeyFrameVector)].flatMap (·.2)).length ≤ 255 := by
  have hbetween : (created oneClusterFormat).index.Between oneClusterFormat :=
    ⟨by decide, by decide, by decide, by decide, by decide⟩
  exact holdsAll_iff (smallFormat_valid rfl) hbetween _ [] (by decide) (by decide)

/-- The start of a block, and 255 key frames. -/
def longVector : KeyFrameVector := (⟨4096, 5⟩, List.replicate 255 ⟨4096, 5⟩)

/-- The format, with the MD5 digest of the file that comes of it. -/
def longFormat : IndexFormat :=
  smallFormat [194, 166, 238, 92, 241, 178, 180, 195, 241, 152, 148, 107, 153, 45, 7, 126]

set_option maxRecDepth 8000 in
/-- Of a vector of 256 elements no key frame gets into the cluster. -/
theorem longVector_lost :
    (((created longFormat).index.updateKeyFrames [longVector]).updateIndexfile longFormat ⟨true, true⟩
        (created longFormat).files 7300).2.2 = svsResultOk ∧
      ¬ HoldsAll longFormat
        (((created longFormat).index.updateKeyFrames [longVector]).updateIndexfile longFormat
          ⟨true, true⟩ (created longFormat).files 7300).2.1.recordIndexBuffer
        (created longFormat).index.indexfileSize longVector [] := by
  refine ⟨by decide, fun h => ?_⟩
  exact absurd h.1 (by decide)

end IndexRun

end AllCamera
