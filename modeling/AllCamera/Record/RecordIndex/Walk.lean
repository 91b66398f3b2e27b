import AllCamera.Record.RecordIndex.Lengths
import Mathlib.Data.List.GetD
import Mathlib.Data.List.TakeWhile

/-!
# The loops over the big files of an index file

`parse_indexfile` and `parse_all_big_recordfile_path` go from one big file to the next by the lengths in the
file, of which they check nothing but the digest. They are safe exactly if the big files lie one behind the
other up to the end of the file, each longer than nothing and with its fixed part in the file, and each new
path is closed (`Tiled`). A file with a big file of length 0 makes them endless.

* `ParseSafe`, `PathsSafe`: what is asked of the two loops.
* `safe_iff`.
-/

namespace AllCamera

open IndexFormat

variable {L : IndexFormat} {m : Memory} {n p : Nat}

/-- Only bytes of the file are digested. -/
def HashInside (L : IndexFormat) (n : Nat) : Prop := L.md5Skip + toU32 ((n : Int) - L.md5Skip) ≤ n

/-- A big file at `p` lies in the file. -/
def Inside (L : IndexFormat) (m : Memory) (n p : Nat) : Prop :=
  p + L.bigFileFixed ≤ n ∧ p + L.fileInfoTotalLen.get m p ≤ n

/-- `parse_indexfile` of a file of `n` bytes: only the file is digested, and the loop ends and comes to big
files in the file only. -/
def ParseSafe (L : IndexFormat) (m : Memory) (n : Nat) : Prop :=
  HashInside L n ∧ ∃ fuel visited,
    bigFileWalk L m fuel L.sizeofIndexfileHeader (toI32 ((n : Int) - L.sizeofIndexfileHeader)) =
        some visited ∧
      ∀ p ∈ visited, Inside L m n p

/-- `parse_all_big_recordfile_path`, which returns where the file is smaller than its header: the same, and no
more than `FILEPATHLEN` bytes of a path are copied. -/
def PathsSafe (L : IndexFormat) (m : Memory) (n : Nat) : Prop :=
  n < L.sizeofIndexfileHeader ∨ HashInside L n ∧ ∃ fuel visited,
    pathWalk L m fuel [] L.sizeofIndexfileHeader (toI32 ((n : Int) - L.sizeofIndexfileHeader)) =
        some visited ∧
      ∀ v ∈ visited, Inside L m n v.pos ∧ v.copied ≤ L.filePathLen

/-- The path of the big file at `p`, as it is compared. -/
def pathAt (L : IndexFormat) (m : Memory) (p : Nat) : List UInt8 :=
  strn L.filePathLen (m.read (p + L.filePath.off : Nat) L.filePathLen)

/-- Each path of the big files from `p` on is closed, or was there before. -/
def PathsEnd (L : IndexFormat) (m : Memory) : List (List UInt8) → Nat → List Nat → Prop
  | _, _, [] => True
  | before, p, l :: ls =>
    (pathAt L m p ∈ before ∨ strlenUpTo m (p + L.filePath.off) L.filePathLen ≤ L.filePathLen) ∧
      PathsEnd L m (before ++ [pathAt L m p]) (p + l) ls

/-- The file is not smaller than what is left out of the digest, and behind the header it is tiled by big
files. -/
def Tiled (L : IndexFormat) (m : Memory) (n : Nat) : Prop :=
  L.md5Skip ≤ n ∧ (L.sizeofIndexfileHeader < n → ∃ ls,
    Records (fun p l => L.Steps m p l ∧ p + L.bigFileFixed ≤ n) L.sizeofIndexfileHeader ls n ∧
      PathsEnd L m [] L.sizeofIndexfileHeader ls)

theorem hashInside_iff (hL : L.Valid) (hn : n ≤ recordIndexfileBufMax) :
    HashInside L n ↔ L.md5Skip ≤ n := by
  have hskip := hL.md5Skip
  have hbuffer := hL.buffer
  unfold recordIndexfileBufMax at hn hbuffer
  unfold HashInside toU32
  omega

/-! ## The loop of `parse_indexfile` -/

/-- A length of 0 does not move the loop on. -/
theorem bigFileWalk_zero (hlen : L.fileInfoTotalLen.get m p = 0) {size : Int} (hpos : 0 < size)
    (hlt : size < 2 ^ 31) (fuel : Nat) : bigFileWalk L m fuel p size = none := by
  have hsize : toI32 (size - toI32 (0 : Nat)) = size := by
    have hzero : toI32 ((0 : Nat) : Int) = 0 := by decide
    rw [hzero, Int.sub_zero, toI32_of_lt (by omega) hlt]
  induction fuel with
  | zero => rfl
  | succ fuel ih =>
    rw [bigFileWalk, if_pos hpos]
    simp only [hlen, hsize, Nat.add_zero, ih, Option.map_none]

/-- If it ends, and comes to big files in the file only, these tile the file. -/
theorem records_of_walk (hlt : n < 2 ^ 31) {fuel : Nat} {visited : List Nat} (hp : p ≤ n)
    (h : bigFileWalk L m fuel p ((n : Int) - p) = some visited) (hin : ∀ q ∈ visited, Inside L m n q) :
    ∃ ls, Records (fun p l => L.Steps m p l ∧ p + L.bigFileFixed ≤ n) p ls n := by
  induction fuel generalizing p visited with
  | zero => cases h
  | succ fuel ih =>
    by_cases hend : p = n
    · exact ⟨[], hend⟩
    have hpos : 0 < L.fileInfoTotalLen.get m p := by
      by_contra hzero
      rw [bigFileWalk_zero (by omega) (by omega) (by omega)] at h
      cases h
    have hvisited : p ∈ visited := by
      rw [bigFileWalk, if_pos (by omega)] at h
      obtain ⟨rest, -, rfl⟩ := Option.map_eq_some_iff.mp h
      exact List.mem_cons_self
    obtain ⟨hfixed, hle⟩ := hin p hvisited
    rw [bigFileWalk_succ ⟨rfl, hpos⟩ hle hlt] at h
    obtain ⟨rest, hrest, rfl⟩ := Option.map_eq_some_iff.mp h
    obtain ⟨ls, hls⟩ := ih hle hrest fun q hq => hin q (List.mem_cons_of_mem _ hq)
    exact ⟨_ :: ls, ⟨⟨rfl, hpos⟩, hfixed⟩, hls⟩

/-- Where records start, there is one. -/
theorem Records.exists_of_mem_starts {P : Nat → Nat → Prop} {ls : List Nat} (h : Records P p ls n)
    {q : Nat} (hq : q ∈ starts p ls) : ∃ l, P q l ∧ q + l ≤ n := by
  induction ls generalizing p with
  | nil => cases hq
  | cons l ls ih =>
    rcases List.mem_cons.mp hq with rfl | hq
    · exact ⟨l, h.1, h.2.le⟩
    · exact ih h.2 hq

/-! ## There are fewer big files than the counter of the paths can count -/

theorem leValue_eq_zero {q : Int} {k : Nat} (h : leValue (m.read q k) = 0) {i : Nat} (hi : i < k) :
    m (q + i) = 0 := by
  induction k generalizing q i with
  | zero => omega
  | succ k ih =>
    rw [Memory.read_succ, leValue] at h
    cases i with
    | zero =>
      apply UInt8.toNat_inj.mp
      show (m (q + (0 : Nat))).toNat = 0
      rw [Int.natCast_zero, Int.add_zero]
      omega
    | succ i =>
      have hrest := ih (q := q + 1) (by omega) (i := i) (by omega)
      rwa [show q + 1 + (i : Int) = q + ((i + 1 : Nat) : Int) by omega] at hrest

/-- The bytes of a length overlap with those of the next one where it is small: then the next one is
large. -/
theorem steps_small {l k : Nat} (hw : 4 ≤ L.fileInfoTotalLen.width) (hl : L.Steps m p l)
    (hk : L.Steps m (p + l) k) (hsmall : l < 3) : 256 ≤ k := by
  obtain ⟨hl, hlpos⟩ := hl
  obtain ⟨hk, hkpos⟩ := hk
  obtain ⟨w, hwidth⟩ : ∃ w, L.fileInfoTotalLen.width = w + 1 := ⟨_, (Nat.sub_add_cancel (by omega)).symm⟩
  rw [Field.get, hwidth, Memory.read_succ, leValue] at hl hk
  have hzero : leValue (m.read ((p + L.fileInfoTotalLen.off : Nat) + 1) w) = 0 := by omega
  have hbyte := leValue_eq_zero hzero (i := l - 1) (by omega)
  rw [show ((p + L.fileInfoTotalLen.off : Nat) + 1 + ((l - 1 : Nat) : Int) : Int) =
    (p + l + L.fileInfoTotalLen.off : Nat) by omega] at hbyte
  rw [hbyte] at hk
  have hlow : (0 : UInt8).toNat = 0 := rfl
  omega

theorem length_steps (hw : 4 ≤ L.fileInfoTotalLen.width) :
    ∀ (ls : List Nat) (p : Nat), Records (L.Steps m) p ls n → p + 3 * ls.length ≤ n + 3
  | [], p, h => by
    have hle := h.le
    simp only [List.length_nil]
    omega
  | [l], p, h => by
    have hle := h.le
    simp only [List.length_cons, List.length_nil]
    omega
  | l :: k :: ls, p, h => by
    have hl := h.1.2
    by_cases hsmall : l < 3
    · have hk := steps_small hw h.1 h.2.1 hsmall
      have ih := length_steps hw ls (p + l + k) h.2.2
      simp only [List.length_cons]
      omega
    · have ih := length_steps hw (k :: ls) (p + l) h.2
      simp only [List.length_cons] at ih ⊢
      omega

/-! ## The loop of `parse_all_big_recordfile_path` -/

theorem strn_strn (k : Nat) (l : List UInt8) : strn k (strn k l) = strn k l := by
  have hlen : (strn k l).length ≤ k := by
    have htake : (strn k l).length ≤ (l.take k).length := (List.takeWhile_prefix _).length_le
    rw [List.length_take] at htake
    omega
  rw [strn, List.take_of_length_le hlen, strn, List.takeWhile_idem]

/-- Where it is said that a path is known, it is. -/
theorem mem_of_findPath {known : List (List UInt8)} {path : List UInt8} {fuel : Nat} {i : UInt16}
    (hknown : ∀ x ∈ known, strn L.filePathLen x = x)
    (h : findPath L known path fuel i = some true) : strn L.filePathLen path ∈ known := by
  induction fuel generalizing i with
  | zero => cases h
  | succ fuel ih =>
    rw [findPath] at h
    split_ifs at h with hlt heq
    · have hmem : known.getD i.toNat [] ∈ known := by
        rw [List.getD_eq_getElem _ _ hlt]
        exact List.getElem_mem hlt
      rw [heq, hknown _ hmem]
      exact hmem
    · exact ih h
    · cases h

/-- Where the counter suffices, the loop over the known paths ends. -/
theorem findPath_eq {known : List (List UInt8)} (path : List UInt8) {fuel : Nat} {i : UInt16}
    (hlen : known.length ≤ 65535) (hi : i.toNat ≤ known.length) (hfuel : known.length - i.toNat < fuel)
    (hbefore : ∀ j, j < i.toNat → known.getD j [] ≠ strn L.filePathLen path)
    (hknown : ∀ x ∈ known, strn L.filePathLen x = x) :
    findPath L known path fuel i = some (decide (strn L.filePathLen path ∈ known)) := by
  induction fuel generalizing i with
  | zero => omega
  | succ fuel ih =>
    rw [findPath]
    by_cases hlt : i.toNat < known.length
    · have hmem : known.getD i.toNat [] ∈ known := by
        rw [List.getD_eq_getElem _ _ hlt]
        exact List.getElem_mem hlt
      rw [if_pos hlt, hknown _ hmem]
      by_cases heq : strn L.filePathLen path = known.getD i.toNat []
      · rw [if_pos heq, heq, decide_eq_true hmem]
      · have hnext : (i + 1).toNat = i.toNat + 1 := by
          rw [UInt16.toNat_add]
          have : (1 : UInt16).toNat = 1 := rfl
          omega
        rw [if_neg heq]
        refine ih (by omega) (by omega) fun j hj => ?_
        by_cases hji : j = i.toNat
        · subst hji
          exact fun h => heq h.symm
        · exact hbefore j (by omega)
    · rw [if_neg hlt]
      congr 1
      refine (decide_eq_false fun hmem => ?_).symm
      obtain ⟨j, hj, hget⟩ := List.getElem_of_mem hmem
      refine hbefore j (by omega) ?_
      rw [List.getD_eq_getElem _ _ hj, hget]

/-- One step of the loop, inside a file. -/
theorem pathWalk_succ {known : List (List UInt8)} {fuel l : Nat} (hl : L.Steps m p l) (hn : p + l ≤ n)
    (hlt : n < 2 ^ 31) : pathWalk L m (fuel + 1) known p ((n : Int) - p) =
      (findPath L known (m.read (p + L.filePath.off : Nat) L.filePathLen) fuel 0).bind fun found =>
        if found then
          (pathWalk L m fuel known (p + l) ((n : Int) - (p + l : Nat))).map (⟨p, 0⟩ :: ·)
        else
          (pathWalk L m fuel (known ++ [pathAt L m p]) (p + l) ((n : Int) - (p + l : Nat))).map
            (⟨p, strlenUpTo m (p + L.filePath.off) L.filePathLen⟩ :: ·) := by
  obtain ⟨hlen, hpos⟩ := hl
  have hsize : toI32 ((n : Int) - p - toI32 l) = (n : Int) - (p + l : Nat) := by
    have hl : toI32 (l : Int) = l := toI32_of_lt (by omega) (by omega)
    rw [hl, toI32_of_lt (by omega) (by omega)]
    omega
  rw [pathWalk, if_pos (by omega)]
  simp only [hlen, hsize]
  rfl

/-- Where the loop ends and copies no more than it may, the paths are closed. -/
theorem pathsEnd_of_walk (hlt : n < 2 ^ 31) {ls : List Nat} {known before : List (List UInt8)}
    {fuel : Nat} {visited : List PathVisit} (hrec : Records (L.Steps m) p ls n)
    (h : pathWalk L m fuel known p ((n : Int) - p) = some visited)
    (hcopied : ∀ v ∈ visited, v.copied ≤ L.filePathLen) (hbefore : ∀ x ∈ known, x ∈ before)
    (hknown : ∀ x ∈ known, strn L.filePathLen x = x) : PathsEnd L m before p ls := by
  induction ls generalizing p known before fuel visited with
  | nil => trivial
  | cons l ls ih =>
    cases fuel with
    | zero => cases h
    | succ fuel =>
      rw [pathWalk_succ hrec.1 hrec.2.le hlt] at h
      obtain ⟨found, hfound, h⟩ := Option.bind_eq_some_iff.mp h
      have hmore : ∀ x ∈ known, x ∈ before ++ [pathAt L m p] :=
        fun x hx => List.mem_append_left _ (hbefore x hx)
      cases found with
      | true =>
        rw [if_pos rfl] at h
        obtain ⟨rest, hrest, rfl⟩ := Option.map_eq_some_iff.mp h
        exact ⟨.inl (hbefore _ (mem_of_findPath hknown hfound)),
          ih hrec.2 hrest (fun v hv => hcopied v (List.mem_cons_of_mem _ hv)) hmore hknown⟩
      | false =>
        rw [if_neg (by decide)] at h
        obtain ⟨rest, hrest, rfl⟩ := Option.map_eq_some_iff.mp h
        refine ⟨.inr (hcopied _ List.mem_cons_self),
          ih hrec.2 hrest (fun v hv => hcopied v (List.mem_cons_of_mem _ hv)) ?_ ?_⟩
        · intro x hx
          rcases List.mem_append.mp hx with hx | hx
          · exact hmore x hx
          · exact List.mem_append_right _ hx
        · intro x hx
          rcases List.mem_append.mp hx with hx | hx
          · exact hknown x hx
          · rw [List.mem_singleton.mp hx]
            exact strn_strn _ _

/-- Over big files whose paths are closed the loop ends, and copies no more than it may. -/
theorem pathWalk_of_records (hlt : n < 2 ^ 31) {ls : List Nat} {known before : List (List UInt8)}
    {fuel : Nat} (hrec : Records (fun p l => L.Steps m p l ∧ p + L.bigFileFixed ≤ n) p ls n)
    (hends : PathsEnd L m before p ls) (hlen : known.length + ls.length ≤ 65535)
    (hfuel : known.length + 2 * ls.length + 1 < fuel) (hbefore : ∀ x ∈ before, x ∈ known)
    (hknown : ∀ x ∈ known, strn L.filePathLen x = x) :
    ∃ visited, pathWalk L m fuel known p ((n : Int) - p) = some visited ∧
      ∀ v ∈ visited, Inside L m n v.pos ∧ v.copied ≤ L.filePathLen := by
  induction ls generalizing p known before fuel with
  | nil =>
    obtain rfl : p = n := hrec
    obtain ⟨k, rfl⟩ := Nat.exists_eq_succ_of_ne_zero (Nat.ne_of_gt (Nat.zero_lt_of_lt hfuel))
    refine ⟨[], ?_, by simp⟩
    rw [pathWalk, if_neg (by omega)]
  | cons l ls ih =>
    rw [List.length_cons] at hlen hfuel
    obtain ⟨k, rfl⟩ := Nat.exists_eq_succ_of_ne_zero (Nat.ne_of_gt (Nat.zero_lt_of_lt hfuel))
    have hle := hrec.2.le
    have hinside : Inside L m n p := ⟨hrec.1.2, by rw [hrec.1.1.1]; exact hle⟩
    have hfind : findPath L known (m.read (p + L.filePath.off : Nat) L.filePathLen) k 0 =
        some (decide (pathAt L m p ∈ known)) := by
      have hzero : (0 : UInt16).toNat = 0 := rfl
      exact findPath_eq _ (by omega) (by omega) (by omega) (fun j hj => by omega) hknown
    rw [pathWalk_succ hrec.1.1 hle hlt, hfind, Option.bind_some]
    by_cases hmem : pathAt L m p ∈ known
    · rw [if_pos (decide_eq_true hmem)]
      have hsub : ∀ x ∈ before ++ [pathAt L m p], x ∈ known := by
        intro x hx
        rcases List.mem_append.mp hx with hx | hx
        · exact hbefore x hx
        · rwa [List.mem_singleton.mp hx]
      obtain ⟨rest, hrest, hsafe⟩ := ih hrec.2 hends.2 (by omega)
        (show known.length + 2 * ls.length + 1 < k by omega) hsub hknown
      refine ⟨_, by rw [hrest]; rfl, ?_⟩
      rintro v (_ | ⟨_, hv⟩)
      · exact ⟨hinside, Nat.zero_le _⟩
      · exact hsafe v hv
    · rw [if_neg (by simpa using hmem)]
      have hclosed := hends.1.resolve_left fun hb => hmem (hbefore _ hb)
      have hsub : ∀ x ∈ before ++ [pathAt L m p], x ∈ known ++ [pathAt L m p] := by
        intro x hx
        rcases List.mem_append.mp hx with hx | hx
        · exact List.mem_append_left _ (hbefore x hx)
        · exact List.mem_append_right _ hx
      have hclean : ∀ x ∈ known ++ [pathAt L m p], strn L.filePathLen x = x := by
        intro x hx
        rcases List.mem_append.mp hx with hx | hx
        · exact hknown x hx
        · rw [List.mem_singleton.mp hx]
          exact strn_strn _ _
      have hlen' : (known ++ [pathAt L m p]).length = known.length + 1 := by simp
      obtain ⟨rest, hrest, hsafe⟩ := ih hrec.2 hends.2 (by omega)
        (show (known ++ [pathAt L m p]).length + 2 * ls.length + 1 < k by omega) hsub hclean
      refine ⟨_, by rw [hrest]; rfl, ?_⟩
      rintro v (_ | ⟨_, hv⟩)
      · exact ⟨hinside, hclosed⟩
      · exact hsafe v hv

/-! ## Both -/

/-- The two loops are safe exactly if the file is tiled by big files whose paths are closed. -/
theorem safe_iff (hL : L.Valid) (m : Memory) {n : Nat} (hn : n ≤ recordIndexfileBufMax) :
    ParseSafe L m n ∧ PathsSafe L m n ↔ Tiled L m n := by
  have hhash := hashInside_iff hL hn
  have hskip := hL.md5Skip
  have hbuffer := hL.buffer
  unfold recordIndexfileBufMax at hn hbuffer
  have hlt : n < 2 ^ 31 := by omega
  have hstart : L.sizeofIndexfileHeader ≤ n →
      toI32 ((n : Int) - L.sizeofIndexfileHeader) = (n : Int) - L.sizeofIndexfileHeader :=
    fun h => toI32_of_lt (by omega) (by omega)
  constructor
  · rintro ⟨⟨hinside, fuel, visited, hwalk, hin⟩, hpaths⟩
    refine ⟨hhash.mp hinside, fun hheader => ?_⟩
    rcases hpaths with hsmall | ⟨-, fuel', visited', hwalk', hsafe⟩
    · omega
    rw [hstart (Nat.le_of_lt hheader)] at hwalk hwalk'
    obtain ⟨ls, hls⟩ := records_of_walk hlt (Nat.le_of_lt hheader) hwalk hin
    refine ⟨ls, hls, pathsEnd_of_walk hlt (hls.mono fun _ _ _ _ h => h.1) hwalk'
      (fun v hv => (hsafe v hv).2) (by simp) (by simp)⟩
  · rintro ⟨hle, htiled⟩
    have hnone : ¬ L.sizeofIndexfileHeader < n →
        ¬ 0 < toI32 ((n : Int) - L.sizeofIndexfileHeader) := by
      intro hheader
      unfold toI32
      rw [Int.bmod_eq_of_le (by omega) (by omega)]
      omega
    by_cases hheader : L.sizeofIndexfileHeader < n
    · obtain ⟨ls, hrec, hends⟩ := htiled hheader
      have hsteps := hrec.mono fun _ _ _ _ h => h.1
      have hcount := length_steps hL.fileInfoTotalLen ls _ hsteps
      refine ⟨⟨hhash.mpr hle, ls.length + 1, Records.starts L.sizeofIndexfileHeader ls, ?_, ?_⟩,
        .inr ⟨hhash.mpr hle, ?_⟩⟩
      · rw [hstart (Nat.le_of_lt hheader)]
        exact bigFileWalk_eq hsteps hlt (Nat.lt_succ_self _)
      · intro q hq
        obtain ⟨l, ⟨⟨hlen, -⟩, hfixed⟩, hql⟩ := hrec.exists_of_mem_starts hq
        exact ⟨hfixed, by rw [hlen]; exact hql⟩
      · rw [hstart (Nat.le_of_lt hheader)]
        exact ⟨2 * ls.length + 2, pathWalk_of_records hlt hrec hends
          (by rw [List.length_nil]; omega) (by rw [List.length_nil]; omega) (by simp) (by simp)⟩
    · -- there is nothing behind the header
      refine ⟨⟨hhash.mpr hle, 1, [], ?_, by simp⟩, .inr ⟨hhash.mpr hle, 1, [], ?_, by simp⟩⟩
      · rw [bigFileWalk, if_neg (hnone hheader)]
      · rw [pathWalk, if_neg (hnone hheader)]

/-- The index file with one cluster. -/
theorem safe_oneCluster :
    ParseSafe IndexRun.oneClusterFormat IndexRun.oneCluster.index.recordIndexBuffer 122 ∧
      PathsSafe IndexRun.oneClusterFormat IndexRun.oneCluster.index.recordIndexBuffer 122 := by
  refine (safe_iff (smallFormat_valid rfl) _ (by decide)).mpr ⟨by decide, fun _ => ⟨[94], ?_, ?_⟩⟩
  · exact ⟨⟨⟨by decide, by decide⟩, by decide⟩, rfl⟩
  · exact ⟨.inr (by decide), trivial⟩

/-- The MD5 digest of 41 zero bytes. -/
def zeroDigest : List UInt8 :=
  [245, 207, 215, 48, 35, 193, 238, 219, 107, 149, 105, 115, 96, 115, 241, 221]

/-- A file of 65 zero bytes, with the digest. -/
def zeroFile : Memory := Memory.write (fun _ => 0) 8 zeroDigest

/-- The digest of this file is right, and `parse_indexfile` does not return. -/
theorem zeroFile_endless :
    md5Decode (smallFormat zeroDigest) zeroFile 65 = true ∧
      ¬ (ParseSafe (smallFormat zeroDigest) zeroFile 65 ∧ PathsSafe (smallFormat zeroDigest) zeroFile 65) := by
  refine ⟨by decide, ?_⟩
  rintro ⟨⟨-, fuel, visited, hwalk, -⟩, -⟩
  have hzero : (smallFormat zeroDigest).fileInfoTotalLen.get zeroFile 28 = 0 := by decide
  have hnone := bigFileWalk_zero (L := smallFormat zeroDigest) (m := zeroFile) (p := 28) hzero
    (show 0 < toI32 ((65 : Nat) - (28 : Nat) : Int) by decide)
    (show toI32 ((65 : Nat) - (28 : Nat) : Int) < 2 ^ 31 by decide) fuel
  exact absurd (hwalk.symm.trans hnone) (by simp)

end AllCamera
