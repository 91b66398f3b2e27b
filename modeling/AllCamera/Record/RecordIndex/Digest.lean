import AllCamera.Record.RecordIndex.Walk

/-!
# The digest of an index file

`md5_decode` compares the digest in the header with that of the file by `strncmp`: what lies behind a zero byte that
both have is not compared.

* `CutShort`: two digests that differ behind such a byte only. `md5Decode_iff`: what `md5_decode` accepts.
* `parseAllBigRecordfilePath`: `parse_all_big_recordfile_path`.
* `checksDigest_iff`: when the two readers accept a file with the right digest only.
-/

namespace AllCamera

open IndexFormat

/-- The same up to a zero byte and with it, and not the same behind it. -/
def CutShort : List UInt8 → List UInt8 → Prop
  | a :: as, b :: bs => a = b ∧ if a = 0 then as ≠ bs else CutShort as bs
  | _, _ => False

theorem cutShort_cons (a b : UInt8) (as bs : List UInt8) :
    CutShort (a :: as) (b :: bs) ↔ a = b ∧ if a = 0 then as ≠ bs else CutShort as bs := Iff.rfl

/-- What the comparison takes for the same. -/
theorem takeWhile_eq_iff {a b : List UInt8} (h : a.length = b.length) :
    a.takeWhile (· ≠ 0) = b.takeWhile (· ≠ 0) ↔ a = b ∨ CutShort a b := by
  induction a generalizing b with
  | nil =>
    obtain rfl : b = [] := List.eq_nil_of_length_eq_zero h.symm
    simp
  | cons x as ih =>
    obtain ⟨y, bs, rfl⟩ := List.exists_cons_of_length_eq_add_one h.symm
    have htail := ih (Nat.succ.inj h)
    rw [cutShort_cons, List.takeWhile_cons, List.takeWhile_cons, List.cons.injEq]
    by_cases hx : x = 0
    · by_cases hy : y = 0
      · -- here it stops
        subst hx hy
        simpa using Classical.em (as = bs)
      · have hne : x ≠ y := fun heq => hy (heq ▸ hx)
        simp [hx, hy, Ne.symm hy]
    · by_cases hy : y = 0
      · simp [hx, hy]
      · simp only [hx, hy, ne_eq, not_false_eq_true, decide_true, if_true, if_false, List.cons.injEq]
        rw [htail, ← and_or_left]

theorem strn_eq_iff {k : Nat} {a b : List UInt8} (ha : a.length = k) (hb : b.length = k) :
    strn k a = strn k b ↔ a = b ∨ CutShort a b := by
  rw [strn, strn, List.take_of_length_le (Nat.le_of_eq ha), List.take_of_length_le (Nat.le_of_eq hb)]
  exact takeWhile_eq_iff (ha.trans hb.symm)

theorem not_cutShort_self (a : List UInt8) : ¬ CutShort a a := by
  induction a with
  | nil => exact id
  | cons x as ih =>
    rw [cutShort_cons]
    rintro ⟨-, h⟩
    split at h
    · exact h rfl
    · exact ih h

/-! ## The readers -/

namespace IndexFormat

variable (L : IndexFormat) (m : Memory)

/-- The digest in the header. -/
def storedDigest : List UInt8 := m.read L.md5code.off L.md5CodeLen

/-- The digest of a file of `n` bytes. -/
def fileDigest (n : Nat) : List UInt8 := L.md5 (m.read L.md5Skip (n - L.md5Skip))

end IndexFormat

/-- What the system calls return to `parse_all_big_recordfile_path`; `read` is whether as many bytes are read as it asks
for. -/
structure PathsEnv where
  stat : Bool
  alloc : Bool
  opened : Bool
  read : Bool
  deriving DecidableEq, Repr

/-- `parse_all_big_recordfile_path` of a file of `stSize` bytes; none if the loop has not ended after `fuel` tests. -/
def parseAllBigRecordfilePath (L : IndexFormat) (e : PathsEnv) (m : Memory) (stSize fuel : Nat) :
    Option (Int32 × List PathVisit) :=
  if !e.stat then some (svsResultFailure, [])
  else if toU32 stSize < L.sizeofIndexfileHeader then some (svsResultFailure, [])
  else if !e.alloc then some (svsResultFailure, [])
  else if !e.opened then some (svsResultFailure, [])
  -- the size is cut to 32 bits where it is asked for
  else if !e.read ∨ toU32 stSize ≠ stSize then some (svsResultFailure, [])
  else if !md5Decode L m stSize then some (svsResultFailure, [])
  else
    let fileSize := toI32 ((stSize : Int) - L.sizeofIndexfileHeader)
    (pathWalk L m fuel [] L.sizeofIndexfileHeader fileSize).map (svsResultOk, ·)

/-- The calls have what they ask for. -/
def PathsEnv.Ok (e : PathsEnv) : Prop := e.stat = true ∧ e.alloc = true ∧ e.opened = true ∧ e.read = true

variable {L : IndexFormat} {m : Memory} {n : Nat}

theorem md5Decode_iff (hL : L.Valid) (hskip : L.md5Skip ≤ n) (hn : n < 2 ^ 32) :
    md5Decode L m n = true ↔
      n ≠ L.md5Skip ∧ (L.fileDigest m n = L.storedDigest m ∨ CutShort (L.fileDigest m n) (L.storedDigest m)) := by
  have hlen : toU32 ((n : Int) - L.md5Skip) = n - L.md5Skip := by
    unfold toU32
    omega
  have hdigest : (L.fileDigest m n).length = L.md5CodeLen := hL.md5 _
  have hstored : (L.storedDigest m).length = L.md5CodeLen := Memory.length_read ..
  rw [md5Decode, hlen, ← strn_eq_iff hdigest hstored]
  by_cases hzero : n = L.md5Skip
  · simp [hzero]
  · rw [if_neg (by omega), decide_eq_true_iff]
    exact ⟨fun h => ⟨hzero, h⟩, fun h => h.2⟩

/-! ## `parse_indexfile` -/

/-- Where there is more than the header, the loop has come to a big file when it ends. -/
theorem bigFileWalk_ne_nil {p fuel : Nat} {size : Int} (hpos : 0 < size) : bigFileWalk L m fuel p size ≠ some [] := by
  cases fuel with
  | zero => exact nofun
  | succ fuel =>
    rw [bigFileWalk, if_pos hpos]
    intro h
    obtain ⟨rest, -, hrest⟩ := Option.map_eq_some_iff.mp h
    cases hrest

variable {s : RecordIndexfile} {recordFilePath : List UInt8}

theorem parseIndexfile_of_md5Decode (h : md5Decode L s.recordIndexBuffer s.indexfileSize = false) :
    s.parseIndexfile L recordFilePath = some (.failed true) := by
  simp [RecordIndexfile.parseIndexfile, h]

/-- With a digest that is accepted and something behind the header, it does not fail. -/
theorem parseIndexfile_ne_failed (h : md5Decode L s.recordIndexBuffer s.indexfileSize = true)
    (hpos : 0 < toI32 ((s.indexfileSize : Int) - L.sizeofIndexfileHeader)) (u : Bool) :
    s.parseIndexfile L recordFilePath ≠ some (.failed u) := by
  unfold RecordIndexfile.parseIndexfile
  simp only [h, Bool.not_true, Bool.false_eq_true, if_false]
  intro hparse
  obtain ⟨visited, hwalk, hresult⟩ := Option.map_eq_some_iff.mp hparse
  cases hlast : visited.getLast? with
  | none =>
    rw [List.getLast?_eq_none_iff.mp hlast] at hwalk
    exact bigFileWalk_ne_nil hpos hwalk
  | some pos =>
    rw [hlast] at hresult
    revert hresult
    simp only
    split <;> exact nofun

/-- With the header only, it fails. -/
theorem parseIndexfile_header (h : ¬ 0 < toI32 ((s.indexfileSize : Int) - L.sizeofIndexfileHeader)) :
    ∃ u, s.parseIndexfile L recordFilePath = some (.failed u) := by
  by_cases hmd5 : md5Decode L s.recordIndexBuffer s.indexfileSize = true
  · refine ⟨false, ?_⟩
    have hwalk : bigFileWalk L s.recordIndexBuffer (recordIndexfileBufMax + 1) L.sizeofIndexfileHeader
        (toI32 ((s.indexfileSize : Int) - L.sizeofIndexfileHeader)) = some [] := if_neg h
    simp [RecordIndexfile.parseIndexfile, hmd5, hwalk]
  · exact ⟨true, parseIndexfile_of_md5Decode (Bool.eq_false_iff.mpr hmd5)⟩

/-- `parse_indexfile` accepts a file with the right digest only, and rejects any other. -/
def ParseChecksDigest (L : IndexFormat) (s : RecordIndexfile) (recordFilePath : List UInt8) : Prop :=
  ((∃ isNewBigFile cursor, s.parseIndexfile L recordFilePath = some (.parsed isNewBigFile cursor)) →
    L.storedDigest s.recordIndexBuffer = L.fileDigest s.recordIndexBuffer s.indexfileSize) ∧
  (L.storedDigest s.recordIndexBuffer ≠ L.fileDigest s.recordIndexBuffer s.indexfileSize →
    ∃ unlinked, s.parseIndexfile L recordFilePath = some (.failed unlinked))

theorem parseChecksDigest_iff (hL : L.Valid) (hle : L.sizeofIndexfileHeader ≤ s.indexfileSize)
    (hmax : s.indexfileSize ≤ recordIndexfileBufMax) :
    ParseChecksDigest L s recordFilePath ↔ s.indexfileSize = L.sizeofIndexfileHeader ∨
      ¬ CutShort (L.fileDigest s.recordIndexBuffer s.indexfileSize) (L.storedDigest s.recordIndexBuffer) := by
  have hskip := hL.md5Skip
  unfold recordIndexfileBufMax at hmax
  have hsize : toI32 ((s.indexfileSize : Int) - L.sizeofIndexfileHeader) =
      (s.indexfileSize : Int) - L.sizeofIndexfileHeader := toI32_of_lt (by omega) (by omega)
  have hmd5 := md5Decode_iff (m := s.recordIndexBuffer) hL (hskip.trans hle) (by omega)
  constructor
  · rintro ⟨-, hrejects⟩
    by_cases hheader : s.indexfileSize = L.sizeofIndexfileHeader
    · exact .inl hheader
    refine .inr fun hcut => ?_
    have hne : L.storedDigest s.recordIndexBuffer ≠ L.fileDigest s.recordIndexBuffer s.indexfileSize :=
      fun heq => not_cutShort_self _ (heq ▸ hcut)
    obtain ⟨u, hu⟩ := hrejects hne
    have haccepts := hmd5.mpr ⟨by omega, .inr hcut⟩
    exact parseIndexfile_ne_failed haccepts (by omega) u hu
  · intro h
    have hfails : L.storedDigest s.recordIndexBuffer ≠ L.fileDigest s.recordIndexBuffer s.indexfileSize →
        ∃ u, s.parseIndexfile L recordFilePath = some (.failed u) := by
      intro hne
      rcases h with hheader | hcut
      · exact parseIndexfile_header (by omega)
      · refine ⟨true, parseIndexfile_of_md5Decode (Bool.eq_false_iff.mpr fun haccepts => ?_)⟩
        rcases (hmd5.mp haccepts).2 with heq | hsame
        · exact hne heq.symm
        · exact hcut hsame
    refine ⟨?_, hfails⟩
    rintro ⟨isNewBigFile, cursor, hparsed⟩
    by_contra hne
    obtain ⟨u, hu⟩ := hfails hne
    rw [hparsed] at hu
    cases hu

/-! ## `parse_all_big_recordfile_path` -/

/-- The same of `parse_all_big_recordfile_path`. -/
def PathsChecksDigest (L : IndexFormat) (e : PathsEnv) (m : Memory) (n : Nat) : Prop :=
  ((∃ fuel visited, parseAllBigRecordfilePath L e m n fuel = some (svsResultOk, visited)) →
    L.storedDigest m = L.fileDigest m n) ∧
  (L.storedDigest m ≠ L.fileDigest m n →
    ∃ fuel visited, parseAllBigRecordfilePath L e m n fuel = some (svsResultFailure, visited))

theorem toU32_eq_iff : toU32 n = n ↔ n < 2 ^ 32 := by
  unfold toU32
  omega

/-- Where a call or the digest fails, it fails. -/
theorem parseAllBigRecordfilePath_failed {e : PathsEnv} (h : ¬ (e.Ok ∧ n < 2 ^ 32 ∧ md5Decode L m n = true))
    (fuel : Nat) : parseAllBigRecordfilePath L e m n fuel = some (svsResultFailure, []) := by
  rw [← toU32_eq_iff] at h
  unfold PathsEnv.Ok at h
  unfold parseAllBigRecordfilePath
  grind

/-- Otherwise its result is that of the loop. -/
theorem parseAllBigRecordfilePath_eq {e : PathsEnv} (hok : e.Ok) (hn : n < 2 ^ 32)
    (hle : L.sizeofIndexfileHeader ≤ n) (h : md5Decode L m n = true) (fuel : Nat) :
    parseAllBigRecordfilePath L e m n fuel =
      (pathWalk L m fuel [] L.sizeofIndexfileHeader (toI32 ((n : Int) - L.sizeofIndexfileHeader))).map
        (svsResultOk, ·) := by
  obtain ⟨hstat, halloc, hopened, hread⟩ := hok
  unfold parseAllBigRecordfilePath
  rw [toU32_eq_iff.mpr hn]
  simp [hstat, halloc, hopened, hread, h, Nat.not_lt.mpr hle]

theorem pathsChecksDigest_iff (hL : L.Valid) {e : PathsEnv} (hle : L.sizeofIndexfileHeader ≤ n) :
    PathsChecksDigest L e m n ↔ ¬ e.Ok ∨ 2 ^ 32 ≤ n ∨ n = L.md5Skip ∨
      ¬ CutShort (L.fileDigest m n) (L.storedDigest m) := by
  have hcodes : svsResultOk ≠ svsResultFailure := by decide
  have hmd5 := fun hn => md5Decode_iff (m := m) hL (hL.md5Skip.trans hle) hn
  constructor
  · rintro ⟨-, hrejects⟩
    by_contra h
    simp only [not_or, not_not, Nat.not_le] at h
    obtain ⟨hok, hn, hskip, hcut⟩ := h
    have hne : L.storedDigest m ≠ L.fileDigest m n := fun heq => not_cutShort_self _ (heq ▸ hcut)
    obtain ⟨fuel, visited, hfailed⟩ := hrejects hne
    rw [parseAllBigRecordfilePath_eq hok hn hle ((hmd5 hn).mpr ⟨hskip, .inr hcut⟩)] at hfailed
    obtain ⟨visited', -, heq⟩ := Option.map_eq_some_iff.mp hfailed
    exact hcodes (Prod.mk.inj heq).1
  · intro h
    have hfails : L.storedDigest m ≠ L.fileDigest m n →
        ∀ fuel, parseAllBigRecordfilePath L e m n fuel = some (svsResultFailure, []) := by
      intro hne fuel
      apply parseAllBigRecordfilePath_failed
      rintro ⟨hok, hn, haccepts⟩
      obtain ⟨hskip, hsame⟩ := (hmd5 hn).mp haccepts
      rcases h with hnot | hbig | hempty | hcut
      · exact hnot hok
      · omega
      · exact hskip hempty
      · exact hcut (hsame.resolve_left (Ne.symm hne))
    refine ⟨?_, fun hne => ⟨0, [], hfails hne 0⟩⟩
    rintro ⟨fuel, visited, haccepted⟩
    by_contra hne
    rw [hfails hne fuel] at haccepted
    exact hcodes (Prod.mk.inj (Option.some.inj haccepted)).1.symm

/-! ## Both -/

/-- **The digest of an index file.** Each of the two readers accepts a file with the right digest only, and rejects any
other, exactly if the two digests do not differ behind a common zero byte only, or it comes to no big file: there is
nothing to read, or a system call fails. -/
theorem checksDigest_iff (hL : L.Valid) :
    (∀ (s : RecordIndexfile) (recordFilePath : List UInt8), L.sizeofIndexfileHeader ≤ s.indexfileSize →
      s.indexfileSize ≤ recordIndexfileBufMax →
      (ParseChecksDigest L s recordFilePath ↔ s.indexfileSize = L.sizeofIndexfileHeader ∨
        ¬ CutShort (L.fileDigest s.recordIndexBuffer s.indexfileSize) (L.storedDigest s.recordIndexBuffer))) ∧
    ∀ (e : PathsEnv) (m : Memory) (n : Nat), L.sizeofIndexfileHeader ≤ n →
      (PathsChecksDigest L e m n ↔ ¬ e.Ok ∨ 2 ^ 32 ≤ n ∨ n = L.md5Skip ∨
        ¬ CutShort (L.fileDigest m n) (L.storedDigest m)) :=
  ⟨fun _ _ hle hmax => parseChecksDigest_iff hL hle hmax, fun _ _ _ hle => pathsChecksDigest_iff hL hle⟩

/-- A digest that begins with a zero byte. -/
def openDigest : List UInt8 := [0, 1, 2, 3, 4, 5, 6, 7, 8, 9, 10, 11, 12, 13, 14, 15]

/-- An index file of one big file of 37 bytes, in whose header all of the digest is 0. -/
def forgedFile : RecordIndexfile :=
  { RecordIndexfile.new fun _ => 0 with
    recordIndexBuffer := Memory.write (fun _ => 0) 28 [37, 0, 0, 0]
    indexfileSize := 65 }

/-- With a digest that begins otherwise, both reject this file. -/
theorem checksDigest_iff_forged :
    ParseChecksDigest (smallFormat zeroDigest) forgedFile [] ∧
      PathsChecksDigest (smallFormat zeroDigest) ⟨true, true, true, true⟩ forgedFile.recordIndexBuffer 65 := by
  have hcut : ¬ CutShort ((smallFormat zeroDigest).fileDigest forgedFile.recordIndexBuffer 65)
      ((smallFormat zeroDigest).storedDigest forgedFile.recordIndexBuffer) := fun h => absurd h.1 (by decide)
  have hboth := checksDigest_iff (smallFormat_valid (show zeroDigest.length = 16 from rfl))
  exact ⟨(hboth.1 forgedFile [] (by decide) (by decide)).mpr (.inr hcut),
    (hboth.2 ⟨true, true, true, true⟩ _ 65 (by decide)).mpr (.inr (.inr (.inr hcut)))⟩

/-- With the one that begins with a zero byte, neither does. -/
theorem not_checksDigest_forged :
    ¬ ParseChecksDigest (smallFormat openDigest) forgedFile [] ∧
      ¬ PathsChecksDigest (smallFormat openDigest) ⟨true, true, true, true⟩ forgedFile.recordIndexBuffer 65 := by
  have hcut : CutShort ((smallFormat openDigest).fileDigest forgedFile.recordIndexBuffer 65)
      ((smallFormat openDigest).storedDigest forgedFile.recordIndexBuffer) := ⟨by decide, by rw [if_pos rfl]; decide⟩
  have hL : (smallFormat openDigest).Valid := smallFormat_valid rfl
  refine ⟨fun h => ?_, fun h => ?_⟩
  · rcases (parseChecksDigest_iff hL (by decide) (by decide)).mp h with hheader | hnot
    · exact absurd hheader (by decide)
    · exact hnot hcut
  · rcases (pathsChecksDigest_iff hL (by decide)).mp h with hok | hbig | hempty | hnot
    · exact hok ⟨rfl, rfl, rfl, rfl⟩
    · exact absurd hbig (by decide)
    · exact absurd hempty (by decide)
    · exact hnot hcut

end AllCamera
