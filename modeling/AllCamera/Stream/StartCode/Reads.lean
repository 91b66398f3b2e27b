import AllCamera.Stream.StartCode

/-!
# What the search for a start code reads

The search once more, with loads that fail outside the buffer.

* `Buffer.load`, `Buffer.loadWord`: a byte and a word of the buffer; `Buffer.allEqual`: comparisons joined by `&&`.
* `Buffer.findStartcode`: the search with them; `Buffer.findStartcode_eq`: no load fails, and what is found is what
  `h264FindStartcode` finds.
* `naiveSearch`: the search for the first start code, position by position. `Buffer.findStartcode_naive`: both find
  the same.
-/

namespace AllCamera.StartCode

/-- A buffer: the bytes from `p` up to `stop`. -/
structure Buffer where
  m : Memory
  p : Int
  stop : Int

namespace Buffer

variable (b : Buffer)

/-- A byte of the buffer. -/
def load (i : Int) : Option UInt8 := if b.p ≤ i ∧ i < b.stop then some (b.m i) else none

/-- `*(const uint32_t*)p`, of which all bytes are in the buffer. -/
def loadWord (i : Int) : Option UInt32 := if b.p ≤ i ∧ i + 4 ≤ b.stop then some (b.m.u32 i) else none

/-- Comparisons joined by `&&`: a byte is loaded where those in front of it hold. -/
def allEqual : List (Int × UInt8) → Option Bool
  | [] => some true
  | (i, c) :: tests =>
    match b.load i with
    | none => none
    | some x => if x = c then allEqual tests else some false

/-- A loop over bytes. -/
def scanBytes (p stop : Int) : Option (Except Int Int) :=
  if p < stop then
    match b.allEqual [(p, 0), (p + 1, 0), (p + 2, 1)] with
    | none => none
    | some true => some (.error p)
    | some false => scanBytes (p + 1) stop
  else some (.ok p)
termination_by (stop - p).toNat

/-- The tests for a word that may have a zero. Each pair is in an `if` on its first comparison. -/
def wordTests (p : Int) : List (List (Int × UInt8) × Int) :=
  [([(p + 1, 0), (p, 0), (p + 2, 1)], p), ([(p + 1, 0), (p + 2, 0), (p + 3, 1)], p + 1),
    ([(p + 3, 0), (p + 2, 0), (p + 4, 1)], p + 2), ([(p + 3, 0), (p + 4, 0), (p + 5, 1)], p + 3)]

/-- The first test that holds. -/
def firstOf : List (List (Int × UInt8) × Int) → Option (Option Int)
  | [] => some none
  | (tests, q) :: rest =>
    match b.allEqual tests with
    | none => none
    | some true => some (some q)
    | some false => firstOf rest

/-- A pass of the loop over words. -/
def wordCode (p : Int) : Option (Option Int) :=
  match b.loadWord p with
  | none => none
  | some x => if hasZero x then b.firstOf (wordTests p) else some none

/-- The loop over words. -/
def scanWords (p stop : Int) : Option (Except Int Int) :=
  if p < stop then
    match b.wordCode p with
    | none => none
    | some (some q) => some (.error q)
    | some none => scanWords (p + 4) stop
  else some (.ok p)
termination_by (stop - p).toNat

/-- `h264_find_startcode_internal`. -/
def internal (align : Nat) : Option Int :=
  let a := b.p + 4 - (b.p + align) % 4
  match b.scanBytes b.p (min a (b.stop - 3)) with
  | none => none
  | some (.error q) => some q
  | some (.ok p) =>
    match b.scanWords p (b.stop - 6) with
    | none => none
    | some (.error q) => some q
    | some (.ok p) =>
      match b.scanBytes p (b.stop - 3) with
      | none => none
      | some (.error q) => some q
      | some (.ok _) => some b.stop

/-- The end of `h264_find_startcode`. -/
def backOverZero (out : Int) : Option Int :=
  if b.p < out ∧ out < b.stop then
    match b.load (out - 1) with
    | none => none
    | some x => some (if x = 0 then out - 1 else out)
  else some out

/-- `h264_find_startcode`. -/
def findStartcode (align : Nat) : Option Int :=
  match b.internal align with
  | none => none
  | some out => b.backOverZero out

/-! ## No load fails -/

variable {b} {p stop i : Int}

theorem load_eq (hp : b.p ≤ i) (hi : i < b.stop) : b.load i = some (b.m i) := if_pos ⟨hp, hi⟩

theorem allEqual_eq (tests : List (Int × UInt8)) (hin : ∀ t ∈ tests, b.p ≤ t.1 ∧ t.1 < b.stop) :
    b.allEqual tests = some (decide (∀ t ∈ tests, b.m t.1 = t.2)) := by
  induction tests with
  | nil => simp [allEqual]
  | cons t tests ih =>
    obtain ⟨i, c⟩ := t
    obtain ⟨hp, hi⟩ := hin (i, c) List.mem_cons_self
    have hrest := ih fun t ht => hin t (List.mem_cons_of_mem _ ht)
    rw [allEqual, load_eq hp hi]
    dsimp only
    by_cases heq : b.m i = c
    · rw [if_pos heq, hrest]
      simp [heq]
    · rw [if_neg heq]
      simp [heq]

theorem scanBytes_eq (hp : b.p ≤ p) (hstop : stop + 2 ≤ b.stop) :
    b.scanBytes p stop = some (StartCode.scanBytes b.m p stop) := by
  have hcode : ∀ p, b.p ≤ p → p < stop →
      b.allEqual [(p, 0), (p + 1, 0), (p + 2, 1)] = some (decide (CodeAt b.m p)) := by
    intro p hp hlt
    rw [allEqual_eq _ (by simp; omega)]
    exact congrArg some (decide_eq_decide.mpr (by simp [CodeAt]))
  fun_induction StartCode.scanBytes b.m p stop with
  | case1 p hlt h => rw [scanBytes, if_pos hlt, hcode p hp hlt, decide_eq_true h]
  | case2 p hlt h ih =>
    rw [scanBytes, if_pos hlt, hcode p hp hlt, decide_eq_false h]
    exact ih (by omega)
  | case3 p hge => rw [scanBytes, if_neg hge]

theorem firstOf_cons {tests : List (Int × UInt8)} {q : Int} {rest : List (List (Int × UInt8) × Int)}
    (hin : ∀ t ∈ tests, b.p ≤ t.1 ∧ t.1 < b.stop) : b.firstOf ((tests, q) :: rest) =
      if ∀ t ∈ tests, b.m t.1 = t.2 then some (some q) else b.firstOf rest := by
  rw [firstOf, allEqual_eq tests hin]
  by_cases h : ∀ t ∈ tests, b.m t.1 = t.2
  · rw [decide_eq_true h, if_pos h]
  · rw [decide_eq_false h, if_neg h]

theorem wordCode_eq (hp : b.p ≤ p) (hlast : p + 5 < b.stop) : b.wordCode p = some (StartCode.wordCode b.m p) := by
  have hword : b.loadWord p = some (b.m.u32 p) := if_pos ⟨hp, by omega⟩
  rw [wordCode, hword, StartCode.wordCode]
  dsimp only
  split
  · unfold wordTests
    rw [firstOf_cons (by simp; omega), firstOf_cons (by simp; omega), firstOf_cons (by simp; omega),
      firstOf_cons (by simp; omega), firstOf]
    simp only [List.forall_mem_cons, List.not_mem_nil, false_imp_iff, implies_true, and_true]
    split_ifs <;> rfl
  · rfl

theorem scanWords_eq (hp : b.p ≤ p) (hstop : stop + 5 ≤ b.stop) :
    b.scanWords p stop = some (StartCode.scanWords b.m p stop) := by
  fun_induction StartCode.scanWords b.m p stop with
  | case1 p hlt q hq => rw [scanWords, if_pos hlt, wordCode_eq hp (by omega), hq]
  | case2 p hlt hnone ih =>
    rw [scanWords, if_pos hlt, wordCode_eq hp (by omega), hnone]
    exact ih (by omega)
  | case3 p hge => rw [scanWords, if_neg hge]

theorem internal_eq (b : Buffer) (align : Nat) : b.internal align = some (StartCode.internal align b.m b.p b.stop) := by
  unfold internal StartCode.internal
  dsimp only
  generalize b.p + 4 - (b.p + align) % 4 = a
  rw [scanBytes_eq (Int.le_refl _) (by omega)]
  have hfirst := (scanBytes_spec b.m b.p (Int.le_refl (min a (b.stop - 3)))).1
  cases hbytes : StartCode.scanBytes b.m b.p (min a (b.stop - 3)) with
  | error q => rfl
  | ok p =>
    rw [hbytes] at hfirst
    dsimp only
    rw [scanWords_eq hfirst.1 (by omega)]
    have hsecond := scanWords_spec b.m p (Int.le_refl (b.stop - 6 + 3))
    cases hwords : StartCode.scanWords b.m p (b.stop - 6) with
    | error q => rfl
    | ok p' =>
      rw [hwords] at hsecond
      dsimp only
      rw [scanBytes_eq (Int.le_trans hfirst.1 hsecond.1) (by omega)]
      cases StartCode.scanBytes b.m p' (b.stop - 3) with
      | error q => rfl
      | ok q => rfl

/-- All loads are in the buffer. -/
theorem findStartcode_eq (b : Buffer) (align : Nat) :
    b.findStartcode align = some (h264FindStartcode align b.m b.p b.stop) := by
  rw [findStartcode, internal_eq]
  dsimp only [backOverZero, h264FindStartcode]
  generalize StartCode.internal align b.m b.p b.stop = out
  by_cases hin : b.p < out ∧ out < b.stop
  · rw [if_pos hin, load_eq (by omega) (by omega)]
    simp only [hin.1, hin.2, true_and]
  · rw [if_neg hin, if_neg fun h => hin ⟨h.1, h.2.1⟩]

end Buffer

/-! ## The naive search -/

/-- The first start code from `p` on that has a byte behind it. -/
def naiveCode (m : Memory) (p stop : Int) : Option Int :=
  if p + 3 < stop then if CodeAt m p then some p else naiveCode m (p + 1) stop else none
termination_by (stop - p).toNat

/-- With the zero in front of it, if that is in the buffer; and the end if there is none. -/
def naiveSearch (m : Memory) (p stop : Int) : Int :=
  match naiveCode m p stop with
  | none => stop
  | some q => if p < q ∧ m (q - 1) = 0 then q - 1 else q

theorem naiveCode_spec (m : Memory) (p stop : Int) : match naiveCode m p stop with
    | none => ∀ r, p ≤ r → r < stop - 3 → ¬ CodeAt m r
    | some q => FirstCode m p stop q := by
  fun_induction naiveCode m p stop with
  | case1 p hlt hcode => exact ⟨Int.le_refl p, by omega, hcode, fun r hpr hrp => by omega⟩
  | case2 p hlt hcode ih =>
    have hall : ∀ s, (∀ r, p + 1 ≤ r → r < s → ¬ CodeAt m r) → ∀ r, p ≤ r → r < s → ¬ CodeAt m r := by
      intro s hs r hpr hrs
      by_cases hr : r = p
      · exact hr ▸ hcode
      · exact hs r (by omega) hrs
    cases hnaive : naiveCode m (p + 1) stop with
    | none =>
      rw [hnaive] at ih
      exact hall _ ih
    | some q =>
      rw [hnaive] at ih
      exact ⟨by have := ih.1; omega, ih.2.1, ih.2.2.1, hall q ih.2.2.2⟩
  | case3 p hge =>
    intro r hpr hrs
    omega

/-- **The search.** For every buffer and every alignment of it: all that is read is in the buffer, and what is returned
is what the naive search returns. -/
theorem Buffer.findStartcode_naive (b : Buffer) (align : Nat) :
    b.findStartcode align = some (naiveSearch b.m b.p b.stop) := by
  rw [findStartcode_eq]
  have hspec := naiveCode_spec b.m b.p b.stop
  unfold naiveSearch
  cases hnaive : naiveCode b.m b.p b.stop with
  | none =>
    rw [hnaive] at hspec
    rw [find_of_none align hspec]
  | some q =>
    rw [hnaive] at hspec
    rw [find_of_firstCode align hspec]

end AllCamera.StartCode
