import AllCamera.Lib.Find
import AllCamera.Lib.Memory

/-!
# The search for a start code (`h264_find_startcode`)

The bytes between two pointers are searched: byte by byte up to an aligned address, by words from there on, and
byte by byte at the end. `align` is the address of the memory's first byte modulo 4.

* `h264FindStartcode`; `scanBytes` and `scanWords` are its loops.
* `pos_of_hasZero`: a word without the flag has no zero byte, so no start code begins in it.
* `internal_eq`: what is found is the first `00 00 01` with a byte behind it.
-/

namespace AllCamera.StartCode

/-- `p[0] == 0 && p[1] == 0 && p[2] == 1`. -/
def CodeAt (m : Memory) (p : Int) : Prop := m p = 0 ∧ m (p + 1) = 0 ∧ m (p + 2) = 1

instance (m : Memory) (p : Int) : Decidable (CodeAt m p) := inferInstanceAs (Decidable (_ ∧ _ ∧ _))

/-- A loop over bytes: the start code, or where the loop ends. -/
def scanBytes (m : Memory) (p stop : Int) : Except Int Int :=
  if p < stop then if CodeAt m p then .error p else scanBytes m (p + 1) stop else .ok p
termination_by (stop - p).toNat

/-- `(x - 0x01010101) & (~x) & 0x80808080`. -/
def hasZero (x : UInt32) : Bool := (x - 0x01010101) &&& ~~~x &&& 0x80808080 != 0

/-- A pass of the loop over words. -/
def wordCode (m : Memory) (p : Int) : Option Int :=
  if hasZero (m.u32 p) then
    if m (p + 1) = 0 ∧ m p = 0 ∧ m (p + 2) = 1 then some p
    else if m (p + 1) = 0 ∧ m (p + 2) = 0 ∧ m (p + 3) = 1 then some (p + 1)
    else if m (p + 3) = 0 ∧ m (p + 2) = 0 ∧ m (p + 4) = 1 then some (p + 2)
    else if m (p + 3) = 0 ∧ m (p + 4) = 0 ∧ m (p + 5) = 1 then some (p + 3)
    else none
  else none

/-- The loop over words. -/
def scanWords (m : Memory) (p stop : Int) : Except Int Int :=
  if p < stop then
    match wordCode m p with
    | some q => .error q
    | none => scanWords m (p + 4) stop
  else .ok p
termination_by (stop - p).toNat

/-- `h264_find_startcode_internal`. -/
def internal (align : Nat) (m : Memory) (p stop : Int) : Int :=
  let a := p + 4 - (p + align) % 4
  match scanBytes m p (min a (stop - 3)) with
  | .error q => q
  | .ok p =>
    match scanWords m p (stop - 6) with
    | .error q => q
    | .ok p =>
      match scanBytes m p (stop - 3) with
      | .error q => q
      | .ok _ => stop

/-- `h264_find_startcode`. -/
def h264FindStartcode (align : Nat) (m : Memory) (p stop : Int) : Int :=
  let out := internal align m p stop
  if p < out ∧ out < stop ∧ m (out - 1) = 0 then out - 1 else out

/-! ## Words -/

/-- A bit of the flag of a word. -/
theorem testBit_of_hasZero {x : UInt32} (h : hasZero x = false) (k : Nat) (hk : Nat.testBit 0x80808080 k = true)
    (hlt : k < 32) (hbit : (x - 0x01010101).toNat / 2 ^ k % 2 = 1) : x.toNat / 2 ^ k % 2 = 1 := by
  have hzero : ((x - 0x01010101) &&& ~~~x &&& 0x80808080).toNat.testBit k = false := by
    rw [of_not_not (fun hne => by simp [hasZero, hne] at h : ¬ ¬ (x - 0x01010101) &&& ~~~x &&& 0x80808080 = 0)]
    exact Nat.zero_testBit k
  have hconst : (0x80808080 : UInt32).toNat = 0x80808080 := rfl
  rw [UInt32.toNat_and, UInt32.toNat_and, UInt32.toNat_not, Nat.testBit_and, Nat.testBit_and, hconst, hk,
    Bool.and_true, Nat.testBit_eq_decide_div_mod_eq, decide_eq_true hbit, Bool.true_and] at hzero
  have hx := x.toNat_lt
  by_contra hne
  -- the complement has the bit that the word has not
  rw [show UInt32.size - 1 - x.toNat = 2 ^ 32 - (x.toNat + 1) by simp only [UInt32.size]; omega,
    Nat.testBit_two_pow_sub_succ hx, decide_eq_true hlt, Nat.testBit_eq_decide_div_mod_eq,
    decide_eq_false hne] at hzero
  cases hzero

/-- A word without the flag has no zero byte. -/
theorem pos_of_hasZero {x : UInt32} (h : hasZero x = false) :
    0 < x.toNat % 256 ∧ 0 < x.toNat / 256 % 256 ∧ 0 < x.toNat / 65536 % 256 ∧ 0 < x.toNat / 16777216 := by
  have hx := x.toNat_lt
  have hsub : (x - 0x01010101).toNat = (2 ^ 32 - 0x01010101 + x.toNat) % 2 ^ 32 := UInt32.toNat_sub ..
  have h7 := testBit_of_hasZero h 7 rfl (by decide)
  have h15 := testBit_of_hasZero h 15 rfl (by decide)
  have h23 := testBit_of_hasZero h 23 rfl (by decide)
  have h31 := testBit_of_hasZero h 31 rfl (by decide)
  rw [hsub] at h7 h15 h23 h31
  generalize x.toNat = n at *
  -- the lowest zero byte borrows, so its high bit is set in the difference and not in the word
  have hb0 : 0 < n % 256 := by omega
  have hb1 : 0 < n / 256 % 256 := by omega
  have hb2 : 0 < n / 65536 % 256 := by omega
  have hb3 : 0 < n / 16777216 := by omega
  exact ⟨hb0, hb1, hb2, hb3⟩

variable {m : Memory} {p q r stop lim : Int}

/-- A zero byte sets the flag. -/
theorem byte_ne_zero (h : hasZero (m.u32 p) = false) : m p ≠ 0 ∧ m (p + 1) ≠ 0 ∧ m (p + 2) ≠ 0 ∧ m (p + 3) ≠ 0 := by
  have hpos := pos_of_hasZero h
  have h0 := (m p).toNat_lt
  have h1 := (m (p + 1)).toNat_lt
  have h2 := (m (p + 2)).toNat_lt
  have h3 := (m (p + 3)).toNat_lt
  simp only [Memory.u32, be32, UInt32.toNat_ofNat'] at hpos
  refine ⟨?_, ?_, ?_, ?_⟩ <;> (intro heq; rw [heq] at hpos; simp only [UInt8.toNat_zero] at hpos; omega)

/-! ## What is found -/

/-- What a loop from `p` on leaves: the first start code, which is in front of `lim`, or how far there is none. -/
def Searched (m : Memory) (p lim : Int) : Except Int Int → Prop
  | .error q => p ≤ q ∧ q < lim ∧ CodeAt m q ∧ ∀ r, p ≤ r → r < q → ¬ CodeAt m r
  | .ok q => p ≤ q ∧ ∀ r, p ≤ r → r < q → ¬ CodeAt m r

/-- The loop goes on behind positions without a start code. -/
theorem Searched.of_le {res : Except Int Int} (h : Searched m q lim res) (hle : p ≤ q)
    (hnone : ∀ r, p ≤ r → r < q → ¬ CodeAt m r) : Searched m p lim res := by
  have hall : ∀ s, (∀ r, q ≤ r → r < s → ¬ CodeAt m r) → ∀ r, p ≤ r → r < s → ¬ CodeAt m r := by
    intro s hs r hpr hrs
    by_cases hr : r < q
    · exact hnone r hpr hr
    · exact hs r (by omega) hrs
  cases res with
  | error s => exact ⟨by have := h.1; omega, h.2.1, h.2.2.1, hall s h.2.2.2⟩
  | ok s => exact ⟨by have := h.1; omega, hall s h.2⟩

theorem scanBytes_spec (m : Memory) (p : Int) (hlim : stop ≤ lim) :
    Searched m p lim (scanBytes m p stop) ∧ ∀ q, scanBytes m p stop = .ok q → stop ≤ q := by
  fun_induction scanBytes m p stop with
  | case1 p hlt hcode => exact ⟨⟨Int.le_refl p, by omega, hcode, fun r hpr hrp => by omega⟩, fun q hq => by cases hq⟩
  | case2 p hlt hcode ih =>
    refine ⟨ih.1.of_le (by omega) fun r hpr hrp => ?_, ih.2⟩
    rwa [show r = p by omega]
  | case3 p hge =>
    refine ⟨⟨Int.le_refl p, fun r hpr hrp => by omega⟩, fun q hq => ?_⟩
    cases hq
    omega

/-- The start codes that begin in a word, as the passes of the loop test them. -/
theorem codeAt_word (m : Memory) (p : Int) :
    (CodeAt m p ↔ m (p + 1) = 0 ∧ m p = 0 ∧ m (p + 2) = 1) ∧
      (CodeAt m (p + 1) ↔ m (p + 1) = 0 ∧ m (p + 2) = 0 ∧ m (p + 3) = 1) ∧
      (CodeAt m (p + 2) ↔ m (p + 3) = 0 ∧ m (p + 2) = 0 ∧ m (p + 4) = 1) ∧
      (CodeAt m (p + 3) ↔ m (p + 3) = 0 ∧ m (p + 4) = 0 ∧ m (p + 5) = 1) := by
  simp only [CodeAt, show p + 1 + 1 = p + 2 by omega, show p + 1 + 2 = p + 3 by omega, show p + 2 + 1 = p + 3 by omega,
    show p + 2 + 2 = p + 4 by omega, show p + 3 + 1 = p + 4 by omega, show p + 3 + 2 = p + 5 by omega]
  exact ⟨and_left_comm, trivial, and_left_comm, trivial⟩

/-- A pass of the loop over words finds the first start code that begins in the word. -/
theorem wordCode_spec (m : Memory) (p : Int) : match wordCode m p with
    | some q => p ≤ q ∧ q < p + 4 ∧ CodeAt m q ∧ ∀ r, p ≤ r → r < q → ¬ CodeAt m r
    | none => ∀ r, p ≤ r → r < p + 4 → ¬ CodeAt m r := by
  obtain ⟨h0, h1, h2, h3⟩ := codeAt_word m p
  unfold wordCode
  split_ifs with hz c0 c1 c2 c3
  · exact ⟨Int.le_refl p, by omega, h0.mpr c0, fun r hpr hrp => by omega⟩
  · refine ⟨by omega, by omega, h1.mpr c1, fun r hpr hrp => ?_⟩
    rw [show r = p by omega, h0]
    exact c0
  · refine ⟨by omega, by omega, h2.mpr c2, fun r hpr hrp => ?_⟩
    obtain rfl | rfl : r = p ∨ r = p + 1 := by omega
    · exact fun h => c0 (h0.mp h)
    · exact fun h => c1 (h1.mp h)
  · refine ⟨by omega, by omega, h3.mpr c3, fun r hpr hrp => ?_⟩
    obtain rfl | rfl | rfl : r = p ∨ r = p + 1 ∨ r = p + 2 := by omega
    · exact fun h => c0 (h0.mp h)
    · exact fun h => c1 (h1.mp h)
    · exact fun h => c2 (h2.mp h)
  · intro r hpr hrp
    obtain rfl | rfl | rfl | rfl : r = p ∨ r = p + 1 ∨ r = p + 2 ∨ r = p + 3 := by omega
    · exact fun h => c0 (h0.mp h)
    · exact fun h => c1 (h1.mp h)
    · exact fun h => c2 (h2.mp h)
    · exact fun h => c3 (h3.mp h)
  · -- without a zero byte in the word no start code begins there
    obtain ⟨b0, b1, b2, b3⟩ := byte_ne_zero (Bool.not_eq_true _ ▸ hz)
    intro r hpr hrp
    obtain rfl | rfl | rfl | rfl : r = p ∨ r = p + 1 ∨ r = p + 2 ∨ r = p + 3 := by omega
    · exact fun h => b0 h.1
    · exact fun h => b1 h.1
    · exact fun h => b2 h.1
    · exact fun h => b3 h.1

theorem scanWords_spec (m : Memory) (p : Int) (hlim : stop + 3 ≤ lim) : Searched m p lim (scanWords m p stop) := by
  fun_induction scanWords m p stop with
  | case1 p hlt q hq =>
    have hspec := wordCode_spec m p
    rw [hq] at hspec
    exact ⟨hspec.1, by have := hspec.2.1; omega, hspec.2.2⟩
  | case2 p hlt hnone ih =>
    have hspec := wordCode_spec m p
    rw [hnone] at hspec
    exact ih.of_le (by omega) hspec
  | case3 p hge => exact ⟨Int.le_refl p, fun r hpr hrp => by omega⟩

/-- `out` is the first start code from `p` on, with a byte behind it in front of `stop`. -/
def FirstCode (m : Memory) (p stop out : Int) : Prop :=
  p ≤ out ∧ out < stop - 3 ∧ CodeAt m out ∧ ∀ r, p ≤ r → r < out → ¬ CodeAt m r

/-- The three loops find the first start code, or the end. -/
theorem internal_spec (align : Nat) (m : Memory) (p stop : Int) :
    FirstCode m p stop (internal align m p stop) ∨
      internal align m p stop = stop ∧ ∀ r, p ≤ r → r < stop - 3 → ¬ CodeAt m r := by
  have hbytes : ∀ p a, Searched m p (stop - 3) (scanBytes m p (min a (stop - 3))) :=
    fun p a => (scanBytes_spec m p (Int.min_le_right a _)).1
  unfold internal
  dsimp only
  generalize p + 4 - (p + align) % 4 = a
  have h1 := hbytes p a
  cases hres1 : scanBytes m p (min a (stop - 3)) with
  | error q =>
    rw [hres1] at h1
    exact .inl h1
  | ok q1 =>
    rw [hres1] at h1
    have h2 : Searched m p (stop - 3) (scanWords m q1 (stop - 6)) :=
      (scanWords_spec m q1 (show stop - 6 + 3 ≤ stop - 3 by omega)).of_le h1.1 h1.2
    dsimp only
    cases hres2 : scanWords m q1 (stop - 6) with
    | error q =>
      rw [hres2] at h2
      exact .inl h2
    | ok q2 =>
      rw [hres2] at h2
      obtain ⟨hlast, hend⟩ := scanBytes_spec m q2 (Int.le_refl (stop - 3))
      have h3 : Searched m p (stop - 3) (scanBytes m q2 (stop - 3)) := hlast.of_le h2.1 h2.2
      dsimp only
      cases hres3 : scanBytes m q2 (stop - 3) with
      | error q =>
        rw [hres3] at h3
        exact .inl h3
      | ok q3 =>
        rw [hres3] at h3
        have hq3 := hend q3 hres3
        exact .inr ⟨rfl, fun r hpr hrs => h3.2 r hpr (by omega)⟩

theorem FirstCode.unique (h : FirstCode m p stop q) (h' : FirstCode m p stop r) : q = r := by
  obtain ⟨hpq, hq, hcode, hnone⟩ := h
  obtain ⟨hpr, hr, hcode', hnone'⟩ := h'
  rcases Int.lt_trichotomy q r with hlt | heq | hgt
  · exact absurd hcode (hnone' q hpq hlt)
  · exact heq
  · exact absurd hcode' (hnone r hpr hgt)

/-- What `h264_find_startcode` finds, with the zero in front of it. -/
theorem find_of_firstCode (align : Nat) (h : FirstCode m p stop q) :
    h264FindStartcode align m p stop = if p < q ∧ m (q - 1) = 0 then q - 1 else q := by
  have hout : internal align m p stop = q := by
    rcases internal_spec align m p stop with hfirst | ⟨-, hnone⟩
    · exact hfirst.unique h
    · exact absurd h.2.2.1 (hnone q h.1 h.2.1)
  have hlt : q < stop := by have := h.2.1; omega
  simp only [h264FindStartcode, hout, hlt, true_and]

theorem find_of_none (align : Nat) (h : ∀ r, p ≤ r → r < stop - 3 → ¬ CodeAt m r) :
    h264FindStartcode align m p stop = stop := by
  have hout : internal align m p stop = stop := by
    rcases internal_spec align m p stop with ⟨hp, hlt, hcode, -⟩ | ⟨heq, -⟩
    · exact absurd hcode (h _ hp hlt)
    · exact heq
  simp only [h264FindStartcode, hout, Int.lt_irrefl, false_and, and_false, if_false]

/-- The search never goes back. -/
theorem le_find {align : Nat} (h : h264FindStartcode align m p stop < stop) :
    p ≤ h264FindStartcode align m p stop := by
  rcases internal_spec align m p stop with hfirst | ⟨-, hnone⟩
  · rw [find_of_firstCode align hfirst]
    have := hfirst.1
    split_ifs <;> omega
  · rw [find_of_none align hnone] at h
    omega

/-! ## In the text of the memory -/

theorem codeAt_iff : CodeAt m p ↔ m.read p 3 = [0, 0, 1] := by
  have hread : m.read p 3 = [m p, m (p + 1), m (p + 1 + 1)] := by simp only [Memory.read_succ, Memory.read_zero]
  rw [hread, show p + 1 + 1 = p + 2 by omega]
  simp [CodeAt]

theorem infix_read {n k : Nat} (hp : p ≤ r) (hr : r + k ≤ p + n) : m.read r k <:+: m.read p n := by
  obtain ⟨i, rfl⟩ : ∃ i : Nat, r = p + i := ⟨(r - p).toNat, by omega⟩
  obtain ⟨j, rfl⟩ : ∃ j : Nat, n = i + k + j := ⟨n - (i + k), by omega⟩
  rw [Memory.read_add, Memory.read_add]
  exact List.infix_append ..

/-- The first start code of a text. -/
theorem firstCode_of_read {n : Nat} {l t : List UInt8} {b : UInt8} (h : m.read p n = l ++ ([0, 0, 1] ++ b :: t))
    (hl : ¬ [0, 0, 1] <:+: l ++ [0, 0]) : FirstCode m p (p + n) (p + l.length) := by
  have hlen : n = l.length + (3 + (1 + t.length)) := by
    have hlen := congrArg List.length h
    rw [Memory.length_read] at hlen
    simp only [List.length_append, List.length_cons, List.length_nil] at hlen
    omega
  rw [hlen, Memory.read_add] at h
  obtain ⟨hfront, hbehind⟩ := List.append_inj h (Memory.length_read ..)
  rw [Memory.read_add] at hbehind
  have hcode : m.read (p + l.length) 3 = [0, 0, 1] := (List.append_inj hbehind (Memory.length_read ..)).1
  refine ⟨by omega, by omega, codeAt_iff.mpr hcode, fun r hpr hrl hr => hl ?_⟩
  -- one that begins sooner ends before the one behind does
  have htwo : m.read p (l.length + 2) = l ++ [0, 0] := by
    rw [Memory.read_add, hfront, ← Memory.take_read m (p + l.length) 3 2 (by decide), hcode]
    rfl
  rw [← htwo, ← codeAt_iff.mp hr]
  exact infix_read hpr (by omega)

theorem none_of_read {n : Nat} (h : ¬ [0, 0, 1] <:+: m.read p n) :
    ∀ r, p ≤ r → r < p + n - 3 → ¬ CodeAt m r := by
  intro r hpr hr hcode
  rw [← codeAt_iff.mp hcode] at h
  exact h (infix_read hpr (by omega))

end AllCamera.StartCode
