import AllCamera.Stream.RtspPacket.Message

/-!
# Numbers as text

What `printf` writes for a number in decimal, and that `atoi` and `strtoull` read it back.

* `decimal`, `printD`, `printPadded`: `%u`, `%d` and `%0wd`. `strtoull`: with the base taken from
  the text.
* `atoi_decimal`, `atoi_printD`: read back, up to something that is no digit.
* `strtoull_decimal`, `strtoull_printD`: the same, for a whole text and with 64 bits.
-/

namespace AllCamera

/-- The digits of a number. -/
def decimal (n : Nat) : List UInt8 :=
  if n < 10 then [.ofNat (48 + n)] else decimal (n / 10) ++ [.ofNat (48 + n % 10)]

/-- `%d`. -/
def printD (i : Int) : List UInt8 := if i < 0 then 45 :: decimal i.natAbs else decimal i.natAbs

/-- `%0wd`: zeros between the sign and the digits. -/
def printPadded (w : Nat) (i : Int) : List UInt8 :=
  let sign : List UInt8 := if i < 0 then [45] else []
  let digits := decimal i.natAbs
  sign ++ List.replicate (w - sign.length - digits.length) 48 ++ digits

/-- The value of a letter as a digit; 16 for one that is none. -/
def digitValue (c : UInt8) : Nat :=
  if isDigit c then c.toNat - 48
  else if 97 ≤ lower c ∧ lower c ≤ 102 then (lower c).toNat - 87
  else 16

/-- The value of the digits of a base, up to the first other letter. -/
def baseValue (base : Nat) (s : List UInt8) : Nat :=
  (s.takeWhile fun c => digitValue c < base).foldl (fun n c => n * base + digitValue c) 0

/-- The number at the front: in base 16 behind `0x`, in base 8 behind a zero, else in base 10. -/
def anyBaseValue : List UInt8 → Nat
  | 48 :: x :: s => if lower x = 120 then baseValue 16 s else baseValue 8 (x :: s)
  | s => baseValue 10 s

/-- A number with or without a minus; the greatest one if it does not fit. -/
def strtoullValue (negative : Bool) (n : Nat) : UInt64 :=
  if 2 ^ 64 ≤ n then UInt64.ofNat (2 ^ 64 - 1)
  else if negative then 0 - UInt64.ofNat n
  else UInt64.ofNat n

/-- `strtoull` with base 0: white space, a sign, and a number. -/
def strtoull (s : List UInt8) : UInt64 :=
  match s.dropWhile isSpace with
  | 45 :: s => strtoullValue true (anyBaseValue s)
  | 43 :: s => strtoullValue false (anyBaseValue s)
  | s => strtoullValue false (anyBaseValue s)

theorem isDigit_ofNat {d : Nat} (h : d < 10) : isDigit (.ofNat (48 + d)) = true := by
  have hall : ∀ d < 10, isDigit (.ofNat (48 + d)) = true := by decide
  exact hall d h

theorem toNat_digit {d : Nat} (h : d < 10) : (UInt8.ofNat (48 + d)).toNat = 48 + d := by
  rw [UInt8.toNat_ofNat']
  omega

theorem digitsValue_append (s : List UInt8) (c : UInt8) :
    digitsValue (s ++ [c]) = digitsValue s * 10 + (c.toNat - 48) := by
  simp [digitsValue]

theorem digitsValue_decimal (n : Nat) : digitsValue (decimal n) = n := by
  fun_induction decimal n with
  | case1 n h =>
    have := toNat_digit h
    simp only [digitsValue, List.foldl_cons, List.foldl_nil]
    omega
  | case2 n h ih =>
    have := toNat_digit (Nat.mod_lt n (by decide : 0 < 10))
    rw [digitsValue_append, ih]
    omega

theorem isDigit_decimal (n : Nat) : ∀ c ∈ decimal n, isDigit c = true := by
  fun_induction decimal n with
  | case1 n h =>
    intro c hc
    rw [List.mem_singleton.mp hc]
    exact isDigit_ofNat h
  | case2 n h ih =>
    intro c hc
    rcases List.mem_append.mp hc with hc | hc
    · exact ih c hc
    · rw [List.mem_singleton.mp hc]
      exact isDigit_ofNat (Nat.mod_lt n (by decide))

theorem notMem_decimal {c : UInt8} (h : isDigit c = false) (n : Nat) : c ∉ decimal n := by
  intro hc
  rw [isDigit_decimal n c hc] at h
  cases h

theorem decimal_ne_nil (n : Nat) : decimal n ≠ [] := by
  unfold decimal
  split <;> simp

/-- What is printed consists of digits and a sign. -/
theorem printD_chars (i : Int) : ∀ c ∈ printD i, isDigit c = true ∨ c = 45 := by
  intro c hc
  unfold printD at hc
  split at hc
  · rcases List.mem_cons.mp hc with rfl | hc
    · exact .inr rfl
    · exact .inl (isDigit_decimal _ c hc)
  · exact .inl (isDigit_decimal _ c hc)

theorem printPadded_chars (w : Nat) (i : Int) :
    ∀ c ∈ printPadded w i, isDigit c = true ∨ c = 45 := by
  intro c hc
  rcases List.mem_append.mp hc with hc | hc
  · rcases List.mem_append.mp hc with hc | hc
    · split at hc
      · exact .inr (List.mem_singleton.mp hc)
      · cases hc
    · rw [(List.mem_replicate.mp hc).2]
      exact .inl (by decide)
  · exact .inl (isDigit_decimal _ c hc)

theorem le_length_printPadded (w : Nat) (i : Int) : w ≤ (printPadded w i).length := by
  simp only [printPadded, List.length_append, List.length_replicate]
  omega

variable {t : List UInt8}

theorem atoi_decimal (n : Nat) (ht : ∀ c, t.head? = some c → isDigit c = false) :
    atoi (decimal n ++ t) = UInt32.ofNat n := by
  have h := atoi_digits (List.forall_mem_nil _) (decimal_ne_nil n) (isDigit_decimal n) ht
  rwa [List.nil_append, digitsValue_decimal] at h

/-- An `int` is read back with its sign. -/
theorem atoi_printD (i : Int) (ht : ∀ c, t.head? = some c → isDigit c = false) :
    atoi (printD i ++ t) = UInt32.ofInt i := by
  unfold printD
  split
  · rename_i hneg
    have htake : (decimal i.natAbs ++ t).takeWhile isDigit = decimal i.natAbs := by
      rw [List.takeWhile_append_of_pos (isDigit_decimal _)]
      cases t with
      | nil => simp
      | cons c t => simp [ht c rfl]
    rw [atoi_eq, List.cons_append, List.dropWhile_cons_of_neg (by decide)]
    unfold signedValue
    simp only [htake, digitsValue_decimal]
    apply UInt32.toNat.inj
    have hzero : (0 : UInt32).toNat = 0 := rfl
    rw [UInt32.toNat_sub, hzero]
    simp only [UInt32.ofInt, UInt32.toNat_ofNat']
    omega
  · rename_i hpos
    rw [atoi_decimal _ ht]
    apply UInt32.toNat.inj
    simp only [UInt32.ofInt, UInt32.toNat_ofNat']
    omega

theorem ofInt_toInt32 (p : UInt32) : UInt32.ofInt p.toInt32.toInt = p := by
  apply UInt32.toNat.inj
  have hbmod : p.toInt32.toInt = (p.toNat : Int).bmod (2 ^ 32) := BitVec.toInt_eq_toNat_bmod _
  have := p.toNat_lt
  rw [hbmod]
  simp only [UInt32.ofInt, UInt32.toNat_ofNat']
  rw [show (2 : Int) ^ 32 = ((2 ^ 32 : Nat) : Int) from rfl, Int.bmod_emod]
  omega

/-- A `uint32_t` that is printed as an `int`. -/
theorem atoi_printD_toInt32 (p : UInt32) (ht : ∀ c, t.head? = some c → isDigit c = false) :
    atoi (printD p.toInt32.toInt ++ t) = p := by
  rw [atoi_printD _ ht, ofInt_toInt32]

/-! ## `strtoull` -/

theorem digitValue_digit {c : UInt8} (h : isDigit c = true) : digitValue c = c.toNat - 48 := by
  rw [digitValue, if_pos h]

theorem digitValue_lt {c : UInt8} (h : isDigit c = true) : digitValue c < 10 := by
  rw [digitValue_digit h]
  simp only [isDigit, decide_eq_true_eq, UInt8.le_iff_toNat_le] at h
  have h57 : (57 : UInt8).toNat = 57 := rfl
  omega

theorem baseValue_decimal (n : Nat) : baseValue 10 (decimal n) = n := by
  have hdigits := isDigit_decimal n
  have htake : (decimal n).takeWhile (fun c => decide (digitValue c < 10)) = decimal n := by
    rw [List.takeWhile_eq_self_iff]
    exact fun c hc => decide_eq_true (digitValue_lt (hdigits c hc))
  have hfold : ∀ (s : List UInt8) (k : Nat), (∀ c ∈ s, isDigit c = true) →
      s.foldl (fun n c => n * 10 + digitValue c) k =
        s.foldl (fun n c => n * 10 + (c.toNat - 48)) k := by
    intro s
    induction s with
    | nil => exact fun k _ => rfl
    | cons c s ih =>
      intro k hs
      rw [List.foldl_cons, List.foldl_cons, digitValue_digit (hs c List.mem_cons_self)]
      exact ih _ fun x hx => hs x (List.mem_cons_of_mem c hx)
  have hvalue := digitsValue_decimal n
  unfold digitsValue at hvalue
  rw [baseValue, htake, hfold _ _ hdigits, hvalue]

/-- A number is printed with a zero in front only if it is zero. -/
theorem decimal_head (n : Nat) : decimal n = [48] ∨ ∀ s, decimal n ≠ 48 :: s := by
  fun_induction decimal n with
  | case1 n h =>
    by_cases hn : n = 0
    · subst hn
      exact .inl rfl
    · refine .inr fun s hs => ?_
      have hdigit := congrArg UInt8.toNat (List.cons.inj hs).1
      rw [toNat_digit h] at hdigit
      have h48 : (48 : UInt8).toNat = 48 := rfl
      omega
  | case2 n h ih =>
    refine .inr fun s hs => ?_
    rcases ih with hzero | hne
    · -- only zero is printed so, and this number is ten at least
      have hvalue := digitsValue_decimal (n / 10)
      rw [hzero] at hvalue
      have h0 : digitsValue [48] = 0 := by decide
      omega
    · obtain ⟨x, xs, hx⟩ := List.exists_cons_of_ne_nil (decimal_ne_nil (n / 10))
      rw [hx, List.cons_append] at hs
      obtain ⟨rfl, -⟩ := List.cons.inj hs
      exact hne xs hx

theorem anyBaseValue_decimal (n : Nat) : anyBaseValue (decimal n) = n := by
  have hvalue := baseValue_decimal n
  rcases decimal_head n with hzero | hne
  · rw [hzero] at hvalue ⊢
    exact hvalue
  · unfold anyBaseValue
    split
    · rename_i x s heq
      exact absurd heq (hne (x :: s))
    · exact hvalue

/-- Digits are read as they are: there is no sign in front. -/
theorem strtoull_of_digits {s : List UInt8} (hne : s ≠ []) (hs : ∀ c ∈ s, isDigit c = true) :
    strtoull s = strtoullValue false (anyBaseValue s) := by
  obtain ⟨x, xs, rfl⟩ := List.exists_cons_of_ne_nil hne
  have hx := hs x List.mem_cons_self
  rw [strtoull, List.dropWhile_cons_of_neg (by simp [isSpace_digit hx])]
  split
  · rename_i heq
    obtain ⟨rfl, -⟩ := List.cons.inj heq
    exact absurd hx (by decide)
  · rename_i heq
    obtain ⟨rfl, -⟩ := List.cons.inj heq
    exact absurd hx (by decide)
  · rfl

theorem strtoull_decimal {n : Nat} (h : n < 2 ^ 64) : strtoull (decimal n) = UInt64.ofNat n := by
  rw [strtoull_of_digits (decimal_ne_nil n) (isDigit_decimal n), anyBaseValue_decimal, strtoullValue,
    if_neg (by omega), if_neg (by decide)]

/-- A `uint64_t` that is printed as a `long long`. -/
theorem strtoull_printD_toInt64 (p : UInt64) : strtoull (printD p.toInt64.toInt) = p := by
  have hbmod : p.toInt64.toInt = (p.toNat : Int).bmod (2 ^ 64) := BitVec.toInt_eq_toNat_bmod _
  have hlt := p.toNat_lt
  have hzero : (0 : UInt64).toNat = 0 := rfl
  rw [Int.bmod_def] at hbmod
  unfold printD
  split
  · rename_i hneg
    have hminus : strtoull (45 :: decimal p.toInt64.toInt.natAbs) =
        strtoullValue true (anyBaseValue (decimal p.toInt64.toInt.natAbs)) := rfl
    have habs : p.toInt64.toInt.natAbs = 2 ^ 64 - p.toNat := by omega
    rw [hminus, anyBaseValue_decimal, strtoullValue, if_neg (by omega), if_pos rfl]
    apply UInt64.toNat.inj
    rw [UInt64.toNat_sub, hzero, UInt64.toNat_ofNat']
    omega
  · rename_i hpos
    have habs : p.toInt64.toInt.natAbs = p.toNat := by omega
    rw [habs, strtoull_decimal hlt, UInt64.ofNat_toNat]

end AllCamera
