import AllCamera.Stream.RtspPacket.Request

/-!
# What `CRtspPacket::parse` reads

`parse` gets a pointer and a length, but looks for the end of a line with `strstr`, which stops at a zero and knows no
length. Only where a line begins is compared with the length. Offsets and lengths are `int32_t`.

* `readLine`, `headersRun`, `parseRun`: the parser once more, with the lines that it reads and the way it ends.
  `parseRun_ends`: it ends. `parseRun_eq_parse`: in a shorter text than `int32_t` has numbers for, it is `parse`.
* `Contained`: the bytes behind the text change neither the result nor the lines, which are all in the text.
* `Ended`: each line that the parser gets to ends in the text. `contained_iff`: this is when it is contained.
-/

namespace AllCamera.RtspPacket

/-- How a call ends: it returns 0 or -1, or an `int32_t` overflows. `fuel` if the model has no turns left. -/
inductive Outcome where
  | ok (p : RtspPacket)
  | fail (p : RtspPacket)
  | overflow
  | fuel

/-- A line that was read: where, how many bytes, and what `readRtspLine` returned. -/
structure LineRead where
  nOffset : Nat
  length : Nat
  nReadSize : Int

/-- The lines that a call has read, and how it ended. -/
structure ParseRun where
  lines : List LineRead
  outcome : Outcome

/-- A run with a line in front. -/
def ParseRun.cons (l : LineRead) (run : ParseRun) : ParseRun := ⟨l :: run.lines, run.outcome⟩

/-- A run that goes on where it would return 0. -/
def ParseRun.andThen (run : ParseRun) (f : RtspPacket → Outcome) : ParseRun :=
  match run.outcome with
  | .ok p => ⟨run.lines, f p⟩
  | _ => run

theorem ParseRun.andThen_outcome (run : ParseRun) (f : RtspPacket → Outcome) :
    (run.andThen f).outcome = match run.outcome with
      | .ok p => f p
      | o => o := by
  unfold andThen
  split <;> rfl

/-- `readRtspLine` at a pointer: the line, for a length of 32 bits, and `nLength` with the line's end, which can be
one more than an `int32_t` has. -/
def readLine (pszMsg : List UInt8) : Option (List UInt8 × Int) :=
  (find rtspEndLine (pszMsg.takeWhile (· ≠ 0))).map fun n =>
    (pszMsg.take (n % 2 ^ 32), (n : Int).bmod (2 ^ 32) + rtspEndLine.length)

/-- The line at `nOffset`, and what is done with it if its size is no error. -/
def withLine (pszMsg : List UInt8) (nOffset : Nat) (p : RtspPacket) (next : List UInt8 → Nat → ParseRun) : ParseRun :=
  match readLine pszMsg with
  | none => ⟨[], .fail p⟩
  | some (strLine, nReadSize) =>
    if 2 ^ 31 ≤ nReadSize then ⟨[⟨nOffset, strLine.length, nReadSize⟩], .overflow⟩
    else if nReadSize ≤ 0 then ⟨[⟨nOffset, strLine.length, nReadSize⟩], .fail p⟩
    else (next strLine nReadSize.toNat).cons ⟨nOffset, strLine.length, nReadSize⟩

/-- The loop of `parse` from `nOffset` on, `fuel` turns at most. -/
def headersRun (lib : CLib) (pszRtsp : List UInt8) (unRtspSize : Nat) : Nat → Nat → RtspPacket → ParseRun
  | 0, _, _ => ⟨[], .fuel⟩
  | fuel + 1, nOffset, p =>
    if nOffset < unRtspSize then
      withLine (pszRtsp.drop nOffset) nOffset p fun strLine nReadSize =>
        if strLine = [] then ⟨[], .ok p⟩
        else if 2 ^ 31 ≤ nOffset + nReadSize then ⟨[], .overflow⟩
        else
          match parseRtspHeader lib p strLine with
          | .error p => ⟨[], .fail p⟩
          | .ok p => headersRun lib pszRtsp unRtspSize fuel (nOffset + nReadSize) p
    else ⟨[], .ok p⟩

/-- The content, behind the loop. -/
def parseContent (strRtspMsg : List UInt8) (p : RtspPacket) : Outcome :=
  if p.ulContenLength ≠ 0 then
    match find rtspEndMsg strRtspMsg with
    | none => .fail p
    | some endPos => .ok { p with strContent := strRtspMsg.drop (endPos + rtspEndMsg.length) }
  else .ok p

/-- `parse`. `pszRtsp` are the bytes at the pointer, with those behind the first `unRtspSize`; there is a zero behind
them. -/
def parseRun (lib : CLib) (p : RtspPacket) (pszRtsp : List UInt8) (unRtspSize : Nat) : ParseRun :=
  if unRtspSize = 0 then ⟨[], .fail p⟩
  else
    withLine pszRtsp 0 p fun strLine nReadSize =>
      match p.parseRtspMethodLine strLine with
      | .error p => ⟨[], .fail p⟩
      | .ok p =>
        (headersRun lib pszRtsp unRtspSize (unRtspSize + 1) nReadSize p).andThen
          (parseContent (pszRtsp.take unRtspSize))

/-! ## What should hold -/

/-- The call returns. -/
def Outcome.Returned : Outcome → Prop
  | .ok _ | .fail _ => True
  | .overflow | .fuel => False

/-- Neither the line nor the offset behind it is beyond the first `size` bytes. -/
def LineRead.Inside (size : Nat) (l : LineRead) : Prop :=
  l.nOffset + l.length ≤ size ∧ l.nOffset + l.nReadSize ≤ size

/-- A run of the bytes behind a text that does not depend on them, returns, and reads lines of the text. -/
def Steady (size : Nat) (f : List UInt8 → ParseRun) : Prop :=
  ∃ run : ParseRun, (∀ tail, f tail = run) ∧ run.outcome.Returned ∧ ∀ l ∈ run.lines, l.Inside size

/-- The call for the text, whatever lies behind it. -/
def Contained (lib : CLib) (p : RtspPacket) (text : List UInt8) : Prop :=
  Steady text.length fun tail => parseRun lib p (text ++ tail) text.length

/-! ## Where lines end -/

/-- The line at the front of `s`, with its end in front of any zero. -/
structure LineAt (s line : List UInt8) : Prop where
  found : find rtspEndLine (s.takeWhile (· ≠ 0)) = some line.length
  text : s.take line.length = line

/-- No line begins at the front of `s`: there is a zero in front of its end, or it is too long for an `int32_t`. -/
def NoLine (s : List UInt8) : Prop :=
  find rtspEndLine (s.takeWhile (· ≠ 0)) = none ∧ 0 ∈ s ∨ ∃ line, LineAt s line ∧ 2 ^ 31 ≤ line.length

/-- From `nOffset` on, each line that the loop gets to ends in the text, and no offset is too great for an `int32_t`. -/
inductive HeadersEnded (lib : CLib) (text : List UInt8) : Nat → RtspPacket → Prop
  | behind {nOffset : Nat} {p : RtspPacket} (h : text.length ≤ nOffset) : HeadersEnded lib text nOffset p
  | noLine {nOffset : Nat} {p : RtspPacket} (h : NoLine (text.drop nOffset)) : HeadersEnded lib text nOffset p
  | empty {nOffset : Nat} {p : RtspPacket} (h : LineAt (text.drop nOffset) []) : HeadersEnded lib text nOffset p
  | refused {nOffset : Nat} {p q : RtspPacket} {line : List UInt8} (h : LineAt (text.drop nOffset) line)
      (hne : line ≠ []) (hoffset : nOffset + (line.length + 2) < 2 ^ 31)
      (hparse : parseRtspHeader lib p line = .error q) : HeadersEnded lib text nOffset p
  | header {nOffset : Nat} {p q : RtspPacket} {line : List UInt8} (h : LineAt (text.drop nOffset) line)
      (hne : line ≠ []) (hoffset : nOffset + (line.length + 2) < 2 ^ 31)
      (hparse : parseRtspHeader lib p line = .ok q) (next : HeadersEnded lib text (nOffset + (line.length + 2)) q) :
      HeadersEnded lib text nOffset p

/-- Each line that `parse` gets to ends in the text. -/
inductive Ended (lib : CLib) (p : RtspPacket) (text : List UInt8) : Prop
  | nil (h : text = [])
  | noLine (h : NoLine text)
  | refused {q : RtspPacket} {line : List UInt8} (h : LineAt text line) (hlength : line.length + 2 < 2 ^ 31)
      (hparse : p.parseRtspMethodLine line = .error q)
  | method {q : RtspPacket} {line : List UInt8} (h : LineAt text line) (hlength : line.length + 2 < 2 ^ 31)
      (hparse : p.parseRtspMethodLine line = .ok q) (next : HeadersEnded lib text (line.length + 2) q)

section Lines

variable {s t line pszMsg : List UInt8} {n nOffset : Nat} {p : RtspPacket} {next : List UInt8 → Nat → ParseRun}

/-- An end that is found stays the first one. -/
theorem find_endLine_append (h : find rtspEndLine (s.takeWhile (· ≠ 0)) = some n) (t : List UInt8) :
    find rtspEndLine ((s ++ t).takeWhile (· ≠ 0)) = some n := by
  rw [List.takeWhile_append]
  split
  · rename_i hlength
    rw [(List.takeWhile_prefix _).eq_of_length hlength] at h
    exact find_append h (by decide) _
  · exact h

/-- Behind a zero nothing is found. -/
theorem find_endLine_zero (h : find rtspEndLine (s.takeWhile (· ≠ 0)) = none) (hzero : 0 ∈ s) (t : List UInt8) :
    find rtspEndLine ((s ++ t).takeWhile (· ≠ 0)) = none := by
  rw [List.takeWhile_append]
  split
  · rename_i hlength
    rw [← (List.takeWhile_prefix _).eq_of_length hlength] at hzero
    have := List.mem_takeWhile_imp hzero
    simp at this
  · exact h

theorem LineAt.of_find (h : find rtspEndLine (s.takeWhile (· ≠ 0)) = some n) : LineAt s (s.take n) := by
  have hle := find_le h (by decide)
  have hwhile := (List.takeWhile_prefix (l := s) fun c => decide (c ≠ 0)).length_le
  have hlength : (s.take n).length = n := by
    rw [List.length_take]
    omega
  exact ⟨by rw [hlength]; exact h, by rw [hlength]⟩

theorem LineAt.length_le (h : LineAt s line) : line.length + 2 ≤ s.length := by
  have hle := find_le h.found (by decide)
  have hwhile := (List.takeWhile_prefix (l := s) fun c => decide (c ≠ 0)).length_le
  have h2 : rtspEndLine.length = 2 := rfl
  omega

theorem readLine_append (h : LineAt s line) (hsize : s.length < 2 ^ 32) (t : List UInt8) :
    readLine (s ++ t) = some (line, (line.length : Int).bmod (2 ^ 32) + 2) := by
  have hle := h.length_le
  have htake : (s ++ t).take (line.length % 2 ^ 32) = line := by
    rw [Nat.mod_eq_of_lt (by omega), List.take_append_of_le_length (by omega)]
    exact h.text
  rw [readLine, find_endLine_append h.found, Option.map_some, htake]
  rfl

theorem withLine_append (h : LineAt s line) (hsize : s.length < 2 ^ 32) (hlength : line.length + 2 < 2 ^ 31)
    (t : List UInt8) : withLine (s ++ t) nOffset p next =
      (next line (line.length + 2)).cons ⟨nOffset, line.length, line.length + 2⟩ := by
  have hbmod : (line.length : Int).bmod (2 ^ 32) = line.length := by
    rw [Int.bmod_def]
    omega
  have hnat : ((line.length : Int) + 2).toNat = line.length + 2 := by omega
  unfold withLine
  rw [readLine_append h hsize, hbmod]
  dsimp only
  rw [if_neg (by omega), if_neg (by omega), hnat]

/-- A line is too long by the two bytes of its end. -/
theorem withLine_overflow (h : LineAt s line) (hsize : s.length < 2 ^ 32) (hlow : line.length < 2 ^ 31)
    (hhigh : 2 ^ 31 ≤ line.length + 2) (t : List UInt8) : (withLine (s ++ t) nOffset p next).outcome = .overflow := by
  have hbmod : (line.length : Int).bmod (2 ^ 32) = line.length := by
    rw [Int.bmod_def]
    omega
  unfold withLine
  rw [readLine_append h hsize, hbmod]
  dsimp only
  rw [if_pos (by omega)]

theorem withLine_noLine (h : NoLine s) (hsize : s.length < 2 ^ 32) (nOffset : Nat) (p : RtspPacket) :
    ∃ lines : List LineRead, (∀ l ∈ lines, l.Inside (nOffset + s.length)) ∧
      ∀ next t, withLine (s ++ t) nOffset p next = ⟨lines, .fail p⟩ := by
  rcases h with ⟨hnone, hzero⟩ | ⟨line, hline, hlong⟩
  · refine ⟨[], List.forall_mem_nil _, fun next t => ?_⟩
    unfold withLine readLine
    rw [find_endLine_zero hnone hzero]
    rfl
  · have hle := hline.length_le
    have hbmod : (line.length : Int).bmod (2 ^ 32) = line.length - 2 ^ 32 := by
      rw [Int.bmod_def]
      omega
    refine ⟨[⟨nOffset, line.length, (line.length : Int) - 2 ^ 32 + 2⟩], ?_, fun next t => ?_⟩
    · intro l hl
      rw [List.mem_singleton.mp hl]
      exact ⟨show nOffset + line.length ≤ _ by omega, show (nOffset : Int) + (line.length - 2 ^ 32 + 2) ≤ _ by omega⟩
    · unfold withLine
      rw [readLine_append hline hsize, hbmod]
      dsimp only
      rw [if_neg (by omega), if_pos (by omega)]

end Lines

/-! ## A text whose lines end -/

section Steady

variable {size : Nat} {f : List UInt8 → ParseRun} {l : LineRead} {run : ParseRun}

namespace Steady

theorem const (hret : run.outcome.Returned) (hlines : ∀ l ∈ run.lines, l.Inside size) : Steady size fun _ => run :=
  ⟨run, fun _ => rfl, hret, hlines⟩

theorem cons (hl : l.Inside size) (hf : Steady size f) : Steady size fun tail => (f tail).cons l := by
  obtain ⟨run, hrun, hret, hlines⟩ := hf
  refine ⟨run.cons l, fun tail => congrArg (ParseRun.cons l) (hrun tail), hret, fun l' hl' => ?_⟩
  rcases List.mem_cons.mp hl' with rfl | hl'
  · exact hl
  · exact hlines l' hl'

theorem andThen {g : RtspPacket → Outcome} (hg : ∀ p, (g p).Returned) (hf : Steady size f) :
    Steady size fun tail => (f tail).andThen g := by
  obtain ⟨run, hrun, hret, hlines⟩ := hf
  refine ⟨run.andThen g, fun tail => congrArg (ParseRun.andThen · g) (hrun tail), ?_, ?_⟩
  · unfold ParseRun.andThen
    split
    · exact hg _
    · exact hret
  · unfold ParseRun.andThen
    split <;> exact hlines

end Steady

theorem parseContent_returned (strRtspMsg : List UInt8) (p : RtspPacket) : (parseContent strRtspMsg p).Returned := by
  unfold parseContent
  split
  · split <;> trivial
  · trivial

variable {lib : CLib} {text : List UInt8} {p : RtspPacket} {nOffset : Nat}

/-- A line that ends in the text: what follows decides. -/
theorem steady_withLine {line : List UInt8} {next : List UInt8 → List UInt8 → Nat → ParseRun}
    (hsize : text.length < 2 ^ 32) (h : LineAt (text.drop nOffset) line) (hlength : line.length + 2 < 2 ^ 31)
    (hnext : Steady text.length fun tail => next tail line (line.length + 2)) :
    Steady text.length fun tail => withLine (text.drop nOffset ++ tail) nOffset p (next tail) := by
  have hle := h.length_le
  rw [List.length_drop] at hle
  have hdrop : (text.drop nOffset).length < 2 ^ 32 := by
    rw [List.length_drop]
    omega
  have hline : (fun tail => withLine (text.drop nOffset ++ tail) nOffset p (next tail)) =
      fun tail => (next tail line (line.length + 2)).cons ⟨nOffset, line.length, line.length + 2⟩ := by
    funext tail
    exact withLine_append h hdrop hlength tail
  rw [hline]
  apply Steady.cons _ hnext
  exact ⟨show nOffset + line.length ≤ _ by omega, show (nOffset : Int) + (line.length + 2) ≤ _ by omega⟩

theorem steady_noLine {next : List UInt8 → List UInt8 → Nat → ParseRun} (hsize : text.length < 2 ^ 32)
    (h : NoLine (text.drop nOffset)) (hoffset : nOffset ≤ text.length) :
    Steady text.length fun tail => withLine (text.drop nOffset ++ tail) nOffset p (next tail) := by
  have hdrop : (text.drop nOffset).length < 2 ^ 32 := by
    rw [List.length_drop]
    omega
  obtain ⟨lines, hinside, hrun⟩ := withLine_noLine h hdrop nOffset p
  rw [List.length_drop, Nat.add_sub_cancel' hoffset] at hinside
  exact ⟨⟨lines, .fail p⟩, fun tail => hrun (next tail) tail, trivial, hinside⟩

/-- What the loop does with a line. -/
def headerNext (lib : CLib) (pszRtsp : List UInt8) (unRtspSize fuel nOffset : Nat) (p : RtspPacket)
    (strLine : List UInt8) (nReadSize : Nat) : ParseRun :=
  if strLine = [] then ⟨[], .ok p⟩
  else if 2 ^ 31 ≤ nOffset + nReadSize then ⟨[], .overflow⟩
  else
    match parseRtspHeader lib p strLine with
    | .error p => ⟨[], .fail p⟩
    | .ok p => headersRun lib pszRtsp unRtspSize fuel (nOffset + nReadSize) p

theorem headersRun_append (hlt : nOffset < text.length) (fuel : Nat) (p : RtspPacket) (tail : List UInt8) :
    headersRun lib (text ++ tail) text.length (fuel + 1) nOffset p =
      withLine (text.drop nOffset ++ tail) nOffset p
        (headerNext lib (text ++ tail) text.length fuel nOffset p) := by
  rw [headersRun, if_pos hlt, List.drop_append_of_le_length (Nat.le_of_lt hlt)]
  rfl

theorem headersRun_behind (h : text.length ≤ nOffset) (fuel : Nat) (p : RtspPacket) (pszRtsp : List UInt8) :
    headersRun lib pszRtsp text.length (fuel + 1) nOffset p = ⟨[], .ok p⟩ := by
  rw [headersRun, if_neg (Nat.not_lt.mpr h)]

section Next

variable {pszRtsp line : List UInt8} {unRtspSize fuel : Nat} {q : RtspPacket}

theorem headerNext_error (hne : line ≠ []) (hoffset : nOffset + (line.length + 2) < 2 ^ 31)
    (hparse : parseRtspHeader lib p line = .error q) :
    headerNext lib pszRtsp unRtspSize fuel nOffset p line (line.length + 2) = ⟨[], .fail q⟩ := by
  rw [headerNext, if_neg hne, if_neg (Nat.not_le.mpr hoffset), hparse]

theorem headerNext_ok (hne : line ≠ []) (hoffset : nOffset + (line.length + 2) < 2 ^ 31)
    (hparse : parseRtspHeader lib p line = .ok q) :
    headerNext lib pszRtsp unRtspSize fuel nOffset p line (line.length + 2) =
      headersRun lib pszRtsp unRtspSize fuel (nOffset + (line.length + 2)) q := by
  rw [headerNext, if_neg hne, if_neg (Nat.not_le.mpr hoffset), hparse]

end Next

theorem LineAt.lt {line : List UInt8} (h : LineAt (text.drop nOffset) line) :
    nOffset + (line.length + 2) ≤ text.length := by
  have hle := h.length_le
  rw [List.length_drop] at hle
  omega

theorem NoLine.lt (h : NoLine (text.drop nOffset)) : nOffset < text.length := by
  rcases h with ⟨-, hzero⟩ | ⟨line, hline, -⟩
  · have hpos := List.length_pos_of_mem hzero
    rw [List.length_drop] at hpos
    omega
  · have := hline.lt
    omega

/-- By induction along the lines. -/
theorem steady_headersRun (hsize : text.length < 2 ^ 32) (h : HeadersEnded lib text nOffset p) (fuel : Nat)
    (hfuel : text.length < fuel + 1 + nOffset) :
    Steady text.length fun tail => headersRun lib (text ++ tail) text.length (fuel + 1) nOffset p := by
  induction h generalizing fuel with
  | behind h =>
    simp only [headersRun_behind h]
    exact .const trivial (List.forall_mem_nil _)
  | noLine h =>
    simp only [headersRun_append h.lt]
    exact steady_noLine hsize h (Nat.le_of_lt h.lt)
  | empty h =>
    have hle := h.lt
    simp only [headersRun_append (Nat.lt_of_lt_of_le (Nat.lt_add_of_pos_right (Nat.succ_pos _)) hle)]
    exact steady_withLine hsize h (by decide) (.const trivial (List.forall_mem_nil _))
  | refused h hne hoffset hparse =>
    have hle := h.lt
    simp only [headersRun_append (Nat.lt_of_lt_of_le (Nat.lt_add_of_pos_right (Nat.succ_pos _)) hle)]
    apply steady_withLine hsize h (by omega)
    simp only [headerNext_error hne hoffset hparse]
    exact .const trivial (List.forall_mem_nil _)
  | header h hne hoffset hparse _ ih =>
    have hle := h.lt
    simp only [headersRun_append (Nat.lt_of_lt_of_le (Nat.lt_add_of_pos_right (Nat.succ_pos _)) hle)]
    apply steady_withLine hsize h (by omega)
    simp only [headerNext_ok hne hoffset hparse]
    -- a turn less, and two bytes less at least
    obtain ⟨fuel, rfl⟩ : ∃ k, fuel = k + 1 := Nat.exists_eq_succ_of_ne_zero (by omega)
    exact ih fuel (by omega)

/-! ## The whole call -/

/-- What `parse` does with the first line. -/
def methodNext (lib : CLib) (pszRtsp : List UInt8) (unRtspSize : Nat) (p : RtspPacket) (strLine : List UInt8)
    (nReadSize : Nat) : ParseRun :=
  match p.parseRtspMethodLine strLine with
  | .error p => ⟨[], .fail p⟩
  | .ok p =>
    (headersRun lib pszRtsp unRtspSize (unRtspSize + 1) nReadSize p).andThen
      (parseContent (pszRtsp.take unRtspSize))

theorem parseRun_append (hpos : 0 < text.length) (p : RtspPacket) (tail : List UInt8) :
    parseRun lib p (text ++ tail) text.length =
      withLine (text.drop 0 ++ tail) 0 p (methodNext lib (text ++ tail) text.length p) :=
  if_neg (Nat.ne_of_gt hpos)

theorem contained_of_ended (hsize : text.length < 2 ^ 32) (h : Ended lib p text) : Contained lib p text := by
  cases h with
  | nil h =>
    subst h
    exact ⟨⟨[], .fail p⟩, fun _ => rfl, trivial, List.forall_mem_nil _⟩
  | noLine h =>
    have hlt : 0 < text.length := (show NoLine (text.drop 0) from h).lt
    unfold Contained
    simp only [parseRun_append hlt]
    exact steady_noLine hsize h (Nat.zero_le _)
  | refused h hlength hparse =>
    have hmethod : LineAt (text.drop 0) _ := h
    have hle := hmethod.lt
    unfold Contained
    simp only [parseRun_append (by omega : 0 < text.length)]
    apply steady_withLine hsize hmethod hlength
    simp only [methodNext, hparse]
    exact .const trivial (List.forall_mem_nil _)
  | method h hlength hparse next =>
    have hmethod : LineAt (text.drop 0) _ := h
    have hle := hmethod.lt
    unfold Contained
    simp only [parseRun_append (by omega : 0 < text.length)]
    apply steady_withLine hsize hmethod hlength
    simp only [methodNext, hparse, List.take_left]
    exact .andThen (parseContent_returned text) (steady_headersRun hsize next _ (by omega))

/-! ## A call that is contained -/

/-- The lines do not depend on the bytes behind the text, and every run of them returns. -/
def SameLines (f : List UInt8 → ParseRun) : Prop :=
  ∀ tail, (f tail).lines = (f []).lines ∧ (f tail).outcome.Returned

namespace SameLines

theorem of_steady (h : Steady size f) : SameLines f := by
  obtain ⟨run, hrun, hret, -⟩ := h
  intro tail
  rw [hrun tail, hrun []]
  exact ⟨rfl, hret⟩

theorem of_cons (h : SameLines fun tail => (f tail).cons l) : SameLines f := by
  intro tail
  obtain ⟨hlines, hret⟩ := h tail
  exact ⟨(List.cons.inj hlines).2, hret⟩

theorem of_andThen {g : RtspPacket → Outcome} (h : SameLines fun tail => (f tail).andThen g) : SameLines f := by
  have hlines : ∀ run : ParseRun, (run.andThen g).lines = run.lines := by
    intro run
    unfold ParseRun.andThen
    split <;> rfl
  intro tail
  obtain ⟨hsame, hret⟩ := h tail
  have hreturned : ∀ run : ParseRun, (run.andThen g).outcome.Returned → run.outcome.Returned := by
    intro run
    unfold ParseRun.andThen
    split
    · rename_i hok
      rw [hok]
      exact fun _ => trivial
    · exact id
  exact ⟨(hlines _).symm.trans (hsame.trans (hlines _)), hreturned _ hret⟩

theorem returned (h : SameLines fun _ => run) : run.outcome.Returned := (h []).2

end SameLines

/-- A line is read where an end of a line is found. -/
theorem withLine_lines {s : List UInt8} {next : List UInt8 → Nat → ParseRun} :
    (withLine s nOffset p next).lines = [] ↔ find rtspEndLine (s.takeWhile (· ≠ 0)) = none := by
  cases hfind : find rtspEndLine (s.takeWhile (· ≠ 0)) with
  | none =>
    refine iff_of_true ?_ rfl
    simp only [withLine, readLine, hfind, Option.map_none]
  | some n =>
    refine iff_of_false ?_ (Option.some_ne_none n)
    simp only [withLine, readLine, hfind, Option.map_some]
    split
    · exact List.cons_ne_nil _ _
    · split <;> exact List.cons_ne_nil _ _

/-- Without a zero, an end of a line behind the text is found. -/
theorem find_endLine_behind {s : List UInt8} (hzero : 0 ∉ s) :
    find rtspEndLine ((s ++ rtspEndLine).takeWhile (· ≠ 0)) ≠ none := by
  have hwhile : (s ++ rtspEndLine).takeWhile (· ≠ 0) = s ++ rtspEndLine := by
    refine List.takeWhile_eq_self_iff.mpr fun c hc => ?_
    rcases List.mem_append.mp hc with hc | hc
    · exact decide_eq_true fun h => hzero (h ▸ hc)
    · exact (forall_mem_of_all (by decide) : ∀ c ∈ rtspEndLine, decide (c ≠ 0) = true) c hc
  rw [hwhile]
  exact fun hnone => find_eq_none_iff.mp hnone (List.suffix_append _ _).isInfix

/-- A line whose reading does not depend on what is behind the text: it ends there, or the call ends here. -/
theorem line_or_noLine {s : List UInt8} {next : List UInt8 → List UInt8 → Nat → ParseRun} (hsize : s.length < 2 ^ 32)
    (h : SameLines fun tail => withLine (s ++ tail) nOffset p (next tail)) :
    NoLine s ∨ ∃ line, LineAt s line ∧ line.length + 2 < 2 ^ 31 ∧
      SameLines fun tail => next tail line (line.length + 2) := by
  cases hfind : find rtspEndLine (s.takeWhile (· ≠ 0)) with
  | none =>
    left
    by_cases hzero : 0 ∈ s
    · exact .inl ⟨hfind, hzero⟩
    -- a line more is read if an end of a line lies behind the text
    have hnone : find rtspEndLine ((s ++ []).takeWhile (· ≠ 0)) = none := by
      rw [List.append_nil, hfind]
    have hsame := (h rtspEndLine).1.trans (withLine_lines.mpr hnone)
    exact absurd (withLine_lines.mp hsame) (find_endLine_behind hzero)
  | some n =>
    have hline := LineAt.of_find hfind
    generalize s.take n = line at hline
    by_cases hlong : 2 ^ 31 ≤ line.length
    · exact .inl (.inr ⟨line, hline, hlong⟩)
    by_cases hover : 2 ^ 31 ≤ line.length + 2
    · have hret := (h []).2
      rw [withLine_overflow hline hsize (Nat.not_le.mp hlong) hover] at hret
      exact hret.elim
    · have hlength := Nat.not_le.mp hover
      refine .inr ⟨line, hline, hlength, ?_⟩
      simp only [withLine_append hline hsize hlength] at h
      exact h.of_cons

/-- By induction on the turns. -/
theorem headersEnded_of_sameLines (hsize : text.length < 2 ^ 32) (fuel : Nat)
    (h : SameLines fun tail => headersRun lib (text ++ tail) text.length fuel nOffset p) :
    HeadersEnded lib text nOffset p := by
  induction fuel generalizing nOffset p with
  | zero => exact h.returned.elim
  | succ fuel ih =>
    by_cases hlt : nOffset < text.length
    · simp only [headersRun_append hlt] at h
      have hdrop : (text.drop nOffset).length < 2 ^ 32 := by
        rw [List.length_drop]
        omega
      obtain hno | ⟨line, hline, -, hnext⟩ := line_or_noLine hdrop h
      · exact .noLine hno
      by_cases hne : line = []
      · exact .empty (hne ▸ hline)
      by_cases hoffset : 2 ^ 31 ≤ nOffset + (line.length + 2)
      · simp only [headerNext, if_neg hne, if_pos hoffset] at hnext
        exact hnext.returned.elim
      have hlow := Nat.not_le.mp hoffset
      cases hparse : parseRtspHeader lib p line with
      | error q => exact .refused hline hne hlow hparse
      | ok q =>
        simp only [headerNext_ok hne hlow hparse] at hnext
        exact .header hline hne hlow hparse (ih hnext)
    · exact .behind (Nat.not_lt.mp hlt)

theorem ended_of_contained (hsize : text.length < 2 ^ 32) (h : Contained lib p text) : Ended lib p text := by
  have hsame := SameLines.of_steady h
  by_cases hnil : text = []
  · exact .nil hnil
  simp only [parseRun_append (List.length_pos_iff.mpr hnil)] at hsame
  obtain hno | ⟨line, hline, hlength, hnext⟩ := line_or_noLine (s := text.drop 0) hsize hsame
  · exact .noLine hno
  cases hparse : p.parseRtspMethodLine line with
  | error q => exact .refused hline hlength hparse
  | ok q =>
    simp only [methodNext, hparse, List.take_left] at hnext
    exact .method hline hlength hparse (headersEnded_of_sameLines hsize _ hnext.of_andThen)

/-- **Within the text.** For every text, whose length is given as a `uint32_t`: the call returns, with a result and
with lines that do not depend on the bytes behind the text, and no line and no offset goes past its end, if and only
if each line that the parser gets to ends in the text. -/
theorem contained_iff (lib : CLib) (p : RtspPacket) (hsize : text.length < 2 ^ 32) :
    Contained lib p text ↔ Ended lib p text :=
  ⟨ended_of_contained hsize, contained_of_ended hsize⟩

end Steady

/-- A library for texts without floating point numbers and addresses. -/
def plainLib : CLib := ⟨fun _ => [], fun _ => 0, fun _ => 0⟩

/-- A request of one line, and the empty line behind it. -/
theorem contained_optionsRequest :
    (ascii "OPTIONS * RTSP/1.0\r\n\r\n").length < 2 ^ 32 ∧
      Contained plainLib init (ascii "OPTIONS * RTSP/1.0\r\n\r\n") := by
  refine ⟨by decide, (contained_iff plainLib init (by decide)).mpr ?_⟩
  have hmethod : LineAt (ascii "OPTIONS * RTSP/1.0\r\n\r\n") (ascii "OPTIONS * RTSP/1.0") := ⟨by decide, by decide⟩
  exact .method hmethod (by decide) rfl (.empty ⟨by decide, rfl⟩)

/-- What `parse` is given of a request of 41 bytes whose content length is negative, and added to them: the last line
ends behind it. -/
theorem not_contained_negativeLength :
    ¬ ∀ (lib : CLib) (p : RtspPacket) (text : List UInt8), text.length < 2 ^ 32 → Contained lib p text := by
  intro h
  have hsame := SameLines.of_steady (h plainLib init (ascii "OPTIONS * RTSP/1.0\r\nContent-Length:-4") (by decide))
  have hlines := congrArg List.length (hsame (ascii "\r\n\r\n")).1
  exact absurd hlines (by decide)

/-! ## Every call ends -/

section Ends

variable {lib : CLib} {pszRtsp s : List UInt8} {p : RtspPacket} {unRtspSize nOffset : Nat}
  {next : List UInt8 → Nat → ParseRun}

theorem withLine_ends (hnext : ∀ line nReadSize, 0 < nReadSize → (next line nReadSize).outcome ≠ .fuel) :
    (withLine s nOffset p next).outcome ≠ .fuel := by
  unfold withLine
  split
  · nofun
  · split
    · nofun
    · split
      · nofun
      · exact hnext _ _ (by omega)

/-- A turn passes over one byte at least. -/
theorem headersRun_ends (fuel : Nat) (hfuel : 0 < fuel) (hsize : unRtspSize < fuel + nOffset) :
    (headersRun lib pszRtsp unRtspSize fuel nOffset p).outcome ≠ .fuel := by
  induction fuel generalizing nOffset p with
  | zero => exact absurd hfuel (Nat.lt_irrefl 0)
  | succ fuel ih =>
    rw [headersRun]
    split
    · apply withLine_ends
      intro line nReadSize hpos
      split
      · nofun
      · split
        · nofun
        · split
          · nofun
          · exact ih (by omega) (by omega)
    · nofun

/-- **Termination.** Whatever the bytes and the length are, the turns are enough. -/
theorem parseRun_ends (lib : CLib) (p : RtspPacket) (pszRtsp : List UInt8) (unRtspSize : Nat) :
    (parseRun lib p pszRtsp unRtspSize).outcome ≠ .fuel := by
  have hok : ∀ q : RtspPacket, Outcome.ok q ≠ .fuel := fun _ => Outcome.noConfusion
  have hfail : ∀ q : RtspPacket, Outcome.fail q ≠ .fuel := fun _ => Outcome.noConfusion
  unfold parseRun
  split
  · exact hfail _
  · apply withLine_ends
    intro line nReadSize hpos
    split
    · exact hfail _
    · rename_i q _
      have hends : (headersRun lib pszRtsp unRtspSize (unRtspSize + 1) nReadSize q).outcome ≠ .fuel :=
        headersRun_ends _ (Nat.succ_pos _) (by omega)
      unfold ParseRun.andThen
      split
      · unfold parseContent
        split
        · split
          · exact hfail _
          · exact hok _
        · exact hok _
      · exact hends

end Ends

/-! ## Short texts -/

/-- The way a call ends that returns what `parse` does. -/
def Outcome.ofResult : Except RtspPacket RtspPacket → Outcome
  | .ok p => .ok p
  | .error p => .fail p

section Short

variable {lib : CLib} {pszRtsp s : List UInt8} {p : RtspPacket} {unRtspSize nOffset : Nat}
  {next : List UInt8 → Nat → ParseRun}

theorem withLine_short (hshort : s.length < 2 ^ 31) : (withLine s nOffset p next).outcome =
    match readRtspLine s with
    | none => .fail p
    | some (strLine, nReadSize) => (next strLine nReadSize).outcome := by
  unfold withLine readLine readRtspLine
  cases hfind : find rtspEndLine (s.takeWhile (· ≠ 0)) with
  | none => rfl
  | some n =>
    have hle := find_le hfind (by decide)
    have hwhile := (List.takeWhile_prefix (l := s) fun c => decide (c ≠ 0)).length_le
    have hend : rtspEndLine.length = 2 := rfl
    have hbmod : (n : Int).bmod (2 ^ 32) = n := by
      rw [Int.bmod_def]
      omega
    have hnat : ((n : Int) + (2 : Nat)).toNat = n + 2 := by omega
    simp only [Option.map_some, hbmod, hend, Nat.mod_eq_of_lt (show n < 2 ^ 32 by omega)]
    rw [if_neg (by omega), if_neg (by omega), hnat]
    rfl

theorem readRtspLine_le {strLine : List UInt8} {nReadSize : Nat} (h : readRtspLine s = some (strLine, nReadSize)) :
    0 < nReadSize ∧ nReadSize ≤ s.length := by
  obtain ⟨n, hfind, heq⟩ := Option.map_eq_some_iff.mp h
  have hle := find_le hfind (by decide)
  have hwhile := (List.takeWhile_prefix (l := s) fun c => decide (c ≠ 0)).length_le
  have hsize : n + rtspEndLine.length = nReadSize := congrArg Prod.snd heq
  have hend : rtspEndLine.length = 2 := rfl
  omega

theorem headersRun_short (hshort : pszRtsp.length < 2 ^ 31) (fuel : Nat) (hfuel : 0 < fuel)
    (hsize : unRtspSize < fuel + nOffset) : (headersRun lib pszRtsp unRtspSize fuel nOffset p).outcome =
      .ofResult (parseRtspHeaders lib pszRtsp unRtspSize fuel nOffset p) := by
  induction fuel generalizing nOffset p with
  | zero => exact absurd hfuel (Nat.lt_irrefl 0)
  | succ fuel ih =>
    have hdrop : (pszRtsp.drop nOffset).length < 2 ^ 31 := by
      rw [List.length_drop]
      omega
    rw [headersRun, parseRtspHeaders]
    by_cases hlt : nOffset < unRtspSize
    · rw [if_pos hlt, if_pos hlt, withLine_short hdrop]
      cases hread : readRtspLine (pszRtsp.drop nOffset) with
      | none => rfl
      | some r =>
        obtain ⟨strLine, nReadSize⟩ := r
        obtain ⟨hpos, hle⟩ := readRtspLine_le hread
        rw [List.length_drop] at hle
        dsimp only
        by_cases hnil : strLine = []
        · rw [if_pos hnil, if_pos hnil]
          rfl
        · rw [if_neg hnil, if_neg hnil, if_neg (by omega)]
          cases parseRtspHeader lib p strLine with
          | error q => rfl
          | ok q => exact ih (by omega) (by omega)
    · rw [if_neg hlt, if_neg hlt]
      rfl

/-- **The parser.** With fewer bytes at the pointer than `int32_t` has numbers for, this is `parse`. -/
theorem parseRun_eq_parse (hshort : pszRtsp.length < 2 ^ 31) :
    (parseRun lib p pszRtsp unRtspSize).outcome = .ofResult (parse lib p pszRtsp unRtspSize) := by
  unfold parseRun parse
  by_cases hzero : unRtspSize = 0
  · rw [if_pos hzero, if_pos hzero]
    rfl
  rw [if_neg hzero, if_neg hzero, withLine_short hshort]
  cases readRtspLine pszRtsp with
  | none => rfl
  | some r =>
    obtain ⟨strLine, nReadSize⟩ := r
    dsimp only
    cases p.parseRtspMethodLine strLine with
    | error q => rfl
    | ok q =>
      have hrun : (headersRun lib pszRtsp unRtspSize (unRtspSize + 1) nReadSize q).outcome =
          .ofResult (parseRtspHeaders lib pszRtsp unRtspSize (unRtspSize + 1) nReadSize q) :=
        headersRun_short hshort _ (Nat.succ_pos _) (by omega)
      refine (ParseRun.andThen_outcome _ _).trans ?_
      rw [hrun]
      change _ = Outcome.ofResult (parseRtspHeaders lib pszRtsp unRtspSize (unRtspSize + 1) nReadSize q >>= _)
      cases parseRtspHeaders lib pszRtsp unRtspSize (unRtspSize + 1) nReadSize q with
      | error q' => rfl
      | ok q' =>
        change parseContent (pszRtsp.take unRtspSize) q' = Outcome.ofResult (ite _ _ _)
        unfold parseContent
        split
        · cases find rtspEndMsg (pszRtsp.take unRtspSize) <;> rfl
        · rfl

end Short

end AllCamera.RtspPacket
