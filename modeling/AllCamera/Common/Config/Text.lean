import AllCamera.Common.Config
import Mathlib.Data.List.TakeWhile

/-!
# Configuration texts

A text is a line, and for each further line the end of the one before it. A line is empty, a comment, the name of a
section, or a key with what is behind its `=`: a value, with a comment or without. Blanks are allowed in front of a
line, behind the name of a section, and around the `=`. Lines without a `=`, comments behind the name of a section,
and values with a `[`, such as `/mnt/svs_md0[1]`, are left out: the scanners can take the latter for a section.

* `ConfLine`, `ConfText`: the lines with their characters.
* `ConfLine.Ok`, `ConfText.Ok`: what is asked of the names. No `[` is anywhere but in a comment, and the names fit.
* `ConfText.body`, `valueIn`: the lines of a section, and what is behind a key in it.
* `get_text`: what `get` returns for a text.
-/

namespace AllCamera.CacConfig

/-- The end of a line. -/
inductive Eol where
  | lf
  | crlf
  deriving DecidableEq, Repr

def Eol.chars : Eol → List Char
  | lf => ['\n']
  | crlf => ['\r', '\n']

/-- A line; `raw` is all that is behind the `=`. -/
inductive ConfLine where
  | empty (indent : List Char)
  | comment (indent text : List Char)
  | header (indent name behind : List Char)
  | key (indent keyName gap raw : List Char)
  deriving DecidableEq, Repr

namespace ConfLine

def chars : ConfLine → List Char
  | empty indent => indent
  | comment indent text => indent ++ noteSymbol :: text
  | header indent name behind => indent ++ '[' :: (name ++ ']' :: behind)
  | key indent keyName gap raw => indent ++ (keyName ++ (gap ++ '=' :: raw))

/-- A character of a name. -/
def nameChar (c : Char) : Bool := !(isEol c || isBlank c || c = '=' || c = '[' || c = ']' || c = noteSymbol ||
  c = '\x00')

/-- A character of a line. -/
def lineChar (c : Char) : Bool := !(isEol c || c = '\x00')

/-- A character of the name of a section. -/
def sectionChar (c : Char) : Bool := lineChar c && c ≠ ']'

/-- A `[` behind a note symbol only. -/
def Closed (text : List Char) : Prop := '[' ∉ text.takeWhile (· ≠ noteSymbol)

def Blanks (text : List Char) : Prop := ∀ c ∈ text, isBlank c = true

instance (text : List Char) : Decidable (Blanks text) := inferInstanceAs (Decidable (∀ c ∈ text, isBlank c = true))

/-- The name of a section. -/
structure OkHeader (indent name behind : List Char) : Prop where
  okIndent : Blanks indent
  okName : ∀ c ∈ name, sectionChar c = true
  okBehind : Blanks behind
  fits : name.length < nameSize

/-- A key with what is behind its `=`. -/
structure OkKey (indent keyName gap raw : List Char) : Prop where
  okIndent : Blanks indent
  ne_nil : keyName ≠ []
  okName : ∀ c ∈ keyName, nameChar c = true
  okGap : Blanks gap
  fits : keyName.length + gap.length < nameSize
  okRaw : ∀ c ∈ raw, lineChar c = true
  closed : Closed raw

/-- What is asked of a line. -/
def Ok : ConfLine → Prop
  | empty indent => Blanks indent
  | comment indent text => Blanks indent ∧ ∀ c ∈ text, lineChar c = true
  | header indent name behind => OkHeader indent name behind
  | key indent keyName gap raw => OkKey indent keyName gap raw

end ConfLine

/-- The lines behind the first one, each with the line end in front of it. -/
abbrev ConfLines := List (Eol × ConfLine)

namespace ConfLines

def chars (lines : ConfLines) : List Char := lines.flatMap fun l => l.1.chars ++ l.2.chars

@[simp]
theorem chars_nil : chars [] = [] := rfl

@[simp]
theorem chars_cons (e : Eol) (l : ConfLine) (lines : ConfLines) :
    chars ((e, l) :: lines) = e.chars ++ (l.chars ++ chars lines) := by
  rw [chars, List.flatMap_cons, List.append_assoc]
  rfl

def Ok (lines : ConfLines) : Prop := ∀ l ∈ lines, l.2.Ok

end ConfLines

/-- A text by its lines. -/
structure ConfText where
  first : ConfLine
  rest : ConfLines
  deriving DecidableEq, Repr

namespace ConfText

def chars (t : ConfText) : List Char := t.first.chars ++ t.rest.chars

/-- What is asked of a text. A note symbol that is the first character is not found by `get`. -/
structure Ok (t : ConfText) : Prop where
  first : t.first.Ok
  closed : ∀ text, t.first = .comment [] text → ConfLine.Closed text
  rest : t.rest.Ok

end ConfText

/-- What is behind a key in the lines of a section. -/
def valueIn (keyName : List Char) : ConfLines → Option (List Char)
  | [] => none
  | (_, .header _ _ _) :: _ => none
  | (_, .key _ name _ raw) :: lines => if name = keyName then some raw else valueIn keyName lines
  | (_, .empty _) :: lines | (_, .comment _ _) :: lines => valueIn keyName lines

/-- The lines behind the name of a section. -/
def bodyIn (sectionName : List Char) : ConfLines → Option ConfLines
  | [] => none
  | (_, .header _ name _) :: lines => if name = sectionName then some lines else bodyIn sectionName lines
  | (_, .key _ _ _ _) :: lines | (_, .empty _) :: lines | (_, .comment _ _) :: lines => bodyIn sectionName lines

namespace ConfText

def body (t : ConfText) (sectionName : List Char) : Option ConfLines := bodyIn sectionName ((.lf, t.first) :: t.rest)

def value (t : ConfText) (sectionName keyName : List Char) : Option (List Char) :=
  (t.body sectionName).bind (valueIn keyName)

end ConfText

/-- What `get` makes of what is behind the `=`. -/
def shown (unLen : UInt32) (raw : List Char) : Option (List Char) :=
  let outKeyValue := trim (cstr (readValue (valueRoom unLen) true raw))
  if outKeyValue = [] then none else some (rtrim outKeyValue)

/-! ## Characters -/

theorem nameChar_ne {c : Char} (h : ConfLine.nameChar c = true) : isEol c = false ∧ isBlank c = false ∧ c ≠ '=' ∧
    c ≠ '[' ∧ c ≠ ']' ∧ c ≠ noteSymbol ∧ c ≠ '\x00' := by
  simpa [ConfLine.nameChar, and_assoc] using h

theorem lineChar_ne {c : Char} (h : ConfLine.lineChar c = true) : isEol c = false ∧ c ≠ '\x00' := by
  simpa [ConfLine.lineChar] using h

theorem sectionChar_ne {c : Char} (h : ConfLine.sectionChar c = true) : ConfLine.lineChar c = true ∧ c ≠ ']' := by
  simpa [ConfLine.sectionChar] using h

theorem ConfLine.nameChar.lineChar {c : Char} (h : ConfLine.nameChar c = true) : ConfLine.lineChar c = true := by
  obtain ⟨heol, -, -, -, -, -, hnul⟩ := nameChar_ne h
  simp [ConfLine.lineChar, heol, hnul]

theorem isBlank_ne {c : Char} (h : isBlank c = true) : ConfLine.lineChar c = true ∧ c ≠ '[' ∧ c ≠ noteSymbol ∧
    isEol c = false := by
  simp only [isBlank, Bool.or_eq_true, decide_eq_true_eq] at h
  rcases h with rfl | rfl <;> decide

/-- The characters of a line, but for the `[` of a section. -/
def Passed (line : List Char) : Prop := (∀ c ∈ line, ConfLine.lineChar c = true) ∧ ConfLine.Closed line

theorem passed_nil : Passed [] := ⟨by simp, List.not_mem_nil⟩

theorem passed_cons {c : Char} (hc : ConfLine.lineChar c = true) (hopen : c ≠ '[') {line : List Char}
    (h : Passed line) : Passed (c :: line) := by
  refine ⟨List.forall_mem_cons.mpr ⟨hc, h.1⟩, ?_⟩
  rw [ConfLine.Closed, List.takeWhile_cons]
  split
  · exact List.not_mem_cons_of_ne_of_not_mem (Ne.symm hopen) h.2
  · exact List.not_mem_nil

theorem passed_append {before line : List Char} (hbefore : ∀ c ∈ before, ConfLine.lineChar c = true ∧ c ≠ '[')
    (h : Passed line) : Passed (before ++ line) := by
  induction before with
  | nil => exact h
  | cons c before ih =>
    rw [List.forall_mem_cons] at hbefore
    exact passed_cons hbefore.1.1 hbefore.1.2 (ih hbefore.2)

theorem ConfLine.Blanks.passed {blanks line : List Char} (hblanks : ConfLine.Blanks blanks) (h : Passed line) :
    Passed (blanks ++ line) :=
  passed_append (fun c hc => ⟨(isBlank_ne (hblanks c hc)).1, (isBlank_ne (hblanks c hc)).2.1⟩) h

/-- A line that is not the name of a section. -/
theorem ConfLine.Ok.passed {l : ConfLine} (hl : l.Ok) (hheader : ∀ indent name behind, l ≠ .header indent name behind) :
    Passed l.chars := by
  cases l with
  | empty indent => exact List.append_nil indent ▸ ConfLine.Blanks.passed hl passed_nil
  | comment indent text =>
    refine ConfLine.Blanks.passed hl.1 ⟨List.forall_mem_cons.mpr ⟨by decide, hl.2⟩, ?_⟩
    rw [ConfLine.Closed, List.takeWhile_cons_of_neg (by decide)]
    exact List.not_mem_nil
  | header indent name behind => exact absurd rfl (hheader indent name behind)
  | key indent keyName gap raw =>
    have hname : ∀ c ∈ keyName, ConfLine.lineChar c = true ∧ c ≠ '[' := fun c hc =>
      ⟨ConfLine.nameChar.lineChar (hl.okName c hc), (nameChar_ne (hl.okName c hc)).2.2.2.1⟩
    refine ConfLine.Blanks.passed hl.okIndent (passed_append hname (ConfLine.Blanks.passed hl.okGap ?_))
    exact passed_cons (by decide) (by decide) ⟨hl.okRaw, hl.closed⟩

theorem cstr_eq_self {s : List Char} (h : ∀ c ∈ s, c ≠ '\x00') : cstr s = s := by
  apply List.takeWhile_eq_self_iff.mpr
  simpa using h

/-- A text that goes on with the end of the line, or ends. -/
def AtEol (text : List Char) : Prop := ∀ c ∈ text.head?, isEol c = true

theorem Eol.atEol (e : Eol) (text : List Char) : AtEol (e.chars ++ text) := by
  cases e <;> simp [AtEol, Eol.chars, isEol]

theorem atEol_nil : AtEol [] := by simp [AtEol]

theorem ConfLines.atEol (lines : ConfLines) {tail : List Char} (htail : AtEol tail) : AtEol (lines.chars ++ tail) := by
  cases lines with
  | nil => exact htail
  | cons l lines =>
    obtain ⟨e, l⟩ := l
    rw [ConfLines.chars_cons, List.append_assoc]
    exact e.atEol _

theorem atEol_lines (lines : ConfLines) : AtEol lines.chars := List.append_nil lines.chars ▸ lines.atEol atEol_nil

theorem AtEol.head?_ne_note {text : List Char} (h : AtEol text) : text.head? ≠ some noteSymbol := by
  intro hnote
  have := h noteSymbol hnote
  revert this
  decide

/-- What is taken up to the end of a line is the line. -/
theorem takeWhile_append_of_atEol {p : Char → Bool} {line text : List Char} (hline : ∀ c ∈ line, p c = true)
    (htext : ∀ c ∈ text.head?, p c = false) : (line ++ text).takeWhile p = line := by
  rw [List.takeWhile_append_of_pos hline]
  cases text with
  | nil => simp
  | cons c text =>
    have hc : p c = false := htext c rfl
    simp [hc]

theorem dropWhile_append_of_atEol {p : Char → Bool} {line text : List Char} (hline : ∀ c ∈ line, p c = true)
    (htext : ∀ c ∈ text.head?, p c = false) : (line ++ text).dropWhile p = text := by
  rw [List.dropWhile_append_of_pos hline]
  cases text with
  | nil => rfl
  | cons c text =>
    have hc : p c = false := htext c rfl
    simp [hc]

/-- Behind a line: behind the first character of its end. -/
theorem skipLine_append {line text : List Char} (hline : ∀ c ∈ line, isEol c = false) (htext : AtEol text) :
    skipLine (line ++ text) = text.tail := by
  rw [skipLine, dropWhile_append_of_atEol (by simpa using hline) (by simpa [AtEol] using htext)]

theorem bodyIn_ok {sectionName : List Char} {lines body : ConfLines} (h : lines.Ok)
    (hbody : bodyIn sectionName lines = some body) : body.Ok := by
  induction lines with
  | nil => cases hbody
  | cons l lines ih =>
    obtain ⟨e, l⟩ := l
    obtain ⟨-, hlines⟩ := List.forall_mem_cons.mp h
    cases l with
    | header indent name behind =>
      rw [bodyIn] at hbody
      split at hbody
      · exact Option.some.inj hbody ▸ hlines
      · exact ih hlines hbody
    | empty indent => exact ih hlines hbody
    | comment indent text => exact ih hlines hbody
    | key indent name gap raw => exact ih hlines hbody

theorem ConfText.Ok.lines {t : ConfText} (h : t.Ok) : ConfLines.Ok ((.lf, t.first) :: t.rest) :=
  List.forall_mem_cons.mpr ⟨h.first, h.rest⟩

theorem ConfText.Ok.body {t : ConfText} (h : t.Ok) {sectionName : List Char} {body : ConfLines}
    (hbody : t.body sectionName = some body) : body.Ok :=
  bodyIn_ok h.lines hbody

theorem mem_bodyIn {sectionName : List Char} {lines body : ConfLines}
    (hbody : bodyIn sectionName lines = some body) {c : Char} (hc : c ∈ body.chars) : c ∈ lines.chars := by
  induction lines with
  | nil => cases hbody
  | cons l lines ih =>
    obtain ⟨e, l⟩ := l
    have hpass (h : bodyIn sectionName lines = some body) : c ∈ ConfLines.chars ((e, l) :: lines) := by
      rw [ConfLines.chars_cons]
      exact List.mem_append_right _ (List.mem_append_right _ (ih h))
    cases l with
    | header indent name behind =>
      rw [bodyIn] at hbody
      split at hbody
      · obtain rfl := Option.some.inj hbody
        rw [ConfLines.chars_cons]
        exact List.mem_append_right _ (List.mem_append_right _ hc)
      · exact hpass hbody
    | empty indent => exact hpass hbody
    | comment indent text => exact hpass hbody
    | key indent name gap raw => exact hpass hbody

/-- A section of a text of ASCII characters. -/
theorem ConfText.ascii_body {t : ConfText} {sectionName : List Char} {body : ConfLines}
    (hbody : t.body sectionName = some body) (hascii : ∀ c ∈ t.chars, c.toNat < 128) :
    ∀ c ∈ body.chars, c.toNat < 128 := by
  intro c hc
  have hmem := mem_bodyIn hbody hc
  rw [ConfLines.chars_cons] at hmem
  rcases List.mem_append.mp hmem with hmem | hmem
  · obtain rfl := List.mem_singleton.mp hmem
    decide
  · exact hascii c hmem

theorem headerName_append {name : List Char} (hname : ∀ c ∈ name, ConfLine.sectionChar c = true)
    (text : List Char) : headerName (name ++ ']' :: text) = name ∧ behindHeader (name ++ ']' :: text) = text := by
  have hne : ∀ c ∈ name, decide (c ≠ ']') = true := fun c hc => by
    simpa using (sectionChar_ne (hname c hc)).2
  have hend : ∀ c ∈ (']' :: text).head?, decide (c ≠ ']') = false := by simp
  constructor
  · exact takeWhile_append_of_atEol hne hend
  · rw [behindHeader, dropWhile_append_of_atEol hne hend]
    rfl

theorem cstr_sectionName {name : List Char} (hname : ∀ c ∈ name, ConfLine.sectionChar c = true) : cstr name = name :=
  cstr_eq_self fun c hc => (lineChar_ne (sectionChar_ne (hname c hc)).1).2

theorem cstr_name {name : List Char} (hname : ∀ c ∈ name, ConfLine.nameChar c = true) : cstr name = name :=
  cstr_eq_self fun c hc => (nameChar_ne (hname c hc)).2.2.2.2.2.2

/-! ## Scans

The scanners share how they pass what is not a key, and two of them how they pass what is not a section.
-/

/-- A scan that passes blanks, line ends and comments. -/
structure PassesBlanks {α : Type} (scan : List Char → α) : Prop where
  skip : ∀ c text, isEol c = true ∨ isBlank c = true → scan (c :: text) = scan text
  note : ∀ text, scan (noteSymbol :: text) = scan (skipLine text)

namespace PassesBlanks

variable {α : Type} {scan : List Char → α} {text : List Char}

theorem eol (h : PassesBlanks scan) (e : Eol) (text : List Char) : scan (e.chars ++ text) = scan text := by
  cases e with
  | lf => exact h.skip _ text (by decide)
  | crlf => exact (h.skip _ _ (by decide)).trans (h.skip _ text (by decide))

theorem blanks (h : PassesBlanks scan) {blanks : List Char} (hblanks : ConfLine.Blanks blanks) (text : List Char) :
    scan (blanks ++ text) = scan text := by
  induction blanks with
  | nil => rfl
  | cons c blanks ih =>
    obtain ⟨hc, hblanks⟩ := List.forall_mem_cons.mp hblanks
    rw [List.cons_append, h.skip c _ (.inr hc), ih hblanks]

/-- Behind a line it makes no difference whether its end is still to be read. -/
theorem skipLine (h : PassesBlanks scan) {line : List Char} (hline : ∀ c ∈ line, ConfLine.lineChar c = true)
    (htext : AtEol text) : scan (CacConfig.skipLine (line ++ text)) = scan text := by
  rw [skipLine_append (fun c hc => (lineChar_ne (hline c hc)).1) htext]
  cases text with
  | nil => rfl
  | cons c text => exact (h.skip c text (.inl (htext c rfl))).symm

theorem comment (h : PassesBlanks scan) {indent note : List Char} (hline : (ConfLine.comment indent note).Ok)
    (htext : AtEol text) : scan ((ConfLine.comment indent note).chars ++ text) = scan text := by
  obtain ⟨hindent, hnote⟩ := hline
  rw [ConfLine.chars, List.append_assoc, h.blanks hindent, List.cons_append, h.note, h.skipLine hnote htext]

end PassesBlanks

/-- A scan that passes everything but the `[` of a section. -/
structure PassesLines {α : Type} (scan : List Char → α) : Prop where
  skip : ∀ c text, c ≠ '[' → c ≠ noteSymbol → scan (c :: text) = scan text
  note : ∀ text, scan (noteSymbol :: text) = scan (skipLine text)

namespace PassesLines

variable {α : Type} {scan : List Char → α} {text : List Char}

theorem passesBlanks (h : PassesLines scan) : PassesBlanks scan where
  skip c text hc := by
    apply h.skip <;> rintro rfl <;> revert hc <;> decide
  note := h.note

theorem line (h : PassesLines scan) {line : List Char} (hpassed : Passed line) (htext : AtEol text) :
    scan (line ++ text) = scan text := by
  obtain ⟨hline, hclosed⟩ := hpassed
  induction line with
  | nil => rfl
  | cons c line ih =>
    rw [List.forall_mem_cons] at hline
    by_cases hnote : c = noteSymbol
    · subst hnote
      rw [List.cons_append, h.note, h.passesBlanks.skipLine hline.2 htext]
    · rw [ConfLine.Closed, List.takeWhile_cons_of_pos (by simpa using hnote), List.mem_cons, not_or] at hclosed
      rw [List.cons_append, h.skip c _ (Ne.symm hclosed.1) hnote]
      exact ih hline.2 hclosed.2

end PassesLines

/-! ## What is behind the last line -/

/-- `outKeyValue` after `inner_subFuncOfGetKey`. -/
def getOut (sectionName keyName : List Char) (unLen : UInt32) (text : List Char) : Scan (List Char) :=
  (getScan sectionName keyName unLen text).map GetScan.outKeyValue

theorem get_eq (sectionName keyName : List Char) (unLen : UInt32) (text : List Char) :
    get sectionName keyName unLen text =
      (getOut sectionName keyName unLen text).map fun out => if out = [] then none else some (rtrim out) := by
  rw [get, getOut]
  cases getScan sectionName keyName unLen text <;> rfl

/-- What may be behind the last line. -/
structure EndOfText (tail : List Char) : Prop where
  atEol : AtEol tail
  getKeys : ∀ keyName unLen, getKeys keyName unLen tail = .ok []
  getOut : ∀ sectionName keyName unLen, getOut sectionName keyName unLen tail = .ok []
  note : ∀ sectionName keyName unLen, CacConfig.getOut sectionName keyName unLen (tail.dropWhile (· ≠ '\n')) = .ok []

/-! ## The scan over the keys -/

section GetKeys

variable {keyName : List Char} {unLen : UInt32} {text : List Char}

theorem getKeys_nil : getKeys keyName unLen [] = .ok [] := by
  rw [getKeys]

theorem getKeys_passes : PassesBlanks (getKeys keyName unLen) where
  skip c text hc := by
    have hne : ¬(c = '[' ∨ c = '=') := by
      rintro (rfl | rfl) <;> revert hc <;> decide
    rw [getKeys, if_neg hne, if_pos hc]
  note text := by
    rw [getKeys, if_neg (by decide), if_neg (by decide), if_pos rfl]

/-- The name of a key ends with a blank or with the `=`. -/
theorem keyText_append {name gap : List Char} (hname : ∀ c ∈ name, ConfLine.nameChar c = true)
    (hgap : ConfLine.Blanks gap) (text : List Char) :
    (name ++ (gap ++ '=' :: text)).takeWhile (!endsKey ·) = name ∧
      (name ++ (gap ++ '=' :: text)).dropWhile (!endsKey ·) = gap ++ '=' :: text := by
  have hends : ∀ c ∈ name, (!endsKey c) = true := fun c hc => by
    obtain ⟨heol, hblank, heq, -⟩ := nameChar_ne (hname c hc)
    simp [endsKey, heol, hblank, heq]
  have hend : ∀ c ∈ (gap ++ '=' :: text).head?, (!endsKey c) = false := by
    cases gap with
    | nil => simp [endsKey]
    | cons d gap => simp [endsKey, hgap d List.mem_cons_self]
  exact ⟨takeWhile_append_of_atEol hends hend, dropWhile_append_of_atEol hends hend⟩

/-- A character that ends a key, and what is behind it. -/
theorem exists_behind_key {gap : List Char} (hgap : ConfLine.Blanks gap) (text : List Char) :
    ∃ d behind, gap ++ '=' :: text = d :: behind ∧ isEol d = false ∧
      ∃ line, behind = line ++ text ∧ ∀ c ∈ line, ConfLine.lineChar c = true := by
  cases gap with
  | nil => exact ⟨'=', text, rfl, by decide, [], rfl, by simp⟩
  | cons d gap =>
    obtain ⟨hd, hgap⟩ := List.forall_mem_cons.mp hgap
    refine ⟨d, gap ++ '=' :: text, rfl, (isBlank_ne hd).2.2.2, gap ++ ['='], by simp, fun c hc => ?_⟩
    rcases List.mem_append.mp hc with hc | hc
    · exact (isBlank_ne (hgap c hc)).1
    · obtain rfl := List.mem_singleton.mp hc
      decide

/-- A line with a key: its value is taken, or it is passed. -/
theorem getKeys_key {indent name gap raw : List Char} (hkey : (ConfLine.key indent name gap raw).Ok)
    (htext : AtEol text) :
    getKeys keyName unLen ((ConfLine.key indent name gap raw).chars ++ text) =
      if name = keyName then getValue unLen (gap ++ '=' :: (raw ++ text)) else getKeys keyName unLen text := by
  have hfits := hkey.fits
  have hname := hkey.okName
  cases name with
  | nil => exact absurd rfl hkey.ne_nil
  | cons c name =>
    obtain ⟨heol, hblank, heq, hopen, -, hnote, -⟩ := nameChar_ne (hname c List.mem_cons_self)
    obtain ⟨htake, hdrop⟩ := keyText_append hname hkey.okGap (raw ++ text)
    rw [List.cons_append] at htake hdrop
    have happ : (ConfLine.key indent (c :: name) gap raw).chars ++ text =
        indent ++ c :: (name ++ (gap ++ '=' :: (raw ++ text))) := by simp [ConfLine.chars]
    rw [happ, getKeys_passes.blanks hkey.okIndent, getKeys, if_neg (by simp [heq, hopen]),
      if_neg (by simp [heol, hblank]), if_neg hnote]
    simp only [htake]
    obtain ⟨d, behind, hbehind, hd, line, rfl, hline⟩ := exists_behind_key hkey.okGap (raw ++ text)
    split
    · rename_i hnil
      rw [hdrop, hbehind] at hnil
      cases hnil
    · rename_i d' behind' hbehind'
      rw [hdrop, hbehind] at hbehind'
      obtain ⟨rfl, rfl⟩ := List.cons.inj hbehind'
      rw [hd, if_neg (by decide), if_neg (by omega), cstr_name hname, hbehind]
      split
      · rfl
      · rw [← List.append_assoc]
        exact getKeys_passes.skipLine (fun c hc => (List.mem_append.mp hc).elim (hline c) (hkey.okRaw c)) htext

/-- A value ends with the line. -/
theorem readValue_append (line : List Char) {text : List Char} (htext : AtEol text) (room : Nat) (bTemp : Bool) :
    readValue room bTemp (line ++ text) = readValue room bTemp line := by
  induction line generalizing room bTemp with
  | nil =>
    cases text with
    | nil => rfl
    | cons c text =>
      have hc : isEol c = true := htext c rfl
      cases room with
      | zero => simp [readValue]
      | succ room => simp [readValue, hc]
  | cons c line ih =>
    cases room with
    | zero => simp [readValue]
    | succ room => simp only [List.cons_append, readValue, ih]

theorem readValue_equals (room : Nat) (text : List Char) :
    readValue room false ('=' :: text) = readValue room true text := by
  cases room with
  | zero => cases text <;> rfl
  | succ room => simp [readValue, isEol, isBlank, noteSymbol]

/-- The value behind the `=`. -/
theorem getValue_equals {gap : List Char} (hgap : ConfLine.Blanks gap) (raw : List Char) {text : List Char}
    (htext : AtEol text) :
    getValue unLen (gap ++ '=' :: (raw ++ text)) =
      if unLen = 0 then .error .value else .ok (trim (cstr (readValue (valueRoom unLen) true raw))) := by
  induction gap with
  | nil =>
    rw [List.nil_append, getValue, if_neg (by decide), if_neg (by decide), readValue_equals,
      readValue_append raw htext]
  | cons c gap ih =>
    obtain ⟨hc, hgap⟩ := List.forall_mem_cons.mp hgap
    obtain ⟨-, -, hnote, heol⟩ := isBlank_ne hc
    rw [List.cons_append, getValue, if_neg (by simp [heol, hnote]), if_pos hc, ih hgap]

/-- The value of a key in the lines of its section. -/
theorem getKeys_lines {lines : ConfLines} (h : lines.Ok) {tail : List Char} (htail : EndOfText tail) :
    getKeys keyName unLen (lines.chars ++ tail) =
      match valueIn keyName lines with
      | none => .ok []
      | some raw => if unLen = 0 then .error .value else .ok (trim (cstr (readValue (valueRoom unLen) true raw))) := by
  induction lines with
  | nil => exact htail.getKeys keyName unLen
  | cons l lines ih =>
    obtain ⟨e, l⟩ := l
    obtain ⟨hl, hlines⟩ := List.forall_mem_cons.mp h
    have hrest := ih hlines
    have hend := ConfLines.atEol lines htail.atEol
    rw [ConfLines.chars_cons, List.append_assoc, List.append_assoc, getKeys_passes.eol]
    cases l with
    | empty indent => exact (getKeys_passes.blanks hl _).trans hrest
    | comment indent text => exact (getKeys_passes.comment hl hend).trans hrest
    | header indent name behind =>
      rw [ConfLine.chars, List.append_assoc, getKeys_passes.blanks hl.okIndent, valueIn]
      exact getKeys.eq_2 .. |>.trans (if_pos (.inl rfl))
    | key indent name gap raw =>
      rw [getKeys_key hl hend, valueIn, getValue_equals hl.okGap raw hend]
      split
      · rfl
      · exact hrest

end GetKeys

/-! ## The scan over the sections -/

section GetOut

variable {sectionName keyName : List Char} {unLen : UInt32} {text : List Char}

theorem getScan_header (text : List Char) : getScan sectionName keyName unLen ('[' :: text) =
    if ']' ∉ text then .error .beyond
    else if nameSize ≤ (headerName text).length then .error .name
    else if cstr (headerName text) = sectionName then
      (getKeys keyName unLen (behindHeader text)).map fun outKeyValue => ⟨outKeyValue, false⟩
    else getScan sectionName keyName unLen (behindHeader text) := by
  rw [getScan.eq_def]
  rfl

theorem getOut_nil : getOut sectionName keyName unLen [] = .ok [] := by
  rw [getOut, getScan]
  rfl

theorem getOut_cons {c : Char} (hc : c ≠ '[') (htext : text.head? ≠ some noteSymbol) :
    getOut sectionName keyName unLen (c :: text) = getOut sectionName keyName unLen text := by
  cases text with
  | nil =>
    rw [getOut_nil, getOut, getScan, if_neg hc]
    rfl
  | cons d text =>
    have hd : d ≠ noteSymbol := fun h => htext (congrArg some h)
    rw [getOut, getScan, if_neg hc, if_neg hd]
    rfl

theorem getOut_note {c : Char} (hc : c ≠ '[') (text : List Char) :
    getOut sectionName keyName unLen (c :: noteSymbol :: text) =
      getOut sectionName keyName unLen (text.dropWhile (· ≠ '\n')) := by
  rw [getOut, getScan, if_neg hc, if_pos rfl]
  by_cases hend : '\n' ∈ text
  · rw [if_pos hend]
    rfl
  · have hall : text.dropWhile (· ≠ '\n') = [] := by
      rw [List.dropWhile_eq_nil_iff]
      intro c hc
      simpa using ne_of_mem_of_not_mem hc hend
    rw [if_neg hend, hall, getOut_nil]
    rfl

theorem getOut_blanks {blanks : List Char} (hblanks : ConfLine.Blanks blanks)
    (htext : text.head? ≠ some noteSymbol) :
    getOut sectionName keyName unLen (blanks ++ text) = getOut sectionName keyName unLen text := by
  induction blanks with
  | nil => rfl
  | cons c blanks ih =>
    obtain ⟨hc, hblanks⟩ := List.forall_mem_cons.mp hblanks
    rw [List.cons_append, getOut_cons (isBlank_ne hc).2.1, ih hblanks]
    cases blanks with
    | nil => exact htext
    | cons d blanks =>
      have hd := (isBlank_ne (hblanks d List.mem_cons_self)).2.2.1
      simpa using hd

/-- Behind a comment `get` goes on with the `\n`. -/
def PassesNote (sectionName keyName : List Char) (unLen : UInt32) (text : List Char) : Prop :=
  AtEol text ∧ getOut sectionName keyName unLen (text.dropWhile (· ≠ '\n')) = getOut sectionName keyName unLen text

theorem passesNote_lines (lines : ConfLines) {tail : List Char} (htail : EndOfText tail) :
    PassesNote sectionName keyName unLen (lines.chars ++ tail) := by
  refine ⟨lines.atEol htail.atEol, ?_⟩
  cases lines with
  | nil => exact (htail.note sectionName keyName unLen).trans (htail.getOut sectionName keyName unLen).symm
  | cons l lines =>
    obtain ⟨e, l⟩ := l
    rw [ConfLines.chars_cons, List.append_assoc]
    cases e with
    | lf => rfl
    | crlf => exact (getOut_cons (by decide) (by simp [noteSymbol, Eol.chars])).symm

theorem getOut_dropWhile {line : List Char} (hline : ∀ c ∈ line, ConfLine.lineChar c = true)
    (htext : PassesNote sectionName keyName unLen text) :
    getOut sectionName keyName unLen ((line ++ text).dropWhile (· ≠ '\n')) = getOut sectionName keyName unLen text := by
  have hline : ∀ c ∈ line, decide (c ≠ '\n') = true := by
    intro c hc
    have := (lineChar_ne (hline c hc)).1
    simp [isEol] at this
    simpa using this.1
  rw [List.dropWhile_append_of_pos hline]
  exact htext.2

/-- A line without a section is passed, with the character in front of it. -/
theorem getOut_line {c : Char} {line : List Char} (hc : c ≠ '[') (hpassed : Passed line)
    (htext : PassesNote sectionName keyName unLen text) :
    getOut sectionName keyName unLen (c :: (line ++ text)) = getOut sectionName keyName unLen text := by
  obtain ⟨hline, hclosed⟩ := hpassed
  induction line generalizing c with
  | nil => exact getOut_cons hc htext.1.head?_ne_note
  | cons d line ih =>
    rw [List.forall_mem_cons] at hline
    by_cases hd : d = noteSymbol
    · subst hd
      rw [List.cons_append, getOut_note hc, getOut_dropWhile hline.2 htext]
    · rw [ConfLine.Closed, List.takeWhile_cons_of_pos (by simpa using hd), List.mem_cons, not_or] at hclosed
      rw [List.cons_append, getOut_cons hc (by simpa using hd)]
      exact ih (Ne.symm hclosed.1) hline.2 hclosed.2

/-- The name of a section decides how the scan goes on. -/
theorem getOut_header {indent name behind : List Char} (h : (ConfLine.header indent name behind).Ok)
    (htext : AtEol text) :
    getOut sectionName keyName unLen ((ConfLine.header indent name behind).chars ++ text) =
      if name = sectionName then getKeys keyName unLen text else getOut sectionName keyName unLen text := by
  have happ : (ConfLine.header indent name behind).chars ++ text =
      indent ++ '[' :: (name ++ ']' :: (behind ++ text)) := by
    simp [ConfLine.chars]
  obtain ⟨hheader, hbehind⟩ := headerName_append h.okName (behind ++ text)
  have hlen := h.fits
  rw [happ, getOut_blanks h.okIndent (by simp [noteSymbol]), getOut, getScan_header, if_neg (by simp), hheader, hbehind,
    if_neg (by omega), cstr_sectionName h.okName, getKeys_passes.blanks h.okBehind]
  split
  · cases getKeys keyName unLen text <;> rfl
  · exact getOut_blanks h.okBehind htext.head?_ne_note

/-- A line that is not the name of a section is passed, with the line end in front of it. -/
theorem getOut_eol_line (e : Eol) {line : List Char} (hline : Passed line)
    (htext : PassesNote sectionName keyName unLen text) :
    getOut sectionName keyName unLen (e.chars ++ (line ++ text)) = getOut sectionName keyName unLen text := by
  cases e with
  | lf => exact getOut_line (by decide) hline htext
  | crlf =>
    -- a comment is found by the look behind the `\n`
    change getOut sectionName keyName unLen ('\r' :: '\n' :: (line ++ text)) = _
    rw [getOut_cons (by decide) (by simp [noteSymbol])]
    exact getOut_line (by decide) hline htext

theorem head?_header_ne_note {indent name behind : List Char} (h : (ConfLine.header indent name behind).Ok) :
    ((ConfLine.header indent name behind).chars ++ text).head? ≠ some noteSymbol := by
  cases indent with
  | nil => simp [ConfLine.chars, noteSymbol]
  | cons c indent =>
    have hc := (isBlank_ne (h.okIndent c List.mem_cons_self)).2.2.1
    simpa [ConfLine.chars] using hc

theorem getOut_eol_header (e : Eol) {indent name behind : List Char} (h : (ConfLine.header indent name behind).Ok) :
    getOut sectionName keyName unLen (e.chars ++ ((ConfLine.header indent name behind).chars ++ text)) =
      getOut sectionName keyName unLen ((ConfLine.header indent name behind).chars ++ text) := by
  have hhead := @head?_header_ne_note text indent name behind h
  cases e with
  | lf => exact getOut_cons (by decide) hhead
  | crlf => exact (getOut_cons (by decide) (by simp [noteSymbol])).trans (getOut_cons (by decide) hhead)

/-- What `getScan` finds in a section, or that there is none. -/
def scanned (keyName : List Char) (unLen : UInt32) (tail : List Char) : Option ConfLines → Scan (List Char)
  | none => .ok []
  | some body => getKeys keyName unLen (body.chars ++ tail)

/-- The lines in front of a section are passed. -/
theorem getOut_lines {lines : ConfLines} (h : lines.Ok) {tail : List Char} (htail : EndOfText tail) :
    getOut sectionName keyName unLen (lines.chars ++ tail) = scanned keyName unLen tail (bodyIn sectionName lines) := by
  induction lines with
  | nil => exact htail.getOut sectionName keyName unLen
  | cons l lines ih =>
    obtain ⟨e, l⟩ := l
    obtain ⟨hl, hlines⟩ := List.forall_mem_cons.mp h
    have hnote := @passesNote_lines sectionName keyName unLen lines tail htail
    rw [ConfLines.chars_cons, List.append_assoc, List.append_assoc]
    cases l with
    | header indent name behind =>
      rw [getOut_eol_header e hl, getOut_header hl hnote.1, bodyIn]
      split
      · rfl
      · exact ih hlines
    | empty indent => exact (getOut_eol_line e (hl.passed (by simp)) hnote).trans (ih hlines)
    | comment indent text => exact (getOut_eol_line e (hl.passed (by simp)) hnote).trans (ih hlines)
    | key indent name gap raw => exact (getOut_eol_line e (hl.passed (by simp)) hnote).trans (ih hlines)

/-- The first line has no line end in front of it. -/
theorem getOut_first {line : List Char} (hline : Passed line)
    (hclosed : ∀ text, line = noteSymbol :: text → ConfLine.Closed text)
    (htext : PassesNote sectionName keyName unLen text) :
    getOut sectionName keyName unLen (line ++ text) = getOut sectionName keyName unLen text := by
  cases line with
  | nil => rfl
  | cons c line =>
    obtain ⟨hchars, hclosed'⟩ := hline
    rw [List.forall_mem_cons] at hchars
    by_cases hc : c = noteSymbol
    · subst hc
      exact getOut_line (by decide) ⟨hchars.2, hclosed line rfl⟩ htext
    · rw [ConfLine.Closed, List.takeWhile_cons_of_pos (by simpa using hc), List.mem_cons, not_or] at hclosed'
      exact getOut_line (Ne.symm hclosed'.1) ⟨hchars.2, hclosed'.2⟩ htext

/-- A note symbol in front of the first line is the one of a comment. -/
theorem ConfText.Ok.closed_first {t : ConfText} (h : t.Ok) {line : List Char}
    (hline : t.first.chars = noteSymbol :: line) : ConfLine.Closed line := by
  obtain ⟨first, rest⟩ := t
  obtain ⟨hfirst, hclosed, -⟩ := h
  have hblank {c : Char} {indent behind : List Char} (hindent : ConfLine.Blanks (c :: indent))
      (h : c :: indent ++ behind = noteSymbol :: line) : False := by
    obtain ⟨rfl, -⟩ := List.cons.inj h
    exact (isBlank_ne (hindent noteSymbol List.mem_cons_self)).2.2.1 rfl
  cases first with
  | empty indent =>
    cases indent with
    | nil => cases hline
    | cons c indent => exact (hblank hfirst ((List.append_nil _).trans hline)).elim
  | comment indent text =>
    cases indent with
    | nil => exact (List.cons.inj hline).2 ▸ hclosed text rfl
    | cons c indent => exact (hblank hfirst.1 hline).elim
  | header indent name behind =>
    cases indent with
    | nil => cases hline
    | cons c indent => exact (hblank hfirst.okIndent hline).elim
  | key indent name gap raw =>
    cases indent with
    | nil =>
      cases name with
      | nil => exact absurd rfl hfirst.ne_nil
      | cons c name =>
        obtain ⟨rfl, -⟩ := List.cons.inj hline
        exact absurd rfl (nameChar_ne (hfirst.okName noteSymbol List.mem_cons_self)).2.2.2.2.2.1
    | cons c indent => exact (hblank hfirst.okIndent hline).elim

/-- The same for a text. -/
theorem getOut_text {t : ConfText} (h : t.Ok) {tail : List Char} (htail : EndOfText tail) :
    getOut sectionName keyName unLen (t.chars ++ tail) = scanned keyName unLen tail (t.body sectionName) := by
  have hnote := @passesNote_lines sectionName keyName unLen t.rest tail htail
  have hlines := @getOut_lines sectionName keyName unLen t.rest h.rest tail htail
  have hpass (hl : Passed t.first.chars) :
      getOut sectionName keyName unLen (t.first.chars ++ (t.rest.chars ++ tail)) =
        getOut sectionName keyName unLen (t.rest.chars ++ tail) :=
    getOut_first hl (fun _ hline => h.closed_first hline) hnote
  have hok := h.first
  rw [ConfText.chars, ConfText.body, List.append_assoc]
  cases hfirst : t.first with
  | header indent name behind =>
    rw [hfirst] at hok
    rw [getOut_header hok hnote.1, bodyIn]
    split
    · rfl
    · exact hlines
  | empty indent =>
    rw [hfirst] at hok hpass
    exact (hpass (hok.passed (by simp))).trans hlines
  | comment indent text =>
    rw [hfirst] at hok hpass
    exact (hpass (hok.passed (by simp))).trans hlines
  | key indent name gap raw =>
    rw [hfirst] at hok hpass
    exact (hpass (hok.passed (by simp))).trans hlines

end GetOut

theorem endOfText_nil : EndOfText [] where
  atEol := atEol_nil
  getKeys _ _ := getKeys_nil
  getOut _ _ _ := getOut_nil
  note _ _ _ := getOut_nil

/-- What `get` returns for a value, or none. -/
def returned (unLen : UInt32) : Option (List Char) → Scan (Option (List Char))
  | none => .ok none
  | some raw => if unLen = 0 then .error .value else .ok (shown unLen raw)

/-- What `get` returns for a text. -/
theorem get_text {t : ConfText} (h : t.Ok) {tail : List Char} (htail : EndOfText tail) (sectionName keyName : List Char)
    (unLen : UInt32) :
    get sectionName keyName unLen (t.chars ++ tail) = returned unLen (t.value sectionName keyName) := by
  rw [get_eq, getOut_text h htail, ConfText.value]
  cases hbody : t.body sectionName with
  | none => rfl
  | some body =>
    rw [scanned, getKeys_lines (h.body hbody) htail, Option.bind_some]
    cases valueIn keyName body with
    | none => rfl
    | some raw =>
      simp only [returned]
      split
      · rfl
      · rfl

end AllCamera.CacConfig
