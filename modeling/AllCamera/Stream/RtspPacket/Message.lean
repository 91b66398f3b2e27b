import AllCamera.Stream.RtspPacket
import Mathlib.Data.List.TakeWhile

/-!
# RTSP messages as they are sent

A message is a start line, header lines, an empty line, and a body as long as its content length
says.

* `RtspMessage`: well-formed messages.
* `find_end`, `find_end_part`: the end of the header is found as soon as it is there, and not before.
* `lengthField_value`: what the number conversion reads.
* `capital`: the message with the letter that `checkRtsp` writes.
-/

namespace AllCamera

/-- A letter in lower case. -/
def lower (c : UInt8) : UInt8 := if 65 ≤ c ∧ c ≤ 90 then c + 32 else c

/-- Text of one line: without the letters of the line's end. -/
def IsText (l : List UInt8) : Prop := ∀ c ∈ l, c ≠ 13 ∧ c ≠ 10

/-- What a test of every letter says. -/
theorem forall_mem_of_all {p : UInt8 → Prop} [DecidablePred p] {l : List UInt8}
    (h : (l.all fun c => decide (p c)) = true) : ∀ c ∈ l, p c := by
  simpa using h

/-- `content-length:`, in any spelling. -/
def contentLengthAny : List UInt8 := contentLength.map lower

/-- The line of a content length: the name in any spelling, with its colon, blanks, the digits, and
blanks again. -/
structure LengthLine where
  name : List UInt8
  blanks : List UInt8
  digits : List UInt8
  tail : List UInt8
  name_lower : name.map lower = contentLengthAny
  blanks_blank : ∀ c ∈ blanks, c = 32 ∨ c = 9
  digits_ne_nil : digits ≠ []
  digits_digit : ∀ c ∈ digits, isDigit c = true
  tail_blank : ∀ c ∈ tail, c = 32 ∨ c = 9

/-- The text of the line. -/
def LengthLine.text (l : LengthLine) : List UInt8 := l.name ++ l.blanks ++ l.digits ++ l.tail

/-- The length that it declares. -/
def LengthLine.value (l : LengthLine) : Nat := digitsValue l.digits

/-- A header line that is no content length. -/
structure OtherLine where
  text : List UInt8
  isText : IsText text
  ne_nil : text ≠ []
  no_length : (text.take contentLength.length).map lower ≠ contentLengthAny

/-- A message: the start line with its method, the header lines before and behind the one with the
content length, and the body. -/
structure RtspMessage where
  startLine : List UInt8
  before : List OtherLine
  lengthLine : Option LengthLine
  behind : List OtherLine
  body : List UInt8
  startLine_text : IsText startLine
  startLine_method : ∃ name ∈ rtspMethods, name <+: startLine
  body_length : body.length = (lengthLine.map LengthLine.value).getD 0

/-- Lines with their ends. -/
def endLines (ls : List (List UInt8)) : List UInt8 := ls.flatMap (· ++ rtspEndLine)

namespace RtspMessage

/-- The lines of the message. -/
def lines (m : RtspMessage) : List (List UInt8) :=
  m.startLine :: m.before.map OtherLine.text ++ m.lengthLine.toList.map LengthLine.text ++
    m.behind.map OtherLine.text

/-- The message up to the empty line. -/
def head (m : RtspMessage) : List UInt8 := endLines m.lines ++ rtspEndLine

/-- The message as it is sent. -/
def bytes (m : RtspMessage) : List UInt8 := m.head ++ m.body

/-- Where the line with the content length begins. -/
def lengthAt (m : RtspMessage) : Nat :=
  (endLines (m.startLine :: m.before.map OtherLine.text)).length

end RtspMessage

/-! ## The end of the header -/

theorem LengthLine.name_length (l : LengthLine) : l.name.length = contentLength.length := by
  have := congrArg List.length l.name_lower
  simpa [contentLengthAny] using this

/-- A letter that is not a line's end in lower case is not one. -/
theorem ne_of_lower {c : UInt8} (h : lower c ≠ 13 ∧ lower c ≠ 10) : c ≠ 13 ∧ c ≠ 10 := by
  refine ⟨?_, ?_⟩ <;> rintro rfl
  · exact h.1 (by decide)
  · exact h.2 (by decide)

theorem LengthLine.isText (l : LengthLine) : IsText l.text := by
  have hname : ∀ c ∈ l.name, c ≠ 13 ∧ c ≠ 10 := by
    intro c hc
    apply ne_of_lower
    have hmem : lower c ∈ contentLengthAny := l.name_lower ▸ List.mem_map_of_mem hc
    have hall : ∀ d ∈ contentLengthAny, d ≠ 13 ∧ d ≠ 10 := forall_mem_of_all (by decide)
    exact hall _ hmem
  have hblank : ∀ c : UInt8, c = 32 ∨ c = 9 → c ≠ 13 ∧ c ≠ 10 := by
    rintro c (rfl | rfl) <;> decide
  have hdigit : ∀ c : UInt8, isDigit c = true → c ≠ 13 ∧ c ≠ 10 := by
    intro c hc
    refine ⟨?_, ?_⟩ <;> rintro rfl <;> revert hc <;> decide
  intro c hc
  simp only [text, List.mem_append] at hc
  rcases hc with ((hc | hc) | hc) | hc
  · exact hname c hc
  · exact hblank c (l.blanks_blank c hc)
  · exact hdigit c (l.digits_digit c hc)
  · exact hblank c (l.tail_blank c hc)

theorem LengthLine.text_ne_nil (l : LengthLine) : l.text ≠ [] := by
  intro h
  have := congrArg List.length h
  have hd := List.length_pos_iff.mpr l.digits_ne_nil
  simp only [text, List.length_append, List.length_nil] at this
  omega

theorem find_text {a : UInt8} {pat l : List UInt8} (h : IsText l) (ha : a = 13) (t : List UInt8) :
    find (a :: pat) (l ++ t) = (find (a :: pat) t).map (· + l.length) :=
  find_skip (fun c hc => ha ▸ (h c hc).1) t

/-- The end of the first line. -/
theorem find_endLine {l : List UInt8} (h : IsText l) (t : List UInt8) :
    find rtspEndLine (l ++ (rtspEndLine ++ t)) = some l.length := by
  have hfound : find rtspEndLine (rtspEndLine ++ t) = some 0 := by
    simp [rtspEndLine, find, List.isPrefixOf]
  unfold rtspEndLine at hfound ⊢
  rw [find_text h rfl, hfound, Option.map_some, Nat.zero_add]

/-- A line's end with another line behind it is not the end of the header. -/
theorem find_endMsg_next {t : List UInt8} (h : ¬ rtspEndLine <+: t) :
    find rtspEndMsg (rtspEndLine ++ t) = (find rtspEndMsg t).map (· + 2) := by
  have hpre : ¬ (rtspEndMsg <+: 13 :: 10 :: t) := by
    intro hp
    exact h ((List.prefix_append_right_inj [13, 10]).mp hp)
  have hpre' : ¬ (rtspEndMsg <+: 10 :: t) := by
    intro hp
    have := (List.cons_prefix_cons.mp hp).1
    revert this
    decide
  rw [show rtspEndLine ++ t = 13 :: 10 :: t from rfl, find, if_neg (by simpa using hpre), find,
    if_neg (by simpa using hpre'), Option.map_map]
  rfl

/-- The lines' ends are not the end of the header, but the empty line is. -/
theorem find_endMsg {ls : List (List UInt8)} (hne : ls ≠ []) (ht : ∀ l ∈ ls, IsText l)
    (hnil : ∀ l ∈ ls.tail, l ≠ []) (t : List UInt8) :
    find rtspEndMsg (endLines ls ++ (rtspEndLine ++ t)) = some ((endLines ls).length - 2) := by
  induction ls with
  | nil => exact absurd rfl hne
  | cons l ls ih =>
    have hl := ht l List.mem_cons_self
    have hcons : endLines (l :: ls) ++ (rtspEndLine ++ t) =
        l ++ (rtspEndLine ++ (endLines ls ++ (rtspEndLine ++ t))) := by
      simp [endLines]
    have hlen : (endLines (l :: ls)).length = l.length + 2 + (endLines ls).length := by
      simp [endLines, rtspEndLine]
      omega
    rw [hcons, hlen]
    cases ls with
    | nil =>
      have hfound : find rtspEndMsg (rtspEndLine ++ (endLines [] ++ (rtspEndLine ++ t))) = some 0 := by
        simp [rtspEndLine, rtspEndMsg, endLines, find, List.isPrefixOf]
      unfold rtspEndMsg at hfound ⊢
      rw [find_text hl rfl, hfound]
      simp [endLines]
    | cons l' ls =>
      have ih := ih (by simp) (fun x hx => ht x (List.mem_cons_of_mem _ hx))
        (fun x hx => hnil x (by simpa using List.mem_of_mem_tail hx))
      have hl' : l' ≠ [] := hnil l' (by simp)
      have ht' := ht l' (by simp)
      -- the line behind does not begin with the letter of a line's end
      obtain ⟨x, xs, rfl⟩ := List.exists_cons_of_ne_nil hl'
      have hx : x ≠ 13 := (ht' x List.mem_cons_self).1
      have hnext := find_endMsg_next (t := endLines ((x :: xs) :: ls) ++ (rtspEndLine ++ t)) fun hp =>
        hx (List.cons_prefix_cons.mp hp).1.symm
      have h2 : 2 ≤ (endLines ((x :: xs) :: ls)).length := by
        simp [endLines, rtspEndLine]
        omega
      unfold rtspEndMsg at ih hnext ⊢
      rw [find_text hl rfl, hnext, ih]
      simp only [Option.map_some, Option.some.injEq]
      omega

/-! ## The number -/

theorem takeWhile_append_of_neg {p : UInt8 → Bool} {l t : List UInt8} (ht : ∀ c ∈ t, p c = false) :
    (l ++ t).takeWhile p = l.takeWhile p := by
  induction l with
  | nil =>
    cases t with
    | nil => rfl
    | cons c t => simp [ht c List.mem_cons_self]
  | cons x l ih =>
    by_cases hx : p x = true
    · simp [hx, ih]
    · simp [hx]

/-- The sign and the digits. -/
def signedValue : List UInt8 → UInt32
  | 45 :: s => 0 - UInt32.ofNat (digitsValue (s.takeWhile isDigit))
  | 43 :: s => UInt32.ofNat (digitsValue (s.takeWhile isDigit))
  | s => UInt32.ofNat (digitsValue (s.takeWhile isDigit))

theorem atoi_eq (s : List UInt8) : atoi s = signedValue (s.dropWhile isSpace) := rfl

/-- A blank is no digit. -/
theorem isDigit_blank {t : List UInt8} (ht : ∀ c ∈ t, c = 32) : ∀ c ∈ t, isDigit c = false := by
  intro c hc
  rw [ht c hc]
  decide

theorem signedValue_append {s t : List UInt8} (ht : ∀ c ∈ t, c = 32) :
    signedValue (s ++ t) = signedValue s := by
  have hd := isDigit_blank ht
  cases s with
  | nil =>
    cases t with
    | nil => rfl
    | cons c t =>
      obtain rfl := ht c List.mem_cons_self
      rfl
  | cons x s =>
    rw [List.cons_append]
    unfold signedValue
    split
    · rename_i s' heq
      obtain ⟨rfl, rfl⟩ := List.cons.inj heq
      rw [takeWhile_append_of_neg hd]
      rfl
    · rename_i s' heq
      obtain ⟨rfl, rfl⟩ := List.cons.inj heq
      rw [takeWhile_append_of_neg hd]
      rfl
    · rename_i h45 h43
      split
      · rename_i s' heq
        obtain ⟨rfl, rfl⟩ := List.cons.inj heq
        exact absurd rfl (h45 _)
      · rename_i s' heq
        obtain ⟨rfl, rfl⟩ := List.cons.inj heq
        exact absurd rfl (h43 _)
      · rw [← List.cons_append, takeWhile_append_of_neg hd]

/-- The blanks that `trimString` takes off do not matter. -/
theorem atoi_trimString (s : List UInt8) : atoi (trimString s) = atoi s := by
  have hfront : ∀ l : List UInt8, (l.dropWhile (· = 32)).dropWhile isSpace = l.dropWhile isSpace := by
    intro l
    induction l with
    | nil => rfl
    | cons c l ih =>
      by_cases hc : c = 32
      · subst hc
        simpa [isSpace] using ih
      · simp [hc]
  -- the text is what is left of it and blanks behind
  obtain ⟨t, ht, hs⟩ : ∃ t : List UInt8, (∀ c ∈ t, c = 32) ∧
      s = (s.reverse.dropWhile (· = 32)).reverse ++ t := by
    refine ⟨(s.reverse.takeWhile (· = 32)).reverse, fun c hc => ?_, ?_⟩
    · have := List.mem_takeWhile_imp (List.mem_reverse.mp hc)
      simpa using this
    · rw [← List.reverse_append, List.takeWhile_append_dropWhile, List.reverse_reverse]
  rw [atoi_eq, trimString, hfront]
  conv_rhs => rw [hs, atoi_eq, List.dropWhile_append]
  split
  · rename_i hnil
    rw [List.isEmpty_iff.mp hnil]
    have : t.dropWhile isSpace = [] := by
      rw [List.dropWhile_eq_nil_iff]
      intro c hc
      rw [ht c hc]
      decide
    rw [this]
  · rw [signedValue_append ht]

theorem isSpace_digit {c : UInt8} (h : isDigit c = true) : isSpace c = false := by
  unfold isDigit at h
  unfold isSpace
  simp only [decide_eq_true_eq, decide_eq_false_iff_not, UInt8.le_iff_toNat_le] at h ⊢
  rintro (rfl | hc)
  · revert h
    decide
  · have h48 : (48 : UInt8).toNat = 48 := rfl
    have h13 : (13 : UInt8).toNat = 13 := rfl
    omega

/-- Blanks and digits, up to something else. -/
theorem atoi_digits {blanks digits t : List UInt8} (hb : ∀ c ∈ blanks, c = 32 ∨ c = 9)
    (hne : digits ≠ []) (hd : ∀ c ∈ digits, isDigit c = true)
    (ht : ∀ c, t.head? = some c → isDigit c = false) :
    atoi (blanks ++ digits ++ t) = UInt32.ofNat (digitsValue digits) := by
  obtain ⟨x, xs, rfl⟩ := List.exists_cons_of_ne_nil hne
  have hx := hd x List.mem_cons_self
  have hspace := isSpace_digit hx
  have hdrop : (blanks ++ (x :: xs) ++ t).dropWhile isSpace = (x :: xs) ++ t := by
    rw [List.append_assoc, List.dropWhile_append_of_pos]
    · simp [hspace]
    · intro c hc
      rcases hb c hc with rfl | rfl <;> decide
  have htake : ((x :: xs) ++ t).takeWhile isDigit = x :: xs := by
    rw [List.takeWhile_append_of_pos hd]
    cases t with
    | nil => simp
    | cons c t => simp [ht c rfl]
  rw [atoi_eq, hdrop]
  have h45 : x ≠ 45 := by
    rintro rfl
    revert hx
    decide
  have h43 : x ≠ 43 := by
    rintro rfl
    revert hx
    decide
  unfold signedValue
  rw [List.cons_append] at htake ⊢
  split
  · rename_i heq
    exact absurd (List.cons.inj heq).1 h45
  · rename_i heq
    exact absurd (List.cons.inj heq).1 h43
  · rw [htake]

/-! ## What the searches find in a message -/

namespace RtspMessage

variable (m : RtspMessage)

theorem lines_text : ∀ l ∈ m.lines, IsText l := by
  intro l hl
  simp only [lines, List.cons_append, List.mem_cons, List.mem_append, List.mem_map, Option.mem_toList]
    at hl
  rcases hl with rfl | (⟨o, -, rfl⟩ | ⟨o, -, rfl⟩) | ⟨o, -, rfl⟩
  · exact m.startLine_text
  · exact o.isText
  · exact o.isText
  · exact o.isText

theorem lines_tail_ne_nil : ∀ l ∈ m.lines.tail, l ≠ [] := by
  intro l hl
  simp only [lines, List.cons_append, List.tail_cons, List.mem_append, List.mem_map,
    Option.mem_toList] at hl
  rcases hl with (⟨o, -, rfl⟩ | ⟨o, -, rfl⟩) | ⟨o, -, rfl⟩
  · exact o.ne_nil
  · exact o.text_ne_nil
  · exact o.ne_nil

/-- The message begins with the start line and its end. -/
theorem head_eq : ∃ t, m.head = m.startLine ++ (rtspEndLine ++ t) := by
  simp [head, lines, endLines]

theorem length_head : 4 ≤ m.head.length := by
  obtain ⟨t, ht⟩ := m.head_eq
  have hlines : m.head.length = (endLines m.lines).length + 2 := by simp [head, rtspEndLine]
  have hstart : (endLines m.lines).length = m.startLine.length + 2 +
      (endLines m.lines.tail).length := by
    simp [lines, endLines, rtspEndLine]
    omega
  omega

theorem length_bytes : m.bytes.length = m.head.length + m.body.length := List.length_append

theorem bytes_ne_nil : m.bytes ≠ [] := by
  have := m.length_head
  exact List.length_pos_iff.mp (by rw [m.length_bytes]; omega)

/-- The empty line is the first end of a header. -/
theorem find_end (t : List UInt8) : find rtspEndMsg (m.head ++ t) = some (m.head.length - 4) := by
  have hne : m.lines ≠ [] := by simp [lines]
  have hfound := find_endMsg hne m.lines_text m.lines_tail_ne_nil t
  rw [head, List.append_assoc, hfound, List.length_append]
  simp [rtspEndLine]

/-- No end of a header is found in a part of one. -/
theorem find_end_part {l : List UInt8} (hl : l <+: m.head) (hlen : l.length < m.head.length) :
    find rtspEndMsg l = none := by
  obtain ⟨t, ht⟩ := hl
  cases hf : find rtspEndMsg l with
  | none => rfl
  | some k =>
    have hk := find_le hf (by decide)
    have hwhole := find_append hf (by decide) t
    have hend := m.find_end []
    rw [List.append_nil] at hend
    rw [ht, hend] at hwhole
    have := Option.some.inj hwhole
    simp only [rtspEndMsg, List.length_cons, List.length_nil] at hk
    have := m.length_head
    omega

/-- The end of the first line. -/
theorem find_endLine_head (t : List UInt8) :
    find rtspEndLine (m.head ++ t) = some m.startLine.length := by
  obtain ⟨t', ht'⟩ := m.head_eq
  rw [ht', List.append_assoc, List.append_assoc]
  exact find_endLine m.startLine_text _

/-- The line with the content length, and what is before and behind it. -/
theorem bytes_lengthLine {l : LengthLine} (hl : m.lengthLine = some l) :
    ∃ a t, m.bytes = a ++ (l.text ++ (rtspEndLine ++ t)) ∧ a.length = m.lengthAt ∧
      ∀ m' : RtspMessage, m'.startLine = m.startLine → m'.before = m.before →
        m'.behind = m.behind → m'.body = m.body → ∀ l', m'.lengthLine = some l' →
          m'.bytes = a ++ (l'.text ++ (rtspEndLine ++ t)) := by
  refine ⟨endLines (m.startLine :: m.before.map OtherLine.text),
    endLines (m.behind.map OtherLine.text) ++ (rtspEndLine ++ m.body), ?_, rfl, ?_⟩
  · simp [bytes, head, lines, endLines, hl]
  · intro m' h1 h2 h3 h4 l' hl'
    simp [bytes, head, lines, endLines, hl', h1, h2, h3, h4]

/-- The number that is read behind the name, if the search for the line's end, which begins at the
front of the message, leaves room for it. -/
theorem lengthField_value {l : LengthLine} (hl : m.lengthLine = some l)
    (hroom : l.blanks.length + l.digits.length ≤ m.startLine.length) {v t : List UInt8}
    (hv : v = m.head ++ t) : lengthField v m.lengthAt m.startLine.length = UInt32.ofNat l.value := by
  have hhead : v = endLines (m.startLine :: m.before.map OtherLine.text) ++ (l.name ++
      (l.blanks ++ l.digits ++ (l.tail ++ (rtspEndLine ++ (endLines (m.behind.map OtherLine.text) ++
        (rtspEndLine ++ t)))))) := by
    simp [hv, head, lines, endLines, hl, LengthLine.text]
  have hdrop : v.drop (m.lengthAt + contentLength.length) =
      l.blanks ++ l.digits ++ (l.tail ++ (rtspEndLine ++ (endLines (m.behind.map OtherLine.text) ++
        (rtspEndLine ++ t)))) := by
    rw [hhead, ← List.append_assoc, List.drop_left']
    rw [List.length_append, l.name_length]
    rfl
  rw [lengthField, hdrop, atoi_trimString, List.take_append,
    List.take_of_length_le (by simpa using hroom)]
  apply atoi_digits l.blanks_blank l.digits_ne_nil l.digits_digit
  intro c hc
  -- behind the digits there is a blank, or the end of the line
  have hmem : (l.tail ++ (rtspEndLine ++ (endLines (m.behind.map OtherLine.text) ++
      (rtspEndLine ++ t)))).head? = some c := by
    rw [List.head?_take] at hc
    split at hc
    · cases hc
    · exact hc
  cases htail : l.tail with
  | nil =>
    rw [htail] at hmem
    obtain rfl : (13 : UInt8) = c := Option.some.inj hmem
    decide
  | cons x xs =>
    rw [htail] at hmem
    obtain rfl : x = c := Option.some.inj hmem
    rcases l.tail_blank x (htail ▸ List.mem_cons_self) with rfl | rfl <;> decide

end RtspMessage

/-! ## The letter that is written -/

/-- `Content-length:` with an `L`; another spelling stays. -/
def LengthLine.capital (l : LengthLine) : LengthLine :=
  { l with
    name := if l.name = contentLengthLower then contentLength else l.name
    name_lower := by
      split
      · rfl
      · exact l.name_lower }

/-- The message with that line. -/
def RtspMessage.capital (m : RtspMessage) : RtspMessage :=
  { m with
    lengthLine := m.lengthLine.map LengthLine.capital
    body_length := by
      rw [Option.map_map]
      exact m.body_length }

namespace LengthLine

variable (l : LengthLine)

theorem capital_eq_self (h : l.name ≠ contentLengthLower) : l.capital = l := by
  simp [capital, h]

theorem capital_capital : l.capital.capital = l.capital := by
  apply capital_eq_self
  simp only [capital]
  split
  · decide
  · assumption

end LengthLine

namespace RtspMessage

variable (m : RtspMessage)

theorem capital_eq_self (h : ∀ l, m.lengthLine = some l → l.name ≠ contentLengthLower) :
    m.capital = m := by
  obtain ⟨a, b, l, c, d, h1, h2, h3⟩ := m
  cases l with
  | none => rfl
  | some l => simp only [capital, Option.map_some, l.capital_eq_self (h l rfl)]

theorem capital_capital : m.capital.capital = m.capital := by
  obtain ⟨a, b, l, c, d, h1, h2, h3⟩ := m
  cases l with
  | none => rfl
  | some l => simp only [capital, Option.map_some, l.capital_capital]

/-- Writing the letter makes the message that one. -/
theorem bytes_capital {l : LengthLine} (hl : m.lengthLine = some l)
    (hname : l.name = contentLengthLower) :
    ∃ a b x, m.bytes = a ++ x :: b ∧ a.length = m.lengthAt + 8 ∧ m.capital.bytes = a ++ 76 :: b := by
  obtain ⟨a, t, hbytes, ha, hother⟩ := m.bytes_lengthLine hl
  have hcapital := hother m.capital rfl rfl rfl rfl l.capital (by simp [capital, hl])
  refine ⟨a ++ contentLengthLower.take 8, contentLengthLower.drop 9 ++ l.blanks ++ l.digits ++ l.tail ++
    (rtspEndLine ++ t), 108, ?_, ?_, ?_⟩
  · rw [hbytes]
    simp [LengthLine.text, hname, contentLengthLower, ascii]
  · simp [ha, contentLengthLower, ascii]
  · rw [hcapital]
    simp [LengthLine.text, LengthLine.capital, hname, contentLength, contentLengthLower, ascii]

theorem length_head_capital : m.capital.head.length = m.head.length := by
  have hlen : ∀ l : LengthLine, l.capital.text.length = l.text.length := by
    intro l
    simp [LengthLine.text, l.capital.name_length, l.name_length]
    simp [LengthLine.capital]
  cases hl : m.lengthLine with
  | none => simp [head, lines, capital, hl]
  | some l => simp [head, lines, capital, hl, endLines, hlen]

theorem length_bytes_capital : m.capital.bytes.length = m.bytes.length := by
  rw [length_bytes, length_bytes, length_head_capital]
  rfl

end RtspMessage

end AllCamera
