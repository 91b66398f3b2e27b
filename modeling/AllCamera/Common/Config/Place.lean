import AllCamera.Common.Config.Text

/-!
# The place of a value in a text

`set` puts a value where its scanner has stopped. Here is where that is, and what a change of the lines there means
for `get`.

* `bodyIn_append`, `valueIn_append`, `exists_section`, `exists_value`: where a section and a key are.
* `exists_split`, `ConfText.Ok.exists_change`: a text with other lines in a section.
* `setKeys_key`, `setKeys_lines`, `setScan_text`: where the scanner of `set` stops.
* `frontOf`, `exists_front`: the place of a new line.
* `setValue_append`, `backOver_append`: how far `set` goes back.
-/

namespace AllCamera.CacConfig

/-! ## Sections and keys -/

def isHeader : ConfLine → Bool
  | .header _ _ _ => true
  | _ => false

/-- Lines without the name of a section. -/
def NoHeader (lines : ConfLines) : Prop := ∀ l ∈ lines, isHeader l.2 = false

theorem bodyIn_append (sectionName : List Char) (before behind : ConfLines) :
    bodyIn sectionName (before ++ behind) =
      ((bodyIn sectionName before).map (· ++ behind)).or (bodyIn sectionName behind) := by
  induction before with
  | nil => rfl
  | cons l before ih =>
    obtain ⟨e, l⟩ := l
    cases l with
    | header indent name gap =>
      rw [List.cons_append, bodyIn, bodyIn]
      split
      · rfl
      · exact ih
    | empty indent => exact ih
    | comment indent text => exact ih
    | key indent name gap raw => exact ih

theorem bodyIn_of_noHeader (sectionName : List Char) {lines : ConfLines} (h : NoHeader lines) :
    bodyIn sectionName lines = none := by
  induction lines with
  | nil => rfl
  | cons l lines ih =>
    obtain ⟨e, l⟩ := l
    obtain ⟨hl, hlines⟩ := List.forall_mem_cons.mp h
    cases l with
    | header indent name behind => cases hl
    | empty indent => exact ih hlines
    | comment indent text => exact ih hlines
    | key indent name gap raw => exact ih hlines

theorem valueIn_append (keyName : List Char) {before : ConfLines} (h : NoHeader before) (behind : ConfLines) :
    valueIn keyName (before ++ behind) = (valueIn keyName before).or (valueIn keyName behind) := by
  induction before with
  | nil => rfl
  | cons l before ih =>
    obtain ⟨e, l⟩ := l
    obtain ⟨hl, hbefore⟩ := List.forall_mem_cons.mp h
    cases l with
    | header indent name behind => cases hl
    | empty indent => exact ih hbefore
    | comment indent text => exact ih hbefore
    | key indent name gap raw =>
      rw [List.cons_append, valueIn, valueIn]
      split
      · rfl
      · exact ih hbefore

/-- The keys behind the name of a section are not those of the section before. -/
theorem valueIn_header (keyName : List Char) (before : ConfLines) (e : Eol) (indent name gap : List Char)
    (behind : ConfLines) :
    valueIn keyName (before ++ (e, .header indent name gap) :: behind) = valueIn keyName before := by
  induction before with
  | nil => rfl
  | cons l before ih =>
    obtain ⟨e', l⟩ := l
    cases l with
    | header indent name gap => rfl
    | empty indent => exact ih
    | comment indent text => exact ih
    | key indent name gap raw =>
      rw [List.cons_append, valueIn, valueIn, ih]

theorem exists_section {sectionName : List Char} {lines body : ConfLines}
    (h : bodyIn sectionName lines = some body) :
    ∃ before e indent behind, lines = before ++ (e, .header indent sectionName behind) :: body ∧
      bodyIn sectionName before = none := by
  induction lines with
  | nil => cases h
  | cons l lines ih =>
    obtain ⟨e, l⟩ := l
    have hpass (h : bodyIn sectionName lines = some body)
        (hl : ∀ before, bodyIn sectionName ((e, l) :: before) = bodyIn sectionName before) :
        ∃ before e' indent behind, (e, l) :: lines = before ++ (e', .header indent sectionName behind) :: body ∧
          bodyIn sectionName before = none := by
      obtain ⟨before, e', indent, behind, rfl, hnone⟩ := ih h
      exact ⟨(e, l) :: before, e', indent, behind, rfl, (hl before).trans hnone⟩
    cases l with
    | header indent name behind =>
      by_cases hname : name = sectionName
      · rw [bodyIn, if_pos hname] at h
        subst hname
        exact ⟨[], e, indent, behind, by rw [Option.some.inj h]; rfl, rfl⟩
      · rw [bodyIn, if_neg hname] at h
        exact hpass h fun before => by rw [bodyIn, if_neg hname]
    | empty indent => exact hpass h fun _ => rfl
    | comment indent text => exact hpass h fun _ => rfl
    | key indent name gap raw => exact hpass h fun _ => rfl

theorem exists_value {keyName raw : List Char} {lines : ConfLines} (h : valueIn keyName lines = some raw) :
    ∃ before e indent gap behind, lines = before ++ (e, .key indent keyName gap raw) :: behind ∧
      NoHeader before ∧ valueIn keyName before = none := by
  induction lines with
  | nil => cases h
  | cons l lines ih =>
    obtain ⟨e, l⟩ := l
    have hpass (h : valueIn keyName lines = some raw) (hheader : isHeader l = false)
        (hl : ∀ before, valueIn keyName ((e, l) :: before) = valueIn keyName before) :
        ∃ before e' indent gap behind, (e, l) :: lines = before ++ (e', .key indent keyName gap raw) :: behind ∧
          NoHeader before ∧ valueIn keyName before = none := by
      obtain ⟨before, e', indent, gap, behind, rfl, hbefore, hnone⟩ := ih h
      exact ⟨(e, l) :: before, e', indent, gap, behind, rfl, List.forall_mem_cons.mpr ⟨hheader, hbefore⟩,
        (hl before).trans hnone⟩
    cases l with
    | header indent name behind => cases h
    | empty indent => exact hpass h rfl fun _ => rfl
    | comment indent text => exact hpass h rfl fun _ => rfl
    | key indent name gap raw' =>
      by_cases hname : name = keyName
      · rw [valueIn, if_pos hname] at h
        subst hname
        exact ⟨[], e, indent, gap, lines, by rw [Option.some.inj h]; rfl, List.forall_mem_nil _, rfl⟩
      · rw [valueIn, if_neg hname] at h
        exact hpass h rfl fun before => by rw [valueIn, if_neg hname]

/-- A change of the lines of a section makes no difference to the keys of another one. -/
theorem valueIn_changed {sectionName other : List Char} (hother : other ≠ sectionName) (keyName : List Char)
    (before : ConfLines) (e : Eol) (indent behind : List Char) {body body' : ConfLines}
    (hbody : bodyIn other body' = bodyIn other body) :
    (bodyIn other (before ++ (e, .header indent sectionName behind) :: body')).bind (valueIn keyName) =
      (bodyIn other (before ++ (e, .header indent sectionName behind) :: body)).bind (valueIn keyName) := by
  rw [bodyIn_append, bodyIn_append]
  cases bodyIn other before with
  | none =>
    have hname : ¬sectionName = other := Ne.symm hother
    rw [bodyIn, bodyIn, if_neg hname, if_neg hname, hbody]
    rfl
  | some own =>
    simp only [Option.map_some, Option.some_or, Option.bind_some]
    rw [valueIn_header, valueIn_header]

/-! ## A text with other lines in a section -/

theorem ConfLine.Ok.lineChar {l : ConfLine} (h : l.Ok) : ∀ c ∈ l.chars, ConfLine.lineChar c = true := by
  cases l with
  | header indent name behind =>
    have hchars (blanks : List Char) (hblanks : ConfLine.Blanks blanks) : ∀ c ∈ blanks, ConfLine.lineChar c = true :=
      fun c hc => (isBlank_ne (hblanks c hc)).1
    refine List.forall_mem_append.mpr ⟨hchars indent h.okIndent, List.forall_mem_cons.mpr ⟨by decide, ?_⟩⟩
    refine List.forall_mem_append.mpr ⟨fun c hc => (sectionChar_ne (h.okName c hc)).1, ?_⟩
    exact List.forall_mem_cons.mpr ⟨by decide, hchars behind h.okBehind⟩
  | empty indent => exact (h.passed (by simp)).1
  | comment indent text => exact (h.passed (by simp)).1
  | key indent name gap raw => exact (h.passed (by simp)).1

theorem ConfLines.Ok.ne_nul {lines : ConfLines} (h : lines.Ok) : ∀ c ∈ lines.chars, c ≠ '\x00' := by
  intro c hc
  obtain ⟨⟨e, l⟩, hl, hc⟩ := List.mem_flatMap.mp hc
  rcases List.mem_append.mp hc with hc | hc
  · rintro rfl
    cases e <;> simp [Eol.chars] at hc
  · exact (lineChar_ne ((h _ hl).lineChar c hc)).2

theorem ConfText.Ok.ne_nul {t : ConfText} (h : t.Ok) : ∀ c ∈ t.chars, c ≠ '\x00' := by
  intro c hc
  apply h.lines.ne_nul
  rw [ConfLines.chars_cons]
  exact List.mem_append_right _ hc

/-- A cut in front of a line end, and behind a character that is none, is between two lines. -/
theorem exists_split {lines : ConfLines} (h : lines.Ok) {front behind : List Char}
    (hchars : lines.chars = front ++ behind) (hfront : ∀ c ∈ front.getLast?, isEol c = false) (hbehind : AtEol behind) :
    ∃ before after, lines = before ++ after ∧ before.chars = front ∧ after.chars = behind := by
  induction lines generalizing front with
  | nil =>
    obtain ⟨rfl, rfl⟩ := List.append_eq_nil_iff.mp hchars.symm
    exact ⟨[], [], rfl, rfl, rfl⟩
  | cons l lines ih =>
    obtain ⟨e, l⟩ := l
    obtain ⟨hl, hlines⟩ := List.forall_mem_cons.mp h
    have heol : ∀ c ∈ e.chars, isEol c = true := by cases e <;> simp [Eol.chars, isEol]
    by_cases hnil : front = []
    · subst hnil
      exact ⟨[], (e, l) :: lines, rfl, rfl, hchars⟩
    -- the line end and the line are in front of the cut
    obtain ⟨front', rfl, hfront'⟩ :
        ∃ front', front = e.chars ++ front' ∧ l.chars ++ ConfLines.chars lines = front' ++ behind := by
      rw [ConfLines.chars_cons] at hchars
      rcases List.append_eq_append_iff.mp hchars with ⟨front', hfront', happ⟩ | ⟨rest, hrest, -⟩
      · exact ⟨front', hfront', happ⟩
      · have hlast := List.getLast_mem hnil
        have := hfront _ (List.getLast?_eq_some_getLast hnil)
        rw [heol _ (hrest ▸ List.mem_append_left rest hlast)] at this
        cases this
    have hne : front' ≠ [] := by
      rintro rfl
      rw [List.append_nil] at hnil hfront
      have := hfront _ (List.getLast?_eq_some_getLast hnil)
      rw [heol _ (List.getLast_mem hnil)] at this
      cases this
    rw [List.getLast?_append_of_ne_nil _ hne] at hfront
    obtain ⟨front, rfl, hrest⟩ : ∃ front, front' = l.chars ++ front ∧ ConfLines.chars lines = front ++ behind := by
      rcases List.append_eq_append_iff.mp hfront' with ⟨front, hfront', happ⟩ | ⟨rest, hrest, happ⟩
      · exact ⟨front, hfront', happ⟩
      · cases rest with
        | nil => exact ⟨[], by rw [hrest, List.append_nil, List.append_nil], happ.symm⟩
        | cons c rest =>
          have hc := (lineChar_ne (hl.lineChar c (hrest ▸ List.mem_append_right front' List.mem_cons_self))).1
          have := hbehind c (by rw [happ]; rfl)
          rw [hc] at this
          cases this
    have hfront : ∀ c ∈ front.getLast?, isEol c = false := by
      intro c hc
      have hne : front ≠ [] := by
        rintro rfl
        cases hc
      exact hfront c (by rw [List.getLast?_append_of_ne_nil _ hne]; exact hc)
    obtain ⟨before, after, rfl, rfl, rfl⟩ := ih hlines hrest hfront
    exact ⟨(e, l) :: before, after, rfl, ConfLines.chars_cons e l before, rfl⟩

/-- Other lines behind the name of a section make another text, with the same values for the other sections. -/
theorem ConfText.Ok.exists_change {t : ConfText} (h : t.Ok) {sectionName : List Char} {body : ConfLines}
    (hbody : t.body sectionName = some body) :
    ∃ front d, t.chars = front ++ d :: body.chars ∧ front ≠ [] ∧ isEol d = false ∧
      ∀ body', ConfLines.Ok body' → ∃ t' : ConfText, t'.Ok ∧ t'.chars = front ++ d :: body'.chars ∧
        t'.body sectionName = some body' ∧
        ∀ other, other ≠ sectionName → bodyIn other body' = bodyIn other body →
          ∀ keyName, t'.value other keyName = t.value other keyName := by
  obtain ⟨before, e, indent, behind, hlines, hnone⟩ := exists_section hbody
  obtain ⟨first, rest⟩ := t
  have hbodyIn (body' : ConfLines) :
      bodyIn sectionName (before ++ (e, .header indent sectionName behind) :: body') = some body' := by
    rw [bodyIn_append, hnone, bodyIn, if_pos rfl]
    rfl
  -- the name of the section has two characters at least
  have hchars : (ConfLine.header indent sectionName behind).chars ≠ [] := by simp [ConfLine.chars]
  obtain ⟨header, d, hheader⟩ : ∃ header d, (ConfLine.header indent sectionName behind).chars = header ++ [d] :=
    ⟨_, _, (List.dropLast_append_getLast hchars).symm⟩
  have hne : header ≠ [] := by
    rintro rfl
    have := congrArg List.length hheader
    simp [ConfLine.chars] at this
    omega
  have hok : (ConfLine.header indent sectionName behind).Ok :=
    h.lines (e, .header indent sectionName behind) (hlines ▸ List.mem_append_right before List.mem_cons_self)
  have hd : isEol d = false :=
    (lineChar_ne (hok.lineChar d (hheader ▸ List.mem_append_right header (List.mem_singleton_self d)))).1
  cases before with
  | nil =>
    obtain ⟨hfirst, rfl⟩ := List.cons.inj hlines
    obtain ⟨rfl, rfl⟩ := Prod.mk.inj hfirst
    refine ⟨header, d, ?_, hne, hd, fun body' hbody' => ⟨⟨.header indent sectionName behind, body'⟩, ?_, ?_, ?_, ?_⟩⟩
    · rw [ConfText.chars, hheader, List.append_assoc]
      rfl
    · exact ⟨h.first, fun text htext => (by cases htext), hbody'⟩
    · rw [ConfText.chars, hheader, List.append_assoc]
      rfl
    · exact hbodyIn body'
    · exact fun other hother heq keyName => valueIn_changed hother keyName [] _ indent behind heq
  | cons l before =>
    obtain ⟨hfirst, rfl⟩ := List.cons.inj hlines
    subst hfirst
    have hrest (body' : ConfLines) (hbody' : ConfLines.Ok body') :
        ConfLines.Ok (before ++ (e, .header indent sectionName behind) :: body') := by
      intro l hl
      rcases List.mem_append.mp hl with hl | hl
      · exact h.rest l (List.mem_append_left _ hl)
      · rcases List.mem_cons.mp hl with rfl | hl
        · exact hok
        · exact hbody' l hl
    have hchars (body' : ConfLines) :
        (⟨first, before ++ (e, .header indent sectionName behind) :: body'⟩ : ConfText).chars =
          (first.chars ++ (ConfLines.chars before ++ (e.chars ++ header))) ++ d :: body'.chars := by
      rw [ConfText.chars, ConfLines.chars, List.flatMap_append, List.flatMap_cons, hheader]
      simp [ConfLines.chars]
    refine ⟨_, d, hchars body, by simp [hne], hd, fun body' hbody' => ⟨⟨first, _⟩, ?_, hchars body', ?_, ?_⟩⟩
    · exact ⟨h.first, h.closed, hrest body' hbody'⟩
    · exact hbodyIn body'
    · exact fun other hother heq keyName => valueIn_changed hother keyName ((.lf, first) :: before) e indent behind heq

/-! ## The scanner of `set` -/

theorem trimEnd_append_of {s blanks : List Char} (hlast : ∀ c ∈ s.getLast?, isBlank c = false ∧ isEol c = false)
    (hblanks : ∀ c ∈ blanks, isBlank c = true ∨ isEol c = true) : trimEnd (s ++ blanks) = s := by
  have hpos : ∀ c ∈ blanks.reverse, (isBlank c || isEol c) = true := by
    intro c hc
    simpa using hblanks c (List.mem_reverse.mp hc)
  rw [trimEnd, List.reverse_append, List.dropWhile_append_of_pos hpos]
  cases hs : s.reverse with
  | nil => rw [List.reverse_eq_nil_iff.mp hs]; rfl
  | cons c rest =>
    have hc : isBlank c = false ∧ isEol c = false := hlast c (by rw [← List.head?_reverse, hs]; rfl)
    rw [List.dropWhile_cons_of_neg (by simp [hc]), ← hs, List.reverse_reverse]

/-- A name with blanks behind it. -/
theorem trim_name {name gap : List Char} (hname : ∀ c ∈ name, ConfLine.nameChar c = true) (hne : name ≠ [])
    (hgap : ConfLine.Blanks gap) : trim (name ++ gap) = name := by
  have hlast : ∀ c ∈ name.getLast?, isBlank c = false ∧ isEol c = false := fun c hc => by
    have := nameChar_ne (hname c (List.mem_of_getLast? hc))
    exact ⟨this.2.1, this.1⟩
  have htrim : trimEnd (name ++ gap) = name := trimEnd_append_of hlast fun c hc => .inl (hgap c hc)
  cases name with
  | nil => exact absurd rfl hne
  | cons c name =>
    have hc : isBlank c = false := (nameChar_ne (hname c List.mem_cons_self)).2.1
    rw [List.cons_append] at htrim ⊢
    rw [trim, List.takeWhile_cons_of_neg (by simp [hc]), List.dropWhile_cons_of_neg (by simp [hc]), htrim,
      List.nil_append]

section SetKeys

variable {bufferSize index1 : Nat} {keyName text : List Char}

theorem setKeys_passes : PassesBlanks (setKeys bufferSize keyName index1) where
  skip c text hc := by
    have hne : ¬(c = '[' ∨ c = '=') := by
      rintro (rfl | rfl) <;> revert hc <;> decide
    rw [setKeys, if_neg hne, if_pos hc]
  note text := by
    rw [setKeys, if_neg (by decide), if_neg (by decide), if_pos rfl]

theorem setKeyText_append {name gap : List Char} (hname : ∀ c ∈ name, ConfLine.nameChar c = true)
    (hgap : ConfLine.Blanks gap) (text : List Char) :
    setKeyText (name ++ (gap ++ '=' :: text)) = name ++ gap ∧
      ((name ++ (gap ++ '=' :: text)).dropWhile fun c => !(isEol c || c = '=')) = '=' :: text := by
  have hends : ∀ c ∈ name ++ gap, (!(isEol c || c = '=')) = true := by
    intro c hc
    rcases List.mem_append.mp hc with hc | hc
    · obtain ⟨heol, -, heq, -⟩ := nameChar_ne (hname c hc)
      simp [heol, heq]
    · have hblank := hgap c hc
      have heq : c ≠ '=' := by rintro rfl; revert hblank; decide
      simp [(isBlank_ne hblank).2.2.2, heq]
  have hend : ∀ c ∈ ('=' :: text).head?, (!(isEol c || c = '=')) = false := by simp
  rw [setKeyText, ← List.append_assoc]
  exact ⟨takeWhile_append_of_atEol hends hend, dropWhile_append_of_atEol hends hend⟩

/-- A line with a key: the place of its value, or it is passed. -/
theorem setKeys_key {indent name gap raw : List Char} (hkey : (ConfLine.key indent name gap raw).Ok)
    (htext : AtEol text) :
    setKeys bufferSize keyName index1 ((ConfLine.key indent name gap raw).chars ++ text) =
      if name = keyName then
        .ok ⟨bufferSize - (raw ++ text).length, setValue bufferSize (raw ++ text), true, true⟩
      else setKeys bufferSize keyName (bufferSize - (raw ++ text).length) text := by
  have hfits := hkey.fits
  have hname := hkey.okName
  have htrim := trim_name hname hkey.ne_nil hkey.okGap
  have hcstr : cstr (name ++ gap) = name ++ gap := cstr_eq_self fun c hc => by
    rcases List.mem_append.mp hc with hc | hc
    · exact (nameChar_ne (hname c hc)).2.2.2.2.2.2
    · exact (lineChar_ne (isBlank_ne (hkey.okGap c hc)).1).2
  have hlen : ¬nameSize ≤ (name ++ gap).length := by
    rw [List.length_append]
    omega
  obtain ⟨htake, hdrop⟩ := setKeyText_append hname hkey.okGap (raw ++ text)
  have happ : (ConfLine.key indent name gap raw).chars ++ text = indent ++ (name ++ (gap ++ '=' :: (raw ++ text))) := by
    simp [ConfLine.chars]
  rw [happ, setKeys_passes.blanks hkey.okIndent]
  cases name with
  | nil => exact absurd rfl hkey.ne_nil
  | cons c name =>
    obtain ⟨heol, hblank, heq, hopen, -, hnote, -⟩ := nameChar_ne (hname c List.mem_cons_self)
    rw [List.cons_append] at htake hdrop ⊢
    rw [setKeys, if_neg (by simp [heq, hopen]), if_neg (by simp [heol, hblank]), if_neg hnote]
    simp only [htake]
    split
    · rename_i hnil
      rw [hdrop] at hnil
      cases hnil
    · rename_i d behind hbehind
      rw [hdrop] at hbehind
      obtain ⟨rfl, rfl⟩ := List.cons.inj hbehind
      rw [if_neg (by decide), if_neg hlen, hcstr, htrim]
      split
      · rfl
      · exact setKeys_passes.skipLine hkey.okRaw htext

/-- The lines in front of a key are passed. -/
theorem setKeys_lines {lines : ConfLines} (h : lines.Ok) (hlines : NoHeader lines)
    (hnone : valueIn keyName lines = none)
    (htext : AtEol text) : ∃ index1', setKeys bufferSize keyName index1 (lines.chars ++ text) =
      setKeys bufferSize keyName index1' text := by
  induction lines generalizing index1 with
  | nil => exact ⟨index1, rfl⟩
  | cons l lines ih =>
    obtain ⟨e, l⟩ := l
    obtain ⟨hl, hok⟩ := List.forall_mem_cons.mp h
    obtain ⟨hne, hrest⟩ := List.forall_mem_cons.mp hlines
    have hend := ConfLines.atEol lines htext
    rw [ConfLines.chars_cons, List.append_assoc, List.append_assoc, setKeys_passes.eol]
    cases l with
    | header indent name behind => cases hne
    | empty indent =>
      rw [ConfLine.chars, setKeys_passes.blanks hl]
      exact ih hok hrest hnone
    | comment indent text =>
      rw [setKeys_passes.comment hl hend]
      exact ih hok hrest hnone
    | key indent name gap raw =>
      rw [valueIn] at hnone
      split at hnone
      · cases hnone
      · rename_i hname
        rw [setKeys_key hl hend, if_neg hname]
        exact ih hok hrest hnone

theorem setKeys_header {indent name behind : List Char} (hindent : ConfLine.Blanks indent) :
    setKeys bufferSize keyName index1 ((ConfLine.header indent name behind).chars ++ text) =
      .ok ⟨bufferSize - (name ++ ']' :: behind ++ text).length,
        bufferSize - (name ++ ']' :: behind ++ text).length - 1, true, false⟩ := by
  rw [ConfLine.chars, List.append_assoc, setKeys_passes.blanks hindent]
  exact setKeys.eq_2 .. |>.trans (if_pos (.inl rfl))

end SetKeys

section SetScan

variable {bufferSize : Nat} {sectionName keyName text : List Char}

theorem setScan_passes : PassesLines (setScan bufferSize sectionName keyName) where
  skip c text hc hnote := by
    rw [setScan, if_neg hc, if_neg hnote]
  note text := by
    rw [setScan, if_neg (by decide), if_pos rfl]

/-- Where the scanner of `set` stops, by the lines behind the name of the section. -/
def place (bufferSize : Nat) (keyName : List Char) : Option ConfLines → Scan SetParam
  | none => .ok ⟨0, 0, false, false⟩
  | some body => setKeys bufferSize keyName 0 body.chars

theorem setScan_lines {lines : ConfLines} (h : lines.Ok) :
    setScan bufferSize sectionName keyName lines.chars = place bufferSize keyName (bodyIn sectionName lines) := by
  induction lines with
  | nil =>
    rw [ConfLines.chars_nil, setScan]
    rfl
  | cons l lines ih =>
    obtain ⟨e, l⟩ := l
    obtain ⟨hl, hlines⟩ := List.forall_mem_cons.mp h
    have hpass (hline : Passed l.chars) : setScan bufferSize sectionName keyName (ConfLines.chars ((e, l) :: lines)) =
        setScan bufferSize sectionName keyName (ConfLines.chars lines) := by
      rw [ConfLines.chars_cons, setScan_passes.passesBlanks.eol, setScan_passes.line hline (atEol_lines lines)]
    cases l with
    | empty indent => exact (hpass (hl.passed (by simp))).trans (ih hlines)
    | comment indent text => exact (hpass (hl.passed (by simp))).trans (ih hlines)
    | key indent name gap raw => exact (hpass (hl.passed (by simp))).trans (ih hlines)
    | header indent name behind =>
      have hfits := hl.fits
      obtain ⟨hheader, hbehind⟩ := headerName_append hl.okName (behind ++ ConfLines.chars lines)
      have happ : (ConfLine.header indent name behind).chars ++ ConfLines.chars lines =
          indent ++ '[' :: (name ++ ']' :: (behind ++ ConfLines.chars lines)) := by simp [ConfLine.chars]
      rw [ConfLines.chars_cons, setScan_passes.passesBlanks.eol, happ, setScan_passes.passesBlanks.blanks hl.okIndent,
        setScan, if_pos rfl, if_neg (by simp), hheader, hbehind, if_neg (by omega), cstr_sectionName hl.okName, bodyIn]
      split
      · exact setKeys_passes.blanks hl.okBehind _
      · rw [setScan_passes.passesBlanks.blanks hl.okBehind]
        exact ih hlines

theorem setScan_text {t : ConfText} (h : t.Ok) :
    setScan bufferSize sectionName keyName t.chars = place bufferSize keyName (t.body sectionName) := by
  have hlines := @setScan_lines bufferSize sectionName keyName _ h.lines
  rw [ConfLines.chars_cons, setScan_passes.passesBlanks.eol] at hlines
  exact hlines

end SetScan

/-! ## The place of a new line -/

/-- The characters behind the name of a section, up to the `[` of the next one, or up to the last character. -/
def frontOf (body : ConfLines) : List Char :=
  let own : ConfLines := body.takeWhile (!isHeader ·.2)
  match body.dropWhile (!isHeader ·.2) with
  | (e, .header indent _ _) :: _ => own.chars ++ (e.chars ++ indent)
  | _ => own.chars.dropLast

theorem frontOf_noHeader {body : ConfLines} (h : NoHeader body) : frontOf body = body.chars.dropLast := by
  have hall : ∀ l ∈ body, (!isHeader l.2) = true := fun l hl => by simpa using h l hl
  rw [frontOf, List.takeWhile_eq_self_iff.mpr hall, List.dropWhile_eq_nil_iff.mpr hall]

theorem frontOf_header {own : ConfLines} (h : NoHeader own) (e : Eol) (indent name gap : List Char) (next : ConfLines) :
    frontOf (own ++ (e, .header indent name gap) :: next) = own.chars ++ (e.chars ++ indent) := by
  have hall : ∀ l ∈ own, (!isHeader l.2) = true := fun l hl => by simpa using h l hl
  rw [frontOf, List.takeWhile_append_of_pos hall, List.dropWhile_append_of_pos hall,
    List.takeWhile_cons_of_neg (by simp [isHeader]), List.dropWhile_cons_of_neg (by simp [isHeader]), List.append_nil]

theorem exists_next (body : ConfLines) : NoHeader body ∨
    ∃ own e indent name gap next, body = own ++ (e, .header indent name gap) :: next ∧ NoHeader own := by
  induction body with
  | nil => exact .inl (List.forall_mem_nil _)
  | cons l body ih =>
    obtain ⟨e, l⟩ := l
    have hpass (hl : isHeader l = false) : NoHeader ((e, l) :: body) ∨
        ∃ own e' indent name gap next,
          (e, l) :: body = own ++ (e', .header indent name gap) :: next ∧ NoHeader own := by
      rcases ih with hbody | ⟨own, e', indent, name, gap, next, rfl, hown⟩
      · exact .inl (List.forall_mem_cons.mpr ⟨hl, hbody⟩)
      · exact .inr ⟨(e, l) :: own, e', indent, name, gap, next, rfl, List.forall_mem_cons.mpr ⟨hl, hown⟩⟩
    cases l with
    | header indent name gap => exact .inr ⟨[], e, indent, name, gap, body, rfl, List.forall_mem_nil _⟩
    | empty indent => exact hpass rfl
    | comment indent text => exact hpass rfl
    | key indent name gap raw => exact hpass rfl

theorem chars_append (before behind : ConfLines) :
    ConfLines.chars (before ++ behind) = before.chars ++ ConfLines.chars behind := by
  rw [ConfLines.chars, List.flatMap_append]
  rfl

/-- Where the scanner of `set` stops in a section without the key. -/
theorem exists_front {keyName : List Char} {body : ConfLines} (h : body.Ok) (hnone : valueIn keyName body = none)
    (hfront : frontOf body ≠ []) (bufferSize index1 : Nat) : ∃ rest p, body.chars = frontOf body ++ rest ∧
      setKeys bufferSize keyName index1 body.chars = .ok p ∧ p.sectionMatched = true ∧ p.keyMatched = false ∧
      p.index2 = bufferSize - rest.length ∧
      ∀ before after, body = before ++ after → (ConfLines.chars before).length ≤ (frontOf body).length →
        NoHeader before := by
  rcases exists_next body with hbody | ⟨own, e, indent, name, gap, next, rfl, hown⟩
  · rw [frontOf_noHeader hbody] at hfront ⊢
    obtain ⟨index1', hscan⟩ := @setKeys_lines bufferSize index1 keyName [] body h hbody hnone atEol_nil
    rw [List.append_nil, setKeys] at hscan
    have hne : body.chars ≠ [] := by
      intro hnil
      exact hfront (by rw [hnil]; rfl)
    refine ⟨[body.chars.getLast hne], _, (List.dropLast_append_getLast hne).symm, hscan, rfl, rfl, rfl, ?_⟩
    rintro before after rfl -
    exact fun l hl => hbody l (List.mem_append_left _ hl)
  · rw [frontOf_header hown]
    obtain ⟨hownOk, hnextOk⟩ := List.forall_mem_append.mp h
    have hheader : (ConfLine.header indent name gap).Ok := hnextOk _ List.mem_cons_self
    rw [valueIn_header] at hnone
    have hchars : ConfLines.chars (own ++ (e, .header indent name gap) :: next) =
        own.chars ++ (e.chars ++ indent) ++ '[' :: (name ++ ']' :: gap ++ ConfLines.chars next) := by
      rw [chars_append, ConfLines.chars_cons]
      simp [ConfLine.chars]
    obtain ⟨index1', hscan⟩ := @setKeys_lines bufferSize index1 keyName _ own hownOk hown hnone
      (e.atEol ((ConfLine.header indent name gap).chars ++ ConfLines.chars next))
    rw [setKeys_passes.eol, setKeys_header hheader.okIndent, ← ConfLines.chars_cons, ← chars_append] at hscan
    refine ⟨_, _, hchars, hscan, rfl, rfl, ?_, ?_⟩
    · exact Nat.sub_sub bufferSize _ 1
    · intro before after hsplit hle
      rcases List.append_eq_append_iff.mp hsplit with ⟨rest, rfl, hrest⟩ | ⟨rest, rfl, -⟩
      · cases rest with
        | nil =>
          rw [List.append_nil]
          exact hown
        | cons l rest =>
          -- with the name of the section, the lines are longer
          obtain ⟨rfl, -⟩ := List.cons.inj hrest
          exfalso
          have hlt : (own.chars ++ (e.chars ++ indent)).length <
              (ConfLines.chars (own ++ (e, .header indent name gap) :: rest)).length := by
            rw [chars_append, ConfLines.chars_cons, ConfLine.chars]
            simp only [List.length_append, List.length_cons]
            omega
          omega
      · exact fun l hl => hown l (List.mem_append_left _ hl)

/-! ## What `set` leaves around a text -/

/-- A hole in front of a text is passed. -/
theorem getOut_hole {t : ConfText} (h : t.Ok) (sectionName keyName : List Char) (unLen : UInt32) (n : Nat) :
    getOut sectionName keyName unLen (List.replicate n '\x00' ++ t.chars) =
      getOut sectionName keyName unLen t.chars := by
  have hnote := @passesNote_lines sectionName keyName unLen t.rest [] endOfText_nil
  rw [List.append_nil] at hnote
  have hok := h.first
  have hone : getOut sectionName keyName unLen ('\x00' :: t.chars) = getOut sectionName keyName unLen t.chars := by
    have hpass (hl : Passed t.first.chars) :
        getOut sectionName keyName unLen ('\x00' :: (t.first.chars ++ t.rest.chars)) =
        getOut sectionName keyName unLen (t.first.chars ++ t.rest.chars) :=
      (getOut_line (by decide) hl hnote).trans (getOut_first hl (fun _ hline => h.closed_first hline) hnote).symm
    rw [ConfText.chars]
    cases hfirst : t.first with
    | header indent name behind =>
      rw [hfirst] at hok
      exact getOut_cons (by decide) (head?_header_ne_note hok)
    | empty indent =>
      rw [hfirst] at hok hpass
      exact hpass (hok.passed (by simp))
    | comment indent text =>
      rw [hfirst] at hok hpass
      exact hpass (hok.passed (by simp))
    | key indent name gap raw =>
      rw [hfirst] at hok hpass
      exact hpass (hok.passed (by simp))
  induction n with
  | zero => rfl
  | succ n ih =>
    rw [List.replicate_succ, List.cons_append]
    cases n with
    | zero => exact hone
    | succ n =>
      refine (getOut_cons (by decide) ?_).trans ih
      rw [List.replicate_succ]
      simp [noteSymbol]

/-- The line end and the 0 behind an appended section. -/
theorem endOfText_zero : EndOfText ['\r', '\x00'] where
  atEol := by simp [AtEol, isEol]
  getKeys keyName unLen := by
    rw [getKeys_passes.skip '\r' _ (by decide), getKeys, if_neg (by decide), if_neg (by decide), if_neg (by decide)]
    rfl
  getOut sectionName keyName unLen := by
    rw [getOut_cons (by decide) (by simp [noteSymbol]), getOut_cons (by decide) (by simp), getOut_nil]
  note sectionName keyName unLen := getOut_nil

/-! ## How far `set` goes back -/

/-- `index2` for the text behind the `=`: the value, and what ends it. -/
theorem setValue_append {bufferSize : Nat} {value behind : List Char}
    (hvalue : ∀ c ∈ value, (isEol c || c = noteSymbol) = false)
    (hbehind : ∀ c ∈ behind.head?, (isEol c || c = noteSymbol) = true) :
    setValue bufferSize (value ++ behind) =
      if value.all isBlank then (if behind = [] then 0 else bufferSize - behind.tail.length - 2)
      else bufferSize - behind.tail.length - 1 := by
  induction value with
  | nil =>
    cases behind with
    | nil => rfl
    | cons c rest =>
      have hc := hbehind c rfl
      rw [List.nil_append, setValue, if_pos (by simpa using hc), List.all_nil, if_pos rfl,
        if_neg (List.cons_ne_nil c rest)]
      rfl
  | cons c value ih =>
    obtain ⟨hc, hrest⟩ := List.forall_mem_cons.mp hvalue
    have hgo : ∀ c' ∈ c :: value, (!(isEol c' || c' = noteSymbol)) = true := fun c' hc' => by
      simpa using hvalue c' hc'
    have hstop : ∀ c' ∈ behind.head?, (!(isEol c' || c' = noteSymbol)) = false := fun c' hc' => by
      rw [hbehind c' hc', Bool.not_true]
    have hdrop := dropWhile_append_of_atEol hgo hstop
    rw [List.cons_append, setValue, if_neg (by simpa using hc)]
    by_cases hblank : isBlank c = true
    · rw [if_pos hblank, ih hrest, List.all_cons, hblank, Bool.true_and]
    · rw [List.cons_append] at hdrop
      rw [if_neg hblank, hdrop, List.all_cons, Bool.eq_false_of_not_eq_true hblank, Bool.false_and, if_neg (by decide)]

/-- The last character that is not skipped. -/
theorem exists_last {skips : Char → Bool} {text : List Char} (h : ¬∀ c ∈ text, skips c = true) :
    ∃ before d behind, text = before ++ d :: behind ∧ skips d = false ∧ ∀ c ∈ behind, skips c = true := by
  induction text with
  | nil => exact absurd (by simp) h
  | cons c text ih =>
    by_cases hall : ∀ c ∈ text, skips c = true
    · refine ⟨[], c, text, rfl, ?_, hall⟩
      by_contra hc
      exact h (List.forall_mem_cons.mpr ⟨Bool.eq_true_of_not_eq_false hc, hall⟩)
    · obtain ⟨before, d, behind, rfl, hd, hbehind⟩ := ih hall
      exact ⟨c :: before, d, behind, rfl, hd, hbehind⟩

/-- Back over what is skipped, `set` stops behind the last character that is not. -/
theorem backOver_append {skips : Char → Bool} {before skipped : List Char} {d : Char} (hbefore : before ≠ [])
    (hd : skips d = false) (hskipped : ∀ c ∈ skipped, skips c = true) (behind : List Char) :
    backOver skips (before ++ d :: (skipped ++ behind)) (before.length + skipped.length) + 1 = before.length := by
  induction skipped using List.reverseRecOn generalizing behind with
  | nil =>
    obtain ⟨n, hn⟩ := Nat.exists_eq_succ_of_ne_zero (mt List.length_eq_zero_iff.mp hbefore)
    have hget : (before ++ d :: ([] ++ behind)).getD (n + 1) '\x00' = d := by
      rw [← Nat.succ_eq_add_one, ← hn]
      simp
    rw [List.length_nil, Nat.add_zero, hn, backOver, hget, hd]
    rfl
  | append_singleton skipped c ih =>
    obtain ⟨hskipped, hc⟩ := List.forall_mem_append.mp hskipped
    have hget : (before ++ d :: (skipped ++ [c] ++ behind)).getD (before.length + skipped.length + 1) '\x00' = c := by
      simp [List.getD_eq_getElem?_getD, Nat.add_assoc]
    have happ : skipped ++ [c] ++ behind = skipped ++ (c :: behind) := by simp
    rw [List.length_append, List.length_singleton, ← Nat.add_assoc, backOver, hget, hc c (List.mem_singleton_self c),
      if_pos rfl, happ]
    exact ih hskipped (c :: behind)

end AllCamera.CacConfig
