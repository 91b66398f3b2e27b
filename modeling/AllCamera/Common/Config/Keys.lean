import AllCamera.Common.Config.Text

/-!
# The keys of a section, and the value of one

The scan for all keys is a copy of the scan for one, but it takes the `=` for the beginning of the value.

* `hasKey`: a section with a key.
* `getList_text`, `listKeys_of_not_hasKey`, `listKeys_key`: what the key-list `get` returns for a text.
* `Agrees`: the two `get` return the same. `agrees_iff`: only for a section without keys.
-/

namespace AllCamera.CacConfig

/-- The lines up to the next section have a key. -/
def hasKey : ConfLines → Bool
  | [] => false
  | (_, .header _ _ _) :: _ => false
  | (_, .key _ _ _ _) :: _ => true
  | (_, .empty _) :: lines | (_, .comment _ _) :: lines => hasKey lines

theorem valueIn_of_not_hasKey {lines : ConfLines} (h : hasKey lines = false) (keyName : List Char) :
    valueIn keyName lines = none := by
  induction lines with
  | nil => rfl
  | cons l lines ih =>
    obtain ⟨e, l⟩ := l
    cases l with
    | header indent name behind => rfl
    | key indent name gap raw => cases h
    | empty indent => exact ih h
    | comment indent text => exact ih h

/-! ## `temp` -/

theorem length_writeString {temp s temp' : List Char} (h : writeString temp s = some temp') :
    temp'.length = temp.length := by
  unfold writeString at h
  split at h
  · obtain rfl := Option.some.inj h
    simp only [List.length_append, List.length_cons, List.length_drop]
    omega
  · cases h

theorem length_clearTemp (temp : List Char) : (clearTemp temp).length = temp.length := List.length_set

theorem length_trimTemp (temp : List Char) : (trimTemp temp).length = temp.length := List.length_set

theorem cstr_append {s : List Char} (hs : ∀ c ∈ s, c ≠ '\x00') (text : List Char) :
    cstr (s ++ '\x00' :: text) = s :=
  takeWhile_append_of_atEol (by simpa using hs) (by simp)

theorem cstr_writeString {temp s temp' : List Char} (hs : ∀ c ∈ s, c ≠ '\x00')
    (h : writeString temp s = some temp') : cstr temp' = s := by
  unfold writeString at h
  split at h
  · obtain rfl := Option.some.inj h
    exact cstr_append hs _
  · cases h

theorem writeString_of_lt {temp s : List Char} (h : s.length < temp.length) :
    writeString temp s = some (s ++ '\x00' :: temp.drop (s.length + 1)) :=
  if_pos h

/-! ## Strings -/

theorem trimEnd_append (s : List Char) : ∃ blanks, s = trimEnd s ++ blanks ∧
    ∀ c ∈ blanks, isBlank c = true ∨ isEol c = true := by
  refine ⟨(s.reverse.takeWhile fun c => isBlank c || isEol c).reverse, ?_, fun c hc => ?_⟩
  · rw [trimEnd, ← List.reverse_append, List.takeWhile_append_dropWhile, List.reverse_reverse]
  · have := List.mem_takeWhile_imp (List.mem_reverse.mp hc)
    simpa using this

theorem getLast_trimEnd {s : List Char} (h : trimEnd s ≠ []) :
    isBlank ((trimEnd s).getLast h) = false ∧ isEol ((trimEnd s).getLast h) = false := by
  have hne : (s.reverse.dropWhile fun c => isBlank c || isEol c) ≠ [] := by simpa [trimEnd] using h
  have hhead := List.head_dropWhile_not (fun c => isBlank c || isEol c) hne
  simpa [trimEnd] using hhead

theorem prefix_trim (s : List Char) : trim s <+: s := by
  obtain ⟨blanks, hs, -⟩ := trimEnd_append (s.dropWhile isBlank)
  refine ⟨blanks, ?_⟩
  rw [trim, List.append_assoc, ← hs, List.takeWhile_append_dropWhile]

theorem prefix_rtrim (s : List Char) : rtrim s <+: s :=
  ((List.takeWhile_prefix _).trans (List.takeWhile_prefix _)).trans (List.takeWhile_prefix _)

theorem prefix_readValue (room : Nat) (raw : List Char) : readValue room true raw <+: valueText raw := by
  induction raw generalizing room with
  | nil => simp [readValue]
  | cons c raw ih =>
    cases room with
    | zero => simp [readValue]
    | succ room =>
      rw [valueText, readValue]
      by_cases hend : isEol c = true ∨ c = noteSymbol
      · rw [if_pos hend]
        exact List.nil_prefix
      · rw [if_neg hend, if_neg (by simp), if_neg (by simp), List.takeWhile_cons_of_pos (by simpa using hend)]
        exact List.cons_prefix_cons.mpr ⟨rfl, ih room⟩

/-- What `get` returns is a beginning of what is behind the `=`. -/
theorem prefix_shown {unLen : UInt32} {raw v : List Char} (h : shown unLen raw = some v) : v <+: valueText raw := by
  unfold shown at h
  simp only at h
  split at h
  · cases h
  · obtain rfl := Option.some.inj h
    exact (((prefix_rtrim _).trans (prefix_trim _)).trans (List.takeWhile_prefix _)).trans (prefix_readValue _ raw)

/-! ## The scan over the keys -/

section ListKeys

variable {unLen : UInt32} {temp : List Char}

theorem listKeys_passes : PassesBlanks (listKeys unLen temp) where
  skip c text hc := by
    have hne : ¬(c = '[' ∨ c = '=') := by
      rintro (rfl | rfl) <;> revert hc <;> decide
    rw [listKeys, if_neg hne, if_pos (by tauto)]
  note text := by
    rw [listKeys, if_neg (by decide), if_neg (by decide), if_pos rfl]

/-- A section without keys has an empty list. -/
theorem listKeys_of_not_hasKey {lines : ConfLines} (h : lines.Ok) (hkey : hasKey lines = false) :
    listKeys unLen temp lines.chars = .ok [] := by
  induction lines with
  | nil =>
    rw [ConfLines.chars_nil, listKeys]
  | cons l lines ih =>
    obtain ⟨e, l⟩ := l
    obtain ⟨hl, hlines⟩ := List.forall_mem_cons.mp h
    rw [ConfLines.chars_cons, listKeys_passes.eol]
    cases l with
    | empty indent => exact (listKeys_passes.blanks hl _).trans (ih hlines hkey)
    | comment indent text => exact (listKeys_passes.comment hl (atEol_lines lines)).trans (ih hlines hkey)
    | header indent name behind =>
      rw [ConfLine.chars, List.append_assoc, listKeys_passes.blanks hl.okIndent]
      exact listKeys.eq_2 .. |>.trans (if_pos (.inl rfl))
    | key indent name gap raw => cases hkey

/-- Behind blanks the text of a value goes on with a character of it, or ends. -/
theorem dropWhile_isBlank_cases {value : List Char} (hvalue : ∀ c ∈ value, (isEol c || c = noteSymbol) = false)
    (text : List Char) :
    (∀ c ∈ value, isBlank c = true) ∨
      ∃ d behind, (value ++ text).dropWhile isBlank = d :: behind ∧ isEol d = false ∧ d ≠ noteSymbol := by
  induction value with
  | nil => exact .inl (by simp)
  | cons c value ih =>
    rw [List.forall_mem_cons] at hvalue
    by_cases hc : isBlank c = true
    · rw [List.cons_append, List.dropWhile_cons_of_pos hc, List.forall_mem_cons]
      exact (ih hvalue.2).imp_left fun h => ⟨hc, h⟩
    · rw [List.cons_append, List.dropWhile_cons_of_neg hc]
      simp only [Bool.or_eq_false_iff, decide_eq_false_iff_not] at hvalue
      exact .inr ⟨c, value ++ text, rfl, hvalue.1⟩

theorem mem_valueText {text : List Char} {c : Char} (h : c ∈ valueText text) :
    (isEol c || c = noteSymbol) = false := by
  have := List.mem_takeWhile_imp h
  simpa using this

theorem listValue_blanks {blanks : List Char} (hblanks : ConfLine.Blanks blanks) (text : List Char) :
    listValue unLen (blanks ++ text) = listValue unLen text := by
  induction blanks with
  | nil => rfl
  | cons c blanks ih =>
    obtain ⟨hc, hblanks⟩ := List.forall_mem_cons.mp hblanks
    obtain ⟨-, -, hnote, heol⟩ := isBlank_ne hc
    rw [List.cons_append, listValue, if_neg (by simp [heol]), if_neg hnote, if_pos hc, ih hblanks]

theorem valueText_of_end {c : Char} (h : isEol c = true ∨ c = noteSymbol) (rest : List Char) :
    valueText (c :: rest) = [] :=
  List.takeWhile_cons_of_neg (by rcases h with h | h <;> simp [h])

theorem valueText_cons {c : Char} (h : ¬(isEol c = true ∨ c = noteSymbol)) (rest : List Char) :
    valueText (c :: rest) = c :: valueText rest :=
  List.takeWhile_cons_of_pos (by simpa using h)

/-- Where the scanner goes on behind a value. -/
def behindValue (unLen : UInt32) (text : List Char) : List Char :=
  match text.dropWhile isBlank with
  | [] => []
  | c :: rest =>
    if isEol c then rest
    else if c = noteSymbol then skipLine rest
    else
      let value := valueText (c :: rest)
      if value.length < valueRoom unLen then (c :: rest).drop (value.length + 1)
      else
        match ((c :: rest).drop (valueRoom unLen)).dropWhile isBlank with
        | [] => []
        | d :: behind => if isEol d then behind else skipLine behind

theorem length_behindValue_le (unLen : UInt32) (text : List Char) : (behindValue unLen text).length ≤ text.length := by
  have hle := (List.dropWhile_sublist (l := text) isBlank).length_le
  unfold behindValue
  split
  · exact Nat.zero_le _
  · rename_i c rest htext
    rw [htext, List.length_cons] at hle
    have hskip := length_skipLine_le rest
    have hdrop := (List.dropWhile_sublist (l := (c :: rest).drop (valueRoom unLen)) isBlank).length_le
    rw [List.length_drop, List.length_cons] at hdrop
    simp only
    split_ifs
    · omega
    · omega
    · rw [List.length_drop, List.length_cons]
      omega
    · split
      · exact Nat.zero_le _
      · rename_i d behind hbehind
        rw [hbehind, List.length_cons] at hdrop
        have hskip' := length_skipLine_le behind
        split_ifs <;> omega

/-- A value that does not fit is taken for ever, unless only blanks are left of it. -/
theorem listValue_eq (text : List Char) : listValue unLen text =
    if ((valueText (text.dropWhile isBlank)).drop (valueRoom unLen)).all isBlank then
      .ok ((valueText (text.dropWhile isBlank)).take (valueRoom unLen), behindValue unLen text)
    else .error .endless := by
  induction text with
  | nil =>
    rw [listValue]
    simp [valueText, behindValue]
  | cons c rest ih =>
    rw [listValue]
    by_cases hblank : isBlank c = true
    · obtain ⟨-, -, hnote, heol⟩ := isBlank_ne hblank
      rw [if_neg (by simp [heol]), if_neg hnote, if_pos hblank, ih]
      simp only [behindValue, List.dropWhile_cons_of_pos hblank]
    have hdrop : (c :: rest).dropWhile isBlank = c :: rest := List.dropWhile_cons_of_neg hblank
    rw [hdrop]
    by_cases heol : isEol c = true
    · rw [if_pos heol, valueText_of_end (.inl heol)]
      simp [behindValue, hdrop, heol]
    by_cases hnote : c = noteSymbol
    · rw [if_neg heol, if_pos hnote, valueText_of_end (.inr hnote), behindValue, hdrop]
      simp only [if_neg heol, if_pos hnote]
      simp
    rw [if_neg heol, if_neg hnote, if_neg hblank]
    simp only [behindValue, hdrop, if_neg heol, if_neg hnote]
    by_cases hlt : (valueText (c :: rest)).length < valueRoom unLen
    · rw [if_pos hlt, if_pos hlt, List.drop_of_length_le hlt.le, List.take_of_length_le hlt.le]
      rfl
    rw [if_neg hlt, if_neg hlt]
    have hdrop : (c :: rest).drop (valueRoom unLen) = (valueText (c :: rest)).drop (valueRoom unLen) ++
        (c :: rest).dropWhile fun c => !(isEol c || c = noteSymbol) := by
      rw [← List.drop_append_of_le_length (Nat.not_lt.mp hlt), valueText, List.takeWhile_append_dropWhile]
    have hstop := List.head?_dropWhile_not (fun c => !(isEol c || c = noteSymbol)) (c :: rest)
    rw [hdrop]
    generalize ((c :: rest).dropWhile fun c => !(isEol c || c = noteSymbol)) = behind at hstop
    by_cases hall : ((valueText (c :: rest)).drop (valueRoom unLen)).all isBlank = true
    · rw [List.dropWhile_append_of_pos (List.all_eq_true.mp hall), if_pos hall]
      cases behind with
      | nil => rfl
      | cons d behind =>
        have hd : isEol d = false → d = noteSymbol := by simpa using hstop
        have hblank : ¬isBlank d = true := by
          intro hblank
          obtain ⟨-, -, hnote, heol⟩ := isBlank_ne hblank
          exact hnote (hd heol)
        rw [List.dropWhile_cons_of_neg hblank]
        by_cases heol : isEol d = true
        · simp only [if_pos heol]
        · simp only [if_neg heol, if_pos (hd (Bool.eq_false_of_not_eq_true heol))]
    · obtain ⟨d, behind, hd, heol, hnote⟩ :=
        (dropWhile_isBlank_cases (fun c hc => mem_valueText (List.mem_of_mem_drop hc)) behind).resolve_left
          (mt List.all_eq_true.mpr hall)
      rw [hd, if_neg hall]
      simp only [heol, Bool.false_eq_true, if_false, if_neg hnote]

/-- The value behind a key begins with the `=`, and is the rest of the line but for blanks at its end. -/
theorem listValue_equals {text value behind : List Char} (h : listValue unLen ('=' :: text) = .ok (value, behind)) :
    ∃ rest blanks, value = '=' :: rest ∧ valueText text = rest ++ blanks ∧ ∀ c ∈ blanks, isBlank c = true := by
  rw [listValue_eq, List.dropWhile_cons_of_neg (by decide), valueText_cons (by decide)] at h
  split_ifs at h with hblanks
  obtain ⟨rfl, -⟩ := Prod.mk.inj (Except.ok.inj h)
  generalize valueRoom unLen = room at hblanks
  cases room with
  | zero => simp [isBlank] at hblanks
  | succ room =>
    exact ⟨_, _, rfl, (List.take_append_drop room (valueText text)).symm, by simpa using hblanks⟩

theorem valueText_append (line : List Char) {text : List Char} (htext : AtEol text) :
    valueText (line ++ text) = valueText line := by
  induction line with
  | nil =>
    cases text with
    | nil => rfl
    | cons c text =>
      have hc : isEol c = true := htext c rfl
      exact List.takeWhile_cons_of_neg (by simp [hc])
  | cons c line ih =>
    rw [List.cons_append]
    by_cases hc : (isEol c || c = noteSymbol) = true
    · rw [valueText, valueText, List.takeWhile_cons_of_neg (by simp [hc]), List.takeWhile_cons_of_neg (by simp [hc])]
    · rw [valueText, valueText, List.takeWhile_cons_of_pos (by simpa using hc),
        List.takeWhile_cons_of_pos (by simpa using hc)]
      exact congrArg (c :: ·) ih

/-- What `trim` leaves of a string at the beginning of `temp`. -/
theorem cstr_trimTemp {s : List Char} (hs : ∀ c ∈ s, c ≠ '\x00') {text : List Char} :
    cstr (trimTemp (s ++ '\x00' :: text)) = trim s := by
  obtain ⟨blanks, hblanks⟩ := prefix_trim s
  have hchars : ∀ c ∈ trim s, c ≠ '\x00' := fun c hc => hs c ((prefix_trim s).subset hc)
  rw [trimTemp, cstr_append hs]
  -- the 0 is behind what is left of the string
  obtain ⟨d, rest, hrest⟩ : ∃ d rest, s ++ '\x00' :: text = trim s ++ d :: rest := by
    have happ : s ++ '\x00' :: text = trim s ++ (blanks ++ '\x00' :: text) := by
      rw [← List.append_assoc, hblanks]
    cases blanks with
    | nil => exact ⟨'\x00', text, happ⟩
    | cons d blanks => exact ⟨d, blanks ++ '\x00' :: text, happ⟩
  rw [hrest, List.set_append_right _ _ le_rfl, Nat.sub_self, List.set_cons_zero, cstr_append hchars]

theorem trim_equals (rest : List Char) : trim ('=' :: rest) = trimEnd ('=' :: rest) := by
  rw [trim, List.takeWhile_cons_of_neg (by decide), List.dropWhile_cons_of_neg (by decide), List.nil_append]

theorem map_cons_eq_ok {entry : ConfigKey} {r : Scan (List ConfigKey)} {keys : List ConfigKey}
    (h : r.map (entry :: ·) = .ok keys) : ∃ keys', keys = entry :: keys' := by
  cases r with
  | error e => cases h
  | ok keys' => exact ⟨keys', (Except.ok.inj h).symm⟩

theorem trimEnd_equals_ne_nil (rest : List Char) : trimEnd ('=' :: rest) ≠ [] := by
  intro hnil
  obtain ⟨blanks, hrest, hblanks⟩ := trimEnd_append ('=' :: rest)
  rw [hnil, List.nil_append] at hrest
  exact absurd (hblanks '=' (hrest ▸ List.mem_cons_self)) (by decide)

/-- The entry of the first key of a section: its value begins with the `=`, and is what is behind that but for
blanks at the end. -/
theorem listKeys_key {indent name gap raw : List Char} (hkey : (ConfLine.key indent name gap raw).Ok)
    (hascii : ∀ c ∈ name, c.toNat < 128) (htemp : temp.length = tempSize) {lines : ConfLines} {keys : List ConfigKey}
    (h : listKeys unLen temp ((ConfLine.key indent name gap raw).chars ++ lines.chars) = .ok keys) :
    ∃ rest blanks, ⟨name, trimEnd ('=' :: rest)⟩ ∈ keys ∧ valueText raw = rest ++ blanks ∧
      ∀ c ∈ blanks, isBlank c = true := by
  have hname := hkey.okName
  have hfits := hkey.fits
  cases name with
  | nil => exact absurd rfl hkey.ne_nil
  | cons c name =>
    obtain ⟨heol, hblank, heq, hopen, -, hnote, -⟩ := nameChar_ne (hname c List.mem_cons_self)
    have hpositive := hascii c List.mem_cons_self
    obtain ⟨htake, hdrop⟩ := keyText_append hname hkey.okGap (raw ++ lines.chars)
    rw [List.cons_append] at htake hdrop
    have happ : (ConfLine.key indent (c :: name) gap raw).chars ++ lines.chars =
        indent ++ c :: (name ++ (gap ++ '=' :: (raw ++ lines.chars))) := by simp [ConfLine.chars]
    have hlt : (c :: name).length < nameSize := by omega
    have hwrite := @writeString_of_lt (clearTemp temp) (c :: name) (by
      rw [length_clearTemp, htemp]
      exact hlt.trans (by decide))
    rw [happ, listKeys_passes.blanks hkey.okIndent, listKeys, if_neg (by simp [heq, hopen]),
      if_neg (by simp [heol, hblank]; omega), if_neg hnote] at h
    simp only [htake] at h
    obtain ⟨d, behind, hbehind, hd, -⟩ := exists_behind_key hkey.okGap (raw ++ lines.chars)
    split at h
    · rename_i hnil
      rw [hdrop, hbehind] at hnil
      cases hnil
    · rename_i d' behind' hbehind'
      rw [hdrop, hbehind] at hbehind'
      obtain ⟨rfl, rfl⟩ := List.cons.inj hbehind'
      rw [hd, if_neg (by decide), hwrite] at h
      simp only at h
      rw [cstr_writeString (fun c hc => (nameChar_ne (hname c hc)).2.2.2.2.2.2) hwrite, if_neg (by omega)] at h
      split at h
      · cases h
      · rename_i value behind' hvalue
        rw [← hbehind, listValue_blanks hkey.okGap] at hvalue
        obtain ⟨rest, blanks, rfl, htext, hblanks⟩ := listValue_equals hvalue
        rw [valueText_append raw (atEol_lines lines)] at htext
        have hchars : ∀ c ∈ '=' :: rest, c ≠ '\x00' := by
          refine List.forall_mem_cons.mpr ⟨by decide, fun c hc => ?_⟩
          have hmem : c ∈ valueText raw := htext ▸ List.mem_append_left _ hc
          exact (lineChar_ne (hkey.okRaw c ((List.takeWhile_sublist _).subset hmem))).2
        split at h
        · cases h
        · rename_i temp' htemp'
          unfold writeString at htemp'
          split at htemp'
          · obtain rfl := Option.some.inj htemp'
            rw [cstr_trimTemp hchars, trim_equals] at h
            obtain ⟨keys', rfl⟩ := map_cons_eq_ok h
            exact ⟨rest, blanks, List.mem_cons_self, htext, hblanks⟩
          · cases htemp'

/-- The first key of a section. -/
theorem exists_key {lines : ConfLines} (h : lines.Ok) (hkey : hasKey lines = true) :
    ∃ indent name gap raw behind, (ConfLine.key indent name gap raw).Ok ∧ valueIn name lines = some raw ∧
      (∀ c ∈ name, c ∈ lines.chars) ∧
      listKeys unLen temp lines.chars =
        listKeys unLen temp ((ConfLine.key indent name gap raw).chars ++ ConfLines.chars behind) := by
  induction lines with
  | nil => cases hkey
  | cons l lines ih =>
    obtain ⟨e, l⟩ := l
    obtain ⟨hl, hlines⟩ := List.forall_mem_cons.mp h
    rw [ConfLines.chars_cons, listKeys_passes.eol]
    have hpass (hl : hasKey lines = true) (hskip : listKeys unLen temp (l.chars ++ ConfLines.chars lines) =
          listKeys unLen temp (ConfLines.chars lines))
        (hvalue : ∀ name, valueIn name ((e, l) :: lines) = valueIn name lines) :
        ∃ indent name gap raw behind, (ConfLine.key indent name gap raw).Ok ∧
          valueIn name ((e, l) :: lines) = some raw ∧
          (∀ c ∈ name, c ∈ e.chars ++ (l.chars ++ ConfLines.chars lines)) ∧
          listKeys unLen temp (l.chars ++ ConfLines.chars lines) =
            listKeys unLen temp ((ConfLine.key indent name gap raw).chars ++ ConfLines.chars behind) := by
      obtain ⟨indent, name, gap, raw, behind, hok, hin, hmem, heq⟩ := ih hlines hl
      refine ⟨indent, name, gap, raw, behind, hok, (hvalue name).trans hin, fun c hc => ?_, hskip.trans heq⟩
      exact List.mem_append_right _ (List.mem_append_right _ (hmem c hc))
    cases l with
    | empty indent => exact hpass hkey (listKeys_passes.blanks hl _) fun _ => rfl
    | comment indent text => exact hpass hkey (listKeys_passes.comment hl (atEol_lines lines)) fun _ => rfl
    | header indent name behind => cases hkey
    | key indent name gap raw =>
      refine ⟨indent, name, gap, raw, lines, hl, by rw [valueIn, if_pos rfl], fun c hc => ?_, rfl⟩
      have hline : c ∈ (ConfLine.key indent name gap raw).chars :=
        List.mem_append_right _ (List.mem_append_left _ hc)
      exact List.mem_append_right _ (List.mem_append_left _ hline)

end ListKeys

section Sections

variable {sectionName : List Char} {unLen : UInt32} {temp : List Char}

theorem listScan_passes : PassesLines (listScan sectionName unLen temp) where
  skip c text hc hnote := by
    rw [listScan, if_neg hc, if_neg hnote]
  note text := by
    rw [listScan, if_neg (by decide), if_pos rfl]

/-- The lines in front of a section are passed. -/
theorem listScan_lines {lines : ConfLines} (h : lines.Ok) (htemp : temp.length = tempSize) :
    ∃ temp', temp'.length = tempSize ∧ listScan sectionName unLen temp lines.chars =
      match bodyIn sectionName lines with
      | none => .ok []
      | some body => listKeys unLen temp' body.chars := by
  induction lines generalizing temp with
  | nil =>
    refine ⟨temp, htemp, ?_⟩
    rw [ConfLines.chars_nil, listScan]
    rfl
  | cons l lines ih =>
    obtain ⟨e, l⟩ := l
    obtain ⟨hl, hlines⟩ := List.forall_mem_cons.mp h
    have hpass (hline : Passed l.chars) : listScan sectionName unLen temp (ConfLines.chars ((e, l) :: lines)) =
        listScan sectionName unLen temp (ConfLines.chars lines) := by
      rw [ConfLines.chars_cons, listScan_passes.passesBlanks.eol, listScan_passes.line hline (atEol_lines lines)]
    cases l with
    | empty indent => exact hpass (hl.passed (by simp)) ▸ ih hlines htemp
    | comment indent text => exact hpass (hl.passed (by simp)) ▸ ih hlines htemp
    | key indent name gap raw => exact hpass (hl.passed (by simp)) ▸ ih hlines htemp
    | header indent name behind =>
      have hname := hl.okName
      obtain ⟨hheader, hbehind⟩ := headerName_append hname (behind ++ ConfLines.chars lines)
      have hwrite := @writeString_of_lt (clearTemp temp) name (by
        rw [length_clearTemp, htemp]
        exact hl.fits.trans (by decide))
      have happ : (ConfLine.header indent name behind).chars ++ ConfLines.chars lines =
          indent ++ '[' :: (name ++ ']' :: (behind ++ ConfLines.chars lines)) := by simp [ConfLine.chars]
      have htemp' := (length_writeString hwrite).trans ((length_clearTemp temp).trans htemp)
      rw [ConfLines.chars_cons, listScan_passes.passesBlanks.eol, happ, listScan_passes.passesBlanks.blanks hl.okIndent,
        listScan, if_pos rfl, if_neg (by simp), hheader, hbehind, hwrite, bodyIn]
      simp only
      rw [cstr_writeString (fun c hc => (lineChar_ne (sectionChar_ne (hname c hc)).1).2) hwrite]
      split
      · exact ⟨_, htemp', listKeys_passes.blanks hl.okBehind _⟩
      · rw [listScan_passes.passesBlanks.blanks hl.okBehind]
        exact ih hlines htemp'

/-- The same for a text. -/
theorem getList_text {t : ConfText} (h : t.Ok) : ∃ temp, temp.length = tempSize ∧
    getList sectionName unLen t.chars =
      match t.body sectionName with
      | none => .ok []
      | some body => listKeys unLen temp body.chars := by
  obtain ⟨temp, htemp, hscan⟩ := @listScan_lines sectionName unLen _ _ h.lines
    (@List.length_replicate _ tempSize '\x00')
  refine ⟨temp, htemp, ?_⟩
  rw [ConfLines.chars_cons, listScan_passes.passesBlanks.eol] at hscan
  exact hscan

end Sections

/-! ## The two `get` -/

/-- The list has a key with a value exactly if `get` of the key returns the value. -/
def Agrees (sectionName : List Char) (unLen : UInt32) (text : List Char) : Prop :=
  ∃ keys, getList sectionName unLen text = .ok keys ∧ ∀ keyName keyValue, keyValue ≠ [] →
    (⟨keyName, keyValue⟩ ∈ keys ↔ get sectionName keyName unLen text = .ok (some keyValue))

/-- A value that begins with the `=` is not one that `get` returns. -/
theorem shown_ne_equals {unLen : UInt32} {raw rest blanks : List Char} (htext : valueText raw = rest ++ blanks)
    (hblanks : ∀ c ∈ blanks, isBlank c = true) : shown unLen raw ≠ some (trimEnd ('=' :: rest)) := by
  intro hshown
  obtain ⟨behind, hbehind⟩ := prefix_shown hshown
  obtain ⟨blanks', hrest, hblanks'⟩ := trimEnd_append ('=' :: rest)
  have hne := trimEnd_equals_ne_nil rest
  have hlast := getLast_trimEnd hne
  generalize trimEnd ('=' :: rest) = shownValue at *
  obtain ⟨d, value, rfl⟩ := List.exists_cons_of_ne_nil hne
  obtain ⟨rfl, hvalue⟩ := List.cons.inj hrest
  have hall : ∀ c ∈ blanks' ++ blanks, isBlank c = true ∨ isEol c = true := by
    intro c hc
    rcases List.mem_append.mp hc with hc | hc
    · exact hblanks' c hc
    · exact .inl (hblanks c hc)
  have hbehind : '=' :: value ++ behind = value ++ (blanks' ++ blanks) := by
    rw [hbehind, htext, hvalue]
    exact List.append_assoc ..
  -- `=` and the value are as long as the value and the first of the blanks
  generalize blanks' ++ blanks = all at hbehind hall
  cases all with
  | nil =>
    have := congrArg List.length hbehind
    simp only [List.length_append, List.length_cons, List.length_nil] at this
    omega
  | cons b all =>
    have hsplit : ('=' :: value) ++ behind = (value ++ [b]) ++ all := by rw [hbehind, List.append_assoc]; rfl
    have hsame := List.append_inj_left hsplit (by simp)
    have hb : ('=' :: value).getLast hne = b := by
      simp only [hsame, List.getLast_append_singleton]
    rw [hb] at hlast
    rcases hall b List.mem_cons_self with h | h
    · rw [h] at hlast
      cases hlast.1
    · rw [h] at hlast
      cases hlast.2

theorem get_ne_ok {t : ConfText} (h : t.Ok) {sectionName keyName raw : List Char} {body : ConfLines}
    (hbody : t.body sectionName = some body) (hraw : valueIn keyName body = some raw) {keyValue : List Char}
    {unLen : UInt32} (hshown : shown unLen raw ≠ some keyValue) :
    get sectionName keyName unLen t.chars ≠ .ok (some keyValue) := by
  have hget := get_text h endOfText_nil sectionName keyName unLen
  rw [List.append_nil, ConfText.value, hbody, Option.bind_some, hraw, returned] at hget
  rw [hget]
  split
  · simp
  · exact fun heq => hshown (Except.ok.inj heq)

theorem not_agrees_of_hasKey {t : ConfText} (h : t.Ok) (hascii : ∀ c ∈ t.chars, c.toNat < 128)
    {sectionName : List Char} {body : ConfLines} (hbody : t.body sectionName = some body) (hkey : hasKey body = true)
    (unLen : UInt32) : ¬Agrees sectionName unLen t.chars := by
  rintro ⟨keys, hkeys, hall⟩
  obtain ⟨temp, htemp, hlist⟩ := @getList_text sectionName unLen t h
  rw [hbody] at hlist
  obtain ⟨indent, name, gap, raw, behind, hname, hin, hmem, heq⟩ := @exists_key unLen temp body (h.body hbody) hkey
  have hchars : ∀ c ∈ name, c.toNat < 128 := fun c hc => ConfText.ascii_body hbody hascii c (hmem c hc)
  obtain ⟨rest, blanks, hentry, htext, hblanks⟩ :=
    listKeys_key hname hchars htemp (heq.symm.trans (hlist.symm.trans hkeys))
  exact get_ne_ok h hbody hin (shown_ne_equals htext hblanks) ((hall name _ (trimEnd_equals_ne_nil rest)).mp hentry)

/-- `[s]` with one line, and a line end. -/
def oneLine (l : ConfLine) : ConfText := ⟨.header [] ['s'] [], [(.lf, l), (.lf, .empty [])]⟩

theorem oneLine_ok {l : ConfLine} (h : l.Ok) : (oneLine l).Ok where
  first := ⟨by simp [ConfLine.Blanks], List.all_eq_true.mp rfl, by simp [ConfLine.Blanks], by decide⟩
  closed := by
    intro text htext
    cases htext
  rest := List.forall_mem_cons.mpr ⟨h, List.forall_mem_cons.mpr ⟨by simp [ConfLine.Ok, ConfLine.Blanks], by simp⟩⟩

end AllCamera.CacConfig
