import AllCamera.Common.Config.Keys

/-!
# Where the scanners stay in their memory

A scanner copies the name of each section that it comes to, and each word at the beginning of a line of the section
it looks for. It stays in its memory if these fit, and if it finds the end of each name in the buffer.

* `opened`, `getOpened`: what is behind each `[` of a section. `words`, `listItems`: what is copied from a section.
* `HeadersOk`, `Word.Fits`, `ListOk`: what is asked of these.
* `getScan_safe_iff`, `listScan_ok_iff`, `setScan_ok_iff`; `safe_iff_readable`.

A buffer is smaller than 4 GiB: the index of the scanner for one key has 32 bits.
-/

namespace AllCamera.CacConfig

/-! ## What the scanners come to -/

/-- What is behind each `[` outside comments. -/
def opened : List Char → List (List Char)
  | [] => []
  | c :: rest =>
    if c = '[' then rest :: opened (behindHeader rest)
    else if c = noteSymbol then opened (skipLine rest)
    else opened rest
termination_by text => text.length
decreasing_by
  · exact Nat.lt_succ_of_le (length_behindHeader_le rest)
  · exact Nat.lt_succ_of_le (length_skipLine_le rest)
  · exact Nat.lt_succ_self _

/-- The same for the scanner for one key, which looks for a comment at the next character. -/
def getOpened : List Char → List (List Char)
  | [] => []
  | c :: rest =>
    if c = '[' then rest :: getOpened (behindHeader rest)
    else
      match rest with
      | [] => []
      | d :: rest =>
        if d = noteSymbol then getOpened (rest.dropWhile (· ≠ '\n'))
        else getOpened (d :: rest)
termination_by text => text.length
decreasing_by
  · exact Nat.lt_succ_of_le (length_behindHeader_le rest)
  · have := (List.dropWhile_sublist (l := rest) (· ≠ '\n')).length_le
    simp only [List.length_cons]
    omega
  · exact Nat.lt_succ_self _

/-- A word at the beginning of a line, and what is behind it. -/
structure Word where
  text : List Char
  behind : List Char
  deriving DecidableEq, Repr

/-- The words of a section up to the one that is looked for: `ends` is what ends a word in its line. -/
def words (ends : Char → Bool) (found : List Char → Bool) : List Char → List Word
  | [] => []
  | c :: rest =>
    if c = '[' ∨ c = '=' then []
    else if isEol c ∨ isBlank c then words ends found rest
    else if c = noteSymbol then words ends found (skipLine rest)
    else
      let text := (c :: rest).takeWhile (!ends ·)
      match _h : (c :: rest).dropWhile (!ends ·) with
      | [] => [⟨text, []⟩]
      | d :: behind =>
        if isEol d then ⟨text, d :: behind⟩ :: words ends found behind
        else if found text then [⟨text, d :: behind⟩]
        else ⟨text, d :: behind⟩ :: words ends found (skipLine behind)
termination_by text => text.length
decreasing_by
  · exact Nat.lt_succ_self _
  · exact Nat.lt_succ_of_le (length_skipLine_le rest)
  · exact length_dropWhile_lt _h
  · exact (length_skipLine_le behind).trans_lt (length_dropWhile_lt _h)

/-- No `=` or blank is behind it in its line: no 0 is written. -/
def Word.unended (w : Word) : Bool := w.behind.head?.all isEol

/-- It has room in `temp`, with its 0. -/
def Word.Fits (w : Word) : Prop := if w.unended then w.text.length ≤ nameSize else w.text.length < nameSize

section Words

variable {ends : Char → Bool} {found : List Char → Bool} {P : Word → Prop}

/-- A word of a section, for what is asked of all. -/
theorem forall_words_cons {c : Char} {rest : List Char} (hstop : ¬(c = '[' ∨ c = '='))
    (hskip : ¬(isEol c = true ∨ isBlank c = true)) (hnote : c ≠ noteSymbol) :
    (∀ w ∈ words ends found (c :: rest), P w) ↔
      P ⟨(c :: rest).takeWhile (!ends ·), (c :: rest).dropWhile (!ends ·)⟩ ∧
        match (c :: rest).dropWhile (!ends ·) with
        | [] => True
        | d :: behind =>
          if isEol d then ∀ w ∈ words ends found behind, P w
          else if found ((c :: rest).takeWhile (!ends ·)) then True
          else ∀ w ∈ words ends found (skipLine behind), P w := by
  rw [words, if_neg hstop, if_neg hskip, if_neg hnote]
  split
  · rename_i hdrop
    rw [hdrop]
    simp
  · rename_i d behind hdrop
    rw [hdrop]
    generalize (c :: rest).takeWhile (!ends ·) = text
    by_cases heol : isEol d = true
    · simp [heol]
    · by_cases hfound : found text = true
      · simp [heol, hfound]
      · simp [heol, hfound]

end Words

theorem exists_ok_ite {α : Type} {p : Prop} [Decidable p] {e : ScanFault} {scan : Scan α} :
    (∃ out, (if p then .error e else scan) = .ok out) ↔ ¬p ∧ ∃ out, scan = .ok out := by
  by_cases hp : p
  · simp [hp]
  · simp [hp]

theorem fits_of_unended {w : Word} (h : w.unended = true) : w.Fits ↔ ¬nameSize < w.text.length := by
  rw [Word.Fits, if_pos h, Nat.not_lt]

theorem fits_of_ended {w : Word} (h : w.unended = false) : w.Fits ↔ ¬nameSize ≤ w.text.length := by
  rw [Word.Fits, h, if_neg Bool.false_ne_true, Nat.not_le]

theorem unended_cons (text : List Char) (d : Char) (behind : List Char) :
    Word.unended ⟨text, d :: behind⟩ = isEol d := by
  simp [Word.unended]

/-! ## The scanner for one key -/

section GetKeys

variable {keyName : List Char} {unLen : UInt32}

/-- A value in the buffer of the caller. -/
theorem getValue_ok_iff (text : List Char) : (∃ out, getValue unLen text = .ok out) ↔
    (unLen = 0 → valueText (text.dropWhile isBlank) = []) := by
  induction text with
  | nil => simp [getValue, valueText]
  | cons c rest ih =>
    rw [getValue]
    by_cases hend : isEol c = true ∨ c = noteSymbol
    · have hblank : isBlank c = false := by
        by_contra hblank
        obtain ⟨-, -, hnote, heol⟩ := isBlank_ne (Bool.eq_true_of_not_eq_false hblank)
        rcases hend with hend | hend
        · rw [heol] at hend
          cases hend
        · exact hnote hend
      rw [if_pos hend, List.dropWhile_cons_of_neg (by simp [hblank]), valueText_of_end hend]
      simp
    rw [if_neg hend]
    by_cases hblank : isBlank c = true
    · rw [if_pos hblank, ih, List.dropWhile_cons_of_pos hblank]
    · rw [if_neg hblank, exists_ok_ite, List.dropWhile_cons_of_neg hblank, valueText_cons hend]
      simp

/-- The word has room, and its value if it is the one that is looked for. -/
def GetWordOk (keyName : List Char) (unLen : UInt32) (w : Word) : Prop :=
  w.Fits ∧ (w.unended = false → cstr w.text = keyName → unLen = 0 → valueText (w.behind.dropWhile isBlank) = [])

theorem getKeys_ok_iff (text : List Char) : (∃ out, getKeys keyName unLen text = .ok out) ↔
    ∀ w ∈ words endsKey (cstr · = keyName) text, GetWordOk keyName unLen w := by
  induction hn : text.length using Nat.strong_induction_on generalizing text with
  | _ n ih =>
    subst hn
    cases text with
    | nil => simp [getKeys, words]
    | cons c rest =>
      by_cases hstop : c = '[' ∨ c = '='
      · rw [getKeys, words, if_pos hstop, if_pos hstop]
        simp
      by_cases hskip : isEol c = true ∨ isBlank c = true
      · rw [getKeys, words, if_neg hstop, if_neg hstop, if_pos hskip, if_pos hskip]
        exact ih _ (Nat.lt_succ_self _) rest rfl
      by_cases hnote : c = noteSymbol
      · rw [getKeys, words, if_neg hstop, if_neg hstop, if_neg hskip, if_neg hskip, if_pos hnote, if_pos hnote]
        exact ih _ (Nat.lt_succ_of_le (length_skipLine_le rest)) _ rfl
      rw [forall_words_cons hstop hskip hnote, getKeys, if_neg hstop, if_neg hskip, if_neg hnote]
      generalize htemp : (c :: rest).takeWhile (!endsKey ·) = temp
      split
      · rename_i hdrop
        have hun : Word.unended ⟨temp, []⟩ = true := rfl
        rw [hdrop, exists_ok_ite, GetWordOk, fits_of_unended hun, hun]
        simp
      · rename_i d behind hdrop
        have hlt := length_dropWhile_lt hdrop
        have hun := unended_cons temp d behind
        rw [hdrop]
        simp only
        by_cases heol : isEol d = true
        · rw [heol] at hun
          rw [if_pos heol, if_pos heol, exists_ok_ite, ih _ hlt behind rfl, GetWordOk, fits_of_unended hun, hun]
          simp
        · rw [Bool.eq_false_of_not_eq_true heol] at hun
          rw [if_neg heol, if_neg heol, exists_ok_ite, GetWordOk, fits_of_ended hun, hun]
          by_cases hfound : cstr temp = keyName
          · rw [if_pos hfound, if_pos (by simpa using hfound), getValue_ok_iff]
            simp [hfound]
          · rw [if_neg hfound, if_neg (by simpa using hfound), ih _ ((length_skipLine_le behind).trans_lt hlt) _ rfl]
            simp [hfound]

end GetKeys

/-! ## The scanner of `set` -/

theorem setKeys_ok_iff {bufferSize : Nat} {keyName : List Char} (index1 : Nat) (text : List Char) :
    (∃ p, setKeys bufferSize keyName index1 text = .ok p) ↔
      ∀ w ∈ words (fun c => isEol c || c = '=') (fun temp => trim (cstr temp) = keyName) text, w.Fits := by
  induction hn : text.length using Nat.strong_induction_on generalizing text index1 with
  | _ n ih =>
    subst hn
    cases text with
    | nil => simp [setKeys, words]
    | cons c rest =>
      by_cases hstop : c = '[' ∨ c = '='
      · rw [setKeys, words, if_pos hstop, if_pos hstop]
        simp
      by_cases hskip : isEol c = true ∨ isBlank c = true
      · rw [setKeys, words, if_neg hstop, if_neg hstop, if_pos hskip, if_pos hskip]
        exact ih _ (Nat.lt_succ_self _) index1 rest rfl
      by_cases hnote : c = noteSymbol
      · rw [setKeys, words, if_neg hstop, if_neg hstop, if_neg hskip, if_neg hskip, if_pos hnote, if_pos hnote]
        exact ih _ (Nat.lt_succ_of_le (length_skipLine_le rest)) index1 _ rfl
      rw [forall_words_cons hstop hskip hnote, setKeys, if_neg hstop, if_neg hskip, if_neg hnote]
      unfold setKeyText
      generalize htemp : ((c :: rest).takeWhile fun c => !(isEol c || c = '=')) = temp
      simp only
      split
      · rename_i hdrop
        have hun : Word.unended ⟨temp, []⟩ = true := rfl
        rw [hdrop, exists_ok_ite, fits_of_unended hun, setKeys]
        simp
      · rename_i d behind hdrop
        have hlt := length_dropWhile_lt hdrop
        have hun := unended_cons temp d behind
        rw [hdrop]
        simp only
        by_cases heol : isEol d = true
        · rw [heol] at hun
          rw [if_pos heol, if_pos heol, exists_ok_ite, ih _ hlt index1 behind rfl, fits_of_unended hun]
        · rw [Bool.eq_false_of_not_eq_true heol] at hun
          rw [if_neg heol, if_neg heol, exists_ok_ite, fits_of_ended hun]
          by_cases hfound : trim (cstr temp) = keyName
          · rw [if_pos hfound, if_pos (by simpa using hfound)]
            simp
          · rw [if_neg hfound, if_neg (by simpa using hfound), ih _ ((length_skipLine_le behind).trans_lt hlt) _ _ rfl]

/-! ## The scanners over the sections -/

/-- Each name of a section, up to the one that is looked for, is closed and has room. -/
def HeadersOk (sectionName : List Char) (ok : List Char → Prop) : List (List Char) → Prop
  | [] => True
  | header :: headers => ']' ∈ header ∧ (headerName header).length < nameSize ∧
      if cstr (headerName header) = sectionName then ok (behindHeader header) else HeadersOk sectionName ok headers

theorem setScan_ok_iff {bufferSize : Nat} {sectionName keyName : List Char} (text : List Char) :
    (∃ p, setScan bufferSize sectionName keyName text = .ok p) ↔
      HeadersOk sectionName
        (∀ w ∈ words (fun c => isEol c || c = '=') (fun temp => trim (cstr temp) = keyName) ·, w.Fits)
        (opened text) := by
  fun_induction opened text with
  | case1 => simp [setScan, HeadersOk]
  | case2 rest ih =>
    rw [setScan, if_pos rfl, exists_ok_ite, exists_ok_ite, HeadersOk, Decidable.not_not, Nat.not_le]
    by_cases hname : cstr (headerName rest) = sectionName
    · rw [if_pos hname, if_pos hname, setKeys_ok_iff]
    · rw [if_neg hname, if_neg hname, ih]
  | case3 rest hopen ih =>
    rw [setScan, if_neg hopen, if_pos rfl, ih]
  | case4 c rest hopen hnote ih =>
    rw [setScan, if_neg hopen, if_neg hnote, ih]

/-- The section that is looked for is there. -/
def Found (sectionName : List Char) (headers : List (List Char)) : Prop :=
  ∃ header ∈ headers, cstr (headerName header) = sectionName

/-- The scanner for one key does not look at the position behind the buffer: it finds the section, or the text is
empty or ends with the name of a section. -/
def NotBehind (sectionName text : List Char) : Prop :=
  Found sectionName (getOpened text) ∨ text = [] ∨ ∃ header ∈ (getOpened text).getLast?, behindHeader header = []

/-- The last name of a section is the one in front of the end, or it is in what is behind it. -/
theorem getLast?_header (header : List Char) :
    (behindHeader header = [] ∨ ∃ h ∈ (getOpened (behindHeader header)).getLast?, behindHeader h = []) ↔
      ∃ h ∈ (header :: getOpened (behindHeader header)).getLast?, behindHeader h = [] := by
  cases hrest : getOpened (behindHeader header) with
  | nil => simp
  | cons h headers =>
    have hne : behindHeader header ≠ [] := by
      intro hnil
      rw [hnil, getOpened] at hrest
      cases hrest
    rw [List.getLast?_cons_cons]
    simp [hne]

theorem getScan_safe_iff {sectionName keyName : List Char} {unLen : UInt32} (text : List Char) :
    (∃ r, getScan sectionName keyName unLen text = .ok r ∧ r.looksBehind = false) ↔
      HeadersOk sectionName (∀ w ∈ words endsKey (cstr · = keyName) ·, GetWordOk keyName unLen w) (getOpened text) ∧
        NotBehind sectionName text := by
  unfold NotBehind Found
  fun_induction getOpened text with
  | case1 => simp [getScan, HeadersOk]
  | case2 rest ih =>
    rw [getScan_header]
    by_cases hclosed : ']' ∈ rest
    · by_cases hlen : nameSize ≤ (headerName rest).length
      · simp [hclosed, hlen, HeadersOk]
      rw [if_neg (not_not.mpr hclosed), if_neg hlen, HeadersOk]
      by_cases hname : cstr (headerName rest) = sectionName
      · have hkeys := @getKeys_ok_iff keyName unLen (behindHeader rest)
        have hfound : ∃ header ∈ rest :: getOpened (behindHeader rest), cstr (headerName header) = sectionName :=
          ⟨rest, List.mem_cons_self, hname⟩
        rw [if_pos hname, if_pos hname, ← hkeys]
        simp only [hclosed, Nat.not_le.mp hlen, hfound, true_and, true_or, and_true]
        cases getKeys keyName unLen (behindHeader rest) <;> simp [Except.map]
      · have hfound : (∃ header ∈ rest :: getOpened (behindHeader rest), cstr (headerName header) = sectionName) ↔
            ∃ header ∈ getOpened (behindHeader rest), cstr (headerName header) = sectionName := by simp [hname]
        rw [if_neg hname, if_neg hname, ih, hfound, ← getLast?_header]
        simp [hclosed, Nat.not_le.mp hlen]
    · simp [hclosed, HeadersOk]
  | case3 c hopen =>
    rw [getScan, if_neg hopen]
    simp
  | case4 c hopen rest ih =>
    rw [getScan, if_neg hopen, if_pos rfl]
    by_cases hend : '\n' ∈ rest
    · have hne : rest.dropWhile (· ≠ '\n') ≠ [] := by
        intro hnil
        have := List.dropWhile_eq_nil_iff.mp hnil _ hend
        simp at this
      rw [if_pos hend, ih]
      generalize rest.dropWhile (· ≠ '\n') = text at hne
      simp [hne]
    · have hnil : rest.dropWhile (· ≠ '\n') = [] := by
        rw [List.dropWhile_eq_nil_iff]
        intro c hc
        simpa using ne_of_mem_of_not_mem hc hend
      rw [if_neg hend, hnil, getOpened]
      simp
  | case5 c hopen d rest hnote ih =>
    rw [getScan, if_neg hopen, if_neg hnote, ih]
    simp

/-! ## The scanner for all keys -/

/-- A word at the beginning of a line; and the text of its value, if an `=` or a blank is behind it. -/
structure ListItem where
  name : List Char
  value : Option (List Char)
  deriving DecidableEq, Repr

/-- The words of a section, with their values. -/
def listItems (unLen : UInt32) : List Char → List ListItem
  | [] => []
  | c :: rest =>
    if c = '[' ∨ c = '=' then []
    else if isEol c ∨ isBlank c ∨ 128 ≤ c.toNat then listItems unLen rest
    else if c = noteSymbol then listItems unLen (skipLine rest)
    else
      let name := (c :: rest).takeWhile (!endsKey ·)
      match _h : (c :: rest).dropWhile (!endsKey ·) with
      | [] => [⟨name, none⟩]
      | d :: behind =>
        if isEol d then ⟨name, none⟩ :: listItems unLen behind
        else
          ⟨name, some (valueText ((d :: behind).dropWhile isBlank))⟩ ::
            listItems unLen (behindValue unLen (d :: behind))
termination_by text => text.length
decreasing_by
  · exact Nat.lt_succ_self _
  · exact Nat.lt_succ_of_le (length_skipLine_le rest)
  · exact length_dropWhile_lt _h
  · rename_i hstop hblank _ _
    have hc : (!endsKey c) = true := by
      simp only [endsKey]
      grind
    exact Nat.lt_succ_of_le ((length_behindValue_le unLen _).trans (length_dropWhile_le_tail hc _h))

/-- `temp` with a string, and with characters, at its beginning. -/
def putString (temp s : List Char) : List Char := s ++ '\x00' :: temp.drop (s.length + 1)

def putChars (temp s : List Char) : List Char := s ++ temp.drop s.length

/-- The word has room in `temp` and in `KeyName`; its value fits into the buffer but for blanks, and into `temp`. A
word that is not ended has no 0: what is behind it in `temp` belongs to the name. -/
def ItemOk (unLen : UInt32) (temp : List Char) : ListItem → Prop
  | ⟨name, none⟩ => name.length ≤ tempSize ∧ (cstr (putChars temp name)).length < nameSize
  | ⟨name, some value⟩ => name.length < tempSize ∧ (cstr name).length < nameSize ∧
      ConfLine.Blanks (value.drop (valueRoom unLen)) ∧ (value.take (valueRoom unLen)).length < tempSize

/-- `temp` behind a word. -/
def leftTemp (unLen : UInt32) (temp : List Char) : ListItem → List Char
  | ⟨name, none⟩ => putChars temp name
  | ⟨name, some value⟩ => trimTemp (putString (putString temp name) (value.take (valueRoom unLen)))

def ItemsOk (unLen : UInt32) : List Char → List ListItem → Prop
  | _, [] => True
  | temp, item :: items => ItemOk unLen temp item ∧ ItemsOk unLen (leftTemp unLen temp item) items

section ListKeys

variable {unLen : UInt32} {temp : List Char}

theorem writeString_clear (temp s : List Char) : writeString (clearTemp temp) s =
    if s.length < temp.length then some (putString temp s) else none := by
  rw [writeString, clearTemp, List.length_set, List.drop_set_of_lt (Nat.succ_pos _), putString]

theorem writeChars_clear (temp : List Char) {s : List Char} (hs : s ≠ []) : writeChars (clearTemp temp) s =
    if s.length ≤ temp.length then some (putChars temp s) else none := by
  rw [writeChars, clearTemp, List.length_set, List.drop_set_of_lt (List.length_pos_of_ne_nil hs), putChars]

theorem cstr_putString (temp s : List Char) : cstr (putString temp s) = cstr s := by
  rw [putString, cstr, cstr, List.takeWhile_append]
  split
  · rename_i hlen
    rw [List.takeWhile_cons_of_neg (by simp), List.append_nil]
    exact ((List.takeWhile_prefix _).eq_of_length hlen).symm
  · rfl

theorem length_putString {s : List Char} (h : s.length < temp.length) : (putString temp s).length = temp.length := by
  rw [putString, List.length_append, List.length_cons, List.length_drop]
  omega

theorem length_putChars {s : List Char} (h : s.length ≤ temp.length) : (putChars temp s).length = temp.length := by
  rw [putChars, List.length_append, List.length_drop]
  omega

theorem map_ok_iff {α β : Type} {scan : Scan α} {f : α → β} :
    (∃ out, scan.map f = .ok out) ↔ ∃ out, scan = .ok out := by
  cases scan <;> simp [Except.map]

/-- A word that is not ended. -/
theorem listKeys_unended (htemp : temp.length = tempSize) {c : Char} {rest behind : List Char}
    (hstop : ¬(c = '[' ∨ c = '=')) (hskip : ¬(isEol c = true ∨ isBlank c = true ∨ 128 ≤ c.toNat))
    (hnote : c ≠ noteSymbol)
    {name : List Char} (hname : (c :: rest).takeWhile (!endsKey ·) = name) (hne : name ≠ [])
    (hdrop : (c :: rest).dropWhile (!endsKey ·) = behind) (hbehind : AtEol behind) :
    listKeys unLen temp (c :: rest) =
      if ¬name.length ≤ tempSize then .error .name
      else if ¬(cstr (putChars temp name)).length < nameSize then .error .name
      else listKeys unLen (putChars temp name) behind.tail := by
  rw [listKeys, if_neg hstop, if_neg hskip, if_neg hnote]
  simp only [hname]
  have hwrite := writeChars_clear temp hne
  rw [htemp] at hwrite
  split
  · rename_i hnil
    obtain rfl := hdrop.symm.trans hnil
    rw [hwrite]
    by_cases hlen : name.length ≤ tempSize
    · rw [if_pos hlen, if_neg (not_not.mpr hlen), List.tail_nil, listKeys]
      simp only [Nat.not_lt]
    · rw [if_neg hlen, if_pos hlen]
  · rename_i d behind' hdrop'
    obtain rfl := hdrop.symm.trans hdrop'
    rw [if_pos (hbehind d rfl), hwrite]
    by_cases hlen : name.length ≤ tempSize
    · rw [if_pos hlen, if_neg (not_not.mpr hlen), List.tail_cons]
      simp only [Nat.not_lt]
    · rw [if_neg hlen, if_pos hlen]

theorem listItems_unended {c : Char} {rest behind : List Char}
    (hstop : ¬(c = '[' ∨ c = '=')) (hskip : ¬(isEol c = true ∨ isBlank c = true ∨ 128 ≤ c.toNat))
    (hnote : c ≠ noteSymbol)
    (hdrop : (c :: rest).dropWhile (!endsKey ·) = behind) (hbehind : AtEol behind) :
    listItems unLen (c :: rest) = ⟨(c :: rest).takeWhile (!endsKey ·), none⟩ :: listItems unLen behind.tail := by
  rw [listItems, if_neg hstop, if_neg hskip, if_neg hnote]
  simp only
  split
  · rename_i hnil
    obtain rfl := hdrop.symm.trans hnil
    rw [List.tail_nil, listItems]
  · rename_i d behind' hdrop'
    obtain rfl := hdrop.symm.trans hdrop'
    rw [if_pos (hbehind d rfl), List.tail_cons]

/-- A word that is ended, with its value. -/
theorem listKeys_ended (htemp : temp.length = tempSize) {c d : Char} {rest behind : List Char}
    (hstop : ¬(c = '[' ∨ c = '=')) (hskip : ¬(isEol c = true ∨ isBlank c = true ∨ 128 ≤ c.toNat))
    (hnote : c ≠ noteSymbol)
    {name value : List Char} (hname : (c :: rest).takeWhile (!endsKey ·) = name)
    (hdrop : (c :: rest).dropWhile (!endsKey ·) = d :: behind) (heol : ¬isEol d = true)
    (hvalue : valueText ((d :: behind).dropWhile isBlank) = value) :
    listKeys unLen temp (c :: rest) =
      if ¬name.length < tempSize then .error .name
      else if ¬(cstr name).length < nameSize then .error .name
      else if ¬ConfLine.Blanks (value.drop (valueRoom unLen)) then .error .endless
      else if ¬(value.take (valueRoom unLen)).length < tempSize then .error .name
      else (listKeys unLen (leftTemp unLen temp ⟨name, some value⟩) (behindValue unLen (d :: behind))).map
        (⟨cstr (putString temp name), cstr (leftTemp unLen temp ⟨name, some value⟩)⟩ :: ·) := by
  rw [listKeys, if_neg hstop, if_neg hskip, if_neg hnote]
  simp only [hname]
  split
  · rename_i hnil
    rw [hdrop] at hnil
    cases hnil
  · rename_i d' behind' hdrop'
    obtain ⟨rfl, rfl⟩ := List.cons.inj (hdrop.symm.trans hdrop')
    rw [if_neg heol, writeString_clear, htemp]
    by_cases hlen : name.length < tempSize
    · rw [if_pos hlen, if_neg (not_not.mpr hlen)]
      simp only [cstr_putString]
      by_cases hkey : (cstr name).length < nameSize
      · rw [if_neg (Nat.not_le.mpr hkey), if_neg (not_not.mpr hkey)]
        have heq := @listValue_eq unLen (d :: behind)
        rw [hvalue] at heq
        split
        · rename_i e he
          rw [he] at heq
          split_ifs at heq with hall
          have hnot : ¬ConfLine.Blanks (value.drop (valueRoom unLen)) := mt List.all_eq_true.mpr hall
          rw [if_pos hnot, Except.error.inj heq]
        · rename_i value' behind' hv
          rw [hv] at heq
          split_ifs at heq with hall
          obtain ⟨rfl, rfl⟩ := Prod.mk.inj (Except.ok.inj heq)
          have hblanks : ConfLine.Blanks (value.drop (valueRoom unLen)) := List.all_eq_true.mp hall
          have hlen' := length_putString (htemp ▸ hlen)
          rw [if_neg (not_not.mpr hblanks), writeString_clear, hlen', htemp]
          by_cases hfits : (value.take (valueRoom unLen)).length < tempSize
          · rw [if_pos hfits, if_neg (not_not.mpr hfits)]
            rfl
          · rw [if_neg hfits, if_pos hfits]
      · rw [if_pos (Nat.not_lt.mp hkey), if_pos hkey]
    · rw [if_neg hlen, if_pos hlen]

theorem listItems_ended {c d : Char} {rest behind : List Char}
    (hstop : ¬(c = '[' ∨ c = '=')) (hskip : ¬(isEol c = true ∨ isBlank c = true ∨ 128 ≤ c.toNat))
    (hnote : c ≠ noteSymbol)
    (hdrop : (c :: rest).dropWhile (!endsKey ·) = d :: behind) (heol : ¬isEol d = true) :
    listItems unLen (c :: rest) =
      ⟨(c :: rest).takeWhile (!endsKey ·), some (valueText ((d :: behind).dropWhile isBlank))⟩ ::
        listItems unLen (behindValue unLen (d :: behind)) := by
  rw [listItems, if_neg hstop, if_neg hskip, if_neg hnote]
  simp only
  split
  · rename_i hnil
    rw [hdrop] at hnil
    cases hnil
  · rename_i d' behind' hdrop'
    obtain ⟨rfl, rfl⟩ := List.cons.inj (hdrop.symm.trans hdrop')
    rw [if_neg heol]

theorem listKeys_ok_iff (htemp : temp.length = tempSize) (text : List Char) :
    (∃ keys, listKeys unLen temp text = .ok keys) ↔ ItemsOk unLen temp (listItems unLen text) := by
  induction hn : text.length using Nat.strong_induction_on generalizing text temp with
  | _ n ih =>
    subst hn
    cases text with
    | nil => simp [listKeys, listItems, ItemsOk]
    | cons c rest =>
      by_cases hstop : c = '[' ∨ c = '='
      · rw [listKeys, listItems, if_pos hstop, if_pos hstop]
        simp [ItemsOk]
      by_cases hskip : isEol c = true ∨ isBlank c = true ∨ 128 ≤ c.toNat
      · rw [listKeys, listItems, if_neg hstop, if_neg hstop, if_pos hskip, if_pos hskip]
        exact ih _ (Nat.lt_succ_self _) htemp rest rfl
      by_cases hnote : c = noteSymbol
      · rw [listKeys, listItems, if_neg hstop, if_neg hstop, if_neg hskip, if_neg hskip, if_pos hnote, if_pos hnote]
        exact ih _ (Nat.lt_succ_of_le (length_skipLine_le rest)) htemp _ rfl
      have hc : (!endsKey c) = true := by
        simp only [endsKey]
        grind
      have hne : (c :: rest).takeWhile (!endsKey ·) ≠ [] := by
        have := @List.takeWhile_cons_of_pos _ (!endsKey ·) c rest hc
        rw [this]
        exact List.cons_ne_nil _ _
      by_cases hun : AtEol ((c :: rest).dropWhile (!endsKey ·))
      · have hlt : ((c :: rest).dropWhile (!endsKey ·)).tail.length < (c :: rest).length := by
          rw [List.length_tail]
          have := (List.dropWhile_sublist (l := c :: rest) (!endsKey ·)).length_le
          rw [List.length_cons] at this ⊢
          omega
        rw [listItems_unended hstop hskip hnote rfl hun, listKeys_unended htemp hstop hskip hnote rfl hne rfl hun,
          ItemsOk, ItemOk, leftTemp, exists_ok_ite, exists_ok_ite, Decidable.not_not, Decidable.not_not, and_assoc]
        refine and_congr_right fun hlen => and_congr_right fun _ => ih _ hlt ?_ _ rfl
        exact (length_putChars (htemp ▸ hlen)).trans htemp
      · -- an `=` or a blank is behind the word
        obtain ⟨d, behind, hdrop, heol⟩ :
            ∃ d behind, (c :: rest).dropWhile (!endsKey ·) = d :: behind ∧ ¬isEol d = true := by
          cases hdrop : (c :: rest).dropWhile (!endsKey ·) with
          | nil => exact absurd (hdrop ▸ atEol_nil) hun
          | cons d behind =>
            refine ⟨d, behind, rfl, fun heol => hun ?_⟩
            rw [hdrop]
            simpa [AtEol] using heol
        have hlt := (length_behindValue_le unLen (d :: behind)).trans_lt
          (Nat.lt_succ_of_le (length_dropWhile_le_tail hc hdrop))
        rw [listKeys_ended htemp hstop hskip hnote rfl hdrop heol rfl, listItems_ended hstop hskip hnote hdrop heol,
          ItemsOk, ItemOk, exists_ok_ite, exists_ok_ite, exists_ok_ite, exists_ok_ite, map_ok_iff,
          Decidable.not_not, Decidable.not_not, Decidable.not_not, Decidable.not_not, and_assoc, and_assoc, and_assoc]
        refine and_congr_right fun hlen => and_congr_right fun _ => and_congr_right fun _ =>
          and_congr_right fun hfits => ih _ hlt ?_ _ rfl
        have hlen' := (length_putString (htemp ▸ hlen)).trans htemp
        exact (length_trimTemp _).trans ((length_putString (hlen' ▸ hfits)).trans hlen')

end ListKeys

/-- Each name of a section has room in `temp`, up to the one that is looked for; one that is not closed, without a 0. -/
def ListOk (sectionName : List Char) (unLen : UInt32) : List Char → List (List Char) → Prop
  | _, [] => True
  | temp, header :: headers =>
    if ']' ∈ header then (headerName header).length < tempSize ∧
      if cstr (headerName header) = sectionName then
        ItemsOk unLen (putString temp (headerName header)) (listItems unLen (behindHeader header))
      else ListOk sectionName unLen (putString temp (headerName header)) headers
    else header.length ≤ tempSize

theorem listScan_ok_iff {sectionName : List Char} {unLen : UInt32} {temp : List Char} (htemp : temp.length = tempSize)
    (text : List Char) :
    (∃ keys, listScan sectionName unLen temp text = .ok keys) ↔ ListOk sectionName unLen temp (opened text) := by
  fun_induction opened text generalizing temp with
  | case1 => simp [listScan, ListOk]
  | case2 rest ih =>
    rw [listScan, if_pos rfl, ListOk]
    by_cases hclosed : ']' ∈ rest
    · rw [if_neg (not_not.mpr hclosed), if_pos hclosed, writeString_clear, htemp]
      by_cases hlen : (headerName rest).length < tempSize
      · have htemp' := (length_putString (htemp ▸ hlen)).trans htemp
        rw [if_pos hlen]
        simp only [cstr_putString, hlen, true_and]
        by_cases hname : cstr (headerName rest) = sectionName
        · rw [if_pos hname, if_pos hname, listKeys_ok_iff htemp']
        · rw [if_neg hname, if_neg hname, ih htemp']
      · rw [if_neg hlen]
        simp [hlen]
    · rw [if_pos hclosed, if_neg hclosed, writeChars, length_clearTemp, htemp]
      by_cases hlen : rest.length ≤ tempSize
      · rw [if_pos hlen]
        simp [hlen]
      · rw [if_neg hlen]
        simp [hlen]
  | case3 rest hopen ih =>
    rw [listScan, if_neg hopen, if_pos rfl, ih htemp]
  | case4 c rest hopen hnote ih =>
    rw [listScan, if_neg hopen, if_neg hnote, ih htemp]

/-! ## All three -/

/-- The scanners end, read in the buffer only, and write into their buffers only. -/
structure Safe (sectionName keyName : List Char) (unLen : UInt32) (text : List Char) : Prop where
  get : ∃ r, getScan sectionName keyName unLen text = .ok r ∧ r.looksBehind = false
  list : ∃ keys, getList sectionName unLen text = .ok keys
  set : ∃ p, setScan text.length sectionName keyName text = .ok p

/-- What is asked of a text. -/
structure Readable (sectionName keyName : List Char) (unLen : UInt32) (text : List Char) : Prop where
  get : HeadersOk sectionName (∀ w ∈ words endsKey (cstr · = keyName) ·, GetWordOk keyName unLen w) (getOpened text)
  notBehind : NotBehind sectionName text
  list : ListOk sectionName unLen (List.replicate tempSize '\x00') (opened text)
  set : HeadersOk sectionName
    (∀ w ∈ words (fun c => isEol c || c = '=') (fun temp => trim (cstr temp) = keyName) ·, w.Fits) (opened text)

/-- The scanners are safe exactly for these texts. -/
theorem safe_iff_readable (sectionName keyName : List Char) (unLen : UInt32) (text : List Char) :
    Safe sectionName keyName unLen text ↔ Readable sectionName keyName unLen text := by
  have hget := @getScan_safe_iff sectionName keyName unLen text
  have hlist := @listScan_ok_iff sectionName unLen _ (@List.length_replicate _ tempSize '\x00') text
  have hset := @setScan_ok_iff text.length sectionName keyName text
  constructor
  · rintro ⟨hgetSafe, hlistSafe, hsetSafe⟩
    obtain ⟨hheaders, hbehind⟩ := hget.mp hgetSafe
    exact ⟨hheaders, hbehind, hlist.mp hlistSafe, hset.mp hsetSafe⟩
  · rintro ⟨hheaders, hbehind, hlistOk, hsetOk⟩
    exact ⟨hget.mpr ⟨hheaders, hbehind⟩, hlist.mpr hlistOk, hset.mpr hsetOk⟩

/-- Not for a name that is not closed: `[s`. -/
theorem not_safe_unclosed : ¬∀ (sectionName keyName : List Char) (unLen : UInt32) (text : List Char),
    Safe sectionName keyName unLen text := by
  intro hall
  obtain ⟨p, hp⟩ := (hall ['s'] ['k'] 128 ['[', 's']).set
  rw [setScan, if_pos rfl, if_pos (by decide)] at hp
  cases hp

end AllCamera.CacConfig
