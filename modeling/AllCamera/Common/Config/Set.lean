import AllCamera.Common.Config.Place

/-!
# A value that is set, and what `get` returns then

`set` writes the file anew from two or three pieces of the old text, and the value or the line between them.

* `Admitted`: names and a value that fit. `Sets`: `get` returns the value then, and the old ones for all other keys.
* `set_matched`, `set_unmatched`, `set_absent`: the new text, in the three cases.
* `Replaceable`: an old value that is replaced. `OnLineEnd`: a new line does not cut another one.
* `sets_of_setOk`, `setOk_of_sets`.
-/

namespace AllCamera.CacConfig

/-- A character of a value. -/
def valueChar (c : Char) : Bool := !(isEol c || isBlank c || c = '[' || c = noteSymbol || c = '#' || c = '\x00')

/-- Names and a value without separators, and short enough. -/
structure Admitted (t : ConfText) (sectionName keyName keyValue : List Char) : Prop where
  sectionName_ne : sectionName ≠ []
  keyName_ne : keyName ≠ []
  keyValue_ne : keyValue ≠ []
  okSectionName : ∀ c ∈ sectionName, ConfLine.sectionChar c = true
  okKeyName : ∀ c ∈ keyName, ConfLine.nameChar c = true
  okKeyValue : ∀ c ∈ keyValue, valueChar c = true
  sectionName_fits : sectionName.length < nameSize
  keyName_fits : keyName.length < nameSize
  keyValue_fits : keyValue.length < lineSize
  newKey_fits : t.value sectionName keyName = none → keyName.length + keyValue.length + 3 < lineSize
  newSection_fits : t.body sectionName = none →
    sectionName.length + keyName.length + keyValue.length + (if t.chars = [] then 7 else 9) ≤ lineSize

/-- `set` succeeds; then `get` returns the value, and what it returned before for all other keys. -/
def Sets (seekDefault : Whence) (sectionName keyName keyValue text : List Char) : Prop :=
  ∃ text', set seekDefault sectionName keyName keyValue text = .ok (true, text') ∧
    (∀ unLen, keyValue.length ≤ valueRoom unLen → get sectionName keyName unLen text' = .ok (some keyValue)) ∧
    ∀ other otherKey, (other, otherKey) ≠ (sectionName, keyName) → ∀ unLen,
      get other otherKey unLen text' = get other otherKey unLen text

/-! ## The file -/

theorem strncpy_of_le {src : List Char} {n : Nat} (hn : n ≤ src.length) (hnul : ∀ c ∈ src, c ≠ '\x00') :
    strncpy src n = src.take n := by
  have hcstr : cstr (src.take n) = src.take n := cstr_eq_self fun c hc => hnul c (List.mem_of_mem_take hc)
  rw [strncpy, hcstr, List.length_take, Nat.min_eq_left hn, Nat.sub_self]
  exact List.append_nil _

/-- At the end of the file `send` appends. -/
theorem send_end {data : List Char} (bytes : List Char) :
    AceFile.send ⟨data, data.length⟩ bytes = ⟨data ++ bytes, (data ++ bytes).length⟩ := by
  simp [AceFile.send, List.drop_of_length_le]

/-- At the end of the file `seek` by nothing stays there, if it does not start from the beginning. -/
theorem seek_end {whence : Whence} (h : whence ≠ .seekSet) (data : List Char) :
    AceFile.seek ⟨data, data.length⟩ whence = ⟨data, data.length⟩ := by
  cases whence with
  | seekSet => exact absurd rfl h
  | seekCur => rfl
  | seekEnd => rfl

/-- Behind the old offset of an empty file there is a hole. -/
theorem exists_hole {whence : Whence} (h : whence ≠ .seekSet) (data bytes : List Char) :
    ∃ n, ((AceFile.truncate ⟨data, data.length⟩).seek whence).send bytes =
      ⟨List.replicate n '\x00' ++ bytes, (List.replicate n '\x00' ++ bytes).length⟩ := by
  cases whence with
  | seekSet => exact absurd rfl h
  | seekCur => exact ⟨data.length, by simp [AceFile.truncate, AceFile.seek, AceFile.send]⟩
  | seekEnd => exact ⟨0, by simp [AceFile.truncate, AceFile.seek, AceFile.send]⟩

/-! ## The new text -/

section NewText

variable {seekDefault : Whence} {sectionName keyName keyValue buffer before skipped behind : List Char} {d : Char}
  {p : SetParam}

/-- What is asked of the arguments in any text. -/
structure Given (sectionName keyName keyValue : List Char) : Prop where
  sectionName_ne : sectionName ≠ []
  keyName_ne : keyName ≠ []
  keyValue_ne : keyValue ≠ []
  keyValue_fits : keyValue.length < lineSize

theorem Given.take (h : Given sectionName keyName keyValue) : keyValue.take (lineSize - 1) = keyValue :=
  List.take_of_length_le (Nat.le_sub_one_of_lt h.keyValue_fits)

theorem Given.ne (h : Given sectionName keyName keyValue) :
    ¬(sectionName = [] ∨ keyName = [] ∨ keyValue.take (lineSize - 1) = []) := by
  rw [h.take]
  rintro (hnil | hnil | hnil)
  · exact h.sectionName_ne hnil
  · exact h.keyName_ne hnil
  · exact h.keyValue_ne hnil

/-- The text behind a character, as it is written back. -/
theorem strncpy_behind (hnul : ∀ c ∈ buffer, c ≠ '\x00') (hbuffer : buffer = before ++ d :: (skipped ++ behind)) :
    strncpy (buffer.drop (before.length + 1)) (buffer.length - (before.length + 1)) = skipped ++ behind := by
  have hdrop : buffer.drop (before.length + 1) = skipped ++ behind := by
    rw [hbuffer, List.drop_append, List.drop_of_length_le (Nat.le_succ _), Nat.add_sub_cancel_left]
    rfl
  rw [strncpy_of_le (by rw [List.length_drop]) fun c hc => hnul c (List.mem_of_mem_drop hc),
    List.take_of_length_le (by rw [List.length_drop]), hdrop]

/-- The key is there: its value goes from `index1` up to the last character that is no line end and no tab. -/
theorem set_matched (h : Given sectionName keyName keyValue) (hnul : ∀ c ∈ buffer, c ≠ '\x00')
    (hscan : setScan buffer.length sectionName keyName buffer = .ok p) (hp : p.keyMatched = true)
    (hindex1 : p.index1 ≤ buffer.length) (hbuffer : buffer = before ++ d :: (skipped ++ behind)) (hbefore : before ≠ [])
    (hd : (isEol d || d = '\t') = false) (hskipped : ∀ c ∈ skipped, (isEol c || c = '\t') = true)
    (hindex2 : p.index2 = before.length + skipped.length + 1) :
    set seekDefault sectionName keyName keyValue buffer =
      .ok (true, buffer.take p.index1 ++ keyValue ++ (skipped ++ behind)) := by
  have hback := @backOver_append (fun c => isEol c || c = '\t') before skipped d hbefore hd hskipped behind
  rw [← hbuffer] at hback
  have hthird := strncpy_behind hnul hbuffer
  rw [set, if_neg h.ne, hscan, h.take]
  simp only [hp, if_true, hindex2, Nat.add_sub_cancel, hback, Nat.add_eq_zero_iff, Nat.one_ne_zero, and_false, if_false,
    hthird, strncpy_of_le hindex1 hnul, AceFile.truncate, AceFile.seek]
  rw [show (AceFile.mk [] 0) = ⟨[], ([] : List Char).length⟩ from rfl, send_end, send_end, send_end, List.nil_append]

/-- The section is there, but not the key: a line is put behind the last character that is no line end. -/
theorem set_unmatched (hseek : seekDefault ≠ .seekSet) (h : Given sectionName keyName keyValue)
    (hfits : keyName.length + keyValue.length + 3 < lineSize) (hnul : ∀ c ∈ buffer, c ≠ '\x00')
    (hscan : setScan buffer.length sectionName keyName buffer = .ok p) (hsection : p.sectionMatched = true)
    (hp : p.keyMatched = false) (hbuffer : buffer = before ++ d :: (skipped ++ behind)) (hbefore : before ≠ [])
    (hd : isEol d = false) (hskipped : ∀ c ∈ skipped, isEol c = true)
    (hindex2 : p.index2 = before.length + skipped.length + 2) :
    ∃ n, set seekDefault sectionName keyName keyValue buffer =
      .ok (true, List.replicate n '\x00' ++
        (before ++ [d] ++ (['\r', '\n'] ++ keyName ++ '=' :: keyValue) ++ (skipped ++ behind))) := by
  have hback := backOver_append hbefore hd hskipped behind
  rw [← hbuffer] at hback
  have hindex : backOver isEol buffer (before.length + skipped.length) + 2 = before.length + 1 := congrArg (· + 1) hback
  have hlen : before.length + 1 ≤ buffer.length := by
    rw [hbuffer, List.length_append, List.length_cons]
    omega
  have htake : buffer.take (before.length + 1) = before ++ [d] := by
    rw [hbuffer, List.take_append, List.take_of_length_le (Nat.le_succ _), Nat.add_sub_cancel_left]
    rfl
  have hthird := strncpy_behind hnul hbuffer
  obtain ⟨n, hhole⟩ := exists_hole hseek buffer (before ++ [d])
  refine ⟨n, ?_⟩
  rw [set, if_neg h.ne, hscan, h.take]
  simp only [hp, hsection, Bool.false_eq_true, if_false, if_true, hindex2, Nat.add_sub_cancel, hindex,
    if_neg (Nat.not_le.mpr hfits), hthird, strncpy_of_le hlen hnul, htake, hhole, seek_end hseek, send_end]
  simp

/-- There is no such section: it is appended, with a 0 for the last line end. -/
theorem set_absent (h : Given sectionName keyName keyValue)
    (hfits : sectionName.length + keyName.length + keyValue.length + (if buffer = [] then 7 else 9) ≤ lineSize)
    (hscan : setScan buffer.length sectionName keyName buffer = .ok p) (hsection : p.sectionMatched = false)
    (hp : p.keyMatched = false) :
    set seekDefault sectionName keyName keyValue buffer =
      .ok (true, buffer ++ ((if buffer = [] then [] else ['\r', '\n']) ++ '[' :: (sectionName ++ [']']) ++
        ['\r', '\n'] ++ keyName ++ '=' :: keyValue) ++ ['\r', '\x00']) := by
  have hzero (line : List Char) : (line ++ ['\r', '\n']).dropLast ++ ['\x00'] = line ++ ['\r', '\x00'] := by
    rw [List.dropLast_append_of_ne_nil (by simp), List.append_assoc]
    rfl
  rw [set, if_neg h.ne, hscan, h.take]
  simp only [hp, hsection, Bool.false_eq_true, if_false, AceFile.seek]
  rw [if_neg (by split at hfits <;> simp_all <;> omega), send_end, hzero]
  simp

end NewText

/-! ## What `get` makes of the new value -/

section Shown

variable {keyValue behind text : List Char} {unLen : UInt32}

theorem valueChar_ne {c : Char} (h : valueChar c = true) : isEol c = false ∧ isBlank c = false ∧ c ≠ '[' ∧
    c ≠ noteSymbol ∧ c ≠ '#' ∧ c ≠ '\x00' := by
  simpa [valueChar, and_assoc] using h

/-- A value ends with the line or a comment, or with the buffer. -/
theorem readValue_take (htext : ∀ c ∈ text, isEol c = false ∧ c ≠ noteSymbol)
    (hbehind : ∀ c ∈ behind.head?, (isEol c || c = noteSymbol) = true) (room : Nat) :
    readValue room true (text ++ behind) = text.take room := by
  induction text generalizing room with
  | nil =>
    cases behind with
    | nil => simp [readValue]
    | cons c behind =>
      have hc := hbehind c rfl
      cases room with
      | zero => simp [readValue]
      | succ room =>
        rw [List.nil_append, readValue, if_pos (by simpa using hc), List.take_nil]
  | cons c text ih =>
    obtain ⟨hc, htext⟩ := List.forall_mem_cons.mp htext
    cases room with
    | zero => simp [readValue]
    | succ room =>
      rw [List.cons_append, readValue, if_neg (by simp [hc]), if_neg (by simp), if_neg (by simp), ih htext,
        List.take_succ_cons]

theorem trim_append_of (hvalue : ∀ c ∈ keyValue, isBlank c = false ∧ isEol c = false) (hne : keyValue ≠ [])
    (htext : ∀ c ∈ text, isBlank c = true ∨ isEol c = true) : trim (keyValue ++ text) = keyValue := by
  have htrim : trimEnd (keyValue ++ text) = keyValue :=
    trimEnd_append_of (fun c hc => hvalue c (List.mem_of_getLast? hc)) htext
  cases keyValue with
  | nil => exact absurd rfl hne
  | cons c keyValue =>
    have hc := (hvalue c List.mem_cons_self).1
    rw [List.cons_append] at htrim ⊢
    rw [trim, List.takeWhile_cons_of_neg (by simp [hc]), List.dropWhile_cons_of_neg (by simp [hc]), htrim,
      List.nil_append]

theorem rtrim_eq_self (h : ∀ c ∈ text, c ≠ ' ' ∧ c ≠ '#' ∧ c ≠ noteSymbol) : rtrim text = text := by
  have htake (p : Char) (hp : ∀ c ∈ text, c ≠ p) : text.takeWhile (· ≠ p) = text :=
    List.takeWhile_eq_self_iff.mpr (by simpa using hp)
  rw [rtrim, htake ' ' fun c hc => (h c hc).1, htake '#' fun c hc => (h c hc).2.1,
    htake noteSymbol fun c hc => (h c hc).2.2]

theorem shown_eq (htext : ∀ c ∈ text, ConfLine.lineChar c = true ∧ c ≠ noteSymbol)
    (hbehind : ∀ c ∈ behind.head?, (isEol c || c = noteSymbol) = true) :
    shown unLen (text ++ behind) =
      if trim (text.take (valueRoom unLen)) = [] then none else some (rtrim (trim (text.take (valueRoom unLen)))) := by
  have hread := readValue_take (fun c hc => ⟨(lineChar_ne (htext c hc).1).1, (htext c hc).2⟩) hbehind (valueRoom unLen)
  have hcstr : cstr (text.take (valueRoom unLen)) = text.take (valueRoom unLen) :=
    cstr_eq_self fun c hc => (lineChar_ne (htext c (List.mem_of_mem_take hc)).1).2
  rw [shown, hread, hcstr]

/-- Blanks behind the value make no difference. -/
theorem shown_blanks (hvalue : ∀ c ∈ keyValue, valueChar c = true) (hne : keyValue ≠ [])
    (htext : ConfLine.Blanks text) (hbehind : ∀ c ∈ behind.head?, (isEol c || c = noteSymbol) = true)
    (hroom : keyValue.length ≤ valueRoom unLen) : shown unLen (keyValue ++ text ++ behind) = some keyValue := by
  have hchars : ∀ c ∈ keyValue ++ text, ConfLine.lineChar c = true ∧ c ≠ noteSymbol := by
    refine List.forall_mem_append.mpr ⟨fun c hc => ?_, fun c hc => ?_⟩
    · obtain ⟨heol, -, -, hnote, -, hnul⟩ := valueChar_ne (hvalue c hc)
      exact ⟨by simp [ConfLine.lineChar, heol, hnul], hnote⟩
    · exact ⟨(isBlank_ne (htext c hc)).1, (isBlank_ne (htext c hc)).2.2.1⟩
  have htake : (keyValue ++ text).take (valueRoom unLen) =
      keyValue ++ text.take (valueRoom unLen - keyValue.length) := by
    rw [List.take_append, List.take_of_length_le hroom]
  have htrim : trim ((keyValue ++ text).take (valueRoom unLen)) = keyValue := by
    rw [htake]
    refine trim_append_of (fun c hc => ?_) hne fun c hc => .inl (htext c (List.mem_of_mem_take hc))
    obtain ⟨heol, hblank, -⟩ := valueChar_ne (hvalue c hc)
    exact ⟨hblank, heol⟩
  have hrtrim : rtrim keyValue = keyValue := rtrim_eq_self fun c hc => by
    obtain ⟨-, hblank, -, hnote, hhash, -⟩ := valueChar_ne (hvalue c hc)
    refine ⟨?_, hhash, hnote⟩
    rintro rfl
    revert hblank
    decide
  rw [shown_eq hchars hbehind, htrim, if_neg hne, hrtrim]

/-- Another character behind the value is seen, if the buffer has room for it. -/
theorem shown_char (hvalue : ∀ c ∈ keyValue, valueChar c = true) (hne : keyValue ≠ []) {tabs : List Char}
    (htabs : ∀ c ∈ tabs, c = '\t') {z : Char} (hz : ConfLine.lineChar z = true) (hblank : isBlank z = false)
    (hnote : z ≠ noteSymbol) (hbehind : ∀ c ∈ behind.head?, (isEol c || c = noteSymbol) = true)
    (hroom : keyValue.length + tabs.length + 1 ≤ valueRoom unLen) :
    shown unLen (keyValue ++ (tabs ++ [z]) ++ behind) =
      some (if z = '#' then keyValue ++ tabs else keyValue ++ (tabs ++ [z])) := by
  have hfront : ∀ c ∈ keyValue ++ tabs, ConfLine.lineChar c = true ∧ c ≠ noteSymbol ∧ c ≠ ' ' ∧ c ≠ '#' := by
    refine List.forall_mem_append.mpr ⟨fun c hc => ?_, fun c hc => ?_⟩
    · obtain ⟨heol, hblank, -, hnote, hhash, hnul⟩ := valueChar_ne (hvalue c hc)
      refine ⟨by simp [ConfLine.lineChar, heol, hnul], hnote, ?_, hhash⟩
      rintro rfl
      revert hblank
      decide
    · rw [htabs c hc]
      decide
  have hspace : z ≠ ' ' := by
    rintro rfl
    revert hblank
    decide
  have hchars : ∀ c ∈ keyValue ++ (tabs ++ [z]), ConfLine.lineChar c = true ∧ c ≠ noteSymbol := by
    rw [← List.append_assoc]
    refine List.forall_mem_append.mpr ⟨fun c hc => ⟨(hfront c hc).1, (hfront c hc).2.1⟩, ?_⟩
    simpa using ⟨hz, hnote⟩
  have htake : (keyValue ++ (tabs ++ [z])).take (valueRoom unLen) = keyValue ++ (tabs ++ [z]) := by
    apply List.take_of_length_le
    simpa [Nat.add_assoc] using hroom
  have htrim : trim (keyValue ++ (tabs ++ [z])) = keyValue ++ (tabs ++ [z]) := by
    have hend : trimEnd (keyValue ++ (tabs ++ [z])) = keyValue ++ (tabs ++ [z]) := by
      have := @trimEnd_append_of (keyValue ++ (tabs ++ [z])) []
        (by simp [← List.append_assoc, hblank, (lineChar_ne hz).1]) (by simp)
      rwa [List.append_nil] at this
    cases keyValue with
    | nil => exact absurd rfl hne
    | cons c keyValue =>
      have hc := (valueChar_ne (hvalue c List.mem_cons_self)).2.1
      rw [List.cons_append] at hend ⊢
      rw [trim, List.takeWhile_cons_of_neg (by simp [hc]), List.dropWhile_cons_of_neg (by simp [hc]), hend,
        List.nil_append]
  have hrtrim : rtrim (keyValue ++ (tabs ++ [z])) =
      if z = '#' then keyValue ++ tabs else keyValue ++ (tabs ++ [z]) := by
    by_cases hhash : z = '#'
    · subst hhash
      have hstop (p : Char) (hp : ∀ c ∈ keyValue ++ tabs, c ≠ p) :
          (keyValue ++ tabs).takeWhile (· ≠ p) = keyValue ++ tabs :=
        List.takeWhile_eq_self_iff.mpr (by simpa using hp)
      have hspaces : (keyValue ++ (tabs ++ ['#'])).takeWhile (· ≠ ' ') = keyValue ++ (tabs ++ ['#']) := by
        apply List.takeWhile_eq_self_iff.mpr
        rw [← List.append_assoc]
        exact List.forall_mem_append.mpr ⟨fun c hc => by simpa using (hfront c hc).2.2.1, by simp⟩
      have hhash : (keyValue ++ (tabs ++ ['#'])).takeWhile (· ≠ '#') = keyValue ++ tabs := by
        rw [← List.append_assoc]
        exact takeWhile_append_of_atEol (fun c hc => by simpa using (hfront c hc).2.2.2) (by simp)
      rw [rtrim, hspaces, hhash, hstop noteSymbol fun c hc => (hfront c hc).2.1, if_pos rfl]
    · rw [if_neg hhash]
      apply rtrim_eq_self
      rw [← List.append_assoc]
      refine List.forall_mem_append.mpr ⟨fun c hc => ⟨(hfront c hc).2.2.1, (hfront c hc).2.2.2, (hfront c hc).2.1⟩, ?_⟩
      simpa using ⟨hspace, hhash, hnote⟩
  rw [shown_eq hchars hbehind, htake, htrim, if_neg (by simp), hrtrim]

end Shown

/-! ## A key that is there -/

theorem Admitted.given {t : ConfText} {sectionName keyName keyValue : List Char}
    (h : Admitted t sectionName keyName keyValue) : Given sectionName keyName keyValue :=
  ⟨h.sectionName_ne, h.keyName_ne, h.keyValue_ne, h.keyValue_fits⟩

/-- The new text is one of lines again, and only the key has another value: what `get` makes of it decides. -/
theorem sets_iff_shown {seekDefault : Whence} {sectionName keyName keyValue text' raw : List Char} {t t' : ConfText}
    (ht : t.Ok) (hset : set seekDefault sectionName keyName keyValue t.chars = .ok (true, text'))
    (hget : ∀ other otherKey unLen, get other otherKey unLen text' = returned unLen (t'.value other otherKey))
    (hvalue : t'.value sectionName keyName = some raw)
    (hothers : ∀ other otherKey, (other, otherKey) ≠ (sectionName, keyName) →
      t'.value other otherKey = t.value other otherKey)
    (hne : keyValue ≠ []) :
    Sets seekDefault sectionName keyName keyValue t.chars ↔
      ∀ unLen, keyValue.length ≤ valueRoom unLen → shown unLen raw = some keyValue := by
  have hreturned (unLen : UInt32) (hroom : keyValue.length ≤ valueRoom unLen) :
      get sectionName keyName unLen text' = .ok (shown unLen raw) := by
    rw [hget, hvalue, returned, if_neg]
    rintro rfl
    exact hne (List.length_eq_zero_iff.mp (Nat.le_zero.mp hroom))
  constructor
  · rintro ⟨text'', hset', hkey, -⟩ unLen hroom
    obtain rfl : text' = text'' := congrArg Prod.snd (Except.ok.inj (hset.symm.trans hset'))
    have := (hreturned unLen hroom).symm.trans (hkey unLen hroom)
    exact Except.ok.inj this
  · intro hshown
    refine ⟨text', hset, fun unLen hroom => ?_, fun other otherKey hne unLen => ?_⟩
    · rw [hreturned unLen hroom, hshown unLen hroom]
    · have htext := get_text ht endOfText_nil other otherKey unLen
      rw [List.append_nil] at htext
      rw [hget, hothers other otherKey hne, htext]

/-- Where the value of a key is in a text, and what other values there make of the text. -/
structure RawAt (t : ConfText) (sectionName keyName raw front : List Char) (rest : ConfLines) : Prop where
  chars : t.chars = front ++ '=' :: (raw ++ rest.chars)
  scan : setScan t.chars.length sectionName keyName t.chars =
    .ok ⟨t.chars.length - (raw ++ rest.chars).length, setValue t.chars.length (raw ++ rest.chars), true, true⟩
  name : ∃ before d tabs, front = before ++ d :: tabs ∧ before ≠ [] ∧ (isEol d || d = '\t') = false ∧
    ∀ c ∈ tabs, c = '\t'
  okRaw : ∀ c ∈ raw, ConfLine.lineChar c = true
  closed : ConfLine.Closed raw
  change : ∀ raw', (∀ c ∈ raw', ConfLine.lineChar c = true) → ConfLine.Closed raw' → ∃ t' : ConfText, t'.Ok ∧
    t'.chars = front ++ '=' :: (raw' ++ rest.chars) ∧ t'.value sectionName keyName = some raw' ∧
    ∀ other otherKey, (other, otherKey) ≠ (sectionName, keyName) → t'.value other otherKey = t.value other otherKey

/-- The first key of that name in its section is in the last line. -/
def isLastKey (keyName : List Char) : ConfLines → Bool
  | [] => false
  | (_, .header _ _ _) :: _ => false
  | (_, .key _ name _ _) :: lines => if name = keyName then lines.isEmpty else isLastKey keyName lines
  | (_, .empty _) :: lines | (_, .comment _ _) :: lines => isLastKey keyName lines

theorem isLastKey_append {keyName : List Char} {before : ConfLines} (h : NoHeader before)
    (hnone : valueIn keyName before = none) (e : Eol) (indent gap raw : List Char) (rest : ConfLines) :
    isLastKey keyName (before ++ (e, .key indent keyName gap raw) :: rest) = rest.isEmpty := by
  induction before with
  | nil =>
    rw [List.nil_append, isLastKey, if_pos rfl]
  | cons l before ih =>
    obtain ⟨e', l⟩ := l
    obtain ⟨hl, hbefore⟩ := List.forall_mem_cons.mp h
    cases l with
    | header indent name behind => cases hl
    | empty indent => exact ih hbefore hnone
    | comment indent text => exact ih hbefore hnone
    | key indent name gap raw =>
      rw [valueIn] at hnone
      split at hnone
      · cases hnone
      · rename_i hname
        rw [List.cons_append, isLastKey, if_neg hname]
        exact ih hbefore hnone

/-- The tabs at the end of a text, and the character in front of them. -/
theorem exists_tabs {text : List Char} (h : ∃ c ∈ text, isEol c = false ∧ c ≠ '\t')
    (htext : ∀ c ∈ text, isEol c = false) :
    ∃ before d tabs, text = before ++ d :: tabs ∧ (isEol d || d = '\t') = false ∧ ∀ c ∈ tabs, c = '\t' := by
  have hall : ¬∀ c ∈ text, (isEol c || c = '\t') = true := by
    obtain ⟨c, hc, heol, htab⟩ := h
    intro hall
    simpa [heol, htab] using hall c hc
  obtain ⟨before, d, tabs, rfl, hd, htabs⟩ := exists_last hall
  refine ⟨before, d, tabs, rfl, hd, fun c hc => ?_⟩
  have heol := htext c (List.mem_append_right before (List.mem_cons_of_mem d hc))
  simpa [heol] using htabs c hc

theorem exists_rawAt {t : ConfText} (ht : t.Ok) {sectionName keyName raw : List Char} {body : ConfLines}
    (hbody : t.body sectionName = some body) (hraw : valueIn keyName body = some raw) :
    ∃ front rest, RawAt t sectionName keyName raw front rest ∧ isLastKey keyName body = rest.isEmpty := by
  obtain ⟨front, d, hchars, hfront, -, hchange⟩ := ht.exists_change hbody
  have hok := ht.body hbody
  obtain ⟨before, e, indent, gap, rest, rfl, hbefore, hnone⟩ := exists_value hraw
  obtain ⟨hbeforeOk, hkeys⟩ := List.forall_mem_append.mp hok
  obtain ⟨hkey, hrest⟩ := List.forall_mem_cons.mp hkeys
  have hkey : ConfLine.OkKey indent keyName gap raw := hkey
  have hlines (raw' : List Char) : front ++ d :: ConfLines.chars (before ++ (e, .key indent keyName gap raw') :: rest) =
      front ++ d :: (before.chars ++ (e.chars ++ (indent ++ (keyName ++ gap)))) ++
        '=' :: (raw' ++ ConfLines.chars rest) := by
    rw [chars_append, ConfLines.chars_cons]
    simp [ConfLine.chars]
  refine ⟨front ++ d :: (before.chars ++ (e.chars ++ (indent ++ (keyName ++ gap)))), rest,
    ⟨hchars.trans (hlines raw), ?_, ?_, hkey.okRaw, hkey.closed, ?_⟩,
    isLastKey_append hbefore hnone e indent gap raw rest⟩
  · -- the scan
    obtain ⟨index1, hscan⟩ := @setKeys_lines t.chars.length 0 keyName _ before hbeforeOk hbefore hnone
      (e.atEol ((ConfLine.key indent keyName gap raw).chars ++ ConfLines.chars rest))
    rw [setScan_text ht, hbody, place, chars_append, ConfLines.chars_cons, hscan, setKeys_passes.eol,
      setKeys_key hkey (atEol_lines rest), if_pos rfl]
  · -- the name of the key
    obtain ⟨c, name, rfl⟩ := List.exists_cons_of_ne_nil hkey.ne_nil
    obtain ⟨heol, hblank, -⟩ := nameChar_ne (hkey.okName c List.mem_cons_self)
    have htab : c ≠ '\t' := by
      rintro rfl
      revert hblank
      decide
    obtain ⟨before', d', tabs, happ, hd', htabs⟩ := @exists_tabs (c :: name ++ gap) ⟨c, List.mem_cons_self, heol, htab⟩
      (List.forall_mem_append.mpr ⟨fun c hc => (nameChar_ne (hkey.okName c hc)).1,
        fun c hc => (isBlank_ne (hkey.okGap c hc)).2.2.2⟩)
    refine ⟨front ++ d :: (before.chars ++ (e.chars ++ (indent ++ before'))), d', tabs, ?_, by simp, hd', htabs⟩
    rw [happ]
    simp
  · -- another value
    intro raw' hraw' hclosed'
    have hkey' : ConfLine.OkKey indent keyName gap raw' := { hkey with okRaw := hraw', closed := hclosed' }
    obtain ⟨t', ht', hchars', hbody', hothers⟩ := hchange (before ++ (e, .key indent keyName gap raw') :: rest)
      (List.forall_mem_append.mpr ⟨hbeforeOk, List.forall_mem_cons.mpr ⟨hkey', hrest⟩⟩)
    refine ⟨t', ht', hchars'.trans (hlines raw'), ?_, fun other otherKey hne => ?_⟩
    · rw [ConfText.value, hbody', Option.bind_some, valueIn_append keyName hbefore, hnone, valueIn, if_pos rfl]
      rfl
    · by_cases hother : other = sectionName
      · have hname : ¬keyName = otherKey := fun hname => hne (by rw [hother, hname])
        rw [ConfText.value, ConfText.value, hother, hbody', hbody, Option.bind_some, Option.bind_some,
          valueIn_append otherKey hbefore, valueIn_append otherKey hbefore, valueIn, valueIn, if_neg hname,
          if_neg hname]
      · apply hothers other hother
        rw [bodyIn_append, bodyIn_append, bodyIn_of_noHeader other hbefore]
        rfl

section Cut

variable {seekDefault : Whence} {sectionName keyName keyValue raw front before tabs behind : List Char} {d : Char}
  {t : ConfText} {rest : ConfLines}

/-- What is left of the old value is between the new one and the comment. -/
theorem sets_iff_cut (ht : t.Ok) (hadm : Admitted t sectionName keyName keyValue)
    (hat : RawAt t sectionName keyName raw front rest) (hbuffer : t.chars = before ++ d :: (tabs ++ behind))
    (hbefore : before ≠ []) (hd : (isEol d || d = '\t') = false) (htabs : ∀ c ∈ tabs, c = '\t')
    (hindex2 : setValue t.chars.length (raw ++ rest.chars) = before.length + tabs.length + 1) {left comment : List Char}
    (hcut : tabs ++ behind = left ++ (comment ++ rest.chars))
    (hleft : ∀ c ∈ left, ConfLine.lineChar c = true ∧ c ≠ '[') (hcomment : Passed comment) :
    Sets seekDefault sectionName keyName keyValue t.chars ↔
      ∀ unLen, keyValue.length ≤ valueRoom unLen → shown unLen (keyValue ++ left ++ comment) = some keyValue := by
  have hpassed : Passed (keyValue ++ left ++ comment) := by
    rw [List.append_assoc]
    refine passed_append (fun c hc => ?_) (passed_append hleft hcomment)
    obtain ⟨heol, -, hopen, -, -, hnul⟩ := valueChar_ne (hadm.okKeyValue c hc)
    exact ⟨by simp [ConfLine.lineChar, heol, hnul], hopen⟩
  obtain ⟨t', ht', hchars', hvalue', hothers'⟩ := hat.change _ hpassed.1 hpassed.2
  have hskipped : ∀ c ∈ tabs, (isEol c || c = '\t') = true := fun c hc => by simp [htabs c hc]
  have hindex1 : t.chars.length - (raw ++ ConfLines.chars rest).length = (front ++ ['=']).length := by
    rw [hat.chars]
    simp only [List.length_append, List.length_cons, List.length_nil]
    omega
  have htake : t.chars.take (t.chars.length - (raw ++ ConfLines.chars rest).length) = front ++ ['='] := by
    rw [hindex1, hat.chars, List.take_append, List.take_of_length_le (by simp)]
    simp
  have hset := @set_matched seekDefault sectionName keyName keyValue t.chars before tabs behind d _ hadm.given ht.ne_nul
    hat.scan rfl (Nat.sub_le _ _) hbuffer hbefore hd hskipped hindex2
  have htext : t.chars.take (t.chars.length - (raw ++ ConfLines.chars rest).length) ++ keyValue ++ (tabs ++ behind) =
      t'.chars := by
    rw [htake, hcut, hchars']
    simp
  rw [htext] at hset
  refine sets_iff_shown ht hset (fun other otherKey unLen => ?_) hvalue' hothers' hadm.keyValue_ne
  have := get_text ht' endOfText_nil other otherKey unLen
  rwa [List.append_nil] at this

/-- The largest length of a buffer. -/
def maxLen : UInt32 := 0x7fffffff

/-- A character behind the new value is seen in a large buffer. -/
theorem not_shown_char (hvalue : ∀ c ∈ keyValue, valueChar c = true) (hne : keyValue ≠ [])
    (htabs : ∀ c ∈ tabs, c = '\t') {z : Char} (hz : ConfLine.lineChar z = true) (hblank : isBlank z = false)
    (hnote : z ≠ noteSymbol) (hbehind : ∀ c ∈ behind.head?, (isEol c || c = noteSymbol) = true)
    (hroom : keyValue.length + tabs.length + 1 ≤ valueRoom maxLen) (hhash : z = '#' → tabs ≠ []) :
    ¬∀ unLen, keyValue.length ≤ valueRoom unLen →
      shown unLen (keyValue ++ (tabs ++ [z]) ++ behind) = some keyValue := by
  intro hall
  have hshown := hall maxLen (by omega)
  rw [shown_char hvalue hne htabs hz hblank hnote hbehind hroom, Option.some.injEq] at hshown
  split at hshown
  · rename_i hz
    exact hhash hz (List.append_right_eq_self.mp hshown)
  · have := List.append_right_eq_self.mp hshown
    simp at this

/-- The `#` behind the new value is not. -/
theorem shown_hash (hvalue : ∀ c ∈ keyValue, valueChar c = true) (hne : keyValue ≠ [])
    (hbehind : ∀ c ∈ behind.head?, (isEol c || c = noteSymbol) = true) {unLen : UInt32}
    (hroom : keyValue.length ≤ valueRoom unLen) : shown unLen (keyValue ++ ['#'] ++ behind) = some keyValue := by
  by_cases hlt : keyValue.length + 1 ≤ valueRoom unLen
  · have hshown := @shown_char keyValue behind unLen hvalue hne [] (by simp) '#' (by decide) (by decide) (by decide)
      hbehind hlt
    rw [if_pos rfl, List.append_nil] at hshown
    exact hshown
  · have hchars : ∀ c ∈ keyValue, ConfLine.lineChar c = true ∧ c ≠ noteSymbol := fun c hc => by
      obtain ⟨heol, -, -, hnote, -, hnul⟩ := valueChar_ne (hvalue c hc)
      exact ⟨by simp [ConfLine.lineChar, heol, hnul], hnote⟩
    have heq : valueRoom unLen = keyValue.length := by omega
    have hblanks := shown_blanks hvalue hne (List.forall_mem_nil _) hbehind hroom
    rw [List.append_nil, shown_eq hchars hbehind, heq, List.take_length] at hblanks
    rw [shown_eq (List.forall_mem_append.mpr ⟨hchars, List.forall_mem_singleton.mpr (by decide)⟩) hbehind, heq,
      List.take_left]
    exact hblanks

end Cut

/-- An old value that is replaced: at the end of the file its last character stays. -/
def Replaceable (raw : List Char) (last : Bool) : Prop :=
  if last = true ∧ noteSymbol ∉ raw then
    ∃ front z, raw = front ++ [z] ∧ ¬ConfLine.Blanks raw ∧ (isBlank z = true ∨ z = '#' ∧ front.getLast? ≠ some '\t')
  else raw.takeWhile (· ≠ noteSymbol) ≠ []

section Value

variable {seekDefault : Whence} {sectionName keyName keyValue raw front : List Char} {t : ConfText} {rest : ConfLines}

/-- The value that is replaced, and the comment behind it. -/
theorem RawAt.exists_comment (hat : RawAt t sectionName keyName raw front rest) :
    ∃ value comment, raw = value ++ comment ∧ value = raw.takeWhile (· ≠ noteSymbol) ∧
      (∀ c ∈ value, ConfLine.lineChar c = true ∧ c ≠ '[' ∧ c ≠ noteSymbol) ∧
      Passed comment ∧ (∀ c ∈ comment.head?, (isEol c || c = noteSymbol) = true) ∧
      (comment = [] ↔ noteSymbol ∉ raw) := by
  have happ : raw = raw.takeWhile (· ≠ noteSymbol) ++ raw.dropWhile (· ≠ noteSymbol) :=
    List.takeWhile_append_dropWhile.symm
  have hnote : ∀ c ∈ (raw.dropWhile (· ≠ noteSymbol)).head?, c = noteSymbol := by
    intro c hc
    have := List.head?_dropWhile_not (· ≠ noteSymbol) raw
    rw [Option.mem_def.mp hc] at this
    simpa using this
  refine ⟨_, _, happ, rfl, fun c hc => ⟨?_, ?_, ?_⟩, ⟨fun c hc => ?_, ?_⟩, fun c hc => ?_, ?_⟩
  · exact hat.okRaw c ((List.takeWhile_sublist _).subset hc)
  · rintro rfl
    exact hat.closed hc
  · simpa using List.mem_takeWhile_imp hc
  · exact hat.okRaw c ((List.dropWhile_sublist _).subset hc)
  · rw [ConfLine.Closed]
    cases hdrop : raw.dropWhile (· ≠ noteSymbol) with
    | nil => simp
    | cons c comment =>
      obtain rfl := hnote c (by rw [hdrop]; rfl)
      rw [List.takeWhile_cons_of_neg (by decide)]
      exact List.not_mem_nil
  · simp [hnote c hc]
  · rw [List.dropWhile_eq_nil_iff]
    constructor
    · intro hall hmem
      simpa using hall _ hmem
    · intro hmem c hc
      simpa using ne_of_mem_of_not_mem hc hmem

theorem chars_eq_nil {lines : ConfLines} : lines.chars = [] ↔ lines.isEmpty = true := by
  cases lines with
  | nil => simp
  | cons l lines =>
    obtain ⟨e, l⟩ := l
    cases e <;> simp [ConfLines.chars_cons, Eol.chars]

theorem blanks_iff_all {text : List Char} : text.all isBlank = true ↔ ConfLine.Blanks text := List.all_eq_true

/-- In front of the last character of a value: the `=` or a character of it, and tabs. -/
theorem exists_tabs_equals {value : List Char} (hvalue : ∀ c ∈ value, isEol c = false) :
    ∃ before d tabs, '=' :: value = before ++ d :: tabs ∧ (isEol d || d = '\t') = false ∧ (∀ c ∈ tabs, c = '\t') ∧
      (tabs = [] ↔ value.getLast? ≠ some '\t') := by
  obtain ⟨before, d, tabs, happ, hd, htabs⟩ := @exists_tabs ('=' :: value)
    ⟨'=', List.mem_cons_self, by decide, by decide⟩ (List.forall_mem_cons.mpr ⟨by decide, hvalue⟩)
  refine ⟨before, d, tabs, happ, hd, htabs, ?_⟩
  have hlast := congrArg List.getLast? happ
  rw [List.getLast?_cons, List.getLast?_append_cons, List.getLast?_cons, Option.some.injEq] at hlast
  constructor
  · rintro rfl htab
    rw [htab] at hlast
    obtain rfl : '\t' = d := hlast
    simp at hd
  · intro htab
    cases htabs' : tabs.getLast? with
    | none => exact List.getLast?_eq_none_iff.mp htabs'
    | some c =>
      obtain rfl := htabs c (List.mem_of_getLast? htabs')
      rw [htabs'] at hlast
      cases hvalue' : value.getLast? with
      | none =>
        rw [hvalue'] at hlast
        cases hlast
      | some c =>
        rw [hvalue'] at hlast htab
        exact absurd (congrArg some hlast) htab

theorem blanks_tabs {tabs : List Char} (htabs : ∀ c ∈ tabs, c = '\t') : ConfLine.Blanks tabs := by
  intro c hc
  rw [htabs c hc]
  decide

variable (ht : t.Ok) (hadm : Admitted t sectionName keyName keyValue) (hat : RawAt t sectionName keyName raw front rest)
include ht hadm hat

/-- `set` leaves the last character of the old value, with the tabs in front of it. -/
theorem sets_iff_last {value comment : List Char} {z : Char} (hraw : raw = value ++ [z] ++ comment)
    (hcomment : Passed comment)
    (hvalue : ∀ c ∈ value ++ [z], ConfLine.lineChar c = true ∧ c ≠ '[' ∧ c ≠ noteSymbol)
    (hindex2 : setValue t.chars.length (raw ++ rest.chars) = front.length + value.length + 1) :
    ∃ tabs : List Char, (∀ c ∈ tabs, c = '\t') ∧ (tabs = [] ↔ value.getLast? ≠ some '\t') ∧
      tabs.length ≤ value.length ∧ (Sets seekDefault sectionName keyName keyValue t.chars ↔
        ∀ unLen, keyValue.length ≤ valueRoom unLen →
          shown unLen (keyValue ++ (tabs ++ [z]) ++ comment) = some keyValue) := by
  obtain ⟨hvalue, hz⟩ := List.forall_mem_append.mp hvalue
  obtain ⟨before, d, tabs, happ, hd, htabs, htabs_iff⟩ := exists_tabs_equals fun c hc => (lineChar_ne (hvalue c hc).1).1
  have hlen := congrArg List.length happ
  simp only [List.length_append, List.length_cons] at hlen
  refine ⟨tabs, htabs, htabs_iff, by omega, ?_⟩
  have hfront : front ≠ [] := by
    obtain ⟨before', d', tabs', rfl, -⟩ := hat.name
    simp
  have hbuffer : t.chars = (front ++ before) ++ d :: (tabs ++ ([z] ++ (comment ++ ConfLines.chars rest))) := by
    have : t.chars = front ++ ('=' :: value) ++ ([z] ++ (comment ++ ConfLines.chars rest)) := by
      rw [hat.chars, hraw]
      simp
    rw [this, happ]
    simp
  refine sets_iff_cut ht hadm hat hbuffer (by simp [hfront]) hd htabs ?_ (by simp) ?_ hcomment
  · rw [hindex2, List.length_append]
    omega
  · refine List.forall_mem_append.mpr ⟨fun c hc => ?_, fun c hc => ⟨(hz c hc).1, (hz c hc).2.1⟩⟩
    rw [htabs c hc]
    decide

/-- At the end of the file: there is no value, or its last character stays. -/
theorem replaceable_last (hvalue : ∀ c ∈ raw, ConfLine.lineChar c = true ∧ c ≠ '[' ∧ c ≠ noteSymbol)
    (hlast : rest.isEmpty = true ∧ noteSymbol ∉ raw) :
    Replaceable raw rest.isEmpty ∧ Sets seekDefault sectionName keyName keyValue t.chars ∨
      ¬Replaceable raw rest.isEmpty ∧
        (t.chars.length + lineSize ≤ valueRoom maxLen → ¬Sets seekDefault sectionName keyName keyValue t.chars) := by
  have hne := hadm.keyValue_ne
  have hfits := hadm.keyValue_fits
  have hend : ConfLines.chars rest = [] := chars_eq_nil.mpr hlast.1
  have hhead : ∀ c ∈ ([] : List Char).head?, (isEol c || c = noteSymbol) = true := nofun
  have hindex2 := @setValue_append t.chars.length raw [] (fun c hc => by
    simp [(lineChar_ne (hvalue c hc).1).1, (hvalue c hc).2.2]) hhead
  have hlen := congrArg List.length hat.chars
  rw [hend, List.append_nil] at hlen
  rw [if_pos rfl] at hindex2
  rw [Replaceable, if_pos hlast]
  by_cases hall : ConfLine.Blanks raw
  · -- there is no value: `index2` is 0
    refine .inr ⟨fun ⟨_, _, _, hblanks, _⟩ => hblanks hall, fun _ hsets => ?_⟩
    obtain ⟨text', hset, -⟩ := hsets
    rw [if_pos (blanks_iff_all.mpr hall)] at hindex2
    rw [set, if_neg hadm.given.ne, hat.scan, hend] at hset
    simp only [if_true, hindex2] at hset
    cases hset
  · obtain ⟨value, z, rfl⟩ : ∃ value z, raw = value ++ [z] := by
      have hraw : raw ≠ [] := by
        rintro rfl
        exact hall (List.forall_mem_nil _)
      exact ⟨_, _, (List.dropLast_append_getLast hraw).symm⟩
    rw [if_neg (mt blanks_iff_all.mp hall)] at hindex2
    simp only [List.length_append, List.length_cons, List.length_nil] at hlen
    obtain ⟨tabs, htabs, htabs_iff, hle, hsets⟩ := @sets_iff_last seekDefault _ _ _ _ _ _ _ ht hadm hat value [] z
      (List.append_nil _).symm passed_nil hvalue (by rw [hend, hindex2, hlen]; simp; omega)
    obtain ⟨hzLine, -, hzNote⟩ := hvalue z (List.mem_append_right value (List.mem_singleton_self z))
    by_cases hz : isBlank z = true
    · refine .inl ⟨⟨value, z, rfl, hall, .inl hz⟩, hsets.mpr fun unLen hroom => ?_⟩
      refine shown_blanks hadm.okKeyValue hne (List.forall_mem_append.mpr ⟨blanks_tabs htabs, ?_⟩) hhead hroom
      simpa using hz
    · by_cases hhash : z = '#' ∧ tabs = []
      · obtain ⟨rfl, rfl⟩ := hhash
        refine .inl ⟨⟨value, '#', rfl, hall, .inr ⟨rfl, htabs_iff.mp rfl⟩⟩, hsets.mpr fun unLen hroom => ?_⟩
        exact shown_hash hadm.okKeyValue hne hhead hroom
      · refine .inr ⟨?_, fun hsize => mt hsets.mp ?_⟩
        · rintro ⟨front', z', heq, -, hz' | ⟨hz', htab⟩⟩
          · obtain ⟨-, hzz⟩ := List.append_inj' heq rfl
            rw [← (List.cons.inj hzz).1] at hz'
            exact hz hz'
          · obtain ⟨rfl, hzz⟩ := List.append_inj' heq rfl
            exact hhash ⟨(List.cons.inj hzz).1.trans hz', htabs_iff.mpr htab⟩
        · refine not_shown_char hadm.okKeyValue hne htabs hzLine (Bool.eq_false_of_not_eq_true hz) hzNote hhead ?_ ?_
          · omega
          · exact fun hz hnil => hhash ⟨hz, hnil⟩

section Comment

variable {value comment behind : List Char} {x : Char}

/-- An empty value, with a comment or a line end behind it: the `=` stays. -/
theorem not_sets_noValue (hcomment : Passed raw) (hhead : ∀ c ∈ raw.head?, (isEol c || c = noteSymbol) = true)
    (hbehind : raw ++ ConfLines.chars rest = x :: behind)
    (hindex2 : setValue t.chars.length (raw ++ rest.chars) = t.chars.length - behind.length - 2)
    (hsize : t.chars.length + lineSize ≤ valueRoom maxLen) :
    ¬Sets seekDefault sectionName keyName keyValue t.chars := by
  have hfits := hadm.keyValue_fits
  have hlen := congrArg List.length hat.chars
  rw [hbehind] at hlen
  obtain ⟨before, d, tabs, rfl, hbefore, hd, htabs⟩ := hat.name
  have hbuffer : t.chars = before ++ d :: (tabs ++ ('=' :: (raw ++ ConfLines.chars rest))) := by
    rw [hat.chars]
    simp
  have hleft : ∀ c ∈ tabs ++ ['='], ConfLine.lineChar c = true ∧ c ≠ '[' := by
    refine List.forall_mem_append.mpr ⟨fun c hc => ?_, List.forall_mem_singleton.mpr (by decide)⟩
    rw [htabs c hc]
    decide
  simp only [List.length_append, List.length_cons] at hlen
  have hsets := @sets_iff_cut seekDefault sectionName keyName keyValue raw _ before tabs _ d t rest ht hadm hat
    hbuffer hbefore hd htabs (by rw [hindex2]; omega) (tabs ++ ['=']) raw (by simp) hleft hcomment
  refine mt hsets.mp ?_
  exact not_shown_char hadm.okKeyValue hadm.keyValue_ne htabs (by decide) (by decide) (by decide) hhead (by omega)
    fun h => absurd h (by decide)

/-- A value of blanks, with a comment or a line end behind it: the last of them stays. -/
theorem sets_blanks (hraw : raw = value ++ comment) (hnil : value ≠ [])
    (hall : ConfLine.Blanks value) (hvalue : ∀ c ∈ value, ConfLine.lineChar c = true ∧ c ≠ '[' ∧ c ≠ noteSymbol)
    (hcomment : Passed comment) (hhead : ∀ c ∈ comment.head?, (isEol c || c = noteSymbol) = true)
    (hbehind : comment ++ ConfLines.chars rest = x :: behind)
    (hindex2 : setValue t.chars.length (raw ++ rest.chars) = t.chars.length - behind.length - 2) :
    Sets seekDefault sectionName keyName keyValue t.chars := by
  have hlen := congrArg List.length hat.chars
  rw [hraw, List.append_assoc, hbehind] at hlen
  simp only [List.length_append, List.length_cons] at hlen
  obtain ⟨value, z, rfl⟩ : ∃ value' z, value = value' ++ [z] := ⟨_, _, (List.dropLast_append_getLast hnil).symm⟩
  obtain ⟨tabs, htabs, -, -, hsets⟩ := @sets_iff_last seekDefault _ _ _ _ _ _ _ ht hadm hat value comment z hraw
    hcomment hvalue (by rw [hindex2, hlen]; simp; omega)
  refine hsets.mpr fun unLen hroom => shown_blanks hadm.okKeyValue hadm.keyValue_ne ?_ hhead hroom
  refine List.forall_mem_append.mpr ⟨blanks_tabs htabs, fun c hc => ?_⟩
  exact hall c (List.mem_append_right value hc)

/-- Any other value, with a comment or a line end behind it: the tabs at its end stay. -/
theorem sets_chars (hraw : raw = value ++ comment) (hall : ¬ConfLine.Blanks value)
    (hvalue : ∀ c ∈ value, ConfLine.lineChar c = true ∧ c ≠ '[' ∧ c ≠ noteSymbol)
    (hcomment : Passed comment) (hhead : ∀ c ∈ comment.head?, (isEol c || c = noteSymbol) = true)
    (hbehind : comment ++ ConfLines.chars rest = x :: behind)
    (hindex2 : setValue t.chars.length (raw ++ rest.chars) = t.chars.length - behind.length - 1) :
    Sets seekDefault sectionName keyName keyValue t.chars := by
  have hlen := congrArg List.length hat.chars
  rw [hraw, List.append_assoc, hbehind] at hlen
  have hchar : ∃ c ∈ value, isEol c = false ∧ c ≠ '\t' := by
    by_contra hno
    refine hall fun c hc => ?_
    have heol := (lineChar_ne (hvalue c hc).1).1
    by_contra hblank
    refine hno ⟨c, hc, heol, ?_⟩
    rintro rfl
    exact hblank (by decide)
  obtain ⟨before, d, tabs, rfl, hd, htabs⟩ := exists_tabs hchar fun c hc => (lineChar_ne (hvalue c hc).1).1
  have hbuffer : t.chars = (front ++ '=' :: before) ++ d :: (tabs ++ (comment ++ ConfLines.chars rest)) := by
    rw [hat.chars, hraw]
    simp
  have hleft : ∀ c ∈ tabs, ConfLine.lineChar c = true ∧ c ≠ '[' := fun c hc => by
    rw [htabs c hc]
    decide
  simp only [List.length_append, List.length_cons] at hlen
  have hsets := @sets_iff_cut seekDefault sectionName keyName keyValue raw front _ tabs _ d t rest ht hadm hat hbuffer
    (by simp) hd htabs (by rw [hindex2]; simp; omega) tabs comment rfl hleft hcomment
  exact hsets.mpr fun unLen hroom =>
    shown_blanks hadm.okKeyValue hadm.keyValue_ne (blanks_tabs htabs) hhead hroom

end Comment

theorem replaceable_cases :
    Replaceable raw rest.isEmpty ∧ Sets seekDefault sectionName keyName keyValue t.chars ∨
      ¬Replaceable raw rest.isEmpty ∧
        (t.chars.length + lineSize ≤ valueRoom maxLen → ¬Sets seekDefault sectionName keyName keyValue t.chars) := by
  obtain ⟨value, comment, hraw, hvalueEq, hvalue, hcomment, hhead, hnote⟩ := hat.exists_comment
  by_cases hend : comment ++ ConfLines.chars rest = []
  · obtain ⟨hnil, hrest⟩ := List.append_eq_nil_iff.mp hend
    rw [hnil, List.append_nil] at hraw
    rw [← hraw] at hvalue
    exact replaceable_last ht hadm hat hvalue ⟨chars_eq_nil.mp hrest, hnote.mp hnil⟩
  · -- a comment or a line end is behind the value
    have hlast : ¬(rest.isEmpty = true ∧ noteSymbol ∉ raw) := by
      rintro ⟨hrest, hmem⟩
      exact hend (List.append_eq_nil_iff.mpr ⟨hnote.mpr hmem, chars_eq_nil.mpr hrest⟩)
    have hstop : ∀ c ∈ (comment ++ ConfLines.chars rest).head?, (isEol c || c = noteSymbol) = true := by
      cases comment with
      | nil =>
        intro c hc
        simp [atEol_lines rest c hc]
      | cons c comment => exact hhead
    have hindex2 := @setValue_append t.chars.length value (comment ++ ConfLines.chars rest) (fun c hc => by
      simp [(lineChar_ne (hvalue c hc).1).1, (hvalue c hc).2.2]) hstop
    obtain ⟨x, behind, hbehind⟩ := List.exists_cons_of_ne_nil hend
    rw [if_neg hend, ← List.append_assoc, ← hraw, hbehind, List.tail_cons] at hindex2
    rw [Replaceable, if_neg hlast, ← hvalueEq]
    by_cases hnil : value = []
    · subst hnil
      subst hraw
      exact .inr ⟨fun h => h rfl, not_sets_noValue ht hadm hat hcomment hhead hbehind hindex2⟩
    · refine .inl ⟨hnil, ?_⟩
      by_cases hall : ConfLine.Blanks value
      · rw [if_pos (blanks_iff_all.mpr hall)] at hindex2
        exact sets_blanks ht hadm hat hraw hnil hall hvalue hcomment hhead hbehind hindex2
      · rw [if_neg (mt blanks_iff_all.mp hall)] at hindex2
        exact sets_chars ht hadm hat hraw hall hvalue hcomment hhead hbehind hindex2

end Value

/-! ## A new key in a section -/

/-- One of the last two characters in front of the `[` of the next section, or in front of the last character of the
text, is a line end: a new line does not cut another one. -/
def OnLineEnd (body : ConfLines) : Prop := ∃ c ∈ (frontOf body).reverse.take 2, isEol c = true

/-- The line ends that are put behind the new line. -/
theorem exists_lineEnds {text : List Char} (h : ∃ c ∈ text.reverse.take 2, isEol c = true) :
    ∃ before skipped c, text = before ++ (skipped ++ [c]) ∧ (∀ c ∈ before.getLast?, isEol c = false) ∧
      (∀ c ∈ skipped, isEol c = true) ∧ AtEol (skipped ++ [c]) := by
  obtain ⟨c, hc, heol⟩ := h
  have hne : text ≠ [] := by
    rintro rfl
    simp at hc
  obtain ⟨text, last, rfl⟩ : ∃ text' last, text = text' ++ [last] := ⟨_, _, (List.dropLast_append_getLast hne).symm⟩
  by_cases hall : ∀ c ∈ text, isEol c = true
  · refine ⟨[], text, last, rfl, by simp, hall, ?_⟩
    cases text with
    | nil =>
      obtain rfl : c = last := by simpa using hc
      simpa [AtEol] using heol
    | cons d text =>
      intro c' hc'
      obtain rfl : d = c' := Option.some.inj hc'
      exact hall d List.mem_cons_self
  · obtain ⟨before, d, skipped, rfl, hd, hskipped⟩ := exists_last hall
    refine ⟨before ++ [d], skipped, last, by simp, by simpa using hd, hskipped, ?_⟩
    cases skipped with
    | nil =>
      rcases (by simpa using hc : c = last ∨ c = d) with rfl | rfl
      · simpa [AtEol] using heol
      · rw [hd] at heol
        cases heol
    | cons e skipped =>
      intro c' hc'
      obtain rfl : e = c' := Option.some.inj hc'
      exact hskipped e List.mem_cons_self

section NewKey

variable {seekDefault : Whence} {sectionName keyName keyValue : List Char} {t : ConfText}

theorem Admitted.okKey (hadm : Admitted t sectionName keyName keyValue) : (ConfLine.key [] keyName [] keyValue).Ok where
  okIndent := List.forall_mem_nil _
  ne_nil := hadm.keyName_ne
  okName := hadm.okKeyName
  okGap := List.forall_mem_nil _
  fits := hadm.keyName_fits
  okRaw c hc := by
    obtain ⟨heol, -, -, -, -, hnul⟩ := valueChar_ne (hadm.okKeyValue c hc)
    simp [ConfLine.lineChar, heol, hnul]
  closed hmem := (valueChar_ne (hadm.okKeyValue _ ((List.takeWhile_sublist _).subset hmem))).2.2.1 rfl

theorem Admitted.okHeader (hadm : Admitted t sectionName keyName keyValue) :
    (ConfLine.header [] sectionName []).Ok where
  okIndent := List.forall_mem_nil _
  okName := hadm.okSectionName
  okBehind := List.forall_mem_nil _
  fits := hadm.sectionName_fits

/-- `get` shows the value of a new line as it is. -/
theorem Admitted.shown (hadm : Admitted t sectionName keyName keyValue) {unLen : UInt32}
    (hroom : keyValue.length ≤ valueRoom unLen) : shown unLen keyValue = some keyValue := by
  have := @shown_blanks keyValue [] [] unLen hadm.okKeyValue hadm.keyValue_ne (List.forall_mem_nil _) (by simp) hroom
  rwa [List.append_nil, List.append_nil] at this

/-- A new line in a section, for the values. -/
theorem value_newKey {t t' : ConfText} {sectionName keyName keyValue : List Char} {before after : ConfLines}
    (hbody : t.body sectionName = some (before ++ after)) (hbefore : NoHeader before)
    (hnone : valueIn keyName (before ++ after) = none)
    (hbody' : t'.body sectionName = some (before ++ (.crlf, .key [] keyName [] keyValue) :: after))
    (hothers : ∀ other, other ≠ sectionName →
      bodyIn other (before ++ (.crlf, .key [] keyName [] keyValue) :: after) = bodyIn other (before ++ after) →
      ∀ otherKey, t'.value other otherKey = t.value other otherKey) :
    t'.value sectionName keyName = some keyValue ∧
      ∀ other otherKey, (other, otherKey) ≠ (sectionName, keyName) →
        t'.value other otherKey = t.value other otherKey := by
  rw [valueIn_append keyName hbefore, Option.or_eq_none_iff] at hnone
  constructor
  · rw [ConfText.value, hbody', Option.bind_some, valueIn_append keyName hbefore, hnone.1, valueIn, if_pos rfl]
    rfl
  · intro other otherKey hne
    by_cases hother : other = sectionName
    · have hname : ¬keyName = otherKey := fun hname => hne (by rw [hother, hname])
      rw [ConfText.value, ConfText.value, hother, hbody', hbody, Option.bind_some, Option.bind_some,
        valueIn_append otherKey hbefore, valueIn_append otherKey hbefore, valueIn, if_neg hname]
    · apply hothers other hother
      rw [bodyIn_append, bodyIn_append, bodyIn_of_noHeader other hbefore]
      rfl

theorem sets_newKey (hseek : seekDefault ≠ .seekSet) (ht : t.Ok) (hadm : Admitted t sectionName keyName keyValue)
    {body : ConfLines} (hbody : t.body sectionName = some body) (hnone : valueIn keyName body = none)
    (hline : OnLineEnd body) : Sets seekDefault sectionName keyName keyValue t.chars := by
  obtain ⟨front, d, hchars, hfrontNe, hd, hchange⟩ := ht.exists_change hbody
  have hok := ht.body hbody
  have hfront : frontOf body ≠ [] := by
    intro hnil
    obtain ⟨c, hc, -⟩ := hline
    rw [hnil] at hc
    simp at hc
  obtain ⟨rest, p, hrest, hscan, hsection, hkey, hindex2, hown⟩ := exists_front hok hnone hfront t.chars.length 0
  obtain ⟨kept, skipped, c, hcut, hkept, hskipped, hatEol⟩ := exists_lineEnds hline
  -- the new line is between two lines
  have hsplit : body.chars = kept ++ (skipped ++ [c] ++ rest) := by
    rw [hrest, hcut, List.append_assoc]
  have hatEol' : AtEol (skipped ++ [c] ++ rest) := by
    intro x hx
    apply hatEol
    cases skipped with
    | nil => exact hx
    | cons y skipped => exact hx
  obtain ⟨before, after, rfl, hbefore, hafter⟩ := exists_split hok hsplit hkept hatEol'
  have hnoHeader : NoHeader before := hown before after rfl (by rw [hbefore, hcut]; simp)
  obtain ⟨hbeforeOk, hafterOk⟩ := List.forall_mem_append.mp hok
  obtain ⟨t', ht', hchars', hbody', hothers⟩ := hchange (before ++ (.crlf, .key [] keyName [] keyValue) :: after)
    (List.forall_mem_append.mpr ⟨hbeforeOk, List.forall_mem_cons.mpr ⟨hadm.okKey, hafterOk⟩⟩)
  obtain ⟨hvalue, hvalues⟩ := value_newKey hbody hnoHeader hnone hbody' hothers
  -- the last character that is no line end
  obtain ⟨before', d', hbefore', hd', hne⟩ : ∃ before' d', front ++ d :: kept = before' ++ [d'] ∧ isEol d' = false ∧
      before' ≠ [] := by
    rcases List.eq_nil_or_concat kept with rfl | ⟨kept', d', rfl⟩
    · exact ⟨front, d, rfl, hd, hfrontNe⟩
    · rw [List.concat_eq_append] at hkept ⊢
      exact ⟨front ++ d :: kept', d', by simp, hkept d' (by simp), by simp⟩
  have hbuffer : t.chars = before' ++ d' :: (skipped ++ ([c] ++ rest)) := by
    have : t.chars = (front ++ d :: kept) ++ (skipped ++ ([c] ++ rest)) := by
      rw [hchars, hsplit]
      simp
    rw [this, hbefore']
    simp
  have hindex : p.index2 = before'.length + skipped.length + 2 := by
    rw [hindex2, hbuffer]
    simp only [List.length_append, List.length_cons, List.length_nil]
    omega
  have hfits := hadm.newKey_fits (by rw [ConfText.value, hbody, Option.bind_some, hnone])
  rw [← place, ← hbody, ← setScan_text ht] at hscan
  obtain ⟨n, hset⟩ := set_unmatched hseek hadm.given hfits ht.ne_nul hscan hsection hkey hbuffer hne hd' hskipped hindex
  have htext :
      before' ++ [d'] ++ (['\r', '\n'] ++ keyName ++ '=' :: keyValue) ++ (skipped ++ ([c] ++ rest)) = t'.chars := by
    rw [hchars', chars_append, ConfLines.chars_cons, hbefore, hafter, ← hbefore']
    simp [Eol.chars, ConfLine.chars]
  rw [htext] at hset
  refine (sets_iff_shown ht hset (fun other otherKey unLen => ?_) hvalue hvalues hadm.keyValue_ne).mpr fun _ hroom =>
    hadm.shown hroom
  have hget := get_text ht' endOfText_nil other otherKey unLen
  rwa [List.append_nil, get_eq, ← getOut_hole ht' other otherKey unLen n, ← get_eq] at hget

/-! ## A new section -/

/-- The lines that are put behind a text. -/
def newLines (sectionName keyName keyValue : List Char) : ConfLines :=
  [(.crlf, .header [] sectionName []), (.crlf, .key [] keyName [] keyValue)]

theorem chars_eq_nil_of_text {t : ConfText} (h : t.chars = []) : t = ⟨.empty [], []⟩ := by
  obtain ⟨first, rest⟩ := t
  obtain ⟨hfirst, hrest⟩ := List.append_eq_nil_iff.mp h
  obtain rfl : rest = [] := List.isEmpty_iff.mp (chars_eq_nil.mp hrest)
  cases first with
  | empty indent =>
    obtain rfl : indent = [] := hfirst
    rfl
  | comment indent text => simp [ConfLine.chars] at hfirst
  | header indent name behind => simp [ConfLine.chars] at hfirst
  | key indent name gap raw => simp [ConfLine.chars] at hfirst

/-- A text with the new section, and its sections. -/
theorem exists_newText (ht : t.Ok) (hadm : Admitted t sectionName keyName keyValue) : ∃ t' : ConfText, t'.Ok ∧
    t'.chars = t.chars ++ ((if t.chars = [] then [] else ['\r', '\n']) ++ '[' :: (sectionName ++ [']']) ++
      ['\r', '\n'] ++ keyName ++ '=' :: keyValue) ∧
    ∀ other, t'.body other = ((t.body other).map (· ++ newLines sectionName keyName keyValue)).or
      (bodyIn other (newLines sectionName keyName keyValue)) := by
  by_cases hnil : t.chars = []
  · obtain rfl := chars_eq_nil_of_text hnil
    refine ⟨⟨.header [] sectionName [], [(.crlf, .key [] keyName [] keyValue)]⟩, ?_, ?_, fun other => rfl⟩
    · exact ⟨hadm.okHeader, fun _ h => (by cases h), List.forall_mem_singleton.mpr hadm.okKey⟩
    · rw [if_pos hnil, hnil]
      simp [ConfText.chars, ConfLine.chars, ConfLines.chars, Eol.chars]
  · refine ⟨⟨t.first, t.rest ++ newLines sectionName keyName keyValue⟩, ⟨ht.first, ht.closed, ?_⟩, ?_, fun other => ?_⟩
    · refine List.forall_mem_append.mpr ⟨ht.rest, List.forall_mem_cons.mpr ⟨hadm.okHeader, ?_⟩⟩
      exact List.forall_mem_singleton.mpr hadm.okKey
    · rw [if_neg hnil, ConfText.chars, chars_append, ConfText.chars]
      simp [newLines, ConfLine.chars, ConfLines.chars, Eol.chars]
    · exact bodyIn_append other ((.lf, t.first) :: t.rest) _

theorem sets_newSection (ht : t.Ok) (hadm : Admitted t sectionName keyName keyValue)
    (hbody : t.body sectionName = none) :
    Sets seekDefault sectionName keyName keyValue t.chars := by
  have hscan : setScan t.chars.length sectionName keyName t.chars = .ok ⟨0, 0, false, false⟩ := by
    rw [setScan_text ht, hbody]
    rfl
  have hset := @set_absent seekDefault sectionName keyName keyValue t.chars _ hadm.given
    (hadm.newSection_fits hbody) hscan rfl rfl
  obtain ⟨t', ht', hchars', hbodies⟩ := exists_newText ht hadm
  have hnew : bodyIn sectionName (newLines sectionName keyName keyValue) =
      some [(.crlf, .key [] keyName [] keyValue)] := by
    rw [newLines, bodyIn, if_pos rfl]
  rw [← hchars'] at hset
  refine (sets_iff_shown ht hset (get_text ht' endOfText_zero) ?_ (fun other otherKey hne => ?_) hadm.keyValue_ne).mpr
    fun _ hroom => hadm.shown hroom
  · rw [ConfText.value, hbodies, hbody, Option.map_none, Option.none_or, hnew, Option.bind_some, valueIn, if_pos rfl]
  · rw [ConfText.value, ConfText.value, hbodies]
    by_cases hother : other = sectionName
    · have hname : ¬keyName = otherKey := fun hname => hne (by rw [hother, hname])
      rw [hother, hbody, Option.map_none, Option.none_or, hnew, Option.bind_some, valueIn, if_neg hname]
      rfl
    · cases t.body other with
      | none =>
        have hname : ¬sectionName = other := Ne.symm hother
        rw [Option.map_none, Option.none_or, newLines, bodyIn, if_neg hname]
        rfl
      | some body =>
        rw [Option.map_some, Option.some_or, Option.bind_some, Option.bind_some, newLines, valueIn_header]

end NewKey

/-! ## When a value is set -/

/-- The old value is replaced, or the new line does not cut another one, or there is no such section. -/
def SetOk (t : ConfText) (sectionName keyName : List Char) : Prop :=
  match t.body sectionName with
  | none => True
  | some body =>
    match valueIn keyName body with
    | none => OnLineEnd body
    | some raw => Replaceable raw (isLastKey keyName body)

/-- `seek` by nothing must not go back to the beginning of the file. -/
theorem sets_of_setOk {seekDefault : Whence} (hseek : seekDefault ≠ .seekSet) {t : ConfText} (ht : t.Ok)
    {sectionName keyName keyValue : List Char} (hadm : Admitted t sectionName keyName keyValue)
    (hok : SetOk t sectionName keyName) : Sets seekDefault sectionName keyName keyValue t.chars := by
  unfold SetOk at hok
  cases hbody : t.body sectionName with
  | none => exact sets_newSection ht hadm hbody
  | some body =>
    rw [hbody] at hok
    simp only at hok
    cases hvalue : valueIn keyName body with
    | none =>
      rw [hvalue] at hok
      exact sets_newKey hseek ht hadm hbody hvalue hok
    | some raw =>
      rw [hvalue] at hok
      obtain ⟨front, rest, hat, hlast⟩ := exists_rawAt ht hbody hvalue
      simp only [hlast] at hok
      rcases @replaceable_cases seekDefault _ _ _ _ _ _ _ ht hadm hat with ⟨-, hsets⟩ | ⟨hnot, -⟩
      · exact hsets
      · exact absurd hok hnot

/-- For a key that is there, this is exact. -/
theorem setOk_of_sets {seekDefault : Whence} {t : ConfText} (ht : t.Ok) {sectionName keyName keyValue : List Char}
    (hadm : Admitted t sectionName keyName keyValue) (hsize : t.chars.length + lineSize ≤ valueRoom maxLen)
    (hkey : t.value sectionName keyName ≠ none)
    (hsets : Sets seekDefault sectionName keyName keyValue t.chars) : SetOk t sectionName keyName := by
  unfold SetOk
  cases hbody : t.body sectionName with
  | none => trivial
  | some body =>
    rw [ConfText.value, hbody, Option.bind_some] at hkey
    simp only
    cases hvalue : valueIn keyName body with
    | none => exact absurd hvalue hkey
    | some raw =>
      obtain ⟨front, rest, hat, hlast⟩ := exists_rawAt ht hbody hvalue
      simp only [hlast]
      rcases @replaceable_cases seekDefault _ _ _ _ _ _ _ ht hadm hat with ⟨hrep, -⟩ | ⟨-, hnot⟩
      · exact hrep
      · exact absurd hsets (hnot hsize)

/-- `[s]` with a line for the key `k`, and CRLF ends. -/
def keyText (raw : List Char) : ConfText := ⟨.header [] ['s'] [], [(.crlf, .key [] ['k'] [] raw), (.crlf, .empty [])]⟩

theorem keyText_ok {raw : List Char} (hraw : ∀ c ∈ raw, ConfLine.lineChar c = true) (hclosed : ConfLine.Closed raw) :
    (keyText raw).Ok where
  first := ⟨List.forall_mem_nil _, List.all_eq_true.mp rfl, List.forall_mem_nil _, by decide⟩
  closed := by
    intro text htext
    cases htext
  rest := by
    refine List.forall_mem_cons.mpr ⟨?_, List.forall_mem_singleton.mpr (List.forall_mem_nil _)⟩
    exact ⟨List.forall_mem_nil _, by simp, List.all_eq_true.mp rfl, List.forall_mem_nil _, by decide, hraw, hclosed⟩

theorem keyText_admitted (raw : List Char) : Admitted (keyText raw) ['s'] ['k'] ['v'] where
  sectionName_ne := by simp
  keyName_ne := by simp
  keyValue_ne := by simp
  okSectionName := List.all_eq_true.mp rfl
  okKeyName := List.all_eq_true.mp rfl
  okKeyValue := List.all_eq_true.mp rfl
  sectionName_fits := by decide
  keyName_fits := by decide
  keyValue_fits := by decide
  newKey_fits := by
    intro h
    cases h
  newSection_fits := by
    intro h
    cases h

end AllCamera.CacConfig
