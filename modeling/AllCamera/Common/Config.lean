import Mathlib.Tactic.Common
import Mathlib.Data.UInt

/-!
# The configuration file (`CAC_Config`)

A configuration file has sections with keys. There are three scanners: for the value of a key, for all keys of a
section, and for the place where a value is put. Each has a copy of the loops over sections, comments and keys.

* `trim`, `rtrim`, `cstr`: the strings.
* `getScan` with `getKeys` and `getValue`; `get`: the value of a key.
* `listScan` with `listKeys` and `listValue`: the keys of a section.
* `setScan` with `setKeys` and `setValue`; `set` with `AceFile`: the new text of the file.

A text is the characters of `_buffer` that are not read yet, and a character is a byte. A scan fails where it leaves
its memory, other than by a look at the position behind the buffer, and where it does not end. The file can be
opened and read.
-/

namespace AllCamera.CacConfig

/-- `CheckCharIsEnterOrNewLine`. -/
def isEol (c : Char) : Bool := c = '\n' || c = '\r'

/-- `CheckCharIsSpaceOrTab`. -/
def isBlank (c : Char) : Bool := c = ' ' || c = '\t'

/-- `CONFIG_NOTE_SYMBOL`. -/
def noteSymbol : Char := ';'

/-- The size of `temp` in the scanners for one key, and of `KeyName`. -/
def nameSize : Nat := 50

/-- The size of `temp` in the scanner for all keys, and of `KeyValue`. -/
def tempSize : Nat := 512

/-- What a scan fails with: it reads behind the buffer until it finds a character; it writes behind a buffer for
names; it writes behind the caller's buffer; it does not end. -/
inductive ScanFault where
  | beyond
  | name
  | value
  | endless
  deriving DecidableEq, Repr

abbrev Scan := Except ScanFault

/-! ## Strings -/

/-- The string in a buffer: what is in front of the first 0. -/
def cstr (s : List Char) : List Char := s.takeWhile (· ≠ '\x00')

/-- A string without the blanks and line ends at its end. -/
def trimEnd (s : List Char) : List Char := (s.reverse.dropWhile fun c => isBlank c || isEol c).reverse

/-- What `trim` leaves in the buffer: the blanks in front stay. -/
def trim (s : List Char) : List Char := s.takeWhile isBlank ++ trimEnd (s.dropWhile isBlank)

/-- `rtrim`. -/
def rtrim (s : List Char) : List Char :=
  ((s.takeWhile (· ≠ ' ')).takeWhile (· ≠ '#')).takeWhile (· ≠ noteSymbol)

/-- Behind the end of the line. -/
def skipLine (text : List Char) : List Char := (text.dropWhile (!isEol ·)).tail

theorem length_skipLine_le (text : List Char) : (skipLine text).length ≤ text.length := by
  rw [skipLine, List.length_tail]
  have := (List.dropWhile_sublist (l := text) (!isEol ·)).length_le
  omega

/-! ## The name of a section, behind the `[` -/

def headerName (text : List Char) : List Char := text.takeWhile (· ≠ ']')

def behindHeader (text : List Char) : List Char := (text.dropWhile (· ≠ ']')).tail

theorem length_behindHeader_le (text : List Char) : (behindHeader text).length ≤ text.length := by
  rw [behindHeader, List.length_tail]
  have := (List.dropWhile_sublist (l := text) (· ≠ ']')).length_le
  omega

/-! ## The value of a key -/

/-- The characters that end a key for `get`. -/
def endsKey (c : Char) : Bool := isEol c || c = '=' || isBlank c

theorem length_dropWhile_lt {p : Char → Bool} {c d : Char} {rest behind : List Char}
    (h : (c :: rest).dropWhile p = d :: behind) : behind.length < (c :: rest).length := by
  have hle := (List.dropWhile_sublist (l := c :: rest) p).length_le
  rw [h, List.length_cons] at hle
  omega

/-- The characters of a value that fit into the buffer; `bTemp` is whether the `=` was seen. -/
def readValue : Nat → Bool → List Char → List Char
  | _, _, [] => []
  | 0, _, _ => []
  | room + 1, bTemp, c :: rest =>
    if isEol c ∨ c = noteSymbol then []
    else if !bTemp ∧ isBlank c then readValue (room + 1) bTemp rest
    else if !bTemp ∧ c = '=' then readValue (room + 1) true rest
    else c :: readValue room bTemp rest

/-- How many characters of a value `j < (int32_t)unLen - 1` lets in. -/
def valueRoom (unLen : UInt32) : Nat := (unLen.toInt32 - 1).toInt.toNat

/-- The value behind a key that matches, from the character that ended the key on. -/
def getValue (unLen : UInt32) : List Char → Scan (List Char)
  | [] => .ok []
  | c :: rest =>
    if isEol c ∨ c = noteSymbol then .ok []
    else if isBlank c then getValue unLen rest
    else if unLen = 0 then .error .value
    else .ok (trim (cstr (readValue (valueRoom unLen) false (c :: rest))))

/-- The loop of `inner_subFuncOfGetKey` over the keys of the section. -/
def getKeys (keyName : List Char) (unLen : UInt32) : List Char → Scan (List Char)
  | [] => .ok []
  | c :: rest =>
    if c = '[' ∨ c = '=' then .ok []
    else if isEol c ∨ isBlank c then getKeys keyName unLen rest
    else if c = noteSymbol then getKeys keyName unLen (skipLine rest)
    else
      let temp := (c :: rest).takeWhile (!endsKey ·)
      match _h : (c :: rest).dropWhile (!endsKey ·) with
      | [] => if nameSize < temp.length then .error .name else .ok []
      | d :: behind =>
        if isEol d then
          if nameSize < temp.length then .error .name else getKeys keyName unLen behind
        else if nameSize ≤ temp.length then .error .name
        else if cstr temp = keyName then getValue unLen (d :: behind)
        else getKeys keyName unLen (skipLine behind)
termination_by text => text.length
decreasing_by
  · exact Nat.lt_succ_self _
  · exact Nat.lt_succ_of_le (length_skipLine_le rest)
  · exact length_dropWhile_lt _h
  · exact (length_skipLine_le behind).trans_lt (length_dropWhile_lt _h)

/-- What a scan for a key leaves: `outKeyValue`, and whether it has looked at the position behind the buffer. -/
structure GetScan where
  outKeyValue : List Char
  looksBehind : Bool
  deriving DecidableEq, Repr

/-- `inner_subFuncOfGetKey`. -/
def getScan (sectionName keyName : List Char) (unLen : UInt32) : List Char → Scan GetScan
  | [] => .ok ⟨[], false⟩
  | c :: rest =>
    if c = '[' then
      if ']' ∉ rest then .error .beyond
      else if nameSize ≤ (headerName rest).length then .error .name
      else if cstr (headerName rest) = sectionName then
        (getKeys keyName unLen (behindHeader rest)).map fun outKeyValue => ⟨outKeyValue, false⟩
      else getScan sectionName keyName unLen (behindHeader rest)
    else
      match rest with
      | [] => .ok ⟨[], true⟩
      | d :: rest =>
        -- a comment is found by the look at the next character, and ends at `\n`
        if d = noteSymbol then
          if '\n' ∈ rest then getScan sectionName keyName unLen (rest.dropWhile (· ≠ '\n'))
          else .ok ⟨[], true⟩
        else getScan sectionName keyName unLen (d :: rest)
termination_by text => text.length
decreasing_by
  · exact Nat.lt_succ_of_le (length_behindHeader_le rest)
  · have := (List.dropWhile_sublist (l := rest) (· ≠ '\n')).length_le
    simp only [List.length_cons]
    omega
  · exact Nat.lt_succ_self _

/-- `get` of a key, with `bRtrim`; nothing if it fails. -/
def get (sectionName keyName : List Char) (unLen : UInt32) (buffer : List Char) : Scan (Option (List Char)) :=
  (getScan sectionName keyName unLen buffer).map fun r =>
    if r.outKeyValue = [] then none else some (rtrim r.outKeyValue)

/-! ## The keys of a section -/

/-- `GE_CONFIG_KEY_LIST`. -/
structure ConfigKey where
  keyName : List Char
  keyValue : List Char
  deriving DecidableEq, Repr

/-- `temp` after characters and a 0 are written to its beginning. -/
def writeString (temp s : List Char) : Option (List Char) :=
  if s.length < temp.length then some (s ++ '\x00' :: temp.drop (s.length + 1)) else none

/-- `temp` after characters are written to its beginning. -/
def writeChars (temp s : List Char) : Option (List Char) :=
  if s.length ≤ temp.length then some (s ++ temp.drop s.length) else none

/-- `strcpy(temp, "")`. -/
def clearTemp (temp : List Char) : List Char := temp.set 0 '\x00'

/-- `trim(&temp[0])`. -/
def trimTemp (temp : List Char) : List Char := temp.set (trim (cstr temp)).length '\x00'

/-- The characters of a value for the scanner for all keys: the `=` is one of them. -/
def valueText (text : List Char) : List Char := text.takeWhile fun c => !(isEol c || c = noteSymbol)

/-- The value behind a key, from the character that ended the key on: how much of the text it is, and what is
behind it. -/
def listValue (unLen : UInt32) : List Char → Scan (List Char × List Char)
  | [] => .ok ([], [])
  | c :: rest =>
    if isEol c then .ok ([], rest)
    else if c = noteSymbol then .ok ([], skipLine rest)
    else if isBlank c then listValue unLen rest
    else
      let room := valueRoom unLen
      let value := valueText (c :: rest)
      if value.length < room then .ok (value, (c :: rest).drop (value.length + 1))
      else
        -- `temp` is full: the next turns of the outer loop take blanks, and then the end of the line
        match ((c :: rest).drop room).dropWhile isBlank with
        | [] => .ok (value.take room, [])
        | d :: behind =>
          if isEol d then .ok (value.take room, behind)
          else if d = noteSymbol then .ok (value.take room, skipLine behind)
          -- a turn that takes nothing is repeated for ever
          else .error .endless

theorem length_listValue_le {unLen : UInt32} {text value behind : List Char}
    (h : listValue unLen text = .ok (value, behind)) : behind.length ≤ text.length := by
  induction text with
  | nil =>
    cases h
    exact Nat.le_refl _
  | cons c rest ih =>
    have hle : (((c :: rest).drop (valueRoom unLen)).dropWhile isBlank).length ≤ (c :: rest).length :=
      (List.dropWhile_sublist _).length_le.trans (by rw [List.length_drop]; omega)
    have hskip := length_skipLine_le rest
    simp only [listValue] at h
    split_ifs at h
    · cases h
      exact Nat.le_succ _
    · cases h
      exact hskip.trans (Nat.le_succ _)
    · exact (ih h).trans (Nat.le_succ _)
    · simp only [Except.ok.injEq, Prod.mk.injEq] at h
      rw [← h.2, List.length_drop]
      omega
    · split at h
      · cases h
        exact Nat.zero_le _
      · rename_i d behind' hbehind
        rw [hbehind, List.length_cons] at hle
        have hskip' := length_skipLine_le behind'
        split_ifs at h
        · simp only [Except.ok.injEq, Prod.mk.injEq] at h
          rw [← h.2]
          omega
        · simp only [Except.ok.injEq, Prod.mk.injEq] at h
          rw [← h.2]
          omega

theorem length_dropWhile_le_tail {p : Char → Bool} {c : Char} {rest behind : List Char} (hc : p c = true)
    (h : (c :: rest).dropWhile p = behind) : behind.length ≤ rest.length := by
  rw [List.dropWhile_cons_of_pos hc] at h
  exact h ▸ (List.dropWhile_sublist _).length_le

/-- The loop of the key-list `get` over the keys of the section, with `temp`. -/
def listKeys (unLen : UInt32) (temp : List Char) : List Char → Scan (List ConfigKey)
  | [] => .ok []
  | c :: rest =>
    if c = '[' ∨ c = '=' then .ok []
    -- a `char` is signed
    else if isEol c ∨ isBlank c ∨ 128 ≤ c.toNat then listKeys unLen temp rest
    else if c = noteSymbol then listKeys unLen temp (skipLine rest)
    else
      let name := (c :: rest).takeWhile (!endsKey ·)
      match _h : (c :: rest).dropWhile (!endsKey ·) with
      | [] =>
        match writeChars (clearTemp temp) name with
        | none => .error .name
        | some temp => if nameSize ≤ (cstr temp).length then .error .name else .ok []
      | d :: behind =>
        if isEol d then
          match writeChars (clearTemp temp) name with
          | none => .error .name
          | some temp => if nameSize ≤ (cstr temp).length then .error .name else listKeys unLen temp behind
        else
          match writeString (clearTemp temp) name with
          | none => .error .name
          | some temp =>
            if nameSize ≤ (cstr temp).length then .error .name
            else
              match _hv : listValue unLen (d :: behind) with
              | .error e => .error e
              | .ok (value, behind') =>
                match writeString (clearTemp temp) value with
                | none => .error .name
                | some temp' =>
                  (listKeys unLen (trimTemp temp') behind').map
                    (⟨cstr temp, cstr (trimTemp temp')⟩ :: ·)
termination_by text => text.length
decreasing_by
  · exact Nat.lt_succ_self _
  · exact Nat.lt_succ_of_le (length_skipLine_le rest)
  · exact length_dropWhile_lt _h
  · rename_i hstop hblank _ _
    have hc : (!endsKey c) = true := by
      simp only [endsKey]
      grind
    exact Nat.lt_succ_of_le ((length_listValue_le _hv).trans (length_dropWhile_le_tail hc _h))

/-- The key-list `get` of a section, with `temp`. -/
def listScan (sectionName : List Char) (unLen : UInt32) (temp : List Char) : List Char → Scan (List ConfigKey)
  | [] => .ok []
  | c :: rest =>
    if c = '[' then
      if ']' ∉ rest then
        match writeChars (clearTemp temp) rest with
        | none => .error .name
        | some _ => .ok []
      else
        match writeString (clearTemp temp) (headerName rest) with
        | none => .error .name
        | some temp =>
          if cstr temp = sectionName then listKeys unLen temp (behindHeader rest)
          else listScan sectionName unLen temp (behindHeader rest)
    else if c = noteSymbol then listScan sectionName unLen temp (skipLine rest)
    else listScan sectionName unLen temp rest
termination_by text => text.length
decreasing_by
  · exact Nat.lt_succ_of_le (length_behindHeader_le rest)
  · exact Nat.lt_succ_of_le (length_skipLine_le rest)
  · exact Nat.lt_succ_self _

/-- `get` of the keys of a section. -/
def getList (sectionName : List Char) (unLen : UInt32) (buffer : List Char) : Scan (List ConfigKey) :=
  listScan sectionName unLen (List.replicate tempSize '\x00') buffer

/-! ## The place of a value -/

/-- `FUNC_SET_INNER__PARAM`, without `bContinue`. -/
structure SetParam where
  index1 : Nat
  index2 : Nat
  sectionMatched : Bool
  keyMatched : Bool
  deriving DecidableEq, Repr

/-- `index2` for a key that matches, from the text behind its `=` on; a position is what is not left of the
`bufferSize` characters. -/
def setValue (bufferSize : Nat) : List Char → Nat
  | [] => 0
  | c :: rest =>
    if isEol c ∨ c = noteSymbol then bufferSize - rest.length - 2
    else if isBlank c then setValue bufferSize rest
    else bufferSize - ((c :: rest).dropWhile fun c => !(isEol c || c = noteSymbol)).tail.length - 1

/-- The characters of a key for `set`. -/
def setKeyText (text : List Char) : List Char := text.takeWhile fun c => !(isEol c || c = '=')

/-- The loop of `inner_subFuncOfSet` over the keys of the section. -/
def setKeys (bufferSize : Nat) (keyName : List Char) (index1 : Nat) : List Char → Scan SetParam
  | [] => .ok { index1, index2 := bufferSize - 1, sectionMatched := true, keyMatched := false }
  | c :: rest =>
    if c = '[' ∨ c = '=' then
      .ok
        { index1 := bufferSize - rest.length
          index2 := bufferSize - rest.length - 1
          sectionMatched := true
          keyMatched := false }
    else if isEol c ∨ isBlank c then setKeys bufferSize keyName index1 rest
    else if c = noteSymbol then setKeys bufferSize keyName index1 (skipLine rest)
    else
      let temp := setKeyText (c :: rest)
      match _h : (c :: rest).dropWhile fun c => !(isEol c || c = '=') with
      | [] => if nameSize < temp.length then .error .name else setKeys bufferSize keyName index1 []
      | d :: behind =>
        if isEol d then
          if nameSize < temp.length then .error .name else setKeys bufferSize keyName index1 behind
        else if nameSize ≤ temp.length then .error .name
        else if trim (cstr temp) = keyName then
          .ok
            { index1 := bufferSize - behind.length
              index2 := setValue bufferSize behind
              sectionMatched := true
              keyMatched := true }
        else setKeys bufferSize keyName (bufferSize - behind.length) (skipLine behind)
termination_by text => text.length
decreasing_by
  · exact Nat.lt_succ_self _
  · exact Nat.lt_succ_of_le (length_skipLine_le rest)
  · exact Nat.zero_lt_succ _
  · exact length_dropWhile_lt _h
  · exact (length_skipLine_le behind).trans_lt (length_dropWhile_lt _h)

/-- `inner_subFuncOfSet`. -/
def setScan (bufferSize : Nat) (sectionName keyName : List Char) : List Char → Scan SetParam
  | [] => .ok { index1 := 0, index2 := 0, sectionMatched := false, keyMatched := false }
  | c :: rest =>
    if c = '[' then
      if ']' ∉ rest then .error .beyond
      else if nameSize ≤ (headerName rest).length then .error .name
      else if cstr (headerName rest) = sectionName then setKeys bufferSize keyName 0 (behindHeader rest)
      else setScan bufferSize sectionName keyName (behindHeader rest)
    else if c = noteSymbol then setScan bufferSize sectionName keyName (skipLine rest)
    else setScan bufferSize sectionName keyName rest
termination_by text => text.length
decreasing_by
  · exact Nat.lt_succ_of_le (length_behindHeader_le rest)
  · exact Nat.lt_succ_of_le (length_skipLine_le rest)
  · exact Nat.lt_succ_self _

/-! ## `set` -/

/-- `whence` of `seek`. -/
inductive Whence where
  | seekSet
  | seekCur
  | seekEnd
  deriving DecidableEq, Repr

/-- An open file. -/
structure AceFile where
  data : List Char
  offset : Nat
  deriving DecidableEq, Repr

namespace AceFile

/-- `truncate`, to nothing. -/
def truncate (f : AceFile) : AceFile := { f with data := [] }

/-- `seek` by nothing. -/
def seek (f : AceFile) : Whence → AceFile
  | .seekSet => { f with offset := 0 }
  | .seekCur => f
  | .seekEnd => { f with offset := f.data.length }

/-- `send`; what lies between the end of the file and the offset is filled with 0. -/
def send (f : AceFile) (bytes : List Char) : AceFile where
  data := f.data.take f.offset ++ List.replicate (f.offset - f.data.length) '\x00' ++ bytes ++
    f.data.drop (f.offset + bytes.length)
  offset := f.offset + bytes.length

end AceFile

/-- `strncpy` of `n` characters. -/
def strncpy (src : List Char) (n : Nat) : List Char :=
  cstr (src.take n) ++ List.replicate (n - (cstr (src.take n)).length) '\x00'

/-- The loop that goes back from `index2` over characters; it leaves one less than where it has stopped. -/
def backOver (skips : Char → Bool) (buffer : List Char) : Nat → Nat
  | 0 => 0
  | index2 + 1 => if skips (buffer.getD (index2 + 1) '\x00') then backOver skips buffer index2 else index2

/-- `sizeof(keyValue)`, and the size of the other buffers of `set`. -/
def lineSize : Nat := 100

/-- `set` of a value that is formatted: the text of the file after it, and whether it has succeeded. `seekDefault`
is where `seek` starts from if that is not said. -/
def set (seekDefault : Whence) (sectionName keyName formatted buffer : List Char) :
    Scan (Bool × List Char) :=
  let keyValue := formatted.take (lineSize - 1)
  if sectionName = [] ∨ keyName = [] ∨ keyValue = [] then .ok (false, buffer)
  else
    -- after `recv` the offset is at the end of the file
    let file : AceFile := ⟨buffer, buffer.length⟩
    match setScan buffer.length sectionName keyName buffer with
    | .error e => .error e
    | .ok p =>
      if p.keyMatched then
        -- `index2` is not signed
        if p.index2 = 0 then .error .beyond
        else
          let index2 := backOver (fun c => isEol c || c = '\t') buffer (p.index2 - 1) + 1
          let file := (file.truncate.seek .seekSet).send (strncpy buffer p.index1)
          let file := file.send keyValue
          let file := file.send (strncpy (buffer.drop (index2 + 1)) (buffer.length - (index2 + 1)))
          .ok (true, file.data)
      else if p.sectionMatched then
        let index2 := backOver isEol buffer (p.index2 - 2) + 2
        if lineSize ≤ keyName.length + keyValue.length + 3 then .error .name
        else
          let file := (file.truncate.seek seekDefault).send (strncpy buffer index2)
          let file := (file.seek seekDefault).send (['\r', '\n'] ++ keyName ++ ['='] ++ keyValue)
          let file := (file.seek seekDefault).send (strncpy (buffer.drop index2) (buffer.length - index2))
          .ok (true, file.data)
      else
        let line := (if buffer = [] then [] else ['\r', '\n']) ++ ['['] ++ sectionName ++ [']', '\r', '\n'] ++
          keyName ++ ['='] ++ keyValue ++ ['\r', '\n']
        -- `snprintf` has no room for the last character, and its 0 is sent
        if lineSize < line.length then .error .name
        else .ok (true, ((file.seek .seekEnd).send (line.dropLast ++ ['\x00'])).data)

end AllCamera.CacConfig
