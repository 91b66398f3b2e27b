import AllCamera.Lib.Base64
import AllCamera.Lib.Memory

/-!
# Base64 texts (`SVSBase64`)

The encoder takes three bytes at a time. The decoder skips line breaks, takes four characters at a time, and
writes three bytes to a buffer on the stack; how far it goes on there depends on the padding that it met last.

* `encode`, with `encodeBuf2`.
* `groups`, `Readable`: a text in groups of four characters, and those that the decoder takes.
* `Decoding`, `pass`, `decode`: the decoder, a group at a time. `pass_cases`: what a pass can do.

The length of a text is narrowed to 32 bits; an allocation does not fail.
-/

namespace AllCamera.SVSBase64

/-! ## The encoder -/

/-- What `encodeBuf2` makes of a value. -/
def encodeChar (v : UInt8) : UInt8 :=
  if v ≤ 25 then v + 'A'.toUInt8
  else if 26 ≤ v ∧ v ≤ 51 then (v - 26) + 'a'.toUInt8
  else if 52 ≤ v ∧ v ≤ 61 then (v - 52) + '0'.toUInt8
  else if v = 62 then '+'.toUInt8
  else if v = 63 then '/'.toUInt8
  else v

/-- `encodeBuf2`. -/
def encodeBuf2 (b0 b1 b2 : UInt8) (pad : Nat) : List UInt8 :=
  let buf2 := [b0 >>> 2, (b0 &&& 0x03) <<< 4 ||| b1 >>> 4, (b1 &&& 0x0f) <<< 2 ||| b2 >>> 6, b2 &&& 0x3f]
  let buf2 := buf2.map encodeChar
  if pad ≠ 0 then buf2.take (4 - pad) ++ List.replicate pad '='.toUInt8 else buf2

/-- The loop of `encode`, at `pBase`. -/
def encodeLoop (iEncTotal iEncBit pad : Nat) (pBase : List UInt8) : List UInt8 :=
  if _h : iEncBit < iEncTotal then
    let len := if (iEncBit + 3) % 2 ^ 32 < iEncTotal then 3 else iEncTotal - iEncBit
    let buf := pBase.take len
    let pad := if len < 3 then 3 - len else pad
    encodeBuf2 (buf.getD 0 0) (buf.getD 1 0) (buf.getD 2 0) pad ++
      encodeLoop iEncTotal (iEncBit + len) pad (pBase.drop len)
  else []
termination_by iEncTotal - iEncBit
decreasing_by
  split <;> omega

/-- `encode`; without content it makes a `string` from `NULL`, which throws. -/
def encode (content : List UInt8) : Option (List UInt8) :=
  if content = [] then none else some (encodeLoop content.length 0 0 content)

/-! ## The decoder -/

/-- The characters that `decode` skips. -/
def isLineBreak (c : UInt8) : Bool :=
  c = '\r'.toUInt8 ∨ c = '\n'.toUInt8

/-- The text without its line breaks. -/
def plain (text : List UInt8) : List UInt8 :=
  text.filter fun c => !isLineBreak c

/-- The inner loop of `decode`: at most `n` characters, and what is left of the text. -/
def readGroup : Nat → List UInt8 → List UInt8 × List UInt8
  | 0, src => ([], src)
  | _ + 1, [] => ([], [])
  | n + 1, c :: src =>
    if isLineBreak c then readGroup (n + 1) src
    else
      let (buf, rest) := readGroup n src
      (c :: buf, rest)

/-- What `decodeBuf` makes of a character of the alphabet. -/
def decodeChar (c : UInt8) : Option UInt8 :=
  if 'A'.toUInt8 ≤ c ∧ c ≤ 'Z'.toUInt8 then some (c - 'A'.toUInt8)
  else if 'a'.toUInt8 ≤ c ∧ c ≤ 'z'.toUInt8 then some ((c - 'a'.toUInt8) + 26)
  else if '0'.toUInt8 ≤ c ∧ c ≤ '9'.toUInt8 then some ((c - '0'.toUInt8) + 52)
  else if c = '+'.toUInt8 then some 62
  else if c = '/'.toUInt8 then some 63
  else none

/-- `decodeBuf`, at the characters `buf[i]` to `buf[3]`: their values, and the `pad` that it leaves. -/
def decodeBuf : List UInt8 → Int → Option (List UInt8 × Int)
  | [], pad => some ([], pad)
  | c :: rest, pad =>
    match decodeChar c with
    | some v => (decodeBuf rest pad).map fun r => (v :: r.1, r.2)
    | none =>
      if c = '='.toUInt8 then some (List.replicate (rest.length + 1) 0, rest.length + 1) else none

/-- `MAX_DEC_BUF_LEN`. -/
def maxDecBufLen : Nat := 1024 * 1024

/-- `decode` in front of a pass of its loop: `pDecDstBase` is an offset in `decBuf`, and `src` is what is left of
the text. -/
structure Decoding where
  pad : Int
  decBuf : Memory
  pDecDstBase : Int
  iDecLen : UInt32
  src : List UInt8

/-- How `decode` ends: it returns `NULL`, or a `Binary`, or it writes outside of its buffer. -/
inductive Decoded
  | null
  | binary (content : List UInt8)
  | outside

/-- What is written for the values of four characters. -/
def decoded (buf : List UInt8) : List UInt8 :=
  [buf.getD 0 0 <<< 2 ||| buf.getD 1 0 >>> 4, buf.getD 1 0 <<< 4 ||| buf.getD 2 0 >>> 2,
    buf.getD 2 0 <<< 6 ||| buf.getD 3 0]

/-- The three bytes at `pDecDstBase` are in the buffer. -/
def Inside (pDecDstBase : Int) : Prop := 0 ≤ pDecDstBase ∧ pDecDstBase + 3 ≤ maxDecBufLen

instance (pDecDstBase : Int) : Decidable (Inside pDecDstBase) :=
  inferInstanceAs (Decidable (_ ∧ _))

/-- A pass of the loop. -/
def pass (d : Decoding) : Decoding ⊕ Decoded :=
  match readGroup 4 d.src with
  -- the text has ended, or has only line breaks left
  | ([], _) => .inr (.binary (d.decBuf.read 0 d.iDecLen.toNat))
  | (buf, src) =>
    if buf.length ≠ 4 then .inr .null
    else
      match decodeBuf buf d.pad with
      | none => .inr .null
      | some (buf, pad) =>
        if Inside d.pDecDstBase then
          .inl
            { pad
              decBuf := d.decBuf.write d.pDecDstBase (decoded buf)
              pDecDstBase := d.pDecDstBase + (3 - pad)
              iDecLen := d.iDecLen + UInt32.ofInt (3 - pad)
              src }
        else .inr .outside

/-! ## Groups of characters -/

/-- A text in groups of four; the last one may have less. -/
def groups : List UInt8 → List (List UInt8)
  | a :: b :: c :: d :: rest => [a, b, c, d] :: groups rest
  | [] => []
  | rest => [rest]

/-- The number of characters from the first `=` on. -/
def padding (group : List UInt8) : Nat := (group.dropWhile (· ≠ '='.toUInt8)).length

/-- The characters are of the alphabet up to the first `=`; what is behind it is not looked at. -/
def Legible (buf : List UInt8) : Prop := ∀ c ∈ buf.takeWhile (· ≠ '='.toUInt8), (decodeChar c).isSome

instance (buf : List UInt8) : Decidable (Legible buf) :=
  inferInstanceAs (Decidable (∀ c ∈ _, _))

/-- A group that the decoder takes. -/
def Readable (group : List UInt8) : Prop := group.length = 4 ∧ Legible group

instance (group : List UInt8) : Decidable (Readable group) :=
  inferInstanceAs (Decidable (_ ∧ _))

/-- `pad` after a group. -/
def padAfter (pad : Int) (group : List UInt8) : Int :=
  if '='.toUInt8 ∈ group then padding group else pad

theorem groups_of_ne_nil {l : List UInt8} (h : l ≠ []) : groups l = l.take 4 :: groups (l.drop 4) := by
  match l with
  | [] => exact absurd rfl h
  | [_] => rfl
  | [_, _] => rfl
  | [_, _, _] => rfl
  | _ :: _ :: _ :: _ :: _ => rfl

/-- A text of readable groups is one of whole groups. -/
theorem dvd_length_of_readable {l : List UInt8} (h : ∀ g ∈ groups l, Readable g) : 4 ∣ l.length := by
  induction l using groups.induct with
  | case1 a b c d rest ih =>
    obtain ⟨k, hk⟩ := ih fun g hg => h g (List.mem_cons_of_mem _ hg)
    exact ⟨k + 1, by simp only [List.length_cons]; omega⟩
  | case2 => exact ⟨0, rfl⟩
  | case3 rest hlong hnil =>
    match rest, h with
    | [_], h | [_, _], h | [_, _, _], h => simp [groups, Readable] at h
    | [], _ => exact absurd rfl hnil
    | a :: b :: c :: d :: rest, _ => exact absurd rfl (hlong a b c d rest)

/-- `readGroup` takes the first characters that are no line breaks. -/
theorem readGroup_spec (n : Nat) (src : List UInt8) :
    (readGroup n src).1 = (plain src).take n ∧ plain (readGroup n src).2 = (plain src).drop n ∧
      (readGroup n src).1.length + (readGroup n src).2.length ≤ src.length := by
  fun_induction readGroup n src with
  | case1 src => simp
  | case2 n => simp [plain]
  | case3 n c src hbreak ih =>
    have hplain : plain (c :: src) = plain src := by simp [plain, hbreak]
    rw [hplain, List.length_cons]
    exact ⟨ih.1, ih.2.1, by omega⟩
  | case4 n c src hbreak buf rest hread ih =>
    have hplain : plain (c :: src) = c :: plain src := by simp [plain, hbreak]
    rw [hread] at ih
    obtain ⟨hbuf, hrest, hlen⟩ := ih
    rw [hplain, List.take_succ_cons, List.drop_succ_cons, List.length_cons, List.length_cons]
    refine ⟨congrArg _ hbuf, hrest, ?_⟩
    show buf.length + 1 + rest.length ≤ src.length + 1
    dsimp only at hlen
    omega

theorem decodeChar_equals : decodeChar '='.toUInt8 = none := by decide

theorem legible_cons {c : UInt8} (h : c ≠ '='.toUInt8) (rest : List UInt8) :
    Legible (c :: rest) ↔ (decodeChar c).isSome ∧ Legible rest := by
  simp [Legible, h]

theorem decodeBuf_spec (buf : List UInt8) (pad : Int) :
    if Legible buf then ∃ values, decodeBuf buf pad = some (values, padAfter pad buf)
    else decodeBuf buf pad = none := by
  induction buf with
  | nil => simp [Legible, decodeBuf, padAfter]
  | cons c rest ih =>
    by_cases hpad : c = '='.toUInt8
    · subst hpad
      simp [Legible, decodeBuf, decodeChar_equals, padAfter, padding]
    · have hafter : padAfter pad (c :: rest) = padAfter pad rest := by
        simp [padAfter, padding, Ne.symm hpad, hpad]
      simp only [decodeBuf, hafter, hpad, if_false, legible_cons hpad]
      cases hchar : decodeChar c with
      | none => simp
      | some v =>
        simp only [Option.isSome_some, true_and]
        split at ih
        · rename_i hlegible
          obtain ⟨values, hvalues⟩ := ih
          rw [if_pos hlegible, hvalues]
          exact ⟨v :: values, rfl⟩
        · rename_i hlegible
          rw [if_neg hlegible, ih]
          rfl

/-- The groups that the decoder has still to read. -/
def Decoding.groups (d : Decoding) : List (List UInt8) := SVSBase64.groups (plain d.src)

/-- The decoder behind a group whose values are `buf`. -/
def Decoding.after (d : Decoding) (group buf src : List UInt8) : Decoding where
  pad := padAfter d.pad group
  decBuf := d.decBuf.write d.pDecDstBase (decoded buf)
  pDecDstBase := d.pDecDstBase + (3 - padAfter d.pad group)
  iDecLen := d.iDecLen + UInt32.ofInt (3 - padAfter d.pad group)
  src

/-- What a pass can do. -/
theorem pass_cases (d : Decoding) :
    d.groups = [] ∧ pass d = .inr (.binary (d.decBuf.read 0 d.iDecLen.toNat)) ∨
    ∃ g gs, d.groups = g :: gs ∧
      (¬ Readable g ∧ pass d = .inr .null ∨
        Readable g ∧ ¬ Inside d.pDecDstBase ∧ pass d = .inr .outside ∨
        Readable g ∧ Inside d.pDecDstBase ∧ ∃ buf src, decodeBuf g d.pad = some (buf, padAfter d.pad g) ∧
          plain src = (plain d.src).drop 4 ∧ (d.after g buf src).groups = gs ∧ src.length < d.src.length ∧
          pass d = .inl (d.after g buf src)) := by
  obtain ⟨hbuf, hrest, hlen⟩ := readGroup_spec 4 d.src
  unfold pass Decoding.groups
  generalize readGroup 4 d.src = r at hbuf hrest hlen
  obtain ⟨buf, src⟩ := r
  dsimp only at hbuf hrest hlen
  rcases eq_or_ne (plain d.src) [] with hnil | hne
  · left
    rw [hnil] at hbuf ⊢
    subst hbuf
    exact ⟨rfl, rfl⟩
  · right
    refine ⟨buf, groups (plain src), ?_, ?_⟩
    · rw [groups_of_ne_nil hne, hbuf, hrest]
    · have hbufne : buf ≠ [] := by
        rw [hbuf]
        simpa using hne
      have hpos := List.length_pos_of_ne_nil hbufne
      have hspec := decodeBuf_spec buf d.pad
      split
      · rename_i heq
        cases heq
        exact absurd rfl hbufne
      rename_i heq
      cases heq
      split
      · rename_i hlength
        exact .inl ⟨fun h => hlength h.1, rfl⟩
      rename_i hlength
      split at hspec
      · rename_i hchars
        obtain ⟨values, hvalues⟩ := hspec
        have hreadable : Readable buf := ⟨not_not.mp hlength, hchars⟩
        rw [hvalues]
        dsimp only
        split
        · rename_i hinside
          exact .inr (.inr ⟨hreadable, hinside, values, src, rfl, hrest, rfl, by omega, rfl⟩)
        · rename_i hinside
          exact .inr (.inl ⟨hreadable, hinside, rfl⟩)
      · rename_i hchars
        rw [hspec]
        exact .inl ⟨fun h => hchars h.2, rfl⟩

/-- A pass that does not end the loop goes on in the text. -/
theorem length_lt_of_pass {d d' : Decoding} (h : pass d = .inl d') : d'.src.length < d.src.length := by
  rcases pass_cases d with ⟨-, hpass⟩ | ⟨g, gs, -, ⟨-, hpass⟩ | ⟨-, -, hpass⟩ | ⟨-, -, buf, src, -, -, -, hlt, hpass⟩⟩
  · cases hpass.symm.trans h
  · cases hpass.symm.trans h
  · cases hpass.symm.trans h
  · cases hpass.symm.trans h
    exact hlt

/-- The loop of `decode`. -/
def decodeLoop (d : Decoding) : Decoded :=
  match _h : pass d with
  | .inl d' => decodeLoop d'
  | .inr result => result
termination_by d.src.length
decreasing_by
  exact length_lt_of_pass _h

/-- `decode` in front of its loop; `decBuf` is what was on the stack. -/
def start (decBuf : Memory) (content : List UInt8) : Decoding where
  pad := 0
  decBuf
  pDecDstBase := 0
  iDecLen := 0
  src := content.take (content.length % 2 ^ 32)

/-- What the decoder looks at: the length of the text is narrowed. -/
def visible (content : List UInt8) : List UInt8 := plain (content.take (content.length % 2 ^ 32))

theorem visible_prefix (content : List UInt8) : visible content <+: plain content :=
  (List.take_prefix _ content).filter _

theorem plain_start (decBuf : Memory) (content : List UInt8) :
    plain (start decBuf content).src = visible content :=
  rfl

theorem groups_start (decBuf : Memory) (content : List UInt8) :
    (start decBuf content).groups = groups (visible content) :=
  rfl

/-- `decode`. -/
def decode (decBuf : Memory) (content : List UInt8) : Decoded :=
  if content = [] then .null else decodeLoop (start decBuf content)

/-- The length is narrowed like the place, so that they agree as long as the place is not in front of the
buffer. -/
theorem toNat_add_ofInt {n : UInt32} {p k : Int} (h : (n.toNat : Int) = p) (hnonneg : 0 ≤ p + k)
    (hlt : p + k < 2 ^ 32) : ((n + UInt32.ofInt k).toNat : Int) = p + k := by
  simp only [UInt32.toNat_add, UInt32.ofInt, UInt32.toNat_ofNat']
  omega

theorem decodeLoop_inl {d d' : Decoding} (h : pass d = .inl d') : decodeLoop d = decodeLoop d' := by
  rw [decodeLoop]
  split
  · rename_i d'' h'
    cases h'.symm.trans h
    rfl
  · rename_i result h'
    cases h'.symm.trans h

theorem decodeLoop_inr {d : Decoding} {result : Decoded} (h : pass d = .inr result) : decodeLoop d = result := by
  rw [decodeLoop]
  split
  · rename_i d'' h'
    cases h'.symm.trans h
  · rename_i result' h'
    cases h'.symm.trans h
    rfl

/-- The decoder is at `d'` in front of a pass, some passes after `d`. -/
inductive Reaches : Decoding → Decoding → Prop
  | refl (d : Decoding) : Reaches d d
  | pass {d d' d'' : Decoding} : pass d = .inl d' → Reaches d' d'' → Reaches d d''

theorem Reaches.eq_of_inr {d d' : Decoding} {result : Decoded} (h : Reaches d d')
    (hpass : SVSBase64.pass d = .inr result) : d' = d := by
  cases h with
  | refl => rfl
  | pass h _ => cases hpass.symm.trans h

/-- A text that is taken has only readable groups. -/
theorem readable_of_binary {d : Decoding} {content : List UInt8} (h : decodeLoop d = .binary content) :
    ∀ g ∈ d.groups, Readable g := by
  generalize hgs : d.groups = gs
  induction gs generalizing d with
  | nil => exact nofun
  | cons g gs ih =>
    rcases pass_cases d with ⟨hnil, -⟩ | ⟨g', gs', hcons, hcases⟩
    · cases hgs.symm.trans hnil
    cases hgs.symm.trans hcons
    rcases hcases with ⟨-, hpass⟩ | ⟨-, -, hpass⟩ | ⟨hread, -, buf, src, -, -, hafter, -, hpass⟩
    · cases (decodeLoop_inr hpass).symm.trans h
    · cases (decodeLoop_inr hpass).symm.trans h
    · rw [decodeLoop_inl hpass] at h
      exact List.forall_mem_cons.mpr ⟨hread, ih h hafter⟩

end AllCamera.SVSBase64
