import AllCamera.Stream.RtmpAmf.Termination

/-!
# What `amf_load` reads

A decoder is changed in place, also by a call that throws. Here its position can not leave the buffer, and a byte that
is not there can not be read: a function that tries has no result.

* `Cursor`, `Action`: a decoder with its position inside of the buffer, and a function on it.
* `getByte`, `amfLoadString`, ..., `amfLoad`: the decoder once more, with every read.
* `Follows`: a function leaves the buffer nowhere, and does what the one on `Decoder` does.
* `amfLoad_inside`: so does `amf_load`, at every position in every buffer.
-/

namespace AllCamera.RtmpAmf

/-- `Decoder` of a buffer, with its position inside of the buffer or at its end. -/
structure Cursor (buf : List UInt8) where
  pos : Nat
  version : Nat
  inside : pos ≤ buf.length

/-- Why a function has no result: it throws, it would leave the buffer, or the fuel is used up. -/
inductive Failure where
  | throw (what : String)
  | outside
  | fuel
  deriving DecidableEq, Repr

/-- A function on the decoder of a buffer, which it also leaves when it throws. -/
abbrev Action (buf : List UInt8) (α : Type) := EStateM Failure (Cursor buf) α

namespace Cursor

variable {buf : List UInt8} {α β : Type}

def decoder (c : Cursor buf) : Decoder := ⟨buf, c.pos, c.version⟩

/-! ## Reading -/

/-- `dec->buf[dec->pos + i]`. -/
def byteAt (i : Nat) : Action buf UInt8 := fun c =>
  match buf[c.pos + i]? with
  | some b => .ok b c
  | none => .error .outside c

/-- The text of `n` bytes at the position. -/
def textAt (n : Nat) : Action buf (List UInt8) := fun c =>
  if c.pos + n ≤ buf.length then .ok ((buf.drop c.pos).take n) c else .error .outside c

/-- `dec->pos += n`. -/
def skip (n : Nat) : Action buf Unit := fun c =>
  if h : c.pos + n ≤ buf.length then .ok () ⟨c.pos + n, c.version, h⟩ else .error .outside c

/-- `dec->version = version`. -/
def setVersion (version : Nat) : Action buf Unit := fun c => .ok () { c with version }

/-- The check in front of a read of `n` bytes. -/
def need (n : Nat) : Action buf Unit := fun c =>
  if buf.length < c.pos + n then .error (.throw "Not enough data") c else .ok () c

/-- The check of a type. -/
def expect (type expected : UInt8) (what : String) : Action buf Unit := fun c =>
  if type ≠ expected then .error (.throw what) c else .ok () c

def peek : Action buf UInt8 := do
  need 1
  byteAt 0

/-- The byte in front of which the mode changes. -/
def skipSwitch : Action buf Unit := do
  let c ← get
  if c.version = 0 then do
    let b ← peek
    if b = amf0SwitchAmf3 then do
      skip 1
      setVersion 3
    else pure ()
  else pure ()

/-- `get_byte`. -/
def getByte : Action buf UInt8 := do
  skipSwitch
  let b ← peek
  skip 1
  return b

/-- `load_be16` at the position. -/
def loadBe16 : Action buf UInt16 := do
  let hi ← byteAt 0
  let lo ← byteAt 1
  return be16 hi lo

/-- `load_be32`, `i` bytes behind the position. -/
def loadBe32 (i : Nat) : Action buf UInt32 := do
  let b₃ ← byteAt i
  let b₂ ← byteAt (i + 1)
  let b₁ ← byteAt (i + 2)
  let b₀ ← byteAt (i + 3)
  return be32 b₃ b₂ b₁ b₀

def loadAmf3IntegerLoop : Nat → UInt32 → Action buf UInt32
  | 0, value => pure value
  | left + 1, value => do
    let b ← getByte
    if left = 0 then return (value <<< 8) ||| b.toUInt32
    else if b &&& 0x80 = 0 then return (value <<< 7) ||| (b &&& 0x7f).toUInt32
    else loadAmf3IntegerLoop left ((value <<< 7) ||| (b &&& 0x7f).toUInt32)

def loadAmf3Integer : Action buf UInt32 := loadAmf3IntegerLoop 4 0

def loadText (n : Nat) : Action buf (List UInt8) := do
  need n
  let s ← textAt n
  skip n
  return s

def amfLoadKey : Action buf (List UInt8) := do
  need 2
  let n ← loadBe16
  skip 2
  loadText n.toNat

def amfLoadString : Action buf (List UInt8) := do
  let type ← getByte
  let c ← get
  if c.version = 3 then do
    expect type amf3String "Expected a string"
    let n ← loadAmf3Integer
    loadText (n.toNat / 2)
  else do
    expect type amf0String "Expected a string"
    need 2
    let n ← loadBe16
    skip 2
    loadText n.toNat

def amfLoadNumber : Action buf UInt64 := do
  let type ← getByte
  expect type amf0Number "Expected a string"
  need 8
  let hi ← loadBe32 0
  let lo ← loadBe32 4
  skip 8
  return .ofNat (hi.toNat * 2 ^ 32 + lo.toNat)

def amfLoadInteger : Action buf Int32 := do
  let c ← get
  if c.version = 3 then do
    let n ← loadAmf3Integer
    return n.toInt32
  else do
    let n ← amfLoadNumber
    return intOfDouble n

def amfLoadBoolean : Action buf Bool := do
  let type ← getByte
  expect type amf0Boolean "Expected a boolean"
  let b ← getByte
  return b ≠ 0

/-- `amf_load_object`, given its loop over the members. -/
def amfLoadObject (members : Action buf AMFObject) : Action buf AMFObject := do
  let type ← getByte
  expect type amf0Object "Expected an object"
  let object ← members
  let type ← getByte
  expect type amf0ObjectEnd "expected object end"
  return object

/-- `amf_load_ecma`, given its loop over the members. -/
def amfLoadEcma (members : Action buf AMFObject) : Action buf AMFObject := do
  let type ← getByte
  expect type amf0EcmaArray "Expected an ECMA array"
  need 4
  skip 4
  let object ← members
  let type ← getByte
  expect type amf0ObjectEnd "expected object end"
  return object

/-- A value of one byte, which is skipped. -/
def oneByte (v : AMFValue) : Action buf AMFValue := do
  skip 1
  return v

mutual

/-- `amf_load` with at most `fuel` nested calls. -/
def amfLoadFuel : Nat → Action buf AMFValue
  | 0 => throw .fuel
  | fuel + 1 => do
    let type ← peek
    let c ← get
    if c.version = 3 then
      if type = amf3String then .string <$> amfLoadString
      else if type = amf3Number then .number <$> amfLoadNumber
      else if type = amf3Integer then .integer <$> amfLoadInteger
      else if type = amf3False then oneByte (.boolean false)
      else if type = amf3True then oneByte (.boolean true)
      else if type = amf3Object then .object <$> amfLoadObject (loadMembers fuel .nil)
      else if type = amf3Array then .object <$> amfLoadEcma (loadMembers fuel .nil)
      else if type = amf3Null then oneByte .null
      else if type = amf3Undefined then oneByte .undefined
      else throw (.throw ("Unsupported AMF3 type: " ++ hex02 type))
    else
      if type = amf0String then .string <$> amfLoadString
      else if type = amf0Number then .number <$> amfLoadNumber
      else if type = amf0Boolean then .boolean <$> amfLoadBoolean
      else if type = amf0Object then .object <$> amfLoadObject (loadMembers fuel .nil)
      else if type = amf0EcmaArray then .object <$> amfLoadEcma (loadMembers fuel .nil)
      else if type = amf0Null then oneByte .null
      else if type = amf0Undefined then oneByte .undefined
      else throw (.throw ("Unsupported AMF0 type: " ++ hex02 type))

/-- The loop over the members, up to the empty key. -/
def loadMembers : Nat → AMFObject → Action buf AMFObject
  | 0, _ => throw .fuel
  | fuel + 1, object => do
    let key ← amfLoadKey
    if key = [] then return object
    else do
      let value ← amfLoadFuel fuel
      loadMembers fuel (object.insert key value)

end

/-- `amf_load`. -/
def amfLoad (c : Cursor buf) : EStateM.Result Failure (Cursor buf) AMFValue :=
  amfLoadFuel (buf.length - c.pos + 1) c

/-! ## The decoder of both -/

/-- The function on the cursor has the result of the one on the decoder, and never stands outside of the buffer. -/
def Follows (r : EStateM.Result Failure (Cursor buf) α) (x : Except Stop (α × Decoder)) : Prop :=
  match r, x with
  | .ok a c, .ok (b, dec) => a = b ∧ c.decoder = dec
  | .error (.throw what) _, .error (.throw what') => what = what'
  | .error .fuel _, .error .fuel => True
  | _, _ => False

section Rules

variable {c : Cursor buf} {n : Nat} {m : Action buf α} {f : α → Action buf β} {x : Except Stop (α × Decoder)}
  {g : α × Decoder → Except Stop (β × Decoder)} {y : Except Stop (β × Decoder)}

theorem bind_ok {a : α} {c' : Cursor buf} (h : m c = .ok a c') : (m >>= f) c = f a c' := by
  change EStateM.bind m f c = _
  simp only [EStateM.bind, h]

theorem bind_error {e : Failure} {c' : Cursor buf} (h : m c = .error e c') : (m >>= f) c = .error e c' := by
  change EStateM.bind m f c = _
  simp only [EStateM.bind, h]

/-- The cursor `n` bytes on. -/
def moved (c : Cursor buf) (n : Nat) (h : c.pos + n ≤ buf.length) : Cursor buf := ⟨c.pos + n, c.version, h⟩

theorem byteAt_eq {i : Nat} (h : c.pos + i < buf.length) : byteAt i c = .ok (c.decoder.byte i) c := by
  have hb : buf[c.pos + i]? = some (c.decoder.byte i) := by
    simp only [Decoder.byte, decoder, List.getD, List.getElem?_eq_getElem h, Option.getD_some]
  simp only [byteAt, hb]

theorem textAt_eq (h : c.pos + n ≤ buf.length) : textAt n c = .ok (c.decoder.rest.take n) c := if_pos h

theorem skip_eq (h : c.pos + n ≤ buf.length) : skip n c = .ok () (c.moved n h) := dif_pos h

theorem loadBe16_eq (h : c.pos + 2 ≤ buf.length) : loadBe16 c = .ok c.decoder.loadBe16 c := by
  unfold loadBe16
  rw [bind_ok (byteAt_eq (by omega)), bind_ok (byteAt_eq (by omega))]
  rfl

theorem loadBe32_eq {i : Nat} (h : c.pos + i + 4 ≤ buf.length) :
    loadBe32 i c = .ok (c.decoder.loadBe32 i) c := by
  unfold loadBe32
  rw [bind_ok (byteAt_eq (by omega)), bind_ok (byteAt_eq (by omega)), bind_ok (byteAt_eq (by omega)),
    bind_ok (byteAt_eq (by omega))]
  rfl

namespace Follows

theorem ok {a : α} {dec : Decoder} (h : c.decoder = dec) : Follows (.ok a c) (.ok (a, dec)) := ⟨rfl, h⟩

theorem bind (hm : Follows (m c) x)
    (hf : ∀ a c', m c = .ok a c' → Follows (f a c') (g (a, c'.decoder))) : Follows ((m >>= f) c) (x >>= g) := by
  cases hr : m c with
  | ok a c' =>
    rw [bind_ok hr]
    rw [hr] at hm
    match x, hm with
    | .ok (_, _), ⟨rfl, rfl⟩ => exact hf a c' hr
  | error e c' =>
    rw [bind_error hr]
    rw [hr] at hm
    match e, x, hm with
    | .throw _, .error (.throw _), rfl => exact rfl
    | .fuel, .error .fuel, _ => exact trivial

theorem need {f : PUnit → Action buf β} (h : c.pos + n ≤ buf.length → Follows (f () c) y) :
    Follows ((Cursor.need n >>= f) c) (c.decoder.need n >>= fun _ => y) := by
  by_cases hn : buf.length < c.pos + n
  · have hc : Cursor.need n c = .error (.throw "Not enough data") c := if_pos hn
    have hd : c.decoder.need n = .error notEnoughData := if_pos hn
    rw [bind_error hc, hd]
    exact rfl
  · have hc : Cursor.need n c = .ok () c := if_neg hn
    have hd : c.decoder.need n = .ok () := if_neg hn
    rw [bind_ok hc, hd]
    exact h (Nat.le_of_not_lt hn)

theorem skip {f : PUnit → Action buf β} (h : c.pos + n ≤ buf.length) (hf : Follows (f () (c.moved n h)) y) :
    Follows ((Cursor.skip n >>= f) c) y := by
  rw [bind_ok (skip_eq h)]
  exact hf

theorem peek {f : UInt8 → Action buf β} {g : UInt8 → Except Stop (β × Decoder)}
    (h : ∀ b, c.pos + 1 ≤ buf.length → Follows (f b c) (g b)) :
    Follows ((Cursor.peek >>= f) c) (RtmpAmf.peek c.decoder >>= g) := by
  by_cases hn : buf.length < c.pos + 1
  · have hc : Cursor.peek c = .error (.throw "Not enough data") c := bind_error (if_pos hn)
    have hd : RtmpAmf.peek c.decoder = .error notEnoughData := by
      simp only [RtmpAmf.peek, decoder, List.getElem?_eq_none (Nat.le_of_lt_succ hn)]
    rw [bind_error hc, hd]
    exact rfl
  · have hlt : c.pos < buf.length := by omega
    have hc : Cursor.peek c = .ok (c.decoder.byte 0) c := (bind_ok (if_neg hn)).trans (byteAt_eq hlt)
    have hd : RtmpAmf.peek c.decoder = .ok (c.decoder.byte 0) := by
      simp only [RtmpAmf.peek, Decoder.byte, decoder, Nat.add_zero, List.getD,
        List.getElem?_eq_getElem hlt, Option.getD_some]
    rw [bind_ok hc, hd]
    exact h _ hlt

theorem expect {type expected : UInt8} {what : String} {f : PUnit → Action buf β}
    {g : PUnit → Except Stop (β × Decoder)} (h : Follows (f () c) (g ())) :
    Follows ((Cursor.expect type expected what >>= f) c)
      (if type ≠ expected then do let r ← MonadExcept.throw (.throw what); g r else g ()) := by
  by_cases ht : type ≠ expected
  · have hc : Cursor.expect type expected what c = .error (.throw what) c := if_pos ht
    rw [bind_error hc, if_pos ht]
    exact rfl
  · have hc : Cursor.expect type expected what c = .ok () c := if_neg ht
    rw [bind_ok hc, if_neg ht]
    exact h

theorem ite {p : Prop} [Decidable p] {m' : Action buf α} {x' : Except Stop (α × Decoder)} (h : Follows (m c) x)
    (h' : Follows (m' c) x') : Follows ((if p then m else m') c) (if p then x else x') := by
  split
  · exact h
  · exact h'

theorem asValue {m : Action buf α} {k : α → AMFValue} (h : Follows (m c) x) :
    Follows ((k <$> m) c) (RtmpAmf.asValue k x) := by
  rw [map_eq_pure_bind]
  exact h.bind fun _ _ _ => ok rfl

end Follows

end Rules

/-! ## Every function -/

/-- The byte at the position, whatever the mode has become. -/
theorem follows_next (c : Cursor buf) :
    Follows ((do let b ← peek; skip 1; return b : Action buf UInt8) c)
      (do let b ← RtmpAmf.peek c.decoder; return (b, c.decoder.advance 1)) :=
  .peek fun _ hb => .skip hb (.ok rfl)

theorem follows_getByte (c : Cursor buf) : Follows (getByte c) (RtmpAmf.getByte c.decoder) := by
  have hget : getByte c = ((if c.version = 0 then _ else pure ()) >>= fun _ => _ : Action buf UInt8) c := rfl
  rw [hget]
  unfold RtmpAmf.getByte
  change Follows _ (if c.version = 0 then _ else _)
  split
  · rw [bind_assoc]
    refine .peek fun b hb => ?_
    split
    · rw [bind_assoc]
      refine .skip hb ?_
      exact follows_next _
    · exact follows_next c
  · exact follows_next c

theorem follows_loadAmf3IntegerLoop (left : Nat) (value : UInt32) (c : Cursor buf) :
    Follows (loadAmf3IntegerLoop left value c) (RtmpAmf.loadAmf3IntegerLoop left value c.decoder) := by
  induction left generalizing value c with
  | zero => exact .ok rfl
  | succ left ih =>
    refine (follows_getByte c).bind fun b c₁ _ => ?_
    dsimp only
    refine .ite (.ok rfl) ?_
    exact .ite (.ok rfl) (ih _ _)

theorem follows_loadAmf3Integer (c : Cursor buf) : Follows (loadAmf3Integer c) (RtmpAmf.loadAmf3Integer c.decoder) :=
  follows_loadAmf3IntegerLoop 4 0 c

theorem follows_loadText (n : Nat) (c : Cursor buf) : Follows (loadText n c) (RtmpAmf.loadText c.decoder n) :=
  .need fun h => by
    rw [bind_ok (textAt_eq h)]
    exact .skip h (.ok rfl)

theorem follows_amfLoadKey (c : Cursor buf) : Follows (amfLoadKey c) (RtmpAmf.amfLoadKey c.decoder) :=
  .need fun h => by
    rw [bind_ok (loadBe16_eq h)]
    exact .skip h (follows_loadText _ _)

theorem follows_amfLoadString (c : Cursor buf) : Follows (amfLoadString c) (RtmpAmf.amfLoadString c.decoder) := by
  refine (follows_getByte c).bind fun type c₁ _ => ?_
  change Follows ((if c₁.version = 3 then _ else _ : Action buf (List UInt8)) c₁)
    (if c₁.version = 3 then _ else _)
  refine .ite ?_ ?_
  · exact .expect ((follows_loadAmf3Integer c₁).bind fun n c₂ _ => follows_loadText _ c₂)
  · exact .expect (follows_amfLoadKey c₁)

theorem follows_amfLoadNumber (c : Cursor buf) : Follows (amfLoadNumber c) (RtmpAmf.amfLoadNumber c.decoder) := by
  refine (follows_getByte c).bind fun type c₁ _ => ?_
  refine .expect (.need fun h => ?_)
  rw [bind_ok (loadBe32_eq (by omega)), bind_ok (loadBe32_eq (by omega))]
  exact .skip h (.ok rfl)

theorem follows_amfLoadInteger (c : Cursor buf) : Follows (amfLoadInteger c) (RtmpAmf.amfLoadInteger c.decoder) := by
  change Follows ((if c.version = 3 then _ else _ : Action buf Int32) c) (if c.version = 3 then _ else _)
  refine .ite ?_ ?_
  · exact (follows_loadAmf3Integer c).bind fun _ _ _ => .ok rfl
  · exact (follows_amfLoadNumber c).bind fun _ _ _ => .ok rfl

theorem follows_amfLoadBoolean (c : Cursor buf) : Follows (amfLoadBoolean c) (RtmpAmf.amfLoadBoolean c.decoder) := by
  refine (follows_getByte c).bind fun type c₁ _ => ?_
  refine .expect ((follows_getByte c₁).bind fun b c₂ _ => .ok rfl)

section Loop

variable {members : Action buf AMFObject} {members' : Decoder → Except Stop (AMFObject × Decoder)}

/-- Behind the loop over the members. -/
theorem follows_end (o : AMFObject) (c : Cursor buf) :
    Follows ((do
        let type ← getByte
        expect type amf0ObjectEnd "expected object end"
        return o : Action buf AMFObject) c)
      (do
        let (type, dec) ← RtmpAmf.getByte c.decoder
        if type ≠ amf0ObjectEnd then MonadExcept.throw (.throw "expected object end")
        return (o, dec)) :=
  (follows_getByte c).bind fun _ _ _ => .expect (.ok rfl)

theorem follows_amfLoadObject (h : ∀ c₁ : Cursor buf, Follows (members c₁) (members' c₁.decoder)) (c : Cursor buf) :
    Follows (amfLoadObject members c) (RtmpAmf.amfLoadObject members' c.decoder) := by
  refine (follows_getByte c).bind fun type c₁ _ => ?_
  exact .expect ((h c₁).bind fun o c₂ _ => follows_end o c₂)

theorem follows_amfLoadEcma (h : ∀ c₁ : Cursor buf, Follows (members c₁) (members' c₁.decoder)) (c : Cursor buf) :
    Follows (amfLoadEcma members c) (RtmpAmf.amfLoadEcma members' c.decoder) := by
  refine (follows_getByte c).bind fun type c₁ _ => ?_
  refine .expect (.need fun hn => .skip hn ?_)
  exact (h _).bind fun o c₂ _ => follows_end o c₂

end Loop

/-- By induction on the fuel, for the decoder and the loop over the members. -/
theorem follows_load (fuel : Nat) :
    (∀ c : Cursor buf, Follows (amfLoadFuel fuel c) (RtmpAmf.amfLoadFuel fuel c.decoder)) ∧
    (∀ (c : Cursor buf) acc, Follows (loadMembers fuel acc c) (RtmpAmf.loadMembers fuel c.decoder acc)) := by
  induction fuel with
  | zero => exact ⟨fun _ => trivial, fun _ _ => trivial⟩
  | succ fuel ih =>
    constructor
    · intro c
      have hmembers : ∀ c₁ : Cursor buf,
          Follows (loadMembers fuel .nil c₁) (RtmpAmf.loadMembers fuel c₁.decoder .nil) := fun c₁ => ih.2 c₁ .nil
      refine .peek fun type hpos => ?_
      have hone : ∀ v, Follows (oneByte v c) (RtmpAmf.oneByte c.decoder v) := fun v => .skip hpos (.ok rfl)
      change Follows ((if c.version = 3 then _ else _ : Action buf AMFValue) c) (if c.version = 3 then _ else _)
      repeat' with_reducible apply Follows.ite
      · exact (follows_amfLoadString c).asValue
      · exact (follows_amfLoadNumber c).asValue
      · exact (follows_amfLoadInteger c).asValue
      · exact hone _
      · exact hone _
      · exact (follows_amfLoadObject hmembers c).asValue
      · exact (follows_amfLoadEcma hmembers c).asValue
      · exact hone _
      · exact hone _
      · exact rfl
      · exact (follows_amfLoadString c).asValue
      · exact (follows_amfLoadNumber c).asValue
      · exact (follows_amfLoadBoolean c).asValue
      · exact (follows_amfLoadObject hmembers c).asValue
      · exact (follows_amfLoadEcma hmembers c).asValue
      · exact hone _
      · exact hone _
      · exact rfl
    · intro c acc
      refine (follows_amfLoadKey c).bind fun key c₁ _ => ?_
      refine .ite (.ok rfl) ?_
      exact (ih.1 c₁).bind fun value c₂ _ => ih.2 c₂ _

/-! ## The whole call -/

/-- `amf_load` returns a value, a byte or more behind its start, or throws. What it returns or throws is what it gives
on `Decoder`, and it has not read outside of the buffer. -/
theorem amfLoad_inside (c : Cursor buf) :
    (∃ v c', amfLoad c = .ok v c' ∧ c.pos < c'.pos ∧ c'.pos ≤ buf.length ∧
      RtmpAmf.amfLoad c.decoder = .ok (v, c'.decoder)) ∨
    (∃ what c', amfLoad c = .error (.throw what) c' ∧ c'.pos ≤ buf.length ∧
      RtmpAmf.amfLoad c.decoder = .error (.throw what)) := by
  have hfuel : c.decoder.rest.length = buf.length - c.pos := List.length_drop
  have hf : Follows (amfLoad c) (RtmpAmf.amfLoad c.decoder) := by
    unfold amfLoad RtmpAmf.amfLoad
    rw [hfuel]
    exact (follows_load _).1 c
  have hk : Consumes 1 c.decoder (RtmpAmf.amfLoad c.decoder) := (consumes_load _).1 _ (Nat.lt_succ_self _)
  generalize hr : amfLoad c = r at hf
  generalize hx : RtmpAmf.amfLoad c.decoder = x at hf hk
  match r, x, hf with
  | .ok v c', .ok (_, _), ⟨rfl, rfl⟩ =>
    have hlen : c'.decoder.rest.length = buf.length - c'.pos := List.length_drop
    have hle := hk.2 v c'.decoder rfl
    have hin := c'.inside
    exact .inl ⟨v, c', rfl, by omega, hin, rfl⟩
  | .error (.throw what) c', .error (.throw _), rfl => exact .inr ⟨what, c', rfl, c'.inside, rfl⟩
  | .error .fuel _, .error .fuel, _ => exact absurd rfl hk.1

end Cursor

end AllCamera.RtmpAmf
