import AllCamera.Lib.Memory

/-!
# AMF values of the RTMP server (`svs_rtmp_amf.cpp`)

RTMP commands carry AMF values. `amf_write` encodes in AMF0; `amf_load` decodes AMF0, and AMF3 from
the byte on that switches the mode.

* `AMFValue`, `AMFObject`: a value, and the `std::map` of an object or an ECMA array in key order.
* `amfWrite`: the encoder. An encoder appends to its buffer; a failed `assert` is `none`.
* `amfLoad`: the decoder. It stops with the text of what it throws.
* `AMFValue.Forall`: a predicate at every value inside a value.
-/

namespace AllCamera.RtmpAmf

/-! ## Values -/

mutual

/-- `AMFValue`. A number is the 64 bits of its double. -/
inductive AMFValue where
  | number (n : UInt64)
  | integer (i : Int32)
  | boolean (b : Bool)
  | string (s : List UInt8)
  | object (o : AMFObject)
  | null
  | undefined
  | ecmaArray (o : AMFObject)

/-- `amf_object_t`: the members of a `std::map`, in the order of their keys. -/
inductive AMFObject where
  | nil
  | cons (key : List UInt8) (value : AMFValue) (rest : AMFObject)

end

namespace AMFObject

/-- `insert`: a key that is there keeps its value. -/
def insert (key : List UInt8) (value : AMFValue) : AMFObject → AMFObject
  | nil => cons key value nil
  | cons k v rest =>
    if key < k then cons key value (cons k v rest)
    else if key = k then cons k v rest
    else cons k v (rest.insert key value)

/-- `find`. -/
def find (key : List UInt8) : AMFObject → Option AMFValue
  | nil => none
  | cons k v rest => if key = k then some v else rest.find key

def keys : AMFObject → List (List UInt8)
  | nil => []
  | cons k _ rest => k :: rest.keys

end AMFObject

mutual

/-- `p` holds of the value and of every value inside it. -/
def AMFValue.Forall (p : AMFValue → Prop) : AMFValue → Prop
  | .object o => p (.object o) ∧ o.Forall p
  | .ecmaArray o => p (.ecmaArray o) ∧ o.Forall p
  | v => p v

/-- `p` holds of every value inside the members. -/
def AMFObject.Forall (p : AMFValue → Prop) : AMFObject → Prop
  | .nil => True
  | .cons _ v rest => v.Forall p ∧ rest.Forall p

end

/-! ## Type bytes -/

def amf0Number : UInt8 := 0
def amf0Boolean : UInt8 := 1
def amf0String : UInt8 := 2
def amf0Object : UInt8 := 3
def amf0Null : UInt8 := 5
def amf0Undefined : UInt8 := 6
def amf0EcmaArray : UInt8 := 8
def amf0ObjectEnd : UInt8 := 9
def amf0SwitchAmf3 : UInt8 := 17

def amf3Undefined : UInt8 := 0
def amf3Null : UInt8 := 1
def amf3False : UInt8 := 2
def amf3True : UInt8 := 3
def amf3Integer : UInt8 := 4
def amf3Number : UInt8 := 5
def amf3String : UInt8 := 6
def amf3Array : UInt8 := 9
def amf3Object : UInt8 := 10

/-! ## Numbers -/

/-- The double of an `int`. -/
def doubleOfInt (i : Int32) : UInt64 :=
  let n := i.toInt.natAbs
  if n = 0 then 0
  else
    let e := n.log2
    let sign := if i.toInt < 0 then 2 ^ 63 else 0
    .ofNat (sign + (1023 + e) * 2 ^ 52 + (n - 2 ^ e) * 2 ^ (52 - e))

/-- The `int` of a double, truncated; `INT_MIN` where it does not fit. -/
def intOfDouble (n : UInt64) : Int32 :=
  let e := n.toNat / 2 ^ 52 % 2 ^ 11
  let m : Nat := (2 ^ 52 + n.toNat % 2 ^ 52) / 2 ^ (1075 - e)
  if e < 1023 then 0
  else if 1023 + 31 ≤ e then Int32.minValue
  else if n.toNat < 2 ^ 63 then .ofInt m else .ofInt (-m)

/-- The eight bytes of a number, as two `htonl`. -/
def numberBytes (n : UInt64) : List UInt8 :=
  be32Bytes (.ofNat (n.toNat / 2 ^ 32)) ++ be32Bytes (.ofNat n.toNat)

/-! ## Writing -/

/-- `Encoder`: its `buf`. -/
abbrev Encoder := List UInt8

/-- `amf_write(enc, std::string)`. -/
def writeString (enc : Encoder) (s : List UInt8) : Encoder :=
  enc ++ [amf0String] ++ be16Bytes (.ofNat s.length) ++ s

/-- `amf_write(enc, double)`. -/
def writeNumber (enc : Encoder) (n : UInt64) : Encoder := enc ++ [amf0Number] ++ numberBytes n

/-- `amf_write(enc, bool)`. -/
def writeBoolean (enc : Encoder) (b : Bool) : Encoder :=
  enc ++ [amf0Boolean] ++ [if b then 1 else 0]

/-- `amf_write_key`. -/
def amfWriteKey (enc : Encoder) (s : List UInt8) : Encoder :=
  enc ++ be16Bytes (.ofNat s.length) ++ s

/-- `amf_write_null`. -/
def amfWriteNull (enc : Encoder) : Encoder := enc ++ [amf0Null]

mutual

/-- `amf_write(enc, AMFValue)`. `as_integer` gives a double. `as_object` asserts that the type is
`AMF_OBJECT`, so the loop of `amf_write_ecma` is not reached; undefined takes the `default`. -/
def amfWrite (enc : Encoder) : AMFValue → Option Encoder
  | .string s => some (writeString enc s)
  | .number n => some (writeNumber enc n)
  | .integer i => some (writeNumber enc (doubleOfInt i))
  | .boolean b => some (writeBoolean enc b)
  | .object o => do
    let enc ← writeMembers (enc ++ [amf0Object]) o
    return amfWriteKey enc [] ++ [amf0ObjectEnd]
  | .ecmaArray _ => none
  | .null => some (amfWriteNull enc)
  | .undefined => some enc

/-- The loop over the members. -/
def writeMembers (enc : Encoder) : AMFObject → Option Encoder
  | .nil => some enc
  | .cons key value rest => do
    let enc ← amfWrite (amfWriteKey enc key) value
    writeMembers enc rest

end

/-! ## Loading -/

/-- `Decoder`. -/
structure Decoder where
  buf : List UInt8
  pos : Nat
  version : Nat
  deriving DecidableEq

/-- How a decoder stops: it throws, or the recursion of the model has used up its fuel. -/
inductive Stop where
  | throw (what : String)
  | fuel
  deriving DecidableEq

def notEnoughData : Stop := .throw "Not enough data"

namespace Decoder

/-- The bytes from the position on. -/
def rest (dec : Decoder) : List UInt8 := dec.buf.drop dec.pos

/-- `pos += n`. -/
def advance (dec : Decoder) (n : Nat) : Decoder := { dec with pos := dec.pos + n }

/-- The check in front of a read of `n` bytes. -/
def need (dec : Decoder) (n : Nat) : Except Stop Unit :=
  if dec.buf.length < dec.pos + n then .error notEnoughData else .ok ()

/-- The byte `i` behind the position. -/
def byte (dec : Decoder) (i : Nat) : UInt8 := dec.buf.getD (dec.pos + i) 0

/-- `load_be16` at the position. -/
def loadBe16 (dec : Decoder) : UInt16 := be16 (dec.byte 0) (dec.byte 1)

/-- `load_be32`, `i` bytes behind the position. -/
def loadBe32 (dec : Decoder) (i : Nat) : UInt32 :=
  be32 (dec.byte i) (dec.byte (i + 1)) (dec.byte (i + 2)) (dec.byte (i + 3))

end Decoder

def peek (dec : Decoder) : Except Stop UInt8 :=
  match dec.buf[dec.pos]? with
  | none => .error notEnoughData
  | some b => .ok b

/-- `get_byte`: in AMF0 the switch byte is skipped, and the mode is AMF3 from then on. -/
def getByte (dec : Decoder) : Except Stop (UInt8 × Decoder) := do
  let dec ←
    if dec.version = 0 then do
      let b ← peek dec
      pure (if b = amf0SwitchAmf3 then { dec.advance 1 with version := 3 } else dec)
    else pure dec
  let b ← peek dec
  return (b, dec.advance 1)

/-- The turns of `load_amf3_integer` that are left. The fourth byte gives all its bits. -/
def loadAmf3IntegerLoop : Nat → UInt32 → Decoder → Except Stop (UInt32 × Decoder)
  | 0, value, dec => .ok (value, dec)
  | left + 1, value, dec => do
    let (b, dec) ← getByte dec
    if left = 0 then
      return ((value <<< 8) ||| b.toUInt32, dec)
    let value := (value <<< 7) ||| (b &&& 0x7f).toUInt32
    if b &&& 0x80 = 0 then
      return (value, dec)
    loadAmf3IntegerLoop left value dec

def loadAmf3Integer (dec : Decoder) : Except Stop (UInt32 × Decoder) := loadAmf3IntegerLoop 4 0 dec

/-- The text of `n` bytes at the position. -/
def loadText (dec : Decoder) (n : Nat) : Except Stop (List UInt8 × Decoder) := do
  dec.need n
  return (dec.rest.take n, dec.advance n)

def amfLoadString (dec : Decoder) : Except Stop (List UInt8 × Decoder) := do
  let (type, dec) ← getByte dec
  if dec.version = 3 then
    if type ≠ amf3String then throw (.throw "Expected a string")
    let (n, dec) ← loadAmf3Integer dec
    loadText dec (n.toNat / 2)
  else
    if type ≠ amf0String then throw (.throw "Expected a string")
    dec.need 2
    loadText (dec.advance 2) dec.loadBe16.toNat

def amfLoadNumber (dec : Decoder) : Except Stop (UInt64 × Decoder) := do
  let (type, dec) ← getByte dec
  if type ≠ amf0Number then throw (.throw "Expected a string")
  dec.need 8
  return (.ofNat ((dec.loadBe32 0).toNat * 2 ^ 32 + (dec.loadBe32 4).toNat), dec.advance 8)

/-- `amf_load_integer`. In AMF3 the type byte was only peeked at, and is read as the integer. -/
def amfLoadInteger (dec : Decoder) : Except Stop (Int32 × Decoder) :=
  if dec.version = 3 then do
    let (n, dec) ← loadAmf3Integer dec
    return (n.toInt32, dec)
  else do
    let (n, dec) ← amfLoadNumber dec
    return (intOfDouble n, dec)

def amfLoadBoolean (dec : Decoder) : Except Stop (Bool × Decoder) := do
  let (type, dec) ← getByte dec
  if type ≠ amf0Boolean then throw (.throw "Expected a boolean")
  let (b, dec) ← getByte dec
  return (b ≠ 0, dec)

def amfLoadKey (dec : Decoder) : Except Stop (List UInt8 × Decoder) := do
  dec.need 2
  loadText (dec.advance 2) dec.loadBe16.toNat

/-- `amf_load_object`, given its loop over the members. -/
def amfLoadObject (members : Decoder → Except Stop (AMFObject × Decoder)) (dec : Decoder) :
    Except Stop (AMFObject × Decoder) := do
  let (type, dec) ← getByte dec
  if type ≠ amf0Object then throw (.throw "Expected an object")
  let (object, dec) ← members dec
  let (type, dec) ← getByte dec
  if type ≠ amf0ObjectEnd then throw (.throw "expected object end")
  return (object, dec)

/-- `amf_load_ecma`, given its loop over the members. -/
def amfLoadEcma (members : Decoder → Except Stop (AMFObject × Decoder)) (dec : Decoder) :
    Except Stop (AMFObject × Decoder) := do
  let (type, dec) ← getByte dec
  if type ≠ amf0EcmaArray then throw (.throw "Expected an ECMA array")
  dec.need 4
  let (object, dec) ← members (dec.advance 4)
  let (type, dec) ← getByte dec
  if type ≠ amf0ObjectEnd then throw (.throw "expected object end")
  return (object, dec)

/-- The two digits of `%02x`. -/
def hex02 (b : UInt8) : String :=
  String.ofList [Nat.digitChar (b.toNat / 16), Nat.digitChar (b.toNat % 16)]

/-- A value of one byte, which is skipped. -/
def oneByte (dec : Decoder) (v : AMFValue) : Except Stop (AMFValue × Decoder) :=
  .ok (v, dec.advance 1)

/-- A loaded part as a value. -/
def asValue {α : Type} (f : α → AMFValue) (r : Except Stop (α × Decoder)) :
    Except Stop (AMFValue × Decoder) := do
  let (a, dec) ← r
  return (f a, dec)

mutual

/-- `amf_load` with at most `fuel` nested calls. An ECMA array becomes an object. -/
def amfLoadFuel : Nat → Decoder → Except Stop (AMFValue × Decoder)
  | 0, _ => .error .fuel
  | fuel + 1, dec => do
    let type ← peek dec
    if dec.version = 3 then
      if type = amf3String then asValue .string (amfLoadString dec)
      else if type = amf3Number then asValue .number (amfLoadNumber dec)
      else if type = amf3Integer then asValue .integer (amfLoadInteger dec)
      else if type = amf3False then oneByte dec (.boolean false)
      else if type = amf3True then oneByte dec (.boolean true)
      else if type = amf3Object then
        asValue .object (amfLoadObject (fun dec => loadMembers fuel dec .nil) dec)
      else if type = amf3Array then
        asValue .object (amfLoadEcma (fun dec => loadMembers fuel dec .nil) dec)
      else if type = amf3Null then oneByte dec .null
      else if type = amf3Undefined then oneByte dec .undefined
      else throw (.throw ("Unsupported AMF3 type: " ++ hex02 type))
    else
      if type = amf0String then asValue .string (amfLoadString dec)
      else if type = amf0Number then asValue .number (amfLoadNumber dec)
      else if type = amf0Boolean then asValue .boolean (amfLoadBoolean dec)
      else if type = amf0Object then
        asValue .object (amfLoadObject (fun dec => loadMembers fuel dec .nil) dec)
      else if type = amf0EcmaArray then
        asValue .object (amfLoadEcma (fun dec => loadMembers fuel dec .nil) dec)
      else if type = amf0Null then oneByte dec .null
      else if type = amf0Undefined then oneByte dec .undefined
      else throw (.throw ("Unsupported AMF0 type: " ++ hex02 type))

/-- The loop over the members, up to the empty key. -/
def loadMembers : Nat → Decoder → AMFObject → Except Stop (AMFObject × Decoder)
  | 0, _, _ => .error .fuel
  | fuel + 1, dec, object => do
    let (key, dec) ← amfLoadKey dec
    if key = [] then return (object, dec)
    let (value, dec) ← amfLoadFuel fuel dec
    loadMembers fuel dec (object.insert key value)

end

/-- `amf_load`. Every call but the outermost one has a byte less in front of it. -/
def amfLoad (dec : Decoder) : Except Stop (AMFValue × Decoder) :=
  amfLoadFuel (dec.rest.length + 1) dec

end AllCamera.RtmpAmf
