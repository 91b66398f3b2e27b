import AllCamera.Lib.Find
import AllCamera.Lib.Memory

/-!
# Where an RTSP message ends (`CRtspPacket::checkRtsp`)

`checkRtsp` looks for the end of the first message in the bytes that were received. It compares the
method with `strncmp` on the buffer, also behind the received bytes, and searches the end of the
header and the content length in everything that was received.

* `trimString`, `atoi`: the functions that it uses, with `string::find` (`find`).
* `checkRtsp`: its return value, the message length, and the buffer, in which it may write a letter.
-/

namespace AllCamera

/-- The bytes of a string literal. -/
def ascii (s : String) : List UInt8 := s.toList.map fun c => UInt8.ofNat c.toNat

/-- Letter by letter. A literal unifies with the list of its letters. -/
theorem ascii_ofList (l : List Char) : ascii (.ofList l) = l.map fun c => UInt8.ofNat c.toNat :=
  congrArg (List.map _) String.toList_ofList

theorem ascii_append (s t : String) : ascii (s ++ t) = ascii s ++ ascii t := by
  rw [ascii, String.toList_append, List.map_append]
  rfl

/-! ## Strings -/

/-- `trimString`: without the blanks at both ends. -/
def trimString (s : List UInt8) : List UInt8 :=
  ((s.reverse.dropWhile (· = 32)).reverse).dropWhile (· = 32)

/-- A decimal digit. -/
def isDigit (c : UInt8) : Bool := 48 ≤ c ∧ c ≤ 57

/-- The value of decimal digits. -/
def digitsValue (s : List UInt8) : Nat := s.foldl (fun n c => n * 10 + (c.toNat - 48)) 0

/-- White space of the C locale. -/
def isSpace (c : UInt8) : Bool := c = 32 ∨ (9 ≤ c ∧ c ≤ 13)

/-- `atoi`, as a `uint32_t`: white space, a sign, and digits up to the first other character. It wraps modulo
2^32 throughout; the `strtol` of the C library does so below 2^63 and saturates from there on. -/
def atoi (s : List UInt8) : UInt32 :=
  match s.dropWhile isSpace with
  | 45 :: s => 0 - UInt32.ofNat (digitsValue (s.takeWhile isDigit))
  | 43 :: s => UInt32.ofNat (digitsValue (s.takeWhile isDigit))
  | s => UInt32.ofNat (digitsValue (s.takeWhile isDigit))

/-! ## `CRtspPacket` -/

/-- `m_strRtspMethods`. -/
def rtspMethods : List (List UInt8) :=
  [ascii "DESCRIBE", ascii "SETUP", ascii "TEARDOWN", ascii "PLAY", ascii "PAUSE", ascii "OPTIONS",
    ascii "ANNOUNCE", ascii "GET_PARAMETER", ascii "SET_PARAMETER", ascii "REDIRECT", ascii "RECORD",
    ascii "RTSP/1.0"]

/-- `RTSP_END_LINE`. -/
def rtspEndLine : List UInt8 := [13, 10]

/-- `RTSP_END_MSG`. -/
def rtspEndMsg : List UInt8 := [13, 10, 13, 10]

/-- `RTSP_MSG_LENGTH`. -/
def rtspMsgLength : Nat := 2048

/-- The name that is searched first. -/
def contentLength : List UInt8 := ascii "Content-Length:"

/-- The name that is searched if the first is not found. -/
def contentLengthLower : List UInt8 := ascii "Content-length:"

/-- The methods loop: the name of a method lies at `p`. -/
def knownMethod (m : Memory) (p : Nat) : Bool :=
  rtspMethods.any fun name => m.read p name.length == name

/-- What `checkRtsp` returned, `unMsgLen`, and the buffer. -/
structure Checked where
  ret : Int
  unMsgLen : UInt32
  data : Memory

/-- The header behind `endPos`, up to where the line should end: the search for the end of the line
begins at the front of the message. -/
def lengthField (strRtspMsg : List UInt8) (endPos endLine : Nat) : UInt32 :=
  atoi (trimString ((strRtspMsg.drop (endPos + contentLength.length)).take endLine))

/-- `checkRtsp` of the `n` bytes at `p`. `unMsgLen` is 0 before the call. -/
def checkRtsp (m : Memory) (p n : Nat) : Checked :=
  if knownMethod m p then
    let strRtspMsg := m.read p n
    match find rtspEndMsg strRtspMsg with
    | none => if rtspMsgLength ≤ n then ⟨-1, 0, m⟩ else ⟨0, 0, m⟩
    | some endPos =>
      let unMsgLen := UInt32.ofNat endPos + 4
      match find contentLength strRtspMsg, find contentLengthLower strRtspMsg with
      | none, none => ⟨0, unMsgLen, m⟩
      | some endPos, _ =>
        match find rtspEndLine strRtspMsg with
        | none => ⟨-1, unMsgLen, m⟩
        | some endLine => ⟨0, unMsgLen + lengthField strRtspMsg endPos endLine, m⟩
      | none, some endPos =>
        -- the `l` of `length` becomes an `L`
        let m := m.write (p + endPos + 8 : Nat) [76]
        match find rtspEndLine strRtspMsg with
        | none => ⟨-1, unMsgLen, m⟩
        | some endLine => ⟨0, unMsgLen + lengthField strRtspMsg endPos endLine, m⟩
  else ⟨-1, 0, m⟩

end AllCamera
