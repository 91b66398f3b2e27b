import AllCamera.Stream.MsgBlock

/-!
# RTP packets (`CRtpPacket`)

`CRtpPacket` lays `RTP_FIXED_HEADER` over a buffer and reads and writes its fields in place. Here
a packet is the memory `m` and the offset `p` of its first byte; a setter returns the memory.

* `parsePacket`: the length and version checks of `ParsePacket`. It clears the padding bit in the
  buffer. `reach` is how far into the packet it looked, and `parsePacket_reach` bounds it by the
  packet.
* `stamp`: `GeneratePacket` with the setters that every sender calls after it; `stamp_eq` gives
  the twelve bytes it writes.
-/

namespace AllCamera

/-- The codes of `SVS_RET_CODE` that the media path uses. -/
inductive RetCode where
  | ok
  | fail
  | errParam
  deriving DecidableEq, Repr

/-- The values of the codes. -/
def RetCode.value : RetCode → Nat
  | .ok => 0x00000000
  | .fail => 0x10000000
  | .errParam => 0x10001001

namespace RtpPacket

/-- `sizeof(RTP_FIXED_HEADER)`. -/
def fixedHeader : Nat := 12

/-- `RTP_PACKET_VERSION`. -/
def packetVersion : Nat := 2

/-! ## The fields of the fixed header -/

/-- `csrc_len:4`. -/
def csrcLen (m : Memory) (p : Int) : Nat := (m p).toNat % 16

/-- `extension:1`. -/
def extension (m : Memory) (p : Int) : Nat := (m p).toNat / 16 % 2

/-- `padding:1`. -/
def padding (m : Memory) (p : Int) : Nat := (m p).toNat / 32 % 2

/-- `version:2`. -/
def version (m : Memory) (p : Int) : Nat := (m p).toNat / 64

/-- `GetMarker`. -/
def getMarker (m : Memory) (p : Int) : Bool := (m (p + 1)).toNat / 128 == 1

/-- `GetPayloadType`. -/
def getPayloadType (m : Memory) (p : Int) : UInt8 := .ofNat ((m (p + 1)).toNat % 128)

/-- `GetSeqNum`. -/
def getSeqNum (m : Memory) (p : Int) : UInt16 := be16 (m (p + 2)) (m (p + 3))

/-- `GetTimeStamp`. -/
def getTimeStamp (m : Memory) (p : Int) : UInt32 :=
  be32 (m (p + 4)) (m (p + 5)) (m (p + 6)) (m (p + 7))

/-- `GetSSRC`: the field as the (little-endian) host reads it, without `ntohl`. -/
def getSSRC (m : Memory) (p : Int) : UInt32 :=
  be32 (m (p + 11)) (m (p + 10)) (m (p + 9)) (m (p + 8))

/-- `SetVersion`. -/
def setVersion (m : Memory) (p : Int) (v : Nat) : Memory :=
  m.write p [.ofNat (v % 4 * 64 + (m p).toNat % 64)]

/-- `SetPadding`. -/
def setPadding (m : Memory) (p : Int) (v : Nat) : Memory :=
  m.write p [.ofNat ((m p).toNat / 64 * 64 + v % 2 * 32 + (m p).toNat % 32)]

/-- The assignment of `extension` in `GeneratePacket`. -/
def setExtension (m : Memory) (p : Int) (v : Nat) : Memory :=
  m.write p [.ofNat ((m p).toNat / 32 * 32 + v % 2 * 16 + (m p).toNat % 16)]

/-- `SetMarker`. -/
def setMarker (m : Memory) (p : Int) (v : Bool) : Memory :=
  m.write (p + 1) [.ofNat ((if v then 128 else 0) + (m (p + 1)).toNat % 128)]

/-- `SetPayloadType`: seven bits of it. -/
def setPayloadType (m : Memory) (p : Int) (v : UInt8) : Memory :=
  m.write (p + 1) [.ofNat ((m (p + 1)).toNat / 128 * 128 + v.toNat % 128)]

/-- `SetSeqNum`. -/
def setSeqNum (m : Memory) (p : Int) (v : UInt16) : Memory := m.write (p + 2) (be16Bytes v)

/-- `SetTimeStamp`. -/
def setTimeStamp (m : Memory) (p : Int) (v : UInt32) : Memory := m.write (p + 4) (be32Bytes v)

/-- `SetSSRC`: stored as the host holds it. -/
def setSSRC (m : Memory) (p : Int) (v : UInt32) : Memory :=
  m.write (p + 8) (be32Bytes v).reverse

/-! ## `ParsePacket` -/

/-- What `ParsePacket` leaves: its code, `m_ulHeadLen` and `m_ulTailLen` of a fresh `CRtpPacket`,
the buffer, and how many leading bytes of the packet it looked at. -/
structure Parsed where
  ret : RetCode
  headLen : Nat
  tailLen : Nat
  data : Memory
  reach : Nat

/-- The first half of `ParsePacket`: the padding bit is cleared. -/
def clearPadding (m : Memory) (p : Int) : Memory :=
  if padding m p = 1 then setPadding m p 0 else m

/-- The second half of `ParsePacket`, behind the padding: the CSRC list, the version and the
extension header of the `len` bytes at `p`. -/
def parseHead (m : Memory) (p : Int) (len tail reach : Nat) : Parsed :=
  let headLen := fixedHeader + csrcLen m p * 4
  if len < headLen then ⟨.errParam, 0, tail, m, reach⟩
  else if version m p ≠ packetVersion then ⟨.fail, 0, tail, m, reach⟩
  -- no extension header
  else if extension m p ≠ 1 then ⟨.ok, headLen, tail, m, reach⟩
  else if len < headLen + 4 then ⟨.errParam, 0, tail, m, reach⟩
  else
    let words := be16 (m (p + headLen + 2)) (m (p + headLen + 3))
    let full := headLen + 4 + words.toNat * 4
    if len < full then ⟨.errParam, 0, tail, m, max reach (headLen + 4)⟩
    else ⟨.ok, full, tail, m, max reach (headLen + 4)⟩

/-- `ParsePacket` of the `len` bytes at `p`. -/
def parsePacket (m : Memory) (p : Int) (len : Nat) : Parsed :=
  if len < fixedHeader then ⟨.errParam, 0, 0, m, 0⟩
  else if padding m p = 1 then
    parseHead (clearPadding m p) p len (m (p + len - 1)).toNat len
  else parseHead (clearPadding m p) p len 0 fixedHeader

theorem parseHead_reach {m : Memory} {p : Int} {len tail reach : Nat} (h : reach ≤ len) :
    (parseHead m p len tail reach).reach ≤ len := by
  unfold parseHead
  simp only
  split_ifs <;> simp only <;> omega

theorem parseHead_headLen {m : Memory} {p : Int} {len tail reach : Nat}
    (h : (parseHead m p len tail reach).ret = .ok) :
    fixedHeader ≤ (parseHead m p len tail reach).headLen ∧
      (parseHead m p len tail reach).headLen ≤ len := by
  revert h
  unfold parseHead
  simp only
  split_ifs <;> simp only [false_imp_iff, true_imp_iff] <;> omega

@[simp] theorem parseHead_data (m : Memory) (p : Int) (len tail reach : Nat) :
    (parseHead m p len tail reach).data = m := by
  unfold parseHead
  simp only
  split_ifs <;> rfl

/-- `ParsePacket` looks only at the packet. -/
theorem parsePacket_reach (m : Memory) (p : Int) (len : Nat) :
    (parsePacket m p len).reach ≤ len := by
  unfold parsePacket
  split_ifs
  · exact Nat.zero_le _
  · exact parseHead_reach (Nat.le_refl _)
  · exact parseHead_reach (by omega)

/-- The head that `ParsePacket` accepts is part of the packet and holds the fixed header. -/
theorem parsePacket_headLen {m : Memory} {p : Int} {len : Nat}
    (h : (parsePacket m p len).ret = .ok) :
    fixedHeader ≤ (parsePacket m p len).headLen ∧ (parsePacket m p len).headLen ≤ len := by
  revert h
  unfold parsePacket
  split_ifs
  · simp
  · exact parseHead_headLen
  · exact parseHead_headLen

/-- A packet without the padding bit is left as it is. -/
theorem parsePacket_data {m : Memory} {p : Int} {len : Nat} (h : padding m p ≠ 1) :
    (parsePacket m p len).data = m := by
  unfold parsePacket
  split_ifs <;> simp [clearPadding, h]

/-- `ParsePacket` changes at most the first byte. -/
theorem parsePacket_data_of_ne {m : Memory} {p i : Int} {len : Nat} (h : i ≠ p) :
    (parsePacket m p len).data i = m i := by
  have hw : setPadding m p 0 i = m i := by
    by_cases hi : i < p
    · exact Memory.write_of_lt hi
    · exact Memory.write_of_ge (by simp only [List.length_singleton]; omega)
  unfold parsePacket clearPadding
  split_ifs <;> simp [hw]

/-- A packet whose first byte has version 2 and nothing else: the head is the fixed header. -/
theorem parsePacket_plain {m : Memory} {p : Int} {len : Nat} (h : m p = 128)
    (hlen : fixedHeader ≤ len) : parsePacket m p len = ⟨.ok, fixedHeader, 0, m, fixedHeader⟩ := by
  have hpad : padding m p ≠ 1 := by rw [padding, h]; decide
  have hext : extension m p ≠ 1 := by rw [extension, h]; decide
  have hver : version m p = packetVersion := by rw [version, h]; decide
  have hcsrc : csrcLen m p = 0 := by rw [csrcLen, h]; decide
  rw [parsePacket, if_neg (by omega), if_neg hpad, clearPadding, if_neg hpad, parseHead]
  simp only [hcsrc, hver, Nat.zero_mul, Nat.add_zero]
  rw [if_neg (by omega), if_neg (by simp), if_pos hext]

/-! ## A generated header -/

/-- The fields that a sender sets. -/
structure Head where
  payloadType : UInt8
  marker : Bool
  seqNum : UInt16
  timeStamp : UInt32
  ssrc : UInt32

/-- `GeneratePacket` over `len` bytes: all zero, then the version and the default payload. -/
def generatePacket (m : Memory) (p : Int) (len : Nat) : Memory :=
  let m := m.write p (List.replicate len 0)
  let m := setVersion m p packetVersion
  let m := setMarker m p false
  let m := setPayloadType m p 96
  setExtension m p 0

/-- `GeneratePacket` over a fixed header and the setters that the senders call after it. -/
def stamp (m : Memory) (p : Int) (h : Head) : Memory :=
  let m := generatePacket m p fixedHeader
  let m := setTimeStamp m p h.timeStamp
  let m := setSSRC m p h.ssrc
  let m := setSeqNum m p h.seqNum
  let m := setMarker m p h.marker
  setPayloadType m p h.payloadType

/-- The twelve bytes of a header. -/
def Head.bytes (h : Head) : List UInt8 :=
  [128, .ofNat ((if h.marker then 128 else 0) + h.payloadType.toNat % 128)] ++
    be16Bytes h.seqNum ++ be32Bytes h.timeStamp ++ (be32Bytes h.ssrc).reverse

@[simp] theorem Head.length_bytes (h : Head) : h.bytes.length = fixedHeader := rfl

/-- A setter on bytes that were just written only changes the bytes written. -/
theorem write_set (m : Memory) (p : Int) {l c : List UInt8} (k : Nat)
    (h : k + c.length ≤ l.length) :
    (m.write p l).write (p + k) c = m.write p (l.take k ++ c ++ l.drop (k + c.length)) :=
  Memory.write_write_inside h

section Bytes

variable (m : Memory) (p : Int) (a b c : UInt8) (l : List UInt8)

theorem write_first : m.write p (a :: l) p = a := by
  simpa using Memory.write_at (m := m) (p := p) (l := a :: l) (k := 0) (by simp)

theorem write_second : m.write p (a :: b :: l) (p + 1) = b := by
  simpa using Memory.write_at (m := m) (p := p) (l := a :: b :: l) (k := 1) (by simp)

theorem set_first : (m.write p (a :: l)).write p [c] = m.write p (c :: l) := by
  simpa using write_set m p (l := a :: l) (c := [c]) 0 (by simp)

theorem set_second : (m.write p (a :: b :: l)).write (p + 1) [c] = m.write p (a :: c :: l) := by
  simpa using write_set m p (l := a :: b :: l) (c := [c]) 1 (by simp)

end Bytes

/-- `GeneratePacket` on two bytes and more. -/
theorem generatePacket_eq (m : Memory) (p : Int) (len : Nat) :
    generatePacket m p (len + 2) = m.write p ([128, 96] ++ List.replicate len 0) := by
  simp only [generatePacket, setVersion, setMarker, setPayloadType, setExtension,
    List.replicate_succ, write_first, write_second, set_first, set_second]
  rfl

/-- `stamp` writes the header's bytes, and nothing else. -/
theorem stamp_eq (m : Memory) (p : Int) (h : Head) : stamp m p h = m.write p h.bytes := by
  have ts : setTimeStamp (m.write p ([128, 96] ++ List.replicate 10 0)) p h.timeStamp =
      m.write p ([128, 96, 0, 0] ++ be32Bytes h.timeStamp ++ [0, 0, 0, 0]) :=
    write_set m p 4 (by simp [be32Bytes])
  have ss : setSSRC (m.write p ([128, 96, 0, 0] ++ be32Bytes h.timeStamp ++ [0, 0, 0, 0])) p h.ssrc =
      m.write p ([128, 96, 0, 0] ++ be32Bytes h.timeStamp ++ (be32Bytes h.ssrc).reverse) :=
    write_set m p 8 (by simp [be32Bytes])
  have sq : setSeqNum (m.write p ([128, 96, 0, 0] ++ be32Bytes h.timeStamp ++
      (be32Bytes h.ssrc).reverse)) p h.seqNum =
      m.write p ([128, 96] ++ be16Bytes h.seqNum ++ be32Bytes h.timeStamp ++
        (be32Bytes h.ssrc).reverse) :=
    write_set m p 2 (by simp [be32Bytes, be16Bytes])
  simp only [stamp]
  rw [show fixedHeader = 10 + 2 from rfl, generatePacket_eq, ts, ss, sq]
  simp only [setMarker, setPayloadType, List.cons_append, List.nil_append, write_second, set_second, Head.bytes]
  -- the marker that `SetMarker` stored is the one that `SetPayloadType` keeps
  congr 4
  cases h.marker <;> simp

/-- A received packet: a header and a payload behind the transmit header of a block. -/
def received (h : Head) (payload : List UInt8) : MsgBlock where
  data := Memory.write (fun _ => 0) MsgBlock.transmitHead (h.bytes ++ payload)
  size := MsgBlock.blockSize
  rd := MsgBlock.transmitHead
  wr := MsgBlock.transmitHead + (fixedHeader + payload.length)

theorem received_byte_zero (h : Head) (payload : List UInt8) :
    (received h payload).data (received h payload).rd = 128 := by
  have := Memory.write_at (m := fun _ => 0) (p := MsgBlock.transmitHead) (k := 0)
    (l := h.bytes ++ payload) (by simp [Head.bytes])
  simpa [received, Head.bytes] using this

theorem received_length {h : Head} {payload : List UInt8} (hlen : payload.length < 2 ^ 31) :
    (received h payload).length32 = fixedHeader + payload.length := by
  have hdiff : (received h payload).wr - (received h payload).rd =
      (fixedHeader + payload.length : Nat) := by
    simp only [received]
    omega
  have := MsgBlock.length_of_le (b := received h payload) (by omega) (by rw [hdiff, fixedHeader]; omega)
  rw [hdiff] at this
  rw [MsgBlock.length32, Int.ofNat_inj.mp this, fixedHeader]
  omega

end RtpPacket

end AllCamera
