import AllCamera.Stream.RtpPacket

/-!
# The state of the program stream demultiplexer

`CStreamPsMediaProcessorSet` takes the packets of one RTP frame, strips their RTP headers, parses
the program stream in the blocks that are left, and sends the elementary streams on as new RTP
packets. `Demux` is its state inside that loop: the members of the class, the `es_frame_info` and
the `FrameParserList` of the frame, and what was given to `CStreamMediaProcessorSet::Send`.

* `Env`: what the code reads but does not write first: the buffers of the pool and the stack.
* `Fault`: a read outside a block, a read pointer past its write pointer, a length below zero. The
  code goes on after each; the model does too and keeps a log of them.
* `skipBytes`: how every header handler leaves its header behind.
-/

namespace AllCamera

/-! ## Constants -/

namespace PayloadType

/-- `PT_TYPE_PCMU`. -/
def pcmu : UInt8 := 0

/-- `PT_TYPE_PCMA`. -/
def pcma : UInt8 := 8

/-- `PT_TYPE_PS`, the default of `GeneratePacket`. -/
def ps : UInt8 := 96

/-- `PT_TYPE_MPEG4`. -/
def mpeg4 : UInt8 := 97

/-- `PT_TYPE_H264`. -/
def h264 : UInt8 := 98

/-- `PT_TYPE_H265`. -/
def h265 : UInt8 := 99

/-- `PT_TYPE_MAX`: not known yet. -/
def max : UInt8 := 0xFF

end PayloadType

/-- `AUDIO_STREAM_ID`. -/
def audioStreamId : UInt8 := 0xC0

/-- `VIDEO_STREAM_ID`. -/
def videoStreamId : UInt8 := 0xE0

/-- The bytes `00 00 00 01` in front of a NAL unit (`H264_START_CODE`, `H265_START_CODE` long). -/
def startCode : List UInt8 := [0, 0, 0, 1]

/-! ## Faults -/

/-- What the code should not do: read a byte outside a block's packet, move a read pointer past
the write pointer, take a length below zero. -/
inductive Fault where
  | read
  | order
  | length
  deriving DecidableEq, Repr

/-- The fault `f` unless `p`. -/
def Fault.unless (p : Prop) [Decidable p] (f : Fault) : List Fault := if p then [] else [f]

@[simp] theorem Fault.unless_eq_nil {p : Prop} [Decidable p] {f : Fault} :
    Fault.unless p f = [] ↔ p := by
  unfold Fault.unless
  split <;> simp_all

/-! ## Blocks -/

/-- How many bytes are compared until the first that differs. -/
def scan : List UInt8 → List UInt8 → Nat
  | p :: ps, x :: xs => if p = x then scan ps xs + 1 else 1
  | _, _ => 0

theorem scan_le (pat bs : List UInt8) : scan pat bs ≤ pat.length := by
  induction pat generalizing bs with
  | nil => simp [scan]
  | cons p ps ih =>
    cases bs with
    | nil => simp [scan]
    | cons x xs =>
      have := ih xs
      simp only [scan, List.length_cons]
      split <;> omega

namespace MsgBlock

/-- The bytes at the read pointer are `pat`, whether they belong to the packet or not. -/
def startsWith (b : MsgBlock) (pat : List UInt8) : Bool := b.data.read b.rd pat.length == pat

/-- How many bytes a comparison with `pat` looks at: it stops at the first that differs. -/
def scanned (b : MsgBlock) (pat : List UInt8) : Nat := scan pat (b.data.read b.rd pat.length)

theorem scanned_le (b : MsgBlock) (pat : List UInt8) : b.scanned pat ≤ pat.length := scan_le _ _

/-- The first `n` bytes are read. -/
def readFaults (b : MsgBlock) (n : Nat) : List Fault := Fault.unless (b.rd + n ≤ b.wr) .read

theorem readFaults_eq_nil {b : MsgBlock} {n : Nat} (h : b.rd + n ≤ b.wr) : b.readFaults n = [] :=
  if_pos h

/-- The read pointer was moved. -/
def orderFaults (b : MsgBlock) : List Fault := Fault.unless (b.rd ≤ b.wr) .order

/-- The first `n` bytes are copied to `new`, if they fit there. -/
def copyFaults (b new : MsgBlock) (n : Nat) : List Fault :=
  Fault.unless (new.space < n ∨ b.rd + n ≤ b.wr) .read

/-- Behind the start code and what else makes up `n` bytes, if the block begins with one. -/
def behindCode (b : MsgBlock) (n : Nat) : MsgBlock :=
  if b.startsWith startCode then b.advance n else b

/-- The search for a start code, and the NAL header's first byte if it has to be seen. -/
def codeFaults (b : MsgBlock) (n : Nat) : List Fault :=
  b.readFaults (b.scanned startCode) ++
    (if b.startsWith startCode ∧ 4 < n then b.readFaults 5 else []) ++ (b.behindCode n).orderFaults

/-- The 16-bit length field at `i`. -/
def be16At (b : MsgBlock) (i : Nat) : Nat := (be16 (b.byte i) (b.byte (i + 1))).toNat

/-- The RTP header `h` in the twelve bytes before the read pointer, which moves back to it. -/
def stampFront (b : MsgBlock) (h : RtpPacket.Head) : MsgBlock :=
  let b := b.retreat RtpPacket.fixedHeader
  { b with data := RtpPacket.stamp b.data b.rd h }

/-- A block of the pool with the RTP header `h` in front. -/
def ofPool (buffer : Memory) (h : RtpPacket.Head) : MsgBlock where
  data := RtpPacket.stamp buffer 0 h
  size := blockSize
  rd := 0
  wr := RtpPacket.fixedHeader

/-- `bs` stored at the write pointer, which moves behind them. -/
def append (b : MsgBlock) (bs : List UInt8) : MsgBlock :=
  { b with data := b.data.write b.wr bs, wr := b.wr + bs.length }

end MsgBlock

/-! ## Offsets in order -/

namespace MsgBlock

/-- The offsets are in order and inside the buffer. -/
structure Inside (b : MsgBlock) : Prop where
  base : 0 ≤ b.rd
  order : b.rd ≤ b.wr
  top : b.wr ≤ blockSize

variable {b : MsgBlock} {n : Nat}

theorem Inside.length_le (h : b.Inside) : b.length ≤ blockSize := by
  obtain ⟨h1, h2, h3⟩ := h
  unfold length blockSize at *
  omega

theorem Inside.length_eq (h : b.Inside) : (b.length : Int) = b.wr - b.rd := by
  obtain ⟨h1, h2, h3⟩ := h
  unfold length blockSize at *
  omega

theorem Inside.length32_eq (h : b.Inside) : b.length32 = b.length := by
  have := h.length_le
  unfold length32 blockSize at *
  omega

theorem Inside.advance (h : b.Inside) (hn : n ≤ b.length) : (b.advance n).Inside := by
  have := h.length_eq
  obtain ⟨h1, h2, h3⟩ := h
  refine ⟨?_, ?_, h3⟩ <;> simp only [MsgBlock.advance] <;> omega

theorem Inside.length_advance (h : b.Inside) (hn : n ≤ b.length) :
    (b.advance n).length = b.length - n := by
  have h1 := h.length_eq
  have h2 := (h.advance hn).length_eq
  simp only [MsgBlock.advance] at h2 ⊢
  omega

@[simp] theorem length_payload (b : MsgBlock) : b.payload.length = b.length :=
  Memory.length_read _ _ _

theorem Inside.payload_advance (h : b.Inside) (hn : n ≤ b.length) :
    (b.advance n).payload = b.payload.drop n := by
  rw [payload, payload, h.length_advance hn, Memory.drop_read]
  rfl

theorem Inside.readFaults (h : b.Inside) (hn : n ≤ b.length) : b.readFaults n = [] := by
  have := h.length_eq
  exact readFaults_eq_nil (by omega)

theorem Inside.orderFaults (h : b.Inside) : b.orderFaults = [] := if_pos h.order

theorem Inside.copyFaults (h : b.Inside) (hn : n ≤ b.length) (new : MsgBlock) :
    b.copyFaults new n = [] := by
  have := h.length_eq
  exact if_pos (.inr (by omega))

end MsgBlock

/-- The front block's read pointer moves on by `n`. -/
def advanceFront (n : Nat) : List MsgBlock → List MsgBlock
  | [] => []
  | b :: bs => b.advance n :: bs

/-- Skips `n` header bytes: in the front block, or with all of it and the rest in the next one. -/
def skipBytes (n : Nat) : List MsgBlock → List MsgBlock
  | [] => []
  | b :: bs => if n < b.length32 then b.advance n :: bs else advanceFront (n - b.length32) bs

/-! ## The state -/

/-- `MPEGParseState`. -/
inductive ParseState where
  | packHeader
  | systemHeader
  | sysmapHeader
  | privateHeader
  | pesPacket
  | foundData
  deriving DecidableEq, Repr

/-- `es_frame_info`; `length` is below 2^32. -/
structure EsFrameInfo where
  payload : UInt8
  length : Nat
  streamId : UInt8
  timestamp : UInt32
  ssrc : UInt32

/-- What the code finds and did not write: the buffer of the `k`-th block that the pool gives
(`none` when it is empty), and the stack bytes of `nalu_hdr` by the number of packets sent. -/
structure Env where
  alloc : Nat → Option Memory
  naluHdr : Nat → UInt8

/-- A pool that never runs empty, and memory that is zero. -/
def Env.zero : Env := ⟨fun _ => some fun _ => 0, fun _ => 0⟩

/-- `CStreamPsMediaProcessorSet` in `dealProgramStreamRtpFrame`. -/
structure Demux where
  usRtpSeq : UInt16
  status : ParseState
  videoPayload : UInt8
  audioPayload : UInt8
  info : EsFrameInfo
  list : List MsgBlock
  sent : List MsgBlock
  allocs : Nat
  faults : List Fault

namespace Demux

/-- The constructor. -/
def init : Demux where
  usRtpSeq := 0
  status := .packHeader
  videoPayload := PayloadType.h264
  audioPayload := PayloadType.pcmu
  info := ⟨0, 0, 0, 0, 0⟩
  list := []
  sent := []
  allocs := 0
  faults := []

/-- The log with `fs` behind it. -/
def log (d : Demux) (fs : List Fault) : Demux := { d with faults := d.faults ++ fs }

/-- The header of the next packet. -/
def head (d : Demux) (payloadType : UInt8) (marker : Bool) : RtpPacket.Head :=
  ⟨payloadType, marker, d.usRtpSeq, d.info.timestamp, d.info.ssrc⟩

/-- `CStreamMediaProcessorSet::Send`, for the packet that got the next number. -/
def send (d : Demux) (b : MsgBlock) : Demux :=
  { d with sent := d.sent ++ [b], usRtpSeq := d.usRtpSeq + 1 }

theorem log_log (d : Demux) (fs gs : List Fault) : (d.log fs).log gs = d.log (fs ++ gs) := by
  simp [log]

/-- The sender leaves the list at `b`, after one more request to the pool. -/
def leave (d : Demux) (b : MsgBlock) (bs : List MsgBlock) : Demux :=
  { d.log b.orderFaults with list := b :: bs, allocs := d.allocs + 1 }

end Demux

end AllCamera
