import AllCamera.Stream.RtpPacket
import AllCamera.Stream.RtspPacket
import AllCamera.Stream.TcpReceive

/-!
# RTSP messages and media on one connection (`CStreamRtspPushSession`)

The handler of a push session takes interleaved frames, whatever it does with them, and RTSP
messages, which it gives to `DecodeRtspMessage`.

* `RtspPushSession`: the members, and what was passed on.
* `isParsable`, `processRecvedMessage`: the length of the first message, and the handler.
-/

namespace AllCamera

/-- The members that say what becomes of media data; the messages set them. -/
structure PushSessionMedia where
  hasRtpSession : Bool
  hasPeerSession : Bool
  isTcp : Bool
  cVideoInterleaveNum : UInt8
  cAudioInterleaveNum : UInt8

/-- `CStreamRtspPushSession`, with the messages that were given to `DecodeRtspMessage` and the
payloads that were given to `handleMediaData`. -/
structure RtspPushSession where
  session : PushSessionMedia
  messages : List (List UInt8)
  media : List (List UInt8)

/-- The rest of the program: what a message makes of the members, and whether the `k`-th block for
media data is allocated. -/
structure PushSessionRest where
  handleRtspMessage : PushSessionMedia → List UInt8 → PushSessionMedia
  allocMediaBlock : Nat → Bool

/-- `IsParsable`: the length of the message in front, 0 if it is not there as a whole, or a negative
number; and the buffer. -/
def isParsable (m : Memory) (p n : Nat) : Int × Memory :=
  let r := checkRtsp m p n
  if r.ret ≠ 0 then (-1, r.data)
  else if r.unMsgLen = 0 then (0, r.data)
  else if n < r.unMsgLen.toNat then (0, r.data)
  else (r.unMsgLen.toNat, r.data)

namespace RtspPushSession

/-- `RTSP_INTERLEAVE_FLAG`. -/
def interleaveFlag : UInt8 := 0x24

/-- `RTSP_INTERLEAVE_HEADER_LEN`. -/
def interleaveHeaderLen : Nat := 4

/-- A new session. -/
def init (session : PushSessionMedia) : RtspPushSession := ⟨session, [], []⟩

variable (d : PushSessionRest)

/-- `handleMediaData`: `ParsePacket` may clear the padding bit in the buffer. -/
def handleMediaData (s : RtspPushSession) (m : Memory) (p n : Nat) : Memory × RtspPushSession :=
  let k := s.media.length
  let s := { s with media := s.media ++ [m.read p n] }
  if d.allocMediaBlock k then ((RtpPacket.parsePacket m p n).data, s) else (m, s)

/-- `handleRTPRTCPData`. -/
def handleRTPRTCPData (s : RtspPushSession) (m : Memory) (p n : Nat) :
    Receiver.Handled RtspPushSession :=
  if n < interleaveHeaderLen then ⟨0, m, s⟩
  else
    let unMediaSize := (be16 (m (p + 2 : Nat)) (m (p + 3 : Nat))).toNat
    if n - interleaveHeaderLen < unMediaSize then ⟨0, m, s⟩
    else if s.session.hasRtpSession ∧ s.session.hasPeerSession ∧ s.session.isTcp ∧
        (s.session.cVideoInterleaveNum = m (p + 1 : Nat) ∨
          s.session.cAudioInterleaveNum = m (p + 1 : Nat)) then
      let r := s.handleMediaData d m (p + interleaveHeaderLen) unMediaSize
      ⟨(unMediaSize + interleaveHeaderLen : Nat), r.1, r.2⟩
    else ⟨(unMediaSize + interleaveHeaderLen : Nat), m, s⟩

/-- `processRecvedMessage`. A message that is not decoded or not handled is taken all the same. -/
def processRecvedMessage (s : RtspPushSession) (m : Memory) (p n : Nat) :
    Receiver.Handled RtspPushSession :=
  if n = 0 then ⟨-1, m, s⟩
  else if m p = interleaveFlag then s.handleRTPRTCPData d m p n
  else
    let (nMessageLen, m) := isParsable m p n
    if nMessageLen < 0 then ⟨-1, m, s⟩
    else if nMessageLen = 0 then ⟨0, m, s⟩
    else
      let msg := m.read p nMessageLen.toNat
      ⟨nMessageLen, m, { s with
        session := d.handleRtspMessage s.session msg
        messages := s.messages ++ [msg] }⟩

end RtspPushSession

end AllCamera
