import AllCamera.Stream.RtpPacket
import AllCamera.Stream.RtspPacket
import AllCamera.Stream.TcpReceive

/-!
# RTP, RTCP and RTSP on one TCP connection (`CRtpTcpConnect`)

The handler of a media connection finds out what comes next, by the `$` of an interleaved frame, and
whether it is there as a whole. A frame of a media channel goes to `handleMediaData`; RTCP frames
and RTSP messages go to `handleControlMessage`.

* `RtpTcpConnect`: the members, and what was passed to these two.
* `handleRecvedData`: the handler.
* `Downstream`: what it asks the pool, the exchange, the session of the stream and others.
-/

namespace AllCamera

/-- `m_usInnerMsgType`. -/
inductive InnerMsgType where
  | rtp
  | rtsp
  | rtcp
  deriving DecidableEq, Repr

/-- What a call of `handleMediaData` or `handleControlMessage` was given: the members that say what
the data is, and the bytes. -/
structure Passed where
  usInnerMsgType : InnerMsgType
  unDataOffset : Nat
  unSize : Nat
  data : List UInt8
  deriving DecidableEq, Repr

/-- `CRtpTcpConnect`. -/
structure RtpTcpConnect where
  ullStreamID : UInt64
  cVideoInterleaveNum : UInt8
  cAudioInterleaveNum : UInt8
  bServiceType : Bool
  unSize : Nat
  unDataOffset : Nat
  usInnerMsgType : InnerMsgType
  passed : List Passed
  deriving Repr

/-- The rest of the program: whether the `k`-th block is allocated, and its data taken by the
exchange or the service task; `CRtspPacket::parse` with `getSessionID` on the message in the buffer;
and whether `addTcpConnect` and `getPlayType` succeed for a stream. -/
structure Downstream where
  allocMediaBlock : Nat → Bool
  addData : Nat → Bool
  enqueueInnerMessage : Nat → Bool
  parse : Memory → Nat → Nat → Option UInt64
  addTcpConnect : UInt64 → Bool
  playType : UInt64 → Bool

/-- `_enPARSE_DATA_INFO_RET`; `other` is the -1 of `parseRtspPacket`, which is none of them. -/
inductive ParseRet where
  | ok
  | fail
  | dataLack
  | other
  deriving DecidableEq, Repr

namespace RtpTcpConnect

/-- `RTP_INTERLEAVE_FLAG`. -/
def interleaveFlag : UInt8 := 0x24

/-- `RTP_INTERLEAVE_LENGTH`. -/
def interleaveLength : Nat := 4

/-- `sizeof(STREAM_INNER_MSG)`. -/
def innerMsgLength : Nat := 32

/-- The constructors, for a stream that is known already or 0. -/
def init (ullStreamID : UInt64) (cVideoInterleaveNum cAudioInterleaveNum : UInt8) :
    RtpTcpConnect where
  ullStreamID := ullStreamID
  cVideoInterleaveNum := cVideoInterleaveNum
  cAudioInterleaveNum := cAudioInterleaveNum
  bServiceType := false
  unSize := 0
  unDataOffset := 0
  usInnerMsgType := .rtp
  passed := []

/-- `parseRtpRtcpPacket`. -/
def parseRtpRtcpPacket (c : RtpTcpConnect) (m : Memory) (p n : Nat) : ParseRet × RtpTcpConnect :=
  if n < interleaveLength then (.dataLack, c)
  else
    let c := { c with unSize := (be16 (m (p + 2 : Nat)) (m (p + 3 : Nat))).toNat }
    if n - interleaveLength < c.unSize then (.dataLack, c)
    else
      (.ok, { c with
        usInnerMsgType :=
          if c.cVideoInterleaveNum = m (p + 1 : Nat) ∨ c.cAudioInterleaveNum = m (p + 1 : Nat) then .rtp
          else .rtcp
        unDataOffset := interleaveLength })

/-- The part of `parseRtspPacket` that finds the stream of a new connection. -/
def findStream (d : Downstream) (c : RtpTcpConnect) (m : Memory) (p : Nat) : ParseRet × RtpTcpConnect :=
  if c.ullStreamID ≠ 0 then (.ok, c)
  else
    match d.parse m p c.unSize with
    | none => (.fail, c)
    | some id =>
      let c := { c with ullStreamID := id }
      if d.addTcpConnect id ∧ id ≠ 0 ∧ d.playType id then (.ok, { c with bServiceType := true })
      else (.other, c)

/-- `parseRtspPacket`. -/
def parseRtspPacket (d : Downstream) (c : RtpTcpConnect) (m : Memory) (p n : Nat) :
    ParseRet × RtpTcpConnect × Memory :=
  let r := checkRtsp m p n
  let c := { c with unSize := r.unMsgLen.toNat }
  if r.ret ≠ 0 then (.fail, c, r.data)
  else if c.unSize = 0 ∨ n < c.unSize then (.dataLack, { c with unSize := 0 }, r.data)
  else
    match c.findStream d r.data p with
    | (.ok, c) => (.ok, { c with usInnerMsgType := .rtsp, unDataOffset := 0 }, r.data)
    | (ret, c) => (ret, c, r.data)

/-- `parseDataInfo`. -/
def parseDataInfo (d : Downstream) (c : RtpTcpConnect) (m : Memory) (p n : Nat) :
    ParseRet × RtpTcpConnect × Memory :=
  let c := { c with unSize := 0, unDataOffset := 0, usInnerMsgType := .rtp }
  if m p ≠ interleaveFlag then c.parseRtspPacket d m p n
  else
    let r := c.parseRtpRtcpPacket m p n
    (r.1, r.2, m)

/-- What both message handlers return when the data has gone on. -/
def taken (c : RtpTcpConnect) : Int := (c.unSize + c.unDataOffset : Nat)

/-- A call of `handleMediaData` or `handleControlMessage`. -/
def pass (c : RtpTcpConnect) (m : Memory) (p : Nat) : RtpTcpConnect :=
  { c with passed := c.passed ++ [⟨c.usInnerMsgType, c.unDataOffset, c.unSize,
      m.read (p + c.unDataOffset : Nat) c.unSize⟩] }

/-- `handleMediaData`: `ParsePacket` may clear the padding bit in the buffer. -/
def handleMediaData (d : Downstream) (c : RtpTcpConnect) (m : Memory) (p : Nat) :
    Receiver.Handled RtpTcpConnect :=
  let k := c.passed.length
  let c := c.pass m p
  if d.allocMediaBlock k then
    let m := (RtpPacket.parsePacket m (p + c.unDataOffset : Nat) c.unSize).data
    if d.addData k then ⟨c.taken, m, c⟩ else ⟨0, m, c⟩
  else ⟨0, m, c⟩

/-- `handleControlMessage`: a message that does not fit into a block behind its `STREAM_INNER_MSG`
is dropped. -/
def handleControlMessage (d : Downstream) (c : RtpTcpConnect) (m : Memory) (p : Nat) :
    Receiver.Handled RtpTcpConnect :=
  let k := c.passed.length
  let c := c.pass m p
  if d.allocMediaBlock k then
    if MsgBlock.blockSize - innerMsgLength < c.unSize then ⟨c.taken, m, c⟩
    else if d.enqueueInnerMessage k then ⟨c.taken, m, c⟩
    else ⟨0, m, c⟩
  else ⟨0, m, c⟩

/-- The part of `handleRecvedData` that looks up the service type of a stream that came with a known
id. -/
def findServiceType (d : Downstream) (c : RtpTcpConnect) : RtpTcpConnect :=
  { c with
    bServiceType := c.bServiceType || (c.ullStreamID != 0 && d.playType c.ullStreamID) }

/-- `handleRecvedData`. -/
def handleRecvedData (d : Downstream) (c : RtpTcpConnect) (m : Memory) (p n : Nat) :
    Receiver.Handled RtpTcpConnect :=
  match c.parseDataInfo d m p n with
  | (.fail, c, m) => ⟨-1, m, c⟩
  | (.dataLack, c, m) => ⟨0, m, c⟩
  | (_, c, m) =>
    let c := c.findServiceType d
    if c.usInnerMsgType = .rtp then c.handleMediaData d m p else c.handleControlMessage d m p

end RtpTcpConnect

end AllCamera
