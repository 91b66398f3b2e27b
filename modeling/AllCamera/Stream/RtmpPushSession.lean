import AllCamera.Lib.RtmpChunk
import AllCamera.Stream.TcpReceive

/-!
# RTMP push sessions (`CStreamRtmpPushSession`), behind the handshake

A session takes chunks from the receive buffer, with one slot for each chunk stream, and sends
messages in chunks through a queue.

* `RtmpPushSession`: the members, what the socket took and the calls of `handleMessage`.
* `processRecvedMessage`: the loop over the received chunks.
* `sendRtmpData`: one message to the peer.
-/

namespace AllCamera

/-- `RTMP_Message`. -/
structure RtmpMessage where
  type : UInt8
  len : Nat
  timestamp : UInt64
  endpoint : UInt32
  buf : List UInt8

/-- `CStreamRtmpPushSession`. `sent` is what the socket took, `handled` the type and the payload of
each call of `handleMessage`. -/
structure RtmpPushSession where
  messages : Fin 64 → RtmpMessage
  chunkLen : Nat
  sendQueue : List UInt8
  sent : List UInt8
  handled : List (UInt8 × List UInt8)

namespace RtmpPushSession

/-- `DEFAULT_CHUNK_LEN`. -/
def defaultChunkLen : Nat := 128

/-- `RTMP_CHUNK_SIZE`. -/
def rtmpChunkSize : Nat := 4096

/-- `MSG_SET_CHUNK`. -/
def msgSetChunk : UInt8 := 1

/-- `STREAM_ID`. -/
def streamId : UInt32 := 1337

/-- `CHAN_STREAM`. -/
def chanStream : Int := 4

/-- The constructor. -/
def init : RtmpPushSession where
  messages := fun _ => ⟨0, 0, 0, 0, []⟩
  chunkLen := defaultChunkLen
  sendQueue := []
  sent := []
  handled := []

/-! ## Receiving -/

/-- `handleMessage`. Of its effects only that on the chunk length comes back to the functions here. -/
def handleMessage (s : RtmpPushSession) (msg : RtmpMessage) : RtmpPushSession :=
  let s := { s with handled := s.handled ++ [(msg.type, msg.buf)] }
  match msg.buf with
  | b₃ :: b₂ :: b₁ :: b₀ :: _ =>
    if msg.type = msgSetChunk then { s with chunkLen := (be32 b₃ b₂ b₁ b₀).toNat } else s
  | _ => s

/-- The C string at `p`, within the receive buffer. -/
def cString (m : Memory) (p : Nat) : List UInt8 :=
  (m.read p (recvBufferSize - p)).takeWhile (· ≠ 0)

/-- `load_be24`. -/
def loadBe24 (m : Memory) (p : Nat) : Nat :=
  RtmpChunk.be24 (m p) (m (p + 1 : Nat)) (m (p + 2 : Nat))

/-- `load_le32`. -/
def loadLe32 (m : Memory) (p : Nat) : UInt32 :=
  be32 (m (p + 3 : Nat)) (m (p + 2 : Nat)) (m (p + 1 : Nat)) (m p)

/-- `HEADER_LENGTH`. -/
def headerLength (flags : UInt8) : Nat := [12, 8, 4, 1].getD (flags.toNat / 64) 0

/-- `flags & 0x3f`. -/
def slot (flags : UInt8) : Fin 64 := ⟨flags.toNat % 64, Nat.mod_lt _ (by decide)⟩

/-- The slot is written. -/
def setMessage (s : RtmpPushSession) (i : Fin 64) (msg : RtmpMessage) : RtmpPushSession :=
  { s with messages := fun j => if j = i then msg else s.messages j }

/-- The `size_t` that becomes of `msg->len - nMessageLen`, up to the chunk length. -/
def chunkOf (len nMessageLen chunkLen : Nat) : Nat :=
  min ((2 ^ 64 + len - nMessageLen) % 2 ^ 64) chunkLen

/-- The length, from a header that has one. -/
def readLen (m : Memory) (p headerLen : Nat) (msg : RtmpMessage) : RtmpMessage :=
  if 8 ≤ headerLen then { msg with len := loadBe24 m (p + 4) } else msg

/-- The type and the endpoint. -/
def readType (m : Memory) (p headerLen : Nat) (msg : RtmpMessage) : RtmpMessage :=
  let msg := if 8 ≤ headerLen then { msg with type := m (p + 7 : Nat) } else msg
  if 12 ≤ headerLen then { msg with endpoint := loadLe32 m (p + 8) } else msg

/-- The timestamp. An extended one is not read. -/
def readTimestamp (m : Memory) (p headerLen : Nat) (msg : RtmpMessage) : RtmpMessage :=
  if 4 ≤ headerLen then
    let ts := UInt64.ofNat (loadBe24 m (p + 1))
    { msg with timestamp := if headerLen < 12 then ts + msg.timestamp else ts }
  else msg

/-- The turns of the loop, `fuel` at most. `pData` is the same in all of them. -/
def loop (m : Memory) (p : Nat) : Nat → RtmpPushSession → (nMessageLen nDealLen : Nat) →
    Int × RtmpPushSession
  | 0, s, _, nDealLen => (nDealLen, s)
  | fuel + 1, s, nMessageLen, nDealLen =>
    if nMessageLen = 0 then (nDealLen, s)
    else
      let flags := m p
      let headerLen := headerLength flags
      if nMessageLen < headerLen then (nDealLen, s)
      else
        let msg := readLen m p headerLen (s.messages (slot flags))
        if 8 ≤ headerLen ∧ msg.len < rtmpChunkSize then (-1, s.setMessage (slot flags) msg)
        else
          let msg := readType m p headerLen msg
          let s := s.setMessage (slot flags) msg
          if msg.len = 0 then (-1, s)
          else
            let chunk := chunkOf msg.len nMessageLen s.chunkLen
            if nMessageLen < headerLen + chunk then (nDealLen, s)
            else
              let msg := { readTimestamp m p headerLen msg with buf := cString m (p + headerLen) }
              let lens := headerLen + chunk
              let s := s.setMessage (slot flags) msg
              let s := if lens = msg.len then
                  (s.handleMessage msg).setMessage (slot flags) { msg with buf := [] }
                else s
              loop m p fuel s (nMessageLen - lens) (nDealLen + lens)

/-- `processRecvedMessage`. -/
def processRecvedMessage (s : RtmpPushSession) (m : Memory) (p n : Nat) :
    Receiver.Handled RtmpPushSession :=
  if n = 0 then ⟨-1, m, s⟩
  else
    let r := loop m p (n + 1) s n 0
    ⟨r.1, m, r.2⟩

/-! ## Sending -/

/-- The arguments of `sendRtmpData`. -/
structure Call where
  type : UInt8
  endpoint : UInt32
  buf : List UInt8
  timestamp : UInt64
  channelNum : Int

namespace Call

/-- The channel that the message is sent on. -/
def channel (c : Call) : Int := if c.endpoint = streamId then chanStream else c.channelNum

/-- `(channel_num & 0x3f) | (fmt << 6)`. -/
def flags (c : Call) (fmt : Nat) : UInt8 := RtmpChunk.basicByte fmt (c.channel % 64).toNat

/-- `RTMP_Header`. -/
def header (c : Call) : List UInt8 :=
  c.flags 0 :: (RtmpChunk.be24Bytes c.timestamp.toNat ++ RtmpChunk.be24Bytes c.buf.length ++ c.type ::
    RtmpChunk.le32Bytes c.endpoint.toNat)

end Call

/-- The loop over the payload, at `pos`, with `fuel` turns at most. -/
def sendLoop (flags : UInt8) (chunkLen : Nat) (buf : List UInt8) :
    Nat → Nat → List UInt8 → List UInt8
  | 0, _, queue => queue
  | fuel + 1, pos, queue =>
    if pos < buf.length then
      let queue := if pos = 0 then queue else queue ++ [flags]
      let chunk := min (buf.length - pos) chunkLen
      sendLoop flags chunkLen buf fuel (pos + chunk) (queue ++ (buf.drop pos).take chunk)
    else queue

/-- `sendMessage` to a socket that takes everything. The size is a `uint32_t`. -/
def sendMessage (s : RtmpPushSession) (data : List UInt8) : RtmpPushSession :=
  { s with sent := s.sent ++ data.take (data.length % 2 ^ 32) }

/-- `sendRtmpData`. The queue is sent from its beginning. -/
def sendRtmpData (s : RtmpPushSession) (c : Call) : RtmpPushSession :=
  let queue := s.sendQueue ++ c.header
  let queue := sendLoop (c.flags 3) s.chunkLen c.buf (c.buf.length + 1) 0 queue
  { s with sendQueue := queue }.sendMessage queue

end RtmpPushSession

end AllCamera
