import AllCamera.Lib.Field
import AllCamera.Lib.SortedMap
import AllCamera.Lib.Run
import Mathlib.Data.Int.Order.Basic

/-!
# A signalling link (`CClientLink`)

The VMS servers exchange messages over TCP. A link sends without blocking, keeps what the socket did not
take in a queue, cuts the received stream into messages by the length in their header, and remembers the
requests whose response is waited for. Three threads call it: those of the business (`sendMsg`,
`stopConn`), the receive thread on an event of the socket (`recvThread`), and the heartbeat thread every
second (`handleTimeout`). A call is one step here: the calls on one link do not overlap. The source has locks
for a single push, pop or look-up only, so where two threads send at once, or one sends while the other empties
the queue, it is the callers who have to see to it. The answers of the socket, of `new` and of the clock are
arguments.

* `SvsMsg`: the members of a message's header.
* `ClientLink`: the members of a link, and what the socket and the message handler have got of it.
* `ClientLink.Event`, `ClientLink.step`: the calls.
-/

namespace AllCamera

/-! ## Messages -/

/-- `SVS_MSG_HEADER_SIZE`, of the packed header. -/
def svsMsgHeaderSize : Nat := 12

/-- `SVS_MSG_PROTOCOL_VERSION`. -/
def svsMsgProtocolVersion : Nat := 0x0100

/-- `SVS_MSG_TYPE_HEARTBEAT`. -/
def svsMsgTypeHeartbeat : Nat := 2

/-- `MAX_RECV_BUFF`. -/
def maxRecvBuff : Nat := 512 * 1024

/-- `MAX_QUEUE_SIZE`. -/
def maxQueueSize : Nat := 2000

/-- `HEARTBEAT_TIMEOUT_TIMES`. -/
def heartbeatTimeoutTimes : Nat := 3

/-- `REQ_MSG_TRANSNO_MASK`. -/
def reqMsgTransNoMask : Nat := 0x7FFF

/-- `RESP_MSG_TRANSNO_MASK`. -/
def respMsgTransNoMask : Nat := 0x8000

/-- A message: the members of `SVS_HEADER` are read at its front. -/
abbrev SvsMsg := List UInt8

namespace SvsMsg

def protocolVersion (m : SvsMsg) : Nat := leValue (m.take 2)

def msgType (m : SvsMsg) : Nat := leValue ((m.drop 2).take 4)

def transactionNo (m : SvsMsg) : Nat := leValue ((m.drop 6).take 2)

def packetLength (m : SvsMsg) : Nat := leValue ((m.drop 8).take 4)

/-- The message of `checkHearbeatMsg`, a header alone. -/
def heartbeat : SvsMsg :=
  leBytes 2 svsMsgProtocolVersion ++ leBytes 4 svsMsgTypeHeartbeat ++ leBytes 2 0 ++ leBytes 4 svsMsgHeaderSize

end SvsMsg

/-! ## The state of a link -/

/-- `CONN_FLAG`. -/
inductive ConnFlag where
  | idle
  | connecting
  | connected
  | connTimeout
  | closing
  | closed
  deriving DecidableEq, Repr

/-- The members of `SVS_STACK_ERR` that a link returns. -/
inductive StackRet where
  | ok
  | fail
  | queueFull
  | pointerNull
  | memoryAllocateFail
  | msgLengthInvalid
  | disconn
  | parseMsg
  deriving DecidableEq, Repr

/-- `RESULT_TYPE`. -/
inductive ResultType where
  | send
  | recv
  | timeout
  deriving DecidableEq, Repr

/-- `EVENT_TYPE`. -/
inductive EventType where
  | disconnect
  | connected
  | timeout
  deriving DecidableEq, Repr

/-- A call of the message handler: `handleMessage` with a message or with `NULL`, or `handleConnEvent`. -/
inductive Notice where
  | message (m : SvsMsg) (result : ResultType)
  | last (result : ResultType)
  | conn (event : EventType)
  deriving DecidableEq, Repr

/-- `SENDMSGHEAD`, with the message behind it. -/
structure SendMsgHead where
  unSendSize : Nat
  unTimeout : UInt32
  tSendTime : Int
  msg : SvsMsg

/-- An answer of `send`: how many bytes it takes, if there are as many; or it takes none, and `errno` makes
`bIsSockOK` true (`busy`) or false. -/
inductive SendAnswer where
  | took (n : Nat)
  | busy
  | broken
  deriving DecidableEq, Repr

/-- An answer of `recv`: bytes, of which it gives as many as there is room for (no bytes: the peer has
closed), or an error as above. -/
inductive RecvAnswer where
  | data (seg : List UInt8)
  | busy
  | broken
  deriving DecidableEq, Repr

/-- `CClientLink`. `recvBuff` is the used part of `m_pszRecvBuff`, and `epollOut` whether the write event is
asked for. Behind that is what passed through the link: the bytes that `recv` gave (`got`) and that `send`
took (`wire`), the messages whose `sendMsg` returned `SVS_STACK_OK`, those of them that were sent and wait for
nothing (`sent`), those whose response came (`answered`), those whose memory no pointer is kept to
(`leaked`), and the calls of the handler. -/
structure ClientLink where
  unLinkId : Nat
  connFlag : ConnFlag
  heartbeatTimes : UInt8
  lastRecvHeartbeatTime : Int
  lastSendHeartbeatTime : Int
  recvBuff : List UInt8
  msgQueue : List SendMsgHead
  waitRespMsgMap : SortedMap Nat SendMsgHead
  epollOut : Bool
  got : List UInt8
  wire : List UInt8
  accepted : List SvsMsg
  sent : List SendMsgHead
  answered : List SvsMsg
  leaked : List SvsMsg
  notices : List Notice

namespace ClientLink

open SvsMsg

/-- After the constructor and `init`. -/
def init (unLinkId : Nat) : ClientLink where
  unLinkId
  connFlag := .idle
  heartbeatTimes := 0
  lastRecvHeartbeatTime := 0
  lastSendHeartbeatTime := 0
  recvBuff := []
  msgQueue := []
  waitRespMsgMap := .empty
  epollOut := false
  got := []
  wire := []
  accepted := []
  sent := []
  answered := []
  leaked := []
  notices := []

/-- The message handler is called. -/
def notify (l : ClientLink) (n : Notice) : ClientLink := { l with notices := l.notices ++ [n] }

/-- `setConnFlag`: a closed link stays closed. -/
def setConnFlag (l : ClientLink) (f : ConnFlag) : ClientLink :=
  if l.connFlag = .closed then l else { l with connFlag := f }

/-- `closeSock`: the socket is shut down, and the receive thread will see that. -/
def closeSock (l : ClientLink) (f : ConnFlag) : ClientLink := l.setConnFlag f

/-! ## Requests that wait for a response -/

/-- `bWaitRespMsg`. -/
def bWaitRespMsg (unTimeout : UInt32) (unTransNo : Nat) : Bool :=
  unTimeout ≠ 0 && (unTransNo ||| reqMsgTransNoMask) = reqMsgTransNoMask

/-- `addWaitRespMsg`: where the number is in the map already, `insert` does nothing. -/
def addWaitRespMsg (l : ClientLink) (unTransNo : Nat) (s : SendMsgHead) : ClientLink :=
  if (l.waitRespMsgMap.find unTransNo).isSome then { l with leaked := l.leaked ++ [s.msg] }
  else { l with waitRespMsgMap := l.waitRespMsgMap.insert unTransNo s }

/-- `delWaitRespMsg`. -/
def delWaitRespMsg (l : ClientLink) (unTransNo : Nat) : ClientLink :=
  if unTransNo &&& respMsgTransNoMask ≠ respMsgTransNoMask then l
  else
    let unReqTransNo := unTransNo &&& reqMsgTransNoMask
    match l.waitRespMsgMap.find unReqTransNo with
    | none => l
    | some s => { l with
        waitRespMsgMap := l.waitRespMsgMap.erase unReqTransNo
        answered := l.answered ++ [s.msg] }

/-- A message of which every byte was sent waits for its response, or its memory is freed. -/
def finishSend (l : ClientLink) (s : SendMsgHead) : ClientLink :=
  if bWaitRespMsg s.unTimeout s.msg.transactionNo then l.addWaitRespMsg s.msg.transactionNo s
  else { l with sent := l.sent ++ [s] }

/-! ## Sending -/

/-- `sendMsgToPeer`: `unRealSendSize`, or none for an error of the connection. -/
def sendMsgToPeer (out : SendAnswer) (msg : List UInt8) : Option Nat :=
  match out with
  | .took n => some (min n msg.length)
  | .busy => some 0
  | .broken => none

/-- `sendMsg`, of a buffer of `unMsgLength` bytes. `alloc`: the memory for `setSendMsgHead` is there. -/
def sendMsg (l : ClientLink) (unHandleIndex : Nat) (pszMsg : Option SvsMsg) (unTimeout : UInt32)
    (out : SendAnswer) (alloc : Bool) (now : Int) : StackRet × ClientLink :=
  if unHandleIndex ≠ l.unLinkId then (.fail, l)
  else if l.connFlag ≠ .connected then (.disconn, l)
  else
    match pszMsg with
    | none => (.pointerNull, l)
    | some msg =>
      if msg.packetLength ≠ msg.length then (.msgLengthInvalid, l)
      else if l.msgQueue = [] then
        match sendMsgToPeer out msg with
        | none => (.fail, l.closeSock .closing)
        | some unRealSendSize =>
          let l := { l with wire := l.wire ++ msg.take unRealSendSize }
          if unRealSendSize < msg.length then
            if alloc then
              (.ok, { l with
                msgQueue := [⟨unRealSendSize, unTimeout, 0, msg⟩]
                epollOut := true
                accepted := l.accepted ++ [msg] })
            else (.memoryAllocateFail, l)
          -- a message that waits for no response needs no memory
          else if bWaitRespMsg unTimeout msg.transactionNo && !alloc then (.memoryAllocateFail, l)
          else
            (.ok, { l with accepted := l.accepted ++ [msg] }.finishSend ⟨unRealSendSize, unTimeout, now, msg⟩)
      else if maxQueueSize ≤ l.msgQueue.length then (.queueFull, l)
      else if alloc then
        (.ok, { l with
          msgQueue := l.msgQueue ++ [⟨0, unTimeout, 0, msg⟩]
          accepted := l.accepted ++ [msg] })
      else (.memoryAllocateFail, l)

/-- The loop of `handleSend` over the queue; `out k` is the socket's answer for the `k`-th message. -/
def sendLoop (out : Nat → SendAnswer) (now : Int) (l : ClientLink) : List SendMsgHead → StackRet × ClientLink
  | [] => (.ok, { l with msgQueue := [] })
  | s :: q =>
    let unsent := (s.msg.take s.msg.packetLength).drop s.unSendSize
    match sendMsgToPeer (out 0) unsent with
    | none => (.fail, { l with msgQueue := s :: q })
    | some unRealSendSize =>
      let s := { s with unSendSize := s.unSendSize + unRealSendSize }
      let l := { l with wire := l.wire ++ unsent.take unRealSendSize }
      if s.unSendSize < s.msg.packetLength then (.ok, { l with msgQueue := s :: q, epollOut := true })
      else sendLoop (fun k => out (k + 1)) now (l.finishSend { s with tSendTime := now }) q

/-- `handleSend`. `sockErr` is what `checkConnectStatus` finds. -/
def handleSend (l : ClientLink) (sockErr : Bool) (out : Nat → SendAnswer) (now : Int) : StackRet × ClientLink :=
  if l.connFlag = .connecting then
    if sockErr then (.fail, l.setConnFlag .closing)
    else
      (.ok, { l.setConnFlag .connected with
        lastSendHeartbeatTime := now
        lastRecvHeartbeatTime := now
        epollOut := false
        notices := l.notices ++ [.conn .connected] })
  else if l.connFlag ≠ .connected then (if l.connFlag = .connTimeout then .fail else .ok, l)
  else sendLoop out now { l with epollOut := false } l.msgQueue

/-! ## Closing -/

/-- `notifyLeftMessage`. -/
def notifyLeftMessage (l : ClientLink) : ClientLink :=
  { l with
    msgQueue := []
    notices := l.notices ++ l.msgQueue.map (fun s => .message s.msg .send) ++ [.last .send] }

/-- `notifyTimeoutMessage`. -/
def notifyTimeoutMessage (l : ClientLink) : ClientLink :=
  { l with
    waitRespMsgMap := .empty
    notices := l.notices ++ l.waitRespMsgMap.entries.map (fun e => .message e.2.msg .timeout) ++ [.last .timeout] }

/-- `notifyConnection` of the end of the connection. -/
def notifyConnection (l : ClientLink) (e : EventType) : ClientLink :=
  (l.notify (.conn e)).notifyLeftMessage.notifyTimeoutMessage

/-- `shutdownSock`: the events of the socket are asked for no more. -/
def shutdownSock (l : ClientLink) : ClientLink :=
  if l.connFlag = .closed then l else { l with connFlag := .closed, epollOut := false }

/-- `handleClose`. -/
def handleClose (l : ClientLink) : ClientLink :=
  if l.connFlag = .closed then l
  else l.shutdownSock.notifyConnection (if l.connFlag = .connTimeout then .timeout else .disconnect)

/-- `stopConn`. -/
def stopConn (l : ClientLink) : ClientLink := l.shutdownSock.notifyLeftMessage.notifyTimeoutMessage

/-! ## Receiving -/

/-- What `parseData` does with a message. -/
def handleParsed (now : Int) (l : ClientLink) (m : SvsMsg) : ClientLink :=
  if m.msgType = svsMsgTypeHeartbeat then { l with lastRecvHeartbeatTime := now }
  else (l.notify (.message m .recv)).delWaitRespMsg m.transactionNo

/-- The loop of `parseData` over the bytes that are not processed, of which there is at least a header. Every
turn but the last one processes some (`fuel`). -/
def parseLoop (now : Int) : Nat → ClientLink → List UInt8 → StackRet × ClientLink × List UInt8
  | 0, l, bs => (.ok, l, bs)
  | fuel + 1, l, bs =>
    let n := SvsMsg.packetLength bs
    if n < svsMsgHeaderSize then (.msgLengthInvalid, l, bs)
    else if bs.length < n then (.ok, l, bs)
    else if SvsMsg.protocolVersion bs ≠ svsMsgProtocolVersion then (.parseMsg, l, bs)
    else
      let l := l.handleParsed now (bs.take n)
      if (bs.drop n).length < svsMsgHeaderSize then (.ok, l, bs.drop n)
      else parseLoop now fuel l (bs.drop n)

/-- `parseData`, with the bytes that it leaves. -/
def parseData (l : ClientLink) (now : Int) : StackRet × ClientLink × List UInt8 :=
  if l.recvBuff.length < svsMsgHeaderSize then (.ok, l, l.recvBuff)
  else parseLoop now l.recvBuff.length l l.recvBuff

/-- What `handleRecv` does behind `recv`. -/
def received (l : ClientLink) (seg : List UInt8) (now : Int) : StackRet × ClientLink :=
  match { l with got := l.got ++ seg, recvBuff := l.recvBuff ++ seg }.parseData now with
  | (.ok, l, rest) => (.ok, { l with recvBuff := rest })
  | (_, l, _) => (.fail, { l with recvBuff := [] })

/-- `handleRecv`. -/
def handleRecv (l : ClientLink) (ans : RecvAnswer) (now : Int) : StackRet × ClientLink :=
  if l.connFlag ≠ .connected then (if l.connFlag = .connTimeout then .fail else .disconn, l)
  else
    let l := { l with heartbeatTimes := 0 }
    let nRemainBuffLen := maxRecvBuff - l.recvBuff.length
    if nRemainBuffLen = 0 then (.ok, l)
    else
      match ans with
      | .busy => (.ok, l)
      | .broken => (.fail, l)
      | .data seg =>
        if seg = [] then (.fail, l) else l.received (seg.take nRemainBuffLen) now

/-! ## Timers -/

/-- A `uint32_t` as the `int32_t` that it is compared with. -/
def toInt32 (x : UInt32) : Int := x.toInt32.toInt

/-- `checkHearbeatMsg`, with the answers for the message that it may send. The source keeps `nRecvTimeRet` and
`nSendTimeRet`, as `nTimeout` below, in an `int32_t`: the times are taken to be less than 2^31 s apart. -/
def checkHearbeatMsg (l : ClientLink) (interval : UInt32) (now : Int) (out : SendAnswer) (alloc : Bool) :
    StackRet × ClientLink :=
  let nRecvTimeRet := |now - l.lastRecvHeartbeatTime|
  let l :=
    if toInt32 ((interval - 1) * 3) < nRecvTimeRet then { l with lastRecvHeartbeatTime := now }
    else if toInt32 (interval - 1) < nRecvTimeRet then
      { l with heartbeatTimes := l.heartbeatTimes + 1, lastRecvHeartbeatTime := now }
    else l
  if heartbeatTimeoutTimes < l.heartbeatTimes.toNat then (.fail, l.closeSock .connTimeout)
  else
    let nSendTimeRet := now - l.lastSendHeartbeatTime
    if toInt32 (interval - 1) < nSendTimeRet ∨ nSendTimeRet ≤ 0 then
      (.ok, ({ l with lastSendHeartbeatTime := now }.sendMsg l.unLinkId (some heartbeat) 0 out alloc now).2)
    else (.ok, l)

/-- `nTimeout > nHeartbeatInterval * HEARTBEAT_TIMEOUT_TIMES`: the clock was set. -/
def clockSet (interval : UInt32) (now : Int) (s : SendMsgHead) : Bool :=
  toInt32 interval * heartbeatTimeoutTimes < |s.tSendTime - now|

/-- `(uint32_t)nTimeout > pstSendHead->unTimeout - HEARTBEAT_THREAD_WORK_INTERVAL`, where it is looked at. -/
def timedOut (interval : UInt32) (now : Int) (s : SendMsgHead) : Bool :=
  !clockSet interval now s && (s.unTimeout - 1).toNat < |s.tSendTime - now|

/-- The second loop of `checkRespMsg`: the requests with these numbers are taken out of the map. -/
def eraseTimedOut (m : SortedMap Nat SendMsgHead) : List Nat → SortedMap Nat SendMsgHead
  | [] => m
  | t :: ts => eraseTimedOut (m.erase t) ts

/-- `checkRespMsg`. -/
def checkRespMsg (l : ClientLink) (interval : UInt32) (now : Int) : ClientLink :=
  let late := (l.waitRespMsgMap.entries.filter fun e => timedOut interval now e.2).map Prod.snd
  let stamped := l.waitRespMsgMap.mapVals fun s =>
    if clockSet interval now s then { s with tSendTime := now } else s
  { l with
    waitRespMsgMap := eraseTimedOut stamped (late.map fun s => s.msg.transactionNo)
    notices := l.notices ++ late.map fun s => .message s.msg .timeout }

/-- `handleTimeout`. -/
def handleTimeout (l : ClientLink) (interval : UInt32) (now : Int) (out : SendAnswer) (alloc : Bool) : ClientLink :=
  if l.connFlag ≠ .connected then l
  else
    match l.checkHearbeatMsg interval now out alloc with
    | (.ok, l) => l.checkRespMsg interval now
    | (_, l) => l

/-! ## Steps -/

/-- What `connect` and `addEpollEvent` answer in `startConn`. -/
inductive StartAnswer where
  | failed
  | inProgress (added : Bool)
  | connected
  deriving DecidableEq, Repr

/-- `startConn` of a new link. -/
def startConn (l : ClientLink) (ans : StartAnswer) (now : Int) : StackRet × ClientLink :=
  match ans with
  | .failed => (.fail, l)
  | .inProgress added =>
    (if added then .ok else .fail, { l.setConnFlag .connecting with epollOut := added })
  | .connected =>
    (.ok, { l.setConnFlag .connected with
      lastSendHeartbeatTime := now
      lastRecvHeartbeatTime := now
      notices := l.notices ++ [.conn .connected] })

/-- A link as `startConn` leaves it. `CServerLink::handleRecv` makes its links connected in the same way. -/
def started (unLinkId : Nat) (ans : StartAnswer) (now : Int) : ClientLink := ((init unLinkId).startConn ans now).2

/-- A call: of the business, of the receive thread for an event of the socket (an error, readable, writable),
or of the heartbeat thread. It ends before the next one on the link begins. -/
inductive Event where
  | sendMsg (unHandleIndex : Nat) (pszMsg : Option SvsMsg) (unTimeout : UInt32) (out : SendAnswer) (alloc : Bool)
      (now : Int)
  | socket (err readable : Bool) (ans : RecvAnswer) (sockErr : Bool) (out : Nat → SendAnswer) (now : Int)
  | timer (interval : UInt32) (now : Int) (out : SendAnswer) (alloc : Bool)
  | stopConn

/-- The dispatch of `recvThread`: a readable socket is not looked at for writing. -/
def dispatch (l : ClientLink) (err readable : Bool) (ans : RecvAnswer) (sockErr : Bool) (out : Nat → SendAnswer)
    (now : Int) : StackRet × ClientLink :=
  if err then (.fail, l)
  else if readable then l.handleRecv ans now
  else l.handleSend sockErr out now

/-- What `recvThread` does behind a handler. -/
def closeOnFail : StackRet × ClientLink → ClientLink
  | (.fail, l) => l.handleClose
  | (_, l) => l

def step (l : ClientLink) : Event → ClientLink
  | .sendMsg i m t out alloc now => (l.sendMsg i m t out alloc now).2
  | .socket err readable ans sockErr out now => closeOnFail (l.dispatch err readable ans sockErr out now)
  | .timer interval now out alloc => l.handleTimeout interval now out alloc
  | .stopConn => l.stopConn

end ClientLink

end AllCamera
