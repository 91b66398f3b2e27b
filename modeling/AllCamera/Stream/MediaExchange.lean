import AllCamera.Lib.Run
import AllCamera.Stream.RtpPacket

/-!
# The media exchange (`CStreamMediaExchange`)

The exchange has a queue and a map of processor sets for each of its threads. Receivers and
businesses put messages into a queue, chosen by the stream id, and the thread of the queue takes
them out one by one: media goes to the processors of the stream, the other two kinds of messages add
a processor and take one away.

* `processAddSession`, `processDelSession`, `processMediaData`: what a thread does with a message.
* `Exchange`: the members of the class, the callers that are between the choice of a queue and the
  enqueue, and the history of what was enqueued and processed.
* `step`: a thread starts, opens its queue or processes a message; a caller chooses or enqueues.

A queue is the list of the blocks in it: its own steps are the subject of `DataQueue`. A processor is
its address. What a `CStreamPsMediaProcessorSet` does with the media is a parameter here.
-/

namespace AllCamera

/-- `MEDIA_TRANS_TYPE`. -/
inductive MediaTransType where
  | tcp
  | udp
  | svs
  | rtp
  | ps
  | hls
  | rtmp
  | max
  deriving DecidableEq, Repr

/-- What a `STREAM_TRANSMIT_PACKET` carries, by its `enPacketType`. -/
inductive PacketBody (δ : Type) where
  | mediaData (block : δ)
  | addSession (pMediaProcessor : Nat) (unRecvTranType unSendTranType : MediaTransType)
  | delSession (pMediaProcessor : Nat)
  | unsupported
  deriving DecidableEq, Repr

/-- `STREAM_TRANSMIT_PACKET`. -/
structure TransmitPacket (δ : Type) where
  puStreamId : UInt64
  body : PacketBody δ
  deriving DecidableEq, Repr

/-! ## Processor sets -/

/-- `CStreamMediaProcessorSet`; a `CStreamPsMediaProcessorSet` has a converter. -/
structure ProcessorSet (κ : Type) where
  converter : Option κ
  processList : List Nat
  deriving Repr

namespace ProcessorSet

variable {κ : Type}

/-- `AddMediaProcessor`: a processor that is in the list already is refused. -/
def addMediaProcessor (s : ProcessorSet κ) (p : Nat) : RetCode × ProcessorSet κ :=
  if p ∈ s.processList then (.fail, s) else (.ok, { s with processList := s.processList ++ [p] })

/-- `DelMediaProcessor`: a processor of the list is taken out and deleted. Second component: the set
that is left, `none` when it has become empty (`RET_ERR_LIST_EMPTY`); third: what was deleted. -/
def delMediaProcessor (s : ProcessorSet κ) (p : Nat) : Option (ProcessorSet κ) × List Nat :=
  let rest := s.processList.erase p
  (if rest.isEmpty then none else some { s with processList := rest },
    if p ∈ s.processList then [p] else [])

end ProcessorSet

/-! ## What a thread does with a message -/

/-- `MediaExchangeMap`. -/
abbrev ExchangeMap (κ : Type) := UInt64 → Option (ProcessorSet κ)

/-- The PS converter as the exchange sees it: how it is made, and what `Send` makes of it. -/
structure Converter (κ δ : Type) where
  new : κ
  send : κ → δ → κ

/-- A converter without a state. -/
def Converter.unit : Converter Unit Unit := ⟨(), fun _ _ => ()⟩

section Process

variable {κ δ : Type}

/-- The set that `ProcessAddSession` makes for a stream without one. -/
def newSet (new : κ) (unRecvTranType unSendTranType : MediaTransType) : ProcessorSet κ where
  converter := if unRecvTranType = .ps ∧ unSendTranType = .rtp then some new else none
  processList := []

/-- The set of the stream, or a new one, which `alloc` says whether there is memory for. -/
def findSet (new : κ) (alloc : Bool) (m : ExchangeMap κ) (puStreamId : UInt64)
    (unRecvTranType unSendTranType : MediaTransType) : Option (ProcessorSet κ) :=
  match m puStreamId with
  | some s => some s
  | none => if alloc then some (newSet new unRecvTranType unSendTranType) else none

/-- `ProcessAddSession`. Second component: the processors that it deletes. A set that was made here
takes every processor, so the branch that would delete it is never taken. -/
def processAddSession (new : κ) (alloc : Bool) (m : ExchangeMap κ) (puStreamId : UInt64) (p : Nat)
    (unRecvTranType unSendTranType : MediaTransType) : ExchangeMap κ × List Nat :=
  match findSet new alloc m puStreamId unRecvTranType unSendTranType with
  | none => (m, [])
  | some s =>
    let r := s.addMediaProcessor p
    (Function.update m puStreamId (some r.2), if r.1 = .ok then [] else [p])

/-- `ProcessDelSession`. Second component: the processors that it deletes. -/
def processDelSession (m : ExchangeMap κ) (puStreamId : UInt64) (p : Nat) :
    ExchangeMap κ × List Nat :=
  match m puStreamId with
  | none => (m, [])
  | some s =>
    let r := s.delMediaProcessor p
    (Function.update m puStreamId r.1, r.2)

/-- `ProcessMediaData`, as far as the map goes. -/
def processMediaData (cv : Converter κ δ) (m : ExchangeMap κ) (puStreamId : UInt64) (block : δ) :
    ExchangeMap κ :=
  match m puStreamId with
  | none => m
  | some s => Function.update m puStreamId (some { s with converter := s.converter.map (cv.send · block) })

/-- One message in the loop of `MediaExchangeThread`. -/
def processPacket (cv : Converter κ δ) (alloc : Bool) (m : ExchangeMap κ)
    (pkt : TransmitPacket δ) : ExchangeMap κ × List Nat :=
  match pkt.body with
  | .mediaData block => (processMediaData cv m pkt.puStreamId block, [])
  | .addSession p recv send => processAddSession cv.new alloc m pkt.puStreamId p recv send
  | .delSession p => processDelSession m pkt.puStreamId p
  | .unsupported => (m, [])

end Process

/-! ## The exchange -/

/-- `CStreamMediaExchange`, with callers `γ`. A caller in `calls` has chosen a queue and not yet
enqueued its message. The history: `addressed` are the stream ids for which a queue was chosen,
`enqueued` and `processed` the messages with the index of their queue. -/
structure Exchange (γ κ δ : Type) where
  threadNum : Nat
  threadIdx : Nat
  dataExchangeQueue : Nat → Option (List (TransmitPacket δ))
  mediaExchangeMap : Nat → Option (ExchangeMap κ)
  calls : γ → Option (Nat × TransmitPacket δ)
  addressed : List UInt64
  enqueued : List (Nat × TransmitPacket δ)
  processed : List (Nat × TransmitPacket δ)

namespace Exchange

/-- What happens next: `activate` runs `svc` of one more thread, which takes its index; that thread
opens its queue and its map; a caller of `addData`, `addMediaProcessor` or `delMediaProcessor`
chooses the queue, and then enqueues or fails; a thread processes the message in front. -/
inductive Act (γ δ : Type) where
  | getThreadIndex
  | openQueue (ulThreadIdx : Nat)
  | genProcessThreadIdx (caller : γ) (pkt : TransmitPacket δ)
  | enqueuePacket (caller : γ)
  | giveUp (caller : γ)
  | process (ulThreadIdx : Nat) (alloc : Bool)
  deriving Repr

variable {γ κ δ : Type}

/-- `Init`, before the first thread runs. -/
def init (ulThreadNum : Nat) : Exchange γ κ δ where
  threadNum := ulThreadNum
  threadIdx := 0
  dataExchangeQueue := fun _ => none
  mediaExchangeMap := fun _ => none
  calls := fun _ => none
  addressed := []
  enqueued := []
  processed := []

/-- `GenProcessThreadIdx`. -/
def genProcessThreadIdx (e : Exchange γ κ δ) (puStreamId : UInt64) : Option Nat :=
  if e.threadIdx = 0 then none else some (puStreamId.toNat % e.threadIdx)

variable [DecidableEq γ] (cv : Converter κ δ)

/-- One step. What cannot happen in a state does nothing there. -/
def step (e : Exchange γ κ δ) : Act γ δ → Exchange γ κ δ
  | .getThreadIndex =>
    if e.threadIdx < e.threadNum then { e with threadIdx := e.threadIdx + 1 } else e
  | .openQueue i =>
    match e.dataExchangeQueue i with
    | none =>
      if i < e.threadIdx then
        { e with
          dataExchangeQueue := Function.update e.dataExchangeQueue i (some [])
          mediaExchangeMap := Function.update e.mediaExchangeMap i (some fun _ => none) }
      else e
    | some _ => e
  | .genProcessThreadIdx c pkt =>
    match e.calls c, e.genProcessThreadIdx pkt.puStreamId with
    | none, some i =>
      { e with
        calls := Function.update e.calls c (some (i, pkt))
        addressed := pkt.puStreamId :: e.addressed }
    | _, _ => e
  | .enqueuePacket c =>
    match e.calls c with
    | none => e
    | some (i, pkt) =>
      match e.dataExchangeQueue i with
      | none => { e with calls := Function.update e.calls c none }
      | some l =>
        { e with
          calls := Function.update e.calls c none
          dataExchangeQueue := Function.update e.dataExchangeQueue i (some (l ++ [pkt]))
          enqueued := e.enqueued ++ [(i, pkt)] }
  | .giveUp c => { e with calls := Function.update e.calls c none }
  | .process i alloc =>
    match e.dataExchangeQueue i, e.mediaExchangeMap i with
    | some (pkt :: l), some m =>
      { e with
        dataExchangeQueue := Function.update e.dataExchangeQueue i (some l)
        mediaExchangeMap := Function.update e.mediaExchangeMap i (some (processPacket cv alloc m pkt).1)
        processed := e.processed ++ [(i, pkt)] }
    | _, _ => e

end Exchange

end AllCamera
