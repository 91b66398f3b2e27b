import AllCamera.Stream.MediaExchange

/-!
# Businesses and their media processors (`CStreamBusiness`)

A business joins a receiving and a sending session. `start` makes a media processor and registers it
with the exchange by a message; `stop` has it taken away by another. The exchange thread of the
stream puts the processor into the stream's set when it comes to the first message, and takes it out
and deletes it when it comes to the second.

* `Business`: the sessions and `m_pRecvProcessor`.
* `Distribution`: the businesses, the queues and maps of the exchange threads (all of them started),
  and which processors are allocated.
* `step`: a business starts or stops, media comes in, a thread processes a message. A call of `start`
  or `stop` enqueues at most one message and touches nothing that the threads see behind it, so it is
  one step.

`m_pSendProcessor` is never set and left out.
-/

namespace AllCamera

/-- `PLAY_TYPE`. -/
inductive PlayType where
  | live
  | platRecord
  | frontRecord
  | max
  deriving DecidableEq, Repr

/-- What a business asks its sessions for. -/
structure BusinessSession where
  streamId : UInt64
  playType : PlayType
  mediaTransType : MediaTransType
  deriving Repr

/-- `CStreamBusiness`. -/
structure Business where
  pRecvSession : Option BusinessSession
  pSendSession : Option BusinessSession
  pRecvProcessor : Option Nat
  deriving Repr

/-- The businesses `β` and the exchange. `live` are the addresses of the processors that exist;
`created` and `deleted` are the history of `new` and `delete`. -/
structure Distribution (β κ δ : Type) where
  threadNum : Nat
  business : β → Business
  dataExchangeQueue : Nat → List (TransmitPacket δ)
  mediaExchangeMap : Nat → ExchangeMap κ
  live : Nat → Bool
  created : List Nat
  deleted : List Nat

namespace Distribution

/-- What happens next, and how it turns out: `start` with the status of the sessions, the address
that `new` gives, and whether `Init` and `addMediaProcessor` succeed; `stop`, with whether
`delMediaProcessor` does; a block of media; a thread processes the message in front, with or without
memory for a new set. -/
inductive Act (β δ : Type) where
  | start (b : β) (ready : Bool) (p : Nat) (initOk addOk : Bool)
  | stop (b : β) (delOk : Bool)
  | addData (puStreamId : UInt64) (block : δ)
  | process (ulThreadIdx : Nat) (alloc : Bool)
  deriving Repr

variable {β κ δ : Type}

/-- The businesses after their `init`, and nothing registered. -/
def init (ulThreadNum : Nat) (recv send : β → Option BusinessSession) : Distribution β κ δ where
  threadNum := ulThreadNum
  business := fun b => ⟨recv b, send b, none⟩
  dataExchangeQueue := fun _ => []
  mediaExchangeMap := fun _ _ => none
  live := fun _ => false
  created := []
  deleted := []

/-- The queue of a stream. -/
def home (d : Distribution β κ δ) (puStreamId : UInt64) : Nat := puStreamId.toNat % d.threadNum

/-- `new`. -/
def create (d : Distribution β κ δ) (p : Nat) : Distribution β κ δ :=
  { d with live := Function.update d.live p true, created := d.created ++ [p] }

/-- `delete`, of each of `ps`. -/
def delete (d : Distribution β κ δ) (ps : List Nat) : Distribution β κ δ :=
  { d with live := fun p => d.live p && !ps.contains p, deleted := d.deleted ++ ps }

/-- `EnqueuePacket`. -/
def enqueue (d : Distribution β κ δ) (pkt : TransmitPacket δ) : Distribution β κ δ :=
  let i := d.home pkt.puStreamId
  { d with
    dataExchangeQueue := Function.update d.dataExchangeQueue i (d.dataExchangeQueue i ++ [pkt]) }

/-- Thread `i` has taken the message in front of `l` out of its queue, and its map is now `m`. -/
def took (d : Distribution β κ δ) (i : Nat) (l : List (TransmitPacket δ)) (m : ExchangeMap κ) :
    Distribution β κ δ :=
  { d with
    dataExchangeQueue := Function.update d.dataExchangeQueue i l
    mediaExchangeMap := Function.update d.mediaExchangeMap i m }

section Calls

variable [DecidableEq β]

/-- `m_pRecvProcessor = p`. -/
def setProcessor (d : Distribution β κ δ) (b : β) (p : Option Nat) : Distribution β κ δ :=
  { d with business := Function.update d.business b { d.business b with pRecvProcessor := p } }

/-- The first lines of `createMediaProcessor`: a processor from an earlier call is deleted. -/
def dropProcessor (d : Distribution β κ δ) (b : β) : Distribution β κ δ :=
  match (d.business b).pRecvProcessor with
  | none => d
  | some p => (d.delete [p]).setProcessor b none

/-- `createMediaProcessor`, with `createDirectProcessor` and `registMediaProcessor`. `new` gives no
address that is in use. -/
def createMediaProcessor (d : Distribution β κ δ) (b : β) (recv send : BusinessSession) (p : Nat)
    (initOk addOk : Bool) : Distribution β κ δ :=
  let d' := d.dropProcessor b
  if d'.live p then d
  else if send.playType = .live ∨ send.playType = .frontRecord then
    if initOk ∧ addOk then
      ((d'.create p).setProcessor b (some p)).enqueue
        ⟨recv.streamId, .addSession p recv.mediaTransType send.mediaTransType⟩
    else (d'.create p).delete [p]
  else d'

/-- `start`. -/
def start (d : Distribution β κ δ) (b : β) (ready : Bool) (p : Nat) (initOk addOk : Bool) :
    Distribution β κ δ :=
  match (d.business b).pRecvSession, (d.business b).pSendSession with
  | some recv, some send =>
    if ready then d.createMediaProcessor b recv send p initOk addOk else d
  | _, _ => d

/-- `destroyMediaProcessor`. -/
def destroyMediaProcessor (d : Distribution β κ δ) (b : β) (delOk : Bool) : Distribution β κ δ :=
  match (d.business b).pRecvSession, (d.business b).pRecvProcessor with
  | some recv, some p =>
    (if delOk then d.enqueue ⟨recv.streamId, .delSession p⟩ else d).setProcessor b none
  | _, _ => d

/-- `stop`. -/
def stop (d : Distribution β κ δ) (b : β) (delOk : Bool) : Distribution β κ δ :=
  let d := d.destroyMediaProcessor b delOk
  { d with
    business := Function.update d.business b
      { d.business b with pRecvSession := none, pSendSession := none } }

/-- One step. -/
def step (cv : Converter κ δ) (d : Distribution β κ δ) : Act β δ → Distribution β κ δ
  | .start b ready p initOk addOk => d.start b ready p initOk addOk
  | .stop b delOk => d.stop b delOk
  | .addData id block => d.enqueue ⟨id, .mediaData block⟩
  | .process i alloc =>
    match d.dataExchangeQueue i with
    | [] => d
    | pkt :: l =>
      let r := processPacket cv alloc (d.mediaExchangeMap i) pkt
      (d.took i l r.1).delete r.2

end Calls

end Distribution

end AllCamera
