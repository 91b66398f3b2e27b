import AllCamera.Stream.RtpPacket
import AllCamera.Lib.Run

/-!
# Sending with a backlog (`CPacketList`, `CDirectProcessor`)

A processor gives every packet to its session. A packet that the session refuses waits in a list, and
so does every packet behind it; when the list is full, two frames are removed from its front.

* `Packet`: a block, with the number of the call that it was given to.
* `DirectProcessor`: the processor after `Init`, with what became of the packets.
* `sendLoop`, `clearLoop`, `save`: the parts of `CPacketList`.
* `send`: `CDirectProcessor::Send`. Whether the session accepts a packet, and whether there is memory
  for a duplicate, are arguments.
-/

namespace AllCamera

/-- The block of the `id`-th call of `Send`, or a duplicate of it. -/
structure Packet where
  id : Nat
  block : MsgBlock

/-- What a call of `ClearFrame` removed, and what it left. -/
structure Cleared where
  removed : List Packet
  left : List Packet

/-- `CDirectProcessor`: `m_PacketBuf.m_PacketList` and the counters; how often `Send` was called, which
packets the session accepted, what `ClearFrame` did, and which packets were not duplicated. -/
structure DirectProcessor where
  packetList : List Packet
  savePacketNum : UInt32
  dropPacketNum : UInt32
  calls : Nat
  accepted : List Packet
  cleared : List Cleared
  dropped : List Packet

/-- `MAX_BUF_PACKET_NUM`. -/
def maxBufPacketNum : Nat := 100

/-- `ParsePacket` succeeds, and `GetMarker` is true. -/
def Packet.hasMarker (p : Packet) : Bool :=
  let r := RtpPacket.parsePacket p.block.data p.block.rd p.block.length32
  r.ret = .ok ∧ RtpPacket.getMarker r.data p.block.rd = true

/-- The loop of `CPacketList::Send`: what the session accepts, and what stays in the list. `accept k`
is its answer to the `k`-th packet. -/
def sendLoop (accept : Nat → Bool) : List Packet → List Packet × List Packet
  | [] => ([], [])
  | p :: ps =>
    if accept 0 then
      let r := sendLoop (fun k => accept (k + 1)) ps
      (p :: r.1, r.2)
    else ([], p :: ps)

/-- The loop of `ClearFrame`, after `i` frames. -/
def clearLoop (num i : Nat) : List Packet → Cleared
  | [] => ⟨[], []⟩
  | p :: ps =>
    let next (i : Nat) : Cleared :=
      let r := clearLoop num i ps
      { r with removed := p :: r.removed }
    if p.hasMarker then if num ≤ i + 1 then ⟨[p], ps⟩ else next (i + 1)
    else next i

namespace DirectProcessor

/-- A processor after `Init`. -/
def init : DirectProcessor := ⟨[], 0, 0, 0, [], [], []⟩

variable (d : DirectProcessor)

/-- `ClearFrame`. -/
def clearFrame (num : Nat) : DirectProcessor :=
  let r := clearLoop num 0 d.packetList
  { d with packetList := r.left, cleared := d.cleared ++ [r] }

/-- `CPacketList::Save`, when `duplicate()` succeeds or not. -/
def savePacket (p : Packet) (duplicate : Bool) : RetCode × DirectProcessor :=
  let d := if maxBufPacketNum ≤ d.packetList.length then d.clearFrame 2 else d
  if duplicate then (.ok, { d with packetList := d.packetList ++ [p] })
  else (.fail, { d with dropped := d.dropped ++ [p] })

/-- `CDirectProcessor::Save`. -/
def save (p : Packet) (duplicate : Bool) : DirectProcessor :=
  match d.savePacket p duplicate with
  | (.ok, d) => { d with savePacketNum := d.savePacketNum + 1 }
  | (_, d) => { d with dropPacketNum := d.dropPacketNum + 1 }

/-- `CPacketList::Send`: it returns `RET_OK` only if the list was empty before. -/
def flush (accept : Nat → Bool) : RetCode × DirectProcessor :=
  if d.packetList = [] then (.ok, d)
  else
    let r := sendLoop accept d.packetList
    (.fail, { d with packetList := r.2, accepted := d.accepted ++ r.1 })

/-- `CDirectProcessor::Send`: the session's answers are `accept`. -/
def send (block : MsgBlock) (accept : Nat → Bool) (duplicate : Bool) : DirectProcessor :=
  let p : Packet := ⟨d.calls, block⟩
  match { d with calls := d.calls + 1 }.flush accept with
  | (.ok, d) =>
    if accept 0 then { d with accepted := d.accepted ++ [p] } else d.save p duplicate
  | (_, d) => d.save p duplicate

/-- A call of `Send`, with the answers that it gets. -/
structure Call where
  block : MsgBlock
  accept : Nat → Bool
  duplicate : Bool

/-- The call's effect. -/
def step (d : DirectProcessor) (c : Call) : DirectProcessor := d.send c.block c.accept c.duplicate

end DirectProcessor

end AllCamera
