import AllCamera.Lib.Assoc
import AllCamera.Stream.RtpPacket
import Mathlib.Data.List.Sort

/-!
# The RTP frame organizer (`CRtpFrameOrganizer`)

The organizer collects RTP packets by timestamp and hands a frame to its handler when the packets
queued for the smallest timestamp look complete. It owns a fixed number of frame infos
(`RTP_FRAME_INFO_S`), which move between a free list and a map by timestamp. Frame infos are
objects with an address here (`heap`), as in the source, so that which container holds one can be
stated.

* `insertInfo`: `insertRtpPacket` behind its `ParsePacket` call, from the packet's three fields.
* `Outcome`: what one call returned, the frame it handed to `handleRtpFrame`, if any, and the
  packets that it freed from a queue without handing them over.
* `run`: a sequence of calls.
-/

namespace AllCamera

/-- What `duplicate()` returned: which duplicate it is, and the block. -/
structure Duplicate where
  addr : Nat
  block : MsgBlock

/-- `RTP_PACK_INFO_S`. -/
structure PackInfo where
  usSeq : UInt16
  unTimestamp : UInt32
  bMarker : Bool
  pRtpMsgBlock : Duplicate

/-- `RTP_FRAME_INFO_S`. -/
structure FrameInfo where
  unTimestamp : UInt32
  bMarker : Bool
  packetQueue : List PackInfo

/-- `CRtpFrameOrganizer`: the frame infos by address, `m_RtpFrameMap`, `m_RtpFrameFreeList`, and
the number of `duplicate()` calls so far. -/
structure FrameOrganizer where
  heap : Nat → FrameInfo
  frameMap : List (UInt32 × Nat)
  freeList : List Nat
  duplicates : Nat

/-- A call of `handleRtpFrame`: the list it got, and the timestamps in the map at that moment. -/
structure Delivery where
  packets : List PackInfo
  cached : List UInt32

/-- What one call of `insertRtpPacket` did. -/
structure Outcome where
  ret : RetCode
  accepted : List PackInfo
  delivered : List Delivery
  discarded : List PackInfo

namespace FrameOrganizer

/-- The constructor: no frame infos. -/
def empty : FrameOrganizer := ⟨fun _ => ⟨0, false, []⟩, [], [], 0⟩

/-- `init`: `unMaxFrameCache` free frame infos. Their timestamp and marker are not read before
`InsertFrame` sets them. -/
def init (unMaxFrameCache : Nat) : RetCode × FrameOrganizer :=
  if unMaxFrameCache = 0 then (.fail, empty)
  else (.ok, { empty with freeList := List.range unMaxFrameCache })

/-- The packets in the queues of the map. -/
def queued (o : FrameOrganizer) : List PackInfo :=
  o.frameMap.flatMap fun e => (o.heap e.2).packetQueue

/-- The frame info at `p` becomes `f`. -/
def setInfo (o : FrameOrganizer) (p : Nat) (f : FrameInfo) : FrameOrganizer :=
  { o with heap := Function.update o.heap p f }

/-! ## Inserting into a queue -/

/-- `insertRange`: before the first packet whose number is not smaller. `none` when the scan runs
past the last packet. -/
def insertRange (info : PackInfo) : List PackInfo → Option (List PackInfo)
  | [] => none
  | i :: q => if info.usSeq ≤ i.usSeq then some (info :: i :: q)
      else (insertRange info q).map (i :: ·)

/-- `insert`: behind the last packet, before the first one, or in between. -/
def insert (info : PackInfo) (q : List PackInfo) : Option (List PackInfo) :=
  match q.head?, q.getLast? with
  | some first, some last =>
    if last.usSeq ≤ info.usSeq then some (q ++ [info])
    else if info.usSeq < first.usSeq then some (info :: q)
    else insertRange info q
  | _, _ => some [info]

/-! ## Frame infos -/

/-- `InsertFrame`: the first free frame info goes into the map. -/
def insertFrame (o : FrameOrganizer) (unTimestamp : UInt32) : Option (Nat × FrameOrganizer) :=
  match o.freeList with
  | [] => none
  | p :: free =>
    let f := { o.heap p with bMarker := false, unTimestamp := unTimestamp }
    some (p, { o.setInfo p f with
      freeList := free
      frameMap := o.frameMap.orderedInsert (fun a b => a.1 ≤ b.1) (unTimestamp, p) })

/-- The loop body of `GetSmallFrame`. -/
def smaller (o : FrameOrganizer) : Option Nat → UInt32 × Nat → Option Nat
  | none, e => some e.2
  | some p, e => if (o.heap e.2).unTimestamp < (o.heap p).unTimestamp then some e.2 else some p

/-- `GetSmallFrame`: the frame info with the smallest timestamp. -/
def getSmallFrame (o : FrameOrganizer) : Option Nat := o.frameMap.foldl o.smaller none

/-- `releaseRtpPacket`: the packets of the frame are freed and its info goes back to the free
list. Second component: the freed packets. -/
def releaseRtpPacket (o : FrameOrganizer) (p : Nat) : FrameOrganizer × List PackInfo :=
  let f := o.heap p
  match o.frameMap.lookup f.unTimestamp with
  | none => (o, [])
  | some _ =>
    ({ o.setInfo p { f with packetQueue := [] } with
        frameMap := Assoc.erase o.frameMap f.unTimestamp
        freeList := o.freeList ++ [p] }, f.packetQueue)

/-! ## Finished frames -/

/-- The loop of `checkFrame`: the numbers count up by one from `usSeq`. -/
def consecutive : UInt16 → List PackInfo → Bool
  | _, [] => true
  | usSeq, i :: q => usSeq == i.usSeq && consecutive (usSeq + 1) q

/-- The test of `checkFrame` on the smallest frame: a marker was seen and the queue has no gap. -/
def finished (f : FrameInfo) : Bool :=
  match f.packetQueue with
  | [] => false
  | i :: q => f.bMarker && consecutive i.usSeq (i :: q)

/-- `checkFrame`: a finished smallest frame is handed over and released. -/
def checkFrame (o : FrameOrganizer) : FrameOrganizer × List Delivery :=
  match o.getSmallFrame with
  | none => (o, [])
  | some p =>
    if finished (o.heap p) then
      ((o.releaseRtpPacket p).1, [⟨(o.heap p).packetQueue, o.frameMap.map Prod.fst⟩])
    else (o, [])

/-! ## `insertRtpPacket` -/

/-- The frame info for a timestamp: the one in the map, else a free one. -/
def findFrame (o : FrameOrganizer) (unTimestamp : UInt32) : Option (Nat × FrameOrganizer) :=
  match o.frameMap.lookup unTimestamp with
  | some p => some (p, o)
  | none => o.insertFrame unTimestamp

/-- No frame info is free: the packet is dropped, and the smallest frame with it. -/
def evict (o : FrameOrganizer) : FrameOrganizer × Outcome :=
  match o.getSmallFrame with
  | none => (o, ⟨.fail, [], [], []⟩)
  | some p => ((o.releaseRtpPacket p).1, ⟨.fail, [], [], (o.releaseRtpPacket p).2⟩)

/-- `insertRtpPacket` for a parsed packet. -/
def insertInfo (o : FrameOrganizer) (info : PackInfo) : FrameOrganizer × Outcome :=
  match o.findFrame info.unTimestamp with
  | none => o.evict
  | some (p, o) =>
    let f := o.heap p
    -- the marker stays set once one packet had it
    let f := { f with bMarker := f.bMarker || info.bMarker }
    match insert info f.packetQueue with
    | none => (o.setInfo p f, ⟨.fail, [], [], []⟩)
    | some q =>
      let r := (o.setInfo p { f with packetQueue := q }).checkFrame
      (r.1, ⟨.ok, [info], r.2, []⟩)

/-- The packet info of a block that `ParsePacket` left as `data`, for the next duplicate. -/
def packInfo (o : FrameOrganizer) (b : MsgBlock) (data : Memory) : PackInfo where
  usSeq := RtpPacket.getSeqNum data b.rd
  unTimestamp := RtpPacket.getTimeStamp data b.rd
  bMarker := RtpPacket.getMarker data b.rd
  pRtpMsgBlock := ⟨o.duplicates, { b with data := data }⟩

/-- `insertRtpPacket`; `duplicate` is whether the block can be duplicated. -/
def insertRtpPacket (o : FrameOrganizer) (b : MsgBlock) (duplicate : Bool := true) : FrameOrganizer × Outcome :=
  let r := RtpPacket.parsePacket b.data b.rd b.length32
  if r.ret ≠ .ok ∨ duplicate = false then (o, ⟨.fail, [], [], []⟩)
  else { o with duplicates := o.duplicates + 1 }.insertInfo (o.packInfo b r.data)

/-- A sequence of `insertRtpPacket` calls, less those in which the block can not be duplicated. -/
def run (o : FrameOrganizer) : List MsgBlock → FrameOrganizer × List Outcome
  | [] => (o, [])
  | b :: bs =>
    let r := o.insertRtpPacket b
    let rs := run r.1 bs
    (rs.1, r.2 :: rs.2)

end FrameOrganizer

end AllCamera
