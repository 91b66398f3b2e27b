import AllCamera.Lib.Loop
import AllCamera.Stream.PsDemux.Parse

/-!
# `handleRtpFrame`

The frame organizer calls `CStreamPsMediaProcessorSet::handleRtpFrame` with the packets of a frame.
`checkProgramStreamHead` decides whether they carry a program stream. If so,
`dealProgramStreamRtpFrame` skips the RTP headers and runs the loop (`dealStep`); if not, the packets
go on as they are.

* `beginFrame`: a call up to the first turn of the loop. The loop may not leave, so a call is
  `beginFrame` followed by turns, and `Reach` collects the states of all runs of calls.
* `RtpFrame`: what the organizer hands over, a non-empty list of packets that `ParsePacket` accepts.
-/

namespace AllCamera

/-- `ParsePacket` of the block, as every caller uses it. -/
def MsgBlock.parse (b : MsgBlock) : RtpPacket.Parsed := RtpPacket.parsePacket b.data b.rd b.length32

/-- A packet as the organizer hands it over: in a block of the pool, and accepted by `ParsePacket`,
which has cleared its padding bit before. -/
structure MsgBlock.IsRtp (b : MsgBlock) : Prop where
  within : b.Within
  parses : b.parse.ret = .ok
  noPadding : RtpPacket.padding b.data b.rd ≠ 1

/-- `ParsePacket` leaves a packet without the padding bit alone. -/
theorem MsgBlock.IsRtp.data_eq {b : MsgBlock} (h : b.IsRtp) : b.parse.data = b.data :=
  RtpPacket.parsePacket_data h.noPadding

/-- A frame as the organizer hands it over. -/
structure RtpFrame where
  blocks : List MsgBlock
  ne_nil : blocks ≠ []
  isRtp : ∀ b ∈ blocks, b.IsRtp

theorem received_isRtp {h : RtpPacket.Head} {payload : List UInt8} (hlen : payload.length ≤ 2020) :
    (RtpPacket.received h payload).IsRtp := by
  have h0 := RtpPacket.received_byte_zero h payload
  refine ⟨⟨Int.le_refl _, ?_, ?_, rfl⟩, ?_, ?_⟩
  · simp only [RtpPacket.received]
    omega
  · simp only [RtpPacket.received, MsgBlock.transmitHead, MsgBlock.blockSize, RtpPacket.fixedHeader]
    omega
  · rw [MsgBlock.parse, RtpPacket.received_length (by omega), RtpPacket.parsePacket_plain h0 (by omega)]
  · rw [RtpPacket.padding, h0]
    decide

/-- The frame of one packet. -/
def RtpFrame.single (h : RtpPacket.Head) (payload : List UInt8) (hlen : payload.length ≤ 2020) :
    RtpFrame :=
  ⟨[RtpPacket.received h payload], by simp, fun _ hb => List.mem_singleton.mp hb ▸ received_isRtp hlen⟩

namespace Demux

variable (env : Env)

/-- `checkProgramStreamHead`: whether the frame is taken for a program stream, and the payload that
it notes in `FrameInfo`. -/
def checkProgramStreamHead : List MsgBlock → Bool × UInt8
  | [] => (false, 0)
  | b :: _ =>
    let r := b.parse
    -- `return RET_FAIL` from a function that returns `bool`
    if r.ret ≠ .ok then (true, 0)
    else
      let buffer (i : Nat) : UInt8 := r.data (b.rd + r.headLen + i)
      if buffer 0 = 0 ∨ buffer 1 = 0 ∨ buffer 2 = 1 then (true, 0)
      else if buffer 0 = 0 ∧ buffer 1 = 0 ∧ buffer 2 = 0 ∧ buffer 3 = 1 then
        let header := (buffer 4).toNat
        if header / 128 = 0 ∧ header / 2 % 64 < hevcNalEnd then (false, PayloadType.h265)
        else if header / 128 = 0 ∧ (h264NalUndefined < header % 32 ∨ header % 32 < h264NalEnd) then
          (false, PayloadType.h264)
        else (false, 0)
      else (false, PayloadType.pcmu)

/-- The loop of `handleRtpFrame` for a frame that is not a program stream. -/
def forward (d : Demux) : List MsgBlock → Demux
  | [] => d
  | b :: bs =>
    if b.parse.ret ≠ .ok then d
    else { d with sent := d.sent ++ [{ b with data := b.parse.data }] }.forward bs

/-- The loop of `SkipAllRtpHead`. -/
def skipRtpHeads (d : Demux) : List MsgBlock → RetCode × Demux
  | [] => (.ok, d)
  | b :: bs =>
    let r := b.parse
    let d := d.log (b.readFaults r.reach)
    if r.ret ≠ .ok then (.fail, { d with list := d.list ++ [{ b with data := r.data }] })
    else
      let b := { b with data := r.data }.advance r.headLen
      let d := d.log b.orderFaults
      { d with
        list := d.list ++ [b]
        info := { d.info with length := (d.info.length + b.length) % 2 ^ 32 } }.skipRtpHeads bs

/-- `SkipAllRtpHead`: the blocks behind their RTP headers go to the parser list. -/
def skipAllRtpHead (d : Demux) : List MsgBlock → RetCode × Demux
  | [] => (.fail, d)
  | b :: bs =>
    let r := b.parse
    let d := d.log (b.readFaults r.reach)
    if r.ret ≠ .ok then (.fail, d)
    else
      let b := { b with data := r.data }
      { d with info := { d.info with
        timestamp := RtpPacket.getTimeStamp b.data b.rd
        ssrc := RtpPacket.getSSRC b.data b.rd
        payload := RtpPacket.getPayloadType b.data b.rd } }.skipRtpHeads (b :: bs)

/-- `dealProgramStreamRtpFrame` up to the first turn of its loop. -/
def beginProgramStream (d : Demux) (payload : UInt8) (frame : List MsgBlock) : Demux :=
  let d := { d with status := .packHeader, info := ⟨payload, 0, 0, 0, 0⟩, list := [] }
  match d.skipAllRtpHead frame with
  | (.ok, d) => d
  | (_, d) => { d with list := [] }

/-- `handleRtpFrame` up to the loop; a frame that is not a program stream is sent on. -/
def beginFrame (d : Demux) (frame : List MsgBlock) : Demux :=
  let r := checkProgramStreamHead frame
  if r.1 then d.beginProgramStream r.2 frame else d.forward frame

/-- The call of `handleRtpFrame` returns. -/
def HandleReturns (d : Demux) (frame : List MsgBlock) : Prop :=
  Loop.Returns (dealStep env) Done (d.beginFrame frame)

/-- The states of the runs from construction: calls one after the other, and the turns of their
loops. -/
inductive Reach : Demux → Prop
  | init : Reach init
  | frame {d : Demux} (f : RtpFrame) : Reach d → d.Done → Reach (d.beginFrame f.blocks)
  | turn {d : Demux} : Reach d → ¬ d.Done → Reach (d.dealStep env)

/-- Turns one after the other. -/
theorem Reach.turns {d : Demux} {k : Nat} (h : Reach env d)
    (hk : ∀ j < k, ¬ Done ((dealStep env)^[j] d)) : Reach env ((dealStep env)^[k] d) := by
  induction k with
  | zero => exact h
  | succ k ih =>
    rw [Function.iterate_succ_apply']
    exact (ih fun j hj => hk j (by omega)).turn (hk k (by omega))

end Demux

end AllCamera
