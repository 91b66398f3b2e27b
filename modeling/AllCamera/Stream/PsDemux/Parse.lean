import AllCamera.Stream.PsDemux.Send

/-!
# The loop of the demultiplexer

`dealStep` is one turn of the loop of `dealProgramStreamRtpFrame`: the handler of the parse state
looks at the front block. A handler that does not find its header only moves on to the next parse
state; `PARSING_PES_PACKET` stays for the PES packets of the frame, and `PARSING_FOUND_DATA` is
never left. The loop leaves when the list is empty (`done`).
-/

namespace AllCamera

/-- `00 00 01` and a stream id: `pack_start_code`. -/
def packStart (streamId : UInt8) : List UInt8 := [0, 0, 1, streamId]

namespace Demux

variable (env : Env)

/-- The end of a header handler: the header's `n` bytes are skipped, and the parse state is `next`
unless the list ran empty. -/
def skipHead (d : Demux) (n : Nat) (next : ParseState) : Demux :=
  match skipBytes n d.list with
  | [] => { d with list := [] }
  | b :: bs => { d.log b.orderFaults with list := b :: bs, status := next }

/-- `ProgramStreamPackHeader`. -/
def programStreamPackHeader (d : Demux) : Demux :=
  match d.list with
  | [] => d
  | b :: _ =>
    let d := d.log (b.readFaults (b.scanned (packStart 0xBA)))
    if b.startsWith (packStart 0xBA) then
      -- `pack_stuffing_length` is three bits of the last byte
      (d.log (b.readFaults 14)).skipHead (14 + (b.byte 13).toNat % 8) .systemHeader
    else { d with status := .systemHeader }

/-- `ProgramSystemPackHeader`. -/
def programSystemPackHeader (d : Demux) : Demux :=
  match d.list with
  | [] => d
  | b :: _ =>
    let d := d.log (b.readFaults (b.scanned (packStart 0xBB)))
    if b.startsWith (packStart 0xBB) then
      (d.log (b.readFaults 6)).skipHead (6 + b.be16At 4) .sysmapHeader
    else { d with status := .sysmapHeader }

/-- The payloads after one `program_elementary_stream_info`. -/
def streamType (d : Demux) (t : UInt8) : Demux :=
  if t = 0x10 then { d with videoPayload := PayloadType.mpeg4 }
  else if t = 0x1b then { d with videoPayload := PayloadType.h264 }
  else if t = 0x24 then { d with videoPayload := PayloadType.h265 }
  else if t = 0x90 then { d with audioPayload := PayloadType.pcma }
  else d

/-- The loop over the `program_elementary_stream_info`s at `off`, `len` bytes of them. -/
def streamInfos (b : MsgBlock) (off len : Nat) (d : Demux) : Demux :=
  if len < 4 then d
  else
    let d := (d.log (b.readFaults (off + 4))).streamType (b.byte off)
    let n := 4 + b.be16At (off + 2)
    streamInfos b (off + n) (len - n) d
termination_by len

/-- The part of `ProgramStreamMap` that reads the map of `n` bytes at the front of `b`, unless the
video payload is known. It reads from the block that the map begins in, also when that was freed,
and takes for the map's length what is left to skip. -/
def parseMap (d : Demux) (b : MsgBlock) (n : Nat) : Demux :=
  if d.videoPayload ≠ PayloadType.max then d
  else
    let left := if n < b.length32 then n else n - b.length32
    (d.log (b.readFaults 10)).streamInfos b (10 + b.be16At 8 + 2) (left - 10 - b.be16At 8 - 2 - 4)

/-- `ProgramStreamMap`. -/
def programStreamMap (d : Demux) : Demux :=
  match d.list with
  | [] => d
  | b :: _ =>
    if b.length32 < 10 then { d with status := .privateHeader }
    else
      let d := d.log (b.readFaults (b.scanned (packStart 0xBC)))
      if b.startsWith (packStart 0xBC) then
        let d := d.log (b.readFaults 6)
        let n := 6 + b.be16At 4
        if skipBytes n d.list = [] then { d with list := [] }
        else (d.parseMap b n).skipHead n .privateHeader
      else { d with status := .privateHeader }

/-- `ProgramPrivateHeader`. -/
def programPrivateHeader (d : Demux) : Demux :=
  match d.list with
  | [] => d
  | b :: _ =>
    if b.length32 < 6 then { d with status := .pesPacket }
    else
      let d := d.log (b.readFaults (b.scanned (packStart 0xBD)))
      if b.startsWith (packStart 0xBD) ∨ b.startsWith (packStart 0xBE) ∨
          b.startsWith (packStart 0xBF) then
        (d.log (b.readFaults 6)).skipHead (6 + b.be16At 4) .pesPacket
      else { d with status := .pesPacket }

/-- `FrameInfo.length` for the PES header of `b`: without `PTS DTS stuffing_length`. -/
def esLength (b : MsgBlock) : Nat := (((b.be16At 4 : Int) - 3 - (b.byte 8).toNat) % 2 ^ 32).toNat

/-- The state with the PES header of `b` in `FrameInfo`. -/
def notePes (d : Demux) (b : MsgBlock) : Demux :=
  { d.log (b.readFaults 9 ++ Fault.unless (3 + (b.byte 8).toNat ≤ b.be16At 4) .length) with
    info := { d.info with length := esLength b, streamId := b.byte 3 } }

/-- The elementary stream at the front of the list goes to its sender. -/
def sendEs (d : Demux) : Demux :=
  if d.info.streamId = audioStreamId then (d.withPayload d.audioPayload).sendEsAudioFrame env
  else if d.info.streamId = videoStreamId then (d.withPayload d.videoPayload).sendEsVideoFrame env
  else d.skipunKnowFrame

/-- `ProgramEStramHead`. -/
def programEStramHead (d : Demux) : Demux :=
  match d.list with
  | [] => d
  | b :: _ =>
    let d := d.log (b.readFaults (b.scanned [0, 0, 1]))
    if b.startsWith [0, 0, 1] ∧ 9 ≤ b.length32 then
      let d := (d.notePes b).skipHead (9 + (b.byte 8).toNat) .pesPacket
      if d.list = [] then d else d.sendEs env
    else { d with status := .foundData }

/-- One turn of the loop of `dealProgramStreamRtpFrame`. -/
def dealStep (d : Demux) : Demux :=
  match d.list with
  | [] => d
  | _ :: _ =>
    match d.status with
    | .packHeader => d.programStreamPackHeader
    | .systemHeader => d.programSystemPackHeader
    | .sysmapHeader => d.programStreamMap
    | .privateHeader => d.programPrivateHeader
    | .pesPacket => d.programEStramHead env
    | .foundData => d.programKnowFrame env

/-- The loop leaves: the list is empty. -/
def Done (d : Demux) : Prop := d.list = []

instance (d : Demux) : Decidable d.Done := inferInstanceAs (Decidable (d.list = []))

end Demux

end AllCamera
