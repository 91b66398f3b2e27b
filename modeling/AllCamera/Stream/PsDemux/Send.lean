import AllCamera.Stream.PsDemux.State

/-!
# Sending an elementary stream

The functions of `CStreamPsMediaProcessorSet` that take the `FrameInfo.length` bytes of an
elementary stream off the blocks and send them as RTP packets. A block that ends before the
elementary stream does is sent itself, with its new header in front; the bytes of the block in
which the stream ends are copied into a block of the pool.

Each `do ... while` loop over the blocks is a recursion on the list. The recursion between
`ProgramKnowFrame`, `sendEsVideoFrame` and `sendEsAudioFrame` is untied by parameters.
-/

namespace AllCamera

namespace Demux

variable (env : Env)

/-! ## Audio and unknown streams -/

/-- The payload type that `sendEsAudioFrame` sets, by the stream id. -/
def audioPacketPayload (d : Demux) : UInt8 :=
  if d.info.streamId = audioStreamId then d.audioPayload
  else if d.info.streamId = videoStreamId then d.videoPayload
  else PayloadType.ps

/-- The loop of `sendEsAudioFrame`. -/
def sendAudioBlocks (d : Demux) (ulEsLen : Nat) : List MsgBlock → Demux
  | [] => { d with list := [] }
  | b :: bs =>
    if ulEsLen = 0 then { d with list := b :: bs }
    else if b.length ≤ ulEsLen then
      let h := d.head d.audioPacketPayload (ulEsLen - b.length = 0)
      (d.send (b.stampFront h)).sendAudioBlocks (ulEsLen - b.length) bs
    else match env.alloc d.allocs with
      | none => d.leave (b.advance ulEsLen) bs
      | some buffer =>
        let new := MsgBlock.ofPool buffer (d.head d.audioPacketPayload true)
        ((d.log (b.copyFaults new ulEsLen)).send (new.copy b ulEsLen)).leave (b.advance ulEsLen) bs

/-- `sendEsAudioFrame` when the audio payload is known. -/
def sendAudio (d : Demux) : Demux :=
  let d := d.sendAudioBlocks env d.info.length d.list
  { d with info := { d.info with timestamp := d.info.timestamp + 1 } }

/-- The loop of `skipunKnowFrame`. -/
def skipBlocks (d : Demux) (ulEsLen : Nat) : List MsgBlock → Demux
  | [] => { d with list := [] }
  | b :: bs =>
    if ulEsLen = 0 then { d with list := b :: bs }
    else if b.length ≤ ulEsLen then d.skipBlocks (ulEsLen - b.length) bs
    else { d.log (b.advance ulEsLen).orderFaults with list := b.advance ulEsLen :: bs }

/-- `skipunKnowFrame`. -/
def skipunKnowFrame (d : Demux) : Demux := d.skipBlocks d.info.length d.list

/-! ## H.264 -/

/-- `FU_INDICATOR` of a fragment of the NAL unit with header `nalu`: its `F` and `NRI`, `RTP_FUA`. -/
def fuIndicator (nalu : UInt8) : UInt8 := .ofNat (nalu.toNat / 32 * 32 + 28)

/-- `FU_HEADER`: `S`, `E` and the type of the NAL unit. -/
def fuHeader (nalu : UInt8) (s e : Bool) : UInt8 :=
  .ofNat ((if s then 128 else 0) + (if e then 64 else 0) + nalu.toNat % 32)

/-- `ulEsLen -= n`: a shorter length wraps around. -/
def minus32 (ulEsLen n : Nat) : Nat := (((ulEsLen : Int) - n) % 2 ^ 32).toNat

/-- `sendH264EsSigleNalu`. -/
def sendH264EsSigleNalu (d : Demux) : Demux :=
  match d.list with
  | [] => d
  | b :: bs =>
    let ulEsLen := d.info.length
    if ulEsLen = b.length then
      let c := (b.behindCode 4).stampFront (d.head d.videoPayload true)
      { (d.log (b.codeFaults 4)).send c with list := bs }
    else if ulEsLen < b.length then
      match env.alloc d.allocs with
      | none => d.leave (b.advance ulEsLen) bs
      | some buffer =>
        let new := MsgBlock.ofPool buffer (d.head d.videoPayload true)
        if d.info.streamId = videoStreamId then
          let c := b.behindCode 4
          let n := if b.startsWith startCode then minus32 ulEsLen 4 else ulEsLen
          let fs := b.codeFaults 4 ++
            Fault.unless (b.startsWith startCode → 4 ≤ ulEsLen) .length ++ c.copyFaults new n
          ((d.log fs).send (new.copy c n)).leave (c.advance n) bs
        else
          ((d.log (b.copyFaults new ulEsLen)).send (new.copy b ulEsLen)).leave (b.advance ulEsLen) bs
    else d

/-- A whole block as a fragment, with the FU bytes and the RTP header in front. The source stores
the `E` bit after the RTP header, in a byte apart from it. -/
def fuBlock (b : MsgBlock) (nalu : UInt8) (s e : Bool) (h : RtpPacket.Head) : MsgBlock :=
  let b := b.retreat 2
  { b with data := b.data.write b.rd [fuIndicator nalu, fuHeader nalu s e] }.stampFront h

/-- `nalu_hdr` after a block: the NAL header behind a start code, if the block begins with one. -/
def naluAt (b : MsgBlock) (nalu : UInt8) : UInt8 := if b.startsWith startCode then b.byte 4 else nalu

/-- The loop of `sendH264EsFuNale`. -/
def sendFuBlocks (d : Demux) (ulEsLen : Nat) (bStart : Bool) (nalu : UInt8) :
    List MsgBlock → Demux
  | [] => { d with list := [] }
  | b :: bs =>
    if ulEsLen = 0 then { d with list := b :: bs }
    else if b.length ≤ ulEsLen then
      let last : Bool := ulEsLen - b.length = 0
      let c := fuBlock (b.behindCode 5) (naluAt b nalu) bStart last (d.head d.videoPayload last)
      ((d.log (b.codeFaults 5)).send c).sendFuBlocks (ulEsLen - b.length) false (naluAt b nalu) bs
    else match env.alloc d.allocs with
      | none => d.leave (b.advance ulEsLen) bs
      | some buffer =>
        -- last fu packet
        let c := b.behindCode 5
        let n := if b.startsWith startCode then ulEsLen - 1 else ulEsLen
        let new := (MsgBlock.ofPool buffer (d.head d.videoPayload true)).append
          [fuIndicator (naluAt b nalu), fuHeader (naluAt b nalu) false true]
        ((d.log (b.codeFaults 5 ++ c.copyFaults new n)).send (new.copy c n)).leave (c.advance n) bs

/-- `sendH264EsFuNale`; `nalu_hdr` is not initialised. -/
def sendH264EsFuNale (d : Demux) : Demux :=
  d.sendFuBlocks env d.info.length true (env.naluHdr d.sent.length) d.list

/-! ## H.265 -/

/-- The two bytes of an aggregation packet's header that `sendH265EsSigleNalu` stores. -/
def aggregationHeader : List UInt8 := [(48 : UInt8) <<< 1, 1]

/-- `sendH265EsSigleNalu`. The header goes before the NAL unit in its own block, and behind the
source block when the NAL unit is copied. -/
def sendH265EsSigleNalu (d : Demux) : Demux :=
  match d.list with
  | [] => d
  | b :: bs =>
    let ulEsLen := d.info.length
    if ulEsLen = b.length then
      let c := (b.behindCode 4).retreat 2
      let c := { c with data := c.data.write c.rd aggregationHeader }
      { (d.log (b.codeFaults 4)).send (c.stampFront (d.head d.videoPayload true)) with list := bs }
    else if ulEsLen < b.length then
      match env.alloc d.allocs with
      | none => d.leave (b.advance ulEsLen) bs
      | some buffer =>
        let new := MsgBlock.ofPool buffer (d.head d.videoPayload true)
        let new := { new with wr := new.wr + 2 }
        -- `wd_ptr` is the write pointer of the source block
        let store (c : MsgBlock) := { c with data := c.data.write c.wr aggregationHeader }
        if d.info.streamId = videoStreamId then
          let c := store (b.behindCode 4)
          let n := if b.startsWith startCode then minus32 ulEsLen 4 else ulEsLen
          let fs := b.codeFaults 4 ++
            Fault.unless (b.startsWith startCode → 4 ≤ ulEsLen) .length ++ c.copyFaults new n
          ((d.log fs).send (new.copy c n)).leave (c.advance n) bs
        else
          let c := store b
          ((d.log (c.copyFaults new ulEsLen)).send (new.copy c ulEsLen)).leave (c.advance ulEsLen) bs
    else d

/-- The type in the first byte of an H.265 NAL unit header. -/
def nalType (value : UInt8) : UInt8 := (value >>> 1) &&& 0x3F

/-- `nal_type` after a block. -/
def nalTypeAt (b : MsgBlock) (nal : UInt8) : UInt8 :=
  if b.startsWith startCode then nalType (b.byte 4) else nal

/-- The three bytes of an H.265 fragment: payload header and FU header. -/
def fuBytes (nal : UInt8) (s e : Bool) : List UInt8 :=
  [(49 : UInt8) <<< 1, 1,
    nal ||| (if s then (1 : UInt8) <<< 7 else 0) ||| (if e then (1 : UInt8) <<< 6 else 0)]

/-- A whole block as an H.265 fragment. For the last one the `E` bit goes to `rd_ptr[2]`, which
is in the RTP header by then. -/
def fuBlock265 (b : MsgBlock) (nal : UInt8) (s e : Bool) (h : RtpPacket.Head) : MsgBlock :=
  let b := b.retreat 3
  let b := { b with data := b.data.write b.rd (fuBytes nal s false) }.stampFront h
  if e then { b with data := b.data.write (b.rd + 2) [b.byte 2 ||| (1 : UInt8) <<< 6] } else b

/-- The loop of `sendH265EsFuNale`. -/
def sendFuBlocks265 (d : Demux) (ulEsLen : Nat) (bStart : Bool) (nal : UInt8) :
    List MsgBlock → Demux
  | [] => { d with list := [] }
  | b :: bs =>
    if ulEsLen = 0 then { d with list := b :: bs }
    else if b.length ≤ ulEsLen then
      let last : Bool := ulEsLen - b.length = 0
      let c := fuBlock265 (b.behindCode 6) (nalTypeAt b nal) bStart last (d.head d.videoPayload last)
      ((d.log (b.codeFaults 6)).send c).sendFuBlocks265 (ulEsLen - b.length) false (nalTypeAt b nal) bs
    else match env.alloc d.allocs with
      | none => d.leave (b.advance ulEsLen) bs
      | some buffer =>
        -- last fu packet
        let c := b.behindCode 6
        let n := if b.startsWith startCode then minus32 ulEsLen 2 else ulEsLen
        let new := MsgBlock.ofPool buffer (d.head d.videoPayload true)
        let new := { new with wr := new.wr + 3 }
        -- `rd_ptr` is the read pointer of the source block
        let c := { c with data := c.data.write c.rd (fuBytes (nalTypeAt b nal) false true) }
        let fs := b.codeFaults 6 ++
          Fault.unless (b.startsWith startCode → 2 ≤ ulEsLen) .length ++ c.copyFaults new n
        ((d.log fs).send (new.copy c n)).leave (c.advance n) bs

/-- `sendH265EsFuNale`. -/
def sendH265EsFuNale (d : Demux) : Demux :=
  d.sendFuBlocks265 env d.info.length true 0 d.list

/-! ## The choice of the sender -/

/-- `sendEsVideoFrame`; `know` is its call of `ProgramKnowFrame`. -/
def sendVideo (know : Demux → Demux) (d : Demux) : Demux :=
  match d.list with
  | [] => d
  | b :: _ =>
    if d.videoPayload = PayloadType.max then d
    else if d.info.payload = PayloadType.h264 then
      if d.info.length ≤ b.length then d.sendH264EsSigleNalu env else d.sendH264EsFuNale env
    else if d.info.payload = PayloadType.h265 then
      if d.info.length ≤ b.length then d.sendH265EsSigleNalu env else d.sendH265EsFuNale env
    else know d

/-- `H264_NAL_UNDEFINED`. -/
def h264NalUndefined : Nat := 0

/-- `H264_NAL_END`. -/
def h264NalEnd : Nat := 20

/-- `HEVC_NAL_END`. -/
def hevcNalEnd : Nat := 41

/-- The state with another `FrameInfo.payload`. -/
def withPayload (d : Demux) (payload : UInt8) : Demux :=
  { d with info := { d.info with payload := payload } }

/-- `ProgramKnowFrame`; `audio` is its call of `sendEsAudioFrame`. With the payload that it sets,
`sendEsVideoFrame` does not call back. -/
def knowFrame (audio : Demux → Demux) (d : Demux) : Demux :=
  match d.list with
  | [] => d
  | b :: _ =>
    let d := d.log (b.readFaults (b.scanned startCode))
    if b.startsWith startCode then
      let d := d.log (b.readFaults 5)
      let header := (b.byte 4).toNat
      if header / 128 = 0 ∧ (h264NalUndefined < header % 32 ∨ header % 32 < h264NalEnd) then
        (d.withPayload PayloadType.h264).sendVideo env id
      else if header / 128 = 0 ∧ header / 2 % 64 < hevcNalEnd then
        (d.withPayload PayloadType.h265).sendVideo env id
      else d
    else audio (d.withPayload PayloadType.pcmu)

/-- `sendEsAudioFrame`. Without an audio payload it calls `ProgramKnowFrame`, which calls back,
without end, when the block does not begin with a start code; the model then stays where it is,
and so does its caller's loop. -/
def sendEsAudioFrame (d : Demux) : Demux :=
  if d.audioPayload = PayloadType.max then d.knowFrame env id else d.sendAudio env

/-- `ProgramKnowFrame`. -/
def programKnowFrame (d : Demux) : Demux := d.knowFrame env (sendEsAudioFrame env)

/-- `sendEsVideoFrame`. -/
def sendEsVideoFrame (d : Demux) : Demux := d.sendVideo env (programKnowFrame env)

end Demux

end AllCamera
