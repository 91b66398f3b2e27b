import AllCamera.Lib.NalReceive
import AllCamera.Lib.Run
import AllCamera.Stream.MpegPsEnc
import AllCamera.Stream.RtpPacket

/-!
# RTP packets of a program stream (`CPsRtpEncap`)

The bytes that the packer of the program stream hands over are cut into RTP packets. All packets are made in
one buffer: the header of the packet before is changed field by field, and the payload is copied behind it.

* `PsRtpEncap`; `sendPacket`, a pass of the loop, and `handlePsStream`.
* `packets`: what the packets of a call are to be. `packetLoop_eq`: the loop hands over these.
* `PacksCall`: the packets of a call carry its bytes; `run_packs`: they do in every run.
-/

namespace AllCamera

open Run

/-- `CPsRtpEncap` after `init`. `handed` is what `handlePsRtpPacket` was called with. -/
structure PsRtpEncap where
  rtpBuffer : Memory
  usRtpSeq : UInt16
  handed : List (List UInt8)

namespace PsRtpEncap

open MpegPsEnc (unLenPerRtpPacket)
open RtpPacket (fixedHeader Head)

/-- `PS_RTP_PAYLOAD_TYPE`. -/
def psRtpPayloadType : UInt8 := 96

/-- What `SetSSRC` is called with. -/
def psRtpSsrc : UInt32 := 999999999

/-- `unCopySize` in front of `memcpy`. -/
def copySize (rest : List UInt8) : Nat :=
  if rest.length ≤ unLenPerRtpPacket then rest.length else unLenPerRtpPacket

/-- A pass of the loop in `handlePsStream`, with the `unLeastSize` bytes at `pDataPos`. -/
def sendPacket (e : PsRtpEncap) (unTimestamp : UInt32) (endFlag : Bool) (rest : List UInt8) : PsRtpEncap :=
  let m := RtpPacket.setPayloadType e.rtpBuffer 0 psRtpPayloadType
  let m := RtpPacket.setSeqNum m 0 e.usRtpSeq
  let m := RtpPacket.setTimeStamp m 0 unTimestamp
  let m := RtpPacket.setSSRC m 0 psRtpSsrc
  let m := RtpPacket.setMarker m 0 false
  let m := if rest.length ≤ unLenPerRtpPacket ∧ endFlag then RtpPacket.setMarker m 0 true else m
  let m := m.write fixedHeader (rest.take (copySize rest))
  { rtpBuffer := m
    usRtpSeq := e.usRtpSeq + 1
    handed := e.handed ++ [m.read 0 (copySize rest + fixedHeader)] }

theorem copySize_pos {rest : List UInt8} (h : rest ≠ []) : 0 < copySize rest := by
  have hpos := List.length_pos_of_ne_nil h
  unfold copySize
  split
  · exact hpos
  · decide

/-- The loop in `handlePsStream`. -/
def packetLoop (e : PsRtpEncap) (unTimestamp : UInt32) (endFlag : Bool) (rest : List UInt8) : PsRtpEncap :=
  if rest = [] then e
  else (e.sendPacket unTimestamp endFlag rest).packetLoop unTimestamp endFlag (rest.drop (copySize rest))
termination_by rest.length
decreasing_by
  have hpos := copySize_pos ‹rest ≠ []›
  have hrest := List.length_pos_of_ne_nil ‹rest ≠ []›
  rw [List.length_drop]
  omega

/-- `handlePsStream`. -/
def handlePsStream (e : PsRtpEncap) (call : PsFragment) : PsRtpEncap :=
  if call.pPSData = [] then e
  else
    { e with rtpBuffer := RtpPacket.generatePacket e.rtpBuffer 0 MsgBlock.blockSize }.packetLoop
      call.unTimestamp call.endFlag call.pPSData

/-! ## The header in the buffer -/

/-- The buffer begins with the header `h`. -/
def Headed (m : Memory) (h : Head) : Prop := m.read 0 fixedHeader = h.bytes

/-- A write inside of the header. -/
theorem Headed.read_write {m : Memory} {h : Head} (hm : Headed m h) {k : Nat} {c : List UInt8}
    (hk : k + c.length ≤ fixedHeader) :
    (m.write k c).read 0 fixedHeader = h.bytes.take k ++ c ++ h.bytes.drop (k + c.length) := by
  have hsame : m = m.write 0 h.bytes := by
    have hback := Memory.write_read m 0 fixedHeader
    rw [hm] at hback
    exact hback.symm
  have hinside := Memory.write_write_inside (m := m) (p := 0) (l := h.bytes) (c := c) (k := k) hk
  rw [Int.zero_add] at hinside
  rw [hsame, hinside]
  have hread := Memory.read_write m 0 (h.bytes.take k ++ c ++ h.bytes.drop (k + c.length))
  have hlen : (h.bytes.take k ++ c ++ h.bytes.drop (k + c.length)).length = fixedHeader := by
    simp only [List.length_append, List.length_take, List.length_drop, RtpPacket.Head.length_bytes]
    omega
  rwa [hlen] at hread

theorem Headed.byte_one {m : Memory} {h : Head} (hm : Headed m h) :
    m (0 + 1) = .ofNat ((if h.marker then 128 else 0) + h.payloadType.toNat % 128) := by
  have hget := Memory.getElem?_read m 0 fixedHeader 1 (by decide)
  rw [hm] at hget
  exact (Option.some.inj hget).symm

theorem Headed.setPayloadType {m : Memory} {h : Head} (hm : Headed m h) (v : UInt8) :
    Headed (RtpPacket.setPayloadType m 0 v) { h with payloadType := v } := by
  unfold RtpPacket.setPayloadType
  rw [hm.byte_one]
  apply (hm.read_write (k := 1) (Nat.le_of_ble_eq_true rfl)).trans
  have hmarker : (UInt8.ofNat ((if h.marker then 128 else 0) + h.payloadType.toNat % 128)).toNat / 128 * 128 =
      if h.marker then 128 else 0 := by
    rw [UInt8.toNat_ofNat']
    split <;> omega
  rw [hmarker]
  rfl

theorem Headed.setMarker {m : Memory} {h : Head} (hm : Headed m h) (v : Bool) :
    Headed (RtpPacket.setMarker m 0 v) { h with marker := v } := by
  unfold RtpPacket.setMarker
  rw [hm.byte_one]
  apply (hm.read_write (k := 1) (Nat.le_of_ble_eq_true rfl)).trans
  have htype : (UInt8.ofNat ((if h.marker then 128 else 0) + h.payloadType.toNat % 128)).toNat % 128 =
      h.payloadType.toNat % 128 := by
    rw [UInt8.toNat_ofNat']
    split <;> omega
  rw [htype]
  rfl

theorem Headed.setSeqNum {m : Memory} {h : Head} (hm : Headed m h) (v : UInt16) :
    Headed (RtpPacket.setSeqNum m 0 v) { h with seqNum := v } :=
  hm.read_write (k := 2) (Nat.le_of_ble_eq_true rfl)

theorem Headed.setTimeStamp {m : Memory} {h : Head} (hm : Headed m h) (v : UInt32) :
    Headed (RtpPacket.setTimeStamp m 0 v) { h with timeStamp := v } :=
  hm.read_write (k := 4) (Nat.le_of_ble_eq_true rfl)

theorem Headed.setSSRC {m : Memory} {h : Head} (hm : Headed m h) (v : UInt32) :
    Headed (RtpPacket.setSSRC m 0 v) { h with ssrc := v } :=
  hm.read_write (k := 8) (Nat.le_of_ble_eq_true rfl)

/-- A payload that is copied behind the header. -/
theorem Headed.write_payload {m : Memory} {h : Head} (hm : Headed m h) (l : List UInt8) :
    Headed (m.write fixedHeader l) h :=
  (Memory.read_write_of_disjoint (.inl (by decide))).trans hm

/-- A packet: the header and the payload. -/
theorem Headed.read_payload {m : Memory} {h : Head} (hm : Headed m h) (l : List UInt8) :
    (m.write fixedHeader l).read 0 (fixedHeader + l.length) = h.bytes ++ l := by
  have hkept : (m.write fixedHeader l).read 0 fixedHeader = h.bytes := hm.write_payload l
  rw [Memory.read_add, hkept, Int.zero_add, Memory.read_write]

/-- The first two bytes of a buffer, and what a write to one of them leaves. -/
theorem first_two {m : Memory} {v w : UInt8} {l : List UInt8}
    (h : m.read 0 fixedHeader = v :: w :: l) :
    m 0 = v ∧ m (0 + 1) = w ∧ (∀ c, (m.write 0 [c]).read 0 fixedHeader = c :: w :: l) ∧
      ∀ c, (m.write (0 + 1) [c]).read 0 fixedHeader = v :: c :: l := by
  have h0 := Memory.getElem?_read m 0 fixedHeader 0 (by decide)
  have h1 := Memory.getElem?_read m 0 fixedHeader 1 (by decide)
  rw [h] at h0 h1
  refine ⟨(Option.some.inj h0).symm, (Option.some.inj h1).symm, fun c => ?_, fun c => ?_⟩
  · exact Memory.read_write_one (a := []) h c
  · exact Memory.read_write_one (a := [v]) h c

/-- After `GeneratePacket` over the whole buffer. -/
theorem headed_generatePacket (m : Memory) :
    Headed (RtpPacket.generatePacket m 0 MsgBlock.blockSize) ⟨96, false, 0, 0, 0⟩ := by
  have hzero : (m.write 0 (List.replicate MsgBlock.blockSize 0)).read 0 fixedHeader =
      0 :: 0 :: List.replicate 10 0 := by
    have hall := Memory.read_write m 0 (List.replicate MsgBlock.blockSize 0)
    rw [List.length_replicate] at hall
    rw [← Memory.take_read _ _ MsgBlock.blockSize fixedHeader (by decide), hall, List.take_replicate]
    rfl
  unfold RtpPacket.generatePacket
  dsimp only
  generalize m.write 0 (List.replicate MsgBlock.blockSize 0) = m at hzero
  have hversion : (RtpPacket.setVersion m 0 RtpPacket.packetVersion).read 0 fixedHeader =
      128 :: 0 :: List.replicate 10 0 := by
    unfold RtpPacket.setVersion
    rw [(first_two hzero).1]
    exact (first_two hzero).2.2.1 _
  generalize RtpPacket.setVersion m 0 RtpPacket.packetVersion = m at hversion
  have hmarker : (RtpPacket.setMarker m 0 false).read 0 fixedHeader = 128 :: 0 :: List.replicate 10 0 := by
    unfold RtpPacket.setMarker
    rw [(first_two hversion).2.1]
    exact (first_two hversion).2.2.2 _
  generalize RtpPacket.setMarker m 0 false = m at hmarker
  have htype : (RtpPacket.setPayloadType m 0 96).read 0 fixedHeader = 128 :: 96 :: List.replicate 10 0 := by
    unfold RtpPacket.setPayloadType
    rw [(first_two hmarker).2.1]
    exact (first_two hmarker).2.2.2 _
  generalize RtpPacket.setPayloadType m 0 96 = m at htype
  show (RtpPacket.setExtension m 0 0).read 0 fixedHeader = 128 :: 96 :: List.replicate 10 0
  unfold RtpPacket.setExtension
  rw [(first_two htype).1]
  exact (first_two htype).2.2.1 _

/-! ## The packets of a call -/

/-- A packet as it is to be. -/
structure Packet where
  head : Head
  payload : List UInt8

/-- The bytes of a packet. -/
def Packet.bytes (p : Packet) : List UInt8 := p.head.bytes ++ p.payload

/-- The packets for the bytes `rest`, from the sequence number `seq` on. -/
def packets (unTimestamp : UInt32) (endFlag : Bool) (seq : UInt16) (rest : List UInt8) : List Packet :=
  if rest = [] then []
  else
    ⟨⟨psRtpPayloadType, rest.length ≤ unLenPerRtpPacket && endFlag, seq, unTimestamp, psRtpSsrc⟩,
      rest.take (copySize rest)⟩ ::
      packets unTimestamp endFlag (seq + 1) (rest.drop (copySize rest))
termination_by rest.length
decreasing_by
  have hpos := copySize_pos ‹rest ≠ []›
  have hrest := List.length_pos_of_ne_nil ‹rest ≠ []›
  rw [List.length_drop]
  omega

/-- A pass of the loop hands over the first packet, and leaves a header in the buffer. -/
theorem sendPacket_spec {e : PsRtpEncap} {h : Head} (he : Headed e.rtpBuffer h) (unTimestamp : UInt32)
    (endFlag : Bool) (rest : List UInt8) :
    let head : Head :=
      ⟨psRtpPayloadType, rest.length ≤ unLenPerRtpPacket && endFlag, e.usRtpSeq, unTimestamp, psRtpSsrc⟩
    (e.sendPacket unTimestamp endFlag rest).handed =
        e.handed ++ [(Packet.mk head (rest.take (copySize rest))).bytes] ∧
      (e.sendPacket unTimestamp endFlag rest).usRtpSeq = e.usRtpSeq + 1 ∧
      Headed (e.sendPacket unTimestamp endFlag rest).rtpBuffer head := by
  intro head
  have hstart := ((((he.setPayloadType psRtpPayloadType).setSeqNum e.usRtpSeq).setTimeStamp
    unTimestamp).setSSRC psRtpSsrc).setMarker false
  have hlen : (rest.take (copySize rest)).length = copySize rest := by
    rw [List.length_take, copySize]
    split <;> omega
  -- the header in front of `memcpy`
  obtain ⟨m, hm, hhead⟩ : ∃ m, Headed m head ∧ e.sendPacket unTimestamp endFlag rest =
      { rtpBuffer := m.write fixedHeader (rest.take (copySize rest))
        usRtpSeq := e.usRtpSeq + 1
        handed := e.handed ++ [(m.write fixedHeader (rest.take (copySize rest))).read 0
          (copySize rest + fixedHeader)] } := by
    refine ⟨_, ?_, rfl⟩
    split
    · rename_i hlast
      have hmarked := hstart.setMarker true
      simpa [head, hlast.1, hlast.2] using hmarked
    · rename_i hlast
      have hmarker : (decide (rest.length ≤ unLenPerRtpPacket) && endFlag) = false := by
        simpa using hlast
      simpa [head, hmarker] using hstart
  have hread := hm.read_payload (rest.take (copySize rest))
  rw [hlen, Nat.add_comm] at hread
  rw [hhead]
  exact ⟨congrArg (fun bytes => e.handed ++ [bytes]) hread, rfl, hm.write_payload _⟩

/-- The loop hands over the packets of its bytes. -/
theorem packetLoop_spec (e : PsRtpEncap) {h : Head} (he : Headed e.rtpBuffer h) (unTimestamp : UInt32)
    (endFlag : Bool) (rest : List UInt8) :
    (e.packetLoop unTimestamp endFlag rest).handed =
        e.handed ++ (packets unTimestamp endFlag e.usRtpSeq rest).map Packet.bytes ∧
      (e.packetLoop unTimestamp endFlag rest).usRtpSeq =
        e.usRtpSeq + .ofNat (packets unTimestamp endFlag e.usRtpSeq rest).length := by
  fun_induction packetLoop e unTimestamp endFlag rest generalizing h with
  | case1 e =>
    rw [packets, if_pos rfl]
    simp
  | case2 e rest hne ih =>
    obtain ⟨hhanded, hseq, hheaded⟩ := sendPacket_spec he unTimestamp endFlag rest
    obtain ⟨ihhanded, ihseq⟩ := ih hheaded
    rw [packets, if_neg hne]
    constructor
    · rw [ihhanded, hhanded, hseq, List.map_cons, List.append_assoc, List.singleton_append]
    · rw [ihseq, hseq, List.length_cons, Nat.add_comm, UInt16.ofNat_add, UInt16.add_assoc]
      rfl

/-- `handlePsStream` hands over the packets of the call. -/
theorem handlePsStream_spec (e : PsRtpEncap) (call : PsFragment) :
    (e.handlePsStream call).handed = e.handed ++
        (packets call.unTimestamp call.endFlag e.usRtpSeq call.pPSData).map Packet.bytes ∧
      (e.handlePsStream call).usRtpSeq = e.usRtpSeq +
        .ofNat (packets call.unTimestamp call.endFlag e.usRtpSeq call.pPSData).length := by
  unfold handlePsStream
  split
  · rename_i hnil
    rw [hnil, packets, if_pos rfl]
    simp
  · exact packetLoop_spec { e with rtpBuffer := _ } (headed_generatePacket _) _ _ _

/-! ## What the packets carry -/

/-- The sequence number, the marker and the payload that are read from a packet. -/
def seqOf (packet : List UInt8) : UInt16 := RtpPacket.getSeqNum (Memory.write (fun _ => 0) 0 packet) 0

def markerOf (packet : List UInt8) : Bool := RtpPacket.getMarker (Memory.write (fun _ => 0) 0 packet) 0

def payloadOf (packet : List UInt8) : List UInt8 := packet.drop fixedHeader

/-- The packets carry the bytes of the call: no payload is empty or too long, and the marker is set on the last
one if the call ends a frame. -/
structure PacksCall (call : PsFragment) (packets : List (List UInt8)) : Prop where
  payloads : (packets.map payloadOf).flatten = call.pPSData
  size : ∀ packet ∈ packets, payloadOf packet ≠ [] ∧ (payloadOf packet).length ≤ unLenPerRtpPacket
  marker : packets.map markerOf =
    (List.range packets.length).map fun i => call.endFlag && decide (i + 1 = packets.length)

private theorem write_bytes (p : Packet) {k : Nat} (hk : k < fixedHeader) :
    Memory.write (fun _ => 0) 0 p.bytes k = p.head.bytes.getD k 0 := by
  have hlt : k < p.bytes.length := by
    simp only [Packet.bytes, List.length_append, RtpPacket.Head.length_bytes]
    omega
  have hat := Memory.write_at (m := fun _ => 0) (p := 0) hlt
  rw [Int.zero_add] at hat
  rw [hat, Packet.bytes, List.getD_eq_getElem?_getD, List.getD_eq_getElem?_getD,
    List.getElem?_append_left hk]

theorem seqOf_bytes (p : Packet) : seqOf p.bytes = p.head.seqNum := by
  have hhi := write_bytes p (k := 2) (by decide)
  have hlo := write_bytes p (k := 3) (by decide)
  unfold seqOf RtpPacket.getSeqNum
  rw [show (0 : Int) + 2 = (2 : Nat) from rfl, show (0 : Int) + 3 = (3 : Nat) from rfl, hhi, hlo]
  exact be16_be16Bytes p.head.seqNum

theorem markerOf_bytes (p : Packet) : markerOf p.bytes = p.head.marker := by
  have hbyte := write_bytes p (k := 1) (by decide)
  unfold markerOf RtpPacket.getMarker
  rw [show (0 : Int) + 1 = (1 : Nat) from rfl, hbyte]
  show ((UInt8.ofNat ((if p.head.marker then 128 else 0) + p.head.payloadType.toNat % 128)).toNat / 128 == 1) = _
  rw [UInt8.toNat_ofNat']
  cases p.head.marker with
  | false => simp only [Bool.false_eq_true, if_false, beq_eq_false_iff_ne]; omega
  | true => simp only [if_true, beq_iff_eq]; omega

theorem payloadOf_bytes (p : Packet) : payloadOf p.bytes = p.payload :=
  List.drop_left' (RtpPacket.Head.length_bytes p.head)

theorem rtpPayload_bytes (p : Packet) : rtpPayload p.bytes = some p.payload :=
  rtpPayload_plain (RtpPacket.Head.length_bytes p.head) rfl p.payload

/-! The same for the packets of a list. -/

theorem map_seqOf_bytes (ps : List Packet) : (ps.map Packet.bytes).map seqOf = ps.map fun p => p.head.seqNum := by
  rw [List.map_map]
  exact List.map_congr_left fun p _ => seqOf_bytes p

theorem map_markerOf_bytes (ps : List Packet) :
    (ps.map Packet.bytes).map markerOf = ps.map fun p => p.head.marker := by
  rw [List.map_map]
  exact List.map_congr_left fun p _ => markerOf_bytes p

theorem map_rtpPayload_bytes (ps : List Packet) :
    (ps.map Packet.bytes).map rtpPayload = (ps.map Packet.payload).map some := by
  rw [List.map_map, List.map_map]
  exact List.map_congr_left fun p _ => rtpPayload_bytes p

/-- The first of the sequence numbers of a list. -/
theorem seqs_succ (seq : UInt16) (n : Nat) : (List.range (n + 1)).map (fun i => seq + .ofNat i) =
    seq :: (List.range n).map fun i => seq + 1 + .ofNat i := by
  rw [List.range_succ_eq_map, List.map_cons, List.map_map]
  congr 1
  · exact UInt16.add_zero seq
  · apply congrFun
    congr 1
    funext i
    show seq + .ofNat (i + 1) = seq + 1 + .ofNat i
    rw [UInt16.add_assoc, Nat.add_comm i, UInt16.ofNat_add]
    rfl

section Packets

variable (unTimestamp : UInt32) (endFlag : Bool) (seq : UInt16) (rest : List UInt8)

theorem flatten_packets : ((packets unTimestamp endFlag seq rest).map Packet.payload).flatten = rest := by
  fun_induction packets unTimestamp endFlag seq rest with
  | case1 => rfl
  | case2 seq rest _ ih => rw [List.map_cons, List.flatten_cons, ih, List.take_append_drop]

theorem packets_eq_nil_iff : packets unTimestamp endFlag seq rest = [] ↔ rest = [] := by
  constructor
  · intro h
    have hflat := flatten_packets unTimestamp endFlag seq rest
    rw [h] at hflat
    exact hflat.symm
  · rintro rfl
    rw [packets, if_pos rfl]

theorem size_packets : ∀ p ∈ packets unTimestamp endFlag seq rest,
    p.payload ≠ [] ∧ p.payload.length ≤ unLenPerRtpPacket := by
  fun_induction packets unTimestamp endFlag seq rest with
  | case1 => simp
  | case2 seq rest hne ih =>
    intro p hp
    rcases List.mem_cons.mp hp with rfl | hp
    · have hpos := copySize_pos hne
      have hrest := List.length_pos_of_ne_nil hne
      constructor
      · apply List.ne_nil_of_length_pos
        rw [List.length_take]
        omega
      · simp only [List.length_take, copySize]
        split <;> omega
    · exact ih p hp

theorem seqs_packets : (packets unTimestamp endFlag seq rest).map (fun p => p.head.seqNum) =
    (List.range (packets unTimestamp endFlag seq rest).length).map fun i => seq + .ofNat i := by
  fun_induction packets unTimestamp endFlag seq rest with
  | case1 => rfl
  | case2 seq rest _ ih =>
    rw [List.map_cons, ih, List.length_cons, seqs_succ]

/-- The last packet is the one of a rest that fits. -/
theorem markers_packets : (packets unTimestamp endFlag seq rest).map (fun p => p.head.marker) =
    (List.range (packets unTimestamp endFlag seq rest).length).map fun i =>
      endFlag && decide (i + 1 = (packets unTimestamp endFlag seq rest).length) := by
  fun_induction packets unTimestamp endFlag seq rest with
  | case1 => rfl
  | case2 seq rest hne ih =>
    have hlast : rest.length ≤ unLenPerRtpPacket ↔
        (packets unTimestamp endFlag (seq + 1) (rest.drop (copySize rest))).length = 0 := by
      rw [List.length_eq_zero_iff, packets_eq_nil_iff, List.drop_eq_nil_iff, copySize]
      split <;> omega
    rw [List.map_cons, ih, List.length_cons, List.range_succ_eq_map, List.map_cons, List.map_map]
    congr 1
    · show (decide (rest.length ≤ unLenPerRtpPacket) && endFlag) = _
      rw [Bool.and_comm]
      congr 1
      apply decide_eq_decide.mpr
      omega
    · apply congrFun
      congr 1
      funext i
      simp only [Function.comp_apply, Nat.succ_eq_add_one, Nat.add_right_cancel_iff]

end Packets

/-! ## Runs -/

/-- What is handed over in a call. -/
def handedBy (e : PsRtpEncap) (call : PsFragment) : List (List UInt8) :=
  (e.handlePsStream call).handed.drop e.handed.length

/-- What is handed over in the calls of a run. -/
def handedIn : PsRtpEncap → List PsFragment → List (List (List UInt8))
  | _, [] => []
  | e, call :: calls => e.handedBy call :: handedIn (e.handlePsStream call) calls

theorem handedBy_eq (e : PsRtpEncap) (call : PsFragment) : e.handedBy call =
    (packets call.unTimestamp call.endFlag e.usRtpSeq call.pPSData).map Packet.bytes := by
  rw [handedBy, (handlePsStream_spec e call).1, List.drop_left]

theorem packsCall_handedBy (e : PsRtpEncap) (call : PsFragment) : PacksCall call (e.handedBy call) := by
  rw [handedBy_eq]
  refine ⟨?_, ?_, ?_⟩
  · apply Eq.trans ?_ (flatten_packets call.unTimestamp call.endFlag e.usRtpSeq call.pPSData)
    rw [List.map_map]
    congr 2
  · intro packet hpacket
    obtain ⟨p, hp, rfl⟩ := List.mem_map.mp hpacket
    rw [payloadOf_bytes]
    exact size_packets _ _ _ _ p hp
  · rw [map_markerOf_bytes, List.length_map, ← markers_packets]

theorem seqs_handedBy (e : PsRtpEncap) (call : PsFragment) : (e.handedBy call).map seqOf =
    (List.range (e.handedBy call).length).map fun i => e.usRtpSeq + .ofNat i := by
  rw [handedBy_eq, map_seqOf_bytes, List.length_map, ← seqs_packets]

/-- **Every run** hands over, for each call, packets that carry its bytes, and the sequence numbers of all
packets go up by one. -/
theorem run_packs (e : PsRtpEncap) (calls : List PsFragment) :
    (run handlePsStream e calls).handed = e.handed ++ (e.handedIn calls).flatten ∧
      List.Forall₂ PacksCall calls (e.handedIn calls) ∧
      (e.handedIn calls).flatten.map seqOf =
        (List.range (e.handedIn calls).flatten.length).map fun i => e.usRtpSeq + .ofNat i := by
  induction calls generalizing e with
  | nil => simp [run, handedIn]
  | cons call calls ih =>
    obtain ⟨ihhanded, ihpacks, ihseqs⟩ := ih (e.handlePsStream call)
    have hhanded : (e.handlePsStream call).handed = e.handed ++ e.handedBy call := by
      rw [handedBy_eq]
      exact (handlePsStream_spec e call).1
    have hseq : (e.handlePsStream call).usRtpSeq = e.usRtpSeq + .ofNat (e.handedBy call).length := by
      rw [handedBy_eq, List.length_map]
      exact (handlePsStream_spec e call).2
    refine ⟨?_, .cons (packsCall_handedBy e call) ihpacks, ?_⟩
    · show (run handlePsStream (e.handlePsStream call) calls).handed = _
      rw [ihhanded, hhanded, handedIn, List.flatten_cons, List.append_assoc]
    · rw [handedIn, List.flatten_cons, List.map_append, ihseqs, seqs_handedBy, List.length_append,
        List.range_add, List.map_append, List.map_map]
      congr 2
      funext i
      rw [hseq, Function.comp_apply, UInt16.ofNat_add, UInt16.add_assoc]

end PsRtpEncap

end AllCamera
