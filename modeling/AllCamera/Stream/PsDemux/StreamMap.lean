import AllCamera.Stream.PsDemux.Invariant

/-!
# Program stream maps and the codec

A program stream map declares the stream types of the elementary streams. `ProgramStreamMap` reads
it only while the video payload is `PT_TYPE_MAX`, which the constructor does not set, so no map is
ever read: every video PES packet is sent as H.264.

* `Demux.Declares d t`: the parser is at a map that has an entry of the video type `t`.
* `Run`: a run from construction, state by state; `Run.FollowsMaps`: every video PES packet is
  packetised as the map in effect declares.
* `Run.followsMaps`: the runs whose maps declare H.264 do.
-/

namespace AllCamera

/-! ## Maps -/

/-- The video stream types that `ProgramStreamMap` knows. -/
inductive VideoType where
  | mpeg4
  | h264
  | h265
  deriving DecidableEq, Repr

namespace VideoType

/-- `VIDEO_STREAM_TYPE_MPEG4`, `VIDEO_STREAM_TYPE_H264`, `VIDEO_STREAM_TYPE_H265`. -/
def streamType : VideoType → UInt8
  | mpeg4 => 0x10
  | h264 => 0x1b
  | h265 => 0x24

/-- The payload type of its packets. -/
def payloadType : VideoType → UInt8
  | mpeg4 => PayloadType.mpeg4
  | h264 => PayloadType.h264
  | h265 => PayloadType.h265

end VideoType

/-- The stream types of the entries of an elementary stream map; `fuel` bounds their number. -/
def entryTypes : Nat → List UInt8 → List UInt8
  | fuel + 1, t :: _ :: hi :: lo :: rest => t :: entryTypes fuel (rest.drop (be16 hi lo).toNat)
  | _, _ => []

/-- The 16-bit field at `i`. -/
def fieldAt (bytes : List UInt8) (i : Nat) : Nat := (be16 (bytes.getD i 0) (bytes.getD (i + 1) 0)).toNat

/-- The stream types of a program stream map: behind the program stream info comes the elementary
stream map with its length. -/
def mapTypes (bytes : List UInt8) : List UInt8 :=
  let start := 10 + fieldAt bytes 8
  let entries := (bytes.drop (start + 2)).take (fieldAt bytes start)
  entryTypes entries.length entries

/-! ## Packets and their payload type -/

/-- The payload type in the RTP header of a packet. -/
def MsgBlock.payloadType (b : MsgBlock) : UInt8 := RtpPacket.getPayloadType b.data b.rd

namespace RtpPacket

theorem getPayloadType_write (m : Memory) (p : Int) {h : Head} (hp : h.payloadType.toNat < 128) :
    getPayloadType (m.write p h.bytes) p = h.payloadType := by
  have h1 : m.write p h.bytes (p + 1) =
      .ofNat ((if h.marker then 128 else 0) + h.payloadType.toNat % 128) :=
    Memory.write_at (m := m) (p := p) (k := 1) (l := h.bytes) (by simp [fixedHeader])
  apply UInt8.toNat_inj.mp
  rw [getPayloadType, h1, UInt8.toNat_ofNat', UInt8.toNat_ofNat']
  split <;> omega

end RtpPacket

namespace MsgBlock

variable {b : MsgBlock} {h : RtpPacket.Head}

theorem payloadType_stampFront (hp : h.payloadType.toNat < 128) :
    (b.stampFront h).payloadType = h.payloadType := by
  simp only [payloadType, stampFront, RtpPacket.stamp_eq]
  exact RtpPacket.getPayloadType_write _ _ hp

theorem payloadType_write {p : Int} (hp : b.rd + 2 ≤ p) (bs : List UInt8) (wr : Int) :
    { b with data := b.data.write p bs, wr := wr }.payloadType = b.payloadType := by
  simp only [payloadType, RtpPacket.getPayloadType]
  rw [Memory.write_of_lt (by omega)]

theorem ofPool_wr (buffer : Memory) : (ofPool buffer h).rd + 2 ≤ (ofPool buffer h).wr := by
  simp only [ofPool, RtpPacket.fixedHeader]
  decide

theorem payloadType_ofPool (buffer : Memory) (hp : h.payloadType.toNat < 128) :
    (ofPool buffer h).payloadType = h.payloadType := by
  simp only [payloadType, ofPool, RtpPacket.stamp_eq]
  exact RtpPacket.getPayloadType_write _ _ hp

theorem payloadType_append (hb : b.rd + 2 ≤ b.wr) (bs : List UInt8) :
    (b.append bs).payloadType = b.payloadType := payloadType_write hb _ _

theorem payloadType_copy (hb : b.rd + 2 ≤ b.wr) (src : MsgBlock) (n : Nat) :
    (b.copy src n).payloadType = b.payloadType := by
  unfold copy
  split
  · rfl
  · exact payloadType_write hb _ _

end MsgBlock

namespace Demux

variable (env : Env) {d : Demux}

/-- What a sender sends: packets with the video payload type, behind those sent before. -/
def SendsVideo (d d' : Demux) : Prop :=
  ∃ new, d'.sent = d.sent ++ new ∧ ∀ b ∈ new, b.payloadType = d.videoPayload

theorem SendsVideo.of_eq {d' : Demux} (h : d'.sent = d.sent) : SendsVideo d d' :=
  ⟨[], by simpa using h, by simp⟩

theorem SendsVideo.send {e d' : Demux} {b : MsgBlock} (hs : e.sent = d.sent ++ [b])
    (hb : b.payloadType = d.videoPayload) (hv : e.videoPayload = d.videoPayload)
    (h : SendsVideo e d') : SendsVideo d d' := by
  obtain ⟨new, hnew, hall⟩ := h
  refine ⟨b :: new, by rw [hnew, hs, List.append_assoc, List.singleton_append], ?_⟩
  intro c hc
  rcases List.mem_cons.mp hc with rfl | hc
  · exact hb
  · exact (hall c hc).trans hv

theorem sendH264EsSigleNalu_sendsVideo (hv : d.videoPayload.toNat < 128) :
    SendsVideo d (d.sendH264EsSigleNalu env) := by
  have hpool : ∀ (buffer : Memory) (src : MsgBlock) (n : Nat),
      ((MsgBlock.ofPool buffer (d.head d.videoPayload true)).copy src n).payloadType = d.videoPayload :=
    fun buffer src n => (MsgBlock.payloadType_copy (MsgBlock.ofPool_wr _) _ _).trans
      (MsgBlock.payloadType_ofPool _ hv)
  unfold sendH264EsSigleNalu
  split
  · exact .of_eq rfl
  rename_i b bs _
  simp only
  split
  · exact .send (e := d.send _) rfl
      (MsgBlock.payloadType_stampFront (h := d.head d.videoPayload true) hv) rfl (.of_eq rfl)
  split
  · split
    · exact .of_eq rfl
    · split
      · exact .send (e := d.send _) rfl (hpool _ _ _) rfl (.of_eq rfl)
      · exact .send (e := d.send _) rfl (hpool _ _ _) rfl (.of_eq rfl)
  · exact .of_eq rfl

theorem sendFuBlocks_sendsVideo (hv : d.videoPayload.toNat < 128) (n : Nat) (s : Bool) (nalu : UInt8)
    (l : List MsgBlock) : SendsVideo d (d.sendFuBlocks env n s nalu l) := by
  induction l generalizing d n s nalu with
  | nil => exact .of_eq rfl
  | cons b bs ih =>
    simp only [sendFuBlocks]
    split
    · exact .of_eq rfl
    split
    · refine .send (e := (d.log (b.codeFaults 5)).send _) rfl ?_ rfl (ih ?_ _ _ _)
      · exact MsgBlock.payloadType_stampFront (h := d.head d.videoPayload _) hv
      · exact hv
    · split
      · exact .of_eq rfl
      · refine .send (e := d.send _) rfl ?_ rfl (.of_eq rfl)
        have hpool := MsgBlock.ofPool_wr (h := d.head d.videoPayload true)
        rw [MsgBlock.payloadType_copy, MsgBlock.payloadType_append (hpool _),
          MsgBlock.payloadType_ofPool _ hv]
        · rfl
        · simp only [MsgBlock.append, MsgBlock.ofPool, RtpPacket.fixedHeader, List.length_cons]
          omega

theorem sendVideo_sendsVideo {k : Demux → Demux} (hp : d.info.payload = PayloadType.h264)
    (hv : d.videoPayload.toNat < 128) : SendsVideo d (d.sendVideo env k) := by
  unfold sendVideo
  split
  · exact .of_eq rfl
  split_ifs
  · exact .of_eq rfl
  · exact sendH264EsSigleNalu_sendsVideo env hv
  · exact sendFuBlocks_sendsVideo env hv _ _ _ _

/-! ## The map in effect -/

/-- The bytes that are left of the frame. -/
def bytes (d : Demux) : List UInt8 := d.list.flatMap MsgBlock.payload

/-- The parser is at a program stream map. In `PARSING_FOUND_DATA` nothing is parsed. -/
def AtMap (d : Demux) : Prop := d.status ≠ .foundData ∧ packStart 0xBC <+: d.bytes

/-- The parser is at a program stream map with an entry of type `t`. -/
def Declares (d : Demux) (t : VideoType) : Prop := d.AtMap ∧ t.streamType ∈ mapTypes d.bytes

/-- The parser is behind the headers of the frame and at a video PES packet. -/
def AtVideoPes (d : Demux) : Prop :=
  (d.status = .pesPacket ∨ d.status = .foundData) ∧ packStart videoStreamId <+: d.bytes

instance (d : Demux) : Decidable d.AtMap := inferInstanceAs (Decidable (_ ∧ _))

instance (d : Demux) (t : VideoType) : Decidable (d.Declares t) := inferInstanceAs (Decidable (_ ∧ _))

instance (d : Demux) : Decidable d.AtVideoPes := inferInstanceAs (Decidable (_ ∧ _))

/-- `sendEsVideoFrame` as it would go for video of type `t`. -/
def packetise (t : VideoType) (d : Demux) : Demux :=
  if d.list = [] then d else (d.withPayload t.payloadType).sendEsVideoFrame env

/-- The turn packetises the PES packet as video of type `t`: it leaves the PES header behind, calls
the packetiser of `t`, and every packet that it sends has the payload type of `t`. -/
def PacketisedAs (t : VideoType) (d : Demux) : Prop :=
  ∃ b bs, d.list = b :: bs ∧ d.dealStep env = (d.atEs b).packetise env t ∧
    ∃ new, (d.dealStep env).sent = d.sent ++ new ∧ ∀ p ∈ new, p.payloadType = t.payloadType

/-- The nine bytes of the PES header are in the front block, and its codec is the one that the
constructor set. -/
structure Packetises (t : VideoType) (d : Demux) : Prop where
  h264 : t = .h264
  status : d.status = .pesPacket
  whole : ∃ b bs, d.list = b :: bs ∧ 9 ≤ b.length32 ∧ b.startsWith (packStart videoStreamId)

theorem startsWith_append {b : MsgBlock} {p q : List UInt8} (h : b.startsWith (p ++ q) = true) :
    b.startsWith p = true := by
  have h := eq_of_beq h
  rw [List.length_append, Memory.read_add] at h
  exact beq_iff_eq.mpr (List.append_inj_left h (by simp))

/-- A video PES packet of a stream that is H.264 is packetised as such. -/
theorem Packetises.packetisedAs {t : VideoType} (h : Packetises t d)
    (hv : d.videoPayload = PayloadType.h264) : PacketisedAs env t d := by
  obtain ⟨rfl, hs, b, bs, hl, h9, hc⟩ := h
  have hid : b.byte 3 = videoStreamId := by
    have h3 := Memory.getElem?_read b.data b.rd 4 3 (by decide)
    rw [show b.data.read b.rd 4 = packStart videoStreamId from eq_of_beq hc] at h3
    exact (Option.some.inj h3).symm
  have hstep : d.dealStep env = (d.atEs b).packetise env .h264 := by
    rw [dealStep_pesPacket env hl hs,
      programEStramHead_pes env hl (startsWith_append (q := [videoStreamId]) hc) h9, packetise]
    split
    · rfl
    have hinfo := d.atEs_info b
    rw [sendEs, hinfo]
    simp only [hid, (d.atEs_sameCodec b).videoPayload, hv]
    exact if_neg (by decide)
  refine ⟨b, bs, hl, hstep, ?_⟩
  have hsent := (d.atEs_sent b).1
  rw [hstep, packetise]
  split
  · exact ⟨[], by rw [hsent, List.append_nil], by simp⟩
  · have hvideo := (d.atEs_sameCodec b).videoPayload.trans hv
    obtain ⟨new, hnew, hall⟩ := sendVideo_sendsVideo env (k := programKnowFrame env)
      (d := (d.atEs b).withPayload PayloadType.h264) rfl (by
        change (d.atEs b).videoPayload.toNat < 128
        rw [hvideo]
        decide)
    refine ⟨new, hnew.trans (by rw [← hsent]; rfl), fun p hp => (hall p hp).trans hvideo⟩

/-! ## Runs -/

/-- One step of a run: the next call, or the next turn of the loop. -/
inductive Next : Demux → Demux → Prop
  | frame {d : Demux} (f : RtpFrame) : d.Done → Next d (d.beginFrame f.blocks)
  | turn {d : Demux} : ¬ d.Done → Next d (d.dealStep env)

/-- A run from construction: its states up to `last`. -/
structure Run where
  last : Nat
  state : Nat → Demux
  start : state 0 = init
  next : ∀ k < last, Next env (state k) (state (k + 1))

namespace Run

variable {env} (r : Run env)

/-- At state `k`, the map that the run came to last declares the video type `t`. -/
def InEffect (k : Nat) (t : VideoType) : Prop :=
  ∃ i < k, (r.state i).Declares t ∧ ∀ j ≤ k, i < j → ¬ (r.state j).AtMap

/-- Every video PES packet is packetised as the map in effect declares. -/
def FollowsMaps : Prop :=
  ∀ k ≤ r.last, ∀ t, r.InEffect k t → (r.state k).AtVideoPes → (r.state k).PacketisedAs env t

theorem reach {k : Nat} (hk : k ≤ r.last) : Reach env (r.state k) := by
  induction k with
  | zero => exact r.start ▸ .init
  | succ k ih =>
    have hr := ih (by omega)
    have hnext := r.next k (by omega)
    generalize r.state (k + 1) = e at hnext ⊢
    cases hnext with
    | frame f hd => exact hr.frame f hd
    | turn hd => exact hr.turn hd

/-- **Program stream maps.** In every run in which the map in effect at a video PES packet declares
H.264 only, and the header of the packet is whole, each is packetised as the map declares. -/
theorem followsMaps (h : ∀ k ≤ r.last, ∀ t, r.InEffect k t → (r.state k).AtVideoPes →
    (r.state k).Packetises t) : r.FollowsMaps :=
  fun k hk t ht hp => (h k hk t ht hp).packetisedAs env ((r.reach hk).codec env).1

end Run

/-- The run of one call from construction, up to turn `n` of its loop. -/
def Run.ofFrame (f : RtpFrame) (n : Nat)
    (h : ∀ j < n, ¬ Done ((dealStep env)^[j] (init.beginFrame f.blocks))) : Run env where
  last := n + 1
  state := fun k => match k with
    | 0 => init
    | j + 1 => (dealStep env)^[j] (init.beginFrame f.blocks)
  start := rfl
  next := by
    intro k hk
    match k with
    | 0 => exact .frame f rfl
    | j + 1 =>
      simp only [Function.iterate_succ_apply']
      exact .turn (h j (by omega))

/-- One packet with a program stream map that declares the video stream type `t`, and a video PES
packet with the NAL unit `65 88`. -/
def mapFrame (t : UInt8) : RtpFrame := .single ⟨96, true, 0, 0, 0⟩
  ([0x00, 0x00, 0x01, 0xBC, 0x00, 0x0E, 0xE0, 0xFF, 0x00, 0x00, 0x00, 0x04, t, 0xE0, 0x00, 0x00,
      0x00, 0x00, 0x00, 0x00] ++
    [0x00, 0x00, 0x01, 0xE0, 0x00, 0x09, 0x80, 0x00, 0x00, 0x00, 0x00, 0x00, 0x01, 0x65, 0x88])
  (by simp)

/-- A run over the frame with H.264, up to the PES packet: it is sent in one packet of that type. -/
theorem followsMaps_h264 :
    let r := Run.ofFrame Env.zero (mapFrame 0x1b) 4 (by decide)
    r.FollowsMaps ∧ r.InEffect 5 .h264 ∧ (r.state 5).AtVideoPes ∧
      ((r.state 5).dealStep Env.zero).sent.map MsgBlock.payloadType = [PayloadType.h264] := by
  intro r
  have hpes : ∀ k ≤ 5, (r.state k).AtVideoPes → k = 5 := by decide
  have hdecl : ∀ i < 5, ∀ t, (r.state i).Declares t → t = .h264 := by
    intro i hi t
    revert i
    cases t <;> decide
  refine ⟨r.followsMaps ?_, ⟨3, by decide⟩, by decide, by decide⟩
  intro k hk t ht hp
  obtain rfl := hpes k hk hp
  obtain ⟨i, hi, hd, -⟩ := ht
  exact ⟨hdecl i hi t hd, by decide, _, _, rfl, by decide, by decide⟩

/-- With H.265 in the map the same PES packet is sent as H.264. -/
theorem not_followsMaps_h265 : ¬ (Run.ofFrame Env.zero (mapFrame 0x24) 4 (by decide)).FollowsMaps := by
  intro h
  obtain ⟨b, bs, -, -, new, hnew, hall⟩ := h 5 (by decide) .h265 ⟨3, by decide⟩ (by decide)
  have hold : ((Run.ofFrame Env.zero (mapFrame 0x24) 4 (by decide)).state 5).sent = [] := rfl
  rw [hold, List.nil_append] at hnew
  have hone : new.map MsgBlock.payloadType = [PayloadType.h264] := hnew ▸ by decide
  obtain ⟨p, hp, hpt⟩ := List.mem_map.mp (hone ▸ List.mem_singleton.mpr rfl)
  exact absurd ((hall p hp).symm.trans hpt) (by decide)

end Demux

end AllCamera
