import AllCamera.Lib.Nal
import AllCamera.Stream.PsDemux.Pes

/-!
# An H.264 NAL unit through the demultiplexer

A NAL unit that fits into the front block is sent in one packet. A longer one is sent block by block,
as fragments: the NAL header comes from the front block, and any later block that begins like a start
code is taken for a new NAL unit.

* `sendFuBlocks_fragments`, `Arrives.delivers`: how a NAL unit is cut when the packets that are sent
  carry it.
* `sendFuBlocks_total_lt`, `not_carried_short`, `not_carried_behind`: what goes wrong otherwise: bytes
  that are left out, a type from the stack, bytes from behind a block.
* `delivers_iff`: the packets carry the NAL unit exactly when it is cut as `Arrives` says.
-/

namespace AllCamera

open MsgBlock (Holds)

namespace Demux

variable {env : Env} {d : Demux} {n : Nal} {b : MsgBlock} {bs : List MsgBlock} {c : List UInt8}
  {cs : List (List UInt8)} {r : Nat}

/-! ## The bytes of the fragments -/

theorem fuIndicator_header (n : Nal) : fuIndicator n.header = n.indicator := rfl

theorem typeOf_fuIndicator (nalu : UInt8) : Nal.typeOf (fuIndicator nalu) = Nal.fuA := by
  have := nalu.toNat_lt
  simp only [Nal.typeOf, fuIndicator, Nal.fuA, UInt8.toNat_ofNat']
  omega

theorem isFuHeader_fuHeader (n : Nal) (s e : Bool) : n.IsFuHeader s e (fuHeader n.header s e) := by
  have := n.isNal
  refine ⟨?_, ?_, ?_⟩ <;> cases s <;> cases e <;>
    simp only [Nal.typeOf, fuHeader, UInt8.toNat_ofNat', Bool.toNat_true, Bool.toNat_false, if_true] <;>
    simp <;> omega

theorem fuBlock_eq (b : MsgBlock) (nalu : UInt8) (s e : Bool) (head : RtpPacket.Head) :
    fuBlock b nalu s e head = (b.prepend [fuIndicator nalu, fuHeader nalu s e]).stampFront head := rfl

/-- A whole block is sent as a fragment of the bytes in it. -/
theorem rtp_fuBlock (h : b.Inside) (nalu : UInt8) (s e : Bool) (head : RtpPacket.Head) :
    (fuBlock b nalu s e head).rtp =
      ⟨head.marker, head.seqNum, fuIndicator nalu :: fuHeader nalu s e :: b.payload⟩ := by
  rw [fuBlock_eq]
  exact MsgBlock.rtp_prepend h (by simp [MsgBlock.blockSize]) head

/-! ## Where the elementary stream goes on and ends -/

/-- No piece that `r` bytes go on in begins like a start code, as far as the piece goes. -/
def noCode (r : Nat) : List (List UInt8) → Bool
  | [] => true
  | c :: cs => r == 0 ||
      (!(c.take 4).isPrefixOf startCode && (decide (r < c.length) || noCode (r - c.length) cs))

/-- The `r` bytes end with a piece. -/
def endsAt (r : Nat) : List (List UInt8) → Bool
  | [] => true
  | c :: cs => r == 0 || (decide (c.length ≤ r) && endsAt (r - c.length) cs)

theorem startsWith_eq_false (h : b.Holds c) (hc : (c.take 4).isPrefixOf startCode = false) :
    b.startsWith startCode = false := by
  by_contra hs
  rw [Bool.not_eq_false] at hs
  have := List.isPrefixOf_iff_prefix.mpr (h.take_prefix hs)
  rw [show startCode.length = 4 from rfl, hc] at this
  exact Bool.false_ne_true this

/-! ## One turn of the loop of `sendH264EsFuNale` -/

section Turn

variable (env d) (s : Bool) (nalu : UInt8)

theorem sendFuBlocks_zero (l : List MsgBlock) : (d.sendFuBlocks env 0 s nalu l).sent = d.sent := by
  cases l with
  | nil => rfl
  | cons b bs => rw [sendFuBlocks, if_pos rfl]

/-- The packet of a whole block. -/
def wholeFu (b : MsgBlock) (r : Nat) : MsgBlock :=
  fuBlock (b.behindCode 5) (naluAt b nalu) s (decide (r - b.length = 0))
    (d.head d.videoPayload (decide (r - b.length = 0)))

/-- A whole block is sent, and the loop goes on. -/
theorem sendFuBlocks_whole (hr : r ≠ 0) (hall : b.length ≤ r) (bs : List MsgBlock) :
    ∃ e : Demux, e.sent = d.sent ++ [d.wholeFu s nalu b r] ∧ e.usRtpSeq = d.usRtpSeq + 1 ∧
      e.allocs = d.allocs ∧ d.sendFuBlocks env r s nalu (b :: bs) =
        e.sendFuBlocks env (r - b.length) false (naluAt b nalu) bs := by
  refine ⟨(d.log (b.codeFaults 5)).send (d.wholeFu s nalu b r), rfl, rfl, rfl, ?_⟩
  rw [sendFuBlocks, if_neg hr, if_pos hall]
  rfl

/-- How many bytes of the last block are copied. -/
def partLen (b : MsgBlock) (r : Nat) : Nat := if b.startsWith startCode then r - 1 else r

/-- The packet of the block in which the elementary stream ends, in a block of the pool. -/
def partFu (b : MsgBlock) (r : Nat) (buffer : Memory) : MsgBlock :=
  ((MsgBlock.ofPool buffer (d.head d.videoPayload true)).append
    [fuIndicator (naluAt b nalu), fuHeader (naluAt b nalu) false true]).copy
      (b.behindCode 5) (partLen b r)

theorem rtp_partFu (b : MsgBlock) (r : Nat) (buffer : Memory) :
    (d.partFu nalu b r buffer).rtp = ⟨true, d.usRtpSeq,
      fuIndicator (naluAt b nalu) :: fuHeader (naluAt b nalu) false true ::
        if partLen b r + 2 ≤ MsgBlock.blockSize - RtpPacket.fixedHeader then
          (b.behindCode 5).data.read (b.behindCode 5).rd (partLen b r)
        else []⟩ :=
  MsgBlock.rtp_copy _ _ [fuIndicator (naluAt b nalu), fuHeader (naluAt b nalu) false true]
    (show 2 ≤ 3 by decide) _ _

/-- The bytes of the last block are sent, if the pool has a block. -/
theorem sendFuBlocks_part (hr : r ≠ 0) (hlt : r < b.length) (bs : List MsgBlock) :
    (poolHas env d = false ∧ (d.sendFuBlocks env r s nalu (b :: bs)).sent = d.sent) ∨
      (poolHas env d = true ∧ ∃ buffer, (d.sendFuBlocks env r s nalu (b :: bs)).sent =
        d.sent ++ [d.partFu nalu b r buffer]) := by
  have hnot : ¬b.length ≤ r := by omega
  rw [sendFuBlocks, if_neg hr, if_neg hnot, poolHas]
  cases env.alloc d.allocs with
  | none => exact .inl ⟨rfl, rfl⟩
  | some buffer => exact .inr ⟨rfl, buffer, rfl⟩

end Turn

/-! ## The fragments behind the first -/

section Plain

variable (hb : b.Holds c) (hcode : (c.take 4).isPrefixOf startCode = false)
include hb hcode

/-- A block that does not begin like a start code is sent as a fragment of its bytes. -/
theorem rtp_wholeFu_plain (s : Bool) (r : Nat) : naluAt b n.header = n.header ∧
    (d.wholeFu s n.header b r).rtp = ⟨decide (r - b.length = 0), d.usRtpSeq,
      n.indicator :: fuHeader n.header s (decide (r - b.length = 0)) :: c⟩ := by
  have hstart := startsWith_eq_false hb hcode
  have hnalu : naluAt b n.header = n.header := by simp [naluAt, hstart]
  have hbehind : b.behindCode 5 = b := by simp [MsgBlock.behindCode, hstart]
  refine ⟨hnalu, ?_⟩
  rw [wholeFu, hnalu, hbehind, rtp_fuBlock hb.inside, hb.payload, fuIndicator_header]
  rfl

/-- So are the bytes of it that the elementary stream ends with. -/
theorem rtp_partFu_plain (hlt : r < b.length) (buffer : Memory) :
    (d.partFu n.header b r buffer).rtp = ⟨true, d.usRtpSeq,
      n.indicator :: fuHeader n.header false true :: c.take r⟩ := by
  have hlen := hb.length_eq
  have hstart := startsWith_eq_false hb hcode
  have hbehind : b.behindCode 5 = b := by simp [MsgBlock.behindCode, hstart]
  have hnalu : naluAt b n.header = n.header := by simp [naluAt, hstart]
  have hpart : partLen b r = r := by simp [partLen, hstart]
  have hfits : r + 2 ≤ MsgBlock.blockSize - RtpPacket.fixedHeader := by
    have := hb.length_le
    simp only [MsgBlock.maxPayload, MsgBlock.transmitHead, MsgBlock.blockSize,
      RtpPacket.fixedHeader] at this ⊢
    omega
  rw [rtp_partFu, hbehind, hnalu, hpart, if_pos hfits, hb.read_eq (by omega), fuIndicator_header]

end Plain

/-- The blocks that the elementary stream goes on in are sent as the other fragments. -/
theorem sendFuBlocks_fragments (env : Env) (h : HoldAll bs cs) (hr : 0 < r) (hle : r ≤ cs.flatten.length)
    (hcode : noCode r cs = true) (hend : endsAt r cs = true ∨ poolHas env d = true) :
    ∃ new ps, (d.sendFuBlocks env r false n.header bs).sent = d.sent ++ new ∧
      new.map MsgBlock.rtp = numbered d.usRtpSeq ps ∧ n.Fragments (cs.flatten.take r) ps := by
  induction h generalizing d r with
  | nil =>
    simp only [List.flatten_nil, List.length_nil] at hle
    omega
  | @cons b c bs cs hb hbs ih =>
    have hlen := hb.length_eq
    have hr0 : (r == 0) = false := by
      rw [beq_eq_false_iff_ne]
      omega
    rw [noCode, hr0, Bool.false_or, Bool.and_eq_true, Bool.not_eq_true', Bool.or_eq_true,
      decide_eq_true_eq] at hcode
    rw [endsAt, hr0, Bool.false_or, Bool.and_eq_true, decide_eq_true_eq] at hend
    rw [List.flatten_cons, List.length_append] at hle
    rw [List.flatten_cons]
    by_cases hall : b.length ≤ r
    · obtain ⟨e, hsent, hseq, hallocs, hloop⟩ := sendFuBlocks_whole env d false n.header (by omega) hall bs
      obtain ⟨hnalu, hrtp⟩ := rtp_wholeFu_plain (d := d) (n := n) hb hcode.1 false r
      rw [hloop, hnalu]
      by_cases hlast : r - b.length = 0
      · -- the elementary stream ends with the block
        rw [hlast, decide_eq_true rfl] at hrtp
        refine ⟨_, [n.indicator :: fuHeader n.header false true :: c],
          by rw [hlast, sendFuBlocks_zero, hsent], by rw [List.map_singleton, hrtp]; rfl, ?_⟩
        rw [List.take_append_of_le_length (by omega), List.take_of_length_le (by omega)]
        exact .last (isFuHeader_fuHeader n false true)
      · rw [decide_eq_false hlast] at hrtp
        have hpool := poolHas_congr env hallocs
        obtain ⟨new, ps, hnew, hnumbered, hfragments⟩ := ih (d := e) (r := r - b.length) (by omega)
          (by omega) (hlen ▸ hcode.2.resolve_left (by omega))
          (hend.imp (fun h => hlen ▸ h.2) (hpool ▸ ·))
        refine ⟨d.wholeFu false n.header b r :: new,
          (n.indicator :: fuHeader n.header false false :: c) :: ps, ?_, ?_, ?_⟩
        · rw [hnew, hsent, List.append_assoc, List.singleton_append]
        · rw [List.map_cons, hrtp, hnumbered, numbered_cons hfragments.ne_nil, hseq]
        · rw [List.take_append, List.take_of_length_le (by omega)]
          exact .middle (isFuHeader_fuHeader n false false) (hlen ▸ hfragments)
    · have hpool := hend.resolve_left fun h => hall (hlen ▸ h.1)
      obtain ⟨hnone, -⟩ | ⟨-, buffer, hsent⟩ :=
        sendFuBlocks_part env d false n.header (by omega) (Nat.not_le.mp hall) bs
      · rw [hnone] at hpool
        exact absurd hpool Bool.false_ne_true
      · have hrtp := rtp_partFu_plain (d := d) (n := n) hb hcode.1 (Nat.not_le.mp hall) buffer
        refine ⟨_, [n.indicator :: fuHeader n.header false true :: c.take r], hsent,
          by rw [List.map_singleton, hrtp]; rfl, ?_⟩
        rw [List.take_append_of_le_length (by omega)]
        exact .last (isFuHeader_fuHeader n false true)

/-! ## The whole NAL unit -/

section Front

variable {post : List UInt8} {front : List UInt8} {later : List (List UInt8)}

/-- The first five bytes of the front block: the start code and the NAL header. -/
theorem front_byte (hb : b.Holds front) (h5 : 5 ≤ front.length)
    (hflat : front ++ later.flatten = startCode ++ n.bytes ++ post) :
    b.startsWith startCode = true ∧ b.byte 4 = n.header := by
  have htake := congrArg (List.take 5) hflat
  rw [List.take_append_of_le_length h5] at htake
  have hfive : front.take 5 = startCode ++ [n.header] := htake
  constructor
  · rw [hb.startsWith_iff (show startCode.length ≤ front.length from (by decide : 4 ≤ 5).trans h5)]
    have := congrArg (List.take 4) hfive
    rwa [List.take_take] at this
  · have h4 : (front.take 5).getD 4 0 = n.header := by
      rw [hfive]
      rfl
    rw [hb.byte_eq (by omega), ← h4, List.getD_eq_getElem?_getD, List.getD_eq_getElem?_getD,
      List.getElem?_take_of_lt (by omega)]

/-- The front block of a fragmented NAL unit is sent as its first fragment. -/
theorem rtp_frontFu (hb : b.Holds front) (h5 : 5 ≤ front.length)
    (hflat : front ++ later.flatten = startCode ++ n.bytes ++ post) (hlt : b.length < r)
    (nalu : UInt8) : naluAt b nalu = n.header ∧ (d.wholeFu true nalu b r).rtp =
      ⟨false, d.usRtpSeq, n.indicator :: fuHeader n.header true false :: front.drop 5⟩ := by
  obtain ⟨hstart, hbyte⟩ := front_byte hb h5 hflat
  have hnalu : naluAt b nalu = n.header := by
    rw [naluAt, if_pos hstart, hbyte]
  have hbehind : b.behindCode 5 = b.advance 5 := if_pos hstart
  have hadvance := hb.advance h5
  refine ⟨hnalu, ?_⟩
  rw [wholeFu, hnalu, hbehind, decide_eq_false (by omega), rtp_fuBlock hadvance.inside,
    hadvance.payload]
  rfl

/-- A NAL unit that is longer than the front block is sent in fragments. -/
theorem sendH264EsFuNale_carried (hl : d.list = b :: bs) (hb : b.Holds front)
    (hbs : HoldAll bs later) (h5 : 5 ≤ front.length)
    (hflat : front ++ later.flatten = startCode ++ n.bytes ++ post)
    (hlen : d.info.length = 4 + n.bytes.length) (hlt : front.length < d.info.length)
    (hcode : noCode (d.info.length - front.length) later = true)
    (hend : endsAt (d.info.length - front.length) later = true ∨ poolHas env d = true) :
    ∃ new ps, (d.sendH264EsFuNale env).sent = d.sent ++ new ∧
      new.map MsgBlock.rtp = numbered d.usRtpSeq ps ∧ n.Carried ps := by
  have hblen := hb.length_eq
  obtain ⟨hnalu, hrtp⟩ := rtp_frontFu (d := d) hb h5 hflat (r := d.info.length) (by omega)
    (env.naluHdr d.sent.length)
  obtain ⟨e, hsent, hseq, hallocs, hloop⟩ := sendFuBlocks_whole env d true
    (env.naluHdr d.sent.length) (r := d.info.length) (b := b) (by omega) (by omega) bs
  have htotal := congrArg List.length hflat
  simp only [List.length_append, show startCode.length = 4 from rfl] at htotal
  have hpool := poolHas_congr env hallocs
  obtain ⟨new, ps, hnew, hnumbered, hfragments⟩ := sendFuBlocks_fragments env (d := e) (n := n)
    hbs (r := d.info.length - front.length) (by omega) (by omega) hcode (hend.imp id (hpool ▸ ·))
  refine ⟨d.wholeFu true (env.naluHdr d.sent.length) b d.info.length :: new,
    (n.indicator :: fuHeader n.header true false :: front.drop 5) :: ps, ?_, ?_, ?_⟩
  · rw [sendH264EsFuNale, hl, hloop, hnalu, hblen, hnew, hsent, List.append_assoc,
      List.singleton_append]
  · rw [List.map_cons, hrtp, hnumbered, numbered_cons hfragments.ne_nil, hseq]
  · refine .fragments (isFuHeader_fuHeader n true false) ?_ hfragments
    have hbody := congrArg (fun l => (l.drop 5).take n.body.length) hflat
    have hleft : ((front ++ later.flatten).drop 5).take n.body.length =
        front.drop 5 ++ later.flatten.take (d.info.length - front.length) := by
      rw [List.drop_append_of_le_length h5, List.take_append,
        List.take_of_length_le (by rw [List.length_drop]; rw [Nal.length_bytes] at hlen; omega)]
      congr 2
      rw [List.length_drop]
      rw [Nal.length_bytes] at hlen
      omega
    have hright : ((startCode ++ n.bytes ++ post).drop 5).take n.body.length = n.body :=
      List.take_left' rfl
    exact hright.symm.trans (hbody.symm.trans hleft)

/-- A NAL unit that ends in the front block is sent in one packet. -/
theorem sendH264EsSigleNalu_carried (hl : d.list = b :: bs) (hb : b.Holds front)
    (hflat : front ++ later.flatten = startCode ++ n.bytes ++ post)
    (hlen : d.info.length = 4 + n.bytes.length) (hle : d.info.length ≤ front.length)
    (hid : d.info.streamId = videoStreamId)
    (hend : d.info.length = front.length ∨ poolHas env d = true) :
    ∃ new ps, (d.sendH264EsSigleNalu env).sent = d.sent ++ new ∧
      new.map MsgBlock.rtp = numbered d.usRtpSeq ps ∧ n.Carried ps := by
  have hblen := hb.length_eq
  have hpos := n.length_bytes
  have hstart := (front_byte hb (by omega) hflat).1
  have hbehind : b.behindCode 4 = b.advance 4 := if_pos hstart
  have hadvance := hb.advance (n := 4) (by omega)
  have hnal : (front.drop 4).take n.bytes.length = n.bytes := by
    have hdrop := congrArg (fun l => (l.drop 4).take n.bytes.length) hflat
    rw [List.drop_append_of_le_length (by omega),
      List.take_append_of_le_length (by rw [List.length_drop]; omega)] at hdrop
    exact hdrop.trans (List.take_left' rfl)
  rw [sendH264EsSigleNalu, hl]
  by_cases heq : d.info.length = b.length
  · refine ⟨[(b.behindCode 4).stampFront (d.head d.videoPayload true)], [n.bytes], ?_, ?_, .single⟩
    · simp only [if_pos heq]
      rfl
    · rw [List.map_singleton, hbehind, MsgBlock.rtp_stampFront hadvance.inside.ordered,
        hadvance.payload, ← hnal, List.take_of_length_le (by rw [List.length_drop]; omega)]
      rfl
  · have hpool := hend.resolve_left fun h => heq (h.trans hblen.symm)
    have hfits : n.bytes.length + ([] : List UInt8).length ≤
        MsgBlock.blockSize - RtpPacket.fixedHeader := by
      have := hb.length_le
      simp only [MsgBlock.maxPayload, MsgBlock.transmitHead, MsgBlock.blockSize,
        RtpPacket.fixedHeader, List.length_nil] at this ⊢
      omega
    have hminus : minus32 d.info.length 4 = n.bytes.length := by
      rw [minus32]
      have := hb.length_le
      simp only [MsgBlock.maxPayload, MsgBlock.transmitHead, MsgBlock.blockSize,
        RtpPacket.fixedHeader] at this
      omega
    rw [poolHas] at hpool
    simp only [if_neg heq, if_pos (show d.info.length < b.length by omega), if_pos hid, if_pos hstart,
      hminus, hbehind]
    cases halloc : env.alloc d.allocs with
    | none =>
      rw [halloc] at hpool
      exact absurd hpool Bool.false_ne_true
    | some buffer =>
      have hrtp := MsgBlock.rtp_copy buffer (d.head d.videoPayload true) [] (Nat.zero_le 3)
        (b.advance 4) n.bytes.length
      rw [if_pos hfits, MsgBlock.append_nil, hadvance.read_eq (by rw [List.length_drop]; omega),
        hnal] at hrtp
      refine ⟨[(MsgBlock.ofPool buffer (d.head d.videoPayload true)).copy (b.advance 4) n.bytes.length],
        [n.bytes], rfl, ?_, .single⟩
      rw [List.map_singleton, hrtp]
      rfl

end Front

/-! ## When it arrives -/

/-- The NAL unit is cut so that the demultiplexer sends it on: the front block has the fixed part of
the PES header, the header ends at least five bytes before the end of the block that it ends in, no
later block of the NAL unit begins like a start code, and the NAL unit ends with a block unless there
is one in the pool. -/
structure Arrives (f : PesCut) (pool : Bool) : Prop where
  header : 9 ≤ (f.pieces.headD []).length
  streamId : f.streamId = videoStreamId
  front : 5 ≤ (f.rest.headD []).length
  code : noCode (f.esLen - (f.rest.headD []).length) f.rest.tail = true
  ends : endsAt f.esLen f.rest = true ∨ pool = true

theorem noCode_zero (cs : List (List UInt8)) : noCode 0 cs = true := by
  cases cs <;> rfl

theorem endsAt_zero (cs : List (List UInt8)) : endsAt 0 cs = true := by
  cases cs <;> rfl

/-- `sendEsVideoFrame` of an H.264 stream chooses by the front block. -/
theorem sendEsVideoFrame_eq (hl : d.list = b :: bs) (hv : d.videoPayload = PayloadType.h264)
    (hp : d.info.payload = PayloadType.h264) : d.sendEsVideoFrame env =
      if d.info.length ≤ b.length then d.sendH264EsSigleNalu env else d.sendH264EsFuNale env := by
  have hmax : d.videoPayload ≠ PayloadType.max := by
    rw [hv]
    decide
  split
  · next hle => exact sendVideo_single env hl hmax hp hle
  · next hlt => exact sendVideo_fu env hl hmax hp (Nat.not_le.mp hlt)

/-- A NAL unit that is cut so arrives. -/
theorem Arrives.delivers {f : PesCut} {pool : Bool} (hs : d.status = .pesPacket)
    (hv : d.videoPayload = PayloadType.h264) (hnal : f.nal = n.bytes) (h : Arrives f pool) :
    Delivers d f pool n.Carried := by
  intro env blocks hpool hblocks
  obtain ⟨hheader, hid, hfront, hcode, hends⟩ := h
  cases hpieces : f.pieces with
  | nil =>
    rw [hpieces] at hheader
    exact absurd hheader (by decide)
  | cons c cs =>
    cases hrest : f.rest with
    | nil =>
      rw [hrest] at hfront
      exact absurd hfront (by decide)
    | cons front later =>
      rw [hpieces] at hheader
      rw [hrest] at hfront hcode hends
      simp only [List.headD_cons, List.tail_cons] at hheader hfront hcode
      have hflat := f.flatten_rest hrest (by omega)
      rw [hnal] at hflat
      obtain ⟨b', bs', hskip, hb', hbs'⟩ := hblocks.skipBytes hrest (by omega)
      rw [hpieces] at hblocks
      cases hblocks with
      | @cons b _ bs _ hb hbs =>
        obtain ⟨e, he, hsent⟩ :=
          (dealStep_pes env (d := { d with list := b :: bs }) hs rfl hpieces hb hheader).2 hid
        have hlist : e.list = b' :: bs' := he.list.trans hskip
        have hlen : e.info.length = 4 + n.bytes.length := by
          rw [he.length, PesCut.esLen, hnal]
        have hpool' : poolHas env e = pool := (poolHas_congr env he.allocs).trans hpool
        have hblen := hb'.length_eq
        rw [hsent, sendEsVideoFrame_eq hlist (he.videoPayload.trans hv) (he.payload.trans hv)]
        rw [endsAt, Bool.or_eq_true, beq_iff_eq, Bool.and_eq_true, decide_eq_true_eq, ← he.length,
          ← hpool'] at hends
        rw [← he.length] at hcode
        have hresult : ∃ new ps, (if e.info.length ≤ b'.length then e.sendH264EsSigleNalu env
            else e.sendH264EsFuNale env).sent = e.sent ++ new ∧
              new.map MsgBlock.rtp = numbered e.usRtpSeq ps ∧ n.Carried ps := by
          split
          · next hle =>
            exact sendH264EsSigleNalu_carried hlist hb' hflat hlen (by omega) he.streamId
              (hends.imp (by omega) id)
          · next hlt =>
            exact sendH264EsFuNale_carried hlist hb' hbs' hfront hflat hlen (by omega) hcode
              (hends.imp (fun h => (h.resolve_left (by omega)).2) id)
        rwa [he.sent, he.usRtpSeq] at hresult

/-! ## When it does not -/

/-- The bytes in the payloads of packets. -/
def total (new : List MsgBlock) : Nat := ((payloads new).map List.length).sum

theorem total_cons (p : MsgBlock) (new : List MsgBlock) :
    total (p :: new) = p.rtp.payload.length + total new := rfl

/-- A whole block adds at most its bytes, and fewer when five are taken for a start code and a NAL
header. -/
theorem length_wholeFu (h : b.Inside) (s : Bool) (nalu : UInt8) :
    (d.wholeFu s nalu b r).rtp.payload.length ≤ b.length + 2 ∧
      (b.startsWith startCode = true → (d.wholeFu s nalu b r).rtp.payload.length < b.length + 2) := by
  have hlen := h.length_eq
  have hle := h.length_le
  rw [MsgBlock.length_rtp, wholeFu, fuBlock_eq, MsgBlock.length_stampFront_prepend,
    MsgBlock.behindCode]
  simp only [MsgBlock.blockSize, RtpPacket.fixedHeader, List.length_cons, List.length_nil] at hle ⊢
  cases b.startsWith startCode with
  | true =>
    simp only [if_true, MsgBlock.advance]
    omega
  | false =>
    refine ⟨?_, fun h => absurd h Bool.false_ne_true⟩
    simp only [Bool.false_eq_true, if_false]
    omega

/-- The payload of a whole block begins with an indicator, if there is any. -/
theorem typeOf_wholeFu {s : Bool} {nalu : UInt8}
    (h : RtpPacket.fixedHeader < (d.wholeFu s nalu b r).length) :
    Nal.typeOf ((d.wholeFu s nalu b r).rtp.payload.headD 0) = Nal.fuA := by
  rw [wholeFu, fuBlock_eq] at h ⊢
  rw [MsgBlock.headD_rtp_prepend _ (List.cons_ne_nil _ _) _ h]
  exact typeOf_fuIndicator _

theorem length_partFu (hr : r ≠ 0) (nalu : UInt8) (buffer : Memory) :
    (d.partFu nalu b r buffer).rtp.payload.length ≤ r + 2 ∧
      (b.startsWith startCode = true → (d.partFu nalu b r buffer).rtp.payload.length < r + 2) := by
  have hpart : partLen b r ≤ r ∧ (b.startsWith startCode = true → partLen b r < r) := by
    rw [partLen]
    split
    · exact ⟨by omega, fun _ => by omega⟩
    · next h => exact ⟨Nat.le_refl _, fun hs => absurd hs h⟩
  rw [rtp_partFu]
  simp only [List.length_cons]
  split
  · rw [Memory.length_read]
    exact ⟨by omega, fun hs => by have := hpart.2 hs; omega⟩
  · rw [List.length_nil]
    exact ⟨by omega, fun _ => by omega⟩

/-- The loop sends at most the bytes that are left, with two in front of each block. -/
theorem sendFuBlocks_total_le (env : Env) (h : HoldAll bs cs) (s : Bool) (nalu : UInt8) :
    ∃ new, (d.sendFuBlocks env r s nalu bs).sent = d.sent ++ new ∧ total new ≤ r + 2 * new.length := by
  induction h generalizing d r s nalu with
  | nil => exact ⟨[], (List.append_nil _).symm, Nat.zero_le _⟩
  | @cons b c bs cs hb hbs ih =>
    by_cases hr : r = 0
    · rw [hr, sendFuBlocks_zero]
      exact ⟨[], (List.append_nil _).symm, Nat.zero_le _⟩
    by_cases hall : b.length ≤ r
    · obtain ⟨e, hsent, -, -, hloop⟩ := sendFuBlocks_whole env d s nalu hr hall bs
      obtain ⟨new, hnew, htotal⟩ := ih (d := e) (r := r - b.length) false (naluAt b nalu)
      have hlen := (length_wholeFu (d := d) (r := r) hb.inside s nalu).1
      refine ⟨d.wholeFu s nalu b r :: new, ?_, ?_⟩
      · rw [hloop, hnew, hsent, List.append_assoc, List.singleton_append]
      · rw [total_cons, List.length_cons]
        omega
    · obtain ⟨-, hsent⟩ | ⟨-, buffer, hsent⟩ :=
        sendFuBlocks_part env d s nalu hr (Nat.not_le.mp hall) bs
      · exact ⟨[], by rw [hsent, List.append_nil], Nat.zero_le _⟩
      · have hlen := (length_partFu (d := d) (b := b) hr nalu buffer).1
        refine ⟨_, hsent, ?_⟩
        simp only [total, payloads, List.map_cons, List.map_nil, List.sum_cons, List.sum_nil,
          List.length_cons, List.length_nil]
        omega

/-- The rest of a start code that a piece breaks off. -/
def codeBehind (c : List UInt8) : List UInt8 := startCode.drop c.length

/-- A piece that begins like a start code can lie in a block that does. -/
theorem startsWith_holding (h : (c.take 4).isPrefixOf startCode = true) :
    (MsgBlock.holding c (codeBehind c)).startsWith startCode = true := by
  have hprefix : (c ++ codeBehind c).take 4 = startCode := by
    obtain ⟨t, ht⟩ := List.isPrefixOf_iff_prefix.mp h
    have hlen := congrArg List.length ht
    simp only [List.length_append, List.length_take, show startCode.length = 4 from rfl] at hlen
    rcases Nat.le_total 4 c.length with hc | hc
    · have ht0 : t = [] := List.length_eq_zero_iff.mp (by omega)
      rw [List.take_append_of_le_length hc, ← ht, ht0, List.append_nil]
    · rw [List.take_of_length_le hc] at ht
      rw [codeBehind, ← ht, List.drop_left, ht]
      rfl
  have hread := Memory.read_write (fun _ => 0)
    (MsgBlock.transmitHead + RtpPacket.fixedHeader : Nat) (c ++ codeBehind c)
  have hfour : 4 ≤ (c ++ codeBehind c).length := by
    have := congrArg List.length hprefix
    rw [List.length_take, show startCode.length = 4 from rfl] at this
    omega
  rw [MsgBlock.startsWith, beq_iff_eq]
  have htake := Memory.take_read (MsgBlock.holding c (codeBehind c)).data
    (MsgBlock.holding c (codeBehind c)).rd _ _ hfour
  rw [show startCode.length = 4 from rfl, ← htake, ← hprefix]
  exact congrArg (List.take 4) hread

/-- It sends fewer when a block that the elementary stream goes on in begins with a start code, and
when the elementary stream ends inside a block and the pool is empty. -/
theorem sendFuBlocks_total_lt (hsmall : ∀ c ∈ cs, c.length ≤ MsgBlock.maxPayload)
    (hbad : noCode r cs = false ∨ (endsAt r cs = false ∧ poolHas env d = false)) (s : Bool)
    (nalu : UInt8) : ∃ new,
      (d.sendFuBlocks env r s nalu (holdingAll codeBehind cs)).sent = d.sent ++ new ∧
        total new < r + 2 * new.length := by
  induction cs generalizing d r s nalu with
  | nil =>
    rcases hbad with h | ⟨h, -⟩
    · exact absurd h (by simp [noCode])
    · exact absurd h (by simp [endsAt])
  | cons c cs ih =>
    obtain ⟨hc, hcs⟩ := List.forall_mem_cons.mp hsmall
    have hb := MsgBlock.holding_holds (codeBehind c) hc
    have hstart := startsWith_holding (c := c)
    have hr : r ≠ 0 := by
      rintro rfl
      rw [noCode_zero, endsAt_zero] at hbad
      simp at hbad
    have hr0 : (r == 0) = false := beq_eq_false_iff_ne.mpr hr
    rw [noCode, endsAt, hr0, Bool.false_or, Bool.false_or] at hbad
    rw [show holdingAll codeBehind (c :: cs) =
      MsgBlock.holding c (codeBehind c) :: holdingAll codeBehind cs from rfl]
    generalize MsgBlock.holding c (codeBehind c) = b at hb hstart ⊢
    have hlen := hb.length_eq
    by_cases hall : b.length ≤ r
    · obtain ⟨e, hsent, -, hallocs, hloop⟩ :=
        sendFuBlocks_whole env d s nalu hr hall (holdingAll codeBehind cs)
      have hwhole := length_wholeFu (d := d) (r := r) hb.inside s nalu
      have hrest : ∃ new, (e.sendFuBlocks env (r - b.length) false (naluAt b nalu)
          (holdingAll codeBehind cs)).sent = e.sent ++ new ∧
          (d.wholeFu s nalu b r).rtp.payload.length + total new < r + 2 * (new.length + 1) := by
        by_cases hcode : (c.take 4).isPrefixOf startCode = true
        · obtain ⟨new, hnew, htotal⟩ := sendFuBlocks_total_le env (d := e)
            (r := r - b.length) (holdAll_holdingAll codeBehind hcs) false (naluAt b nalu)
          have := hwhole.2 (hstart hcode)
          exact ⟨new, hnew, by omega⟩
        · have hpool := poolHas_congr env hallocs
          rw [Bool.not_eq_true] at hcode
          have hnext : noCode (r - c.length) cs = false ∨
              (endsAt (r - c.length) cs = false ∧ poolHas env e = false) := by
            rw [hcode, decide_eq_false (show ¬r < c.length by omega),
              decide_eq_true (show c.length ≤ r by omega)] at hbad
            simpa [hpool] using hbad
          rw [← hlen] at hnext
          obtain ⟨new, hnew, htotal⟩ := ih hcs (d := e) hnext false (naluAt b nalu)
          exact ⟨new, hnew, by omega⟩
      obtain ⟨new, hnew, htotal⟩ := hrest
      refine ⟨d.wholeFu s nalu b r :: new, ?_, ?_⟩
      · rw [hloop, hnew, hsent, List.append_assoc, List.singleton_append]
      · rw [total_cons, List.length_cons]
        exact htotal
    · obtain ⟨-, hsent⟩ | ⟨hpool, buffer, hsent⟩ :=
        sendFuBlocks_part env d s nalu hr (Nat.not_le.mp hall) (holdingAll codeBehind cs)
      · exact ⟨[], by rw [hsent, List.append_nil], Nat.pos_of_ne_zero hr⟩
      · have hcode : (c.take 4).isPrefixOf startCode = true := by
          rw [hpool, decide_eq_true (show r < c.length by omega), Bool.true_or, Bool.and_true] at hbad
          simpa using hbad
        have hlt := (length_partFu (d := d) (b := b) hr nalu buffer).2 (hstart hcode)
        refine ⟨_, hsent, ?_⟩
        simp only [total, payloads, List.map_cons, List.map_nil, List.sum_cons, List.sum_nil,
          List.length_cons, List.length_nil]
        omega

/-- Too few bytes behind the first fragment. -/
theorem not_carried_of_total {p : MsgBlock} {new : List MsgBlock}
    (htype : Nal.typeOf (p.rtp.payload.headD 0) = Nal.fuA)
    (hlt : total (p :: new) < n.body.length + 2 * (p :: new).length) :
    ¬n.Carried (payloads (p :: new)) := by
  intro h
  obtain ⟨-, -, -, -, hsum⟩ := Nal.Carried.of_fu h htype
  rw [List.length_cons, List.length_map] at hsum
  exact Nat.lt_irrefl _ (hsum ▸ hlt)

/-- Without a block in the pool, a NAL unit that ends inside the front block is not sent. -/
theorem sendH264EsSigleNalu_none (hl : d.list = b :: bs) (hlt : d.info.length < b.length)
    (hpool : poolHas env d = false) : (d.sendH264EsSigleNalu env).sent = d.sent := by
  rw [poolHas, Option.isSome_eq_false_iff, Option.isNone_iff_eq_none] at hpool
  rw [sendH264EsSigleNalu, hl]
  simp only [if_neg (show ¬d.info.length = b.length by omega), if_pos hlt, hpool]
  rfl

/-- The front block has the start code and the NAL header, but a later one begins like a start code,
or the pool is needed and empty. -/
theorem not_carried_front (env : Env) {front post : List UInt8} {later : List (List UInt8)}
    (hl : d.list = b :: bs) (hb : b.Holds front) (hbs : bs = holdingAll codeBehind later)
    (hsmall : ∀ c ∈ later, c.length ≤ MsgBlock.maxPayload) (h5 : 5 ≤ front.length)
    (hflat : front ++ later.flatten = startCode ++ n.bytes ++ post)
    (hlen : d.info.length = 4 + n.bytes.length)
    (hv : d.videoPayload = PayloadType.h264) (hp : d.info.payload = PayloadType.h264)
    (hbad : noCode (d.info.length - front.length) later = false ∨
      (endsAt d.info.length (front :: later) = false ∧ poolHas env d = false)) :
    ∃ new, (d.sendEsVideoFrame env).sent = d.sent ++ new ∧ ¬n.Carried (payloads new) := by
  have hblen := hb.length_eq
  have hbytes := n.length_bytes
  rw [sendEsVideoFrame_eq hl hv hp]
  rw [endsAt, beq_eq_false_iff_ne.mpr (show d.info.length ≠ 0 by omega), Bool.false_or] at hbad
  by_cases hle : d.info.length ≤ b.length
  · rw [if_pos hle]
    rw [show d.info.length - front.length = 0 by omega, noCode_zero] at hbad
    obtain ⟨hends, hpool⟩ := hbad.resolve_left (by decide)
    have hlt : d.info.length < b.length := by
      by_contra hnot
      rw [endsAt_zero, decide_eq_true (show front.length ≤ d.info.length by omega)] at hends
      exact absurd hends (by decide)
    refine ⟨[], by rw [sendH264EsSigleNalu_none hl hlt hpool, List.append_nil], fun h => ?_⟩
    exact h.ne_nil rfl
  · rw [if_neg hle]
    rw [decide_eq_true (show front.length ≤ d.info.length by omega), Bool.true_and] at hbad
    obtain ⟨hnalu, hrtp⟩ := rtp_frontFu (d := d) hb h5 hflat (Nat.not_le.mp hle)
      (env.naluHdr d.sent.length)
    obtain ⟨e, hsent, -, hallocs, hloop⟩ := sendFuBlocks_whole env d true
      (env.naluHdr d.sent.length) (b := b) (show d.info.length ≠ 0 by omega) (by omega) bs
    have hpool := poolHas_congr env hallocs
    rw [← hpool, ← hblen] at hbad
    obtain ⟨new, hnew, htotal⟩ := sendFuBlocks_total_lt hsmall hbad false n.header
    refine ⟨d.wholeFu true (env.naluHdr d.sent.length) b d.info.length :: new, ?_, ?_⟩
    · rw [sendH264EsFuNale, hl, hloop, hnalu, hbs, hnew, hsent, List.append_assoc,
        List.singleton_append]
    · apply not_carried_of_total
      · rw [hrtp]
        exact n.typeOf_indicator
      · rw [total_cons, hrtp]
        simp only [List.length_cons, List.length_drop]
        omega

/-! ## A header that ends too late in its block -/

section Short

variable {k : Nat}

/-- Behind the piece of a zeroed buffer everything is zero. -/
theorem read_behind {p : Int} (hp : (MsgBlock.holding c []).wr ≤ p) (m : Nat) :
    (MsgBlock.holding c []).data.read p m = List.replicate m 0 := by
  have hzero : (MsgBlock.holding c []).data.read p m = Memory.read (fun _ => 0) p m := by
    apply Memory.read_congr
    intro i h1 _
    have hdata : (MsgBlock.holding c []).data = Memory.write (fun _ => 0)
        (MsgBlock.transmitHead + RtpPacket.fixedHeader : Nat) (c ++ []) := rfl
    rw [hdata, List.append_nil]
    exact Memory.write_of_ge (hp.trans h1)
  rw [hzero]
  exact List.eq_replicate_iff.mpr ⟨Memory.length_read _ _ _, by simp [Memory.read]⟩

/-- Fewer than five bytes of the elementary stream are in the front block: its packet has no type
that could begin a NAL unit. -/
theorem not_carried_short (hl : d.list = (MsgBlock.holding c []).advance k :: bs)
    (hbs : HoldAll bs cs) (hc : c.length ≤ MsgBlock.maxPayload) (hk : k ≤ c.length)
    (hshort : (c.drop k).length < 5) (hlen : 5 ≤ d.info.length) (pool : Bool)
    (hv : d.videoPayload = PayloadType.h264) (hp : d.info.payload = PayloadType.h264) :
    ∃ new, (d.sendEsVideoFrame (Env.ofPool pool)).sent = d.sent ++ new ∧
      ¬n.Carried (payloads new) := by
  have hb := (MsgBlock.holding_holds [] hc).advance hk
  have hblen := hb.length_eq
  generalize (MsgBlock.holding c []).advance k = b at hl hb hblen
  generalize c.drop k = front at hb hblen hshort
  obtain ⟨e, hsent, -, -, hloop⟩ := sendFuBlocks_whole (Env.ofPool pool) d true 0 (b := b)
    (show d.info.length ≠ 0 by omega) (by omega) bs
  obtain ⟨new, hnew, -⟩ := sendFuBlocks_total_le (Env.ofPool pool) (d := e)
    (r := d.info.length - b.length) hbs false (naluAt b 0)
  refine ⟨d.wholeFu true 0 b d.info.length :: new, ?_, fun h => ?_⟩
  · rw [sendEsVideoFrame_eq hl hv hp, if_neg (by omega), sendH264EsFuNale, hl]
    exact (congrArg sent hloop).trans (by rw [hnew, hsent, List.append_assoc, List.singleton_append])
  cases hstart : b.startsWith startCode with
  | true =>
    -- five bytes are skipped where there are at most four
    have hbehind : b.behindCode 5 = b.advance 5 := if_pos hstart
    have hin := hb.inside.length_eq
    have hlength : (d.wholeFu true 0 b d.info.length).length = b.length + 9 := by
      rw [wholeFu, fuBlock_eq, hbehind, MsgBlock.length_stampFront_prepend]
      simp only [MsgBlock.advance, RtpPacket.fixedHeader, List.length_cons, List.length_nil]
      omega
    have hpayload := MsgBlock.length_rtp (d.wholeFu true 0 b d.info.length)
    rw [hlength, RtpPacket.fixedHeader] at hpayload
    rw [payloads, List.map_cons] at h
    by_cases hfour : RtpPacket.fixedHeader < (d.wholeFu true 0 b d.info.length).length
    · obtain ⟨fu, frag, hp0, -⟩ := h.of_fu (typeOf_wholeFu hfour)
      have := congrArg List.length hp0
      rw [hpayload, List.length_cons, List.length_cons] at this
      omega
    · have hnil : (d.wholeFu true 0 b d.info.length).rtp.payload = [] := by
        apply List.length_eq_zero_iff.mp
        rw [hlength, RtpPacket.fixedHeader] at hfour
        omega
      rw [hnil] at h
      exact h.type_ne_zero rfl
  | false =>
    -- the fragment has the type that the stack had
    have hbehind : b.behindCode 5 = b := by simp [MsgBlock.behindCode, hstart]
    have hnalu : naluAt b 0 = 0 := by simp [naluAt, hstart]
    have hrtp : (d.wholeFu true 0 b d.info.length).rtp = _ :=
      rtp_fuBlock (by rw [hbehind]; exact hb.inside) _ _ _ _
    rw [hnalu] at hrtp
    rw [payloads, List.map_cons, hrtp] at h
    obtain ⟨fu, frag, hp0, hfu, -⟩ := Nal.Carried.of_fu h (typeOf_fuIndicator 0)
    obtain ⟨-, hrest⟩ := List.cons.inj hp0
    obtain ⟨rfl, -⟩ := List.cons.inj hrest
    have htype := hfu.type
    have hzero : ∀ e, Nal.typeOf (fuHeader 0 true e) = 0 := by decide
    have hone := n.isNal.1
    rw [hzero, Nal.typeOf] at htype
    omega

/-- The header ends behind the second block: the sender takes the bytes of the NAL unit from behind
the block. -/
theorem not_carried_behind (hl : d.list = (MsgBlock.holding c []).advance k :: bs)
    (hk : c.length < k) (hk' : k ≤ 2 ^ 16) (hlen : d.info.length < 2 ^ 16)
    (hpos : 0 < d.info.length) (pool : Bool)
    (hid : d.info.streamId = videoStreamId)
    (hv : d.videoPayload = PayloadType.h264) (hp : d.info.payload = PayloadType.h264) :
    ∃ new, (d.sendEsVideoFrame (Env.ofPool pool)).sent = d.sent ++ new ∧
      ¬n.Carried (payloads new) := by
  have hdata := read_behind (c := c) (p := ((MsgBlock.holding c []).advance k).rd)
    (by simp only [MsgBlock.advance, MsgBlock.holding]; omega)
  have hlength : ((MsgBlock.holding c []).advance k).length = 2 ^ 64 - (k - c.length) := by
    simp only [MsgBlock.length, MsgBlock.advance, MsgBlock.holding]
    omega
  have hread : ∀ m, ((MsgBlock.holding c []).advance k).data.read
      ((MsgBlock.holding c []).advance k).rd m = List.replicate m 0 := hdata
  generalize (MsgBlock.holding c []).advance k = b at hl hlength hread
  have hstart : b.startsWith startCode = false := by
    rw [MsgBlock.startsWith, hread]
    decide
  have hbehind : b.behindCode 4 = b := by simp [MsgBlock.behindCode, hstart]
  rw [sendEsVideoFrame_eq hl hv hp, if_pos (by omega), sendH264EsSigleNalu, hl]
  simp only [if_neg (show ¬d.info.length = b.length by omega),
    if_pos (show d.info.length < b.length by omega), if_pos hid, hbehind, hstart, Bool.false_eq_true,
    if_false]
  cases pool with
  | false => exact ⟨[], (List.append_nil _).symm, fun h => h.ne_nil rfl⟩
  | true =>
    have hrtp := MsgBlock.rtp_copy (fun _ => 0) (d.head d.videoPayload true) [] (Nat.zero_le 3) b
      d.info.length
    rw [MsgBlock.append_nil, hread, List.nil_append] at hrtp
    refine ⟨[(MsgBlock.ofPool (fun _ => 0) (d.head d.videoPayload true)).copy b d.info.length], rfl,
      fun h => ?_⟩
    rw [payloads, List.map_singleton, hrtp] at h
    refine h.type_ne_zero ?_
    have hzero : ∀ m : Nat, (List.replicate m (0 : UInt8)).headD 0 = 0 := by
      intro m
      cases m <;> rfl
    split
    · rw [hzero]
      rfl
    · rfl

end Short

/-! ## Both directions -/

/-- In front of a PES packet, with an H.264 stream. -/
structure AtH264 where
  demux : Demux
  status : demux.status = .pesPacket
  videoPayload : demux.videoPayload = PayloadType.h264

/-- A PES packet with an H.264 NAL unit. -/
structure H264Cut extends PesCut where
  unit : Nal
  nal_eq : nal = unit.bytes

section Both

variable (a : AtH264) (f : H264Cut) {pool : Bool}

variable (hheader : 9 ≤ (f.pieces.headD []).length)

include hheader

theorem not_delivers_front (hid : f.streamId = videoStreamId)
    (hfront : ¬5 ≤ (f.rest.headD []).length) :
    ¬Delivers a.demux f.toPesCut pool f.unit.Carried := by
  have hblocks := holdAll_holdingAll (fun _ => []) f.small
  obtain ⟨e, he, hsent⟩ := (dealStep_holdingAll (Env.ofPool pool) a.status hheader fun _ => []).2 hid
  have hlen : e.info.length = 4 + f.unit.bytes.length := by rw [he.length, PesCut.esLen, f.nal_eq]
  have hfits := f.fits
  have hbytes := f.unit.length_bytes
  rw [f.nal_eq] at hfits
  have hshort : ∃ new, (e.sendEsVideoFrame (Env.ofPool pool)).sent = e.sent ++ new ∧
      ¬f.unit.Carried (payloads new) := by
    cases hlist : skipBytes f.headLen (holdingAll (fun _ => []) f.pieces) with
    | nil =>
      exact ⟨[], by rw [sendEsVideoFrame_nil (he.list.trans hlist), List.append_nil],
        fun hc => hc.ne_nil rfl⟩
    | cons b bs =>
      obtain ⟨c, k, later, hmem, hk, hlater, rfl, rfl, hrest⟩ := skipBytes_holdingAll f.small hlist
      rw [PesCut.rest, hrest, List.headD_cons] at hfront
      by_cases hin : k ≤ c.length
      · exact not_carried_short (he.list.trans hlist) (holdAll_holdingAll _ hlater) (f.small c hmem) hin
          (Nat.not_le.mp hfront) (by omega) pool (he.videoPayload.trans a.videoPayload)
          (he.payload.trans a.videoPayload)
      · have hhead := f.hdr_le
        rw [PesCut.headLen] at hk
        exact not_carried_behind (he.list.trans hlist) (Nat.not_le.mp hin) (by omega) (by omega)
          (by omega) pool he.streamId (he.videoPayload.trans a.videoPayload)
          (he.payload.trans a.videoPayload)
  obtain ⟨new, hnew, hnot⟩ := hshort
  exact not_delivers new (poolHas_ofPool pool _) hblocks (by rw [hsent, hnew, he.sent]) hnot

theorem not_delivers_code (hid : f.streamId = videoStreamId) (hfront : 5 ≤ (f.rest.headD []).length)
    (hbad : noCode (f.esLen - (f.rest.headD []).length) f.rest.tail = false ∨
      (endsAt f.esLen f.rest = false ∧ pool = false)) :
    ¬Delivers a.demux f.toPesCut pool f.unit.Carried := by
  have hblocks := holdAll_holdingAll codeBehind f.small
  obtain ⟨e, he, hsent⟩ := (dealStep_holdingAll (Env.ofPool pool) a.status hheader codeBehind).2 hid
  have hlen : e.info.length = 4 + f.unit.bytes.length := by rw [he.length, PesCut.esLen, f.nal_eq]
  cases hrest : f.rest with
  | nil =>
    rw [hrest] at hfront
    exact absurd hfront (by decide)
  | cons front later =>
    rw [hrest] at hfront hbad
    rw [List.headD_cons] at hfront hbad
    rw [List.tail_cons] at hbad
    have hflat := f.flatten_rest hrest (by omega)
    rw [f.nal_eq] at hflat
    obtain ⟨b, bs, hlist, hb, -⟩ := hblocks.skipBytes hrest (by omega)
    obtain ⟨c, k, later', -, -, hlater, -, hbs, hskip⟩ := skipBytes_holdingAll f.small hlist
    obtain ⟨-, rfl⟩ := List.cons.inj (hrest.symm.trans hskip)
    obtain ⟨new, hnew, hnot⟩ := not_carried_front (Env.ofPool pool) (he.list.trans hlist) hb hbs
      hlater hfront hflat hlen (he.videoPayload.trans a.videoPayload)
      (he.payload.trans a.videoPayload)
      (by rw [he.length, poolHas_ofPool]; exact hbad)
    exact not_delivers new (poolHas_ofPool pool _) hblocks (by rw [hsent, hnew, he.sent]) hnot

end Both

/-- For every NAL unit and every way to cut its PES packet: the packets that are sent for it carry it,
whatever the buffers hold, exactly when it is cut as `Arrives` says. -/
theorem delivers_iff (a : AtH264) (f : H264Cut) (pool : Bool) :
    Delivers a.demux f.toPesCut pool f.unit.Carried ↔ Arrives f.toPesCut pool := by
  refine ⟨fun h => ?_, Arrives.delivers a.status a.videoPayload f.nal_eq⟩
  have hheader : 9 ≤ (f.pieces.headD []).length := by
    by_contra hnot
    exact not_delivers_header a.status hnot (fun hc => hc.ne_nil rfl) h
  have hid : f.streamId = videoStreamId := by
    by_contra hnot
    exact not_delivers_streamId a.status hheader hnot (fun hc => hc.ne_nil rfl) h
  have hfront : 5 ≤ (f.rest.headD []).length := by
    by_contra hnot
    exact not_delivers_front a f hheader hid hnot h
  have hgood : ¬(noCode (f.esLen - (f.rest.headD []).length) f.rest.tail = false ∨
      (endsAt f.esLen f.rest = false ∧ pool = false)) := fun hbad =>
    not_delivers_code a f hheader hid hfront hbad h
  rw [not_or, Bool.not_eq_false, not_and, Bool.not_eq_false] at hgood
  refine ⟨hheader, hid, hfront, hgood.1, ?_⟩
  cases hends : endsAt f.esLen f.rest with
  | true => exact .inl rfl
  | false => exact .inr (hgood.2 hends)

/-! ## A start code that is cut -/

/-- A NAL unit whose start code is cut in two. -/
def cutInCode : H264Cut where
  streamId := 0xE0
  flag1 := 0x80
  flag2 := 0
  hdr := []
  nal := [0x65, 0x88, 0x84]
  post := []
  pieces := [[0, 0, 1, 0xE0, 0, 10, 0x80, 0, 0, 0, 0], [0, 1, 0x65, 0x88, 0x84]]
  video := by decide
  hdr_le := by decide
  fits := by decide
  cut := by decide
  small := by decide
  unit := ⟨0x65, [0x88, 0x84], by decide⟩
  nal_eq := rfl

/-- The demultiplexer in front of a PES packet. -/
def atPes : AtH264 := ⟨{ init with status := .pesPacket }, rfl, rfl⟩

/-- It is sent in fragments of type 0 that begin with the start code. -/
theorem not_delivers_cutInCode :
    payloads ({ atPes.demux with list := holdingAll (fun _ => []) cutInCode.pieces }.dealStep
        Env.zero).sent = [[28, 128, 0, 0], [28, 64, 0, 1, 0x65, 0x88, 0x84]] ∧
      ¬Delivers atPes.demux cutInCode.toPesCut true cutInCode.unit.Carried :=
  ⟨by decide, not_delivers_front atPes cutInCode (by decide) rfl (by decide)⟩

end Demux

end AllCamera
