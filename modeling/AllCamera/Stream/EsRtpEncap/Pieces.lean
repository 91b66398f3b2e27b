import AllCamera.Lib.ByteStream
import AllCamera.Stream.EsRtpEncap

/-!
# The pieces of a byte stream

* `Sends`: what is handed over for a piece. A piece that is sent in fragments begins with two packets that start a
  NAL unit, as the start bit is never cleared.
* `handleVideoEsStream_sends`: `handleVideoEsStream` does so, from the begin of the start code on.
* `handleVideoMulNaluStream_sends`: the whole byte stream is cut into `streamPieces`, and these are sent.
-/

namespace AllCamera.EsRtpEncap

open Nal (typeOf startBit fuA)
open PsRtpEncap (Headed)
open RtpPacket (Head)
open StartCode (h264FindStartcode)
open Run

/-- A payload with a fragment that starts a NAL unit. -/
def IsStart (payload : List UInt8) : Prop :=
  ∃ ind fu rest, payload = ind :: fu :: rest ∧ typeOf ind = fuA ∧ startBit fu = true

/-- What is handed over for a piece. -/
structure Sends (unTimestamp : UInt32) (bufEnd : Int) (e : EsRtpEncap) (piece : List UInt8) (out : List (List UInt8))
    (e' : EsRtpEncap) : Prop where
  handed : e'.handed = e.handed ++ out
  single : count piece.length ≤ 1 →
    out = [PsRtpEncap.Packet.bytes ⟨⟨99, true, e.usVideoRtpSeq, unTimestamp, 999999999⟩, piece⟩] ∧
      e'.usVideoRtpSeq = e.usVideoRtpSeq + 1 ∧
      ∃ q, e'.copied = e.copied ++ [(q, piece.length)] ∧ 0 ≤ q ∧ q + piece.length ≤ bufEnd
  fragments : 1 < count piece.length → ∃ first second rest,
    out = PsRtpEncap.Packet.bytes first :: PsRtpEncap.Packet.bytes second :: rest ∧
      IsStart first.payload ∧ IsStart second.payload

/-! ## Packets -/

variable {b : Memory} {h : Head} {e : EsRtpEncap} (m : Memory)

theorem headed_stampVideo (hb : Headed b h) (usSeq : UInt16) (unTimestamp : UInt32) (marker : Bool) :
    Headed (stampVideo b usSeq unTimestamp marker) ⟨99, marker, usSeq, unTimestamp, 999999999⟩ :=
  ((((hb.setPayloadType 99).setSeqNum usSeq).setTimeStamp unTimestamp).setSSRC 999999999).setMarker marker

/-- The setters write to the fixed header only. -/
theorem stampVideo_of_le {i : Int} (hi : (headSize : Nat) ≤ i) (usSeq : UInt16) (unTimestamp : UInt32)
    (marker : Bool) : stampVideo b usSeq unTimestamp marker i = b i := by
  have hkeep : ∀ (m : Memory) (p : Int) (l : List UInt8), p + l.length ≤ (headSize : Nat) → m.write p l i = m i :=
    fun m p l hl => Memory.write_of_ge (by omega)
  simp only [stampVideo, RtpPacket.setPayloadType, RtpPacket.setSeqNum, RtpPacket.setTimeStamp, RtpPacket.setSSRC,
    RtpPacket.setMarker]
  iterate 5 rw [hkeep _ _ _ (by simp [headSize, be16Bytes, be32Bytes])]

theorem sendSingle_spec (he : Headed e.rtpBuffer h) (pos : Int) (n : Nat) (unTimestamp : UInt32) :
    (e.sendSingle m pos n unTimestamp).handed = e.handed ++
      [PsRtpEncap.Packet.bytes ⟨⟨99, true, e.usVideoRtpSeq, unTimestamp, 999999999⟩, m.read pos n⟩] := by
  have hread := (headed_stampVideo he e.usVideoRtpSeq unTimestamp true).read_payload (m.read pos n)
  rw [Memory.length_read, Nat.add_comm] at hread
  exact congrArg (fun bytes => e.handed ++ [bytes]) hread

/-- The buffer begins with a header, an indicator and a fragmentation header. -/
structure FuHeaded (b : Memory) (h : Head) (ind fu : UInt8) : Prop where
  head : Headed b h
  ind_eq : b (headSize : Nat) = ind
  fu_eq : b (headSize + 1 : Nat) = fu

theorem FuHeaded.write {ind fu : UInt8} (hb : FuHeaded b h ind fu) (l : List UInt8) :
    FuHeaded (b.write (headSize + 2 : Nat) l) h ind fu ∧
      (b.write (headSize + 2 : Nat) l).read 0 (l.length + (headSize + 2)) = h.bytes ++ ind :: fu :: l := by
  have hkeep : ∀ i : Nat, i < headSize + 2 → b.write (headSize + 2 : Nat) l i = b i :=
    fun i hi => Memory.write_of_lt (by omega)
  have hnew : FuHeaded (b.write (headSize + 2 : Nat) l) h ind fu := by
    refine ⟨(Memory.read_write_of_disjoint (.inl (by decide))).trans hb.head, ?_, ?_⟩
    · rw [hkeep _ (by omega), hb.ind_eq]
    · rw [hkeep _ (by omega), hb.fu_eq]
  refine ⟨hnew, ?_⟩
  have hhead : (b.write (headSize + 2 : Nat) l).read 0 headSize = h.bytes := hnew.head
  have htwo : (b.write (headSize + 2 : Nat) l).read headSize 2 = [ind, fu] := by
    rw [Memory.read_succ, Memory.read_succ, Memory.read_zero, hnew.ind_eq]
    exact congrArg (fun x => [ind, x]) hnew.fu_eq
  rw [show l.length + (headSize + 2) = headSize + 2 + l.length by omega, Memory.read_add, Memory.read_add, hhead,
    Int.zero_add, Int.zero_add, htwo, Memory.read_write, List.append_assoc]
  rfl

/-- `pFu` and `pHead` in front of the loop. -/
theorem fuHeaded_startFragments (hb : Headed b h) (nalHead : UInt8) : ∃ ind fu,
    FuHeaded (startFragments b nalHead) h ind fu ∧ typeOf ind = fuA := by
  refine ⟨.ofNat (nalHead.toNat / 32 * 32 + fuA), _, ⟨?_, ?_, rfl⟩, ?_⟩
  · exact (Memory.read_write_of_disjoint (.inl (by decide))).trans
      ((Memory.read_write_of_disjoint (.inl (by decide))).trans hb)
  · unfold startFragments
    rw [Memory.write_of_lt (by decide)]
    exact Memory.write_at (k := 0) Nat.one_pos
  · simp only [typeOf, fuA, UInt8.toNat_ofNat']
    omega

/-- The bits that are set keep the start bit, and the first pass sets it. -/
theorem fuHeaded_setFuBits {ind fu : UInt8} (hb : FuHeaded b h ind fu) (i unCount : Nat)
    (hstart : i = 0 ∨ startBit fu = true) :
    ∃ fu', FuHeaded (setFuBits b i unCount) h ind fu' ∧ startBit fu' = true := by
  have hset : ∀ x : UInt8, FuHeaded (b.write (headSize + 1 : Nat) [x]) h ind x := by
    intro x
    refine ⟨(Memory.read_write_of_disjoint (.inl (by decide))).trans hb.head, ?_, ?_⟩
    · rw [Memory.write_of_lt (by decide), hb.ind_eq]
    · exact Memory.write_at (k := 0) Nat.one_pos
  have hfu := fu.toNat_lt
  unfold setFuBits
  rw [hb.fu_eq]
  dsimp only
  split_ifs with h0 hlast
  · refine ⟨_, hset _, ?_⟩
    simp only [startBit, UInt8.toNat_ofNat', beq_iff_eq]
    omega
  · refine ⟨_, hset _, ?_⟩
    have hbit := hstart.resolve_left h0
    simp only [startBit, UInt8.toNat_ofNat', beq_iff_eq] at hbit ⊢
    omega
  · exact ⟨fu, hb, hstart.resolve_left h0⟩

/-- A pass of the loop hands over a packet that starts a NAL unit, in the first pass and in all that follow. -/
theorem sendFragment_spec {ind fu : UInt8} (he : FuHeaded e.rtpBuffer h ind fu) (hind : typeOf ind = fuA)
    (pos : Int) (n unCount i : Nat) (unTimestamp : UInt32) (hstart : i = 0 ∨ startBit fu = true) :
    ∃ packet fu', (e.sendFragment m pos n unCount i unTimestamp).handed = e.handed ++ [PsRtpEncap.Packet.bytes packet] ∧
      IsStart packet.payload ∧ startBit fu' = true ∧
      FuHeaded (e.sendFragment m pos n unCount i unTimestamp).rtpBuffer packet.head ind fu' := by
  have hstamped : FuHeaded (stampVideo e.rtpBuffer e.usVideoRtpSeq unTimestamp
      (n ≤ maxEncapRtpSize - (headSize + 2))) _ ind fu :=
    ⟨headed_stampVideo he.head _ _ _, (stampVideo_of_le (Int.le_refl _) _ _ _).trans he.ind_eq,
      (stampVideo_of_le (by decide) _ _ _).trans he.fu_eq⟩
  obtain ⟨fu', hbits, hstart'⟩ := fuHeaded_setFuBits hstamped i unCount hstart
  obtain ⟨hnew, hread⟩ := hbits.write (m.read pos (copySize n))
  rw [Memory.length_read] at hread
  refine ⟨⟨_, ind :: fu' :: m.read pos (copySize n)⟩, fu', ?_, ⟨ind, fu', _, rfl, hind, hstart'⟩, hstart', hnew⟩
  exact congrArg (fun bytes => e.handed ++ [bytes]) hread

/-- The loop only adds packets. -/
theorem fuLoop_handed (e : EsRtpEncap) (pos : Int) (n unCount : Nat) (unTimestamp : UInt32) (i : Nat) :
    ∃ rest, (e.fuLoop m pos n unCount unTimestamp i).handed = e.handed ++ rest := by
  fun_induction fuLoop e m pos n unCount unTimestamp i with
  | case1 e pos n i hi ih =>
    obtain ⟨rest, hrest⟩ := ih
    exact ⟨_, hrest.trans (List.append_assoc ..)⟩
  | case2 e pos n i hi => exact ⟨[], (List.append_nil _).symm⟩

/-- The first two packets of the loop. -/
theorem fuLoop_spec {ind fu : UInt8} (he : FuHeaded e.rtpBuffer h ind fu) (hind : typeOf ind = fuA) (pos : Int)
    (n : Nat) {unCount : Nat} (hcount : 1 < unCount) (unTimestamp : UInt32) : ∃ first second rest,
    (e.fuLoop m pos n unCount unTimestamp 0).handed =
        e.handed ++ (PsRtpEncap.Packet.bytes first :: PsRtpEncap.Packet.bytes second :: rest) ∧
      IsStart first.payload ∧ IsStart second.payload := by
  obtain ⟨first, fu₁, hfirst, hstart₁, hbit, he₁⟩ := sendFragment_spec m he hind pos n unCount 0 unTimestamp (.inl rfl)
  rw [fuLoop, if_pos (by omega)]
  generalize e.sendFragment m pos n unCount 0 unTimestamp = e₁ at hfirst he₁
  obtain ⟨second, fu₂, hsecond, hstart₂, -, -⟩ := sendFragment_spec m he₁ hind (pos + copySize n) (n - copySize n)
    unCount 1 unTimestamp (.inr hbit)
  rw [fuLoop, if_pos (by omega)]
  obtain ⟨rest, hrest⟩ := fuLoop_handed m (e₁.sendFragment m (pos + copySize n) (n - copySize n) unCount 1 unTimestamp)
    (pos + copySize n + copySize (n - copySize n)) (n - copySize n - copySize (n - copySize n)) unCount unTimestamp 2
  refine ⟨first, second, rest, hrest.trans ?_, hstart₁, hstart₂⟩
  rw [hsecond, hfirst, List.append_assoc, List.append_assoc]
  rfl

/-! ## A piece -/

/-- The loop over the zeros ends behind the first other byte. -/
theorem skipZeros_eq {p : Int} {k n : Nat} {x : UInt8} {t : List UInt8}
    (hread : m.read p n = List.replicate k 0 ++ x :: t) (hx : x ≠ 0) : skipZeros m p n = p + k + 1 := by
  induction n generalizing p k with
  | zero =>
    have hlen := congrArg List.length hread
    simp at hlen
  | succ n ih =>
    rw [Memory.read_succ] at hread
    cases k with
    | zero =>
      have hhead : m p = x := (List.cons.inj hread).1
      rw [skipZeros, if_pos (hhead ▸ hx)]
      omega
    | succ k =>
      obtain ⟨hzero, htail⟩ := List.cons.inj hread
      rw [skipZeros, if_neg (not_not_intro hzero), ih htail]
      omega

/-- A text that begins with a start code: where the search ends, and where the code ends. -/
structure CodeText (align : Nat) (m : Memory) (p : Int) (size c : Nat) (piece : List UInt8) : Prop where
  find_eq : h264FindStartcode align m p (p + size) = p
  skip_eq : skipZeros m p size = p + (c + 3 : Nat)
  size_eq : size = c + 3 + piece.length
  piece_eq : m.read (p + (c + 3 : Nat)) piece.length = piece

theorem codeText (align : Nat) {p : Int} {size c : Nat} {piece : List UInt8}
    (hread : m.read p size = List.replicate c 0 ++ ([0, 0, 1] ++ piece)) (hc : c ≤ 1) (hne : piece ≠ []) :
    CodeText align m p size c piece := by
  have hsize : size = c + 3 + piece.length := by
    have hlen := congrArg List.length hread
    simp only [Memory.length_read, List.length_append, List.length_replicate, List.length_cons, List.length_nil] at hlen
    omega
  obtain ⟨x, t, hpiece⟩ := List.exists_cons_of_ne_nil hne
  have hfirst : StartCode.FirstCode m p (p + size) (p + c) := by
    have hnone : ¬ [0, 0, 1] <:+: List.replicate c (0 : UInt8) ++ [0, 0] := by
      rw [show ([0, 0] : List UInt8) = List.replicate 2 0 from rfl, List.replicate_append_replicate]
      intro hfound
      exact absurd (List.eq_of_mem_replicate (hfound.subset (show (1 : UInt8) ∈ [0, 0, 1] by decide))) (by decide)
    have hcode := StartCode.firstCode_of_read (hpiece ▸ hread) hnone
    rwa [List.length_replicate] at hcode
  refine ⟨?_, ?_, hsize, ?_⟩
  · -- the zero in front of the start code is the begin of the text
    rw [StartCode.find_of_firstCode align hfirst]
    obtain rfl | rfl : c = 0 ∨ c = 1 := by omega
    · rw [if_neg (by omega)]
      omega
    · have hzero : m p = 0 := by
        rw [show size = size - 1 + 1 by omega, Memory.read_succ] at hread
        exact (List.cons.inj hread).1
      rw [if_pos ⟨by omega, by rwa [Int.natCast_one, Int.add_sub_cancel]⟩]
      omega
  · have hzeros : m.read p size = List.replicate (c + 2) 0 ++ 1 :: piece := by
      rw [hread, ← List.replicate_append_replicate, List.append_assoc]
      rfl
    rw [skipZeros_eq m hzeros (by decide)]
    omega
  · rw [hsize, Memory.read_add] at hread
    have hlen : (m.read p (c + 3)).length = (List.replicate c (0 : UInt8) ++ [0, 0, 1]).length := by
      rw [Memory.length_read, List.length_append, List.length_replicate]
      rfl
    rw [← List.append_assoc] at hread
    exact (List.append_inj hread hlen).2

/-- `handleVideoEsStream` sends what is behind the start code. -/
theorem handleVideoEsStream_sends (e : EsRtpEncap) (align : Nat) {p bufEnd : Int} {size c : Nat} {piece : List UInt8}
    (hread : m.read p size = List.replicate c 0 ++ ([0, 0, 1] ++ piece)) (hc : c ≤ 1) (hne : piece ≠ []) (hp : 0 ≤ p)
    (hend : p + size ≤ bufEnd) (unTimestamp : UInt32) : ∃ out,
    Sends unTimestamp bufEnd e piece out
      (e.handleVideoEsStream align m p size unTimestamp videoStreamTypeH264) := by
  obtain ⟨hfind, hskip, hsize, hpiece⟩ := codeText m align hread hc hne
  have hlen : size - (p + (c + 3 : Nat) - p).toNat = piece.length := by omega
  unfold handleVideoEsStream
  rw [if_neg (by omega), if_neg (not_not_intro rfl)]
  dsimp only
  rw [hfind, if_neg (by omega), hskip, hlen]
  have hhead := PsRtpEncap.headed_generatePacket e.rtpBuffer
  split_ifs with hcount
  · obtain ⟨ind, fu, hfu, hind⟩ := fuHeaded_startFragments hhead (m (p + (c + 3 : Nat)))
    let b := startFragments (RtpPacket.generatePacket e.rtpBuffer 0 MsgBlock.blockSize) (m (p + (c + 3 : Nat)))
    let e₁ : EsRtpEncap := { e with rtpBuffer := b }
    obtain ⟨first, second, rest, hhanded, hstart⟩ := fuLoop_spec m (e := e₁) hfu hind (p + (c + 3 : Nat) + 1)
      piece.length hcount unTimestamp
    exact ⟨_, hhanded, fun hle => by omega, fun _ => ⟨first, second, rest, rfl, hstart⟩⟩
  · let e₁ : EsRtpEncap := { e with rtpBuffer := RtpPacket.generatePacket e.rtpBuffer 0 MsgBlock.blockSize }
    have hhanded := sendSingle_spec m (e := e₁) hhead (p + (c + 3 : Nat)) piece.length unTimestamp
    rw [hpiece] at hhanded
    exact ⟨_, hhanded, fun _ => ⟨rfl, rfl, _, rfl, by omega, by omega⟩, fun hlt => absurd hlt hcount⟩

/-! ## The byte stream -/

/-- A text in two parts. -/
theorem read_behind {p : Int} {n : Nat} {l t : List UInt8} (h : m.read p n = l ++ t) :
    l.length ≤ n ∧ m.read p l.length = l ∧ m.read (p + l.length) (n - l.length) = t := by
  have hlen := congrArg List.length h
  rw [Memory.length_read, List.length_append] at hlen
  rw [show n = l.length + (n - l.length) by omega, Memory.read_add] at h
  obtain ⟨hfront, hbehind⟩ := List.append_inj h (Memory.length_read ..)
  exact ⟨by omega, hfront, hbehind⟩

/-- The byte behind a text. -/
theorem byte_behind {p : Int} {n : Nat} {l t : List UInt8} {x : UInt8} (h : m.read p n = l ++ x :: t) :
    m (p + l.length) = x := by
  obtain ⟨-, -, hbehind⟩ := read_behind m h
  cases hn : n - l.length with
  | zero =>
    rw [hn] at hbehind
    cases hbehind
  | succ k =>
    rw [hn, Memory.read_succ] at hbehind
    exact (List.cons.inj hbehind).1

/-- The search finds the next start code, with a zero in front of it if there is one. -/
theorem find_next (align : Nat) {p : Int} {n z : Nat} {l t : List UInt8} {x : UInt8} (hl : ¬ [0, 0, 1] <:+: l)
    (hlast : ∀ hne : l ≠ [], l.getLast hne ≠ 0)
    (hread : m.read p n = l ++ (List.replicate z 0 ++ ([0, 0, 1] ++ x :: t))) :
    h264FindStartcode align m p (p + n) = p + (l.length + (z - 1) : Nat) := by
  have hfirst : StartCode.FirstCode m p (p + n) (p + (l.length + z : Nat)) := by
    have hnone : ¬ [0, 0, 1] <:+: l ++ List.replicate z 0 ++ [0, 0] := by
      rw [List.append_assoc, show ([0, 0] : List UInt8) = List.replicate 2 0 from rfl,
        List.replicate_append_replicate]
      exact not_infix_zeros hl _
    rw [← List.append_assoc] at hread
    have hcode := StartCode.firstCode_of_read hread hnone
    rwa [List.length_append, List.length_replicate] at hcode
  rw [StartCode.find_of_firstCode align hfirst]
  cases z with
  | zero =>
    refine if_neg ?_
    -- the byte in front is the last one of the text, if there is one
    rintro ⟨hlt, hzero⟩
    have hne : l ≠ [] := fun h => by
      rw [h] at hlt
      simp at hlt
    refine hlast hne ?_
    rw [← List.dropLast_append_getLast hne, List.append_assoc] at hread
    have hbyte := byte_behind m hread
    have hpos := List.length_pos_of_ne_nil hne
    rw [List.length_dropLast] at hbyte
    rw [← hbyte, ← hzero]
    congr 1
    omega
  | succ z =>
    have hzero : m (p + (l.length + z : Nat)) = 0 := by
      rw [List.replicate_succ', List.append_assoc, ← List.append_assoc] at hread
      have hbyte := byte_behind m hread
      rwa [List.length_append, List.length_replicate] at hbyte
    rw [if_pos ⟨by omega, by rw [← hzero]; congr 1; omega⟩]
    omega

/-- Behind the last start code nothing is found. -/
theorem find_last (align : Nat) {p : Int} {n t : Nat} {l : List UInt8} (hl : ¬ [0, 0, 1] <:+: l)
    (hread : m.read p n = l ++ List.replicate t 0) : h264FindStartcode align m p (p + n) = p + n :=
  StartCode.find_of_none align (StartCode.none_of_read (hread ▸ not_infix_zeros hl t))

/-- The text from where the search for the next start code begins. -/
theorem read_skip {p : Int} {n c : Nat} {nal t : List UInt8}
    (hread : m.read p n = List.replicate c 0 ++ ([0, 0, 1] ++ (nal ++ t))) (hc : c ≤ 1) (hne : nal ≠ []) :
    4 ≤ n ∧ m.read (p + startcodeLen) (n - startcodeLen) = nal.drop (1 - c) ++ t := by
  obtain ⟨x, rest, rfl⟩ := List.exists_cons_of_ne_nil hne
  have hlen := congrArg List.length hread
  simp only [Memory.length_read, List.length_append, List.length_replicate, List.length_cons, List.length_nil] at hlen
  refine ⟨by omega, ?_⟩
  rw [← Memory.drop_read, hread]
  obtain rfl | rfl : c = 0 ∨ c = 1 := by omega
  · rfl
  · rfl

/-- The loop sends the pieces, from the begin of a start code on. -/
theorem nalLoop_sends (e : EsRtpEncap) (align : Nat) {c n t : Nat} {p bufEnd : Int} {nal : List UInt8}
    {us : List (Nat × List UInt8)} (hunits : ∀ u ∈ (c, nal) :: us, IsStreamUnit u.2)
    (hread : m.read p n = byteStream ((c, nal) :: us) t) (hc : c ≤ 1) (hp : 0 ≤ p) (hend : p + n = bufEnd)
    (unTimestamp : UInt32) : ∃ out,
    Trace (Sends unTimestamp bufEnd) e (streamPieces ((c, nal) :: us) t) out
      (e.nalLoop align m p bufEnd unTimestamp videoStreamTypeH264) := by
  induction us generalizing e c n p nal with
  | nil =>
    have hnal : IsStreamUnit nal := hunits (c, nal) List.mem_cons_self
    obtain ⟨hfour, hskip⟩ := read_skip m hread hc hnal.ne_nil
    have hfind := find_last m align (hnal.drop (1 - c)).1 hskip
    have hstop : p + startcodeLen + (n - startcodeLen : Nat) = bufEnd := by
      simp only [startcodeLen]
      omega
    rw [hstop] at hfind
    rw [nalLoop, hfind, if_neg (Int.lt_irrefl _), show (bufEnd - p).toNat = n by omega]
    obtain ⟨out, hout⟩ := handleVideoEsStream_sends m e align hread hc
      (List.append_ne_nil_of_left_ne_nil hnal.ne_nil _) hp (Int.le_of_eq hend) unTimestamp
    exact ⟨out, .singleton hout⟩
  | cons u us ih =>
    obtain ⟨z, nal'⟩ := u
    obtain ⟨hnal, htail⟩ := List.forall_mem_cons.mp hunits
    change IsStreamUnit nal at hnal
    have hnal' : IsStreamUnit nal' := htail (z, nal') List.mem_cons_self
    -- the piece, and the text behind it
    have hsplit : byteStream ((c, nal) :: (z, nal') :: us) t =
        List.replicate c 0 ++ ([0, 0, 1] ++ (nal ++ List.replicate (z - 1) 0)) ++
          byteStream ((min z 1, nal') :: us) t := by
      rw [byteStream, byteStream_split]
      simp only [List.append_assoc]
    obtain ⟨hle, hpiece, hbehind⟩ := read_behind m (hread.trans hsplit)
    generalize hk : (List.replicate c (0 : UInt8) ++ ([0, 0, 1] ++ (nal ++ List.replicate (z - 1) 0))).length = k at *
    have hlen : k = c + 3 + nal.length + (z - 1) := by
      rw [← hk]
      simp only [List.length_append, List.length_replicate, List.length_cons, List.length_nil]
      omega
    have hfind : h264FindStartcode align m (p + startcodeLen) bufEnd = p + k := by
      obtain ⟨hfour, hskip⟩ := read_skip m hread hc hnal.ne_nil
      obtain ⟨x, rest, hx⟩ := List.exists_cons_of_ne_nil hnal'.ne_nil
      rw [byteStream, hx, List.cons_append] at hskip
      have hnext := find_next m align (hnal.drop (1 - c)).1 (hnal.drop (1 - c)).2 hskip
      have hpos := List.length_pos_of_ne_nil hnal.ne_nil
      have hstop : p + startcodeLen + (n - startcodeLen : Nat) = bufEnd := by
        simp only [startcodeLen]
        omega
      rw [hstop, List.length_drop] at hnext
      rw [hnext, hlen]
      simp only [startcodeLen]
      omega
    have hlt : p + k < bufEnd := by
      have hpos : 0 < (m.read (p + k) (n - k)).length := by
        rw [hbehind, byteStream]
        exact List.length_pos_of_ne_nil (List.append_ne_nil_of_right_ne_nil _ (List.cons_ne_nil _ _))
      rw [Memory.length_read] at hpos
      omega
    rw [nalLoop, hfind, if_pos hlt, show (p + k - p).toNat = k by omega]
    obtain ⟨out, hout⟩ := handleVideoEsStream_sends m e align hpiece hc
      (List.append_ne_nil_of_left_ne_nil hnal.ne_nil _) hp (Int.le_of_lt hlt) unTimestamp
    obtain ⟨outs, houts⟩ := ih (e.handleVideoEsStream align m p k unTimestamp videoStreamTypeH264)
      (List.forall_mem_cons.mpr ⟨hnal', (List.forall_mem_cons.mp htail).2⟩) hbehind (Nat.min_le_right z 1) (by omega)
      (by omega)
    rw [streamPieces_cons _ z] at houts
    exact ⟨out ++ outs, .cons hout houts⟩

/-- `handleVideoMulNaluStream` sends the pieces of a byte stream. -/
theorem handleVideoMulNaluStream_sends (e : EsRtpEncap) (align : Nat) {units : List (Nat × List UInt8)} {t : Nat}
    (hne : units ≠ []) (hunits : ∀ u ∈ units, IsStreamUnit u.2) {unDataSize : UInt32}
    (hread : m.read 0 unDataSize.toNat = byteStream units t) (unTimestamp : UInt32) : ∃ out,
    Trace (Sends unTimestamp unDataSize.toNat) e (streamPieces units t) out
      (e.handleVideoMulNaluStream align m unDataSize unTimestamp videoStreamTypeH264) := by
  obtain ⟨⟨z, nal⟩, us, rfl⟩ := List.exists_cons_of_ne_nil hne
  have hnal : IsStreamUnit nal := hunits (z, nal) List.mem_cons_self
  obtain ⟨x, rest, hx⟩ := List.exists_cons_of_ne_nil hnal.ne_nil
  have hstart : h264FindStartcode align m 0 unDataSize.toNat = (z - 1 : Nat) := by
    have hcode : m.read 0 unDataSize.toNat =
        [] ++ (List.replicate z 0 ++ ([0, 0, 1] ++ x :: (rest ++ byteStream us t))) := by
      rw [hread, byteStream, hx]
      rfl
    have hnext := find_next m align (by decide) (fun hne => absurd rfl hne) hcode
    rw [Int.zero_add, Int.zero_add, List.length_nil, Nat.zero_add] at hnext
    exact hnext
  obtain ⟨hle, -, hbehind⟩ := read_behind m (hread.trans (byteStream_split z nal us t))
  rw [List.length_replicate, Int.zero_add] at hbehind
  rw [List.length_replicate] at hle
  have hlt : ((z - 1 : Nat) : Int) < unDataSize.toNat := by
    have hpos : 0 < (m.read (z - 1 : Nat) (unDataSize.toNat - (z - 1))).length := by
      rw [hbehind, byteStream]
      exact List.length_pos_of_ne_nil (List.append_ne_nil_of_right_ne_nil _ (List.cons_ne_nil _ _))
    rw [Memory.length_read] at hpos
    omega
  obtain ⟨out, hout⟩ := nalLoop_sends m e align (List.forall_mem_cons.mpr ⟨hnal, (List.forall_mem_cons.mp
    hunits).2⟩) hbehind (Nat.min_le_right z 1) (Int.natCast_nonneg _) (show _ = (unDataSize.toNat : Int) by omega)
    unTimestamp
  rw [streamPieces_cons _ z] at hout
  rw [handleVideoMulNaluStream, hstart, if_neg (not_le.mpr hlt)]
  exact ⟨out, hout⟩

end AllCamera.EsRtpEncap
