import AllCamera.Stream.PsDemux.Termination

/-!
# When the demultiplexer stays inside its blocks

The handlers read header fields without looking at the block's length, skip a header over at most
two blocks, and take header lengths and start codes off the declared length of an elementary stream
unchecked. `turnFits` says, for the state before a turn, that the turn does none of this out of
bounds.

* `Safe d`: no fault so far, and every block's read pointer is at or below its write pointer.
* `dealStep_safe`: a turn with `turnFits` keeps `Safe`.
* `ReachFits.safe`: so does every run whose turns all have it.
-/

namespace AllCamera

/-! ## Blocks that fit -/

theorem scan_of_eq (pat : List UInt8) : scan pat pat = pat.length := by
  induction pat with
  | nil => rfl
  | cons p ps ih => simp [scan, ih]

namespace MsgBlock

variable {b : MsgBlock} {n : Nat}

theorem scanned_of_startsWith {pat : List UInt8} (h : b.startsWith pat = true) :
    b.scanned pat = pat.length := by
  rw [scanned, beq_iff_eq.mp h, scan_of_eq]

/-- The search for a start code ends inside the block. -/
def codeFits (b : MsgBlock) : Bool := b.scanned startCode ≤ b.length

theorem codeFits.four_le (h : b.codeFits = true) (hc : b.startsWith startCode = true) :
    4 ≤ b.length := by
  have := scanned_of_startsWith hc
  unfold codeFits at h
  rw [decide_eq_true_iff, this] at h
  exact h

/-- Looking for a start code, and going behind it, in a block that is long enough. -/
theorem Inside.behindCode (h : b.Inside) (hc : b.codeFits = true)
    (hn : b.startsWith startCode = true → n ≤ b.length) :
    (b.behindCode n).Inside ∧ (4 ≤ n → b.codeFaults n = []) := by
  have hscan : b.scanned startCode ≤ b.length := by simpa [codeFits] using hc
  have hin : (b.behindCode n).Inside := by
    unfold MsgBlock.behindCode
    split
    · rename_i hs
      exact h.advance (hn hs)
    · exact h
  refine ⟨hin, fun h4 => ?_⟩
  unfold codeFaults
  rw [h.readFaults hscan, hin.orderFaults]
  split
  · rename_i hs
    rw [h.readFaults (by have := hn hs.1; omega)]
    rfl
  · rfl

/-! Blocks that are sent. -/

theorem stampFront_order (h : b.rd ≤ b.wr) (head : RtpPacket.Head) :
    (b.stampFront head).rd ≤ (b.stampFront head).wr := by
  simp only [stampFront, retreat]
  omega

theorem ofPool_order (buffer : Memory) (head : RtpPacket.Head) :
    (ofPool buffer head).rd ≤ (ofPool buffer head).wr := by
  simp [ofPool]

theorem append_order (h : b.rd ≤ b.wr) (cs : List UInt8) : (b.append cs).rd ≤ (b.append cs).wr := by
  simp only [append]
  omega

theorem copy_order (h : b.rd ≤ b.wr) (src : MsgBlock) (n : Nat) :
    (b.copy src n).rd ≤ (b.copy src n).wr := by
  unfold copy
  split
  · exact h
  · simp only
    omega

theorem fuBlock_order (h : b.rd ≤ b.wr) (nalu : UInt8) (s e : Bool) (head : RtpPacket.Head) :
    (Demux.fuBlock b nalu s e head).rd ≤ (Demux.fuBlock b nalu s e head).wr := by
  simp only [Demux.fuBlock, stampFront, retreat]
  omega

end MsgBlock

/-! ## What has to fit -/

/-- A header of `n` bytes ends in the front block or the next one (or the list ends before). -/
def headerFits (n : Nat) : List MsgBlock → Bool
  | b :: c :: _ => n < b.length ∨ n ≤ b.length + c.length
  | _ => true

/-- The fragments of an elementary stream of `n` bytes: every block is long enough for the start
code and NAL header it seems to begin with, and the last one for what is skipped with them. -/
def fuFits (pool : Bool) (n : Nat) : List MsgBlock → Bool
  | [] => true
  | b :: bs =>
    if n = 0 then true
    else if b.length ≤ n then
      b.codeFits && (!b.startsWith startCode || 5 ≤ b.length) && fuFits pool (n - b.length) bs
    else !pool || b.codeFits && (!b.startsWith startCode || n + 4 ≤ b.length)

/-- A video elementary stream of `n` bytes. -/
def videoFits (pool : Bool) (streamId : UInt8) (n : Nat) : List MsgBlock → Bool
  | [] => true
  | b :: bs =>
    if b.length < n then fuFits pool n (b :: bs)
    else if n = b.length then b.codeFits
    else !pool || streamId != videoStreamId || b.codeFits && (!b.startsWith startCode || 4 ≤ n)

namespace Demux

variable (env : Env) {d : Demux} {b : MsgBlock} {bs l : List MsgBlock} {n : Nat}

/-- The pool has a block for the next request. -/
def poolHas (d : Demux) : Bool := (env.alloc d.allocs).isSome

theorem poolHas_congr {e : Demux} (h : e.allocs = d.allocs) : e.poolHas env = d.poolHas env := by
  rw [poolHas, poolHas, h]

/-- The next turn reads, moves and subtracts in bounds. -/
def turnFits (d : Demux) : Bool :=
  match d.list with
  | [] => true
  | b :: bs =>
    match d.status with
    | .pesPacket =>
      if b.startsWith [0, 0, 1] ∧ 9 ≤ b.length32 then
        let n := 9 + (b.byte 8).toNat
        3 + (b.byte 8).toNat ≤ b.be16At 4 && headerFits n (b :: bs) &&
          (b.byte 3 != videoStreamId ||
            videoFits (d.poolHas env) (b.byte 3) (esLength b) (skipBytes n (b :: bs)))
      else b.scanned [0, 0, 1] ≤ b.length
    | .foundData =>
      b.codeFits && (!b.startsWith startCode || 5 ≤ b.length &&
        (128 ≤ (b.byte 4).toNat || videoFits (d.poolHas env) d.info.streamId d.info.length (b :: bs)))
    | s =>
      headerReads b s ≤ b.length && (headerBytes b s).all fun n => headerFits n (b :: bs)

/-! ## The senders -/

/-- No fault so far, and every block, in the list or sent, has its read pointer at or below its
write pointer. -/
structure Safe (d : Demux) : Prop where
  faults : d.faults = []
  list : ∀ b ∈ d.list, b.Inside
  sent : ∀ b ∈ d.sent, b.rd ≤ b.wr

theorem sent_order {c : MsgBlock} (h : ∀ b ∈ d.sent, b.rd ≤ b.wr) (hc : c.rd ≤ c.wr) :
    ∀ b ∈ d.sent ++ [c], b.rd ≤ b.wr := by
  intro b hb
  rcases List.mem_append.mp hb with hb | hb
  · exact h b hb
  · obtain rfl := List.mem_singleton.mp hb
    exact hc

theorem inside_cons {c : MsgBlock} (h : ∀ x ∈ b :: bs, x.Inside) (hc : c.Inside) :
    ∀ x ∈ c :: bs, x.Inside := by
  intro x hx
  rcases List.mem_cons.mp hx with rfl | hx
  · exact hc
  · exact h x (List.mem_cons_of_mem _ hx)

/-- The last block of an elementary stream, left where the stream ends. -/
theorem leave_safe {c : MsgBlock} (hf : d.faults = []) (hs : ∀ x ∈ d.sent, x.rd ≤ x.wr)
    (h : ∀ x ∈ b :: bs, x.Inside) (hc : c.Inside) : Safe (d.leave c bs) := by
  refine ⟨?_, inside_cons h hc, hs⟩
  simp only [leave, log, hf, hc.orderFaults, List.append_nil]

theorem sendAudioBlocks_safe (hf : d.faults = []) (hs : ∀ b ∈ d.sent, b.rd ≤ b.wr)
    (hl : ∀ b ∈ l, b.Inside) : Safe (d.sendAudioBlocks env n l) := by
  induction l generalizing d n with
  | nil => exact ⟨hf, by simp [sendAudioBlocks], hs⟩
  | cons b bs ih =>
    have hb := hl b (by simp)
    simp only [sendAudioBlocks]
    split
    · exact ⟨hf, hl, hs⟩
    split
    · exact ih hf (sent_order hs (MsgBlock.stampFront_order hb.order _))
        fun x hx => hl x (List.mem_cons_of_mem _ hx)
    · have hin := hb.advance (n := n) (by omega)
      split
      · exact leave_safe hf hs hl hin
      · refine leave_safe ?_ ?_ hl hin
        · simp only [send, log, hf, hb.copyFaults (show n ≤ b.length by omega), List.append_nil]
        · exact sent_order hs (MsgBlock.copy_order (MsgBlock.ofPool_order _ _) _ _)

theorem skipBlocks_safe (hf : d.faults = []) (hs : ∀ b ∈ d.sent, b.rd ≤ b.wr)
    (hl : ∀ b ∈ l, b.Inside) : Safe (d.skipBlocks n l) := by
  induction l generalizing d n with
  | nil => exact ⟨hf, by simp [skipBlocks], hs⟩
  | cons b bs ih =>
    have hb := hl b (by simp)
    simp only [skipBlocks]
    split
    · exact ⟨hf, hl, hs⟩
    split
    · exact ih hf hs fun x hx => hl x (List.mem_cons_of_mem _ hx)
    · have hin := hb.advance (n := n) (by omega)
      refine ⟨?_, inside_cons hl hin, hs⟩
      simp only [log, hf, hin.orderFaults, List.append_nil]

theorem sendFuBlocks_safe {s : Bool} {nalu : UInt8} (hf : d.faults = [])
    (hs : ∀ b ∈ d.sent, b.rd ≤ b.wr) (hl : ∀ b ∈ l, b.Inside)
    (hfit : fuFits (d.poolHas env) n l = true) : Safe (d.sendFuBlocks env n s nalu l) := by
  induction l generalizing d n s nalu with
  | nil => exact ⟨hf, by simp [sendFuBlocks], hs⟩
  | cons b bs ih =>
    have hb := hl b (by simp)
    simp only [sendFuBlocks]
    split
    · exact ⟨hf, hl, hs⟩
    rename_i hn
    simp only [fuFits, if_neg hn] at hfit
    split
    · rename_i hle
      simp only [if_pos hle, Bool.and_eq_true, Bool.or_eq_true, Bool.not_eq_true',
        decide_eq_true_eq] at hfit
      obtain ⟨⟨hc, h5⟩, hrest⟩ := hfit
      obtain ⟨hin, hfaults⟩ := hb.behindCode (n := 5) hc fun hs => by simpa [hs] using h5
      refine ih ?_ (sent_order hs (MsgBlock.fuBlock_order hin.order _ _ _ _))
        (fun x hx => hl x (List.mem_cons_of_mem _ hx)) hrest
      simp only [send, log, hf, hfaults (by omega), List.append_nil]
    · rename_i hlt
      split
      · exact leave_safe hf hs hl (hb.advance (by omega))
      · rename_i buffer hpool
        simp only [if_neg hlt, poolHas, hpool, Option.isSome_some, Bool.not_true, Bool.false_or,
          Bool.and_eq_true, Bool.or_eq_true, Bool.not_eq_true', decide_eq_true_eq] at hfit
        obtain ⟨hc, h4⟩ := hfit
        obtain ⟨hin, hfaults⟩ := hb.behindCode (n := 5) hc fun hs => by
          have : n + 4 ≤ b.length := by simpa [hs] using h4
          omega
        have hlen : (if b.startsWith startCode = true then n - 1 else n) ≤ (b.behindCode 5).length := by
          unfold MsgBlock.behindCode
          split
          · rename_i hs
            have : n + 4 ≤ b.length := by simpa [hs] using h4
            rw [hb.length_advance (by omega)]
            omega
          · omega
        refine leave_safe ?_ (sent_order hs (MsgBlock.copy_order
          (MsgBlock.append_order (MsgBlock.ofPool_order _ _) _) _ _)) hl (hin.advance hlen)
        simp only [send, log, hf, hfaults (by omega), hin.copyFaults hlen, List.append_nil]

/-- `sendH264EsSigleNalu` for a stream that ends in the front block. -/
theorem sendH264EsSigleNalu_safe (h : Safe d) (hl : d.list = b :: bs) (hn : d.info.length < 2 ^ 32)
    (hle : d.info.length ≤ b.length)
    (hfit : videoFits (d.poolHas env) d.info.streamId d.info.length d.list = true) :
    Safe (d.sendH264EsSigleNalu env) := by
  have hall : ∀ x ∈ b :: bs, x.Inside := hl ▸ h.list
  have hb := hall b (by simp)
  rw [hl] at hfit
  simp only [videoFits, if_neg (show ¬ b.length < d.info.length by omega)] at hfit
  unfold sendH264EsSigleNalu
  rw [hl]
  simp only
  split
  · rename_i heq
    rw [if_pos heq] at hfit
    obtain ⟨hin, hfaults⟩ := hb.behindCode (n := 4) hfit fun hs => MsgBlock.codeFits.four_le hfit hs
    refine ⟨?_, fun x hx => hall x (List.mem_cons_of_mem _ hx),
      sent_order h.sent (MsgBlock.stampFront_order hin.order _)⟩
    simp only [send, log, h.faults, hfaults (by omega), List.append_nil]
  rename_i hne
  rw [if_pos (show d.info.length < b.length by omega)]
  rw [if_neg hne] at hfit
  split
  · exact leave_safe h.faults h.sent hall (hb.advance hle)
  · rename_i buffer hpool
    simp only [poolHas, hpool, Option.isSome_some, Bool.not_true, Bool.false_or, Bool.or_eq_true,
      bne_iff_ne, ne_eq, Bool.and_eq_true, Bool.not_eq_true', decide_eq_true_eq] at hfit
    split
    · rename_i hv
      obtain ⟨hc, h4⟩ : b.codeFits = true ∧ (b.startsWith startCode = false ∨ 4 ≤ d.info.length) := by
        rcases hfit with hfit | hfit
        · exact absurd hv hfit
        · exact hfit
      obtain ⟨hin, hfaults⟩ := hb.behindCode (n := 4) hc fun hs => MsgBlock.codeFits.four_le hc hs
      have hlen : (if b.startsWith startCode = true then minus32 d.info.length 4 else d.info.length) ≤
          (b.behindCode 4).length := by
        unfold MsgBlock.behindCode
        split
        · rename_i hs
          have h4 : 4 ≤ d.info.length := by simpa [hs] using h4
          rw [minus32_of_le h4 hn, hb.length_advance (by omega)]
          omega
        · exact hle
      have hsub : Fault.unless (b.startsWith startCode = true → 4 ≤ d.info.length) .length = [] :=
        Fault.unless_eq_nil.mpr fun hs => by simpa [hs] using h4
      refine leave_safe ?_ (sent_order h.sent (MsgBlock.copy_order (MsgBlock.ofPool_order _ _) _ _))
        hall (hin.advance hlen)
      simp only [send, log, h.faults, hfaults (by omega), hsub, hin.copyFaults hlen, List.append_nil]
    · refine leave_safe ?_ (sent_order h.sent (MsgBlock.copy_order (MsgBlock.ofPool_order _ _) _ _))
        hall (hb.advance hle)
      simp only [send, log, h.faults, hb.copyFaults hle, List.append_nil]

/-- `sendEsVideoFrame` for H.264. -/
theorem sendVideo_safe {know : Demux → Demux} (h : Safe d) (hl : d.list = b :: bs)
    (hv : d.videoPayload ≠ PayloadType.max) (hp : d.info.payload = PayloadType.h264)
    (hn : d.info.length < 2 ^ 32)
    (hfit : videoFits (d.poolHas env) d.info.streamId d.info.length d.list = true) :
    Safe (d.sendVideo env know) := by
  by_cases hle : d.info.length ≤ b.length
  · rw [sendVideo_single env hl hv hp hle]
    exact sendH264EsSigleNalu_safe env h hl hn hle hfit
  · rw [sendVideo_fu env hl hv hp (by omega)]
    refine sendFuBlocks_safe env h.faults h.sent h.list ?_
    rw [hl] at hfit ⊢
    simpa only [videoFits, if_pos (show b.length < d.info.length by omega)] using hfit

theorem sendAudio_safe (h : Safe d) : Safe (d.sendAudio env) := by
  have hs := sendAudioBlocks_safe env (n := d.info.length) h.faults h.sent h.list
  exact ⟨hs.faults, hs.list, hs.sent⟩

/-! ## Turns -/

/-- What holds before every turn. -/
structure SafeInv (d : Demux) : Prop where
  safe : Safe d
  video : d.videoPayload = PayloadType.h264
  audio : d.audioPayload = PayloadType.pcmu
  length : d.info.length < 2 ^ 32

theorem SafeInv.loopInv (h : SafeInv d) : LoopInv d :=
  ⟨loose_of_inside h.safe.list, h.video, h.audio, h.length⟩

/-- Skipping a header that fits. -/
theorem skipHead_safe (h : Safe d) (hfit : headerFits n d.list = true) (next : ParseState) :
    Safe (d.skipHead n next) := by
  have hin : ∀ x ∈ skipBytes n d.list, x.Inside := by
    cases hl : d.list with
    | nil => simp [skipBytes]
    | cons b bs =>
      have hall : ∀ x ∈ b :: bs, x.Inside := hl ▸ h.list
      have hb := hall b (by simp)
      rw [skipBytes, hb.length32_eq]
      split
      · exact inside_cons hall (hb.advance (by omega))
      · cases bs with
        | nil => simp [advanceFront]
        | cons c cs =>
          have hc := hall c (by simp)
          have hn : n ≤ b.length + c.length := by
            rw [hl] at hfit
            simp only [headerFits, decide_eq_true_eq] at hfit
            omega
          exact inside_cons (fun x hx => hall x (List.mem_cons_of_mem _ hx)) (hc.advance (by omega))
  unfold skipHead
  split
  · exact ⟨h.faults, by simp, h.sent⟩
  · rename_i c cs hskip
    rw [hskip] at hin
    refine ⟨?_, hin, h.sent⟩
    simp only [log, h.faults, (hin c (by simp)).orderFaults, List.append_nil]

theorem Safe.log {fs : List Fault} (h : Safe d) (hfs : fs = []) : Safe (d.log fs) :=
  ⟨by simp only [Demux.log, h.faults, hfs, List.append_nil], h.list, h.sent⟩

theorem Safe.notePes (h : Safe d) (hb : b.Inside) (h9 : 9 ≤ b.length)
    (hlen : 3 + (b.byte 8).toNat ≤ b.be16At 4) : Safe (d.notePes b) := by
  refine ⟨?_, h.list, h.sent⟩
  simp only [Demux.notePes, Demux.log, h.faults, hb.readFaults h9, Fault.unless_eq_nil.mpr hlen,
    List.append_nil]

/-- A turn at a PES packet that fits. -/
theorem programEStramHead_safe (h : SafeInv d) (hl : d.list = b :: bs) (hs : d.status = .pesPacket)
    (hfit : d.turnFits env = true) : Safe (d.programEStramHead env) := by
  have hb : b.Inside := h.safe.list b (by simp [hl])
  simp only [turnFits, hl, hs] at hfit
  by_cases hp : b.startsWith [0, 0, 1] = true ∧ 9 ≤ b.length32
  · have h9 : 9 ≤ b.length := hb.length32_eq ▸ hp.2
    simp only [if_pos hp, Bool.and_eq_true, decide_eq_true_eq, Bool.or_eq_true, bne_iff_ne, ne_eq] at hfit
    obtain ⟨⟨hlen, hhead⟩, hvideo⟩ := hfit
    have hscan : b.scanned [0, 0, 1] ≤ b.length := by
      rw [MsgBlock.scanned_of_startsWith hp.1]
      exact Nat.le_trans (by decide) h9
    have hat : Safe (d.atEs b) := by
      refine skipHead_safe ((h.safe.log (hb.readFaults hscan)).notePes hb h9 hlen) ?_ _
      change headerFits _ d.list = true
      rw [hl]
      exact hhead
    rw [programEStramHead_pes env hl hp.1 hp.2]
    split
    · exact hat
    · rename_i hne
      obtain ⟨c, cs, hc⟩ := List.exists_cons_of_ne_nil hne
      have hcodec := atEs_sameCodec d b
      have hinfo := atEs_info d b
      have hv := hcodec.videoPayload.trans h.video
      have ha := hcodec.audioPayload.trans h.audio
      unfold sendEs
      split
      · rw [sendEsAudioFrame, if_neg (by change (d.atEs b).audioPayload ≠ _; rw [ha]; decide)]
        exact sendAudio_safe env ⟨hat.faults, hat.list, hat.sent⟩
      split
      · rename_i hid
        refine sendVideo_safe env (d := (d.atEs b).withPayload (d.atEs b).videoPayload)
          ⟨hat.faults, hat.list, hat.sent⟩ hc (by change (d.atEs b).videoPayload ≠ _; rw [hv]; decide)
          hv (by change (d.atEs b).info.length < _; rw [hinfo]; exact esLength_lt b) ?_
        change videoFits (poolHas env (d.atEs b)) (d.atEs b).info.streamId (d.atEs b).info.length
          (d.atEs b).list = true
        rw [hinfo] at hid ⊢
        have hpool := poolHas_congr env (atEs_sent d b).2.2
        rw [atEs_list, hl, hpool]
        exact hvideo.resolve_left (not_not_intro hid)
      · exact skipBlocks_safe hat.faults hat.sent hat.list
  · rw [programEStramHead_none env hl hp]
    rw [if_neg hp, decide_eq_true_eq] at hfit
    have hlog := h.safe.log (hb.readFaults hfit)
    exact ⟨hlog.faults, hlog.list, hlog.sent⟩

/-- A turn of `ProgramKnowFrame` that fits. -/
theorem programKnowFrame_safe (h : SafeInv d) (hl : d.list = b :: bs) (hs : d.status = .foundData)
    (hfit : d.turnFits env = true) : Safe (d.programKnowFrame env) := by
  have hb : b.Inside := h.safe.list b (by simp [hl])
  simp only [turnFits, hl, hs, Bool.and_eq_true, Bool.or_eq_true, Bool.not_eq_true',
    decide_eq_true_eq] at hfit
  obtain ⟨hc, hhit⟩ := hfit
  have hlog := h.safe.log (hb.readFaults (n := b.scanned startCode) (by simpa [MsgBlock.codeFits] using hc))
  by_cases hcode : b.startsWith startCode = true
  · obtain ⟨h5, hvideo⟩ := hhit.resolve_left (by rw [hcode]; decide)
    have hcl : Safe (d.codeLog b) := hlog.log (hb.readFaults h5)
    by_cases hf : (b.byte 4).toNat < 128
    · rw [programKnowFrame_video env hl hcode hf]
      refine sendVideo_safe env (d := (d.codeLog b).withPayload PayloadType.h264)
        ⟨hcl.faults, hcl.list, hcl.sent⟩ hl (by change d.videoPayload ≠ _; rw [h.video]; decide) rfl
        h.length ?_
      change videoFits (poolHas env d) d.info.streamId d.info.length d.list = true
      rw [hl]
      exact hvideo.resolve_left (by omega)
    · rw [programKnowFrame_forbidden env hl hcode (by omega)]
      exact hcl
  · rw [programKnowFrame_audio env hl hcode (by rw [h.audio]; decide)]
    exact sendAudio_safe env ⟨hlog.faults, hlog.list, hlog.sent⟩

/-- A turn that fits stays in bounds. -/
theorem dealStep_safe (h : SafeInv d) (hfit : d.turnFits env = true) : SafeInv (d.dealStep env) := by
  have hcodec := dealStep_sameCodec env (d := d) (by rw [h.video]; decide)
  refine ⟨?_, hcodec.videoPayload.trans h.video, hcodec.audioPayload.trans h.audio,
    dealStep_length env h.loopInv⟩
  cases hl : d.list with
  | nil =>
    rw [dealStep_done env hl]
    exact h.safe
  | cons b bs =>
    by_cases hpes : d.status = .pesPacket
    · rw [dealStep_pesPacket env hl hpes]
      exact programEStramHead_safe env h hl hpes hfit
    by_cases hdata : d.status = .foundData
    · rw [dealStep_foundData env hl hdata]
      exact programKnowFrame_safe env h hl hdata hfit
    have hb : b.Inside := h.safe.list b (by simp [hl])
    obtain ⟨hreads, hhead⟩ : headerReads b d.status ≤ b.length ∧
        (headerBytes b d.status).all (fun n => headerFits n (b :: bs)) = true := by
      simp only [turnFits, hl] at hfit
      cases hs : d.status <;> simp_all
    obtain ⟨fs, hfs, hstep⟩ := dealStep_header env hl (by rw [h.video]; decide) hpes hdata
    have hlog := h.safe.log (hfs (by have := hb.length_eq; omega))
    rw [hstep]
    split
    · exact ⟨hlog.faults, hlog.list, hlog.sent⟩
    · rename_i n hn
      refine skipHead_safe hlog ?_ _
      change headerFits n d.list = true
      rw [hl]
      rwa [hn, Option.all_some] at hhead

/-! ## Runs -/

/-- The states of the runs from construction in which every turn fits. -/
inductive ReachFits : Demux → Prop
  | init : ReachFits init
  | frame {d : Demux} (f : RtpFrame) : ReachFits d → d.Done → ReachFits (d.beginFrame f.blocks)
  | turn {d : Demux} : ReachFits d → ¬ d.Done → d.turnFits env = true → ReachFits (d.dealStep env)

theorem forward_safe {bs : List MsgBlock} (h : Safe d) (hbs : ∀ b ∈ bs, b.IsRtp) :
    Safe (d.forward bs) ∧ (d.forward bs).info = d.info := by
  induction bs generalizing d with
  | nil => exact ⟨h, rfl⟩
  | cons b bs ih =>
    have hb := hbs b (by simp)
    rw [forward, if_neg (by simp [hb.parses])]
    refine ih ⟨h.faults, h.list, ?_⟩ fun c hc => hbs c (List.mem_cons_of_mem _ hc)
    exact sent_order h.sent (inside_of_isRtp hb).order

/-- A call starts in bounds. -/
theorem SafeInv.beginFrame (h : SafeInv d) (f : RtpFrame) : SafeInv (d.beginFrame f.blocks) := by
  have hcodec := beginFrame_sameCodec d f.blocks
  have hv := hcodec.videoPayload.trans h.video
  have ha := hcodec.audioPayload.trans h.audio
  unfold Demux.beginFrame at *
  simp only at *
  split
  · rename_i hps
    rw [if_pos hps] at hv ha
    obtain ⟨h1, h2, h3, h4⟩ := beginProgramStream_inv d (checkProgramStreamHead f.blocks).2 f
    exact ⟨⟨h3.trans h.safe.faults, h1, h4 ▸ h.safe.sent⟩, hv, ha, h2⟩
  · rename_i hps
    rw [if_neg hps] at hv ha
    obtain ⟨h1, h2⟩ := forward_safe h.safe f.isRtp
    exact ⟨h1, hv, ha, h2 ▸ h.length⟩

theorem ReachFits.safeInv (h : ReachFits env d) : SafeInv d := by
  induction h with
  | init =>
    exact ⟨⟨rfl, fun b hb => absurd hb List.not_mem_nil, fun b hb => absurd hb List.not_mem_nil⟩, rfl,
      rfl, by decide⟩
  | frame f _ _ ih => exact ih.beginFrame f
  | turn _ _ hfit ih => exact dealStep_safe env ih hfit

/-- **Bounds.** In every run from construction whose turns all fit, no state has read a byte
outside a block, moved a read pointer past a write pointer or taken a length below zero; and all
blocks, in the list or sent, have their offsets in order. -/
theorem reachFits_safe (h : ReachFits env d) :
    d.faults = [] ∧ (∀ b ∈ d.list, b.rd ≤ b.wr) ∧ ∀ b ∈ d.sent, b.rd ≤ b.wr :=
  ⟨h.safeInv.safe.faults, fun b hb => (h.safeInv.safe.list b hb).order, h.safeInv.safe.sent⟩

/-- Turns that fit, one after the other. -/
theorem ReachFits.turns {k : Nat} (h : ReachFits env d)
    (hk : ∀ j < k, ¬ Done ((dealStep env)^[j] d) ∧ ((dealStep env)^[j] d).turnFits env = true) :
    ReachFits env ((dealStep env)^[k] d) := by
  induction k with
  | zero => exact h
  | succ k ih =>
    rw [Function.iterate_succ_apply']
    obtain ⟨h1, h2⟩ := hk k (by omega)
    exact (ih fun j hj => hk j (by omega)).turn h1 h2

/-- The frame of one NAL unit, up to its end. -/
theorem reachFits_shortestNal :
    ((dealStep Env.zero)^[5] (init.beginFrame shortestNal.blocks)).faults = [] ∧
      ((dealStep Env.zero)^[5] (init.beginFrame shortestNal.blocks)).sent.length = 1 := by
  have h0 : ReachFits Env.zero (init.beginFrame shortestNal.blocks) := .frame _ .init rfl
  exact ⟨(reachFits_safe Env.zero (h0.turns Env.zero (k := 5) (by decide))).1, by decide⟩

/-- A frame of one packet with a PES header that declares no bytes, not even its own. -/
def emptyPes : RtpFrame := .single ⟨96, true, 0, 0, 0⟩
  [0x00, 0x00, 0x01, 0xE0, 0x00, 0x00, 0x80, 0x00, 0x00] (by decide)

/-- The fifth turn subtracts the header from the declared length and goes below zero. -/
theorem not_safe_emptyPes : Reach Env.zero ((dealStep Env.zero)^[5] (init.beginFrame emptyPes.blocks)) ∧
    ¬ ((dealStep Env.zero)^[5] (init.beginFrame emptyPes.blocks)).faults = [] := by
  have h0 : Reach Env.zero (init.beginFrame emptyPes.blocks) := .frame _ .init rfl
  exact ⟨h0.turns Env.zero (by decide), by decide⟩

end Demux

end AllCamera
