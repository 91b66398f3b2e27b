import Mathlib.Data.List.Infix
import AllCamera.Stream.RtpTcpConnect.Interleaved

/-!
# A full receive buffer

When the buffer is full, `handle_input` receives nothing and only calls the handler. If that asks for
more data then, it will do so for ever.

* `handleInput_moves_iff`: for every handler, a full buffer gets shorter or the connection is closed
  exactly if the handler's first answer is not 0.
* `Overlong`: what is in front of the buffer is longer than the buffer.
* `run_unstuck_iff`: no state of a run is stuck exactly if that is in front of no full buffer.
* `run_length_lt`: frames that fit do not leave the buffer full.
-/

namespace AllCamera

namespace Receiver

variable {ρ : Type} {handle : Handler ρ} {c : Receiver ρ}

/-! ## The loop on a full buffer -/

theorem turns_stop {fuel : Nat} (h : c.inLoop = false) : turns handle fuel c = c := by
  cases fuel with
  | zero => rfl
  | succ fuel => simp [turns, h]

/-- Behind the first byte, the loop ends with fewer bytes or with -1. -/
theorem turns_moved (fuel : Nat) (hpos : 0 < c.processedSize) (hlt : c.processedSize < c.length)
    (hfuel : c.length < fuel + c.processedSize) (hin : c.inLoop = true) :
    (turns handle fuel c).closed = true ∨ (turns handle fuel c).length < c.length := by
  induction fuel generalizing c with
  | zero => omega
  | succ fuel ih =>
    simp only [turns, hin, if_true]
    unfold turn
    simp only
    split
    · rw [turns_stop rfl]
      exact .inl rfl
    · split
      · rw [turns_stop rfl]
        refine .inr ?_
        simp only [compact]
        omega
      · split
        · rename_i hmore
          exact ih (c := { c with
            data := (c.answer handle).data
            user := (c.answer handle).user
            processedSize := c.processedSize + (c.answer handle).nSize.toNat })
            (by simp only; omega) hmore (by simp only; omega) hin
        · rw [turns_stop rfl]
          refine .inr ?_
          simp only [compact]
          omega

/-- A call that receives nothing closes the connection or processes a byte exactly if the handler's
answer is not 0. -/
theorem handleInput_moves_iff (handle : Handler ρ) (hlen : 0 < c.length) (hopen : c.closed = false) :
    ((c.handleInput handle []).closed = true ∨ (c.handleInput handle []).length < c.length) ↔
      (handle c.user c.data 0 c.length).nSize ≠ 0 := by
  have hrecv : c.recv [] = { c with processedSize := 0, inLoop := true } := by
    unfold recv
    congr
    funext i
    exact if_neg (by simp only [List.length_nil]; omega)
  unfold handleInput loop
  rw [hrecv]
  simp only [turns, if_true]
  unfold turn answer
  simp only [Nat.sub_zero, Nat.zero_add]
  generalize handle c.user c.data 0 c.length = r
  split
  · rename_i hneg
    rw [turns_stop rfl]
    exact iff_of_true (.inl rfl) (by omega)
  · split
    · rename_i hzero
      rw [turns_stop rfl]
      refine iff_of_false ?_ (not_not.mpr hzero)
      simp [compact, hopen]
    · rename_i hne
      refine iff_of_true ?_ hne
      split
      · rename_i hmore
        refine turns_moved (c := { c with
          data := r.data, user := r.user, processedSize := r.nSize.toNat, inLoop := true })
          c.length (by simp only; omega) hmore (by simp only; omega) rfl
      · rw [turns_stop rfl]
        refine .inr ?_
        simp only [compact]
        omega

/-- A call whose handler asks for more leaves what it has received in the buffer. -/
theorem handleInput_lack {seg : List UInt8}
    (h : (handle c.user (c.recv seg).data 0 (c.length + seg.length)).nSize = 0) :
    (c.handleInput handle seg).closed = c.closed ∧
      (c.handleInput handle seg).length = c.length + seg.length ∧
      (c.handleInput handle seg).data =
        (handle c.user (c.recv seg).data 0 (c.length + seg.length)).data := by
  have hanswer : (c.recv seg).answer handle =
      handle c.user (c.recv seg).data 0 (c.length + seg.length) := rfl
  rw [← hanswer] at h ⊢
  unfold handleInput loop
  simp only [turns, show (c.recv seg).inLoop = true from rfl, if_true]
  unfold turn
  simp only [h, if_true, Int.lt_irrefl, if_false]
  rw [turns_stop rfl]
  exact ⟨rfl, rfl, Memory.write_read _ 0 _⟩

end Receiver

open Receiver

namespace RtpTcpConnect

variable {d : Downstream} {c : RtpTcpConnect} {m : Memory} {p n : Nat}

/-! ## The handler on a full buffer -/

/-- What is in front of a full buffer is longer than the buffer, by the length field of its
interleaved header or by the content length of its RTSP header; or that makes the sum of the RTSP
message 0. -/
def Overlong (m : Memory) : Prop :=
  if m 0 = interleaveFlag then recvBufferSize < interleaveLength + (be16 (m 2) (m 3)).toNat
  else
    let text := m.read 0 recvBufferSize
    knownMethod m 0 = true ∧ ∃ endPos pos endLine, find rtspEndMsg text = some endPos ∧
      ((find contentLength text).or (find contentLengthLower text)) = some pos ∧
      find rtspEndLine text = some endLine ∧
      let unMsgLen := UInt32.ofNat endPos + 4 + lengthField text pos endLine
      unMsgLen = 0 ∨ recvBufferSize < unMsgLen.toNat

/-- The handlers of a message take all of it. -/
theorem handleRecvedData_taken (hd : Succeeds d) (c : RtpTcpConnect) {ret : ParseRet}
    {c' : RtpTcpConnect} {m' : Memory} (hparse : c.parseDataInfo d m p n = (ret, c', m'))
    (hfail : ret ≠ .fail) (hlack : ret ≠ .dataLack) :
    (c.handleRecvedData d m p n).nSize = c'.taken := by
  unfold handleRecvedData
  rw [hparse]
  cases ret with
  | fail => exact absurd rfl hfail
  | dataLack => exact absurd rfl hlack
  | _ =>
    simp only [handleMediaData_ok hd, handleControlMessage_ok hd]
    split <;> rfl

/-- An interleaved frame that is not there as a whole is left where it is. -/
theorem handleRecvedData_lack (d : Downstream) (c : RtpTcpConnect) (hm : m p = interleaveFlag)
    (hn : interleaveLength ≤ n)
    (hlong : n < interleaveLength + (be16 (m (p + 2 : Nat)) (m (p + 3 : Nat))).toNat) :
    (c.handleRecvedData d m p n).nSize = 0 ∧ (c.handleRecvedData d m p n).data = m := by
  unfold handleRecvedData
  rw [parseDataInfo_flag d c hm]
  unfold parseRtpRtcpPacket
  rw [if_neg (by omega)]
  simp only
  rw [if_pos (by omega)]
  exact ⟨rfl, rfl⟩

/-- An interleaved frame is waited for if it is longer than what is there. -/
theorem nSize_flag (hd : Succeeds d) (c : RtpTcpConnect) (hm : m p = interleaveFlag)
    (hn : interleaveLength ≤ n) :
    (c.handleRecvedData d m p n).nSize = 0 ↔
      n < interleaveLength + (be16 (m (p + 2 : Nat)) (m (p + 3 : Nat))).toNat := by
  refine ⟨fun h => ?_, fun h => (handleRecvedData_lack d c hm hn h).1⟩
  by_contra hshort
  have hparse := parseDataInfo_flag d c (n := n) hm
  unfold parseRtpRtcpPacket at hparse
  rw [if_neg (by omega)] at hparse
  simp only at hparse
  rw [if_neg (by omega)] at hparse
  rw [handleRecvedData_taken hd c hparse nofun nofun] at h
  simp only [taken, interleaveLength] at h
  omega

/-- The stream of a message is found or not, the message stays as long as it is. -/
theorem findStream_size (d : Downstream) (c : RtpTcpConnect) (m : Memory) (p : Nat) :
    (c.findStream d m p).1 ≠ .dataLack ∧ (c.findStream d m p).2.unSize = c.unSize := by
  unfold findStream
  split_ifs
  · exact ⟨nofun, rfl⟩
  · split
    · exact ⟨nofun, rfl⟩
    · simp only
      split_ifs
      · exact ⟨nofun, rfl⟩
      · exact ⟨nofun, rfl⟩

/-- An RTSP message is waited for if `checkRtsp` finds no fault, and no length or one that is not
there. -/
theorem nSize_rtsp (hd : Succeeds d) (c : RtpTcpConnect) (hm : m p ≠ interleaveFlag) :
    (c.handleRecvedData d m p n).nSize = 0 ↔ (checkRtsp m p n).ret = 0 ∧
      ((checkRtsp m p n).unMsgLen = 0 ∨ n < (checkRtsp m p n).unMsgLen.toNat) := by
  have hzero : (checkRtsp m p n).unMsgLen = 0 ↔ (checkRtsp m p n).unMsgLen.toNat = 0 :=
    UInt32.toNat_inj.symm
  have hparse : c.parseDataInfo d m p n = _ := if_pos hm
  unfold parseRtspPacket at hparse
  simp only at hparse
  by_cases hret : (checkRtsp m p n).ret = 0
  · rw [if_neg (not_not.mpr hret)] at hparse
    by_cases hlack : (checkRtsp m p n).unMsgLen.toNat = 0 ∨ n < (checkRtsp m p n).unMsgLen.toNat
    · rw [if_pos hlack] at hparse
      refine iff_of_true ?_ ⟨hret, hlack.imp_left hzero.mpr⟩
      unfold handleRecvedData
      rw [hparse]
    · rw [if_neg hlack] at hparse
      refine iff_of_false ?_ fun h => hlack (h.2.imp_left hzero.mp)
      obtain ⟨hno, hsize⟩ := findStream_size d
        { c with
          unSize := (checkRtsp m p n).unMsgLen.toNat, unDataOffset := 0, usInnerMsgType := .rtp }
        (checkRtsp m p n).data p
      generalize findStream d _ _ _ = r at hparse hno hsize
      obtain ⟨ret, c'⟩ := r
      simp only at hno hsize
      have htaken : ∀ k : Nat, ((c'.unSize + k : Nat) : Int) ≠ 0 := by omega
      cases ret with
      | fail =>
        unfold handleRecvedData
        rw [hparse]
        exact show (-1 : Int) ≠ 0 by decide
      | dataLack => exact absurd rfl hno
      | ok =>
        rw [handleRecvedData_taken hd c hparse nofun nofun]
        exact htaken 0
      | other =>
        rw [handleRecvedData_taken hd c hparse nofun nofun]
        exact htaken c'.unDataOffset
  · rw [if_pos hret] at hparse
    refine iff_of_false ?_ fun h => hret h.1
    unfold handleRecvedData
    rw [hparse]
    exact show (-1 : Int) ≠ 0 by decide

/-- A whole RTSP header of a buffer gives the length; one that is not whole is a fault. -/
theorem checkRtsp_lack (m : Memory) {n : Nat} (hmsg : rtspMsgLength ≤ n) (hn : n < 2 ^ 32) :
    ((checkRtsp m 0 n).ret = 0 ∧ ((checkRtsp m 0 n).unMsgLen = 0 ∨ n < (checkRtsp m 0 n).unMsgLen.toNat)) ↔
    (knownMethod m 0 = true ∧ ∃ endPos pos endLine,
      find rtspEndMsg (m.read 0 n) = some endPos ∧
      ((find contentLength (m.read 0 n)).or
        (find contentLengthLower (m.read 0 n))) = some pos ∧
      find rtspEndLine (m.read 0 n) = some endLine ∧
      let unMsgLen := UInt32.ofNat endPos + 4 + lengthField (m.read 0 n) pos endLine
      unMsgLen = 0 ∨ n < unMsgLen.toNat) := by
  have hlen : (m.read 0 n).length = n := Memory.length_read m 0 n
  unfold checkRtsp
  rw [show ((0 : Nat) : Int) = 0 from rfl]
  generalize m.read 0 n = text at hlen
  have hfault : ∀ {P : Prop}, (-1 : Int) = 0 ∧ P ↔ False := by simp
  by_cases hknown : knownMethod m 0 = true
  · rw [if_pos hknown]
    simp only [hknown, true_and]
    cases hend : find rtspEndMsg text with
    | none =>
      simp only [reduceCtorEq, false_and, exists_false, iff_false]
      rw [if_pos hmsg]
      exact hfault.mp
    | some endPos =>
      have hle := find_le hend (by decide)
      rw [hlen] at hle
      cases hupper : find contentLength text with
      | some pos => cases hline : find rtspEndLine text <;> simp
      | none =>
        cases hlower : find contentLengthLower text with
        | some pos => cases hline : find rtspEndLine text <;> simp
        | none =>
          -- without a content length the message ends inside of the buffer
          have hsum : (UInt32.ofNat endPos + 4).toNat = endPos + 4 := by
            have : rtspEndMsg.length = 4 := rfl
            simp only [UInt32.toNat_add, UInt32.toNat_ofNat', UInt32.reduceToNat]
            omega
          simp only [Option.or_none, reduceCtorEq, false_and, and_false, exists_false, iff_false, true_and,
            hsum, ← UInt32.toNat_inj]
          simp only [UInt32.toNat_zero]
          have : rtspEndMsg.length = 4 := rfl
          omega
  · rw [if_neg hknown]
    exact iff_of_false (fun h => hfault.mp h) fun h => hknown h.1

/-- The handler asks for more in front of a full buffer exactly if that is overlong. -/
theorem nSize_full (hd : Succeeds d) (c : RtpTcpConnect) (m : Memory) :
    (c.handleRecvedData d m 0 recvBufferSize).nSize = 0 ↔ Overlong m := by
  unfold Overlong
  split
  · rename_i hm
    exact nSize_flag hd c hm (by decide)
  · rename_i hm
    exact (nSize_rtsp hd c hm).trans (checkRtsp_lack m (by decide) (by decide))

/-! ## Runs -/

/-- An open connection with a full buffer processes a byte of it in the next call, or is closed. -/
def Unstuck (d : Downstream) (c : Receiver RtpTcpConnect) : Prop :=
  c.closed = false → c.length = recvBufferSize →
    (c.handleInput (handleRecvedData d) []).closed = true ∨
      (c.handleInput (handleRecvedData d) []).length < c.length

/-- **A state** is not stuck exactly if the buffer is not full of something longer. -/
theorem unstuck_iff (hd : Succeeds d) (c : Receiver RtpTcpConnect) :
    Unstuck d c ↔ (c.closed = false → c.length = recvBufferSize → ¬Overlong c.data) := by
  unfold Unstuck
  refine forall_congr' fun hopen => forall_congr' fun hfull => ?_
  rw [handleInput_moves_iff _ (by rw [hfull]; decide) hopen, hfull, Ne, nSize_full hd]

/-- **Runs.** For every byte stream and every way the receives cut it, as long as blocks are
allocated and taken: no state is stuck if and only if no full buffer has something overlong in
front. -/
theorem run_unstuck_iff (hd : Succeeds d) (id : UInt64) (video audio : UInt8) (wire : List UInt8)
    (ks : List Nat) :
    let s (pre : List Nat) := Run.run (step (handleRecvedData d) true)
      (Receiver.init (init id video audio), wire) pre
    (∀ pre, pre <+: ks → Unstuck d (s pre).1) ↔
      ∀ pre, pre <+: ks → (s pre).1.closed = false → (s pre).1.length = recvBufferSize →
        ¬Overlong (s pre).1.data :=
  forall_congr' fun _ => forall_congr' fun _ => unstuck_iff hd _

/-- Frames that fit do not leave the buffer full. -/
theorem run_length_lt (hd : Succeeds d) (id : UInt64) (video audio : UInt8) (frames : List InterleavedFrame)
    (ks : List Nat) : (Run.run (step (handleRecvedData d) true)
      (Receiver.init (init id video audio), wireOf frames) ks).1.length < recvBufferSize := by
  obtain ⟨hl, us, h⟩ := run_inv hd id video audio frames ks
  have hview := h.view_cases hl
  rw [view, h.idle hl, Nat.sub_zero] at hview
  cases us with
  | nil =>
    have hlength := congrArg List.length hview.1
    rw [Memory.length_read] at hlength
    exact hlength ▸ (by decide)
  | cons f _ =>
    obtain ⟨hpart, hne, -⟩ := hview
    have hlt := Nat.lt_of_le_of_ne hpart.length_le fun heq => hne (hpart.eq_of_length heq)
    rw [Memory.length_read, f.length_bytes] at hlt
    exact Nat.lt_of_lt_of_le hlt f.fits

/-- A frame that fills the buffer. -/
def fullFrame : InterleavedFrame := ⟨0, List.replicate 65532 0, by rw [List.length_replicate]; decide⟩

theorem run_unstuck_fullFrame : Unstuck takesAll (Run.run (step (handleRecvedData takesAll) true)
    (Receiver.init (init 1 0 2), wireOf [fullFrame]) [65536]).1 :=
  (run_unstuck_iff ⟨fun _ => rfl, fun _ => rfl, fun _ => rfl⟩ 1 0 2 (wireOf [fullFrame]) [65536]).mpr
    (fun pre _ _ hfull => absurd hfull (Nat.ne_of_lt (run_length_lt
      ⟨fun _ => rfl, fun _ => rfl, fun _ => rfl⟩ 1 0 2 [fullFrame] pre))) [65536] List.prefix_rfl

/-- The front of a frame whose length field is 65535 fills the buffer of a new connection. -/
theorem overlong_of_frame {rest : List UInt8} (hrest : rest.length = 65532) :
    let s := Run.run (step (handleRecvedData takesAll) true)
      (Receiver.init (init 1 0 2), interleaveFlag :: 0 :: 255 :: 255 :: rest) [65536]
    s.1.closed = false ∧ s.1.length = recvBufferSize ∧ Overlong s.1.data := by
  have hlen : (interleaveFlag :: 0 :: 255 :: 255 :: rest).length = recvBufferSize := by
    simp only [List.length_cons, hrest]
    rfl
  generalize hseg : interleaveFlag :: 0 :: 255 :: 255 :: rest = seg at hlen
  intro s
  have hstep : s = ((Receiver.init (init 1 0 2)).handleInput (handleRecvedData takesAll)
      (seg.take recvBufferSize), seg.drop recvBufferSize) := by
    have hne : seg ≠ [] := by
      rw [← hseg]
      exact List.cons_ne_nil _ _
    simp [s, Run.run, step, Receiver.init, hne, recvBufferSize]
  -- the buffer after `recv`
  have hbyte : ∀ k, k < recvBufferSize →
      ((Receiver.init (init 1 0 2)).recv seg).data (k : Nat) = seg.getD k 0 := by
    intro k hk
    have := Memory.write_at (m := fun _ => 0) (p := 0) (l := seg) (k := k) (hlen ▸ hk)
    rwa [Int.zero_add] at this
  have h0 : ((Receiver.init (init 1 0 2)).recv seg).data ((0 : Nat) : Int) = interleaveFlag :=
    (hbyte 0 (by decide)).trans (by rw [← hseg]; rfl)
  have h2 : ((Receiver.init (init 1 0 2)).recv seg).data ((0 + 2 : Nat) : Int) = 255 :=
    (hbyte 2 (by decide)).trans (by rw [← hseg]; rfl)
  have h3 : ((Receiver.init (init 1 0 2)).recv seg).data ((0 + 3 : Nat) : Int) = 255 :=
    (hbyte 3 (by decide)).trans (by rw [← hseg]; rfl)
  have hsize : recvBufferSize < interleaveLength +
      (be16 (((Receiver.init (init 1 0 2)).recv seg).data ((0 + 2 : Nat) : Int))
        (((Receiver.init (init 1 0 2)).recv seg).data ((0 + 3 : Nat) : Int))).toNat := by
    rw [h2, h3]
    decide
  have hlong : Overlong ((Receiver.init (init 1 0 2)).recv seg).data := by
    unfold Overlong
    rw [if_pos (show ((Receiver.init (init 1 0 2)).recv seg).data 0 = interleaveFlag from h0)]
    exact hsize
  have hlack := handleRecvedData_lack takesAll (Receiver.init (init 1 0 2)).user (p := 0)
    (n := recvBufferSize) h0 (by decide) hsize
  have hsmall : (handleRecvedData takesAll (Receiver.init (init 1 0 2)).user
      ((Receiver.init (init 1 0 2)).recv seg).data 0
      ((Receiver.init (init 1 0 2)).length + seg.length)).nSize = 0 := by
    rw [hlen]
    exact hlack.1
  obtain ⟨hopen, hlength, hdata⟩ := handleInput_lack hsmall
  rw [hstep, List.take_of_length_le (Nat.le_of_eq hlen)]
  refine ⟨hopen, hlength.trans ((Nat.zero_add _).trans hlen), ?_⟩
  rw [hdata, hlen]
  exact hlack.2.symm ▸ hlong

/-- It fills the buffer, and nothing moves any more. -/
theorem not_unstuck_longFrame : ¬Unstuck takesAll (Run.run (step (handleRecvedData takesAll) true)
    (Receiver.init (init 1 0 2), interleaveFlag :: 0 :: 255 :: 255 :: List.replicate 65532 0)
    [65536]).1 := by
  have hlen : (List.replicate 65532 (0 : UInt8)).length = 65532 := List.length_replicate
  generalize List.replicate 65532 (0 : UInt8) = rest at hlen
  obtain ⟨hopen, hfull, hlong⟩ := overlong_of_frame hlen
  exact fun h => (unstuck_iff ⟨fun _ => rfl, fun _ => rfl, fun _ => rfl⟩ _).mp h hopen hfull hlong

end RtpTcpConnect

end AllCamera
