import AllCamera.Stream.RtmpPushSession.HandShake

/-!
# The handshake over the receives of a connection

* `Waits`: a connection in front of C0, C1 or C2, of which it has a part.
* `Shaken`: a connection behind C2, with what the handshake took when C2 was complete.
* `Overtaken`: the receive that completes C2 brings another 1536 bytes.
* `processRecvedMessage_shakesHands_iff`: whatever the segments are, the handshake takes exactly C0, C1
  and C2 when it began in front of C0, its messages were sent and C2 was not overtaken.
-/

namespace AllCamera.RtmpServer

open Receiver

/-- The connection waits for C0, C1 or C2, and `rest` is still to come. -/
structure Waits (sig wire : List UInt8) (k : Nat) (c : Receiver RtmpServer) (rest : List UInt8) :
    Prop where
  stage : Stage sig wire k k c.user
  block : k = 0 ∨ k = 1 ∨ k = 1 + handshakeSize
  status : c.user.enSessionStatus = .init
  stream : c.view ++ rest = wire.drop k
  more : c.inLoop = true → c.processedSize < c.length
  idle : c.inLoop = false → c.processedSize = 0 ∧ taken (k + c.length) = k
  isOpen : c.closed = false

/-- The handshake is through and took `k` bytes; what is behind them waits for the message parser, or
was given to it. -/
structure Shaken (sig wire : List UInt8) (k : Nat) (c : Receiver RtmpServer) (rest : List UInt8) :
    Prop where
  block : shakeSize ≤ k
  status : c.user.enSessionStatus = .handshaked
  replies : c.user.replies = due sig wire k
  shaken : c.user.shaken = wire.take k
  parsed : ∀ bs, c.user.parsed = some bs → bs ≠ [] ∧ bs <+: wire.drop k
  stream : c.user.parsed = none → c.view ++ rest = wire.drop k
  more : c.user.parsed = none → c.inLoop = true → c.processedSize < c.length
  idle : c.user.parsed = none → c.inLoop = false → c.processedSize = 0 ∧ c.length = 0

variable {accepts : Nat → Bool} {sig wire rest : List UInt8} {k : Nat} {c : Receiver RtmpServer}

/-- What is there of the stream. -/
theorem length_of_stream (hk : k ≤ wire.length) (h : c.view ++ rest = wire.drop k) :
    k + (c.length - c.processedSize) = wire.length - rest.length := by
  have hlen := congrArg List.length h
  rw [List.length_append, length_view, List.length_drop] at hlen
  omega

theorem Waits.le_length (h : Waits sig wire k c rest) (hwire : shakeSize ≤ wire.length) :
    k ≤ wire.length := by
  have := h.block
  simp only [handshakeSize, shakeSize] at this hwire
  omega

/-- A turn of the handshake. -/
theorem Waits.turn (h : Waits sig wire k c rest) (hl : c.inLoop = true)
    (hC0 : wire.head? = some handshakePlaintext) (hwire : shakeSize ≤ wire.length)
    (hsend : ∀ i < 3, accepts i = true) :
    (∃ k, Waits sig wire k (c.turn (processRecvedMessage accepts)) rest) ∨
      Shaken sig wire (taken (wire.length - rest.length)) (c.turn (processRecvedMessage accepts))
        rest := by
  have hmore := h.more hl
  have hlen := length_of_stream (h.le_length hwire) h.stream
  have hshows : Shows c.data c.processedSize (c.length - c.processedSize) wire k := by
    have := congrArg (List.take (c.length - c.processedSize)) h.stream
    rwa [List.take_left' (length_view c)] at this
  obtain ⟨s', hcall, hs'⟩ := handleHandShake_spec h.stage h.block hC0 hshows (by omega) (by omega) hsend
  have hanswer : c.answer (processRecvedMessage accepts) =
      ⟨((taken (wire.length - rest.length) - k : Nat) : Int), c.data, s'⟩ := by
    unfold answer processRecvedMessage
    rw [if_neg (by omega), if_pos h.status, hcall, hlen]
  rw [hlen] at hs'
  generalize htaken : taken (wire.length - rest.length) = t at *
  have hcases := taken_cases (wire.length - rest.length)
  have hblock := h.block
  simp only [handshakeSize] at hblock
  rw [htaken] at hcases
  obtain ⟨huser, hview, hclosed, hmore', hidle⟩ := turn_took hanswer (by omega) hl
  -- what is left of the buffer
  have hstream : (c.turn (processRecvedMessage accepts)).view ++ rest = wire.drop t := by
    have := congrArg (List.drop (t - k)) h.stream
    rw [List.drop_append_of_le_length (by rw [length_view]; omega), List.drop_drop] at this
    rw [hview, this]
    congr 1
    omega
  have hlen' := length_of_stream (by omega) hstream
  rw [← huser] at hs'
  by_cases ht : t < shakeSize
  · refine .inl ⟨t, hs', by simp only [handshakeSize, shakeSize] at ht ⊢; omega, ?_, hstream,
      fun hyes => (hmore' hyes).2, fun hno => ⟨(hidle hno).1, ?_⟩, hclosed.trans h.isOpen⟩
    · rw [hs'.status, if_pos ht]
    · have := (hidle hno).1
      rw [show t + (c.turn (processRecvedMessage accepts)).length = wire.length - rest.length by omega]
      exact htaken
  · refine .inr ⟨Nat.not_lt.mp ht, ?_, hs'.replies, hs'.shaken, ?_, fun _ => hstream, fun _ hyes => (hmore' hyes).2,
      fun _ hno => ?_⟩
    · rw [hs'.status, if_neg ht]
    · rw [hs'.parsed]
      intro _ hnone
      cases hnone
    · -- C2 was in this call, so something was taken
      obtain ⟨hzero, hall⟩ := hidle hno
      have hempty := congrArg List.length hview
      rw [List.length_drop, length_view, length_view] at hempty
      simp only [shakeSize, handshakeSize] at ht
      exact ⟨hzero, by omega⟩

/-- A turn of the message parser. -/
theorem Shaken.turn (h : Shaken sig wire k c rest) (hl : c.inLoop = true) :
    Shaken sig wire k (c.turn (processRecvedMessage accepts)) rest := by
  -- the handler only adds to what was parsed
  have huser : (c.turn (processRecvedMessage accepts)).user =
      (c.answer (processRecvedMessage accepts)).user := by
    unfold Receiver.turn
    dsimp only
    repeat' split
    all_goals rfl
  by_cases hn : c.length - c.processedSize = 0
  · have hsame : (c.answer (processRecvedMessage accepts)).user = c.user := by
      unfold answer processRecvedMessage
      rw [if_pos hn]
    have hsome : c.user.parsed ≠ none := fun hnone => by
      have := h.more hnone hl
      omega
    rw [hsame] at huser
    refine ⟨h.block, ?_, ?_, ?_, ?_, ?_, ?_, ?_⟩ <;> rw [huser]
    · exact h.status
    · exact h.replies
    · exact h.shaken
    · exact h.parsed
    all_goals exact fun hnone => absurd hnone hsome
  · have hnot : c.user.enSessionStatus ≠ .init := by
      rw [h.status]
      decide
    have hparse : (c.answer (processRecvedMessage accepts)).user =
        { c.user with
          session := (c.user.session.processRecvedMessage c.data c.processedSize
            (c.length - c.processedSize)).user
          parsed := some (c.user.parsed.getD c.view) } := by
      unfold answer processRecvedMessage
      rw [if_neg hn, if_neg hnot]
      rfl
    rw [hparse] at huser
    refine ⟨h.block, ?_, ?_, ?_, ?_, ?_, ?_, ?_⟩ <;> rw [huser]
    · exact h.status
    · exact h.replies
    · exact h.shaken
    · rintro bs hbs
      cases hold : c.user.parsed with
      | some old =>
        obtain rfl : old = bs := by simpa [hold] using hbs
        exact h.parsed _ hold
      | none =>
        obtain rfl : c.view = bs := by simpa [hold] using hbs
        refine ⟨List.ne_nil_of_length_pos ?_, ⟨rest, h.stream hold⟩⟩
        rw [length_view]
        omega
    all_goals exact nofun

/-! ## Calls -/

/-- Between two calls a buffer that the parser has not seen is not in the loop. -/
structure Settled (sig wire : List UInt8) (k : Nat) (c : Receiver RtmpServer) (rest : List UInt8) :
    Prop extends Shaken sig wire k c rest where
  outside : c.user.parsed = none → c.inLoop = false

theorem Settled.of_loop (fuel : Nat) (h : Shaken sig wire k (turns (processRecvedMessage accepts) fuel c) rest)
    (hfuel : c.length < fuel + c.processedSize) :
    Settled sig wire k (turns (processRecvedMessage accepts) fuel c) rest := by
  refine ⟨h, fun hnone => ?_⟩
  rcases turns_ends (processRecvedMessage accepts) fuel c hfuel with hl | hge
  · exact hl
  · by_contra hno
    have := h.more hnone (by simpa using hno)
    omega

/-- A call of `handle_input` during the handshake. -/
theorem Waits.handleInput {seg : List UInt8} {c' : Receiver RtmpServer}
    (h : Waits sig wire k c (seg ++ rest)) (hl : c.inLoop = false) (hseg : seg ≠ [])
    (hC0 : wire.head? = some handshakePlaintext) (hwire : shakeSize ≤ wire.length)
    (hsend : ∀ i < 3, accepts i = true)
    (hc' : handleInput (processRecvedMessage accepts) c seg = c') :
    (wire.length - rest.length < shakeSize →
      (∃ k, Waits sig wire k c' rest) ∧ c'.inLoop = false) ∧
    (shakeSize ≤ wire.length - rest.length →
      Settled sig wire (taken (wire.length - rest.length)) c' rest) := by
  change turns (processRecvedMessage accepts) ((c.recv seg).length + 1) (c.recv seg) = c' at hc'
  have hpos : 0 < seg.length := List.length_pos_iff.mpr hseg
  have hrecv : Waits sig wire k (c.recv seg) rest := by
    refine ⟨h.stage, h.block, h.status, ?_, fun _ => ?_, nofun, h.isOpen⟩
    · rw [view_recv (h.idle hl).1, List.append_assoc]
      exact h.stream
    · simp only [recv]
      omega
  have hloop := turns_invariant (processRecvedMessage accepts)
    (J := fun c => (∃ k, Waits sig wire k c rest) ∨
      Shaken sig wire (taken (wire.length - rest.length)) c rest)
    (fun c hc hl => by
      rcases hc with ⟨k, hk⟩ | hdone
      · exact hk.turn hl hC0 hwire hsend
      · exact .inr (hdone.turn hl)) ((c.recv seg).length + 1) (.inl ⟨k, hrecv⟩)
  have hends := turns_ends (processRecvedMessage accepts) ((c.recv seg).length + 1)
    (c.recv seg) (by omega)
  rw [hc'] at hloop hends
  have hcases := taken_cases (wire.length - rest.length)
  rcases hloop with ⟨k', hk⟩ | hdone
  · -- the handshake still waits
    have hout : c'.inLoop = false := by
      rcases hends with hl | hge
      · exact hl
      · by_contra hno
        have := hk.more (by simpa using hno)
        omega
    have hidle := hk.idle hout
    have hlen := length_of_stream (hk.le_length hwire) hk.stream
    rw [hidle.1, Nat.sub_zero] at hlen
    rw [hlen] at hidle
    have hblock := hk.block
    refine ⟨fun _ => ⟨⟨k', hk⟩, hout⟩, fun hge => ?_⟩
    simp only [shakeSize, handshakeSize] at hge hblock
    omega
  · refine ⟨fun hlt => ?_, fun _ => ?_⟩
    · have := hdone.block
      simp only [shakeSize, handshakeSize] at hlt this
      omega
    · rw [← hc'] at hdone ⊢
      exact Settled.of_loop _ hdone (by omega)

/-- A connection in the handshake between two calls has received less than C0, C1 and C2. -/
theorem Waits.received_lt (h : Waits sig wire k c rest) (hl : c.inLoop = false)
    (hwire : shakeSize ≤ wire.length) :
    k + c.length = wire.length - rest.length ∧ wire.length - rest.length < shakeSize ∧
      c.length < handshakeSize ∧ rest.length ≤ wire.length := by
  obtain ⟨hzero, hk⟩ := h.idle hl
  have hlen := length_of_stream (h.le_length hwire) h.stream
  rw [hzero, Nat.sub_zero] at hlen
  have hrest := congrArg List.length h.stream
  rw [List.length_append, List.length_drop] at hrest
  have hcases := taken_cases (k + c.length)
  have hblock := h.block
  simp only [handshakeSize, shakeSize] at hblock ⊢
  omega

/-- A call with up to `j` bytes. -/
theorem Waits.step {j : Nat} {c' : Receiver RtmpServer × List UInt8} (h : Waits sig wire k c rest)
    (hl : c.inLoop = false) (hC0 : wire.head? = some handshakePlaintext)
    (hwire : shakeSize ≤ wire.length) (hsend : ∀ i < 3, accepts i = true)
    (hc' : Receiver.step (processRecvedMessage accepts) false (c, rest) j = c') :
    ∃ t, wire.length - c'.2.length = t ∧
      (wire.length - rest.length + j < shakeSize → t = wire.length - rest.length + j ∧
        (∃ k, Waits sig wire k c'.1 c'.2) ∧ c'.1.inLoop = false) ∧
      (shakeSize ≤ wire.length - rest.length + j → Settled sig wire (taken t) c'.1 c'.2 ∧
        (shakeSize + handshakeSize ≤ t ↔ shakeSize + handshakeSize ≤ wire.length - rest.length + j ∧
          shakeSize + handshakeSize ≤ wire.length)) := by
  obtain ⟨hlen, hlt, hshort, hle⟩ := h.received_lt hl hwire
  rcases Nat.eq_zero_or_pos j with rfl | hj
  · have hsame : c' = (c, rest) := by
      rw [← hc']
      unfold Receiver.step
      rw [if_pos (.inr (.inr rfl))]
    subst hsame
    exact ⟨_, rfl, fun _ => ⟨rfl, ⟨k, h⟩, hl⟩, fun hge => by omega⟩
  · have hrest : rest ≠ [] := by
      rintro rfl
      rw [List.length_nil] at hlt
      omega
    have hpos := List.length_pos_iff.mpr hrest
    have hroom : c.length < recvBufferSize := Nat.lt_trans hshort (by decide)
    rw [step_eq h.isOpen hrest hj hroom] at hc'
    subst hc'
    have hn : 0 < min j (recvBufferSize - c.length) := by omega
    generalize hmin : min j (recvBufferSize - c.length) = n at hn ⊢
    have hsplit : Waits sig wire k c (rest.take n ++ rest.drop n) := by
      rwa [List.take_append_drop]
    have hseg : rest.take n ≠ [] := by
      rw [ne_eq, List.take_eq_nil_iff]
      exact fun hor => hor.elim (Nat.ne_of_gt hn) hrest
    obtain ⟨hwaits, hdone⟩ := hsplit.handleInput hl hseg hC0 hwire hsend rfl
    simp only [List.length_drop] at hwaits hdone ⊢
    simp only [recvBufferSize, shakeSize, handshakeSize] at hwaits hdone hmin hlt hshort hwire ⊢
    refine ⟨_, rfl, fun hsmall => ⟨by omega, hwaits (by omega)⟩, fun hbig => ⟨hdone (by omega), ?_⟩⟩
    omega

/-- A call behind the handshake. -/
theorem Settled.step {j : Nat} {c' : Receiver RtmpServer × List UInt8}
    (h : Settled sig wire k c rest)
    (hc' : Receiver.step (processRecvedMessage accepts) false (c, rest) j = c') :
    Settled sig wire k c'.1 c'.2 := by
  subst hc'
  unfold Receiver.step
  dsimp only
  split
  · exact h
  · rename_i hgo
    split
    · exact h
    · rename_i hfull
      simp only [not_or] at hgo
      change Settled sig wire k (turns _ _ (c.recv _)) (rest.drop _)
      refine Settled.of_loop _ (turns_invariant _ (J := fun c' => Shaken sig wire k c'
        (rest.drop (min j (recvBufferSize - c.length)))) (fun _ hc hl => hc.turn hl) _ ?_) (by omega)
      refine ⟨h.block, h.status, h.replies, h.shaken, h.parsed, fun hnone => ?_, fun hnone _ => ?_,
        fun _ => nofun⟩
      · rw [view_recv (h.idle hnone (h.outside hnone)).1, List.append_assoc, List.take_append_drop]
        exact h.stream hnone
      · have hempty := (h.idle hnone (h.outside hnone)).2
        have hrest := List.length_pos_iff.mpr hgo.2.1
        simp only [recv, List.length_take, hempty, recvBufferSize]
        omega

/-! ## Sessions that do not get through -/

/-- What the parts of a turn keep, of the status and of the number of replies. -/
structure Keeps (accepts : Nat → Bool) (P : Int → Nat → Prop) : Prop where
  s0 : ∀ r, P serverChallenge r → accepts r = true → P serverChallenge (r + 1)
  s1 : ∀ r, P serverChallenge r → accepts r = true → accepts (r + 1) = true →
    P serverResponse (r + 2)
  s2 : ∀ r, P serverResponse r → accepts r = true → P serverDone (r + 1)

/-- `P` of the session that a part of a turn leaves. -/
def Leaves (P : Int → Nat → Prop) : Except (Int × RtmpServer) (RtmpServer × Nat) → Prop
  | .error r => P r.2.enHSStatus r.2.replies.length
  | .ok c => P c.1.enHSStatus c.1.replies.length

section Keeps

variable {P : Int → Nat → Prop} {m : Memory} {p n : Nat} {x : RtmpServer × Nat}

theorem Keeps.recvC0 (hP : Keeps accepts P) (h : P x.1.enHSStatus x.1.replies.length) :
    Leaves P (recvC0 accepts m p x) := by
  unfold RtmpServer.recvC0
  split
  · rename_i hstatus
    rw [hstatus] at h
    have hsame : P x.1.enHSStatus x.1.replies.length := by rwa [hstatus]
    split
    · exact hsame
    · unfold sendMessage
      by_cases h0 : accepts x.1.replies.length = true
      · rw [if_pos h0]
        dsimp only
        by_cases h1 : accepts (x.1.replies ++ [[m p]]).length = true
        · rw [if_pos h1]
          rw [List.length_append] at h1
          have := hP.s1 _ h h0 h1
          simpa [Leaves] using this
        · rw [if_neg h1]
          have := hP.s0 _ h h0
          simpa [Leaves, hstatus] using this
      · rw [if_neg h0]
        exact hsame
  · exact h

theorem Keeps.recvC1 (hP : Keeps accepts P) (h : P x.1.enHSStatus x.1.replies.length) :
    Leaves P (recvC1 accepts m p n x) := by
  unfold RtmpServer.recvC1
  split
  · rename_i hstatus
    split
    · exact h
    · unfold sendMessage
      by_cases h0 : accepts x.1.replies.length = true
      · rw [if_pos h0]
        rw [hstatus] at h
        have := hP.s2 _ h h0
        simpa [Leaves] using this
      · rw [if_neg h0]
        exact h
  · exact h

theorem Keeps.recvC2 (h : P x.1.enHSStatus x.1.replies.length) : Leaves P (recvC2 n x) := by
  unfold RtmpServer.recvC2
  repeat' split
  all_goals exact h

theorem Leaves.bind {f : RtmpServer × Nat → Except (Int × RtmpServer) (RtmpServer × Nat)}
    {r : Except (Int × RtmpServer) (RtmpServer × Nat)} (h : Leaves P r)
    (hf : ∀ c, P c.1.enHSStatus c.1.replies.length → Leaves P (f c)) : Leaves P (r >>= f) := by
  cases r with
  | error r => exact h
  | ok c => exact hf c h

theorem Keeps.shakeLoop (hP : Keeps accepts P) (fuel : Nat)
    (h : P x.1.enHSStatus x.1.replies.length) (r : Int × RtmpServer)
    (hr : shakeLoop accepts m p n fuel x = some r) : P r.2.enHSStatus r.2.replies.length := by
  induction fuel generalizing x with
  | zero => cases hr
  | succ fuel ih =>
    have hturn : Leaves P (shakeTurn accepts m p n x) :=
      (hP.recvC0 h).bind fun _ h => (hP.recvC1 h).bind fun _ h => Keeps.recvC2 h
    unfold RtmpServer.shakeLoop at hr
    cases hres : shakeTurn accepts m p n x with
    | error r' =>
      rw [hres] at hr hturn
      obtain rfl : r' = r := by simpa using hr
      exact hturn
    | ok c =>
      rw [hres] at hr hturn
      exact ih hturn hr

theorem Keeps.processRecvedMessage (hP : Keeps accepts P) (s : RtmpServer)
    (h : P s.enHSStatus s.replies.length) :
    P (processRecvedMessage accepts s m p n).user.enHSStatus
      (processRecvedMessage accepts s m p n).user.replies.length := by
  unfold RtmpServer.processRecvedMessage
  split
  · exact h
  · split
    · unfold handleHandShake
      cases hres : RtmpServer.shakeLoop accepts m p n (n + 1) (s, 0) with
      | none => exact h
      | some r => exact hP.shakeLoop (x := (s, 0)) _ h r hres
    · exact h

end Keeps

/-! ## Runs -/

/-- A session to which `wire` is sent, and what is left of it, after calls of `handle_input` that
receive up to `ks` bytes. -/
def received (accepts : Nat → Bool) (hs : Int) (sig wire : List UInt8) (ks : List Nat) :
    Receiver RtmpServer × List UInt8 :=
  Run.run (Receiver.step (processRecvedMessage accepts) false) (Receiver.init (new hs sig), wire) ks

/-- The handshake took C0, C1 and C2 and sent S0, S1 and S2, and the message parser begins behind
C2. -/
structure ShakesHands (sig wire : List UInt8) (c : Receiver RtmpServer × List UInt8) : Prop where
  shaken : c.1.user.shaken = wire.take shakeSize
  replies : c.1.user.replies = [wire.take 1, sig, (wire.drop 1).take handshakeSize]
  parsed : ∀ bs, c.1.user.parsed = some bs → bs ≠ [] ∧ bs <+: wire.drop shakeSize
  given : shakeSize < wire.length - c.2.length → c.1.user.parsed.isSome

/-- With `t` bytes received and receives of up to `ks` to come, the one that completes C2 brings at
least `handshakeSize` bytes behind it. -/
def Overtakes (t : Nat) : List Nat → Prop
  | [] => False
  | j :: ks => if t + j < shakeSize then Overtakes (t + j) ks else shakeSize + handshakeSize ≤ t + j

/-- The receive that completes C2 brings another block. -/
def Overtaken (wire : List UInt8) (ks : List Nat) : Prop :=
  Overtakes 0 ks ∧ shakeSize + handshakeSize ≤ wire.length

theorem run_settled (ks : List Nat) {c : Receiver RtmpServer × List UInt8}
    (h : Settled sig wire k c.1 c.2) :
    Settled sig wire k (Run.run (Receiver.step (processRecvedMessage accepts) false) c ks).1
      (Run.run (Receiver.step (processRecvedMessage accepts) false) c ks).2 :=
  Run.run_invariant (I := fun c : Receiver RtmpServer × List UInt8 => Settled sig wire k c.1 c.2) h
    fun _ _ h => h.step rfl

/-- A run that brings C2. -/
theorem run_shakes (ks : List Nat) {c : Receiver RtmpServer} (h : Waits sig wire k c rest)
    (hl : c.inLoop = false) (hC0 : wire.head? = some handshakePlaintext)
    (hwire : shakeSize ≤ wire.length) (hsend : ∀ i < 3, accepts i = true)
    (hks : shakeSize ≤ wire.length - rest.length + ks.sum) :
    ∃ t ≤ wire.length, Settled sig wire (taken t)
        (Run.run (Receiver.step (processRecvedMessage accepts) false) (c, rest) ks).1
        (Run.run (Receiver.step (processRecvedMessage accepts) false) (c, rest) ks).2 ∧
      (shakeSize + handshakeSize ≤ t ↔ Overtakes (wire.length - rest.length) ks ∧
        shakeSize + handshakeSize ≤ wire.length) := by
  induction ks generalizing k c rest with
  | nil =>
    have := (h.received_lt hl hwire).2.1
    rw [List.sum_nil] at hks
    omega
  | cons j ks ih =>
    rw [List.sum_cons] at hks
    simp only [Run.run, Overtakes]
    generalize hstep : Receiver.step (processRecvedMessage accepts) false (c, rest) j = c'
    obtain ⟨t, ht, hsmall, hbig⟩ := h.step hl hC0 hwire hsend hstep
    by_cases hlt : wire.length - rest.length + j < shakeSize
    · obtain ⟨rfl, ⟨k', hk'⟩, hl'⟩ := hsmall hlt
      rw [if_pos hlt, ← ht]
      exact ih hk' hl' (by omega)
    · obtain ⟨hdone, hover⟩ := hbig (Nat.not_lt.mp hlt)
      rw [if_neg hlt]
      exact ⟨t, by omega, run_settled ks hdone, hover⟩

theorem waits_new (sig wire : List UInt8) :
    Waits sig wire 0 (Receiver.init (new serverChallenge sig)) wire :=
  ⟨⟨rfl, rfl, rfl, rfl, rfl, rfl⟩, .inl rfl, rfl, rfl, nofun, fun _ => ⟨rfl, rfl⟩, rfl⟩

/-- A session that is settled shakes hands if it took no more than C0, C1 and C2. -/
theorem Settled.shakesHands_iff (h : Settled sig wire k c rest) (hk : k ≤ wire.length) :
    ShakesHands sig wire (c, rest) ↔ k = shakeSize := by
  constructor
  · intro hs
    have hlen := congrArg List.length (h.shaken.symm.trans hs.shaken)
    rw [List.length_take, List.length_take] at hlen
    have := h.block
    omega
  · rintro rfl
    refine ⟨h.shaken, h.replies, h.parsed, fun hlt => ?_⟩
    by_contra hnone
    have hnone : c.user.parsed = none := by simpa using hnone
    have hlen := length_of_stream hk (h.stream hnone)
    have := h.idle hnone (h.outside hnone)
    simp only at hlt
    omega

/-- A session of which a reply is missing does not shake hands, whatever it receives. -/
theorem not_shakesHands {P : Int → Nat → Prop} {hs : Int} (hP : Keeps accepts P) (h0 : P hs 0)
    (h3 : ∀ h, ¬ P h 3) (ks : List Nat) :
    ¬ ShakesHands sig wire (received accepts hs sig wire ks) := by
  let K : RtmpServer → Prop := fun u => P u.enHSStatus u.replies.length
  have hcall : ∀ u m p n, K u → K (processRecvedMessage accepts u m p n).user ∧
      (0 ≤ (processRecvedMessage accepts u m p n).nSize →
        K (processRecvedMessage accepts u m p n).user) :=
    fun u _ _ _ hu => ⟨hP.processRecvedMessage u hu, fun _ => hP.processRecvedMessage u hu⟩
  have hkept : Receiver.Kept K K (received accepts hs sig wire ks).1 :=
    Run.run_invariant (I := fun c : Receiver RtmpServer × List UInt8 => Receiver.Kept K K c.1)
      ⟨h0, fun _ => h0, nofun⟩ fun _ k h => h.step hcall k
  intro hshakes
  have hthree : P _ (received accepts hs sig wire ks).1.user.replies.length := hkept.always
  rw [hshakes.replies] at hthree
  exact h3 _ hthree

/-- A refused reply is not sent later. -/
theorem keeps_refused {i : Nat} (h : accepts i = false) : Keeps accepts fun _ r => r ≤ i := by
  have hlt : ∀ r, r ≤ i → accepts r = true → r < i := by
    intro r hr ha
    refine Nat.lt_of_le_of_ne hr ?_
    rintro rfl
    rw [h] at ha
    cases ha
  exact ⟨fun r hr ha => hlt r hr ha, fun r hr ha hb => hlt (r + 1) (hlt r hr ha) hb,
    fun r hr ha => hlt r hr ha⟩

/-- Behind C0 there is at most one reply to come. -/
theorem keeps_late : Keeps accepts fun hs r => hs ≠ serverChallenge ∧
    r + (if hs = serverResponse then 1 else 0) ≤ 1 := by
  refine ⟨fun r h => absurd rfl h.1, fun r h => absurd rfl h.1, fun r h _ => ⟨by decide, ?_⟩⟩
  have := h.2
  rw [if_pos rfl] at this
  rw [if_neg (by decide)]
  exact this

/-- What the handshake took, when all its replies are sent. -/
theorem received_shakesHands (hC0 : wire.head? = some handshakePlaintext)
    (hwire : shakeSize ≤ wire.length) (hsend : ∀ i < 3, accepts i = true) {ks : List Nat}
    (hks : shakeSize ≤ ks.sum) :
    ShakesHands sig wire (received accepts serverChallenge sig wire ks) ↔ ¬ Overtaken wire ks := by
  have hzero : wire.length - wire.length = 0 := Nat.sub_self _
  obtain ⟨t, ht, hdone, hover⟩ :=
    run_shakes ks (waits_new sig wire) rfl hC0 hwire hsend (by omega)
  rw [hzero] at hover
  have hcases := taken_cases t
  have hblock := hdone.block
  simp only [shakeSize, handshakeSize] at hblock
  refine (hdone.shakesHands_iff (by omega)).trans ?_
  rw [Overtaken, ← hover]
  simp only [shakeSize, handshakeSize]
  omega

/-- A session to which C0, C1 and C2 and anything behind them is sent, in whatever segments, shakes
hands exactly if it began in front of C0, its replies were sent, and the receive that completed C2 did
not bring another 1536 bytes. -/
theorem processRecvedMessage_shakesHands_iff (accepts : Nat → Bool) (hs : Int)
    (sig wire : List UInt8) (ks : List Nat) (hC0 : wire.head? = some handshakePlaintext)
    (hwire : shakeSize ≤ wire.length) (hks : shakeSize ≤ ks.sum) :
    ShakesHands sig wire (received accepts hs sig wire ks) ↔
      hs = serverChallenge ∧ (∀ i < 3, accepts i = true) ∧ ¬ Overtaken wire ks := by
  by_cases hhs : hs = serverChallenge
  · subst hhs
    by_cases hsend : ∀ i < 3, accepts i = true
    · rw [received_shakesHands hC0 hwire hsend hks]
      exact ⟨fun h => ⟨rfl, hsend, h⟩, fun h => h.2.2⟩
    · refine ⟨fun h => absurd h ?_, fun h => absurd h.2.1 hsend⟩
      obtain ⟨i, hi⟩ := not_forall.mp hsend
      obtain ⟨hlt, hno⟩ := Classical.not_imp.mp hi
      exact not_shakesHands (keeps_refused (by simpa using hno)) (Nat.zero_le i)
        (fun _ hle => by omega) ks
  · refine ⟨fun h => absurd h ?_, fun h => absurd h.1 hhs⟩
    refine not_shakesHands keeps_late ⟨hhs, ?_⟩ (fun _ h => ?_) ks
    · split <;> omega
    · have := h.2
      omega

/-- C0, C1 and C2 in one receive. -/
theorem shakesHands_oneReceive :
    ShakesHands [] (3 :: List.replicate 3072 0)
      (received (fun _ => true) serverChallenge [] (3 :: List.replicate 3072 0) [3073]) := by
  refine (processRecvedMessage_shakesHands_iff _ _ _ _ _ rfl ?_ (by decide)).mpr
    ⟨rfl, fun _ _ => rfl, fun h => ?_⟩
  · rw [List.length_cons, List.length_replicate]
    decide
  · exact absurd h.1 (by simp [Overtakes, shakeSize, handshakeSize])

/-- C0, C1, C2 and another 1536 bytes in one receive. -/
theorem not_shakesHands_overtaken :
    ¬ ∀ (sig wire : List UInt8) (ks : List Nat), wire.head? = some handshakePlaintext →
      shakeSize ≤ wire.length → shakeSize ≤ ks.sum →
      ShakesHands sig wire (received (fun _ => true) serverChallenge sig wire ks) := by
  intro h
  have hlen : (3 :: List.replicate 4608 0 : List UInt8).length = 4609 := by
    rw [List.length_cons, List.length_replicate]
  have hwire : shakeSize ≤ (3 :: List.replicate 4608 0 : List UInt8).length := by
    rw [hlen]
    decide
  refine (received_shakesHands rfl hwire (fun _ _ => rfl) (by decide)).mp
    (h [] (3 :: List.replicate 4608 0) [4609] rfl hwire (by decide)) ⟨?_, ?_⟩
  · simp [Overtakes, shakeSize, handshakeSize]
  · rw [hlen]
    decide

end AllCamera.RtmpServer
