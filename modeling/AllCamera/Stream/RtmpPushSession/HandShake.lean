import AllCamera.Stream.RtmpPushSession

/-!
# The handshake of a push session (`handleHandShake`)

The peer sends C0 (one byte), C1 and C2 (1536 bytes each), the session answers with S0, S1 and S2.
The loop of `handleHandShake` takes what is there, and goes on taking blocks of 1536 bytes when C2 is
through: nothing but too short a rest ends it. `m_enHSStatus` is set by the destructor and not by the
constructor, so a new session has what the memory held.

* `RtmpServer`: a session from its constructor on, with what the handshake took and sent.
* `shakeLoop_eq_none`: from a status that is not one of the server's side a call never returns.
* `handleHandShake_spec`: what a call takes when `k` bytes were taken before it.
-/

namespace AllCamera

/-- `RTMP_SESSION_STATUS`. -/
inductive RtmpSessionStatus where
  | init
  | handshaked
  | connected
  | play
  | published
  | teardown
  deriving DecidableEq, Repr

/-- `CStreamRtmpPushSession` with the members of the handshake. `replies` is what the socket took of
it, `shaken` the bytes that were taken as handshake, `parsed` the bytes in front of the message parser
when it is called first; a call that is `hung` does not return. -/
structure RtmpServer where
  session : RtmpPushSession
  enSessionStatus : RtmpSessionStatus
  enHSStatus : Int
  serversig : List UInt8
  replies : List (List UInt8)
  shaken : List UInt8
  parsed : Option (List UInt8)
  hung : Bool

namespace RtmpServer

/-- `RTMP_HANDSHAKE_STATUS_SERVER_CHALLENGE`. -/
def serverChallenge : Int := 1

/-- `RTMP_HANDSHAKE_STATUS_SERVER_RESPONSE`. -/
def serverResponse : Int := 2

/-- `RTMP_HANDSHAKE_STATUS_SERVER_DONE`. -/
def serverDone : Int := 3

/-- `HANDSHAKE_PLAINTEXT`. -/
def handshakePlaintext : UInt8 := 3

/-- `sizeof(Handshake)`. -/
def handshakeSize : Nat := 1536

/-- The constructor, with the `m_enHSStatus` that was in the memory. -/
def new (enHSStatus : Int) (serversig : List UInt8) : RtmpServer where
  session := .init
  enSessionStatus := .init
  enHSStatus := enHSStatus
  serversig := serversig
  replies := []
  shaken := []
  parsed := none
  hung := false

section Code

-- whether the socket takes the next message, by how many it took before
variable (accepts : Nat → Bool)

/-- `sendMessage`, if it returns `RET_OK`. -/
def sendMessage (s : RtmpServer) (data : List UInt8) : Option RtmpServer :=
  if accepts s.replies.length then
    some { s with session := s.session.sendMessage data, replies := s.replies ++ [data] }
  else none

variable (m : Memory) (p unDataSize : Nat)

/-- The first part of a turn: C0. An error is a `return`; beside the session goes `nDealLen`. -/
def recvC0 (c : RtmpServer × Nat) : Except (Int × RtmpServer) (RtmpServer × Nat) :=
  if c.1.enHSStatus = serverChallenge then
    if m p ≠ handshakePlaintext then .error (-1, c.1)
    else
      match c.1.sendMessage accepts [m p] with
      | none => .error (-1, c.1)
      | some s =>
        match s.sendMessage accepts s.serversig with
        | none => .error (-1, s)
        | some s => .ok ({ s with enHSStatus := serverResponse }, c.2 + 1)
  else .ok c

/-- C1. -/
def recvC1 (c : RtmpServer × Nat) : Except (Int × RtmpServer) (RtmpServer × Nat) :=
  if c.1.enHSStatus = serverResponse then
    if unDataSize - c.2 < handshakeSize then .error (c.2, c.1)
    else
      match c.1.sendMessage accepts (m.read (p + c.2 : Nat) handshakeSize) with
      | none => .error (-1, c.1)
      | some s => .ok ({ s with enHSStatus := serverDone }, c.2 + handshakeSize)
  else .ok c

/-- C2. The status of the handshake stays. -/
def recvC2 (c : RtmpServer × Nat) : Except (Int × RtmpServer) (RtmpServer × Nat) :=
  if c.1.enHSStatus = serverDone then
    if unDataSize - c.2 < handshakeSize then .error (c.2, c.1)
    else .ok ({ c.1 with enSessionStatus := .handshaked }, c.2 + handshakeSize)
  else .ok c

/-- One turn of the loop. -/
def shakeTurn (c : RtmpServer × Nat) : Except (Int × RtmpServer) (RtmpServer × Nat) := do
  let c ← recvC0 accepts m p c
  let c ← recvC1 accepts m p unDataSize c
  recvC2 unDataSize c

/-- The turns, `fuel` at most. -/
def shakeLoop : Nat → RtmpServer × Nat → Option (Int × RtmpServer)
  | 0, _ => none
  | fuel + 1, c =>
    match shakeTurn accepts m p unDataSize c with
    | .error r => some r
    | .ok c => shakeLoop fuel c

/-- `handleHandShake`. A turn that does not leave takes a block, or changes nothing. -/
def handleHandShake (s : RtmpServer) : Receiver.Handled RtmpServer :=
  match shakeLoop accepts m p unDataSize (unDataSize + 1) (s, 0) with
  | none => ⟨-1, m, { s with hung := true }⟩
  | some r => ⟨r.1, m, { r.2 with shaken := r.2.shaken ++ m.read p r.1.toNat }⟩

/-- `processRecvedMessage`. -/
def processRecvedMessage (s : RtmpServer) (m : Memory) (p unDataSize : Nat) :
    Receiver.Handled RtmpServer :=
  if unDataSize = 0 then ⟨-1, m, s⟩
  else if s.enSessionStatus = .init then handleHandShake accepts m p unDataSize s
  else
    let r := s.session.processRecvedMessage m p unDataSize
    ⟨r.nSize, r.data,
      { s with session := r.user, parsed := some (s.parsed.getD (m.read p unDataSize)) }⟩

end Code

/-- From a status that is not one of the server's side a turn does nothing, and there is no end. -/
theorem shakeLoop_eq_none {accepts : Nat → Bool} {m : Memory} {p n : Nat} {c : RtmpServer × Nat}
    (hchallenge : c.1.enHSStatus ≠ serverChallenge) (hresponse : c.1.enHSStatus ≠ serverResponse)
    (hdone : c.1.enHSStatus ≠ serverDone) (fuel : Nat) : shakeLoop accepts m p n fuel c = none := by
  have hturn : shakeTurn accepts m p n c = .ok c := by
    have h0 : recvC0 accepts m p c = .ok c := if_neg hchallenge
    have h1 : recvC1 accepts m p n c = .ok c := if_neg hresponse
    unfold shakeTurn
    rw [h0]
    change (recvC1 accepts m p n c >>= recvC2 n) = _
    rw [h1]
    exact if_neg hdone
  induction fuel with
  | zero => rfl
  | succ fuel ih =>
    unfold shakeLoop
    rw [hturn]
    exact ih

/-! ## A call -/

/-- The bytes of C0, C1 and C2. -/
def shakeSize : Nat := 1 + 2 * handshakeSize

/-- What the handshake has taken when `t` bytes are there, C2 complete or not. -/
def taken (t : Nat) : Nat :=
  if t = 0 then 0 else if t < 1 + handshakeSize then 1 else if t < shakeSize then 1 + handshakeSize
  else shakeSize + handshakeSize * ((t - shakeSize) / handshakeSize)

theorem taken_cases (t : Nat) :
    (t = 0 ∧ taken t = 0) ∨ (0 < t ∧ t < 1 + 1536 ∧ taken t = 1) ∨
      (1 + 1536 ≤ t ∧ t < 3073 ∧ taken t = 1 + 1536) ∨
      (3073 ≤ t ∧ taken t = 3073 + 1536 * ((t - 3073) / 1536)) := by
  by_cases h0 : t = 0
  · exact .inl ⟨h0, if_pos h0⟩
  by_cases h1 : t < 1 + handshakeSize
  · exact .inr (.inl ⟨by omega, h1, by rw [taken, if_neg h0, if_pos h1]⟩)
  by_cases h2 : t < shakeSize
  · exact .inr (.inr (.inl ⟨Nat.not_lt.mp h1, h2, by rw [taken, if_neg h0, if_neg h1, if_pos h2]; rfl⟩))
  · exact .inr (.inr (.inr ⟨Nat.not_lt.mp h2, by rw [taken, if_neg h0, if_neg h1, if_neg h2]; rfl⟩))

/-- S0, S1 and S2, as far as they are due when `k` bytes of `wire` are taken. -/
def due (sig wire : List UInt8) (k : Nat) : List (List UInt8) :=
  if k = 0 then [] else if k = 1 then [wire.take 1, sig]
  else [wire.take 1, sig, (wire.drop 1).take handshakeSize]

/-- A session that has taken `k` bytes of `wire`, the first `k₀` of them before the call that is going
on. -/
structure Stage (sig wire : List UInt8) (k₀ k : Nat) (s : RtmpServer) : Prop where
  enHSStatus : s.enHSStatus = if k = 0 then serverChallenge else if k = 1 then serverResponse
    else serverDone
  status : s.enSessionStatus = if k < shakeSize then .init else .handshaked
  replies : s.replies = due sig wire k
  serversig : s.serversig = sig
  shaken : s.shaken = wire.take k₀
  parsed : s.parsed = none

variable {accepts : Nat → Bool} {sig wire : List UInt8} {m : Memory} {p n k₀ k d : Nat} {s : RtmpServer}

theorem sendMessage_ok (h : accepts s.replies.length = true) (data : List UInt8) :
    s.sendMessage accepts data =
      some { s with session := s.session.sendMessage data, replies := s.replies ++ [data] } :=
  if_pos h

/-- The bytes of `wire` from `k` on are in the buffer. -/
def Shows (m : Memory) (p n : Nat) (wire : List UInt8) (k : Nat) : Prop :=
  m.read p n = (wire.drop k).take n

theorem Shows.read (h : Shows m p n wire k) {i j : Nat} (hij : i + j ≤ n) :
    m.read (p + i : Nat) j = (wire.drop (k + i)).take j := by
  have h1 := congrArg (fun l => (l.drop i).take j) h
  simp only [Memory.drop_read, List.drop_take, List.drop_drop, List.take_take] at h1
  rw [Memory.take_read _ _ _ _ (by omega), Nat.min_eq_left (by omega)] at h1
  rw [← h1]
  rfl

theorem recvC0_ok (hs : Stage sig wire k₀ 0 s) (hC0 : wire.head? = some handshakePlaintext)
    (hp : Shows m p n wire 0) (hn : 0 < n) (hsend : ∀ i < 3, accepts i = true) :
    ∃ s', recvC0 accepts m p (s, 0) = .ok (s', 1) ∧ Stage sig wire k₀ 1 s' := by
  have hbyte : wire.take 1 = [m p] := by
    have := hp.read (i := 0) (j := 1) (by omega)
    rw [Nat.add_zero, Nat.add_zero, List.drop_zero] at this
    rw [← this]
    rfl
  have hplain : m p = handshakePlaintext := by
    cases wire with
    | nil => cases hC0
    | cons b l =>
      have hb : b = m p := by simpa using hbyte
      have hh : b = handshakePlaintext := by simpa using hC0
      rw [← hb, hh]
  have hnil : s.replies = [] := hs.replies
  have h1 : accepts s.replies.length = true := by
    rw [hnil]
    exact hsend 0 (by omega)
  have h2 : accepts (s.replies ++ [[m p]]).length = true := by
    rw [hnil]
    exact hsend 1 (by omega)
  have hstatus : s.enHSStatus = serverChallenge := hs.enHSStatus
  unfold recvC0
  dsimp only
  rw [if_pos hstatus, if_neg (not_not.mpr hplain), sendMessage_ok h1]
  dsimp only
  rw [sendMessage_ok h2]
  refine ⟨_, rfl, rfl, hs.status, ?_, hs.serversig, hs.shaken, hs.parsed⟩
  simp only [hnil, hs.serversig, due, hbyte]
  rfl

theorem recvC0_skip (hs : Stage sig wire k₀ k s) (hk : 0 < k) :
    recvC0 accepts m p (s, d) = .ok (s, d) := by
  refine if_neg ?_
  rw [hs.enHSStatus, if_neg (by omega)]
  split <;> decide

theorem recvC1_wait (hs : Stage sig wire k₀ 1 s) (hn : n - d < handshakeSize) :
    recvC1 accepts m p n (s, d) = .error ((d : Int), s) := by
  have hstatus : s.enHSStatus = serverResponse := hs.enHSStatus
  unfold recvC1
  dsimp only
  rw [if_pos hstatus, if_pos hn]

theorem recvC1_ok (hs : Stage sig wire k₀ 1 s) (hd : k₀ + d = 1)
    (hp : Shows m p n wire k₀) (hn : d + handshakeSize ≤ n) (hsend : ∀ i < 3, accepts i = true) :
    ∃ s', recvC1 accepts m p n (s, d) = .ok (s', d + handshakeSize) ∧
      Stage sig wire k₀ (1 + handshakeSize) s' := by
  have htwo : s.replies = [wire.take 1, sig] := hs.replies
  have hstatus : s.enHSStatus = serverResponse := hs.enHSStatus
  have h3 : accepts s.replies.length = true := by
    rw [htwo]
    exact hsend 2 (by omega)
  unfold recvC1
  dsimp only
  rw [if_pos hstatus, if_neg (by omega), sendMessage_ok h3, hp.read hn, hd]
  refine ⟨_, rfl, rfl, hs.status, ?_, hs.serversig, hs.shaken, hs.parsed⟩
  simp only [htwo]
  rfl

theorem recvC1_skip (hs : Stage sig wire k₀ k s) (hk : 1 < k) :
    recvC1 accepts m p n (s, d) = .ok (s, d) := by
  refine if_neg ?_
  rw [hs.enHSStatus, if_neg (by omega), if_neg (by omega)]
  decide

theorem recvC2_wait (hs : Stage sig wire k₀ k s) (hk : 1 < k) (hn : n - d < handshakeSize) :
    recvC2 n (s, d) = .error ((d : Int), s) := by
  have hstatus := hs.enHSStatus
  rw [if_neg (by omega), if_neg (by omega)] at hstatus
  unfold recvC2
  dsimp only
  rw [if_pos hstatus, if_pos hn]

theorem recvC2_ok (hs : Stage sig wire k₀ k s) (hk : 1 + handshakeSize ≤ k)
    (hn : d + handshakeSize ≤ n) :
    ∃ s', recvC2 n (s, d) = .ok (s', d + handshakeSize) ∧
      Stage sig wire k₀ (k + handshakeSize) s' := by
  simp only [handshakeSize] at hk
  have hhs := hs.enHSStatus
  have hreplies := hs.replies
  simp only [due, if_neg (show k ≠ 0 by omega), if_neg (show k ≠ 1 by omega)] at hhs hreplies
  unfold recvC2
  dsimp only
  rw [if_pos hhs, if_neg (by omega)]
  refine ⟨_, rfl, ?_, ?_, ?_, hs.serversig, hs.shaken, hs.parsed⟩
  · rw [if_neg (by omega), if_neg (by simp only [handshakeSize]; omega)]
    exact hhs
  · rw [if_neg (by simp only [handshakeSize, shakeSize]; omega)]
  · rw [due, if_neg (by omega), if_neg (by simp only [handshakeSize]; omega)]
    exact hreplies

/-- From C2 on a turn takes a block, or leaves with too short a rest. -/
theorem shakeLoop_done (accepts : Nat → Bool) (m : Memory) (p fuel : Nat)
    (hs : Stage sig wire k₀ k s) (hk : 1 + handshakeSize ≤ k) (hd : d ≤ n) (hfuel : (n - d) / handshakeSize < fuel) :
    ∃ s', shakeLoop accepts m p n fuel (s, d) =
        some (((d + handshakeSize * ((n - d) / handshakeSize) : Nat) : Int), s') ∧
      Stage sig wire k₀ (k + handshakeSize * ((n - d) / handshakeSize)) s' := by
  induction fuel generalizing k d s with
  | zero => exact absurd hfuel (Nat.not_lt_zero _)
  | succ fuel ih =>
    have hk1 : 1 < k := Nat.lt_of_lt_of_le (by decide) hk
    have hturn : shakeTurn accepts m p n (s, d) = recvC2 n (s, d) := by
      unfold shakeTurn
      rw [recvC0_skip hs (by omega)]
      change (recvC1 accepts m p n (s, d) >>= recvC2 n) = _
      rw [recvC1_skip hs hk1]
      rfl
    unfold shakeLoop
    rw [hturn]
    by_cases hn : n - d < handshakeSize
    · rw [recvC2_wait hs hk1 hn]
      exact ⟨s, by simp [Nat.div_eq_of_lt hn], by simpa [Nat.div_eq_of_lt hn] using hs⟩
    · obtain ⟨s', hok, hs'⟩ := recvC2_ok (n := n) (d := d) hs hk (by omega)
      rw [hok]
      have hdiv : (n - d) / handshakeSize = (n - (d + handshakeSize)) / handshakeSize + 1 := by
        simp only [handshakeSize] at hn ⊢
        omega
      obtain ⟨s'', hloop, hs''⟩ := ih (d := d + handshakeSize) hs' (by omega) (by omega) (by omega)
      refine ⟨s'', hloop.trans ?_, ?_⟩
      · rw [hdiv, Nat.mul_succ]
        congr 3
        omega
      · rw [hdiv, Nat.mul_succ]
        rwa [Nat.add_assoc, Nat.add_comm handshakeSize] at hs''

/-- The first turn up to C1. -/
theorem recvC0_first (hs : Stage sig wire k k s) (hk : k = 0 ∨ k = 1)
    (hC0 : wire.head? = some handshakePlaintext) (hp : Shows m p n wire k) (hn : 0 < n)
    (hsend : ∀ i < 3, accepts i = true) :
    ∃ s', recvC0 accepts m p (s, 0) = .ok (s', 1 - k) ∧ Stage sig wire k 1 s' := by
  rcases hk with rfl | rfl
  · exact recvC0_ok hs hC0 hp hn hsend
  · exact ⟨s, recvC0_skip hs (by decide), hs⟩

/-- Without the whole of C1 the first turn is the last one. -/
theorem shakeLoop_short (fuel : Nat) (hs : Stage sig wire k k s) (hk : k = 0 ∨ k = 1)
    (hC0 : wire.head? = some handshakePlaintext) (hp : Shows m p n wire k) (hn : 0 < n)
    (hshort : k + n < 1 + handshakeSize) (hsend : ∀ i < 3, accepts i = true) :
    ∃ s', shakeLoop accepts m p n (fuel + 1) (s, 0) = some (((1 - k : Nat) : Int), s') ∧
      Stage sig wire k 1 s' := by
  obtain ⟨s', hok, hs'⟩ := recvC0_first hs hk hC0 hp hn hsend
  have hwait : recvC1 accepts m p n (s', 1 - k) = .error (((1 - k : Nat) : Int), s') :=
    recvC1_wait hs' (by omega)
  refine ⟨s', ?_, hs'⟩
  unfold shakeLoop shakeTurn
  rw [hok]
  change (match recvC1 accepts m p n (s', 1 - k) >>= recvC2 n with
    | .error r => some r
    | .ok c => shakeLoop accepts m p n fuel c) = _
  rw [hwait]
  rfl

/-- With C1 the first turn goes on as a turn in front of C2 does. -/
theorem shakeLoop_long (fuel : Nat) (hs : Stage sig wire k k s) (hk : k = 0 ∨ k = 1)
    (hC0 : wire.head? = some handshakePlaintext) (hp : Shows m p n wire k) (hn : 0 < n)
    (hlong : 1 + handshakeSize ≤ k + n) (hsend : ∀ i < 3, accepts i = true) :
    ∃ s', shakeLoop accepts m p n (fuel + 1) (s, 0) =
        shakeLoop accepts m p n (fuel + 1) (s', 1 + handshakeSize - k) ∧
      Stage sig wire k (1 + handshakeSize) s' := by
  obtain ⟨s₁, hok₁, hs₁⟩ := recvC0_first hs hk hC0 hp hn hsend
  obtain ⟨s₂, hok₂, hs₂⟩ := recvC1_ok (d := 1 - k) hs₁ (by omega) hp (by omega) hsend
  rw [show 1 - k + handshakeSize = 1 + handshakeSize - k by omega] at hok₂
  have hturn : shakeTurn accepts m p n (s, 0) = recvC2 n (s₂, 1 + handshakeSize - k) := by
    unfold shakeTurn
    rw [hok₁]
    change (recvC1 accepts m p n (s₁, 1 - k) >>= recvC2 n) = _
    rw [hok₂]
    rfl
  have hturn₂ : shakeTurn accepts m p n (s₂, 1 + handshakeSize - k) =
      recvC2 n (s₂, 1 + handshakeSize - k) := by
    unfold shakeTurn
    rw [recvC0_skip hs₂ (by decide)]
    change (recvC1 accepts m p n (s₂, _) >>= recvC2 n) = _
    rw [recvC1_skip hs₂ (by decide)]
    rfl
  refine ⟨s₂, ?_, hs₂⟩
  unfold shakeLoop
  rw [hturn, hturn₂]

/-- A call with `n` bytes behind the `k` that were taken. -/
theorem handleHandShake_spec (hs : Stage sig wire k k s)
    (hk : k = 0 ∨ k = 1 ∨ k = 1 + handshakeSize) (hC0 : wire.head? = some handshakePlaintext)
    (hp : Shows m p n wire k) (hn : 0 < n) (hlen : k + n ≤ wire.length)
    (hsend : ∀ i < 3, accepts i = true) :
    ∃ s', handleHandShake accepts m p n s = ⟨((taken (k + n) - k : Nat) : Int), m, s'⟩ ∧
      Stage sig wire (taken (k + n)) (taken (k + n)) s' := by
  have htaken : k ≤ taken (k + n) ∧ taken (k + n) ≤ k + n := by
    have hcases := taken_cases (k + n)
    simp only [handshakeSize] at hk
    omega
  -- what the loop gives
  have hloop : ∃ s', shakeLoop accepts m p n (n + 1) (s, 0) =
      some (((taken (k + n) - k : Nat) : Int), s') ∧ Stage sig wire k (taken (k + n)) s' := by
    by_cases hshort : k + n < 1 + handshakeSize
    · have h1 : taken (k + n) = 1 := by
        rw [taken, if_neg (by omega), if_pos hshort]
      rw [h1]
      exact shakeLoop_short n hs (by omega) hC0 hp hn hshort hsend
    · have hblock : ∃ s', shakeLoop accepts m p n (n + 1) (s, 0) =
            shakeLoop accepts m p n (n + 1) (s', 1 + handshakeSize - k) ∧
          Stage sig wire k (1 + handshakeSize) s' := by
        by_cases hk1 : k = 1 + handshakeSize
        · subst hk1
          exact ⟨s, by rw [Nat.sub_self], hs⟩
        · exact shakeLoop_long n hs (by omega) hC0 hp hn (by omega) hsend
      obtain ⟨s₁, hfirst, hs₁⟩ := hblock
      have hfuel : (n - (1 + handshakeSize - k)) / handshakeSize < n + 1 := by
        simp only [handshakeSize]
        omega
      obtain ⟨s₂, hrest, hs₂⟩ := shakeLoop_done accepts m p (n + 1) hs₁ (Nat.le_refl _) (by omega) hfuel
      have hsum : 1 + handshakeSize +
          handshakeSize * ((n - (1 + handshakeSize - k)) / handshakeSize) = taken (k + n) := by
        have hcases := taken_cases (k + n)
        simp only [handshakeSize] at hk hshort ⊢
        omega
      have hdealt : 1 + handshakeSize - k +
          handshakeSize * ((n - (1 + handshakeSize - k)) / handshakeSize) = taken (k + n) - k := by
        omega
      rw [hsum] at hs₂
      exact ⟨s₂, by rw [hfirst, hrest, hdealt], hs₂⟩
  obtain ⟨s', hloop, hs'⟩ := hloop
  unfold handleHandShake
  rw [hloop]
  refine ⟨_, rfl, hs'.enHSStatus, hs'.status, hs'.replies, hs'.serversig, ?_, hs'.parsed⟩
  have hread := hp.read (i := 0) (j := taken (k + n) - k) (by omega)
  simp only [Nat.add_zero] at hread
  dsimp only
  rw [hs'.shaken, Int.toNat_natCast, hread, ← List.take_add, Nat.add_sub_cancel' htaken.1]

end RtmpServer

end AllCamera
