import AllCamera.Vms.ClientLink.Effects

/-!
# What a link receives

* `Framed`: the handler has got exactly the messages in the bytes received, but for the heartbeats.
* `Framed.step`, `run_framed`: it holds after every run.
* `Alive`, `run_alive`: a connected link has not missed more than three heartbeats since it could read.
-/

namespace AllCamera.ClientLink

open SvsMsg

variable {l l' : ClientLink}

/-- The handler has got the messages among the units of the bytes that were received, and behind these is what
the buffer holds; when the bytes went wrong the link is not connected any more. -/
structure Framed (l : ClientLink) : Prop where
  splits : ∃ us rest ok, svsFraming.Splits l.got us rest ok ∧ l.handled = us.filter notHeartbeat ∧
    (l.connFlag = .connected → ok = true ∧ rest = l.recvBuff)
  connecting : l.connFlag = .connecting → l.got = [] ∧ l.recvBuff = []
  length_le : l.recvBuff.length ≤ maxRecvBuff

/-- Nothing is received and no received message handed over. -/
theorem Framed.of_same (h : Framed l) (hg : l'.got = l.got) (hb : l'.recvBuff = l.recvBuff)
    (hh : l'.handled = l.handled) (hf : l'.connFlag = l.connFlag ∨ l'.connFlag = .closing ∨ l'.connFlag = .closed) :
    Framed l' := by
  obtain ⟨us, rest, ok, hs, hu, hbuf⟩ := h.splits
  have hopen : ∀ f, f = .connected ∨ f = .connecting → l'.connFlag = f → l.connFlag = f := by
    rintro f hf' rfl
    rcases hf with hf | hf | hf
    · exact hf.symm
    · rw [hf] at hf'
      exact absurd hf' (by decide)
    · rw [hf] at hf'
      exact absurd hf' (by decide)
  refine ⟨⟨us, rest, ok, hg ▸ hs, hh.trans hu, fun hc => ?_⟩, fun hc => ?_, hb ▸ h.length_le⟩
  · rw [hb]
    exact hbuf (hopen _ (.inl rfl) hc)
  · rw [hg, hb]
    exact h.connecting (hopen _ (.inr rfl) hc)

theorem Framed.finishSend (h : Framed l) (s : SendMsgHead) : Framed (l.finishSend s) := by
  obtain ⟨_, _, _, he⟩ := finishSend_eq l s
  rw [he]
  exact h.of_same rfl rfl rfl (.inl rfl)

theorem handled_append {ns : List Notice} (h : l'.notices = l.notices ++ ns) (hns : ∀ n ∈ ns, handledMsg n = none) :
    l'.handled = l.handled := by
  rw [handled, h, List.filterMap_append, List.filterMap_eq_nil_iff.mpr hns, List.append_nil, handled]

theorem handled_parsed (l : ClientLink) (seg : List UInt8) (us : List SvsMsg) (rest : List UInt8) (now : Int) :
    (l.parsed seg us rest now).handled = l.handled ++ us.filter notHeartbeat := by
  obtain ⟨w, a, r, he, -⟩ := parsed_eq l seg us rest now
  rw [he, handled, List.filterMap_append, List.filterMap_map]
  congr 1
  exact List.filterMap_some

/-- No message is handed over as received when the link checks or ends. -/
theorem handled_checkRespMsg (l : ClientLink) (interval : UInt32) (now : Int) :
    (l.checkRespMsg interval now).handled = l.handled := by
  refine handled_append rfl fun n hn => ?_
  obtain ⟨s, -, rfl⟩ := List.mem_map.mp hn
  rfl

theorem handled_leaving {ns : List Notice} (hns : ∀ n ∈ ns, ∃ t, n = .conn t)
    (h : l'.notices = l.notices ++ (ns ++ l.leaving)) : l'.handled = l.handled := by
  refine handled_append h ?_
  simp only [leaving, List.mem_append, List.mem_cons, List.mem_map, List.not_mem_nil, or_false]
  rintro n (hn | ⟨s, -, rfl⟩ | rfl | ⟨e, -, rfl⟩ | rfl)
  · obtain ⟨t, rfl⟩ := hns n hn
    rfl
  · rfl
  · rfl
  · rfl
  · rfl

theorem Framed.effect (h : Framed l) {e : Event} (he : Effect e l l') : Framed l' := by
  cases he with
  | lost => exact h.of_same rfl rfl rfl (.inl rfl)
  | part => exact h.of_same rfl rfl rfl (.inl rfl)
  | whole =>
    refine Framed.finishSend ?_ _
    exact h.of_same rfl rfl rfl (.inl rfl)
  | queued => exact h.of_same rfl rfl rfl (.inl rfl)
  | sentPart => exact h.of_same rfl rfl rfl (.inl rfl)
  | sentWhole =>
    refine Framed.finishSend ?_ _
    exact h.of_same rfl rfl rfl (.inl rfl)
  | drained => exact h.of_same rfl rfl rfl (.inl rfl)
  | made _ hc =>
    -- nothing was received yet
    obtain ⟨hg, hb⟩ := h.connecting hc
    obtain ⟨us, rest, ok, hs, hh, -⟩ := h.splits
    have hnil := hs
    rw [hg] at hnil
    obtain ⟨-, rfl, rfl⟩ := hnil.unique (.more svsFraming.cut_nil)
    refine ⟨⟨us, [], true, hs, ?_, fun _ => ⟨rfl, hb.symm⟩⟩, nofun, h.length_le⟩
    exact (handled_append rfl (by simp [handledMsg])).trans hh
  | broken => exact h.of_same rfl rfl rfl (.inr (.inl rfl))
  | heard => exact h.of_same rfl rfl rfl (.inl rfl)
  | received seg vs rest' _ _ hc hlen hv =>
    obtain ⟨us, rest, ok, hs, hh, hbuf⟩ := h.splits
    obtain ⟨rfl, rfl⟩ := hbuf hc
    have hhandled := handled_parsed l seg vs rest' e.now
    rw [hh, ← List.filter_append] at hhandled
    have hrest := congrArg List.length hv.flatten
    simp only [List.length_append] at hrest
    obtain ⟨w, a, r, he, -⟩ := parsed_eq l seg vs rest' e.now
    rw [he] at hhandled ⊢
    refine ⟨⟨_, rest', true, hs.append hv, hhandled, fun _ => ⟨rfl, rfl⟩⟩, fun hno => ?_, ?_⟩
    · cases hc.symm.trans hno
    · change rest'.length ≤ maxRecvBuff
      omega
  | failed seg vs rest' _ _ hc hv =>
    obtain ⟨us, rest, ok, hs, hh, hbuf⟩ := h.splits
    obtain ⟨rfl, rfl⟩ := hbuf hc
    have hhandled := handled_parsed l seg vs [] e.now
    rw [hh, ← List.filter_append] at hhandled
    obtain ⟨w, a, r, he, -⟩ := parsed_eq l seg vs [] e.now
    rw [he] at hhandled ⊢
    exact ⟨⟨_, rest', false, hs.append hv, hhandled, nofun⟩, nofun, Nat.zero_le _⟩
  | checked interval => exact h.of_same rfl rfl (handled_checkRespMsg l interval e.now) (.inl rfl)
  | ended ns out hns => exact h.of_same rfl rfl (handled_leaving hns rfl) (.inr (.inr rfl))

/-- Every call keeps it. -/
theorem Framed.step (h : Framed l) (e : Event) : Framed (l.step e) := by
  refine step_keeps h (fun interval now h hc hb => ?_) fun h he => h.effect he
  obtain ⟨us, rest, ok, hs, hh, hbuf⟩ := h.splits
  cases hb with
  | mk b r s =>
    refine ⟨⟨us, rest, ok, hs, hh, fun _ => hbuf hc⟩, fun hno => ?_, h.length_le⟩
    simp only at hno
    split at hno
    · cases hno
    · cases hc.symm.trans hno

theorem framed_started (unLinkId : Nat) (ans : StartAnswer) (now : Int) : Framed (started unLinkId ans now) := by
  have hnew : ∀ {l : ClientLink}, l.got = [] → l.recvBuff = [] → l.handled = [] → Framed l := by
    intro l hg hb hh
    refine ⟨⟨[], [], true, ?_, hh, fun _ => ⟨rfl, hb.symm⟩⟩, fun _ => ⟨hg, hb⟩, ?_⟩
    · rw [hg]
      exact .more svsFraming.cut_nil
    · rw [hb]
      exact Nat.zero_le _
  cases ans with
  | failed => exact hnew rfl rfl rfl
  | inProgress added => exact hnew rfl rfl rfl
  | connected => exact hnew rfl rfl rfl

/-- In every run of a link, whatever `recv` returns and whatever is called in between, the handler has got exactly
the messages in the bytes that were received, whole, in order and each once, but for the heartbeats. -/
theorem run_framed (unLinkId : Nat) (ans : StartAnswer) (now : Int) (es : List Event) :
    Framed (Run.run step (started unLinkId ans now) es) :=
  Run.run_invariant (framed_started unLinkId ans now) fun _ e h => h.step e

/-! ## Missed heartbeats -/

/-- The connection is being made, or is there. -/
def Open (l : ClientLink) : Prop := l.connFlag = .connecting ∨ l.connFlag = .connected

/-- The call is a check that misses a heartbeat. -/
def late (l : ClientLink) : Event → Bool
  | .timer interval now _ _ => l.connFlag = .connected ∧ toInt32 (interval - 1) < |now - l.lastRecvHeartbeatTime| ∧
      |now - l.lastRecvHeartbeatTime| ≤ toInt32 ((interval - 1) * 3)
  | _ => false

/-- A link, and how many heartbeats it missed since its socket was readable. -/
def beatStep (p : ClientLink × Nat) (e : Event) : ClientLink × Nat :=
  (p.1.step e, if e.reads then 0 else p.2 + (p.1.late e).toNat)

/-- No more than three were missed. -/
def Alive (p : ClientLink × Nat) : Prop :=
  p.1.Open → p.2 ≤ p.1.heartbeatTimes.toNat ∧ p.1.heartbeatTimes.toNat ≤ heartbeatTimeoutTimes

/-- Only reading makes the count less, and no call opens a link. -/
def KeepsBeats (e : Event) (l l' : ClientLink) : Prop :=
  l'.Open → l.Open ∧ (l'.heartbeatTimes = l.heartbeatTimes ∨ e.reads = true ∧ l'.heartbeatTimes = 0)

theorem Effect.beats {e : Event} (he : Effect e l l') : KeepsBeats e l l' := by
  have hsame : ∀ {l' : ClientLink}, l'.connFlag = l.connFlag → l'.heartbeatTimes = l.heartbeatTimes →
      KeepsBeats e l l' := fun hf ht ho => ⟨by rwa [Open, hf] at ho, .inl ht⟩
  cases he with
  | whole => exact hsame (finishSend_rest _ _).2.1 (finishSend_rest _ _).2.2
  | sentWhole => exact hsame (finishSend_rest _ _).2.1 (finishSend_rest _ _).2.2
  | made _ hc => exact fun _ => ⟨.inl hc, .inl rfl⟩
  | broken => exact fun ho => absurd ho (by simp [Open])
  | heard hr hc => exact fun _ => ⟨.inr hc, .inr ⟨hr, rfl⟩⟩
  | received seg us rest =>
    obtain ⟨_, _, _, he, -⟩ := parsed_eq l seg us rest e.now
    rw [he]
    exact hsame rfl rfl
  | failed => exact fun ho => absurd ho (by simp [Open])
  | ended => exact fun ho => absurd ho (by simp [Open])
  | _ => exact hsame rfl rfl

theorem Effects.beats {e : Event} (h : Effects e l l') : KeepsBeats e l l' := by
  induction h with
  | refl => exact fun ho => ⟨ho, .inl rfl⟩
  | tail _ he ih =>
    intro ho
    obtain ⟨ho, ht⟩ := he.beats ho
    exact ⟨(ih ho).1, ht.elim (fun ht => ht ▸ (ih ho).2) .inr⟩

/-- The fourth heartbeat in a row that is missed ends the connection. -/
theorem Alive.step {p : ClientLink × Nat} (h : Alive p) (e : Event) : Alive (beatStep p e) := by
  obtain ⟨l, k⟩ := p
  intro ho
  by_cases hcheck : ∃ interval now out alloc, e = .timer interval now out alloc ∧ l.connFlag = .connected
  · obtain ⟨interval, now, out, alloc, rfl, hc⟩ := hcheck
    obtain ⟨hk, ht⟩ : k ≤ l.heartbeatTimes.toNat ∧ l.heartbeatTimes.toNat ≤ 3 := h (.inr hc)
    obtain ⟨_, ⟨b, r, s, hb⟩, hs⟩ := step_timer hc interval now out alloc
    obtain ⟨ho', hb' | ⟨hno, -⟩⟩ := hs.beats ho
    · have hle : b.toNat ≤ heartbeatTimeoutTimes := by
        by_contra hgt
        simp [Open, Nat.not_le.mp hgt] at ho'
      refine ⟨?_, hb' ▸ hle⟩
      change k + (l.late _).toNat ≤ (l.step _).heartbeatTimes.toNat
      rw [hb']
      rcases hb with ⟨hset, rfl, -⟩ | ⟨hset, hmiss, rfl, -⟩ | ⟨hnear, rfl, -⟩
      · simp [late, not_le.mpr hset, hk]
      · simp [late, hc, hset, hmiss]
        omega
      · simp [late, not_lt.mpr hnear, hk]
    · cases hno
  · have hs := step_effects l e fun _ _ _ _ he hc => hcheck ⟨_, _, _, _, he, hc⟩
    obtain ⟨ho', ht⟩ := hs.beats ho
    obtain ⟨hk, hle⟩ := h ho'
    have hnone : l.late e = false := by
      cases e with
      | timer => simpa [late] using fun hc => absurd hc fun hc => hcheck ⟨_, _, _, _, rfl, hc⟩
      | _ => rfl
    rw [beatStep, hnone]
    rcases ht with ht | ⟨hr, ht⟩
    · change (if e.reads then 0 else k) ≤ (l.step e).heartbeatTimes.toNat ∧ (l.step e).heartbeatTimes.toNat ≤ _
      rw [ht]
      split
      · exact ⟨Nat.zero_le _, hle⟩
      · exact ⟨hk, hle⟩
    · rw [hr]
      exact ⟨Nat.zero_le _, by simp [ht]⟩

/-- In every run, a link that is connected has missed at most three heartbeats since its socket was readable: with the
fourth it is given up, and the count in eight bits never wraps. -/
theorem run_alive (unLinkId : Nat) (ans : StartAnswer) (now : Int) (es : List Event) :
    Alive (Run.run beatStep (started unLinkId ans now, 0) es) := by
  refine Run.run_invariant ?_ fun _ e h => h.step e
  cases ans <;> exact fun _ => ⟨le_refl _, Nat.zero_le _⟩

end AllCamera.ClientLink
