import AllCamera.Vms.ClientLink.Parse
import Mathlib.Logic.Relation

/-!
# What a call of a link does

A call is a sequence of effects, so that what every effect keeps is kept by every call.

* `Effect e l l'`: something that the call `e` may do. `Beaten`: what a check makes of the time first.
* `step_effects`, `step_timer`: a call is such a sequence; behind `Beaten`, if it is a check of a connected link.
* `step_keeps`: what each of them keeps, a call keeps.
-/

namespace AllCamera.ClientLink

open SvsMsg Relation

/-! ## Calls -/

namespace Event

/-- The call does not run out of memory. -/
def hasMemory : Event → Bool
  | .sendMsg _ _ _ _ alloc _ => alloc
  | .timer _ _ _ alloc => alloc
  | _ => true

/-- When the call is made, if it asks for the time. -/
def now : Event → Int
  | .sendMsg _ _ _ _ _ now => now
  | .socket _ _ _ _ _ now => now
  | .timer _ now _ _ => now
  | .stopConn => 0

/-- The message, with its timeout, that the call is given to send: the one of `sendMsg`, or a heartbeat. -/
def Offers : Event → SvsMsg → UInt32 → Prop
  | .sendMsg _ pszMsg unTimeout _ _ _, m, t => pszMsg = some m ∧ unTimeout = t
  | .timer _ _ _ _, m, t => m = heartbeat ∧ t = 0
  | _, _, _ => False

/-- The receive thread finds no error on the socket. -/
def polls : Event → Bool
  | .socket err _ _ _ _ _ => !err
  | _ => false

/-- The receive thread finds the socket readable. -/
def reads : Event → Bool
  | .socket err readable _ _ _ _ => !err && readable
  | _ => false

/-- The bytes that the call is given to receive. -/
def segment : Event → List UInt8
  | .socket false true (.data seg) _ _ _ => seg
  | _ => []

end Event

/-! ## Effects -/

/-- What `sendLoop` gives to the socket. -/
def left (s : SendMsgHead) : List UInt8 := (s.msg.take s.msg.packetLength).drop s.unSendSize

/-- The notices of `notifyLeftMessage` and `notifyTimeoutMessage`. -/
def leaving (l : ClientLink) : List Notice :=
  l.msgQueue.map (fun s => .message s.msg .send) ++ .last .send ::
    (l.waitRespMsgMap.entries.map (fun e => .message e.2.msg .timeout) ++ [.last .timeout])

/-- What the call `e` may do to a link. -/
inductive Effect (e : Event) (l : ClientLink) : ClientLink → Prop
  | lost (m : SvsMsg) (n : Nat) (ha : e.hasMemory = false) : Effect e l { l with wire := l.wire ++ m.take n }
  | part (m : SvsMsg) (t : UInt32) (n : Nat) (ho : e.Offers m t) (hc : l.connFlag = .connected)
      (hl : m.packetLength = m.length) (hq : l.msgQueue = []) (hn : n < m.length) : Effect e l { l with
        wire := l.wire ++ m.take n
        msgQueue := [⟨n, t, 0, m⟩]
        epollOut := true
        accepted := l.accepted ++ [m] }
  | whole (m : SvsMsg) (t : UInt32) (ho : e.Offers m t) (hc : l.connFlag = .connected) (hq : l.msgQueue = []) :
      Effect e l ({ l with
        wire := l.wire ++ m
        accepted := l.accepted ++ [m] }.finishSend ⟨m.length, t, e.now, m⟩)
  | queued (m : SvsMsg) (t : UInt32) (ho : e.Offers m t) (hc : l.connFlag = .connected)
      (hl : m.packetLength = m.length) (hq : l.msgQueue ≠ []) : Effect e l { l with
        msgQueue := l.msgQueue ++ [⟨0, t, 0, m⟩]
        accepted := l.accepted ++ [m] }
  | sentPart (s : SendMsgHead) (q : List SendMsgHead) (n : Nat) (hc : l.connFlag = .connected)
      (hq : l.msgQueue = s :: q) : Effect e l { l with
        wire := l.wire ++ (left s).take n
        msgQueue := { s with unSendSize := s.unSendSize + n } :: q
        epollOut := true }
  | sentWhole (s : SendMsgHead) (q : List SendMsgHead) (n : Nat) (hc : l.connFlag = .connected)
      (hq : l.msgQueue = s :: q) (hn : s.msg.packetLength ≤ s.unSendSize + n) : Effect e l ({ l with
        wire := l.wire ++ (left s).take n
        msgQueue := q
        epollOut := !q.isEmpty }.finishSend { s with unSendSize := s.unSendSize + n, tSendTime := e.now })
  | drained (hq : l.msgQueue = []) : Effect e l { l with epollOut := false }
  | made (hp : e.polls = true) (hc : l.connFlag = .connecting) : Effect e l { l with
        connFlag := .connected
        lastSendHeartbeatTime := e.now
        lastRecvHeartbeatTime := e.now
        epollOut := false
        notices := l.notices ++ [.conn .connected] }
  | broken (hc : l.connFlag ≠ .closed) : Effect e l { l with connFlag := .closing }
  | heard (hr : e.reads = true) (hc : l.connFlag = .connected) : Effect e l { l with heartbeatTimes := 0 }
  | received (seg : List UInt8) (us : List SvsMsg) (rest : List UInt8) (hr : e.reads = true)
      (hseg : seg <+: e.segment) (hc : l.connFlag = .connected) (hlen : l.recvBuff.length + seg.length ≤ maxRecvBuff)
      (hs : svsFraming.Splits (l.recvBuff ++ seg) us rest true) : Effect e l (l.parsed seg us rest e.now)
  | failed (seg : List UInt8) (us : List SvsMsg) (rest : List UInt8) (hr : e.reads = true)
      (hseg : seg <+: e.segment) (hc : l.connFlag = .connected)
      (hs : svsFraming.Splits (l.recvBuff ++ seg) us rest false) :
      Effect e l { l.parsed seg us [] e.now with connFlag := .closing }
  | checked (interval : UInt32) : Effect e l (l.checkRespMsg interval e.now)
  | ended (ns : List Notice) (out : Bool) (hns : ∀ n ∈ ns, ∃ t, n = .conn t) : Effect e l { l with
        connFlag := .closed
        epollOut := out
        msgQueue := []
        waitRespMsgMap := .empty
        notices := l.notices ++ (ns ++ l.leaving) }

abbrev Effects (e : Event) : ClientLink → ClientLink → Prop := ReflTransGen (Effect e)

/-- What `checkHearbeatMsg` makes of the time since the last heartbeat: the clock was set, one more was missed, or
none. -/
def Beat (l : ClientLink) (interval : UInt32) (now : Int) (b : UInt8) (r : Int) : Prop :=
  (toInt32 ((interval - 1) * 3) < |now - l.lastRecvHeartbeatTime| ∧ b = l.heartbeatTimes ∧ r = now) ∨
  (|now - l.lastRecvHeartbeatTime| ≤ toInt32 ((interval - 1) * 3) ∧
    toInt32 (interval - 1) < |now - l.lastRecvHeartbeatTime| ∧ b = l.heartbeatTimes + 1 ∧ r = now) ∨
  (|now - l.lastRecvHeartbeatTime| ≤ toInt32 (interval - 1) ∧ b = l.heartbeatTimes ∧ r = l.lastRecvHeartbeatTime)

/-- The link behind that, given up if too many were missed. -/
inductive Beaten (interval : UInt32) (now : Int) (l : ClientLink) : ClientLink → Prop
  | mk (b : UInt8) (r s : Int) (hb : Beat l interval now b r) : Beaten interval now l { l with
      heartbeatTimes := b
      lastRecvHeartbeatTime := r
      lastSendHeartbeatTime := s
      connFlag := if heartbeatTimeoutTimes < b.toNat then .connTimeout else l.connFlag }

/-! ## Calls as effects -/

variable {e : Event} {l l' : ClientLink}

theorem sendMsgToPeer_le {out : SendAnswer} {msg : List UInt8} {n : Nat} (h : sendMsgToPeer out msg = some n) :
    n ≤ msg.length := by
  unfold sendMsgToPeer at h
  cases out with
  | took k =>
    injection h with h
    omega
  | busy =>
    injection h with h
    omega
  | broken => cases h

/-- `sendMsg` has one effect, or none. -/
theorem effects_sendMsg (l : ClientLink) (i : Nat) {m : Option SvsMsg} {t : UInt32} (out : SendAnswer) {alloc : Bool}
    (ho : ∀ m' ∈ m, e.Offers m' t) (ha : alloc = false → e.hasMemory = false) :
    ReflGen (Effect e) l (l.sendMsg i m t out alloc e.now).2 := by
  unfold sendMsg
  by_cases hi : i ≠ l.unLinkId
  · rw [if_pos hi]
  rw [if_neg hi]
  by_cases hc : l.connFlag ≠ .connected
  · rw [if_pos hc]
  rw [if_neg hc]
  rw [not_not] at hc
  cases m with
  | none => exact .refl
  | some m =>
    have ho := ho m rfl
    simp only
    by_cases hl : m.packetLength ≠ m.length
    · rw [if_pos hl]
    rw [if_neg hl]
    rw [not_not] at hl
    by_cases hq : l.msgQueue = []
    · rw [if_pos hq]
      cases hs : sendMsgToPeer out m with
      | none =>
        have hopen : l.connFlag ≠ .closed := by
          rw [hc]
          decide
        simp only
        rw [closeSock, setConnFlag, if_neg hopen]
        exact .single (.broken hopen)
      | some n =>
        simp only
        have hle := sendMsgToPeer_le hs
        by_cases hn : n < m.length
        · rw [if_pos hn]
          cases alloc with
          | true => exact .single (.part m t n ho hc hl hq hn)
          | false => exact .single (.lost m n (ha rfl))
        · rw [if_neg hn]
          obtain rfl : n = m.length := by omega
          split
          · rename_i hw
            exact .single (.lost m _ (ha (by simpa using (Bool.and_eq_true_iff.mp hw).2)))
          · rw [List.take_length]
            exact .single (.whole m t ho hc hq)
    · rw [if_neg hq]
      split
      · exact .refl
      · cases alloc with
        | true => exact .single (.queued m t ho hc hl hq)
        | false => exact .refl

/-- The memory of a message that was sent, or its place in the map. -/
theorem finishSend_eq (l : ClientLink) (s : SendMsgHead) : ∃ w sent leaked,
    l.finishSend s = { l with waitRespMsgMap := w, sent := sent, leaked := leaked } := by
  unfold finishSend addWaitRespMsg
  split_ifs
  · exact ⟨_, _, _, rfl⟩
  · exact ⟨_, _, _, rfl⟩
  · exact ⟨_, _, _, rfl⟩

theorem finishSend_rest (l : ClientLink) (s : SendMsgHead) : (l.finishSend s).got = l.got ∧
    (l.finishSend s).connFlag = l.connFlag ∧ (l.finishSend s).heartbeatTimes = l.heartbeatTimes := by
  obtain ⟨_, _, _, he⟩ := finishSend_eq l s
  rw [he]
  exact ⟨rfl, rfl, rfl⟩

theorem finishSend_queue (l : ClientLink) (q : List SendMsgHead) (out : Bool) (s : SendMsgHead) :
    { l with msgQueue := q, epollOut := out }.finishSend s =
      { l.finishSend s with msgQueue := q, epollOut := out } := by
  unfold finishSend addWaitRespMsg
  split_ifs
  · rfl
  · rfl
  · rfl

theorem handleClose_eq (hc : l.connFlag ≠ .closed) : ∃ t, l.handleClose = { l with
    connFlag := .closed
    epollOut := false
    msgQueue := []
    waitRespMsgMap := .empty
    notices := l.notices ++ ([.conn t] ++ l.leaving) } := by
  refine ⟨if l.connFlag = .connTimeout then .timeout else .disconnect, ?_⟩
  rw [handleClose, if_neg hc, shutdownSock, if_neg hc]
  simp [notifyConnection, notify, notifyLeftMessage, notifyTimeoutMessage, leaving]

theorem effects_handleClose (l : ClientLink) : Effects e l l.handleClose := by
  by_cases hc : l.connFlag = .closed
  · rw [handleClose, if_pos hc]
  · obtain ⟨t, he⟩ := handleClose_eq hc
    rw [he]
    exact .single (.ended [.conn t] false fun n hn => ⟨t, List.mem_singleton.mp hn⟩)

theorem effects_closeOnFail {r : StackRet × ClientLink} (h : Effects e l r.2) : Effects e l (closeOnFail r) := by
  obtain ⟨ret, l'⟩ := r
  cases ret with
  | fail => exact h.trans (effects_handleClose l')
  | _ => exact h

theorem effects_stopConn (l : ClientLink) : Effects e l l.stopConn := by
  refine .single ?_
  have he : l.stopConn = { l with
      connFlag := .closed
      epollOut := l.shutdownSock.epollOut
      msgQueue := []
      waitRespMsgMap := .empty
      notices := l.notices ++ ([] ++ l.leaving) } := by
    unfold stopConn shutdownSock
    split
    · rename_i hc
      simp [notifyLeftMessage, notifyTimeoutMessage, leaving, hc]
    · simp [notifyLeftMessage, notifyTimeoutMessage, leaving]
  rw [he]
  exact .ended [] _ nofun

/-- The loop takes one message after the other off the queue `q`. -/
theorem effects_sendLoop (out : Nat → SendAnswer) (l : ClientLink) (q : List SendMsgHead)
    (hc : l.connFlag = .connected) : Effects e { l with msgQueue := q }
      (closeOnFail (sendLoop out e.now { l with epollOut := false } q)) := by
  induction q generalizing out l with
  | nil => exact .single (.drained rfl)
  | cons s q ih =>
    cases hs : sendMsgToPeer (out 0) (left s) with
    | none =>
      have he : sendLoop out e.now { l with epollOut := false } (s :: q) =
          (.fail, { l with epollOut := false, msgQueue := s :: q }) := by
        unfold left at hs
        simp only [sendLoop, hs]
      rw [he]
      obtain ⟨t, he⟩ := handleClose_eq (l := { l with epollOut := false, msgQueue := s :: q }) (by simp [hc])
      change Effects e _ (handleClose _)
      rw [he]
      exact .single (.ended [.conn t] false fun n hn => ⟨t, List.mem_singleton.mp hn⟩)
    | some n =>
      by_cases hn : s.unSendSize + n < s.msg.packetLength
      · have he : sendLoop out e.now { l with epollOut := false } (s :: q) = (.ok, { l with
            wire := l.wire ++ (left s).take n
            msgQueue := { s with unSendSize := s.unSendSize + n } :: q
            epollOut := true }) := by
          unfold left at hs
          simp only [sendLoop, hs]
          exact if_pos hn
        rw [he]
        exact .single (.sentPart s q n hc rfl)
      · have he : sendLoop out e.now { l with epollOut := false } (s :: q) =
            sendLoop (fun k => out (k + 1)) e.now
              ({ l with wire := l.wire ++ (left s).take n, epollOut := false }.finishSend
                { s with unSendSize := s.unSendSize + n, tSendTime := e.now }) q := by
          unfold left at hs
          simp only [sendLoop, hs]
          exact if_neg hn
        have hsent := finishSend_queue { l with wire := l.wire ++ (left s).take n } q (!q.isEmpty)
          { s with unSendSize := s.unSendSize + n, tSendTime := e.now }
        have hnext := finishSend_queue { l with wire := l.wire ++ (left s).take n } l.msgQueue false
          { s with unSendSize := s.unSendSize + n, tSendTime := e.now }
        obtain ⟨w, sent, leaked, hf⟩ := finishSend_eq { l with wire := l.wire ++ (left s).take n }
          { s with unSendSize := s.unSendSize + n, tSendTime := e.now }
        have hwhole : Effect e { l with msgQueue := s :: q } _ := .sentWhole s q n hc rfl (Nat.not_lt.mp hn)
        simp only at hwhole hsent hnext
        rw [hsent, hf] at hwhole
        rw [he, hnext, hf]
        exact (ih (fun k => out (k + 1)) { l with
          wire := l.wire ++ (left s).take n
          waitRespMsgMap := w
          sent := sent
          leaked := leaked
          epollOut := !q.isEmpty } hc).head hwhole

theorem effects_handleSend (l : ClientLink) (sockErr : Bool) (out : Nat → SendAnswer) (hp : e.polls = true) :
    Effects e l (closeOnFail (l.handleSend sockErr out e.now)) := by
  unfold handleSend
  by_cases hc : l.connFlag = .connecting
  · have hset : ∀ f, l.setConnFlag f = { l with connFlag := f } := fun f => if_neg (by rw [hc]; decide)
    rw [if_pos hc]
    cases sockErr with
    | true =>
      refine effects_closeOnFail ?_
      rw [if_pos rfl, hset]
      exact .single (.broken (by rw [hc]; decide))
    | false =>
      rw [if_neg (by decide), hset]
      exact .single (.made hp hc)
  · rw [if_neg hc]
    by_cases hn : l.connFlag = .connected
    · rw [if_neg (not_not.mpr hn)]
      exact effects_sendLoop out l l.msgQueue hn
    · rw [if_pos hn]
      exact effects_closeOnFail .refl

theorem effects_handleRecv (l : ClientLink) {ans : RecvAnswer} (hr : e.reads = true)
    (hans : ∀ seg, ans = .data seg → e.segment = seg) :
    Effects e l (closeOnFail (l.handleRecv ans e.now)) := by
  unfold handleRecv
  by_cases hc : l.connFlag ≠ .connected
  · rw [if_pos hc]
    exact effects_closeOnFail .refl
  rw [if_neg hc]
  have hc' := not_not.mp hc
  have hheard : Effects e l { l with heartbeatTimes := 0 } := .single (.heard hr hc')
  simp only
  by_cases hfull : maxRecvBuff - l.recvBuff.length = 0
  · rw [if_pos hfull]
    exact hheard
  rw [if_neg hfull]
  cases ans with
  | busy => exact hheard
  | broken => exact effects_closeOnFail hheard
  | data seg =>
    simp only
    by_cases hseg : seg = []
    · rw [if_pos hseg]
      exact effects_closeOnFail hheard
    rw [if_neg hseg]
    obtain ⟨us, rest, ok, hs, he⟩ := received_splits { l with heartbeatTimes := 0 }
      (seg.take (maxRecvBuff - l.recvBuff.length)) e.now
    have hpre : seg.take (maxRecvBuff - l.recvBuff.length) <+: e.segment :=
      hans seg rfl ▸ List.take_prefix _ _
    rw [he]
    refine hheard.trans ?_
    cases ok with
    | true =>
      refine .single (.received _ us rest hr hpre hc' ?_ hs)
      have := List.length_take_le (maxRecvBuff - l.recvBuff.length) seg
      simp only
      omega
    | false =>
      -- what is behind the parser is closed at once
      have hopen : ({ l with heartbeatTimes := 0 }.parsed
          (seg.take (maxRecvBuff - l.recvBuff.length)) us [] e.now).connFlag ≠ .closed := by
        rw [connFlag_parsed]
        change l.connFlag ≠ .closed
        rw [hc']
        decide
      obtain ⟨t, hclose⟩ := handleClose_eq hopen
      have hfailed := Effect.failed (l := { l with heartbeatTimes := 0 }) _ us rest hr hpre hc' hs
      refine ReflTransGen.head hfailed (.single ?_)
      change Effect e _ (handleClose _)
      rw [hclose]
      exact .ended [.conn t] false fun n hn => ⟨t, List.mem_singleton.mp hn⟩

/-- The two looks at the time, the heartbeat, and the requests. -/
theorem effects_handleTimeout (hc : l.connFlag = .connected) (interval : UInt32) (now : Int) (out : SendAnswer)
    (alloc : Bool) : ∃ l', Beaten interval now l l' ∧
      Effects (.timer interval now out alloc) l' (l.handleTimeout interval now out alloc) := by
  have hbeat : ∃ b r, Beat l interval now b r ∧
      (if toInt32 ((interval - 1) * 3) < |now - l.lastRecvHeartbeatTime| then { l with lastRecvHeartbeatTime := now }
      else if toInt32 (interval - 1) < |now - l.lastRecvHeartbeatTime| then
        { l with heartbeatTimes := l.heartbeatTimes + 1, lastRecvHeartbeatTime := now }
      else l) = { l with heartbeatTimes := b, lastRecvHeartbeatTime := r } := by
    split_ifs with hset hmiss
    · exact ⟨_, _, .inl ⟨hset, rfl, rfl⟩, rfl⟩
    · exact ⟨_, _, .inr (.inl ⟨not_lt.mp hset, hmiss, rfl, rfl⟩), rfl⟩
    · exact ⟨_, _, .inr (.inr ⟨not_lt.mp hmiss, rfl, rfl⟩), rfl⟩
  obtain ⟨b, r, hb, hl⟩ := hbeat
  rw [handleTimeout, if_neg (not_not.mpr hc), checkHearbeatMsg]
  simp only [hl]
  by_cases hcount : heartbeatTimeoutTimes < b.toNat
  · have hgiven : Beaten interval now l _ := .mk b r l.lastSendHeartbeatTime hb
    rw [if_pos hcount] at hgiven ⊢
    refine ⟨_, hgiven, ?_⟩
    simp only
    rw [closeSock, setConnFlag, if_neg (by simp [hc])]
  · have hchecked : ∀ l', Effects (.timer interval now out alloc) l' (l'.checkRespMsg interval now) := fun l' =>
      .single (.checked interval)
    rw [if_neg hcount]
    by_cases hsend : toInt32 (interval - 1) < now - l.lastSendHeartbeatTime ∨ now - l.lastSendHeartbeatTime ≤ 0
    · have hgoes : Beaten interval now l _ := .mk b r now hb
      rw [if_neg hcount] at hgoes
      rw [if_pos hsend]
      refine ⟨_, hgoes, ReflTransGen.trans ?_ (hchecked _)⟩
      refine (effects_sendMsg (e := .timer interval now out alloc) _ _ out (fun m hm => ?_) id).to_reflTransGen
      exact ⟨(Option.mem_some_iff.mp hm).symm, rfl⟩
    · have hgoes : Beaten interval now l _ := .mk b r l.lastSendHeartbeatTime hb
      rw [if_neg hcount] at hgoes
      rw [if_neg hsend]
      exact ⟨_, hgoes, hchecked _⟩

/-! ## Steps -/

/-- The check of a connected link. -/
theorem step_timer (hc : l.connFlag = .connected) (interval : UInt32) (now : Int) (out : SendAnswer) (alloc : Bool) :
    ∃ l', Beaten interval now l l' ∧
      Effects (.timer interval now out alloc) l' (l.step (.timer interval now out alloc)) :=
  effects_handleTimeout hc interval now out alloc

/-- Any other call. -/
theorem step_effects (l : ClientLink) (e : Event)
    (he : ∀ interval now out alloc, e = .timer interval now out alloc → l.connFlag ≠ .connected) :
    Effects e l (l.step e) := by
  cases e with
  | sendMsg i m t out alloc now =>
    exact (effects_sendMsg (e := .sendMsg i m t out alloc now) l i out (fun _ hm => ⟨hm, rfl⟩) id).to_reflTransGen
  | timer interval now out alloc =>
    have hidle : l.step (.timer interval now out alloc) = l := if_pos (he _ _ _ _ rfl)
    rw [hidle]
  | stopConn => exact effects_stopConn l
  | socket err readable ans sockErr out now =>
    change Effects _ l (closeOnFail (l.dispatch err readable ans sockErr out now))
    unfold dispatch
    cases err with
    | true => exact effects_closeOnFail .refl
    | false =>
      cases readable with
      | true => exact effects_handleRecv l rfl fun seg hseg => by rw [hseg]; rfl
      | false => exact effects_handleSend l sockErr out rfl

/-- What `Beaten` and the effects keep, a call keeps. -/
theorem step_keeps {I : ClientLink → Prop} (h : I l)
    (hbeat : ∀ {l l'} interval now, I l → l.connFlag = .connected → Beaten interval now l l' → I l')
    (heffect : ∀ {l l'}, I l → Effect e l l' → I l') : I (l.step e) := by
  have hall : ∀ {l l'}, I l → Effects e l l' → I l' := by
    intro l l' h hs
    induction hs with
    | refl => exact h
    | tail _ hstep ih => exact heffect ih hstep
  by_cases hcheck : ∃ interval now out alloc, e = .timer interval now out alloc ∧ l.connFlag = .connected
  · obtain ⟨interval, now, out, alloc, rfl, hc⟩ := hcheck
    obtain ⟨l', hb, hs⟩ := step_timer hc interval now out alloc
    exact hall (hbeat interval now h hc hb) hs
  · exact hall h (step_effects l e fun interval now out alloc he hc => hcheck ⟨interval, now, out, alloc, he, hc⟩)

end AllCamera.ClientLink
