import AllCamera.Vms.ClientLink.Effects

/-!
# What a link sends

The socket takes a part of what it is given, and the rest waits in the queue until the socket can be written to.
The calls on the link do not overlap: `sendMsg` and `handleSend` look at the queue, send, and change the queue
without a lock around them.

* `unsent`: the bytes that wait.
* `Conserved`: the bytes that were sent and those that wait are the accepted messages, one behind the other, and the
  write event is asked for as long as some wait.
* `Conserved.step`, `run_conserved`: it holds after every run in which there is memory.
-/

namespace AllCamera.ClientLink

open SvsMsg

variable {l l' : ClientLink}

/-- The bytes of the messages in the queue that were not sent. -/
def unsent (q : List SendMsgHead) : List UInt8 := (q.map fun s => s.msg.drop s.unSendSize).flatten

@[simp] theorem unsent_nil : unsent [] = [] := rfl

@[simp] theorem unsent_cons (s : SendMsgHead) (q : List SendMsgHead) :
    unsent (s :: q) = s.msg.drop s.unSendSize ++ unsent q := rfl

theorem unsent_append (q q' : List SendMsgHead) : unsent (q ++ q') = unsent q ++ unsent q' := by
  simp [unsent]

/-- The bytes sent and those that wait are the accepted messages. -/
structure Conserved (l : ClientLink) : Prop where
  queue : ∀ s ∈ l.msgQueue, s.msg.packetLength = s.msg.length
  wire : l.connFlag = .connected → l.wire ++ unsent l.msgQueue = l.accepted.flatten
  wire_le : l.wire <+: l.accepted.flatten
  epollOut : l.connFlag = .connected → (l.epollOut = true ↔ l.msgQueue ≠ [])
  connecting : l.connFlag = .connecting → l.msgQueue = [] ∧ l.wire = [] ∧ l.accepted = []

/-- A connected link, in which the equation and the event are as they should be. -/
theorem Conserved.of_connected (hc : l.connFlag = .connected)
    (hq : ∀ s ∈ l.msgQueue, s.msg.packetLength = s.msg.length)
    (hw : l.wire ++ unsent l.msgQueue = l.accepted.flatten) (he : l.epollOut = true ↔ l.msgQueue ≠ []) :
    Conserved l :=
  ⟨hq, fun _ => hw, ⟨_, hw⟩, fun _ => he, fun hno => nomatch hc.symm.trans hno⟩

/-- Nothing is sent and nothing accepted, and the queue stays. -/
theorem Conserved.of_same (h : Conserved l) (hw : l'.wire = l.wire) (ha : l'.accepted = l.accepted)
    (hq : l'.msgQueue = l.msgQueue) (he : l'.epollOut = l.epollOut)
    (hf : l'.connFlag = l.connFlag ∨ l'.connFlag = .closing) : Conserved l' := by
  rcases hf with hf | hf
  · constructor
    · rw [hq]
      exact h.queue
    · rw [hf, hw, ha, hq]
      exact h.wire
    · rw [hw, ha]
      exact h.wire_le
    · rw [hf, he, hq]
      exact h.epollOut
    · rw [hf, hq, hw, ha]
      exact h.connecting
  · refine ⟨hq ▸ h.queue, fun hc => ?_, hw ▸ ha ▸ h.wire_le, fun hc => ?_, fun hc => ?_⟩
    · cases hf.symm.trans hc
    · cases hf.symm.trans hc
    · cases hf.symm.trans hc

theorem Conserved.finishSend (h : Conserved l) (s : SendMsgHead) : Conserved (l.finishSend s) := by
  obtain ⟨_, _, _, he⟩ := finishSend_eq l s
  rw [he]
  exact h.of_same rfl rfl rfl rfl (.inl rfl)

/-- What is sent of the first message goes from the queue to the wire. -/
theorem Conserved.move {s : SendMsgHead} {q : List SendMsgHead} (h : Conserved l) (hc : l.connFlag = .connected)
    (hq : l.msgQueue = s :: q) (n : Nat) :
    l.wire ++ (left s).take n ++ (s.msg.drop (s.unSendSize + n) ++ unsent q) = l.accepted.flatten := by
  have hw := h.wire hc
  have hlen : s.msg.packetLength = s.msg.length := h.queue s (by rw [hq]; exact List.mem_cons_self)
  rw [hq, unsent_cons] at hw
  rw [left, hlen, List.take_length, ← List.drop_drop, List.append_assoc, ← List.append_assoc (List.take n _),
    List.take_append_drop]
  exact hw

theorem Conserved.effect (h : Conserved l) {e : Event} (hm : e.hasMemory = true) (he : Effect e l l') :
    Conserved l' := by
  cases he with
  | lost m n ha => cases hm.symm.trans ha
  | part m t n ho hc hl hq hn =>
    have hw := h.wire hc
    rw [hq, unsent_nil, List.append_nil] at hw
    refine Conserved.of_connected hc ?_ ?_ (by simp)
    · simpa using hl
    · simp [hw]
  | whole m t ho hc hq =>
    have hw := h.wire hc
    rw [hq, unsent_nil, List.append_nil] at hw
    have hall : Conserved { l with wire := l.wire ++ m, accepted := l.accepted ++ [m] } :=
      Conserved.of_connected hc h.queue (by simp [hq, hw]) (h.epollOut hc)
    exact hall.finishSend _
  | queued m t ho hc hl hq =>
    have hw := h.wire hc
    refine Conserved.of_connected hc (fun s hs => ?_) ?_ ?_
    · rcases List.mem_append.mp hs with hs | hs
      · exact h.queue s hs
      · rw [List.mem_singleton.mp hs]
        exact hl
    · simp only
      rw [unsent_append, ← List.append_assoc, hw]
      simp
    · simpa using (h.epollOut hc).mpr hq
  | sentPart s q n hc hq =>
    have hqueue := h.queue
    rw [hq] at hqueue
    refine Conserved.of_connected hc (fun s' hs' => ?_) (h.move hc hq n) (by simp)
    rcases List.mem_cons.mp hs' with rfl | hs'
    · exact hqueue s List.mem_cons_self
    · exact hqueue s' (List.mem_cons_of_mem _ hs')
  | sentWhole s q n hc hq hn =>
    have hqueue := h.queue
    rw [hq] at hqueue
    have hw := h.move hc hq n
    rw [hqueue s List.mem_cons_self] at hn
    rw [List.drop_eq_nil_of_le hn, List.nil_append] at hw
    have hall : Conserved { l with
        wire := l.wire ++ (left s).take n, msgQueue := q, epollOut := !q.isEmpty } :=
      Conserved.of_connected hc (fun s' hs' => hqueue s' (List.mem_cons_of_mem _ hs')) hw (by simp)
    exact hall.finishSend _
  | drained hq =>
    refine ⟨h.queue, h.wire, h.wire_le, fun _ => ?_, h.connecting⟩
    simp [hq]
  | made _ hc =>
    obtain ⟨hq, hw, ha⟩ := h.connecting hc
    refine Conserved.of_connected rfl h.queue ?_ ?_
    · simp [hq, hw, ha]
    · simp [hq]
  | broken => exact h.of_same rfl rfl rfl rfl (.inr rfl)
  | heard => exact h.of_same rfl rfl rfl rfl (.inl rfl)
  | received seg us rest =>
    obtain ⟨_, _, _, he, -⟩ := parsed_eq l seg us rest e.now
    rw [he]
    exact h.of_same rfl rfl rfl rfl (.inl rfl)
  | failed seg us =>
    obtain ⟨_, _, _, he, -⟩ := parsed_eq l seg us [] e.now
    rw [he]
    exact h.of_same rfl rfl rfl rfl (.inr rfl)
  | checked => exact h.of_same rfl rfl rfl rfl (.inl rfl)
  | ended => exact ⟨fun _ hs => (nomatch hs), nofun, h.wire_le, nofun, nofun⟩

/-- Every call that does not run out of memory keeps it. -/
theorem Conserved.step (h : Conserved l) {e : Event} (he : e.hasMemory = true) : Conserved (l.step e) := by
  refine step_keeps h (fun interval now h hc hb => ?_) fun h heff => h.effect he heff
  cases hb with
  | mk b r s =>
    split
    · exact ⟨h.queue, nofun, h.wire_le, nofun, nofun⟩
    · exact h.of_same rfl rfl rfl rfl (.inl rfl)

theorem conserved_started (unLinkId : Nat) (ans : StartAnswer) (now : Int) :
    Conserved (started unLinkId ans now) := by
  cases ans with
  | failed => exact ⟨nofun, nofun, List.prefix_refl _, nofun, nofun⟩
  | inProgress added => exact ⟨nofun, nofun, List.prefix_refl _, nofun, fun _ => ⟨rfl, rfl, rfl⟩⟩
  | connected => exact .of_connected rfl nofun rfl (iff_of_false nofun (not_not.mpr rfl))

/-- In every run of calls that do not overlap, on a link that does not run out of memory, whatever parts the socket
takes and whatever is called in between: what was sent is the accepted messages one behind the other, as far as it
goes; while the link is connected all that is missing waits in the queue, and then the write event is asked for, and
only then. -/
theorem run_conserved (unLinkId : Nat) (ans : StartAnswer) (now : Int) (es : List Event)
    (hmem : ∀ e ∈ es, e.hasMemory = true) : Conserved (Run.run ClientLink.step (started unLinkId ans now) es) := by
  have hfree : Run.Allowed ClientLink.step (fun _ _ => True) (started unLinkId ans now) es := Run.allowed_true
  have hall := hfree.and_forall hmem
  exact hall.invariant (conserved_started unLinkId ans now) fun _ _ h he => h.step he.1

/-- A response is sent in two parts, and another one waits behind it. -/
theorem run_conserved_sample : Conserved (Run.run ClientLink.step (started 1 .connected 100) [
    .sendMsg 1 (some (leBytes 6 0 ++ leBytes 2 0x8001 ++ leBytes 4 12)) 0 (.took 5) true 100,
    .sendMsg 1 (some (leBytes 6 0 ++ leBytes 2 0x8002 ++ leBytes 4 12)) 0 .busy true 100,
    .socket false false .busy false (fun _ => .took 8) 101]) :=
  run_conserved 1 .connected 100 _ (by decide)

end AllCamera.ClientLink
