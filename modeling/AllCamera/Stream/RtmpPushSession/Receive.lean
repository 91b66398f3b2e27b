import AllCamera.Stream.RtmpPushSession

/-!
# What a session makes of received messages

`processRecvedMessage` refuses lengths below 4096, never moves its pointer, and takes a message as
complete when one chunk, of at most 128 bytes, is as long as the whole message.

* `Idle`: no slot has a length that a chunk can have. `loop_idle`: the loop keeps it, so there is no
  call of `handleMessage`.
* `Chunked`: bytes that are the chunks of given messages.
* `processRecvedMessage_delivers_iff`: whatever the messages are, none is handled.
-/

namespace AllCamera.RtmpPushSession

/-- Nothing was handled, and the chunk length is what it was. -/
structure Unhandled (s : RtmpPushSession) : Prop where
  handled : s.handled = []
  chunkLen : s.chunkLen = defaultChunkLen

/-- No message has a length that is accepted and that one chunk can have. -/
structure Idle (s : RtmpPushSession) : Prop extends Unhandled s where
  messages : ∀ i, (s.messages i).len = 0 ∨ rtmpChunkSize ≤ (s.messages i).len

variable {s : RtmpPushSession} {m : Memory} {p : Nat} {msg : RtmpMessage} {headerLen : Nat}

theorem Idle.setMessage (h : Idle s) (i : Fin 64) (hm : msg.len = 0 ∨ rtmpChunkSize ≤ msg.len) :
    Idle (s.setMessage i msg) := by
  refine ⟨⟨h.handled, h.chunkLen⟩, fun j => ?_⟩
  simp only [RtmpPushSession.setMessage]
  split
  · exact hm
  · exact h.messages j

theorem len_readType : (readType m p headerLen msg).len = msg.len := by
  unfold readType
  dsimp only
  repeat' split
  all_goals rfl

theorem len_readTimestamp (m : Memory) (p headerLen : Nat) (msg : RtmpMessage) :
    (readTimestamp m p headerLen msg).len = msg.len := by
  unfold readTimestamp
  dsimp only
  split <;> rfl

theorem headerLength_le (flags : UInt8) : headerLength flags ≤ 12 := by
  have h : ∀ i, ([12, 8, 4, 1] : List Nat).getD i 0 ≤ 12 := by
    intro i
    match i with
    | 0 | 1 | 2 | 3 => decide
    | i + 4 => simp
  exact h _

/-- A length that passed the check. -/
theorem Idle.len (h : Idle s) {i : Fin 64}
    (hlen : ¬ (8 ≤ headerLen ∧ (readLen m p headerLen (s.messages i)).len < rtmpChunkSize)) :
    (readType m p headerLen (readLen m p headerLen (s.messages i))).len = 0 ∨
      rtmpChunkSize ≤ (readType m p headerLen (readLen m p headerLen (s.messages i))).len := by
  rw [len_readType]
  by_cases h8 : 8 ≤ headerLen
  · exact .inr (Nat.not_lt.mp fun hlt => hlen ⟨h8, hlt⟩)
  · simp only [readLen, if_neg h8]
    exact h.messages i

/-- The loop keeps the slots idle, unless it gives up the connection. -/
theorem loop_idle (fuel n d : Nat) (h : Idle s) :
    Unhandled (loop m p fuel s n d).2 ∧
      (0 ≤ (loop m p fuel s n d).1 → Idle (loop m p fuel s n d).2) := by
  induction fuel generalizing s n d with
  | zero => exact ⟨h.toUnhandled, fun _ => h⟩
  | succ fuel ih =>
    unfold loop
    dsimp only
    split
    · exact ⟨h.toUnhandled, fun _ => h⟩
    · split
      · exact ⟨h.toUnhandled, fun _ => h⟩
      · split
        · exact ⟨⟨h.handled, h.chunkLen⟩, fun hneg => by cases hneg⟩
        · rename_i hlen
          have hmsg := h.len hlen
          have hs := h.setMessage (slot (m p)) hmsg
          split
          · exact ⟨hs.toUnhandled, fun hneg => by cases hneg⟩
          · rename_i hzero
            split
            · exact ⟨hs.toUnhandled, fun _ => hs⟩
            · -- the chunk is shorter than any length that was accepted
              rw [if_neg]
              · refine ih _ _ (hs.setMessage _ ?_)
                rw [← len_readTimestamp m p (headerLength (m p))] at hmsg
                exact hmsg
              · have hheader := headerLength_le (m p)
                have hchunk : chunkOf (readType m p (headerLength (m p)) (readLen m p
                    (headerLength (m p)) (s.messages (slot (m p))))).len n
                    (s.setMessage (slot (m p)) (readType m p (headerLength (m p)) (readLen m p
                    (headerLength (m p)) (s.messages (slot (m p)))))).chunkLen ≤ 128 :=
                  Nat.le_trans (Nat.min_le_right _ _) (Nat.le_of_eq h.chunkLen)
                have := hmsg.resolve_left hzero
                simp only [rtmpChunkSize] at this
                rw [len_readTimestamp]
                omega

/-- A call of the handler. -/
theorem processRecvedMessage_idle (h : Idle s) (m : Memory) (p n : Nat) :
    Unhandled (s.processRecvedMessage m p n).user ∧
      (0 ≤ (s.processRecvedMessage m p n).nSize → Idle (s.processRecvedMessage m p n).user) := by
  unfold processRecvedMessage
  split
  · exact ⟨h.toUnhandled, fun _ => h⟩
  · exact loop_idle _ _ _ h

theorem idle_init : Idle init := ⟨⟨rfl, rfl⟩, fun _ => .inl rfl⟩

/-! ## Runs -/

/-- Whole chunks that carry exactly the messages `msgs`, in the order in which they are complete. -/
def Chunked (wire : List UInt8) (msgs : List RtmpChunk.Message) : Prop :=
  (RtmpChunk.split .init wire).2 = [] ∧ (RtmpChunk.split .init wire).1.messages = msgs ∧
    ∀ csid, (RtmpChunk.split .init wire).1.part csid = []

/-- A session to which `wire` is sent, and what is left of it, after calls of `handle_input` that
receive up to `ks` bytes. -/
def received (wire : List UInt8) (ks : List Nat) : Receiver RtmpPushSession × List UInt8 :=
  Run.run (Receiver.step processRecvedMessage false) (Receiver.init init, wire) ks

/-- The bytes that were received and processed. -/
def consumed (wire : List UInt8) (ks : List Nat) : List UInt8 :=
  let c := received wire ks
  wire.take (wire.length - c.2.length - c.1.view.length)

/-- In every run whole chunks are consumed and `handleMessage` is called for messages in their order;
when no further call does anything, it was called for all. -/
def Delivers (wire : List UInt8) (msgs : List RtmpChunk.Message) : Prop :=
  ∀ ks, (RtmpChunk.split .init (consumed wire ks)).2 = [] ∧
    (received wire ks).1.user.handled <+: msgs.map (fun m => (m.type, m.payload)) ∧
    ((∀ k, Receiver.step processRecvedMessage false (received wire ks) k = received wire ks) →
      (received wire ks).1.user.handled = msgs.map (fun m => (m.type, m.payload)))

/-- No run handles a message. -/
theorem received_unhandled (wire : List UInt8) (ks : List Nat) :
    Receiver.Kept Unhandled Idle (received wire ks).1 :=
  Run.run_invariant
    (I := fun c : Receiver RtmpPushSession × List UInt8 => Receiver.Kept Unhandled Idle c.1)
    ⟨idle_init.toUnhandled, fun _ => idle_init, by intro hc; cases hc⟩
    fun _ _ h => h.step (fun _ _ _ _ hu => processRecvedMessage_idle hu _ _ _) _

theorem received_nil (ks : List Nat) : received [] ks = (Receiver.init init, []) := by
  induction ks with
  | nil => rfl
  | cons k ks ih => exact ih

theorem Delivers.eq_nil {wire : List UInt8} {msgs : List RtmpChunk.Message}
    (h : Delivers wire msgs) : msgs = [] := by
  obtain ⟨ks, hfinal⟩ := Receiver.exists_final processRecvedMessage (Receiver.init init, wire)
  have hall := (h ks).2.2 hfinal
  rw [(received_unhandled wire ks).always.handled] at hall
  exact List.map_eq_nil_iff.mp hall.symm

/-- The session delivers the messages of `wire` exactly when there are none. -/
theorem processRecvedMessage_delivers_iff (wire : List UInt8) (msgs : List RtmpChunk.Message)
    (h : Chunked wire msgs) : Delivers wire msgs ↔ msgs = [] := by
  refine ⟨Delivers.eq_nil, fun hnil => ?_⟩
  obtain ⟨hrest, rfl, hpart⟩ := h
  have hwire : wire = [] := RtmpChunk.split_eq_nil hnil hpart hrest
  subst hwire
  intro ks
  have hcons : consumed [] ks = [] := by simp [consumed]
  rw [hcons, received_nil, hnil, RtmpChunk.split_nil]
  exact ⟨rfl, List.prefix_rfl, fun _ => rfl⟩

/-- A message of type 20 with one byte, in a chunk of its own. -/
theorem chunked_oneByte : Chunked [3, 0, 0, 0, 0, 0, 1, 20, 0, 0, 0, 0, 5] [⟨0, 20, 0, [5]⟩] := by
  have hwire : [3, 0, 0, 0, 0, 0, 1, 20, 0, 0, 0, 0, 5] =
      RtmpChunk.encode 3 RtmpChunk.Splitter.init.chunkSize ⟨0, 20, 0, [5]⟩ ++ [] := by
    simp [RtmpChunk.encode, RtmpChunk.pieces, RtmpChunk.be24Bytes, RtmpChunk.le32Bytes,
      RtmpChunk.basicByte, RtmpChunk.Splitter.init]
  have hsplit := RtmpChunk.split_encode (s := .init) 3 (by decide) (by decide)
    (by decide) ⟨0, 20, 0, [5]⟩ (by decide) (by decide) (by decide) rfl []
  rw [RtmpChunk.split_nil] at hsplit
  unfold Chunked
  rw [hwire, hsplit]
  refine ⟨rfl, rfl, fun csid => ?_⟩
  have hpart := RtmpChunk.Splitter.part_set .init 3 csid ⟨0, 0, false, 1, 20, 0, []⟩
  exact hpart.trans (by split <;> rfl)

theorem not_delivers_oneByte :
    ¬ Delivers [3, 0, 0, 0, 0, 0, 1, 20, 0, 0, 0, 0, 5] [⟨0, 20, 0, [5]⟩] := by
  rw [processRecvedMessage_delivers_iff _ _ chunked_oneByte]
  simp

theorem processRecvedMessage_loses : ¬ ∀ wire msgs, Chunked wire msgs → Delivers wire msgs :=
  fun h => absurd (h _ _ chunked_oneByte).eq_nil (by simp)

end AllCamera.RtmpPushSession
