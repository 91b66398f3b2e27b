import AllCamera.Stream.MediaExchange

/-!
# One queue for one stream

`GenProcessThreadIdx` takes the stream id modulo the number of threads that have started so far, not
modulo the number of threads there will be. A thread that starts after the first message can move
a stream to another queue.

* `startsEarly`: a thread that starts moves no stream for which a queue was chosen before.
* `run_affine`: in every run whose starts are all such, a stream has one queue, one map and one
  order.
* `not_affine_lateStart`: a second thread that starts between two messages of stream 1.
-/

namespace AllCamera

namespace Exchange

variable {γ κ δ : Type} {e : Exchange γ κ δ}

/-- The messages of a stream, in their order. -/
def ofStream (id : UInt64) (l : List (Nat × TransmitPacket δ)) : List (TransmitPacket δ) :=
  (l.map Prod.snd).filter (·.puStreamId = id)

/-- A stream has one queue; no stream is in the maps of two threads; the messages of a stream that
were processed are the first that were enqueued, and the others wait in one queue. -/
structure Affine (e : Exchange γ κ δ) : Prop where
  one_queue : ∀ x ∈ e.enqueued, ∀ y ∈ e.enqueued, x.2.puStreamId = y.2.puStreamId → x.1 = y.1
  disjoint : ∀ i j m m' id, e.mediaExchangeMap i = some m → e.mediaExchangeMap j = some m' →
    m id ≠ none → m' id ≠ none → i = j
  in_order : ∀ id, ∃ i, ofStream id e.enqueued =
    ofStream id e.processed ++ ((e.dataExchangeQueue i).getD []).filter (·.puStreamId = id)

/-- A start-up leaves every stream for which a queue was chosen where it is. -/
def startsEarly (e : Exchange γ κ δ) : Act γ δ → Bool
  | .getThreadIndex =>
    e.addressed.all fun id => id.toNat % (e.threadIdx + 1) = id.toNat % e.threadIdx
  | _ => true

/-- The queue of the stream, by the threads that have started. -/
def home (e : Exchange γ κ δ) (id : UInt64) : Nat := id.toNat % e.threadIdx

/-- The messages with index `i`. -/
def ofQueue (i : Nat) (l : List (Nat × TransmitPacket δ)) : List (TransmitPacket δ) :=
  (l.filter (·.1 = i)).map Prod.snd

/-- The queue that was chosen for a message is still the one of its stream, and a queue holds what
was enqueued there and not yet processed. -/
structure AffinityInv (e : Exchange γ κ δ) : Prop where
  calls : ∀ c x, e.calls c = some x → x.2.puStreamId ∈ e.addressed ∧ x.1 = e.home x.2.puStreamId
  enqueued : ∀ x ∈ e.enqueued, x.2.puStreamId ∈ e.addressed ∧ x.1 = e.home x.2.puStreamId
  processed : ∀ x ∈ e.processed, x ∈ e.enqueued
  maps : ∀ i m id, e.mediaExchangeMap i = some m → m id ≠ none → id ∈ e.addressed ∧ i = e.home id
  queues : ∀ i, ofQueue i e.enqueued = ofQueue i e.processed ++ (e.dataExchangeQueue i).getD []

@[simp] theorem ofQueue_append (i : Nat) (l l' : List (Nat × TransmitPacket δ)) :
    ofQueue i (l ++ l') = ofQueue i l ++ ofQueue i l' := by
  simp [ofQueue]

theorem ofQueue_singleton (i j : Nat) (pkt : TransmitPacket δ) :
    ofQueue i [(j, pkt)] = if i = j then [pkt] else [] := by
  unfold ofQueue
  by_cases h : i = j
  · simp [h]
  · simp [h, Ne.symm h]

/-- The messages of a stream are all in the queue of the stream. -/
theorem ofStream_eq {id : UInt64} {l : List (Nat × TransmitPacket δ)}
    (h : ∀ x ∈ l, x.1 = e.home x.2.puStreamId) :
    ofStream id l = (ofQueue (e.home id) l).filter (·.puStreamId = id) := by
  induction l with
  | nil => rfl
  | cons x l ih =>
    have ih := ih fun y hy => h y (List.mem_cons_of_mem _ hy)
    have hx := h x List.mem_cons_self
    unfold ofStream ofQueue at ih ⊢
    by_cases hid : x.2.puStreamId = id
    · subst hid
      simp [hx, ih]
    · by_cases hq : x.1 = e.home id <;> simp [hid, hq, ih]

theorem AffinityInv.affine (h : e.AffinityInv) : e.Affine := by
  refine ⟨fun x hx y hy hxy => ?_, fun i j m m' id hi hj hm hm' => ?_, fun id => ⟨e.home id, ?_⟩⟩
  · rw [(h.enqueued x hx).2, (h.enqueued y hy).2, hxy]
  · exact (h.maps i m id hi hm).2.trans (h.maps j m' id hj hm').2.symm
  · rw [ofStream_eq (e := e) fun x hx => (h.enqueued x hx).2,
      ofStream_eq (e := e) fun x hx => (h.enqueued x (h.processed x hx)).2, h.queues,
      List.filter_append]

theorem init_affinityInv (n : Nat) : (init n : Exchange γ κ δ).AffinityInv where
  calls := by simp [init]
  enqueued := by simp [init]
  processed := by simp [init]
  maps := by simp [init]
  queues := by simp [init, ofQueue]

/-! ## Steps -/

/-- Processing a message leaves the sets of the other streams as they are. -/
theorem processPacket_other {cv : Converter κ δ} {alloc : Bool} {m : ExchangeMap κ} {pkt : TransmitPacket δ}
    {id : UInt64} (h : id ≠ pkt.puStreamId) : (processPacket cv alloc m pkt).1 id = m id := by
  unfold processPacket
  split
  · unfold processMediaData
    split
    · rfl
    · exact Function.update_of_ne h _ _
  · unfold processAddSession
    split
    · rfl
    · exact Function.update_of_ne h _ _
  · unfold processDelSession
    split
    · rfl
    · exact Function.update_of_ne h _ _
  · rfl

/-- A start-up that moves no stream. -/
theorem AffinityInv.start (h : e.AffinityInv)
    (hok : ∀ id ∈ e.addressed, id.toNat % (e.threadIdx + 1) = id.toNat % e.threadIdx) :
    AffinityInv { e with threadIdx := e.threadIdx + 1 } where
  calls c x hx := ⟨(h.calls c x hx).1, (h.calls c x hx).2.trans (hok _ (h.calls c x hx).1).symm⟩
  enqueued x hx := ⟨(h.enqueued x hx).1, (h.enqueued x hx).2.trans (hok _ (h.enqueued x hx).1).symm⟩
  processed := h.processed
  maps i m id hi hm := ⟨(h.maps i m id hi hm).1, (h.maps i m id hi hm).2.trans
    (hok _ (h.maps i m id hi hm).1).symm⟩
  queues := h.queues

/-- A thread opens its queue and its map. -/
theorem AffinityInv.open (h : e.AffinityInv) {i : Nat} (hi : e.dataExchangeQueue i = none) :
    AffinityInv { e with
      dataExchangeQueue := Function.update e.dataExchangeQueue i (some [])
      mediaExchangeMap := Function.update e.mediaExchangeMap i (some fun _ => none) } where
  calls := h.calls
  enqueued := h.enqueued
  processed := h.processed
  maps j m id hj hm := by
    by_cases hji : j = i
    · subst hji
      simp only [Function.update_self, Option.some.injEq] at hj
      subst hj
      exact absurd rfl hm
    · simp only [Function.update_of_ne hji] at hj
      exact h.maps j m id hj hm
  queues j := by
    have := h.queues j
    by_cases hji : j = i
    · subst hji
      simpa [hi] using this
    · simpa [Function.update_of_ne hji] using this

/-- A thread processes the message in front. -/
theorem AffinityInv.process {cv : Converter κ δ} {alloc : Bool} (h : e.AffinityInv) {i : Nat}
    {pkt : TransmitPacket δ}
    {l : List (TransmitPacket δ)} {m : ExchangeMap κ} (hl : e.dataExchangeQueue i = some (pkt :: l))
    (hm : e.mediaExchangeMap i = some m) :
    AffinityInv { e with
      dataExchangeQueue := Function.update e.dataExchangeQueue i (some l)
      mediaExchangeMap := Function.update e.mediaExchangeMap i (some (processPacket cv alloc m pkt).1)
      processed := e.processed ++ [(i, pkt)] } := by
  have hmem : (i, pkt) ∈ e.enqueued := by
    have hq : pkt ∈ ofQueue i e.enqueued := by
      rw [h.queues i, hl]
      simp
    obtain ⟨x, hx, rfl⟩ := List.mem_map.mp hq
    obtain ⟨hxe, hxi⟩ := List.mem_filter.mp hx
    obtain rfl : x.1 = i := by simpa using hxi
    exact hxe
  refine ⟨h.calls, h.enqueued, fun x hx => ?_, fun j m' id hj hset => ?_, fun j => ?_⟩
  · rcases List.mem_append.mp hx with hx | hx
    · exact h.processed x hx
    · obtain rfl := List.mem_singleton.mp hx
      exact hmem
  · by_cases hji : j = i
    · subst hji
      simp only [Function.update_self, Option.some.injEq] at hj
      subst hj
      by_cases hid : id = pkt.puStreamId
      · subst hid
        exact h.enqueued _ hmem
      · rw [processPacket_other hid] at hset
        exact h.maps j m id hm hset
    · simp only [Function.update_of_ne hji] at hj
      exact h.maps j m' id hj hset
  · have hq := h.queues j
    rw [ofQueue_append, ofQueue_singleton]
    by_cases hji : j = i
    · subst hji
      simpa [hl] using hq
    · simpa [hji, Function.update_of_ne hji] using hq

section Steps

variable [DecidableEq γ] {cv : Converter κ δ}

/-- A caller chooses the queue. -/
theorem AffinityInv.choose (h : e.AffinityInv) {c : γ} {pkt : TransmitPacket δ} {i : Nat}
    (hi : e.genProcessThreadIdx pkt.puStreamId = some i) :
    AffinityInv { e with
      calls := Function.update e.calls c (some (i, pkt))
      addressed := pkt.puStreamId :: e.addressed } := by
  have hhome : i = e.home pkt.puStreamId := by
    unfold genProcessThreadIdx at hi
    split at hi
    · cases hi
    · exact (Option.some.inj hi).symm
  refine ⟨fun c' x hx => ?_, fun x hx => ?_, h.processed, fun j m id hj hm => ?_, h.queues⟩
  · by_cases hc : c' = c
    · subst hc
      simp only [Function.update_self, Option.some.injEq] at hx
      subst hx
      exact ⟨List.mem_cons_self, hhome⟩
    · simp only [Function.update_of_ne hc] at hx
      exact ⟨List.mem_cons_of_mem _ (h.calls c' x hx).1, (h.calls c' x hx).2⟩
  · exact ⟨List.mem_cons_of_mem _ (h.enqueued x hx).1, (h.enqueued x hx).2⟩
  · exact ⟨List.mem_cons_of_mem _ (h.maps j m id hj hm).1, (h.maps j m id hj hm).2⟩

/-- A call ends without an enqueue. -/
theorem AffinityInv.leave (h : e.AffinityInv) {c : γ} :
    AffinityInv { e with calls := Function.update e.calls c none } := by
  refine ⟨fun c' x hx => ?_, h.enqueued, h.processed, h.maps, h.queues⟩
  by_cases hc : c' = c
  · subst hc
    simp at hx
  · simp only [Function.update_of_ne hc] at hx
    exact h.calls c' x hx

/-- A caller enqueues its message. -/
theorem AffinityInv.enqueue (h : e.AffinityInv) {c : γ} {i : Nat} {pkt : TransmitPacket δ}
    {l : List (TransmitPacket δ)} (hc : e.calls c = some (i, pkt))
    (hl : e.dataExchangeQueue i = some l) :
    AffinityInv { e with
      calls := Function.update e.calls c none
      dataExchangeQueue := Function.update e.dataExchangeQueue i (some (l ++ [pkt]))
      enqueued := e.enqueued ++ [(i, pkt)] } := by
  refine ⟨h.leave.calls, fun x hx => ?_, fun x hx => ?_, h.maps, fun j => ?_⟩
  · rcases List.mem_append.mp hx with hx | hx
    · exact h.enqueued x hx
    · obtain rfl := List.mem_singleton.mp hx
      exact h.calls c _ hc
  · exact List.mem_append_left _ (h.processed x hx)
  · have hq := h.queues j
    rw [ofQueue_append, ofQueue_singleton, hq]
    by_cases hj : j = i
    · subst hj
      simp [hl]
    · simp [hj]

theorem step_affinityInv (h : e.AffinityInv) (a : Act γ δ) (hok : e.startsEarly a) :
    (step cv e a).AffinityInv := by
  cases a with
  | getThreadIndex =>
    simp only [step]
    split
    · exact h.start (by simpa [startsEarly] using hok)
    · exact h
  | openQueue i =>
    simp only [step]
    split
    · rename_i hi
      split
      · exact h.open hi
      · exact h
    · exact h
  | genProcessThreadIdx c pkt =>
    simp only [step]
    split
    · rename_i hi
      exact h.choose hi
    · exact h
  | enqueuePacket c =>
    simp only [step]
    split
    · exact h
    · rename_i hc
      split
      · exact h.leave
      · rename_i hl
        exact h.enqueue hc hl
  | giveUp c => exact h.leave
  | process i alloc =>
    simp only [step]
    split
    · rename_i hl hm
      exact h.process hl hm
    · exact h

/-- **Affinity.** For every number of threads and every order of start-ups, calls and processing in
which a thread that starts moves no stream that has had a message before: all messages of a stream
go to one queue, the maps of the threads are disjoint, and the messages of a stream are processed in
the order in which they were enqueued. -/
theorem run_affine (n : Nat) (as : List (Act γ δ))
    (h : Run.Allowed (step cv) (fun e a => e.startsEarly a) (init n) as) :
    (Run.run (step cv) (init n) as).Affine :=
  AffinityInv.affine (h.invariant (init_affinityInv n) fun _ a hs hok => step_affinityInv hs a hok)

end Steps

/-- Media for stream 1. -/
def mediaOne : TransmitPacket Unit := ⟨1, .mediaData ()⟩

/-- Two threads start, and stream 1 gets two messages. -/
def earlyStart : List (Act Unit Unit) :=
  [.getThreadIndex, .getThreadIndex, .openQueue 0, .openQueue 1, .genProcessThreadIdx () mediaOne,
    .enqueuePacket (), .genProcessThreadIdx () mediaOne, .enqueuePacket (), .process 1 true]

theorem run_affine_earlyStart :
    (Run.run (step Converter.unit) (init 2) earlyStart).enqueued = [(1, mediaOne), (1, mediaOne)] ∧
      (Run.run (step Converter.unit) (init 2) earlyStart).Affine :=
  ⟨by decide, run_affine 2 earlyStart (by decide)⟩

/-- The second thread starts between two messages of stream 1. -/
def lateStart : List (Act Unit Unit) :=
  [.getThreadIndex, .openQueue 0, .genProcessThreadIdx () mediaOne, .enqueuePacket (),
    .getThreadIndex, .openQueue 1, .genProcessThreadIdx () mediaOne, .enqueuePacket ()]

theorem not_affine_lateStart : ¬ (Run.run (step Converter.unit) (init 2) lateStart).Affine := by
  intro h
  have henq : (Run.run (step Converter.unit) (init 2) lateStart).enqueued =
      [(0, mediaOne), (1, mediaOne)] := by decide
  have h01 := h.one_queue (0, mediaOne) (by simp [henq]) (1, mediaOne) (by simp [henq]) rfl
  cases h01

end Exchange

end AllCamera
