import AllCamera.Stream.Business
import Mathlib.Data.List.Nodup

/-!
# Who owns a media processor

From `new` to `delete` a processor goes through the business that made it, the message that
registers it, the set of its stream and the message that takes it away. A second `start` breaks the
chain: it deletes the processor that the exchange has listed, or is about to list.

* `Owned d p id owner waits`: where the processor `p` is on its way.
* `keepsOwner`: no `start` meets a processor of an earlier one, every stop gets its message out, and
  there is memory for a new set.
* `run_sound`: in every run whose steps are all such, every listed processor exists, it is listed
  once, and every processor is deleted once.
* `not_sound_startTwice`: a business that is started twice.
-/

namespace AllCamera

/-- The message is about processor `p`. -/
def PacketBody.concerns {δ : Type} (p : Nat) : PacketBody δ → Bool
  | .addSession q _ _ => q = p
  | .delSession q => q = p
  | _ => false

namespace Distribution

variable {β κ δ : Type} {d d' : Distribution β κ δ} {p : Nat}

/-- The processor `p` is in the set of stream `id` at thread `i`. -/
def Listed (d : Distribution β κ δ) (p i : Nat) (id : UInt64) : Prop :=
  ∃ s, d.mediaExchangeMap i id = some s ∧ p ∈ s.processList

/-- No business has a processor, and no message waits. -/
structure Drained (d : Distribution β κ δ) : Prop where
  stopped : ∀ b, (d.business b).pRecvProcessor = none
  empty : ∀ i, d.dataExchangeQueue i = []

/-- Every processor of a set exists; it is in one set, and there once; there were as many deletions
at its address as processors, less the one that exists; and when all is stopped and done none is
left. -/
structure Sound (d : Distribution β κ δ) : Prop where
  live : ∀ p i id, d.Listed p i id → d.live p = true
  one_set : ∀ p i id j id', d.Listed p i id → d.Listed p j id' → i = j ∧ id = id'
  once : ∀ i id s, d.mediaExchangeMap i id = some s → s.processList.Nodup
  count : ∀ p, d.created.count p = d.deleted.count p + if d.live p then 1 else 0
  drained : d.Drained → ∀ p, d.created.count p = d.deleted.count p

/-- What the condition on a step is. -/
def keepsOwner (d : Distribution β κ δ) : Act β δ → Bool
  | .start b ready _ _ _ => !ready || (d.business b).pRecvProcessor.isNone
  | .stop b delOk => delOk || (d.business b).pRecvProcessor.isNone
  | .addData _ _ => true
  | .process _ alloc => alloc

/-! ## Where a processor is -/

/-- The messages about `p` in queue `i`. -/
def about (d : Distribution β κ δ) (p i : Nat) : List (TransmitPacket δ) :=
  (d.dataExchangeQueue i).filter (·.body.concerns p)

/-- Nothing refers to the address `p`. -/
structure Unused (d : Distribution β κ δ) (p : Nat) : Prop where
  live : d.live p = false
  held : ∀ b, (d.business b).pRecvProcessor ≠ some p
  about : ∀ i, d.about p i = []
  listed : ∀ i id, ¬ d.Listed p i id

/-- The processor `p` of stream `id`: `owner` is the business that has not stopped it yet, if any;
`waits` are the transmission types in the message that registers it, if that still waits. It is
listed when that message is through, and the message that takes it away waits once there is no
owner. -/
structure Owned (d : Distribution β κ δ) (p : Nat) (id : UInt64) (owner : Option β)
    (waits : Option (MediaTransType × MediaTransType)) : Prop where
  live : d.live p = true
  held : ∀ b, (d.business b).pRecvProcessor = some p ↔ owner = some b
  session : ∀ b, owner = some b → ∃ s, (d.business b).pRecvSession = some s ∧ s.streamId = id
  about : ∀ i, d.about p i = if i = d.home id then
    waits.toList.map (fun w => ⟨id, .addSession p w.1 w.2⟩) ++
      (if owner.isNone then [⟨id, .delSession p⟩] else []) else []
  listed : ∀ i id', d.Listed p i id' ↔ waits = none ∧ i = d.home id ∧ id' = id

/-- The address `p` is unused, or belongs to a processor on its way. -/
def Accounted (d : Distribution β κ δ) (p : Nat) : Prop :=
  d.Unused p ∨ ∃ id owner waits, d.Owned p id owner waits

/-- The invariant. -/
structure OwnerInv (d : Distribution β κ δ) : Prop where
  accounted : ∀ p, d.Accounted p
  once : ∀ i id s, d.mediaExchangeMap i id = some s → s.processList.Nodup
  count : ∀ p, d.created.count p = d.deleted.count p + if d.live p then 1 else 0

theorem OwnerInv.sound (h : d.OwnerInv) : d.Sound := by
  have hlisted : ∀ p i id, d.Listed p i id → ∃ id owner waits, d.Owned p id owner waits := by
    intro p i id hl
    rcases h.accounted p with hu | ho
    · exact absurd hl (hu.listed i id)
    · exact ho
  refine ⟨fun p i id hl => ?_, fun p i id j id' hi hj => ?_, h.once, h.count, fun hd p => ?_⟩
  · obtain ⟨_, _, _, ho⟩ := hlisted p i id hl
    exact ho.live
  · obtain ⟨_, _, _, ho⟩ := hlisted p i id hi
    obtain ⟨-, hi1, hi2⟩ := (ho.listed i id).mp hi
    obtain ⟨-, hj1, hj2⟩ := (ho.listed j id').mp hj
    exact ⟨hi1.trans hj1.symm, hi2.trans hj2.symm⟩
  · -- a processor that exists has an owner, or a message about it waits
    have hlive : d.live p = false := by
      rcases h.accounted p with hu | ⟨id, owner, waits, ho⟩
      · exact hu.live
      · have hab := ho.about (d.home id)
        have hnone : owner = none := by
          cases owner with
          | none => rfl
          | some b => exact absurd ((ho.held b).mpr rfl) (by simp [hd.stopped b])
        simp [Distribution.about, hd.empty, hnone] at hab
    simp [h.count p, hlive]

theorem init_ownerInv (n : Nat) (recv send : β → Option BusinessSession) :
    (init n recv send : Distribution β κ δ).OwnerInv where
  accounted p := .inl ⟨rfl, by simp [init], fun i => rfl, by simp [init, Listed]⟩
  once := by simp [init]
  count := by simp [init]

/-! ## Frames -/

/-- A step that does not touch what refers to `p`. -/
structure SameFor (p : Nat) (d d' : Distribution β κ δ) : Prop where
  threadNum : d'.threadNum = d.threadNum
  live : d'.live p = d.live p
  held : ∀ b, (d'.business b).pRecvProcessor = some p ↔ (d.business b).pRecvProcessor = some p
  session : ∀ b, (d.business b).pRecvProcessor = some p →
    (d'.business b).pRecvSession = (d.business b).pRecvSession
  about : ∀ i, d'.about p i = d.about p i
  listed : ∀ i id, d'.Listed p i id ↔ d.Listed p i id

theorem home_eq (h : d'.threadNum = d.threadNum) (id : UInt64) : d'.home id = d.home id := by
  unfold home
  rw [h]

theorem Accounted.frame (h : d.Accounted p) (hs : SameFor p d d') : d'.Accounted p := by
  rcases h with hu | ⟨id, owner, waits, ho⟩
  · refine .inl ⟨hs.live.trans hu.live, fun b hb => hu.held b ((hs.held b).mp hb), fun i => ?_,
      fun i id hl => hu.listed i id ((hs.listed i id).mp hl)⟩
    rw [hs.about, hu.about]
  · refine .inr ⟨id, owner, waits, hs.live.trans ho.live, fun b => (hs.held b).trans (ho.held b),
      fun b hb => ?_, fun i => ?_, fun i id' => ?_⟩
    · obtain ⟨s, hse, hid⟩ := ho.session b hb
      exact ⟨s, (hs.session b ((ho.held b).mpr hb)).trans hse, hid⟩
    · rw [hs.about, ho.about, home_eq hs.threadNum]
    · rw [hs.listed, ho.listed, home_eq hs.threadNum]

/-- A message behind the others. -/
theorem about_enqueue (d : Distribution β κ δ) (pkt : TransmitPacket δ) (p i : Nat) :
    (d.enqueue pkt).about p i = d.about p i ++
      if i = d.home pkt.puStreamId ∧ pkt.body.concerns p then [pkt] else [] := by
  unfold Distribution.about enqueue
  by_cases hi : i = d.home pkt.puStreamId
  · subst hi
    by_cases hc : pkt.body.concerns p <;> simp [List.filter_append, hc]
  · simp [hi]

/-! ## Starting and stopping -/

/-- A message of media. -/
theorem OwnerInv.media (h : d.OwnerInv) (id : UInt64) (block : δ) :
    (d.enqueue ⟨id, .mediaData block⟩).OwnerInv where
  accounted p := by
    refine (h.accounted p).frame ⟨rfl, rfl, fun b => Iff.rfl, fun b _ => rfl, fun i => ?_,
      fun i id => Iff.rfl⟩
    rw [about_enqueue]
    simp [PacketBody.concerns]
  once := h.once
  count := h.count

/-- A processor that was made and is deleted at once. -/
theorem OwnerInv.create_delete (h : d.OwnerInv) (hp : d.live p = false) :
    ((d.create p).delete [p]).OwnerInv := by
  have hlive : ((d.create p).delete [p]).live = d.live := by
    funext x
    by_cases hx : x = p
    · subst hx
      simp [create, delete, hp]
    · simp [create, delete, hx]
  refine ⟨fun q => (h.accounted q).frame ⟨rfl, congrFun hlive q, fun b => Iff.rfl, fun b _ => rfl,
    fun i => rfl, fun i id => Iff.rfl⟩, h.once, fun q => ?_⟩
  have := h.count q
  rw [hlive]
  change (d.created ++ [p]).count q = (d.deleted ++ [p]).count q + _
  rw [List.count_append, List.count_append]
  omega

section Calls

variable [DecidableEq β] {b : β}

/-- A new processor is registered. -/
theorem OwnerInv.register (h : d.OwnerInv) (hp : d.live p = false)
    (hb : (d.business b).pRecvProcessor = none) {recv : BusinessSession}
    (hrecv : (d.business b).pRecvSession = some recv) (send : MediaTransType) :
    (((d.create p).setProcessor b (some p)).enqueue
      ⟨recv.streamId, .addSession p recv.mediaTransType send⟩).OwnerInv := by
  have hheld : ∀ q b', ((((d.create p).setProcessor b (some p)).enqueue
      ⟨recv.streamId, .addSession p recv.mediaTransType send⟩).business b').pRecvProcessor = some q ↔
      (b' = b ∧ q = p) ∨ (d.business b').pRecvProcessor = some q := by
    intro q b'
    change ((Function.update d.business b _) b').pRecvProcessor = _ ↔ _
    by_cases hbb : b' = b
    · subst hbb
      simp [hb, eq_comm]
    · simp [hbb]
  have hunused : d.Unused p := by
    rcases h.accounted p with hu | ⟨_, _, _, ho⟩
    · exact hu
    · exact absurd ho.live (by simp [hp])
  refine ⟨fun q => ?_, h.once, fun q => ?_⟩
  · by_cases hq : q = p
    · subst hq
      refine .inr ⟨recv.streamId, some b, some (recv.mediaTransType, send), ?_, fun b' => ?_,
        fun b' hb' => ?_, fun i => ?_, fun i id' => ?_⟩
      · simp [enqueue, setProcessor, create]
      · rw [hheld]
        simp [hunused.held b', eq_comm]
      · obtain rfl : b = b' := by simpa using hb'
        exact ⟨recv, by simpa [enqueue, setProcessor, create] using hrecv, rfl⟩
      · have hab := hunused.about i
        rw [about_enqueue]
        change d.about q i ++ _ = _
        rw [hab]
        simp [PacketBody.concerns]
        rfl
      · have := hunused.listed i id'
        simp only [reduceCtorEq, false_and, iff_false]
        exact this
    · refine (h.accounted q).frame ⟨rfl, ?_, fun b' => ?_, fun b' hb' => ?_, fun i => ?_,
        fun i id => Iff.rfl⟩
      · simp [enqueue, setProcessor, create, hq]
      · rw [hheld]
        simp [hq]
      · have hne : b' ≠ b := by
          rintro rfl
          rw [hb] at hb'
          cases hb'
        simp [enqueue, setProcessor, create, hne]
      · rw [about_enqueue]
        simp [PacketBody.concerns, Ne.symm hq]
        rfl
  · have := h.count q
    change (d.created ++ [p]).count q =
      d.deleted.count q + if (Function.update d.live p true) q then 1 else 0
    rw [List.count_append]
    by_cases hq : q = p
    · subst hq
      simp [hp] at this ⊢
      omega
    · simpa [hq, Ne.symm hq] using this

/-- What `stop` leaves of the businesses. -/
theorem stop_business (d : Distribution β κ δ) (b b' : β) (delOk : Bool) :
    ((d.stop b delOk).business b').pRecvProcessor =
        (if b' = b then (if (d.business b).pRecvSession.isSome then none else
          (d.business b).pRecvProcessor) else (d.business b').pRecvProcessor) ∧
      (b' ≠ b → ((d.stop b delOk).business b').pRecvSession = (d.business b').pRecvSession) := by
  unfold stop destroyMediaProcessor
  split
  · rename_i hrecv hp
    by_cases hb : b' = b
    · subst hb
      cases delOk <;> simp [setProcessor, hrecv, enqueue]
    · cases delOk <;> simp [setProcessor, hb, enqueue]
  · rename_i hnot
    by_cases hb : b' = b
    · subst hb
      refine ⟨?_, fun h => absurd rfl h⟩
      simp only [Function.update_self, if_true]
      split
      · rename_i hsome
        obtain ⟨recv, hrecv⟩ := Option.isSome_iff_exists.mp hsome
        cases hp : (d.business b').pRecvProcessor with
        | none => rfl
        | some p => exact absurd hp (hnot recv p hrecv)
      · rfl
    · simp [hb]

/-- A business without a processor stops. -/
theorem OwnerInv.stop_none (h : d.OwnerInv) (hp : (d.business b).pRecvProcessor = none)
    (delOk : Bool) : (d.stop b delOk).OwnerInv := by
  have hbus := fun b' => d.stop_business b b' delOk
  have hshape : d.destroyMediaProcessor b delOk = d := by
    unfold destroyMediaProcessor
    simp only [hp]
    split <;> simp_all
  refine ⟨fun q => (h.accounted q).frame ⟨?_, ?_, fun b' => ?_, fun b' hb' => ?_, fun i => ?_,
    fun i id => ?_⟩, ?_, ?_⟩
  · simp [Distribution.stop, hshape]
  · simp [Distribution.stop, hshape]
  · rw [(hbus b').1, hp]
    by_cases hb : b' = b
    · subst hb
      simp [hp]
    · simp [hb]
  · refine (hbus b').2 ?_
    rintro rfl
    rw [hp] at hb'
    cases hb'
  · simp [Distribution.stop, hshape, Distribution.about]
  · simp [Distribution.stop, hshape, Listed]
  · simpa [Distribution.stop, hshape] using h.once
  · simpa [Distribution.stop, hshape] using h.count

/-- A business with a processor stops, and its message gets out. -/
theorem OwnerInv.stop_some (h : d.OwnerInv) (hp : (d.business b).pRecvProcessor = some p) :
    (d.stop b true).OwnerInv := by
  have hbus := fun b' => d.stop_business b b' true
  obtain ⟨id, owner, waits, ho⟩ : ∃ id owner waits, d.Owned p id owner waits := by
    rcases h.accounted p with hu | ho
    · exact absurd hp (hu.held b)
    · exact ho
  obtain rfl := (ho.held b).mp hp
  obtain ⟨recv, hrecv, rfl⟩ := ho.session b rfl
  have hshape : d.destroyMediaProcessor b true =
      (d.enqueue ⟨recv.streamId, .delSession p⟩).setProcessor b none := by
    unfold destroyMediaProcessor
    simp [hrecv, hp]
  have habout : ∀ q i, (d.stop b true).about q i =
      (d.enqueue ⟨recv.streamId, .delSession p⟩).about q i := by
    intro q i
    simp [Distribution.stop, hshape, Distribution.about, setProcessor]
  have hproc : ∀ b', ((d.stop b true).business b').pRecvProcessor =
      if b' = b then none else (d.business b').pRecvProcessor := by
    intro b'
    rw [(hbus b').1, hrecv]
    rfl
  have hhome : (d.stop b true).home recv.streamId = d.home recv.streamId := by
    simp [Distribution.stop, hshape, setProcessor, enqueue, home]
  refine ⟨fun q => ?_, ?_, ?_⟩
  · by_cases hq : q = p
    · subst hq
      refine .inr ⟨recv.streamId, none, waits, ?_, fun b' => ?_, fun b' hb' => (by cases hb'),
        fun i => ?_, fun i id' => ?_⟩
      · simpa [Distribution.stop, hshape, setProcessor, enqueue] using ho.live
      · rw [hproc]
        by_cases hb : b' = b
        · simp [hb]
        · simpa [hb, Ne.symm hb] using ho.held b'
      · rw [habout, about_enqueue, ho.about, hhome]
        by_cases hi : i = d.home recv.streamId
        · simp [hi, PacketBody.concerns]
        · simp [hi]
      · rw [hhome, ← ho.listed]
        simp [Distribution.stop, hshape, setProcessor, enqueue, Listed]
    · refine (h.accounted q).frame ⟨?_, ?_, fun b' => ?_, fun b' hb' => (hbus b').2 ?_, fun i => ?_,
        fun i id => ?_⟩
      · simp [Distribution.stop, hshape, setProcessor, enqueue]
      · simp [Distribution.stop, hshape, setProcessor, enqueue]
      · rw [hproc]
        by_cases hb : b' = b
        · subst hb
          simp [hp, Ne.symm hq]
        · simp [hb]
      · rintro rfl
        rw [hp] at hb'
        exact hq (Option.some.inj hb').symm
      · rw [habout, about_enqueue]
        simp [PacketBody.concerns, Ne.symm hq]
      · simp [Distribution.stop, hshape, setProcessor, enqueue, Listed]
  · simpa [Distribution.stop, hshape, setProcessor, enqueue] using h.once
  · simpa [Distribution.stop, hshape, setProcessor, enqueue] using h.count

/-- A business stops, and its message gets out if there is one. -/
theorem OwnerInv.stop (h : d.OwnerInv) {delOk : Bool}
    (hok : delOk || (d.business b).pRecvProcessor.isNone) : (d.stop b delOk).OwnerInv := by
  cases hp : (d.business b).pRecvProcessor with
  | none => exact h.stop_none hp delOk
  | some p =>
    obtain rfl : delOk = true := by simpa [hp] using hok
    exact h.stop_some hp

/-- A business starts without a processor from an earlier start. -/
theorem OwnerInv.start (h : d.OwnerInv) {ready initOk addOk : Bool}
    (hok : !ready || (d.business b).pRecvProcessor.isNone) :
    (d.start b ready p initOk addOk).OwnerInv := by
  unfold Distribution.start
  split
  · rename_i recv send hrecv hsend
    split
    · rename_i hready
      have hnone : (d.business b).pRecvProcessor = none := by simpa [hready] using hok
      have hdrop : d.dropProcessor b = d := by
        unfold dropProcessor
        rw [hnone]
      unfold createMediaProcessor
      simp only [hdrop]
      split
      · exact h
      · rename_i hp
        have hp : d.live p = false := by simpa using hp
        split
        · split
          · exact h.register hp hnone hrecv _
          · exact h.create_delete hp
        · exact h
    · exact h
  · exact h

end Calls

/-! ## Processing -/

section Process

variable {cv : Converter κ δ} {i : Nat} {pkt : TransmitPacket δ} {l : List (TransmitPacket δ)}

@[simp] theorem about_delete (ps : List Nat) (q j : Nat) : (d.delete ps).about q j = d.about q j :=
  rfl

@[simp] theorem listed_delete (ps : List Nat) (q j : Nat) (id : UInt64) :
    (d.delete ps).Listed q j id ↔ d.Listed q j id :=
  Iff.rfl

@[simp] theorem home_took (m : ExchangeMap κ) (ps : List Nat) (id : UInt64) :
    ((d.took i l m).delete ps).home id = d.home id :=
  rfl

/-- The messages about `q` when the one in front was taken out. -/
theorem about_took (hl : d.dataExchangeQueue i = pkt :: l) (m : ExchangeMap κ) (q j : Nat) :
    d.about q j =
      (if j = i ∧ pkt.body.concerns q then [pkt] else []) ++ (d.took i l m).about q j := by
  unfold Distribution.about took
  by_cases hj : j = i
  · subst hj
    by_cases hc : pkt.body.concerns q <;> simp [hl, hc]
  · simp [hj]

/-- The sets of a thread when one of them became `o`. -/
theorem listed_took {id : UInt64} {o : Option (ProcessorSet κ)} {q j : Nat} {id' : UInt64} :
    (d.took i l (Function.update (d.mediaExchangeMap i) id o)).Listed q j id' ↔
      if j = i ∧ id' = id then ∃ s, o = some s ∧ q ∈ s.processList else d.Listed q j id' := by
  unfold Listed took
  by_cases hj : j = i
  · subst hj
    by_cases hid : id' = id
    · simp [hid]
    · simp [hid]
  · simp [hj]

/-- A message that concerns no processor. -/
theorem OwnerInv.took_same (h : d.OwnerInv) (hl : d.dataExchangeQueue i = pkt :: l)
    (hpkt : ∀ q, pkt.body.concerns q = false) {m : ExchangeMap κ}
    (hm : ∀ id, (m id).map ProcessorSet.processList =
      (d.mediaExchangeMap i id).map ProcessorSet.processList) : ((d.took i l m).delete []).OwnerInv := by
  have hsets : ∀ j id s, (d.took i l m).mediaExchangeMap j id = some s →
      ∃ s', d.mediaExchangeMap j id = some s' ∧ s'.processList = s.processList := by
    intro j id s hs
    by_cases hj : j = i
    · subst hj
      have hs' : m id = some s := by simpa [took] using hs
      have := hm id
      rw [hs'] at this
      simpa using this.symm
    · exact ⟨s, by simpa [took, hj] using hs, rfl⟩
  have hlisted : ∀ q j id, (d.took i l m).Listed q j id ↔ d.Listed q j id := by
    intro q j id
    unfold Listed
    by_cases hj : j = i
    · subst hj
      have := hm id
      cases hd : d.mediaExchangeMap j id <;> cases hm' : m id <;> simp_all [took]
    · simp [took, hj]
  refine ⟨fun q => (h.accounted q).frame ⟨rfl, ?_, fun b => Iff.rfl, fun b _ => rfl, fun j => ?_,
    hlisted q⟩, fun j id s hs => ?_, fun q => ?_⟩
  · simp [delete, took]
  · rw [about_took hl m, hpkt]
    simp
  · obtain ⟨s', hs', heq⟩ := hsets j id s hs
    exact heq ▸ h.once j id s' hs'
  · simpa [delete, took] using h.count q

/-- The message in front is about a processor on its way, and is the first of the messages about it.
`rest` are the others. -/
theorem OwnerInv.of_front (h : d.OwnerInv) (hl : d.dataExchangeQueue i = pkt :: l)
    (hp : pkt.body.concerns p = true) :
    ∃ id owner waits rest, d.Owned p id owner waits ∧ i = d.home id ∧
      waits.toList.map (fun w => (⟨id, .addSession p w.1 w.2⟩ : TransmitPacket δ)) ++
          (if owner.isNone then [⟨id, .delSession p⟩] else []) = pkt :: rest ∧
        ∀ m j, (d.took i l m).about p j = if j = i then rest else [] := by
  have habout := fun m j => about_took hl m p j
  simp only [hp, and_true] at habout
  have hfront := habout (d.mediaExchangeMap i) i
  rw [if_pos rfl] at hfront
  rcases h.accounted p with hu | ⟨id, owner, waits, ho⟩
  · rw [hu.about] at hfront
    cases hfront
  · rw [ho.about] at hfront
    have hi : i = d.home id := by
      by_contra hne
      rw [if_neg hne] at hfront
      cases hfront
    rw [if_pos hi] at hfront
    refine ⟨id, owner, waits, _, ho, hi, hfront, fun m j => ?_⟩
    by_cases hj : j = i
    · subst hj
      rw [if_pos rfl]
      rfl
    · have hother := habout m j
      rw [ho.about, if_neg (hi ▸ hj), if_neg hj] at hother
      rw [if_neg hj]
      exact hother.symm

/-- What is not deleted, and listed as before, keeps its account when a message about something else
was taken out. -/
theorem Accounted.took (h : d.Accounted p) (hl : d.dataExchangeQueue i = pkt :: l)
    (hp : pkt.body.concerns p = false) {ps : List Nat} (hps : p ∉ ps) {id : UInt64}
    {o : Option (ProcessorSet κ)}
    (ho : (∃ s, o = some s ∧ p ∈ s.processList) ↔ d.Listed p i id) :
    ((d.took i l (Function.update (d.mediaExchangeMap i) id o)).delete ps).Accounted p := by
  refine h.frame ⟨rfl, ?_, fun b => Iff.rfl, fun b _ => rfl, fun j => ?_, fun j id' => ?_⟩
  · simp [delete, Distribution.took, hps]
  · rw [about_delete, about_took hl (Function.update (d.mediaExchangeMap i) id o), hp]
    simp
  · rw [listed_delete, listed_took]
    split
    · rename_i hji
      rw [hji.1, hji.2, ho]
    · rfl

/-- The sets have no processor twice, if the one that changed has none. -/
theorem OwnerInv.once_took (h : d.OwnerInv) {id : UInt64} {o : Option (ProcessorSet κ)}
    (ho : ∀ s, o = some s → s.processList.Nodup) (j : Nat) (id' : UInt64) (s : ProcessorSet κ)
    (hs : Function.update d.mediaExchangeMap i (Function.update (d.mediaExchangeMap i) id o) j id' =
      some s) : s.processList.Nodup := by
  by_cases hj : j = i
  · subst hj
    by_cases hid : id' = id
    · subst hid
      exact ho s (by simpa using hs)
    · exact h.once j id' s (by simpa [hid] using hs)
  · exact h.once j id' s (by simpa [hj] using hs)

/-- The message that registers a processor. -/
theorem OwnerInv.processAdd (h : d.OwnerInv) {id : UInt64} {recv send : MediaTransType}
    (hl : d.dataExchangeQueue i = ⟨id, .addSession p recv send⟩ :: l) :
    let r := processAddSession cv.new true (d.mediaExchangeMap i) id p recv send
    ((d.took i l r.1).delete r.2).OwnerInv := by
  intro r
  -- the processor waits for this message, so it is not listed yet
  obtain ⟨owner, ho, rfl, habout⟩ : ∃ owner, d.Owned p id owner (some (recv, send)) ∧
      i = d.home id ∧ ∀ m j, (d.took i l m).about p j =
        if j = i then (if owner.isNone then [⟨id, .delSession p⟩] else []) else [] := by
    obtain ⟨id', owner, waits, rest, ho, hi, hfront, habout⟩ :=
      h.of_front hl (show decide (p = p) = true from decide_eq_true rfl)
    cases waits with
    | none => cases owner <;> simp at hfront
    | some w =>
      obtain ⟨w1, w2⟩ := w
      simp only [Option.toList_some, List.map_cons, List.map_nil, List.cons_append,
        List.nil_append, List.cons.injEq, TransmitPacket.mk.injEq, PacketBody.addSession.injEq]
        at hfront
      obtain ⟨⟨rfl, -, rfl, rfl⟩, rfl⟩ := hfront
      exact ⟨owner, ho, hi, habout⟩
  obtain ⟨s, hs, hnew⟩ : ∃ s, findSet cv.new true (d.mediaExchangeMap (d.home id)) id recv send = some s ∧
      p ∉ s.processList ∧ s.processList.Nodup ∧
      ∀ q, q ∈ s.processList ↔ d.Listed q (d.home id) id := by
    unfold findSet
    cases hm : d.mediaExchangeMap (d.home id) id with
    | none => exact ⟨_, rfl, by simp [newSet], by simp [newSet], fun q => by simp [newSet, Listed, hm]⟩
    | some s =>
      have hlist : ∀ q, q ∈ s.processList ↔ d.Listed q (d.home id) id := fun q => by simp [Listed, hm]
      refine ⟨s, rfl, fun hp => ?_, h.once _ _ _ hm, hlist⟩
      have := (ho.listed _ _).mp ((hlist p).mp hp)
      simp at this
  obtain ⟨hnew, hnodup, hlist⟩ := hnew
  have hr : r = (Function.update (d.mediaExchangeMap (d.home id)) id
      (some { s with processList := s.processList ++ [p] }), []) := by
    simp [r, processAddSession, hs, ProcessorSet.addMediaProcessor, hnew]
  rw [hr]
  refine ⟨fun q => ?_, h.once_took fun s' hs' => ?_, fun q => ?_⟩
  · by_cases hq : q = p
    · subst hq
      refine .inr ⟨id, owner, none, ?_, ho.held, ho.session, fun j => ?_, fun j id' => ?_⟩
      · simpa [delete, took] using ho.live
      · rw [about_delete, home_took, habout]
        rfl
      · rw [listed_delete, home_took, listed_took]
        split
        · rename_i hji
          simp [hji]
        · rename_i hji
          rw [ho.listed]
          simpa using hji
    · refine (h.accounted q).took hl (by simp [PacketBody.concerns, Ne.symm hq]) List.not_mem_nil ?_
      simp [hq, hlist]
  · rw [← Option.some.inj hs']
    exact List.nodup_append_comm.mp (List.nodup_cons.mpr ⟨hnew, hnodup⟩)
  · simpa [delete, took] using h.count q

/-- The message that takes a processor away. -/
theorem OwnerInv.processDel (h : d.OwnerInv) {id : UInt64}
    (hl : d.dataExchangeQueue i = ⟨id, .delSession p⟩ :: l) :
    let r := processDelSession (d.mediaExchangeMap i) id p
    ((d.took i l r.1).delete r.2).OwnerInv := by
  intro r
  -- the processor is listed, and nothing but this message refers to it
  obtain ⟨ho, rfl, habout⟩ : d.Owned p id none none ∧ i = d.home id ∧
      ∀ m j, (d.took i l m).about p j = [] := by
    obtain ⟨id', owner, waits, rest, ho, hi, hfront, habout⟩ :=
      h.of_front hl (show decide (p = p) = true from decide_eq_true rfl)
    cases waits with
    | some w => simp at hfront
    | none =>
      cases owner with
      | some b => simp at hfront
      | none =>
        simp only [Option.toList_none, List.map_nil, List.nil_append, Option.isNone_none,
          if_true, List.cons.injEq, TransmitPacket.mk.injEq] at hfront
        obtain ⟨⟨rfl, -⟩, rfl⟩ := hfront
        exact ⟨ho, hi, fun m j => (habout m j).trans (ite_self _)⟩
  obtain ⟨s, hs, hp⟩ := (ho.listed (d.home id) id).mpr ⟨rfl, rfl, rfl⟩
  have hnodup := h.once _ _ _ hs
  have hr : r = (Function.update (d.mediaExchangeMap (d.home id)) id
      (if (s.processList.erase p).isEmpty then none
        else some { s with processList := s.processList.erase p }), [p]) := by
    simp [r, processDelSession, hs, ProcessorSet.delMediaProcessor, hp]
  have hleft : ∀ q, (∃ s', (if (s.processList.erase p).isEmpty then none
      else some { s with processList := s.processList.erase p }) = some s' ∧ q ∈ s'.processList) ↔
      q ≠ p ∧ d.Listed q (d.home id) id := by
    intro q
    have hq : q ∈ s.processList.erase p ↔ q ≠ p ∧ d.Listed q (d.home id) id := by
      rw [hnodup.mem_erase_iff]
      simp [Listed, hs]
    rw [← hq]
    split
    · rename_i hempty
      rw [List.isEmpty_iff.mp hempty]
      simp
    · simp
  rw [hr]
  refine ⟨fun q => ?_, h.once_took fun s' hs' => ?_, fun q => ?_⟩
  · by_cases hq : q = p
    · subst hq
      refine .inl ⟨by simp [delete], fun b hb => ?_, fun j => habout r.1 j, fun j id' => ?_⟩
      · exact absurd ((ho.held b).mp hb) (by simp)
      · rw [listed_delete, listed_took]
        split
        · rw [hleft]
          simp
        · rename_i hji
          rw [ho.listed]
          simpa using hji
    · refine (h.accounted q).took hl (by simp [PacketBody.concerns, Ne.symm hq]) (by simpa using hq) ?_
      rw [hleft]
      simp [hq]
  · split at hs'
    · cases hs'
    · rw [← Option.some.inj hs']
      exact hnodup.erase p
  · have hc := h.count q
    change d.created.count q =
      (d.deleted ++ [p]).count q + if (d.live q && !([p].contains q)) then 1 else 0
    rw [List.count_append]
    by_cases hq : q = p
    · subst hq
      simp [ho.live] at hc ⊢
      exact hc
    · simpa [hq, Ne.symm hq] using hc

end Process

/-! ## Runs -/

section Runs

variable [DecidableEq β] {cv : Converter κ δ}

theorem step_ownerInv (h : d.OwnerInv) (a : Act β δ) (hok : d.keepsOwner a) :
    (step cv d a).OwnerInv := by
  cases a with
  | start b ready p initOk addOk => exact h.start hok
  | stop b delOk => exact h.stop hok
  | addData id block => exact h.media id block
  | process i alloc =>
    obtain rfl : alloc = true := hok
    simp only [step]
    split
    · exact h
    · rename_i pkt l hl
      obtain ⟨id, body⟩ := pkt
      cases body with
      | mediaData block =>
        refine h.took_same hl (fun q => rfl) fun id' => ?_
        simp only [processPacket, processMediaData]
        cases hs : d.mediaExchangeMap i id with
        | none => rfl
        | some s =>
          by_cases hid : id' = id
          · subst hid
            simp [hs]
          · simp [hid]
      | addSession p recv send => exact h.processAdd hl
      | delSession p => exact h.processDel hl
      | unsupported => exact h.took_same hl (fun q => rfl) fun id' => rfl

/-- **Ownership.** For every number of businesses and threads and every order of starts, stops,
media and processing in which no start meets a processor of an earlier one, every stop gets its
message out, and there is memory for every new set: every processor of a set exists and is in one
set, no address is deleted more often than it was handed out, and when all is stopped and processed
every processor that was made has been deleted once. -/
theorem run_sound (n : Nat) (recv send : β → Option BusinessSession) (as : List (Act β δ))
    (h : Run.Allowed (step cv) (fun d a => d.keepsOwner a) (init n recv send) as) :
    (Run.run (step cv) (init n recv send) as).Sound :=
  OwnerInv.sound (h.invariant (init_ownerInv n recv send) fun _ a hs hok => step_ownerInv hs a hok)

end Runs

/-- The sessions of a live stream: it comes as PS and goes out as RTP. -/
def liveRecv : Unit → Option BusinessSession := fun _ => some ⟨1, .live, .ps⟩

/-- The session that the stream is sent to. -/
def liveSend : Unit → Option BusinessSession := fun _ => some ⟨2, .live, .rtp⟩

/-- A business starts, the thread lists its processor, media comes, and the business stops. -/
def startStop : List (Act Unit Unit) :=
  [.start () true 7 true true, .process 0 true, .addData 1 (), .process 0 true, .stop () true,
    .process 0 true]

theorem run_sound_startStop :
    (Run.run (step Converter.unit) (init 1 liveRecv liveSend) startStop).created = [7] ∧
      (Run.run (step Converter.unit) (init 1 liveRecv liveSend) startStop).deleted = [7] ∧
      (Run.run (step Converter.unit) (init 1 liveRecv liveSend) startStop).Sound :=
  ⟨by decide, by decide, run_sound 1 liveRecv liveSend startStop (by decide)⟩

/-- The business is started once more, after its processor was listed. -/
def startTwice : List (Act Unit Unit) :=
  [.start () true 7 true true, .process 0 true, .start () true 8 true true]

theorem not_sound_startTwice :
    ¬ (Run.run (step Converter.unit) (init 1 liveRecv liveSend) startTwice).Sound := by
  intro h
  have hlisted : (Run.run (step Converter.unit) (init 1 liveRecv liveSend) startTwice).Listed 7 0 1 :=
    ⟨⟨some (), [7]⟩, rfl, List.mem_singleton.mpr rfl⟩
  have hlive := h.live 7 0 1 hlisted
  revert hlive
  decide

end Distribution

end AllCamera
