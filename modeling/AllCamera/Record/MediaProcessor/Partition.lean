import AllCamera.Record.MediaProcessor.Handled

/-!
# Free handles and handles in use

The indexes of the handles are in the free list, with a call of `alloc_handle`, or in use, whatever the
order in which sections of calls and messages come (`run_indexes_partition`).

* `Partition`: the invariant of the indexes.
* `Inv`: it holds of the state; one lemma for each section and for a message.
-/

namespace AllCamera

/-! ## The indexes -/

namespace HandleInfo

variable {h : HandleInfo}

theorem blank_reset (h : HandleInfo) : h.reset.Blank := ⟨rfl, rfl, rfl⟩

theorem InUse.not_blank (h₁ : h.InUse) : ¬ h.Blank := fun h₂ => h₁.1 h₂.1

/-- The handle when it has been filled in for `key`. -/
def filled (h : HandleInfo) (key : DevKey) : HandleInfo :=
  { h with
    szDevID := setLocalizeDeviceId key.szDevID
    nInType := key.in_type
    nOutType := key.out_type
    status := .init
    pFileEgress := true
    pRecvStream := true }

theorem inUse_filled (h : HandleInfo) (key : DevKey) : (h.filled key).InUse :=
  ⟨HandleStatus.noConfusion, rfl, rfl⟩

end HandleInfo

open scoped UIntOrder
open AllCamera.History

/-- Index `i` is with a call of `alloc_handle` that has not filled its handle in. -/
def Taken (call : Nat → AllocCall) (i : Nat) : Prop := ∃ c key, call c = .taken key i

/-- The invariant of the indexes. -/
structure Partition (p : Processor) (call : Nat → AllocCall) (history : List (Event Nat)) :
    Prop where
  below : ∀ i ∈ p.freeIndexList, i < p.maxHandleNum
  nodup : p.freeIndexList.Nodup
  blank : ∀ i ∈ p.freeIndexList, (p.handleArray i).Blank
  taken : ∀ i, Taken call i →
    i < p.maxHandleNum ∧ i ∉ p.freeIndexList ∧ (p.handleArray i).Blank
  single : ∀ c c' key key' i, call c = .taken key i → call c' = .taken key' i → c = c'
  used : ∀ i < p.maxHandleNum, i ∉ p.freeIndexList → ¬ Taken call i → (p.handleArray i).InUse
  count : ∀ i, (p.handleArray i).ulRefCount = 1
  waiting : ∀ i, ∀ m ∈ (p.handleArray i).msgQueue, m.ulIndex = i
  out : ∀ i, i ∈ outs history ↔ i < p.maxHandleNum ∧ i ∉ p.freeIndexList
  alternates : Alternates history

namespace Partition

variable {p : Processor} {call : Nat → AllocCall} {history : List (Event Nat)} {i c : Nat}
  {h : HandleInfo} {key : DevKey}

theorem notMem_free (hp : Partition p call history) (huse : (p.handleArray i).InUse) :
    i ∉ p.freeIndexList := fun hfree => huse.not_blank (hp.blank i hfree)

theorem not_taken (hp : Partition p call history) (huse : (p.handleArray i).InUse) :
    ¬ Taken call i := fun htaken => huse.not_blank (hp.taken i htaken).2.2

theorem inUse_of_status (hp : Partition p call history) (hlt : i < p.maxHandleNum)
    (hstatus : (p.handleArray i).status ≠ .invalid) : (p.handleArray i).InUse :=
  hp.used i hlt (fun hfree => hstatus (hp.blank i hfree).1) fun htaken =>
    hstatus (hp.taken i htaken).2.2.1

theorem count_update (hp : Partition p call history) (hcount : h.ulRefCount = 1) (j : Nat) :
    (Function.update p.handleArray i h j).ulRefCount = 1 :=
  (Function.forall_update_iff p.handleArray fun _ h => h.ulRefCount = 1).mpr
    ⟨hcount, fun j _ => hp.count j⟩ j

theorem waiting_update (hp : Partition p call history) (hwaiting : ∀ m ∈ h.msgQueue, m.ulIndex = i)
    (j : Nat) : ∀ m ∈ (Function.update p.handleArray i h j).msgQueue, m.ulIndex = j :=
  (Function.forall_update_iff p.handleArray fun j h => ∀ m ∈ h.msgQueue, m.ulIndex = j).mpr
    ⟨hwaiting, fun j _ => hp.waiting j⟩ j

/-- A handle in use stays in use. -/
theorem update (hp : Partition p call history) (huse : (p.handleArray i).InUse) (huse' : h.InUse)
    (hcount : h.ulRefCount = 1) (hwaiting : ∀ m ∈ h.msgQueue, m.ulIndex = i)
    (msgs : List MediaEventMsg) : Partition (p.update i h msgs) call history := by
  have hother : ∀ j, (p.handleArray j).Blank → Function.update p.handleArray i h j =
      p.handleArray j := by
    intro j hj
    refine Function.update_of_ne ?_ _ _
    rintro rfl
    exact huse.not_blank hj
  refine ⟨hp.below, hp.nodup, fun j hj => ?_, fun j hj => ?_, hp.single, fun j hj hfree htaken => ?_,
    hp.count_update hcount, hp.waiting_update hwaiting, hp.out, hp.alternates⟩
  · rw [Processor.handleArray_update, hother j (hp.blank j hj)]
    exact hp.blank j hj
  · obtain ⟨hlt, hfree, hblank⟩ := hp.taken j hj
    rw [Processor.handleArray_update, hother j hblank]
    exact ⟨hlt, hfree, hblank⟩
  · rw [Processor.handleArray_update]
    by_cases hji : j = i
    · rw [hji, Function.update_self]
      exact huse'
    · rw [Function.update_of_ne hji]
      exact hp.used j hj hfree htaken

/-- A handle that is in nobody's hands but its call's or in use comes back. -/
theorem free (hp : Partition p call history) (hlt : i < p.maxHandleNum) (hfree : i ∉ p.freeIndexList)
    (hblank : h.Blank) (hcount : h.ulRefCount = 1) (hwaiting : ∀ m ∈ h.msgQueue, m.ulIndex = i)
    {call' : Nat → AllocCall} (htaken : ∀ j, Taken call' j ↔ Taken call j ∧ j ≠ i)
    (hsingle : ∀ c c' key key' j, call' c = .taken key j → call' c' = .taken key' j → c = c')
    (msgs : List MediaEventMsg) :
    Partition ((p.update i h msgs).freeHandleIndex i) call' (.back i :: history) := by
  have hmem : ∀ j, j ∈ p.freeIndexList ++ [i] ↔ j ∈ p.freeIndexList ∨ j = i := by
    intro j
    rw [List.mem_append, List.mem_singleton]
  refine ⟨fun j hj => ?_, ?_, fun j hj => ?_, fun j hj => ?_, hsingle, fun j hj hjfree hjtaken => ?_,
    hp.count_update hcount, hp.waiting_update hwaiting, fun j => ?_,
    (hp.out i).mpr ⟨hlt, hfree⟩, hp.alternates⟩
  · rcases (hmem j).mp hj with hj | rfl
    · exact hp.below j hj
    · exact hlt
  · exact (List.nodup_append.mpr ⟨hp.nodup, List.nodup_singleton i, fun a ha b hb => by
      rw [List.mem_singleton.mp hb]
      rintro rfl
      exact hfree ha⟩)
  · change (Function.update p.handleArray i h j).Blank
    by_cases hji : j = i
    · rw [hji, Function.update_self]
      exact hblank
    · rw [Function.update_of_ne hji]
      exact hp.blank j (((hmem j).mp hj).resolve_right hji)
  · obtain ⟨hj, hji⟩ := (htaken j).mp hj
    obtain ⟨hjlt, hjfree, hjblank⟩ := hp.taken j hj
    refine ⟨hjlt, fun hin => ((hmem j).mp hin).elim hjfree hji, ?_⟩
    change (Function.update p.handleArray i h j).Blank
    rwa [Function.update_of_ne hji]
  · have hjfree : ¬ (j ∈ p.freeIndexList ∨ j = i) := fun hin => hjfree ((hmem j).mpr hin)
    rw [not_or] at hjfree
    change (Function.update p.handleArray i h j).InUse
    rw [Function.update_of_ne hjfree.2]
    exact hp.used j hj hjfree.1 fun hin => hjtaken ((htaken j).mpr ⟨hin, hjfree.2⟩)
  · rw [outs, List.mem_filter, hp.out]
    change _ ↔ j < p.maxHandleNum ∧ j ∉ p.freeIndexList ++ [i]
    rw [hmem, not_or, decide_eq_true_eq, and_assoc]

/-- The handle of a finished recording comes back. -/
theorem finish (hp : Partition p call history) (hlt : i < p.maxHandleNum)
    (huse : (p.handleArray i).InUse) : Partition (p.finish i) call (.back i :: history) := by
  have hkeep : ∀ j, Taken call j ↔ Taken call j ∧ j ≠ i := by
    intro j
    refine ⟨fun htaken => ⟨htaken, ?_⟩, And.left⟩
    rintro rfl
    exact hp.not_taken huse htaken
  have hfree := hp.free hlt (hp.notMem_free huse) (HandleInfo.blank_reset (p.handleArray i)) rfl
    (hp.waiting i) hkeep hp.single []
  exact ⟨hfree.below, hfree.nodup, hfree.blank, hfree.taken, hfree.single, hfree.used, hfree.count,
    hfree.waiting, hfree.out, hfree.alternates⟩

/-- A call that has no index goes on to a place without one. -/
theorem setCall (hp : Partition p call history) {a : AllocCall} (hold : ∀ key i, call c ≠ .taken key i)
    (hnew : ∀ key i, a ≠ .taken key i) : Partition p (Function.update call c a) history := by
  have hcall : ∀ c' key i, Function.update call c a c' = .taken key i ↔ call c' = .taken key i := by
    intro c' key i
    by_cases hc : c' = c
    · rw [hc, Function.update_self]
      exact ⟨fun h => absurd h (hnew key i), fun h => absurd h (hold key i)⟩
    · rw [Function.update_of_ne hc]
  have htaken : ∀ i, Taken (Function.update call c a) i ↔ Taken call i := fun i =>
    exists_congr fun c' => exists_congr fun key => hcall c' key i
  refine ⟨hp.below, hp.nodup, hp.blank, fun i hi => hp.taken i ((htaken i).mp hi),
    fun c₁ c₂ key₁ key₂ i h₁ h₂ => hp.single c₁ c₂ key₁ key₂ i ((hcall ..).mp h₁) ((hcall ..).mp h₂),
    fun i hi hfree hno => hp.used i hi hfree fun hin => hno ((htaken i).mpr hin), hp.count,
    hp.waiting, hp.out, hp.alternates⟩

/-- A call takes the first free index. -/
theorem take (hp : Partition p call history) {rest : List Nat} (hfree : p.freeIndexList = i :: rest)
    (hcall : ∀ key i, call c ≠ .taken key i) (key : DevKey) (hblank : h.Blank)
    (hcount : h.ulRefCount = 1) (hwaiting : ∀ m ∈ h.msgQueue, m.ulIndex = i) :
    Partition ({ p with freeIndexList := rest }.update i h [])
      (Function.update call c (.taken key i)) (.out i :: history) := by
  have hmem : ∀ j, j ∈ p.freeIndexList ↔ j = i ∨ j ∈ rest := by
    intro j
    rw [hfree, List.mem_cons]
  have hnodup := hp.nodup
  rw [hfree, List.nodup_cons] at hnodup
  have hlt := hp.below i ((hmem i).mpr (.inl rfl))
  have htaken : ∀ j, Taken (Function.update call c (.taken key i)) j ↔ j = i ∨ Taken call j := by
    intro j
    constructor
    · rintro ⟨c', key', hc'⟩
      by_cases hc : c' = c
      · rw [hc, Function.update_self] at hc'
        exact .inl (AllocCall.taken.inj hc').2.symm
      · rw [Function.update_of_ne hc] at hc'
        exact .inr ⟨c', key', hc'⟩
    · rintro (rfl | ⟨c', key', hc'⟩)
      · exact ⟨c, key, Function.update_self ..⟩
      · have hc : c' ≠ c := fun hc => hcall key' j (hc ▸ hc')
        exact ⟨c', key', by rwa [Function.update_of_ne hc]⟩
  have hnot : ¬ Taken call i := fun hin => (hp.taken i hin).2.1 ((hmem i).mpr (.inl rfl))
  refine ⟨fun j hj => hp.below j ((hmem j).mpr (.inr hj)), hnodup.2, fun j hj => ?_, fun j hj => ?_,
    fun c₁ c₂ key₁ key₂ j h₁ h₂ => ?_, fun j hj hjfree hjtaken => ?_, hp.count_update hcount,
    hp.waiting_update hwaiting, fun j => ?_, fun hout => ?_, hp.alternates⟩
  · change (Function.update p.handleArray i h j).Blank
    have hji : j ≠ i := fun hji => hnodup.1 (hji ▸ hj)
    rw [Function.update_of_ne hji]
    exact hp.blank j ((hmem j).mpr (.inr hj))
  · change j < p.maxHandleNum ∧ j ∉ rest ∧ (Function.update p.handleArray i h j).Blank
    by_cases hji : j = i
    · rw [hji, Function.update_self]
      exact ⟨hlt, hnodup.1, hblank⟩
    · obtain ⟨hjlt, hjfree, hjblank⟩ := hp.taken j (((htaken j).mp hj).resolve_left hji)
      rw [Function.update_of_ne hji]
      exact ⟨hjlt, fun hin => hjfree ((hmem j).mpr (.inr hin)), hjblank⟩
  · by_cases hc₁ : c₁ = c
    · by_cases hc₂ : c₂ = c
      · rw [hc₁, hc₂]
      · rw [hc₁, Function.update_self] at h₁
        rw [Function.update_of_ne hc₂] at h₂
        exact absurd ⟨c₂, key₂, (AllocCall.taken.inj h₁).2 ▸ h₂⟩ hnot
    · rw [Function.update_of_ne hc₁] at h₁
      by_cases hc₂ : c₂ = c
      · rw [hc₂, Function.update_self] at h₂
        exact absurd ⟨c₁, key₁, (AllocCall.taken.inj h₂).2 ▸ h₁⟩ hnot
      · rw [Function.update_of_ne hc₂] at h₂
        exact hp.single c₁ c₂ key₁ key₂ j h₁ h₂
  · have hno : ¬ (j = i ∨ Taken call j) := fun hin => hjtaken ((htaken j).mpr hin)
    rw [not_or] at hno
    change (Function.update p.handleArray i h j).InUse
    rw [Function.update_of_ne hno.1]
    exact hp.used j hj (fun hin => ((hmem j).mp hin).elim hno.1 hjfree) hno.2
  · rw [outs, List.mem_cons, hp.out]
    change _ ↔ j < p.maxHandleNum ∧ j ∉ rest
    rw [hmem, not_or]
    constructor
    · rintro (rfl | ⟨hj, -, hrest⟩)
      · exact ⟨hlt, hnodup.1⟩
      · exact ⟨hj, hrest⟩
    · rintro ⟨hj, hrest⟩
      by_cases hji : j = i
      · exact .inl hji
      · exact .inr ⟨hj, hji, hrest⟩
  · exact ((hp.out i).mp hout).2 ((hmem i).mpr (.inl rfl))

/-- What is taken when a call with index `i` has gone on. -/
theorem taken_update (hp : Partition p call history) (hc : call c = .taken key i) {a : AllocCall}
    (hnew : ∀ key i, a ≠ .taken key i) (j : Nat) :
    Taken (Function.update call c a) j ↔ Taken call j ∧ j ≠ i := by
  constructor
  · rintro ⟨c', key', hc'⟩
    have hne : c' ≠ c := by
      rintro rfl
      rw [Function.update_self] at hc'
      exact hnew key' j hc'
    rw [Function.update_of_ne hne] at hc'
    refine ⟨⟨c', key', hc'⟩, ?_⟩
    rintro rfl
    exact hne (hp.single c' c key' key j hc' hc)
  · rintro ⟨⟨c', key', hc'⟩, hji⟩
    have hne : c' ≠ c := by
      rintro rfl
      rw [hc] at hc'
      exact hji (AllocCall.taken.inj hc').2.symm
    exact ⟨c', key', by rwa [Function.update_of_ne hne]⟩

theorem single_update (hp : Partition p call history) {a : AllocCall}
    (hnew : ∀ key i, a ≠ .taken key i) (c₁ c₂ : Nat) (key₁ key₂ : DevKey) (j : Nat)
    (h₁ : Function.update call c a c₁ = .taken key₁ j)
    (h₂ : Function.update call c a c₂ = .taken key₂ j) : c₁ = c₂ := by
  have hne : ∀ c' key', Function.update call c a c' = .taken key' j → c' ≠ c := by
    rintro c' key' hc' rfl
    rw [Function.update_self] at hc'
    exact hnew key' j hc'
  rw [Function.update_of_ne (hne c₁ key₁ h₁)] at h₁
  rw [Function.update_of_ne (hne c₂ key₂ h₂)] at h₂
  exact hp.single c₁ c₂ key₁ key₂ j h₁ h₂

/-- The handle of a call's index is filled in. -/
theorem fill (hp : Partition p call history) (hc : call c = .taken key i) {a : AllocCall}
    (hnew : ∀ key i, a ≠ .taken key i) (huse : h.InUse) (hcount : h.ulRefCount = 1)
    (hwaiting : ∀ m ∈ h.msgQueue, m.ulIndex = i) :
    Partition (p.update i h []) (Function.update call c a) history := by
  have hi := hp.taken i ⟨c, key, hc⟩
  have htaken := hp.taken_update hc hnew
  refine ⟨hp.below, hp.nodup, fun j hj => ?_, fun j hj => ?_, hp.single_update hnew,
    fun j hj hjfree hjtaken => ?_, hp.count_update hcount, hp.waiting_update hwaiting, hp.out,
    hp.alternates⟩
  · have hji : j ≠ i := fun hji => hi.2.1 (hji ▸ hj)
    rw [Processor.handleArray_update, Function.update_of_ne hji]
    exact hp.blank j hj
  · obtain ⟨hj, hji⟩ := (htaken j).mp hj
    rw [Processor.handleArray_update, Function.update_of_ne hji]
    exact hp.taken j hj
  · rw [Processor.handleArray_update]
    by_cases hji : j = i
    · rw [hji, Function.update_self]
      exact huse
    · rw [Function.update_of_ne hji]
      exact hp.used j hj hjfree fun hin => hjtaken ((htaken j).mpr ⟨hin, hji⟩)

/-- What waits in the main queue, and the devices' entries, do not matter. -/
theorem of_queue (hp : Partition p call history) (msgQueue : List MediaEventMsg)
    (devIndexMap : Multimap (List UInt8) Nat) :
    Partition { p with msgQueue, devIndexMap } call history :=
  ⟨hp.below, hp.nodup, hp.blank, hp.taken, hp.single, hp.used, hp.count, hp.waiting, hp.out,
    hp.alternates⟩

end Partition

/-! ## The steps -/

namespace ProcessorSystem

open AllCamera.Run Processor

variable {s : ProcessorSystem} {i : Nat}

def Inv (s : ProcessorSystem) : Prop := Partition s.proc s.call s.history

theorem inv_init (max_lens : Nat) : (init max_lens).Inv where
  below i hi := List.mem_range.mp hi
  nodup := List.nodup_range
  blank _ _ := ⟨rfl, rfl, rfl⟩
  taken i := by
    rintro ⟨c, key, hc⟩
    cases hc
  single c c' key key' i hc := by cases hc
  used i hi hfree := absurd (List.mem_range.mpr hi) hfree
  count _ := rfl
  waiting i m hm := (List.not_mem_nil hm).elim
  out i := ⟨fun hi => (List.not_mem_nil hi).elim, fun hi => absurd (List.mem_range.mpr hi.1) hi.2⟩
  alternates := trivial

/-- The message thread has nothing to do, or it handles the first message in one of the ways. -/
theorem Inv.handle_cases (h : s.Inv) (o : HandleOutcome) :
    s.proc.msgQueue = [] ∧ s.handle o = s ∨
      ∃ msg rest tried p', s.proc.msgQueue = msg :: rest ∧
        Handled { s.proc with msgQueue := rest } msg o tried p' ∧
        s.handle o = s.handled msg tried p' := by
  rw [ProcessorSystem.handle]
  cases hqueue : s.proc.msgQueue with
  | nil => exact .inl ⟨rfl, rfl⟩
  | cons msg rest =>
    exact .inr ⟨msg, rest, _, _, rfl, handleMessage_cases (h.waiting msg.ulIndex), rfl⟩

/-- The message that comes to those that wait is for the handle as well. -/
theorem waiting_append {waiting : List MediaEventMsg} {msg : MediaEventMsg} {tailOk : Bool}
    (hwaiting : ∀ m ∈ waiting, m.ulIndex = msg.ulIndex) :
    ∀ m ∈ waiting ++ (if tailOk then [msg] else []), m.ulIndex = msg.ulIndex := by
  intro m hm
  rcases List.mem_append.mp hm with hm | hm
  · exact hwaiting m hm
  · cases tailOk with
    | true => rw [List.mem_singleton.mp hm]
    | false => cases hm

theorem partition_handled {p p' : Processor} {call : Nat → AllocCall} {history : List (Event Nat)}
    {msg : MediaEventMsg} {o : HandleOutcome} {tried : Option MediaEventMsg}
    (hp : Partition p call history) (hhandled : Handled p msg o tried p') :
    Partition p' call
      ((p'.freeIndexList.drop p.freeIndexList.length).map Event.back ++ history) := by
  -- unless the handle is freed, the free list is what it was
  have hsame : ∀ p' : Processor, p'.freeIndexList = p.freeIndexList → Partition p' call history →
      Partition p' call
        ((p'.freeIndexList.drop p.freeIndexList.length).map Event.back ++ history) := by
    intro p' hfree hp'
    rw [hfree, List.drop_length]
    exact hp'
  cases hhandled with
  | dropped hout => exact hsame p rfl hp
  | swallowed hin huse hretry hidle => exact hsame p rfl hp
  | deferred hin huse hretry hfinish hwait =>
    refine hsame (p.update _ _ _) rfl ?_
    refine hp.update huse ?_ ?_ ?_ []
    · exact huse
    · exact hp.count _
    · exact waiting_append (hp.waiting _)
  | done hin huse hretry hdirect status hstatus ulRefCount hcount =>
    refine hsame (p.update _ _ _) rfl ?_
    refine hp.update huse ?_ ?_ ?_ _
    · exact ⟨hstatus, huse.2⟩
    · exact (hcount.resolve_right fun hne => hne (hp.count _)).trans (hp.count _)
    · exact hp.waiting _
  | failed hin huse hretry hdirect =>
    refine hsame (p.update _ _ _) rfl ?_
    refine hp.update huse ?_ ?_ ?_ _
    · exact huse
    · exact hp.count _
    · exact waiting_append (hp.waiting _)
  | freed hin huse hfinish hstop =>
    have hdrop : (p.finish msg.ulIndex).freeIndexList.drop p.freeIndexList.length =
        [msg.ulIndex] := List.drop_left
    rw [hdrop]
    exact hp.finish hin huse
  | retried hin huse hretry hstop pEvent rest hwait status hstatus =>
    refine hsame (p.update _ _ _) rfl ?_
    refine hp.update huse ?_ ?_ ?_ _
    · exact ⟨hstatus, huse.2⟩
    · exact hp.count _
    · exact fun m hm => hp.waiting _ m (hwait ▸ List.mem_cons_of_mem pEvent hm)

theorem Inv.handle (h : s.Inv) (o : HandleOutcome) : (s.handle o).Inv := by
  rcases h.handle_cases o with ⟨-, heq⟩ | ⟨msg, rest, tried, p', -, hhandled, heq⟩
  · rw [heq]
    exact h
  · have hp : Partition { s.proc with msgQueue := rest } s.call s.history :=
      Partition.of_queue h rest s.proc.devIndexMap
    have hp' := partition_handled hp hhandled
    rw [heq]
    exact hp'

theorem Inv.post (h : s.Inv) (i : Nat) (eventType : MediaEventType) (putOk : Bool) :
    (s.post i eventType putOk).Inv := by
  rw [ProcessorSystem.post]
  split_ifs
  · exact h
  · exact h.of_queue _ s.proc.devIndexMap

theorem Inv.allocCheck (h : s.Inv) (c : Nat) (key : DevKey) : (s.allocCheck c key).Inv := by
  rw [ProcessorSystem.allocCheck]
  split
  · rename_i hc
    split_ifs
    · exact h
    · refine Partition.setCall h (fun key i hc' => ?_) (fun key i hc' => ?_)
      · rw [hc] at hc'
        cases hc'
      · cases hc'
  · exact h

/-- A call that looks for an index finds none, or takes the first one. -/
theorem Inv.allocIndex_cases (h : s.Inv) (c : Nat) :
    s.allocIndex c = s ∨ ∃ key, s.call c = .checked key ∧
      (s.allocIndex c = s.setCall c .idle ∨
        ∃ i rest, s.proc.freeIndexList = i :: rest ∧ s.allocIndex c =
          { s.setCall c (.taken key i) with
            proc := { s.proc with freeIndexList := rest }.update i
              { s.proc.handleArray i with owner := (s.proc.handleArray i).owner + 1 } []
            history := .out i :: s.history }) := by
  rw [ProcessorSystem.allocIndex]
  split
  · next key hc =>
    refine .inr ⟨key, hc, ?_⟩
    cases hfree : s.proc.freeIndexList with
    | nil =>
      simp only [getHandleIndex, hfree]
      exact .inl rfl
    | cons i rest =>
      have hlt := h.below i (hfree ▸ List.mem_cons_self)
      simp only [getHandleIndex, hfree, Nat.not_le.mpr hlt, if_false]
      exact .inr ⟨i, rest, rfl, rfl⟩
  · exact .inl rfl

/-- A call with an index gives it back, or has its handle filled in. -/
theorem allocInit_cases (s : ProcessorSystem) (c : Nat) (egressOk recvOk : Bool) :
    (s.allocInit c egressOk recvOk = s ∧ ∀ key i, s.call c ≠ .taken key i) ∨
    ∃ key i, s.call c = .taken key i ∧
      (¬ (egressOk = true ∧ recvOk = true) ∧ s.allocInit c egressOk recvOk =
          { s.setCall c .idle with
            proc := (s.proc.update i (s.proc.handleArray i).reset []).freeHandleIndex i
            history := .back i :: s.history } ∨
        (egressOk = true ∧ recvOk = true) ∧ s.allocInit c egressOk recvOk =
          { s.setCall c (.initialised key i) with
            proc := s.proc.update i ((s.proc.handleArray i).filled key) [] }) := by
  rw [ProcessorSystem.allocInit]
  split
  · next key i hc =>
    refine .inr ⟨key, i, hc, ?_⟩
    cases egressOk with
    | false => exact .inl ⟨fun hok => Bool.noConfusion hok.1, rfl⟩
    | true =>
      cases recvOk with
      | false => exact .inl ⟨fun hok => Bool.noConfusion hok.2, rfl⟩
      | true => exact .inr ⟨⟨rfl, rfl⟩, rfl⟩
  · next hc => exact .inl ⟨rfl, hc⟩

theorem Inv.allocIndex (h : s.Inv) (c : Nat) : (s.allocIndex c).Inv := by
  rcases h.allocIndex_cases c with heq | ⟨key, hc, hgo⟩
  · rw [heq]
    exact h
  have hcall : ∀ key i, s.call c ≠ .taken key i := by
    intro key i hc'
    rw [hc] at hc'
    cases hc'
  rcases hgo with heq | ⟨i, rest, hfree, heq⟩
  · rw [heq]
    exact Partition.setCall h hcall (fun key i hc' => by cases hc')
  · have hmem : i ∈ s.proc.freeIndexList := hfree ▸ List.mem_cons_self
    rw [heq]
    exact Partition.take h hfree hcall key (h.blank i hmem) (h.count i) (h.waiting i)

theorem Inv.allocInit (h : s.Inv) (c : Nat) (egressOk recvOk : Bool) :
    (s.allocInit c egressOk recvOk).Inv := by
  rcases allocInit_cases s c egressOk recvOk with ⟨heq, -⟩ | ⟨key, i, hc, ⟨-, heq⟩ | ⟨-, heq⟩⟩
  · rw [heq]
    exact h
  · have hi := h.taken i ⟨c, key, hc⟩
    have hidle : ∀ key i, AllocCall.idle ≠ .taken key i := fun key i hc' => by cases hc'
    rw [heq]
    exact Partition.free h hi.1 hi.2.1 (HandleInfo.blank_reset _) rfl (h.waiting i)
      (h.taken_update hc hidle) (h.single_update hidle) []
  · rw [heq]
    exact Partition.fill h hc (fun key i hc' => by cases hc') (HandleInfo.inUse_filled _ key)
      (h.count i) (h.waiting i)

theorem Inv.allocInsert (h : s.Inv) (c : Nat) : (s.allocInsert c).Inv := by
  rw [ProcessorSystem.allocInsert]
  split
  · rename_i key i hc
    have hcall : Partition s.proc (Function.update s.call c .idle) s.history := by
      refine Partition.setCall h (fun key' i' hc' => ?_) (fun key i hc' => by cases hc')
      rw [hc] at hc'
      cases hc'
    exact hcall.of_queue s.proc.msgQueue _
  · exact h

theorem Inv.step (h : s.Inv) (a : Act) : (s.step a).Inv := by
  cases a with
  | allocCheck c szDevID in_type out_type => exact h.allocCheck c _
  | allocIndex c => exact h.allocIndex c
  | allocInit c egressOk recvOk => exact h.allocInit c egressOk recvOk
  | allocInsert c => exact h.allocInsert c
  | post i eventType putOk => exact h.post i eventType putOk
  | handle o => exact h.handle o

theorem run_inv (max_lens : Nat) (as : List Act) : (run step (init max_lens) as).Inv :=
  run_invariant (inv_init max_lens) fun _ a h => h.step a

/-! ## What a section of a call leaves as it is -/

/-- A section of a call leaves the messages as they are, and the handles in use. -/
structure Frame (s s' : ProcessorSystem) : Prop where
  msgQueue : s'.proc.msgQueue = s.proc.msgQueue
  posted : s'.posted = s.posted
  attempts : s'.attempts = s.attempts
  waiting : ∀ i, (s'.proc.handleArray i).msgQueue = (s.proc.handleArray i).msgQueue
  used : ∀ i, (s.proc.handleArray i).InUse → s'.proc.handleArray i = s.proc.handleArray i

theorem Frame.refl (s : ProcessorSystem) : Frame s s :=
  ⟨rfl, rfl, rfl, fun _ => rfl, fun _ _ => rfl⟩

/-- One handle is changed that is not in use. -/
theorem Frame.of_update {s' : ProcessorSystem} {h' : HandleInfo}
    (hqueue : s'.proc.msgQueue = s.proc.msgQueue) (hposted : s'.posted = s.posted)
    (hattempts : s'.attempts = s.attempts)
    (harray : s'.proc.handleArray = Function.update s.proc.handleArray i h')
    (hwaiting : h'.msgQueue = (s.proc.handleArray i).msgQueue)
    (hnot : ¬ (s.proc.handleArray i).InUse) : Frame s s' := by
  refine ⟨hqueue, hposted, hattempts, fun j => ?_, fun j hj => ?_⟩
  · rw [harray]
    by_cases hji : j = i
    · rw [hji, Function.update_self, hwaiting]
    · rw [Function.update_of_ne hji]
  · rw [harray]
    refine Function.update_of_ne ?_ _ _
    rintro rfl
    exact hnot hj

theorem frame_allocCheck (s : ProcessorSystem) (c : Nat) (key : DevKey) :
    Frame s (s.allocCheck c key) := by
  rw [ProcessorSystem.allocCheck]
  split
  · split_ifs
    · exact .refl s
    · exact ⟨rfl, rfl, rfl, fun _ => rfl, fun _ _ => rfl⟩
  · exact .refl s

/-- No handle comes into use if the one that is changed is not in use afterwards. -/
theorem inUse_of_update {array : Nat → HandleInfo} {h' : HandleInfo}
    (hno : h'.InUse → (array i).InUse) {j : Nat} (huse : (Function.update array i h' j).InUse) :
    (array j).InUse := by
  by_cases hji : j = i
  · rw [hji, Function.update_self] at huse
    exact hji ▸ hno huse
  · rwa [Function.update_of_ne hji] at huse

theorem Inv.frame_allocIndex (h : s.Inv) (c : Nat) : Frame s (s.allocIndex c) := by
  rcases h.allocIndex_cases c with heq | ⟨key, -, heq | ⟨i, rest, hfree, heq⟩⟩
  · rw [heq]
    exact .refl s
  · rw [heq]
    exact ⟨rfl, rfl, rfl, fun _ => rfl, fun _ _ => rfl⟩
  · rw [heq]
    exact .of_update (List.append_nil _) rfl rfl rfl rfl fun huse =>
      h.notMem_free huse (hfree ▸ List.mem_cons_self)

theorem Inv.frame_allocInit (h : s.Inv) (c : Nat) (egressOk recvOk : Bool) :
    Frame s (s.allocInit c egressOk recvOk) := by
  rcases allocInit_cases s c egressOk recvOk with ⟨heq, -⟩ | ⟨key, i, hc, ⟨-, heq⟩ | ⟨-, heq⟩⟩
  · rw [heq]
    exact .refl s
  · rw [heq]
    exact .of_update (List.append_nil _) rfl rfl rfl rfl fun huse => h.not_taken huse ⟨c, key, hc⟩
  · rw [heq]
    exact .of_update (List.append_nil _) rfl rfl rfl rfl fun huse => h.not_taken huse ⟨c, key, hc⟩

theorem frame_allocInsert (s : ProcessorSystem) (c : Nat) : Frame s (s.allocInsert c) := by
  rw [ProcessorSystem.allocInsert]
  split
  · exact ⟨rfl, rfl, rfl, fun _ => rfl, fun _ _ => rfl⟩
  · exact .refl s

/-! ## Every run -/

/-- The number of handles is that of `open`. -/
theorem maxHandleNum_step (h : s.Inv) (a : Act) :
    (s.step a).proc.maxHandleNum = s.proc.maxHandleNum := by
  cases a with
  | allocCheck c szDevID in_type out_type =>
    change (s.allocCheck c _).proc.maxHandleNum = _
    rw [ProcessorSystem.allocCheck]
    split
    · split_ifs
      all_goals rfl
    · rfl
  | allocIndex c =>
    change (s.allocIndex c).proc.maxHandleNum = _
    rcases h.allocIndex_cases c with heq | ⟨key, -, heq | ⟨i, rest, -, heq⟩⟩
    · rw [heq]
    · rw [heq]
      rfl
    · rw [heq]
      rfl
  | allocInit c egressOk recvOk =>
    change (s.allocInit c egressOk recvOk).proc.maxHandleNum = _
    rcases allocInit_cases s c egressOk recvOk with ⟨heq, -⟩ | ⟨key, i, -, ⟨-, heq⟩ | ⟨-, heq⟩⟩
    · rw [heq]
    · rw [heq]
      rfl
    · rw [heq]
      rfl
  | allocInsert c =>
    change (s.allocInsert c).proc.maxHandleNum = _
    rw [ProcessorSystem.allocInsert]
    split
    all_goals rfl
  | post i eventType putOk =>
    change (s.post i eventType putOk).proc.maxHandleNum = _
    rw [ProcessorSystem.post]
    split_ifs
    all_goals rfl
  | handle o =>
    change (s.handle o).proc.maxHandleNum = _
    rcases h.handle_cases o with ⟨-, heq⟩ | ⟨msg, rest, tried, p', -, hhandled, heq⟩
    · rw [heq]
    · rw [heq]
      cases hhandled
      all_goals rfl

theorem run_maxHandleNum (max_lens : Nat) (as : List Act) :
    (run step (init max_lens) as).proc.maxHandleNum = max_lens :=
  (run_invariant (I := fun s : ProcessorSystem => s.Inv ∧ s.proc.maxHandleNum = max_lens)
    ⟨inv_init max_lens, rfl⟩ fun _ a h => ⟨h.1.step a, (maxHandleNum_step h.1 a).trans h.2⟩).2

/-- In every run, each index that is not with a call between its sections is once in the free list,
with a handle that is blank, or in use; what is handed out was in, and what is freed was out, where out
are the indexes in use and those with a call. -/
theorem run_indexes_partition (max_lens : Nat) (as : List Act) :
    let s := run step (init max_lens) as
    (∀ i < max_lens, ¬ Taken s.call i →
      (s.proc.freeIndexList.count i = 1 ∧ (s.proc.handleArray i).Blank ∧
          ¬ (s.proc.handleArray i).InUse ∨
        s.proc.freeIndexList.count i = 0 ∧ (s.proc.handleArray i).InUse ∧
          ¬ (s.proc.handleArray i).Blank)) ∧
      (∀ i ∈ s.proc.freeIndexList, i < max_lens) ∧
      Alternates s.history ∧
      ∀ i, i ∈ outs s.history ↔
        i < max_lens ∧ ((s.proc.handleArray i).InUse ∨ Taken s.call i) := by
  intro s
  have h : s.Inv := run_inv max_lens as
  have hmax : s.proc.maxHandleNum = max_lens := run_maxHandleNum max_lens as
  rw [← hmax]
  refine ⟨fun i hi htaken => ?_, h.below, h.alternates, fun i => ?_⟩
  · by_cases hfree : i ∈ s.proc.freeIndexList
    · have hblank := h.blank i hfree
      exact .inl ⟨List.count_eq_one_of_mem h.nodup hfree, hblank, fun huse => huse.not_blank hblank⟩
    · have huse := h.used i hi hfree htaken
      exact .inr ⟨List.count_eq_zero_of_not_mem hfree, huse, huse.not_blank⟩
  · rw [h.out]
    refine and_congr_right fun hi => ⟨fun hfree => ?_, ?_⟩
    · by_cases htaken : Taken s.call i
      · exact .inr htaken
      · exact .inl (h.used i hi hfree htaken)
    · rintro (huse | htaken)
      · exact h.notMem_free huse
      · exact (h.taken i htaken).2.1

end ProcessorSystem

end AllCamera
