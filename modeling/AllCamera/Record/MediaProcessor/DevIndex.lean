import AllCamera.Record.MediaProcessor.Partition

/-!
# The device index

The duplicate check of `alloc_handle` and its insertion are different sections, and the entry of a handle
is looked for by the id that the handle has, which is cut to 32 bytes. The index has an entry for each
handle that has been allocated and for no other, and no device has two handles of the same types, in
exactly the runs in which this does no harm (`run_indexed_iff`).

* `Holds`: handle `i` is in use for a device.
* `Indexed`, `Exclusive`: the property, and the condition under which a step keeps it.
-/

namespace AllCamera

open scoped UIntOrder
open AllCamera.Run

/-- What a handle has of what it is allocated for. -/
def DevKey.localized (key : DevKey) : DevKey :=
  { key with szDevID := setLocalizeDeviceId key.szDevID }

namespace ProcessorSystem

open Processor

variable {s s' : ProcessorSystem} {i j c : Nat} {key : DevKey} {o : HandleOutcome}

/-- Handle `i` has been allocated for `key`, or a call is about to insert its entry. -/
def Holds (s : ProcessorSystem) (i : Nat) (key : DevKey) : Prop :=
  s.registered i = some key ∨ ∃ c, s.call c = .initialised key i

/-- The index has exactly one entry for each handle that has been allocated, with its device id, and
none for another; a handle in use is held for one device, which has no other of its types. -/
structure Indexed (s : ProcessorSystem) : Prop where
  nodup : (s.proc.devIndexMap.entries.map Prod.snd).Nodup
  entry : ∀ i szDevID, (szDevID, i) ∈ s.proc.devIndexMap.entries ↔
    ∃ key, s.registered i = some key ∧ key.szDevID = szDevID
  used : ∀ i key, s.Holds i key →
    (s.proc.handleArray i).InUse ∧ (s.proc.handleArray i).devKey = key.localized
  held : ∀ i < s.proc.maxHandleNum, (s.proc.handleArray i).InUse → ∃ key, s.Holds i key
  fresh : ∀ c key i, s.call c = .initialised key i → s.registered i = none ∧
    ∀ c' key', s.call c' = .initialised key' i → c' = c
  unique : ∀ i j key, s.Holds i key → s.Holds j key → i = j

/-- Where a handle is filled in, the duplicate check would still find nothing, and no other call is about
to insert an entry for the same; where a handle is freed, it has been allocated, for a device id that it
has in full. -/
def Exclusive (s : ProcessorSystem) : Act → Prop
  | .allocInit c true true => ∀ key i, s.call c = .taken key i →
    s.proc.findHandle key.szDevID key.in_type key.out_type = none ∧
      ∀ c' j, s.call c' ≠ .initialised key j
  | .handle _ => ∀ msg ∈ s.proc.msgQueue.head?, msg.eventType = .stopFinishNotify →
    msg.ulIndex < s.proc.maxHandleNum → (s.proc.handleArray msg.ulIndex).status = .stop →
      ∃ key ∈ s.registered msg.ulIndex, key.szDevID.length ≤ localizeDeviceIdMaxLen
  | _ => True

/-- The duplicate check finds the handle that has been allocated for the same. -/
theorem Indexed.findHandle_eq_none_iff (h : s.Indexed) :
    s.proc.findHandle key.szDevID key.in_type key.out_type = none ↔
      ∀ i, s.registered i ≠ some key := by
  have hgo : ∀ e : List UInt8 × Nat, decide (e.1 = key.szDevID) = true ↔ e.1 = key.szDevID :=
    fun e => decide_eq_true_iff
  rw [findHandle, List.find?_eq_none]
  constructor
  · intro hnone i hi
    have hmem := (Multimap.mem_takeWhile_find hgo).mpr
      ⟨rfl, (h.entry i key.szDevID).mpr ⟨key, hi, rfl⟩⟩
    refine hnone i (List.mem_map_of_mem hmem) (decide_eq_true ?_)
    have hkey := (h.used i key (.inl hi)).2
    exact ⟨(congrArg DevKey.in_type hkey).symm, (congrArg DevKey.out_type hkey).symm⟩
  · intro hnone i hi htypes
    obtain ⟨⟨szDevID, i⟩, hmem, rfl⟩ := List.mem_map.mp hi
    obtain ⟨rfl, hentry⟩ := (Multimap.mem_takeWhile_find hgo).mp hmem
    obtain ⟨key', hreg, hid⟩ := (h.entry i _).mp hentry
    have hkey := (h.used i key' (.inl hreg)).2
    obtain ⟨hin, hout⟩ := of_decide_eq_true htypes
    have : key' = key := by
      have hin' : (s.proc.handleArray i).nInType = key'.in_type := congrArg DevKey.in_type hkey
      have hout' : (s.proc.handleArray i).nOutType = key'.out_type := congrArg DevKey.out_type hkey
      cases key
      cases key'
      simp_all
    exact hnone i (this ▸ hreg)

/-! ## The sections of a call -/

theorem Indexed.post (h : s.Indexed) (j : Nat) (eventType : MediaEventType) (putOk : Bool) :
    (s.post j eventType putOk).Indexed := by
  rw [ProcessorSystem.post]
  split_ifs
  · exact h
  · exact ⟨h.nodup, h.entry, h.used, h.held, h.fresh, h.unique⟩

/-- A call that is not about to insert an entry goes on to a place where it is not either, and handles
change that are not in use. -/
theorem Indexed.frame (h : s.Indexed) (hf : Frame s s')
    (hback : ∀ i, (s'.proc.handleArray i).InUse → (s.proc.handleArray i).InUse)
    (hmap : s'.proc.devIndexMap = s.proc.devIndexMap)
    (hmax : s'.proc.maxHandleNum = s.proc.maxHandleNum) (hreg : s'.registered = s.registered)
    (hcall : ∀ c key i, s'.call c = .initialised key i ↔ s.call c = .initialised key i) :
    s'.Indexed := by
  have hholds : ∀ i key, s'.Holds i key ↔ s.Holds i key := by
    intro i key
    rw [Holds, Holds, hreg]
    exact or_congr_right (exists_congr fun c => hcall c key i)
  refine ⟨?_, ?_, fun i key hi => ?_, fun i hi huse => ?_, fun c key i hc => ?_,
    fun i j key hi hj => ?_⟩
  · rw [hmap]
    exact h.nodup
  · rw [hmap, hreg]
    exact h.entry
  · have hused := h.used i key ((hholds i key).mp hi)
    rw [hf.used i hused.1]
    exact hused
  · obtain ⟨key, hkey⟩ := h.held i (hmax ▸ hi) (hback i huse)
    exact ⟨key, (hholds i key).mpr hkey⟩
  · obtain ⟨hnone, hone⟩ := h.fresh c key i ((hcall c key i).mp hc)
    rw [hreg]
    exact ⟨hnone, fun c' key' hc' => hone c' key' ((hcall c' key' i).mp hc')⟩
  · exact h.unique i j key ((hholds i key).mp hi) ((hholds j key).mp hj)

/-- Which calls are about to insert an entry, when a call goes on. -/
theorem initialised_update {call : Nat → AllocCall} {a : AllocCall}
    (hold : ∀ key i, call c ≠ .initialised key i) (hnew : ∀ key i, a ≠ .initialised key i)
    (c' : Nat) (key : DevKey) (i : Nat) :
    Function.update call c a c' = .initialised key i ↔ call c' = .initialised key i := by
  by_cases hc : c' = c
  · rw [hc, Function.update_self]
    exact iff_of_false (hnew key i) (hold key i)
  · rw [Function.update_of_ne hc]

theorem Indexed.allocCheck (h : s.Indexed) (c : Nat) (key : DevKey) :
    (s.allocCheck c key).Indexed := by
  have hframe := frame_allocCheck s c key
  rw [ProcessorSystem.allocCheck] at hframe ⊢
  cases hc : s.call c with
  | idle =>
    simp only [hc] at hframe ⊢
    split_ifs at hframe ⊢
    · exact h
    · refine h.frame hframe (fun _ huse => huse) rfl rfl rfl (initialised_update ?_ ?_)
      · intro key i hc'
        rw [hc] at hc'
        cases hc'
      · intro key i hc'
        cases hc'
  | _ => exact h

theorem Indexed.allocIndex (h : s.Indexed) (hinv : s.Inv) (c : Nat) : (s.allocIndex c).Indexed := by
  have hframe := hinv.frame_allocIndex c
  rcases hinv.allocIndex_cases c with heq | ⟨key, hc, hgo⟩
  · rwa [heq]
  have hold : ∀ key i, s.call c ≠ .initialised key i := by
    intro key i hc'
    rw [hc] at hc'
    cases hc'
  rcases hgo with heq | ⟨i, rest, -, heq⟩
  · rw [heq] at hframe ⊢
    exact h.frame hframe (fun _ huse => huse) rfl rfl rfl
      (initialised_update hold fun key i hc' => by cases hc')
  · rw [heq] at hframe ⊢
    refine h.frame hframe (fun j huse => ?_) rfl rfl rfl
      (initialised_update hold fun key i hc' => by cases hc')
    change (Function.update s.proc.handleArray i _ j).InUse at huse
    refine inUse_of_update ?_ huse
    exact fun hin => hin

/-- The handle of a call that has inserted its entry is held as before. -/
theorem holds_insert (hc : s.call c = .initialised key i) (hnone : s.registered i = none)
    {p : Processor} (j : Nat) (key' : DevKey) :
    Holds { s.setCall c .idle with
      proc := p
      registered := Function.update s.registered i (some key) } j key' ↔ s.Holds j key' := by
  constructor
  · rintro (hreg | ⟨c', hc'⟩)
    · change Function.update s.registered i (some key) j = some key' at hreg
      by_cases hji : j = i
      · rw [hji, Function.update_self] at hreg
        rw [hji, ← Option.some.inj hreg]
        exact .inr ⟨c, hc⟩
      · rw [Function.update_of_ne hji] at hreg
        exact .inl hreg
    · change Function.update s.call c .idle c' = .initialised key' j at hc'
      by_cases hcc : c' = c
      · rw [hcc, Function.update_self] at hc'
        cases hc'
      · rw [Function.update_of_ne hcc] at hc'
        exact .inr ⟨c', hc'⟩
  · rintro (hreg | ⟨c', hc'⟩)
    · have hji : j ≠ i := by
        rintro rfl
        rw [hnone] at hreg
        cases hreg
      exact .inl ((Function.update_of_ne hji ..).trans hreg)
    · by_cases hcc : c' = c
      · rw [hcc, hc] at hc'
        obtain ⟨rfl, rfl⟩ := AllocCall.initialised.inj hc'
        exact .inl (Function.update_self ..)
      · exact .inr ⟨c', (Function.update_of_ne hcc ..).trans hc'⟩

theorem Indexed.allocInsert (h : s.Indexed) (c : Nat) : (s.allocInsert c).Indexed := by
  rw [ProcessorSystem.allocInsert]
  cases hc : s.call c with
  | initialised key i =>
    obtain ⟨hnone, hone⟩ := h.fresh c key i hc
    have hholds := holds_insert (p := s.proc.insertDevIndex key.szDevID i) hc hnone
    have hperm := s.proc.devIndexMap.perm_insert key.szDevID i
    refine ⟨?_, fun j szDevID => ?_, fun j key' hj => ?_, fun j hj huse => ?_,
      fun c' key' j hc' => ?_, fun j k key' hj hk => ?_⟩
    · refine (hperm.map Prod.snd).nodup_iff.mpr (List.nodup_cons.mpr ⟨fun hmem => ?_, h.nodup⟩)
      obtain ⟨⟨szDevID, j⟩, hmem, hji⟩ := List.mem_map.mp hmem
      obtain ⟨key', hreg, -⟩ := (h.entry j szDevID).mp hmem
      obtain rfl : j = i := hji
      rw [hnone] at hreg
      cases hreg
    · change (szDevID, j) ∈ (s.proc.devIndexMap.insert key.szDevID i).entries ↔
        ∃ key', Function.update s.registered i (some key) j = some key' ∧ key'.szDevID = szDevID
      rw [hperm.mem_iff, List.mem_cons, h.entry, Prod.mk.injEq]
      by_cases hji : j = i
      · subst hji
        rw [Function.update_self, hnone]
        simp [eq_comm]
      · rw [Function.update_of_ne hji]
        simp [hji]
    · exact h.used j key' ((hholds j key').mp hj)
    · obtain ⟨key', hkey⟩ := h.held j hj huse
      exact ⟨key', (hholds j key').mpr hkey⟩
    · change Function.update s.call c .idle c' = .initialised key' j at hc'
      have hcc : c' ≠ c := by
        rintro rfl
        rw [Function.update_self] at hc'
        cases hc'
      rw [Function.update_of_ne hcc] at hc'
      obtain ⟨hfresh, hsingle⟩ := h.fresh c' key' j hc'
      refine ⟨?_, fun c'' key'' hc'' => ?_⟩
      · have hji : j ≠ i := by
          rintro rfl
          exact hcc (hone c' key' hc')
        exact (Function.update_of_ne hji ..).trans hfresh
      · change Function.update s.call c .idle c'' = .initialised key'' j at hc''
        by_cases hcc' : c'' = c
        · rw [hcc', Function.update_self] at hc''
          cases hc''
        · rw [Function.update_of_ne hcc'] at hc''
          exact hsingle c'' key'' hc''
    · exact h.unique j k key' ((hholds j key').mp hj) ((hholds k key').mp hk)
  | _ => exact h

/-- A handle that has been filled in is held by its call. -/
theorem holds_fill (hc : s.call c = .taken key i) {p : Processor} (j : Nat) (key' : DevKey) :
    Holds { s.setCall c (.initialised key i) with proc := p } j key' ↔
      s.Holds j key' ∨ j = i ∧ key' = key := by
  constructor
  · rintro (hreg | ⟨c', hc'⟩)
    · exact .inl (.inl hreg)
    · change Function.update s.call c (.initialised key i) c' = .initialised key' j at hc'
      by_cases hcc : c' = c
      · rw [hcc, Function.update_self] at hc'
        obtain ⟨rfl, rfl⟩ := AllocCall.initialised.inj hc'
        exact .inr ⟨rfl, rfl⟩
      · rw [Function.update_of_ne hcc] at hc'
        exact .inl (.inr ⟨c', hc'⟩)
  · rintro ((hreg | ⟨c', hc'⟩) | ⟨rfl, rfl⟩)
    · exact .inl hreg
    · have hcc : c' ≠ c := by
        rintro rfl
        rw [hc] at hc'
        cases hc'
      exact .inr ⟨c', (Function.update_of_ne hcc ..).trans hc'⟩
    · exact .inr ⟨c, Function.update_self ..⟩

/-- A handle is filled in: it is the only one for its device and types exactly if the duplicate check
would find nothing and no other call is about to insert an entry for the same. -/
theorem Indexed.fill_iff (h : s.Indexed) (hc : s.call c = .taken key i)
    (hnot : ¬ (s.proc.handleArray i).InUse) {h' : HandleInfo} (huse : h'.InUse)
    (hkey : h'.devKey = key.localized) :
    Indexed { s.setCall c (.initialised key i) with proc := s.proc.update i h' [] } ↔
      s.Exclusive (.allocInit c true true) := by
  have hholds := holds_fill (p := s.proc.update i h' []) hc
  have hnone : ∀ key', ¬ s.Holds i key' := fun key' hi => hnot (h.used i key' hi).1
  constructor
  · intro h'' key' j hc'
    obtain ⟨rfl, rfl⟩ := AllocCall.taken.inj (hc.symm.trans hc')
    have hi := (hholds i key).mpr (.inr ⟨rfl, rfl⟩)
    refine ⟨h.findHandle_eq_none_iff.mpr fun j hj => ?_, fun c' j hj => ?_⟩
    · obtain rfl := h''.unique i j key hi ((hholds j key).mpr (.inl (.inl hj)))
      exact hnone key (.inl hj)
    · obtain rfl := h''.unique i j key hi ((hholds j key).mpr (.inl (.inr ⟨c', hj⟩)))
      exact hnone key (.inr ⟨c', hj⟩)
  · intro hok
    obtain ⟨hfind, hcalls⟩ := hok key i hc
    have hno : ∀ j, ¬ s.Holds j key := by
      rintro j (hreg | ⟨c', hc'⟩)
      · exact h.findHandle_eq_none_iff.mp hfind j hreg
      · exact hcalls c' j hc'
    have hother : ∀ j, j ≠ i → Function.update s.proc.handleArray i h' j = s.proc.handleArray j :=
      fun j hji => Function.update_of_ne hji _ _
    have hself : Function.update s.proc.handleArray i h' i = h' := Function.update_self ..
    refine ⟨h.nodup, h.entry, fun j key' hj => ?_, fun j hj hjuse => ?_, fun c' key' j hc' => ?_,
      fun j k key' hj hk => ?_⟩
    · change (Function.update s.proc.handleArray i h' j).InUse ∧
        (Function.update s.proc.handleArray i h' j).devKey = key'.localized
      rcases (hholds j key').mp hj with hj | ⟨rfl, rfl⟩
      · have hji : j ≠ i := fun hji => hnone key' (hji ▸ hj)
        rw [hother j hji]
        exact h.used j key' hj
      · rw [hself]
        exact ⟨huse, hkey⟩
    · change (Function.update s.proc.handleArray i h' j).InUse at hjuse
      by_cases hji : j = i
      · exact ⟨key, (hholds j key).mpr (.inr ⟨hji, rfl⟩)⟩
      · rw [hother j hji] at hjuse
        obtain ⟨key', hkey'⟩ := h.held j hj hjuse
        exact ⟨key', (hholds j key').mpr (.inl hkey')⟩
    · change Function.update s.call c (.initialised key i) c' = .initialised key' j at hc'
      by_cases hcc : c' = c
      · rw [hcc, Function.update_self] at hc'
        obtain ⟨rfl, rfl⟩ := AllocCall.initialised.inj hc'
        refine ⟨Option.eq_none_iff_forall_ne_some.mpr fun key' hreg => hnone key' (.inl hreg),
          fun c'' key'' hc'' => ?_⟩
        by_contra hne
        change Function.update s.call c (.initialised key i) c'' = .initialised key'' i at hc''
        rw [Function.update_of_ne (hcc ▸ hne)] at hc''
        exact hnone key'' (.inr ⟨c'', hc''⟩)
      · rw [Function.update_of_ne hcc] at hc'
        obtain ⟨hfresh, hsingle⟩ := h.fresh c' key' j hc'
        refine ⟨hfresh, fun c'' key'' hc'' => ?_⟩
        change Function.update s.call c (.initialised key i) c'' = .initialised key'' j at hc''
        by_cases hcc' : c'' = c
        · rw [hcc', Function.update_self] at hc''
          obtain ⟨rfl, rfl⟩ := AllocCall.initialised.inj hc''
          exact absurd (.inr ⟨c', hc'⟩) (hnone key')
        · rw [Function.update_of_ne hcc'] at hc''
          exact hsingle c'' key'' hc''
    · rcases (hholds j key').mp hj with hj' | ⟨rfl, rfl⟩
      · rcases (hholds k key').mp hk with hk' | ⟨rfl, rfl⟩
        · exact h.unique j k key' hj' hk'
        · exact absurd hj' (hno j)
      · rcases (hholds k key').mp hk with hk' | ⟨rfl, -⟩
        · exact absurd hk' (hno k)
        · rfl

theorem exclusive_allocInit (h : egressOk = true ∧ recvOk = true → ∀ key i, s.call c = .taken key i →
      s.proc.findHandle key.szDevID key.in_type key.out_type = none ∧
        ∀ c' j, s.call c' ≠ .initialised key j) : s.Exclusive (.allocInit c egressOk recvOk) := by
  cases egressOk with
  | false => trivial
  | true =>
    cases recvOk with
    | false => trivial
    | true => exact h ⟨rfl, rfl⟩

theorem Indexed.allocInit_iff (h : s.Indexed) (hinv : s.Inv) (c : Nat) (egressOk recvOk : Bool) :
    (s.allocInit c egressOk recvOk).Indexed ↔ s.Exclusive (.allocInit c egressOk recvOk) := by
  have hframe := hinv.frame_allocInit c egressOk recvOk
  rcases allocInit_cases s c egressOk recvOk with
    ⟨heq, hno⟩ | ⟨key, i, hc, ⟨hfails, heq⟩ | ⟨⟨rfl, rfl⟩, heq⟩⟩
  · rw [heq]
    exact iff_of_true h (exclusive_allocInit fun _ key i hc => absurd hc (hno key i))
  · rw [heq] at hframe ⊢
    refine iff_of_true (h.frame hframe (fun j huse => ?_) rfl rfl rfl (initialised_update ?_ ?_))
      (exclusive_allocInit fun hok => absurd hok hfails)
    · exact inUse_of_update (fun huse' => absurd (HandleInfo.blank_reset _) huse'.not_blank) huse
    · intro key i hc'
      rw [hc] at hc'
      cases hc'
    · intro key i hc'
      cases hc'
  · rw [heq]
    exact h.fill_iff hc (fun huse => hinv.not_taken huse ⟨c, key, hc⟩) (HandleInfo.inUse_filled _ key) rfl

/-! ## Messages -/

theorem Indexed.kept (h : s.Indexed) {msg : MediaEventMsg} {tried : Option MediaEventMsg}
    {p' : Processor} {rest : List MediaEventMsg} (hkept : Kept { s.proc with msgQueue := rest } p')
    (hmax : p'.maxHandleNum = s.proc.maxHandleNum) : (s.handled msg tried p').Indexed := by
  have hmap : p'.devIndexMap = s.proc.devIndexMap := hkept.devIndexMap
  have hreg : (s.handled msg tried p').registered = s.registered := by
    funext i
    have hfreed : p'.freeIndexList.drop s.proc.freeIndexList.length = [] := by
      rw [hkept.freeIndexList]
      exact List.drop_length
    simp [handled, hfreed]
  have hholds : ∀ i key, (s.handled msg tried p').Holds i key ↔ s.Holds i key := by
    intro i key
    rw [Holds, Holds, hreg]
    exact Iff.rfl
  refine ⟨?_, ?_, fun i key hi => ?_, fun i hi huse => ?_, ?_, fun i j key hi hj => ?_⟩
  · change (p'.devIndexMap.entries.map Prod.snd).Nodup
    rw [hmap]
    exact h.nodup
  · intro i szDevID
    change (szDevID, i) ∈ p'.devIndexMap.entries ↔ _
    rw [hmap, hreg]
    exact h.entry i szDevID
  · obtain ⟨huse, hkey⟩ := h.used i key ((hholds i key).mp hi)
    exact ⟨(hkept.inUse i).mpr huse, (hkept.devKey i).trans hkey⟩
  · obtain ⟨key, hkey⟩ := h.held i (hmax ▸ hi) ((hkept.inUse i).mp huse)
    exact ⟨key, (hholds i key).mpr hkey⟩
  · rw [hreg]
    exact h.fresh
  · exact h.unique i j key ((hholds i key).mp hi) ((hholds j key).mp hj)

/-- What is registered when handle `i` has been freed. -/
theorem registered_free {msg : MediaEventMsg} {tried : Option MediaEventMsg}
    {rest : List MediaEventMsg} (j : Nat) :
    (s.handled msg tried (({ s.proc with msgQueue := rest } : Processor).finish i)).registered j =
      if j = i then none else s.registered j := by
  have hfreed : (({ s.proc with msgQueue := rest } : Processor).finish i).freeIndexList.drop
      s.proc.freeIndexList.length = [i] := List.drop_left
  simp [handled, hfreed]

/-- A handle is freed: the index loses its entry exactly if it has one, under the id of the handle. -/
theorem Indexed.free_iff (h : s.Indexed) {msg : MediaEventMsg} {tried : Option MediaEventMsg}
    {rest : List MediaEventMsg} (hlt : i < s.proc.maxHandleNum)
    (huse : (s.proc.handleArray i).InUse) :
    (s.handled msg tried (({ s.proc with msgQueue := rest } : Processor).finish i)).Indexed ↔
      ∃ key ∈ s.registered i, key.szDevID.length ≤ localizeDeviceIdMaxLen := by
  generalize hs' : s.handled msg tried (({ s.proc with msgQueue := rest } : Processor).finish i) = s'
  have hreg : ∀ j, s'.registered j = if j = i then none else s.registered j := by
    intro j
    rw [← hs']
    exact registered_free j
  have hcall : s'.call = s.call := by
    rw [← hs']
    rfl
  have harray : s'.proc.handleArray =
      Function.update s.proc.handleArray i (s.proc.handleArray i).reset := by
    rw [← hs']
    rfl
  have hmap : s'.proc.devIndexMap = s.proc.devIndexMap.eraseFrom (s.proc.handleArray i).szDevID
      (fun e => e.1 == (s.proc.handleArray i).szDevID) (fun e => e.2 == i) := by
    rw [← hs']
    rfl
  constructor
  · intro h'
    obtain ⟨key, hreg' | ⟨c, hc⟩⟩ := h.held i hlt huse
    · refine ⟨key, hreg', ?_⟩
      by_contra hlong
      have hentry := (h.entry i key.szDevID).mpr ⟨key, hreg', rfl⟩
      have hid : (s.proc.handleArray i).szDevID = key.szDevID.take localizeDeviceIdMaxLen :=
        congrArg DevKey.szDevID (h.used i key (.inl hreg')).2
      have hne : key.szDevID ≠ (s.proc.handleArray i).szDevID := by
        rw [hid]
        intro heq
        have hlen := congrArg List.length heq
        rw [List.length_take] at hlen
        omega
      have hentry' : (key.szDevID, i) ∈ s'.proc.devIndexMap.entries := by
        rw [hmap]
        exact Multimap.mem_eraseFrom hentry (beq_eq_false_iff_ne.mpr hne)
      obtain ⟨key', hkey', -⟩ := (h'.entry i key.szDevID).mp hentry'
      rw [hreg, if_pos rfl] at hkey'
      cases hkey'
    · have hblank := (h'.used i key (.inr ⟨c, hcall ▸ hc⟩)).1
      rw [harray, Function.update_self] at hblank
      exact absurd (HandleInfo.blank_reset _) hblank.not_blank
  · rintro ⟨key, hkey, hshort⟩
    have hkey : s.registered i = some key := hkey
    have hid : (s.proc.handleArray i).szDevID = key.szDevID := by
      refine (congrArg DevKey.szDevID (h.used i key (.inl hkey)).2).trans ?_
      exact List.take_of_length_le hshort
    have hentry := (h.entry i (s.proc.handleArray i).szDevID).mpr ⟨key, hkey, hid.symm⟩
    obtain ⟨e, hgo, hhit, hperm⟩ : ∃ e : List UInt8 × Nat,
        (e.1 == (s.proc.handleArray i).szDevID) = true ∧ (e.2 == i) = true ∧
          s.proc.devIndexMap.entries.Perm (e :: s'.proc.devIndexMap.entries) := by
      rw [hmap]
      exact Multimap.perm_eraseFrom hentry (fun e he => beq_iff_eq.mpr he) (beq_self_eq_true i)
    obtain rfl : e = ((s.proc.handleArray i).szDevID, i) :=
      Prod.ext (beq_iff_eq.mp hgo) (beq_iff_eq.mp hhit)
    have hnodup := (hperm.map Prod.snd).nodup_iff.mp h.nodup
    rw [List.map_cons, List.nodup_cons] at hnodup
    have hholds : ∀ k key', s'.Holds k key' → s.Holds k key' ∧ k ≠ i := by
      rintro k key' (hk | ⟨c, hc⟩)
      · rw [hreg] at hk
        split_ifs at hk with hkj
        exact ⟨.inl hk, hkj⟩
      · rw [hcall] at hc
        refine ⟨.inr ⟨c, hc⟩, ?_⟩
        rintro rfl
        have := (h.fresh c key' k hc).1
        rw [hkey] at this
        cases this
    have hother : ∀ k, k ≠ i → s'.proc.handleArray k = s.proc.handleArray k := by
      intro k hki
      rw [harray, Function.update_of_ne hki]
    refine ⟨hnodup.2, fun k szDevID => ?_, fun k key' hk => ?_, fun k hk huse' => ?_,
      fun c key' k hc => ?_, fun k k' key' hk hk' => ?_⟩
    · rw [hreg]
      by_cases hki : k = i
      · rw [if_pos hki]
        refine iff_of_false (fun hmem => hnodup.1 ?_) (fun ⟨_, hnone, _⟩ => by cases hnone)
        exact List.mem_map.mpr ⟨_, hmem, hki⟩
      · rw [if_neg hki, ← h.entry, hperm.mem_iff, List.mem_cons]
        refine ⟨.inr, fun hmem => hmem.resolve_left fun heq => hki ?_⟩
        exact congrArg Prod.snd heq
    · obtain ⟨hk, hki⟩ := hholds k key' hk
      rw [hother k hki]
      exact h.used k key' hk
    · have hki : k ≠ i := by
        rintro rfl
        rw [harray, Function.update_self] at huse'
        exact huse'.not_blank (HandleInfo.blank_reset _)
      rw [hother k hki] at huse'
      have hmax : s'.proc.maxHandleNum = s.proc.maxHandleNum := by
        rw [← hs']
        rfl
      obtain ⟨key', hkey' | ⟨c, hc⟩⟩ := h.held k (hmax ▸ hk) huse'
      · exact ⟨key', .inl ((hreg k).trans ((if_neg hki).trans hkey'))⟩
      · exact ⟨key', .inr ⟨c, hcall ▸ hc⟩⟩
    · rw [hcall] at hc ⊢
      obtain ⟨hfresh, hsingle⟩ := h.fresh c key' k hc
      rw [hreg, hfresh, ite_self]
      exact ⟨rfl, hsingle⟩
    · exact h.unique k k' key' (hholds k key' hk).1 (hholds k' key' hk').1

theorem Indexed.handle_iff (h : s.Indexed) (hinv : s.Inv) (o : HandleOutcome) :
    (s.handle o).Indexed ↔ s.Exclusive (.handle o) := by
  rcases hinv.handle_cases o with ⟨hnil, heq⟩ | ⟨msg, rest, tried, p', hqueue, hh, heq⟩
  · rw [heq]
    refine iff_of_true h fun msg hmsg => ?_
    rw [hnil] at hmsg
    cases hmsg
  by_cases hfree : msg.eventType = .stopFinishNotify ∧ msg.ulIndex < s.proc.maxHandleNum ∧
      (s.proc.handleArray msg.ulIndex).status = .stop
  · -- the handle is freed
    obtain ⟨hfinish, hlt, hstop⟩ := hfree
    have huse : (s.proc.handleArray msg.ulIndex).InUse :=
      hinv.inUse_of_status hlt (by rw [hstop]; exact HandleStatus.noConfusion)
    have hend : ({ s.proc with msgQueue := rest } : Processor).handleMessage msg o =
        (some msg, ({ s.proc with msgQueue := rest } : Processor).finish msg.ulIndex) :=
      handleMessage_finish hlt huse hfinish hstop (hinv.count _)
    rw [ProcessorSystem.handle, hqueue]
    simp only [hend]
    rw [h.free_iff hlt huse]
    constructor
    · intro hkey m hm _ _ _
      rw [hqueue] at hm
      obtain rfl := Option.mem_some.mp hm
      exact hkey
    · intro hok
      exact hok msg (by rw [hqueue]; rfl) hfinish hlt hstop
  · rw [heq]
    rcases hh.freed_or_kept with ⟨hlt, -, hfinish, hstop, -⟩ | hkept
    · exact absurd ⟨hfinish, hlt, hstop⟩ hfree
    · have hmax : p'.maxHandleNum = s.proc.maxHandleNum := by
        have := maxHandleNum_step hinv (.handle o)
        rwa [ProcessorSystem.step, heq] at this
      refine iff_of_true (h.kept hkept hmax) fun m hm hfinish hlt hstop => ?_
      rw [hqueue] at hm
      obtain rfl := Option.mem_some.mp hm
      exact absurd ⟨hfinish, hlt, hstop⟩ hfree

/-- A step keeps the index right exactly under the condition. -/
theorem Indexed.step_iff (h : s.Indexed) (hinv : s.Inv) (a : Act) :
    (s.step a).Indexed ↔ s.Exclusive a := by
  cases a with
  | allocCheck c szDevID in_type out_type => exact iff_of_true (h.allocCheck c _) trivial
  | allocIndex c => exact iff_of_true (h.allocIndex hinv c) trivial
  | allocInit c egressOk recvOk => exact h.allocInit_iff hinv c egressOk recvOk
  | allocInsert c => exact iff_of_true (h.allocInsert c) trivial
  | post j eventType putOk => exact iff_of_true (h.post j eventType putOk) trivial
  | handle o => exact h.handle_iff hinv o

/-! ## Every run -/

theorem indexed_init (max_lens : Nat) : (init max_lens).Indexed := by
  have hno : ∀ i key, ¬ (init max_lens).Holds i key := by
    rintro i key (hreg | ⟨c, hc⟩)
    · cases hreg
    · cases hc
  refine ⟨.nil, fun i szDevID => ?_, fun i key hi => absurd hi (hno i key),
    fun i _ huse => absurd rfl huse.1, fun c key i hc => ?_, fun i j key hi => absurd hi (hno i key)⟩
  · exact iff_of_false (fun hmem => (List.not_mem_nil hmem).elim) (fun ⟨_, hreg, _⟩ => by cases hreg)
  · cases hc

/-- In exactly the runs in which the steps meet the condition the index is right in every state. -/
theorem run_indexed_iff (max_lens : Nat) (as : List Act) :
    Allowed step Exclusive (init max_lens) as ↔
      ∀ pre, pre <+: as → (run step (init max_lens) pre).Indexed := by
  rw [allowed_iff (I := fun s : ProcessorSystem => s.Inv ∧ s.Indexed)
    ⟨inv_init max_lens, indexed_init max_lens⟩ fun s a h =>
      ⟨fun h' => (h.2.step_iff h.1 a).mp h'.2, fun hok =>
        ⟨h.1.step a, (h.2.step_iff h.1 a).mpr hok⟩⟩]
  refine forall_congr' fun pre => forall_congr' fun _ => ⟨And.right, fun h => ⟨?_, h⟩⟩
  exact run_inv max_lens pre

/-- Two calls for one device pass the duplicate check, and both get a handle. -/
def duplicateRun : List Act :=
  [.allocCheck 0 [99] 1 1, .allocCheck 1 [99] 1 1, .allocIndex 0, .allocIndex 1, .allocInit 0 true true,
    .allocInit 1 true true, .allocInsert 0, .allocInsert 1]

/-- The recording of a device with an id of 33 bytes stops; its entry stays. -/
def longIdRun : List Act :=
  let ok : HandleOutcome := ⟨true, true, true, true, true, true⟩
  [.allocCheck 0 (List.replicate 33 99) 1 1, .allocIndex 0, .allocInit 0 true true, .allocInsert 0,
    .post 0 .startRecord true, .handle ok, .post 0 .stopRecord true, .handle ok,
    .post 0 .stopFinishNotify true, .handle ok]

theorem not_indexed_duplicate :
    ¬ (run step (init 2) duplicateRun).Indexed ∧ ¬ (run step (init 1) longIdRun).Indexed := by
  refine ⟨fun h => ?_, fun h => ?_⟩
  · have := h.unique 0 1 ⟨[99], 1, 1⟩ (.inl (by decide)) (.inl (by decide))
    cases this
  · obtain ⟨key, hreg, -⟩ := (h.entry 0 (List.replicate 33 99)).mp (by decide)
    have hnone : (run step (init 1) longIdRun).registered 0 = none := by decide
    rw [hnone] at hreg
    cases hreg

end ProcessorSystem

end AllCamera
