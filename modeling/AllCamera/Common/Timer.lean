import AllCamera.Lib.Run
import Mathlib.Data.List.Nodup
import Mathlib.Logic.Function.Basic

/-!
# The timers (`CAC_Timer`, `CAC_Timer_Manager`)

A timer is an object that the manager gives to the reactor. The objects that are not used are in a list: a
timer that is allocated is the first one of it, and a timer that is cancelled or has expired goes to its end. A
callback is called with no lock held, so that it, and other threads, allocate and free timers while it runs.

* `Timer`, `TimerManager`; `allocateTimerObject`, `allocTimer`, `freeTimer`, `freeTimerObject`.
* `TimerSystem`: the manager, what is scheduled, and the timer whose callback is running. `Act`, `step`: a call,
  the expiry of a timer up to its callback, and what `handle_timeout` does after it.
* `Sound`: an object is in the list once and not while it is scheduled. `run_timers_sound_iff`.

Of the reactor there is what the code relies on: a timer without an interval is removed before it is dispatched,
and `cancel_timer` returns 1 and the argument if the id is scheduled. The ids, and whether `new` and
`schedule_timer` succeed, are arguments.
-/

namespace AllCamera

open Run

/-- `TIMER_TYPE`. -/
inductive TimerType
  | once
  | cycle
  deriving DecidableEq, Repr

/-- `CAC_Timer`; the callback and its argument are addresses. -/
structure Timer where
  timerId : Int32
  pArg : Nat
  pFunc : Option Nat
  eventId : Int32
  dummy : Int32
  timerType : TimerType
  deriving DecidableEq, Repr

/-- The constructor of `CAC_Timer`. -/
def Timer.new : Timer where
  timerId := -1
  pArg := 0
  pFunc := none
  eventId := -1
  dummy := 0
  timerType := .once

/-- `CAC_Timer_Manager`, and its objects by their addresses; `created` were made. -/
structure TimerManager where
  freeTimerList : List Nat
  timer : Nat → Timer
  created : Nat

namespace TimerManager

/-- After `init` of a manager for `timerCount` timers. -/
def init (timerCount : Nat) : TimerManager where
  freeTimerList := List.range timerCount
  timer := fun _ => Timer.new
  created := timerCount

/-- `allocate_timer_object`; `newOk` is whether `new` succeeds. -/
def allocateTimerObject (m : TimerManager) (newOk : Bool) : TimerManager × Option Nat :=
  match m.freeTimerList with
  | [] =>
    if newOk then
      ({ m with timer := Function.update m.timer m.created Timer.new, created := m.created + 1 },
        some m.created)
    else (m, none)
  | pTimer :: rest => ({ m with freeTimerList := rest }, some pTimer)

/-- `free_timer` of an object. -/
def freeTimerObject (m : TimerManager) (pTimer : Nat) : TimerManager :=
  { m with freeTimerList := m.freeTimerList ++ [pTimer] }

def setTimer (m : TimerManager) (pTimer : Nat) (t : Timer) : TimerManager :=
  { m with timer := Function.update m.timer pTimer t }

@[simp]
theorem freeTimerList_freeTimerObject (m : TimerManager) (pTimer : Nat) :
    (m.freeTimerObject pTimer).freeTimerList = m.freeTimerList ++ [pTimer] :=
  rfl

@[simp]
theorem freeTimerList_setTimer (m : TimerManager) (pTimer : Nat) (t : Timer) :
    (m.setTimer pTimer t).freeTimerList = m.freeTimerList :=
  rfl

end TimerManager

/-- A timer that the reactor has. -/
structure Scheduled where
  timerId : Int32
  pTimer : Nat
  interval : Nat
  deriving DecidableEq, Repr

/-- A timer that is being dispatched: its object, and whether it is still scheduled as it has an interval. -/
structure Dispatched where
  pTimer : Nat
  repeats : Bool
  deriving DecidableEq, Repr

/-- The manager, the reactor, and the timer whose callback is running. -/
structure TimerSystem where
  manager : TimerManager
  scheduled : List Scheduled
  dispatched : Option Dispatched

namespace TimerSystem

/-- A call of `alloc_timer`, where `timerId` is what `schedule_timer` returns if it does not fail; a call of
`free_timer` with an id; the expiry of a timer, up to its callback; the end of the callback. -/
inductive Act
  | allocTimer (pArg : Nat) (pFunc : Option Nat) (eventId dummy : Int32) (interval : Nat) (newOk : Bool)
      (timerId : Option Int32)
  | freeTimer (timerId : Int32)
  | expire (timerId : Int32)
  | callbackReturns
  deriving DecidableEq, Repr

/-- After `init` of a manager for `timerCount` timers. -/
def init (timerCount : Nat) : TimerSystem where
  manager := TimerManager.init timerCount
  scheduled := []
  dispatched := none

def find (s : TimerSystem) (timerId : Int32) : Option Scheduled :=
  s.scheduled.find? fun e => e.timerId = timerId

/-- `alloc_timer`; an id that is in use is not returned by `schedule_timer`. -/
def allocTimer (s : TimerSystem) (pArg : Nat) (pFunc : Option Nat) (eventId dummy : Int32) (interval : Nat)
    (newOk : Bool) (timerId : Option Int32) : TimerSystem :=
  match s.manager.allocateTimerObject newOk with
  | (manager, none) => { s with manager }
  | (manager, some pTimer) =>
    let timer : Timer :=
      { timerId := -1, pArg, pFunc, eventId, dummy, timerType := if interval = 0 then .once else .cycle }
    let manager := manager.setTimer pTimer timer
    match timerId.filter fun id => id ≠ -1 ∧ s.find id = none with
    | none => { s with manager := manager.freeTimerObject pTimer }
    | some timerId =>
      { s with
        manager := manager.setTimer pTimer { timer with timerId }
        scheduled := ⟨timerId, pTimer, interval⟩ :: s.scheduled }

/-- `free_timer` of an id. -/
def freeTimer (s : TimerSystem) (timerId : Int32) : TimerSystem :=
  match s.find timerId with
  | none => s
  | some e =>
    { s with
      manager := s.manager.freeTimerObject e.pTimer
      scheduled := s.scheduled.erase e }

/-- The reactor dispatches a timer, and `handle_timeout` calls the callback if there is one. -/
def expire (s : TimerSystem) (timerId : Int32) : TimerSystem :=
  match s.dispatched, s.find timerId with
  | none, some e =>
    { s with
      scheduled := if e.interval = 0 then s.scheduled.erase e else s.scheduled
      dispatched :=
        if (s.manager.timer e.pTimer).pFunc.isSome then some ⟨e.pTimer, e.interval ≠ 0⟩ else none }
  | _, _ => s

/-- `handle_timeout` after the callback. -/
def callbackReturns (s : TimerSystem) : TimerSystem :=
  match s.dispatched with
  | none => s
  | some d =>
    { s with
      manager :=
        if (s.manager.timer d.pTimer).timerType = .once then s.manager.freeTimerObject d.pTimer
        else s.manager
      dispatched := none }

def step (s : TimerSystem) : Act → TimerSystem
  | .allocTimer pArg pFunc eventId dummy interval newOk timerId =>
    s.allocTimer pArg pFunc eventId dummy interval newOk timerId
  | .freeTimer timerId => s.freeTimer timerId
  | .expire timerId => s.expire timerId
  | .callbackReturns => s.callbackReturns

/-! ## The property and the condition -/

/-- The objects of the timers that are scheduled. -/
def objects (s : TimerSystem) : List Nat := s.scheduled.map Scheduled.pTimer

/-- An object is in the list at most once and not while it is scheduled, and no two scheduled timers share one. -/
structure Sound (s : TimerSystem) : Prop where
  free : s.manager.freeTimerList.Nodup
  apart : ∀ pTimer ∈ s.objects, pTimer ∉ s.manager.freeTimerList
  objects : s.objects.Nodup

/-- When the callback of a timer with an interval returns, its object is one of such a timer. -/
def Proper (s : TimerSystem) : Act → Prop
  | .callbackReturns => ∀ d ∈ s.dispatched, d.repeats → (s.manager.timer d.pTimer).timerType = .cycle
  | _ => True

/-- What holds besides: the objects that are used were made, a scheduled timer is of the type of its interval,
and so is the one that is dispatched as long as nobody can get it: without an interval it is neither in the list
nor scheduled, and with one it is. -/
structure Settled (s : TimerSystem) : Prop where
  created : ∀ pTimer, pTimer ∈ s.manager.freeTimerList ∨ pTimer ∈ s.objects ∨
    (∃ d ∈ s.dispatched, d.pTimer = pTimer) → pTimer < s.manager.created
  type : ∀ e ∈ s.scheduled, (s.manager.timer e.pTimer).timerType = if e.interval = 0 then .once else .cycle
  once : ∀ d ∈ s.dispatched, d.repeats = false → d.pTimer ∉ s.manager.freeTimerList ∧ d.pTimer ∉ s.objects ∧
    (s.manager.timer d.pTimer).timerType = .once
  repeats : ∀ d ∈ s.dispatched, d.repeats = true → d.pTimer ∈ s.manager.freeTimerList ∨ d.pTimer ∈ s.objects

/-! ## The object of a new timer -/

/-- `m'` is the manager after `p` was taken from `m`: it was the first of the list, or is new. -/
structure Taken (m m' : TimerManager) (p : Nat) : Prop where
  free : m.freeTimerList = p :: m'.freeTimerList ∨ m.freeTimerList = [] ∧ m'.freeTimerList = [] ∧ p = m.created
  created : m'.created = if p = m.created then m.created + 1 else m.created
  timer : ∀ q, q ≠ p → m'.timer q = m.timer q

theorem allocateTimerObject_spec {m m' : TimerManager} {newOk : Bool} {p : Nat}
    (hcreated : ∀ q ∈ m.freeTimerList, q < m.created) (h : m.allocateTimerObject newOk = (m', some p)) :
    Taken m m' p := by
  unfold TimerManager.allocateTimerObject at h
  split at h
  · rename_i hnil
    split at h
    · simp only [Prod.mk.injEq, Option.some.injEq] at h
      obtain ⟨rfl, rfl⟩ := h
      exact ⟨.inr ⟨hnil, hnil, rfl⟩, (if_pos rfl).symm, fun q hq => Function.update_of_ne hq _ _⟩
    · cases h
  · rename_i pTimer rest hcons
    simp only [Prod.mk.injEq, Option.some.injEq] at h
    obtain ⟨rfl, rfl⟩ := h
    have hlt := hcreated pTimer (hcons ▸ List.mem_cons_self)
    exact ⟨.inl hcons, (if_neg (Nat.ne_of_lt hlt)).symm, fun q _ => rfl⟩

theorem allocateTimerObject_none {m m' : TimerManager} {newOk : Bool}
    (h : m.allocateTimerObject newOk = (m', none)) : m' = m := by
  unfold TimerManager.allocateTimerObject at h
  split at h
  · split at h <;> cases h
    rfl
  · cases h

variable {s : TimerSystem}

theorem Settled.taken (hs : Settled s) {newOk : Bool} {m' : TimerManager} {p : Nat}
    (h : s.manager.allocateTimerObject newOk = (m', some p)) : Taken s.manager m' p :=
  allocateTimerObject_spec (fun q hq => hs.created q (.inl hq)) h

/-- What the object of a new timer is: in nobody's hands, but for those of the callback of a timer with an
interval. -/
structure Unused (s : TimerSystem) (m' : TimerManager) (p : Nat) : Prop where
  free : p ∉ m'.freeTimerList
  nodup : m'.freeTimerList.Nodup
  objects : p ∉ s.objects
  subset : ∀ q ∈ m'.freeTimerList, q ∈ s.manager.freeTimerList
  rest : ∀ q ∈ s.manager.freeTimerList, q ∈ m'.freeTimerList ∨ q = p
  dispatched : ∀ d ∈ s.dispatched, d.repeats = false → d.pTimer ≠ p
  lt : p < m'.created
  le : s.manager.created ≤ m'.created

theorem Taken.unused {m' : TimerManager} {p : Nat} (h : Taken s.manager m' p) (hs : Settled s)
    (hsound : Sound s) : Unused s m' p := by
  have hfree := hsound.free
  have hcreated := h.created
  rcases h.free with hcons | ⟨hnil, hnil', rfl⟩
  · rw [hcons] at hfree
    obtain ⟨hnot, hnodup⟩ := List.nodup_cons.mp hfree
    have hmem : p ∈ s.manager.freeTimerList := hcons ▸ List.mem_cons_self
    have hlt := hs.created p (.inl hmem)
    rw [if_neg (Nat.ne_of_lt hlt)] at hcreated
    constructor
    case free => exact hnot
    case nodup => exact hnodup
    case objects => exact fun hp => hsound.apart p hp hmem
    case subset =>
      intro q hq
      rw [hcons]
      exact List.mem_cons_of_mem _ hq
    case rest =>
      intro q hq
      rw [hcons] at hq
      exact (List.mem_cons.mp hq).symm
    case dispatched =>
      rintro d hd hrepeats rfl
      exact (hs.once d hd hrepeats).1 hmem
    case lt => omega
    case le => omega
  · rw [if_pos rfl] at hcreated
    constructor
    case free => simp [hnil']
    case nodup => simp [hnil']
    case objects =>
      intro hp
      exact Nat.lt_irrefl _ (hs.created _ (.inr (.inl hp)))
    case subset => simp [hnil']
    case rest => simp [hnil]
    case dispatched =>
      intro d hd _ heq
      exact Nat.lt_irrefl _ (hs.created _ (.inr (.inr ⟨d, hd, heq⟩)))
    case lt => omega
    case le => omega

theorem nodup_append_singleton {l : List Nat} {p : Nat} (hl : l.Nodup) (hp : p ∉ l) : (l ++ [p]).Nodup := by
  apply List.nodup_append.mpr ⟨hl, List.nodup_singleton p, _⟩
  rintro q hq p' hp' rfl
  exact hp (List.mem_singleton.mp hp' ▸ hq)

/-! ## The steps -/

theorem find_mem {timerId : Int32} {e : Scheduled} (h : s.find timerId = some e) : e ∈ s.scheduled :=
  List.mem_of_find?_eq_some h

theorem mem_objects {e : Scheduled} (h : e ∈ s.scheduled) : e.pTimer ∈ s.objects :=
  List.mem_map_of_mem h

/-- A timer that is not scheduled goes to the end of the list. -/
theorem allocTimer_refused (hs : Settled s) (hsound : Sound s) {m' : TimerManager} {p : Nat}
    (h : Taken s.manager m' p) (t : Timer) :
    Sound { s with manager := (m'.setTimer p t).freeTimerObject p } ∧
      Settled { s with manager := (m'.setTimer p t).freeTimerObject p } := by
  have hp := h.unused hs hsound
  have htimer (q : Nat) (hq : q ≠ p) :
      ((m'.setTimer p t).freeTimerObject p).timer q = s.manager.timer q :=
    (Function.update_of_ne hq _ _).trans (h.timer q hq)
  constructor
  · constructor
    case free =>
      rw [TimerManager.freeTimerList_freeTimerObject]
      exact nodup_append_singleton hp.nodup hp.free
    case apart =>
      intro q hq hfree
      simp only [TimerManager.freeTimerList_freeTimerObject, TimerManager.freeTimerList_setTimer,
        List.mem_append, List.mem_singleton] at hfree
      rcases hfree with hfree | rfl
      · exact hsound.apart q hq (hp.subset q hfree)
      · exact hp.objects hq
    case objects => exact hsound.objects
  · constructor
    case created =>
      intro q hq
      show q < m'.created
      simp only [TimerManager.freeTimerList_freeTimerObject, TimerManager.freeTimerList_setTimer,
        List.mem_append, List.mem_singleton] at hq
      rcases hq with (hq | rfl) | hq
      · exact Nat.lt_of_lt_of_le (hs.created q (.inl (hp.subset q hq))) hp.le
      · exact hp.lt
      · exact Nat.lt_of_lt_of_le (hs.created q (.inr hq)) hp.le
    case type =>
      intro e he
      have hne : e.pTimer ≠ p := fun heq => hp.objects (heq ▸ mem_objects he)
      rw [htimer _ hne]
      exact hs.type e he
    case once =>
      intro d hd hrepeats
      obtain ⟨hfree, hobjects, htype⟩ := hs.once d hd hrepeats
      have hne := hp.dispatched d hd hrepeats
      refine ⟨?_, hobjects, (congrArg Timer.timerType (htimer _ hne)).trans htype⟩
      simp only [TimerManager.freeTimerList_freeTimerObject, TimerManager.freeTimerList_setTimer,
        List.mem_append, List.mem_singleton, not_or]
      exact ⟨fun hin => hfree (hp.subset _ hin), hne⟩
    case repeats =>
      intro d hd hrepeats
      simp only [TimerManager.freeTimerList_freeTimerObject, TimerManager.freeTimerList_setTimer,
        List.mem_append, List.mem_singleton]
      exact (hs.repeats d hd hrepeats).imp_left (hp.rest _)

/-- A timer that is scheduled. -/
theorem allocTimer_scheduled (hs : Settled s) (hsound : Sound s) {m' : TimerManager} {p : Nat}
    (h : Taken s.manager m' p) (t t' : Timer) {e : Scheduled} (he : e.pTimer = p)
    (ht' : t'.timerType = if e.interval = 0 then .once else .cycle) :
    Sound { s with manager := (m'.setTimer p t).setTimer p t', scheduled := e :: s.scheduled } ∧
      Settled { s with manager := (m'.setTimer p t).setTimer p t', scheduled := e :: s.scheduled } := by
  have hp := h.unused hs hsound
  have htimer (q : Nat) (hq : q ≠ p) : ((m'.setTimer p t).setTimer p t').timer q = s.manager.timer q :=
    (Function.update_of_ne hq _ _).trans ((Function.update_of_ne hq _ _).trans (h.timer q hq))
  have hnew : ((m'.setTimer p t).setTimer p t').timer p = t' := Function.update_self _ _ _
  have hobjects : ({ s with manager := (m'.setTimer p t).setTimer p t', scheduled := e :: s.scheduled } :
      TimerSystem).objects = p :: s.objects := congrArg (· :: s.objects) he
  constructor
  · constructor
    case free => exact hp.nodup
    case apart =>
      rw [hobjects]
      intro q hq
      rcases List.mem_cons.mp hq with rfl | hq
      · exact hp.free
      · exact fun hfree => hsound.apart q hq (hp.subset q hfree)
    case objects =>
      rw [hobjects]
      exact List.nodup_cons.mpr ⟨hp.objects, hsound.objects⟩
  · constructor
    case created =>
      intro q hq
      show q < m'.created
      rw [hobjects, List.mem_cons] at hq
      rcases hq with hq | (rfl | hq) | hq
      · exact Nat.lt_of_lt_of_le (hs.created q (.inl (hp.subset q hq))) hp.le
      · exact hp.lt
      · exact Nat.lt_of_lt_of_le (hs.created q (.inr (.inl hq))) hp.le
      · exact Nat.lt_of_lt_of_le (hs.created q (.inr (.inr hq))) hp.le
    case type =>
      intro e' he'
      rcases List.mem_cons.mp he' with rfl | he'
      · rw [he, hnew]
        exact ht'
      · have hne : e'.pTimer ≠ p := fun heq => hp.objects (heq ▸ mem_objects he')
        rw [htimer _ hne]
        exact hs.type e' he'
    case once =>
      intro d hd hrepeats
      obtain ⟨hfree, hsched, htype⟩ := hs.once d hd hrepeats
      have hne := hp.dispatched d hd hrepeats
      rw [hobjects, List.mem_cons, not_or]
      exact ⟨fun hin => hfree (hp.subset _ hin), ⟨hne, hsched⟩,
        (congrArg Timer.timerType (htimer _ hne)).trans htype⟩
    case repeats =>
      intro d hd hrepeats
      rw [hobjects, List.mem_cons]
      rcases hs.repeats d hd hrepeats with hfree | hsched
      · exact (hp.rest _ hfree).imp_right .inl
      · exact .inr (.inr hsched)

theorem allocTimer_keeps (hs : Settled s) (hsound : Sound s) (pArg : Nat) (pFunc : Option Nat)
    (eventId dummy : Int32) (interval : Nat) (newOk : Bool) (timerId : Option Int32) :
    Sound (s.allocTimer pArg pFunc eventId dummy interval newOk timerId) ∧
      Settled (s.allocTimer pArg pFunc eventId dummy interval newOk timerId) := by
  unfold allocTimer
  split
  · rename_i m' h
    cases allocateTimerObject_none h
    exact ⟨hsound, hs⟩
  · rename_i m' p h
    dsimp only
    split
    · exact allocTimer_refused hs hsound (hs.taken h) _
    · exact allocTimer_scheduled hs hsound (hs.taken h) _ _ rfl rfl

/-- The objects of the timers other than `e`. -/
theorem objects_erase (hsound : Sound s) {e : Scheduled} (he : e ∈ s.scheduled) :
    ((s.scheduled.erase e).map Scheduled.pTimer).Nodup ∧
      ∀ q, q ∈ (s.scheduled.erase e).map Scheduled.pTimer ↔ q ∈ s.objects ∧ q ≠ e.pTimer := by
  have hperm := (List.perm_cons_erase he).map Scheduled.pTimer
  rw [List.map_cons] at hperm
  obtain ⟨hnot, hnodup⟩ := List.nodup_cons.mp (hperm.nodup_iff.mp hsound.objects)
  refine ⟨hnodup, fun q => ⟨fun hq => ⟨?_, ?_⟩, ?_⟩⟩
  · exact hperm.mem_iff.mpr (List.mem_cons_of_mem _ hq)
  · rintro rfl
    exact hnot hq
  · rintro ⟨hq, hne⟩
    exact (List.mem_cons.mp (hperm.mem_iff.mp hq)).resolve_left hne

theorem freeTimer_keeps (hs : Settled s) (hsound : Sound s) (timerId : Int32) :
    Sound (s.freeTimer timerId) ∧ Settled (s.freeTimer timerId) := by
  unfold freeTimer
  split
  · exact ⟨hsound, hs⟩
  · rename_i e hfind
    have he := find_mem hfind
    have hin := mem_objects he
    obtain ⟨hnodup, hobjects⟩ := objects_erase hsound he
    constructor
    · constructor
      case free => exact nodup_append_singleton hsound.free (hsound.apart _ hin)
      case apart =>
        intro q hq
        obtain ⟨hq, hne⟩ := (hobjects q).mp hq
        simp only [TimerManager.freeTimerList_freeTimerObject, List.mem_append, List.mem_singleton, not_or]
        exact ⟨hsound.apart q hq, hne⟩
      case objects => exact hnodup
    · constructor
      case created =>
        intro q hq
        apply hs.created q
        simp only [TimerManager.freeTimerList_freeTimerObject, List.mem_append, List.mem_singleton] at hq
        rcases hq with (hq | rfl) | hq | hq
        · exact .inl hq
        · exact .inr (.inl hin)
        · exact .inr (.inl ((hobjects q).mp hq).1)
        · exact .inr (.inr hq)
      case type =>
        intro e' he'
        exact hs.type e' (List.mem_of_mem_erase he')
      case once =>
        intro d hd hrepeats
        obtain ⟨hfree, hsched, htype⟩ := hs.once d hd hrepeats
        refine ⟨?_, fun hq => hsched ((hobjects _).mp hq).1, htype⟩
        simp only [TimerManager.freeTimerList_freeTimerObject, List.mem_append, List.mem_singleton, not_or]
        exact ⟨hfree, fun heq => hsched (heq ▸ hin)⟩
      case repeats =>
        intro d hd hrepeats
        simp only [TimerManager.freeTimerList_freeTimerObject, List.mem_append, List.mem_singleton]
        rcases hs.repeats d hd hrepeats with hfree | hsched
        · exact .inl (.inl hfree)
        · rcases eq_or_ne d.pTimer e.pTimer with heq | hne
          · exact .inl (.inr heq)
          · exact .inr ((hobjects _).mpr ⟨hsched, hne⟩)

/-- A timer without an interval is not scheduled any more when its callback is called. -/
theorem expire_keeps (hs : Settled s) (hsound : Sound s) (timerId : Int32) :
    Sound (s.expire timerId) ∧ Settled (s.expire timerId) := by
  unfold expire
  split
  swap
  · exact ⟨hsound, hs⟩
  rename_i e hnone hfind
  have he := find_mem hfind
  have hin := mem_objects he
  have htype := hs.type e he
  obtain ⟨hnodup, hobjects⟩ := objects_erase hsound he
  have hsome {d : Dispatched} {c : Bool} (hd : d ∈ if c then some ⟨e.pTimer, e.interval ≠ 0⟩ else none) :
      d = ⟨e.pTimer, e.interval ≠ 0⟩ := by
    cases c
    · cases hd
    · exact (Option.some.inj hd).symm
  by_cases hinterval : e.interval = 0
  · rw [if_pos hinterval] at htype ⊢
    constructor
    · constructor
      case free => exact hsound.free
      case apart => exact fun q hq => hsound.apart q ((hobjects q).mp hq).1
      case objects => exact hnodup
    · constructor
      case created =>
        rintro q (hq | hq | ⟨d, hd, rfl⟩)
        · exact hs.created q (.inl hq)
        · exact hs.created q (.inr (.inl ((hobjects q).mp hq).1))
        · cases hsome hd
          exact hs.created _ (.inr (.inl hin))
      case type => exact fun e' he' => hs.type e' (List.mem_of_mem_erase he')
      case once =>
        intro d hd hrepeats
        cases hsome hd
        exact ⟨hsound.apart _ hin, fun hq => ((hobjects _).mp hq).2 rfl, htype⟩
      case repeats =>
        intro d hd hrepeats
        cases hsome hd
        simp [hinterval] at hrepeats
  · rw [if_neg hinterval]
    constructor
    · exact ⟨hsound.free, hsound.apart, hsound.objects⟩
    · constructor
      case created =>
        rintro q (hq | hq | ⟨d, hd, rfl⟩)
        · exact hs.created q (.inl hq)
        · exact hs.created q (.inr (.inl hq))
        · cases hsome hd
          exact hs.created _ (.inr (.inl hin))
      case type => exact hs.type
      case once =>
        intro d hd hrepeats
        cases hsome hd
        simp [hinterval] at hrepeats
      case repeats =>
        intro d hd hrepeats
        cases hsome hd
        exact .inr hin

/-- What `handle_timeout` does to an object of a timer with an interval that has become one without. -/
theorem callbackReturns_sound_iff (hs : Settled s) (hsound : Sound s) :
    Sound s.callbackReturns ↔ s.Proper .callbackReturns := by
  unfold callbackReturns Proper
  split
  · rename_i hnone
    simp [hnone, hsound]
  · rename_i d hd
    simp only [hd, Option.mem_def, Option.some.injEq, forall_eq']
    split
    · rename_i htype
      constructor
      · intro h hrepeats
        exfalso
        rcases hs.repeats d hd hrepeats with hfree | hsched
        · exact (List.nodup_append.mp h.free).2.2 _ hfree _ (List.mem_singleton_self _) rfl
        · exact h.apart _ hsched (List.mem_append_right _ (List.mem_singleton_self _))
      · intro h
        have hrepeats : d.repeats = false := by
          by_contra hrepeats
          exact absurd (htype.symm.trans (h (Bool.eq_true_of_not_eq_false hrepeats))) nofun
        obtain ⟨hfree, hsched, -⟩ := hs.once d hd hrepeats
        constructor
        case free => exact nodup_append_singleton hsound.free hfree
        case apart =>
          intro q hq
          simp only [TimerManager.freeTimerList_freeTimerObject, List.mem_append, List.mem_singleton, not_or]
          exact ⟨hsound.apart q hq, fun heq => hsched (heq ▸ hq)⟩
        case objects => exact hsound.objects
    · rename_i htype
      constructor
      · intro _ _
        generalize (s.manager.timer d.pTimer).timerType = type at htype
        cases type
        · exact absurd rfl htype
        · rfl
      · exact fun _ => ⟨hsound.free, hsound.apart, hsound.objects⟩

theorem callbackReturns_settled (hs : Settled s) : Settled s.callbackReturns := by
  unfold callbackReturns
  split
  · exact hs
  · rename_i d hd
    constructor
    case created =>
      intro q hq
      have hq : q ∈ s.manager.freeTimerList ∨ q ∈ s.objects ∨ ∃ d ∈ s.dispatched, d.pTimer = q := by
        rcases hq with hq | hq | ⟨d', hd', -⟩
        · dsimp only at hq
          split at hq
          · simp only [TimerManager.freeTimerList_freeTimerObject, List.mem_append, List.mem_singleton] at hq
            exact hq.imp_right fun heq => .inr ⟨d, hd, heq.symm⟩
          · exact .inl hq
        · exact .inr (.inl hq)
        · cases hd'
      dsimp only
      split <;> exact hs.created q hq
    case type =>
      intro e he
      dsimp only
      split <;> exact hs.type e he
    case once => exact nofun
    case repeats => exact nofun

/-! ## Whole runs -/

theorem step_spec (hs : Settled s) (hsound : Sound s) (a : Act) :
    (Sound (s.step a) ↔ s.Proper a) ∧ Settled (s.step a) := by
  cases a with
  | allocTimer pArg pFunc eventId dummy interval newOk timerId =>
    obtain ⟨hsound', hs'⟩ := allocTimer_keeps hs hsound pArg pFunc eventId dummy interval newOk timerId
    exact ⟨iff_of_true hsound' trivial, hs'⟩
  | freeTimer timerId =>
    obtain ⟨hsound', hs'⟩ := freeTimer_keeps hs hsound timerId
    exact ⟨iff_of_true hsound' trivial, hs'⟩
  | expire timerId =>
    obtain ⟨hsound', hs'⟩ := expire_keeps hs hsound timerId
    exact ⟨iff_of_true hsound' trivial, hs'⟩
  | callbackReturns => exact ⟨callbackReturns_sound_iff hs hsound, callbackReturns_settled hs⟩

theorem settled_init (timerCount : Nat) : Settled (init timerCount) := by
  constructor
  case created =>
    rintro q (hq | hq | ⟨d, hd, -⟩)
    · exact List.mem_range.mp hq
    · cases hq
    · cases hd
  case type => exact nofun
  case once => exact nofun
  case repeats => exact nofun

theorem sound_init (timerCount : Nat) : Sound (init timerCount) where
  free := List.nodup_range
  apart := nofun
  objects := List.nodup_nil

/-- In every state of a run the objects are apart exactly if every callback of a timer with an interval returns
with its object still one of such a timer. -/
theorem run_timers_sound_iff (timerCount : Nat) (acts : List Act) :
    Allowed step Proper (init timerCount) acts ↔
      ∀ pre, pre <+: acts → Sound (run step (init timerCount) pre) := by
  apply allowed_iff_of_invariant (settled_init timerCount) (sound_init timerCount)
  intro s a hs hsound
  obtain ⟨hiff, hs'⟩ := step_spec hs hsound a
  exact ⟨hiff, fun _ => hs'⟩

/-- A timer without an interval that is scheduled takes the first object of the list. -/
theorem allocTimer_cons {pTimer : Nat} {rest : List Nat} (hfree : s.manager.freeTimerList = pTimer :: rest)
    {timerId : Int32} (hid : timerId ≠ -1) (hnew : s.find timerId = none) (pArg : Nat) (pFunc : Option Nat)
    (eventId dummy : Int32) (newOk : Bool) :
    ∃ manager : TimerManager, manager.freeTimerList = rest ∧
      (∀ q, q = pTimer ∨ (s.manager.timer q).timerType = .once → (manager.timer q).timerType = .once) ∧
      s.allocTimer pArg pFunc eventId dummy 0 newOk (some timerId) =
        { s with manager, scheduled := ⟨timerId, pTimer, 0⟩ :: s.scheduled } := by
  rw [allocTimer, TimerManager.allocateTimerObject, hfree]
  simp only [if_true, Option.filter_some, hid, hnew, ne_eq, not_false_eq_true, and_self, decide_true]
  refine ⟨_, ?_, ?_, rfl⟩
  · rfl
  · intro q hq
    rcases eq_or_ne q pTimer with rfl | hne
    · simp [TimerManager.setTimer]
    · simpa [TimerManager.setTimer, Function.update_of_ne hne] using hq.resolve_left hne

/-- As long as there are objects in the list. -/
theorem run_allocTimer {objects rest : List Nat} {timerIds : List Int32}
    (hfree : s.manager.freeTimerList = objects ++ rest) (hlen : timerIds.length = objects.length)
    (hids : timerIds.Nodup) (hnew : ∀ timerId ∈ timerIds, timerId ≠ -1 ∧ s.find timerId = none) :
    let s' := run step s (timerIds.map fun timerId => .allocTimer 1 (some 1) 0 0 0 true (some timerId))
    s'.dispatched = s.dispatched ∧ (∀ pTimer ∈ objects, pTimer ∈ s'.objects) ∧
      (∀ pTimer ∈ s.objects, pTimer ∈ s'.objects) ∧
      ∀ q, q ∈ objects ∨ (s.manager.timer q).timerType = .once → (s'.manager.timer q).timerType = .once := by
  induction timerIds generalizing s objects with
  | nil =>
    obtain rfl := List.eq_nil_of_length_eq_zero hlen.symm
    exact ⟨rfl, nofun, fun _ h => h, fun q h => h.resolve_left List.not_mem_nil⟩
  | cons timerId timerIds ih =>
    obtain ⟨pTimer, objects, rfl⟩ := List.exists_cons_of_length_eq_add_one hlen.symm
    obtain ⟨hnotMem, hids⟩ := List.nodup_cons.mp hids
    obtain ⟨hid, hnone⟩ := hnew timerId List.mem_cons_self
    obtain ⟨manager, hrest, htype, hstep⟩ := allocTimer_cons hfree hid hnone 1 (some 1) 0 0 true
    have hfresh : ∀ id ∈ timerIds, id ≠ -1 ∧
        (s.allocTimer 1 (some 1) 0 0 0 true (some timerId)).find id = none := by
      intro id hmem
      have hne : timerId ≠ id := fun heq => hnotMem (heq ▸ hmem)
      obtain ⟨hid', hnone'⟩ := hnew id (List.mem_cons_of_mem _ hmem)
      rw [hstep, find, List.find?_cons_of_neg (by simpa using hne)]
      exact ⟨hid', hnone'⟩
    obtain ⟨hdispatched, hin, hkept, htypes⟩ := ih (by rw [hstep]; exact hrest) (Nat.succ.inj hlen) hids hfresh
    rw [hstep] at hdispatched hin hkept htypes
    rw [List.map_cons, run, step, hstep]
    refine ⟨hdispatched, ?_, fun q hq => hkept q (List.mem_cons_of_mem _ hq), ?_⟩
    · exact List.forall_mem_cons.mpr ⟨hkept pTimer List.mem_cons_self, hin⟩
    · rintro q (hq | hq)
      · rcases List.mem_cons.mp hq with rfl | hq
        · exact htypes q (.inr (htype q (.inl rfl)))
        · exact htypes q (.inl hq)
      · exact htypes q (.inr (htype q (.inr hq)))

/-- The callback of a timer that expires every second frees it, and allocates timers without an interval until
the list has been gone through once. -/
def recycledActs : List Act :=
  .allocTimer 1 (some 1) 0 0 1000 true (some 1) :: .expire 1 :: .freeTimer 1 ::
    (List.range 300).map (fun i => .allocTimer 1 (some 1) 0 0 0 true (some (Int32.ofNat (i + 1)))) ++
      [.callbackReturns]

/-- The manager then has 300 timers that are scheduled, one of which is in the list. -/
theorem not_sound_recycled : ¬ Sound (run step (init 300) recycledActs) := by
  intro h
  obtain ⟨s, hs⟩ : ∃ s, s = run step (init 300)
      [.allocTimer 1 (some 1) 0 0 1000 true (some 1), .expire 1, .freeTimer 1] := ⟨_, rfl⟩
  -- the ids of the timers without an interval
  let timerIds := (List.range 300).map fun i => Int32.ofNat (i + 1)
  have htoInt : ∀ i ∈ List.range 300, (Int32.ofNat (i + 1)).toInt = (i + 1 : Nat) := fun i hi =>
    Int32.toInt_ofNat_of_lt (by have := List.mem_range.mp hi; omega)
  have hids : timerIds.Nodup := by
    refine List.Nodup.map_on (fun i hi j hj heq => ?_) List.nodup_range
    have := congrArg Int32.toInt heq
    rw [htoInt i hi, htoInt j hj] at this
    omega
  have hnew : ∀ timerId ∈ timerIds, timerId ≠ -1 ∧ s.find timerId = none := by
    intro timerId hid
    obtain ⟨i, hi, rfl⟩ := List.mem_map.mp hid
    constructor
    · intro heq
      have := congrArg Int32.toInt heq
      rw [htoInt i hi] at this
      exact absurd this (by rw [show (-1 : Int32).toInt = -1 from rfl]; omega)
    · rw [hs]
      rfl
  have hfree : s.manager.freeTimerList = (List.range 300).tail ++ [0] ++ [] := by
    rw [hs]
    set_option maxRecDepth 8000 in
    decide
  obtain ⟨hdispatched, hin, -, htype⟩ := run_allocTimer hfree (by simp [timerIds]) hids hnew
  have hzero : 0 ∈ (List.range 300).tail ++ [0] := List.mem_append_right _ List.mem_cons_self
  have hacts : recycledActs = [.allocTimer 1 (some 1) 0 0 1000 true (some 1), .expire 1, .freeTimer 1] ++
      (timerIds.map (fun timerId => .allocTimer 1 (some 1) 0 0 0 true (some timerId)) ++ [.callbackReturns]) := by
    simp [recycledActs, timerIds, List.map_map, Function.comp_def]
  rw [hacts, run_append, ← hs, run_append] at h
  generalize run step s (timerIds.map _) = s' at *
  have hd : s'.dispatched = some ⟨0, true⟩ := by
    rw [hdispatched, hs]
    rfl
  have hfree' : 0 ∈ s'.callbackReturns.manager.freeTimerList := by
    rw [callbackReturns, hd]
    simp [htype 0 (.inl hzero)]
  have hobjects : 0 ∈ s'.callbackReturns.objects := by
    rw [callbackReturns, hd]
    exact hin 0 hzero
  exact h.apart 0 hobjects hfree'

end TimerSystem

end AllCamera
