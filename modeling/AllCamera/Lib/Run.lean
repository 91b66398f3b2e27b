import Mathlib.Tactic.Common
import Mathlib.Data.List.Induction
import Mathlib.Data.UInt

/-!
# Runs of a step function

A system whose steps are chosen from outside (by a scheduler, by callers, by a network) is a
function `step : σ → α → σ`, where `α` is what is chosen. A run is the list of choices.

* `run step s as`: the state after the choices `as`.
* `Allowed step ok s as`: every step of that run is taken in a state that allows it.
* `Allowed.invariant`: what every allowed step keeps holds after every allowed run; `allowed_iff`: a
  run is allowed exactly if all its states have what exactly the allowed steps keep
  (`allowed_iff_of_invariant`: where they also keep an invariant); `run_iff_allowed`: the same for what is
  wanted at the end and can not come back once it is lost; `Allowed.congr`: two conditions on the steps allow
  the same runs.
* `Trace R s as out s'`: the same for steps that are a relation (a step may never return) and that
  give output.
-/

namespace AllCamera.Run

variable {σ α : Type} (step : σ → α → σ) (ok : σ → α → Prop)

/-- The state after the choices `as`. -/
def run : σ → List α → σ
  | s, [] => s
  | s, a :: as => run (step s a) as

/-- Every step of the run from `s` is allowed in the state in which it is taken. -/
def Allowed : σ → List α → Prop
  | _, [] => True
  | s, a :: as => ok s a ∧ Allowed (step s a) as

instance decidableAllowed [∀ s a, Decidable (ok s a)] : ∀ s as, Decidable (Allowed step ok s as)
  | _, [] => inferInstanceAs (Decidable True)
  | s, a :: as =>
    have := decidableAllowed (step s a) as
    inferInstanceAs (Decidable (ok s a ∧ Allowed step ok (step s a) as))

variable {step ok} {I : σ → Prop} {s : σ} {as : List α}

theorem run_append (s : σ) (as bs : List α) :
    run step s (as ++ bs) = run step (run step s as) bs := by
  induction as generalizing s with
  | nil => rfl
  | cons a as ih => exact ih (step s a)

theorem allowed_append {bs : List α} : Allowed step ok s (as ++ bs) ↔
    Allowed step ok s as ∧ Allowed step ok (run step s as) bs := by
  induction as generalizing s with
  | nil => simp [Allowed, run]
  | cons a as ih => simp [Allowed, run, ih, and_assoc]

/-- What an allowed step keeps holds after every allowed run. -/
theorem Allowed.invariant (h : Allowed step ok s as) (hs : I s)
    (hstep : ∀ s a, I s → ok s a → I (step s a)) : I (run step s as) := by
  induction as generalizing s with
  | nil => exact hs
  | cons a as ih => exact ih h.2 (hstep s a hs h.1)

/-- What every step keeps holds after every run. -/
theorem run_invariant (hs : I s) (hstep : ∀ s a, I s → I (step s a)) : I (run step s as) := by
  induction as generalizing s with
  | nil => exact hs
  | cons a as ih => exact ih (hstep s a hs)

/-- Where, of the steps that meet `base`, exactly the allowed ones keep something, a run whose steps meet
`base` is allowed exactly if that holds in every state that it reaches. -/
theorem Allowed.allowed_iff {base : σ → α → Prop} (hbase : Allowed step base s as) (hs : I s)
    (hstep : ∀ s a, I s → base s a → (I (step s a) ↔ ok s a)) :
    Allowed step ok s as ↔ ∀ pre, pre <+: as → I (run step s pre) := by
  induction as generalizing s with
  | nil =>
    refine ⟨fun _ pre hpre => ?_, fun _ => trivial⟩
    rw [List.prefix_nil.mp hpre]
    exact hs
  | cons a as ih =>
    have hiff := hstep s a hs hbase.1
    refine ⟨fun h pre hpre => ?_, fun h => ?_⟩
    · cases pre with
      | nil => exact hs
      | cons b pre =>
        obtain ⟨rfl, htail⟩ := List.cons_prefix_cons.mp hpre
        exact (ih hbase.2 (hiff.mpr h.1)).mp h.2 pre htail
    · have ha : I (step s a) := h [a] (List.cons_prefix_cons.mpr ⟨rfl, List.nil_prefix⟩)
      refine ⟨hiff.mp ha, (ih hbase.2 ha).mpr fun pre hpre => ?_⟩
      exact h (a :: pre) (List.cons_prefix_cons.mpr ⟨rfl, hpre⟩)

theorem allowed_true : Allowed step (fun _ _ => True) s as := by
  induction as generalizing s with
  | nil => trivial
  | cons a as ih => exact ⟨trivial, ih⟩

/-- What holds of all choices of a run may be asked of its steps. -/
theorem Allowed.and_forall {p : α → Prop} (h : Allowed step ok s as) (hp : ∀ a ∈ as, p a) :
    Allowed step (fun s a => p a ∧ ok s a) s as := by
  induction as generalizing s with
  | nil => trivial
  | cons a as ih =>
    exact ⟨⟨hp a List.mem_cons_self, h.1⟩, ih h.2 fun b hb => hp b (List.mem_cons_of_mem _ hb)⟩

theorem Allowed.and {ok' : σ → α → Prop} (h : Allowed step ok s as) (h' : Allowed step ok' s as) :
    Allowed step (fun s a => ok s a ∧ ok' s a) s as := by
  induction as generalizing s with
  | nil => trivial
  | cons a as ih => exact ⟨⟨h.1, h'.1⟩, ih h.2 h'.2⟩

/-- Where two conditions on a step agree as long as an invariant holds, and steps that meet them keep it, the same
runs meet them. -/
theorem Allowed.congr {base ok' : σ → α → Prop} (hbase : Allowed step base s as) (hs : I s)
    (hiff : ∀ s a, I s → base s a → (ok s a ↔ ok' s a))
    (hkeep : ∀ s a, I s → base s a → ok s a → I (step s a)) :
    Allowed step ok s as ↔ Allowed step ok' s as := by
  induction as generalizing s with
  | nil => exact Iff.rfl
  | cons a as ih =>
    have hhead := hiff s a hs hbase.1
    constructor
    · intro h
      exact ⟨hhead.mp h.1, (ih hbase.2 (hkeep s a hs hbase.1 h.1)).mp h.2⟩
    · intro h
      have hok := hhead.mpr h.1
      exact ⟨hok, (ih hbase.2 (hkeep s a hs hbase.1 hok)).mpr h.2⟩

/-- Where exactly the allowed steps keep something, a run is allowed exactly if that holds in every
state that it reaches. -/
theorem allowed_iff (hs : I s) (hstep : ∀ s a, I s → (I (step s a) ↔ ok s a)) :
    Allowed step ok s as ↔ ∀ pre, pre <+: as → I (run step s pre) :=
  allowed_true.allowed_iff hs fun s a h _ => hstep s a h

/-- The same with an invariant `I` that the allowed steps keep. -/
theorem allowed_iff_of_invariant {J : σ → Prop} (hs : I s) (hJ : J s)
    (hstep : ∀ s a, I s → J s → (J (step s a) ↔ ok s a) ∧ (ok s a → I (step s a))) :
    Allowed step ok s as ↔ ∀ pre, pre <+: as → J (run step s pre) := by
  have hiff := @allowed_iff σ α step ok (fun s => I s ∧ J s) s as ⟨hs, hJ⟩
    fun s a h => by
      obtain ⟨hok, hkeep⟩ := hstep s a h.1 h.2
      exact ⟨fun h' => hok.mp h'.2, fun h' => ⟨hkeep h', hok.mpr h'⟩⟩
  rw [hiff]
  refine ⟨fun h pre hpre => (h pre hpre).2, fun h pre hpre => ⟨?_, h pre hpre⟩⟩
  -- the last step of a prefix keeps `J`, so it is allowed
  induction pre using List.reverseRecOn with
  | nil => exact hs
  | append_singleton pre a ih =>
    have hpre' : pre <+: as := (List.prefix_append pre [a]).trans hpre
    obtain ⟨hok, hkeep⟩ := hstep (run step s pre) a (ih hpre') (h pre hpre')
    have hrun : run step s (pre ++ [a]) = step (run step s pre) a := by
      rw [run_append]
      rfl
    rw [hrun]
    exact hkeep (hok.mp (hrun ▸ h _ hpre))

/-- Where a step reaches what is wanted exactly if it was there before and the step is allowed, a run does so
exactly if all its steps are allowed. -/
theorem run_iff_allowed {J : σ → Prop} (hs : I s) (hkeep : ∀ s a, I s → I (step s a))
    (hstep : ∀ s a, I s → (J (step s a) ↔ J s ∧ ok s a)) :
    J (run step s as) ↔ J s ∧ Allowed step ok s as := by
  induction as generalizing s with
  | nil => simp [run, Allowed]
  | cons a as ih =>
    change J (run step (step s a) as) ↔ J s ∧ ok s a ∧ Allowed step ok (step s a) as
    rw [ih (hkeep s a hs), hstep s a hs, and_assoc]

/-! ## Relational steps -/

/-- From `s` to `s'` by a step of `R` for each of `as`; `out` is their output. -/
inductive Trace {ω : Type} (R : σ → α → List ω → σ → Prop) : σ → List α → List ω → σ → Prop
  | nil (s : σ) : Trace R s [] [] s
  | cons {s s' s'' : σ} {a : α} {as : List α} {out outs : List ω} :
      R s a out s' → Trace R s' as outs s'' → Trace R s (a :: as) (out ++ outs) s''

variable {ω : Type} {R : σ → α → List ω → σ → Prop} {s' s'' : σ} {a : α} {out outs : List ω}

theorem Trace.of_nil (h : Trace R s [] outs s') : outs = [] ∧ s' = s := by
  cases h
  exact ⟨rfl, rfl⟩

theorem Trace.of_cons (h : Trace R s (a :: as) outs s'') :
    ∃ out rest s', R s a out s' ∧ Trace R s' as rest s'' ∧ outs = out ++ rest := by
  cases h with
  | cons hr h => exact ⟨_, _, _, hr, h, rfl⟩

theorem Trace.of_singleton (h : Trace R s [a] outs s') : R s a outs s' := by
  obtain ⟨out, rest, s1, hr, hnil, rfl⟩ := h.of_cons
  obtain ⟨rfl, rfl⟩ := hnil.of_nil
  rwa [List.append_nil]

theorem Trace.singleton (h : R s a outs s') : Trace R s [a] outs s' := by
  simpa using Trace.cons h (Trace.nil s')

theorem Trace.snoc (h : Trace R s as outs s') (hr : R s' a out s'') :
    Trace R s (as ++ [a]) (outs ++ out) s'' := by
  induction h with
  | nil s => simpa using Trace.cons hr (Trace.nil s'')
  | cons hs _ ih =>
    rw [List.append_assoc]
    exact Trace.cons hs (ih hr)

/-- A relation between the states of two systems that every step keeps, with the same output. -/
theorem Trace.map {τ : Type} {Q : τ → α → List ω → τ → Prop} {I : σ → τ → Prop}
    (hstep : ∀ s t a out s', I s t → R s a out s' → ∃ t', Q t a out t' ∧ I s' t')
    (h : Trace R s as outs s') {t : τ} (ht : I s t) : ∃ t', Trace Q t as outs t' ∧ I s' t' := by
  induction h generalizing t with
  | nil s => exact ⟨t, .nil t, ht⟩
  | cons hs _ ih =>
    obtain ⟨u, hu, hI⟩ := hstep _ _ _ _ _ ht hs
    obtain ⟨t', ht', hI'⟩ := ih hI
    exact ⟨t', .cons hu ht', hI'⟩

end AllCamera.Run
