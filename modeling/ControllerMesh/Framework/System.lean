import Mathlib.Data.List.Basic

/-!
# Guarded transition systems

A system is an initial state and a guarded step function: `step s e` is the
state after event `e`, or `none` where `e` is not enabled in `s`. A run is a
list of events (`run`).

* `runFrom_append_eq_some`: a run in two parts.
* `runFrom_becomes`: the step in which a property of the state comes about.
* `runFrom_invariant`: what every allowed step preserves holds after every
  run of allowed events.
* `runFrom_history`: the same for what is said of a state together with the
  events that have led to it.
* `runFrom_bounded`: a measure that every step takes something off bounds the
  length of a run.
* `runFrom_refines`: an abstraction whose steps keep a property carries it
  over to the runs of the system.
* `States`, `Steps`: a property of every state a run goes through, and of
  every step it takes. `states_iff_steps` turns a per-step equivalence into
  one over whole runs: if a step from a good state leads to a good state
  exactly when it meets `ok`, then all states of a run are good exactly when
  all its steps meet `ok`.
* `runFrom_invariant_of_steps`: the same as `runFrom_invariant`, for the runs all
  of whose steps meet a condition.
* `Steps.at`, `steps_of_checkSteps`, `steps_of_forall`: one step of a run, a
  test of all of them, and what holds of any step.
* `steps_congr`, `states_congr`: properties of a step, or of a state, that
  agree under an invariant agree on every run.
* `runFrom_simulates`: the runs of two systems that take the same events.
* `Reaches`: some run leads from a state to another.
-/

namespace CtrlMesh.Framework

/-- An initial state and a guarded step function. -/
structure System (σ ε : Type) where
  init : σ
  step : σ → ε → Option σ

namespace System

variable {σ ε : Type} (M : System σ ε)

/-- The state after the events, or `none` if one of them was not enabled. -/
def runFrom : σ → List ε → Option σ
  | s, [] => some s
  | s, e :: es => (M.step s e).bind fun s' => runFrom s' es

/-- A run from the initial state. -/
def run (es : List ε) : Option σ := M.runFrom M.init es

@[simp] theorem runFrom_nil (s : σ) : M.runFrom s [] = some s := rfl

theorem runFrom_cons_eq_some {s s' : σ} {e : ε} {es : List ε} :
    M.runFrom s (e :: es) = some s' ↔ ∃ s₁, M.step s e = some s₁ ∧ M.runFrom s₁ es = some s' := by
  simp only [runFrom, Option.bind_eq_some_iff]

theorem runFrom_append_eq_some {s s' : σ} {es fs : List ε} :
    M.runFrom s (es ++ fs) = some s' ↔
      ∃ s₁, M.runFrom s es = some s₁ ∧ M.runFrom s₁ fs = some s' := by
  induction es generalizing s with
  | nil => simp
  | cons e es ih =>
    simp only [List.cons_append, runFrom_cons_eq_some, ih]
    constructor
    · rintro ⟨s₁, h₁, s₂, h₂, h₃⟩
      exact ⟨s₂, ⟨s₁, h₁, h₂⟩, h₃⟩
    · rintro ⟨s₂, ⟨s₁, h₁, h₂⟩, h₃⟩
      exact ⟨s₁, h₁, s₂, h₂, h₃⟩

/-- What holds after a run and not before it comes about in a step of the run. -/
theorem runFrom_becomes {P : σ → Prop} {s s' : σ} {es : List ε} (h : M.runFrom s es = some s')
    (h₀ : ¬P s) (hP : P s') :
    ∃ es₁ e es₂ s₁ s₂, es = es₁ ++ e :: es₂ ∧ M.runFrom s es₁ = some s₁ ∧
      M.step s₁ e = some s₂ ∧ ¬P s₁ ∧ P s₂ := by
  induction es generalizing s with
  | nil =>
    simp only [runFrom_nil, Option.some.injEq] at h
    exact absurd (h ▸ hP) h₀
  | cons e es ih =>
    obtain ⟨s₁, h₁, h₂⟩ := M.runFrom_cons_eq_some.mp h
    by_cases hP₁ : P s₁
    · exact ⟨[], e, es, s, s₁, rfl, rfl, h₁, h₀, hP₁⟩
    · obtain ⟨es₁, e', es₂, s₂, s₃, rfl, hrun, hstep, hn, hp⟩ := ih h₂ hP₁
      exact ⟨e :: es₁, e', es₂, s₂, s₃, rfl, M.runFrom_cons_eq_some.mpr ⟨s₁, h₁, hrun⟩, hstep, hn, hp⟩

/-! ## Invariants -/

/-- What every step keeps of the events so far and the state holds after every run. -/
theorem runFrom_history {I : List ε → σ → Prop}
    (hstep : ∀ {es s e s'}, I es s → M.step s e = some s' → I (es ++ [e]) s')
    {es₀ es : List ε} {s s' : σ} (hs : I es₀ s) (h : M.runFrom s es = some s') :
    I (es₀ ++ es) s' := by
  induction es generalizing es₀ s with
  | nil =>
    simp only [runFrom_nil, Option.some.injEq] at h
    rw [List.append_nil]
    exact h ▸ hs
  | cons e es ih =>
    obtain ⟨s₁, h₁, h₂⟩ := M.runFrom_cons_eq_some.mp h
    rw [List.append_cons]
    exact ih (hstep hs h₁) h₂

/-- What every step of an allowed event preserves holds after every run of
allowed events. -/
theorem runFrom_invariant {I : σ → Prop} {allowed : ε → Prop}
    (hstep : ∀ {s e s'}, allowed e → I s → M.step s e = some s' → I s')
    {es : List ε} (hes : ∀ e ∈ es, allowed e) {s s' : σ} (hs : I s)
    (h : M.runFrom s es = some s') : I s' := by
  induction es generalizing s with
  | nil =>
    simp only [runFrom_nil, Option.some.injEq] at h
    exact h ▸ hs
  | cons e es ih =>
    obtain ⟨s₁, h₁, h₂⟩ := M.runFrom_cons_eq_some.mp h
    exact ih (fun e he => hes e (List.mem_cons_of_mem _ he))
      (hstep (hes e List.mem_cons_self) hs h₁) h₂

/-- What a step relation on abstract states keeps is kept along `abs` by every
run of a system whose steps it allows. The concrete invariant `I` may be used
to find the abstract step. -/
theorem runFrom_refines {α : Type} {I : σ → Prop} {allowed : ε → Prop} {abs : σ → α}
    {Next : α → α → Prop} {P : α → Prop} (hP : ∀ {a a'}, P a → Next a a' → P a')
    (hI : ∀ {s e s'}, allowed e → I s → M.step s e = some s' → I s')
    (habs : ∀ {s e s'}, allowed e → I s → P (abs s) → M.step s e = some s' → Next (abs s) (abs s'))
    {es : List ε} (hes : ∀ e ∈ es, allowed e) {s s' : σ} (hs : I s) (h₀ : P (abs s))
    (h : M.runFrom s es = some s') : I s' ∧ P (abs s') :=
  M.runFrom_invariant (I := fun s => I s ∧ P (abs s))
    (fun he hs hstep => ⟨hI he hs.1 hstep, hP hs.2 (habs he hs.1 hs.2 hstep)⟩) hes ⟨hs, h₀⟩ h

/-! ## All states and all steps of a run -/

/-- Every state the run goes through satisfies `P`. -/
def States (P : σ → Prop) : σ → List ε → Prop
  | s, [] => P s
  | s, e :: es => P s ∧ ∀ s', M.step s e = some s' → States P s' es

/-- Every step the run takes satisfies `ok`, a property of the state before
the step and the event. -/
def Steps (ok : σ → ε → Prop) : σ → List ε → Prop
  | _, [] => True
  | s, e :: es => ok s e ∧ ∀ s', M.step s e = some s' → Steps ok s' es

/-- What every step that meets `ok` preserves holds after every run of such steps. -/
theorem runFrom_invariant_of_steps {I : σ → Prop} {allowed : ε → Prop} {ok : σ → ε → Prop}
    (hstep : ∀ {s e s'}, allowed e → I s → ok s e → M.step s e = some s' → I s')
    {es : List ε} (hes : ∀ e ∈ es, allowed e) {s s' : σ} (hs : I s) (hok : M.Steps ok s es)
    (h : M.runFrom s es = some s') : I s' := by
  induction es generalizing s with
  | nil =>
    simp only [runFrom_nil, Option.some.injEq] at h
    exact h ▸ hs
  | cons e es ih =>
    obtain ⟨s₁, h₁, h₂⟩ := M.runFrom_cons_eq_some.mp h
    exact ih (fun e he => hes e (List.mem_cons_of_mem _ he))
      (hstep (hes e List.mem_cons_self) hs hok.1 h₁) (hok.2 s₁ h₁) h₂

/-- What holds of every step of a run holds of each one. -/
theorem Steps.at {ok : σ → ε → Prop} {es fs : List ε} {e : ε} {s s₁ : σ}
    (h : M.Steps ok s (es ++ e :: fs)) (hes : M.runFrom s es = some s₁) : ok s₁ e := by
  induction es generalizing s with
  | nil =>
    simp only [runFrom_nil, Option.some.injEq] at hes
    exact hes ▸ h.1
  | cons e' es ih =>
    obtain ⟨s₂, h₂, hes'⟩ := M.runFrom_cons_eq_some.mp hes
    exact ih (h.2 s₂ h₂) hes'

/-- A test of every step of a run. -/
def checkSteps (test : σ → ε → Bool) : σ → List ε → Bool
  | _, [] => true
  | s, e :: es =>
    test s e && match M.step s e with
      | none => true
      | some s' => checkSteps test s' es

theorem steps_of_checkSteps (test : σ → ε → Bool) {ok : σ → ε → Prop}
    (hok : ∀ {s e}, test s e = true → ok s e) {s : σ} {es : List ε}
    (h : M.checkSteps test s es = true) : M.Steps ok s es := by
  induction es generalizing s with
  | nil => trivial
  | cons e es ih =>
    simp only [checkSteps, Bool.and_eq_true] at h
    refine ⟨hok h.1, fun s' hs' => ih ?_⟩
    simpa only [hs'] using h.2

theorem steps_of_forall {ok : σ → ε → Prop} (hok : ∀ s e, ok s e) (s : σ) (es : List ε) :
    M.Steps ok s es := by
  induction es generalizing s with
  | nil => trivial
  | cons e es ih => exact ⟨hok s e, fun s' _ => ih s'⟩

/-- The states of a run are those its prefixes lead to. -/
theorem states_iff {P : σ → Prop} {s : σ} {es : List ε} :
    M.States P s es ↔ ∀ pre, pre <+: es → ∀ s', M.runFrom s pre = some s' → P s' := by
  induction es generalizing s with
  | nil =>
    simp only [States, List.prefix_nil]
    constructor
    · rintro h pre rfl s' hs'
      simp only [runFrom_nil, Option.some.injEq] at hs'
      exact hs' ▸ h
    · exact fun h => h [] rfl s rfl
  | cons e es ih =>
    simp only [States, ih]
    constructor
    · rintro ⟨h₀, h₁⟩ pre hpre s' hs'
      cases pre with
      | nil =>
        simp only [runFrom_nil, Option.some.injEq] at hs'
        exact hs' ▸ h₀
      | cons e' pre =>
        obtain ⟨rfl, hpre'⟩ := List.cons_prefix_cons.mp hpre
        obtain ⟨s₁, h₂, h₃⟩ := M.runFrom_cons_eq_some.mp hs'
        exact h₁ s₁ h₂ pre hpre' s' h₃
    · intro h
      refine ⟨h [] List.nil_prefix s rfl, fun s₁ h₁ pre hpre s' hs' => ?_⟩
      exact h (e :: pre) (List.cons_prefix_cons.mpr ⟨rfl, hpre⟩) s'
        (M.runFrom_cons_eq_some.mpr ⟨s₁, h₁, hs'⟩)

/-- If a step from a state of the invariant `I` that satisfies `P` leads to a
state that satisfies `P` exactly when it meets `ok`, then all states of a run
satisfy `P` exactly when all its steps meet `ok`. -/
theorem states_iff_steps {I P : σ → Prop} {allowed : ε → Prop} {ok : σ → ε → Prop}
    (hI : ∀ {s e s'}, allowed e → I s → M.step s e = some s' → I s')
    (hP : ∀ {s e s'}, I s → P s → M.step s e = some s' → (P s' ↔ ok s e))
    {s s' : σ} {es : List ε} (hes : ∀ e ∈ es, allowed e) (hs : I s) (h₀ : P s)
    (h : M.runFrom s es = some s') : M.States P s es ↔ M.Steps ok s es := by
  induction es generalizing s with
  | nil => simp [States, Steps, h₀]
  | cons e es ih =>
    obtain ⟨s₁, h₁, h₂⟩ := M.runFrom_cons_eq_some.mp h
    have hI₁ := hI (hes e List.mem_cons_self) hs h₁
    have hes' := fun e' he' => hes e' (List.mem_cons_of_mem e he')
    have hcase := hP hs h₀ h₁
    simp only [States, Steps, h₀, true_and]
    constructor
    · intro hst
      have hst₁ := hst s₁ h₁
      have hp₁ : P s₁ := (M.states_iff.mp hst₁) [] List.nil_prefix s₁ rfl
      refine ⟨hcase.mp hp₁, fun s₂ hs₂ => ?_⟩
      obtain rfl : s₁ = s₂ := Option.some.inj (h₁.symm.trans hs₂)
      exact (ih hes' hI₁ hp₁ h₂).mp hst₁
    · rintro ⟨hok, hst⟩ s₂ hs₂
      obtain rfl : s₁ = s₂ := Option.some.inj (h₁.symm.trans hs₂)
      exact (ih hes' hI₁ (hcase.mpr hok) h₂).mpr (hst s₁ h₁)

/-- Two properties of a step that agree on the steps from states of an invariant
agree on every run. -/
theorem steps_congr {I : σ → Prop} {allowed : ε → Prop} {ok ok' : σ → ε → Prop}
    (hI : ∀ {s e s'}, allowed e → I s → M.step s e = some s' → I s')
    (hok : ∀ {s e s'}, allowed e → I s → M.step s e = some s' → (ok s e ↔ ok' s e))
    {s s' : σ} {es : List ε} (hes : ∀ e ∈ es, allowed e) (hs : I s)
    (h : M.runFrom s es = some s') : M.Steps ok s es ↔ M.Steps ok' s es := by
  induction es generalizing s with
  | nil => simp [Steps]
  | cons e es ih =>
    obtain ⟨s₁, h₁, h₂⟩ := M.runFrom_cons_eq_some.mp h
    have ih₁ := ih (fun e' he' => hes e' (List.mem_cons_of_mem e he'))
      (hI (hes e List.mem_cons_self) hs h₁) h₂
    simp only [Steps, hok (hes e List.mem_cons_self) hs h₁, h₁, Option.some.injEq, forall_eq', ih₁]

/-- Two properties of a state that agree under an invariant agree on all
states of every run. -/
theorem states_congr {I P P' : σ → Prop} {allowed : ε → Prop}
    (hI : ∀ {s e s'}, allowed e → I s → M.step s e = some s' → I s')
    (hP : ∀ {s}, I s → (P s ↔ P' s))
    {s s' : σ} {es : List ε} (hes : ∀ e ∈ es, allowed e) (hs : I s)
    (h : M.runFrom s es = some s') : M.States P s es ↔ M.States P' s es := by
  induction es generalizing s with
  | nil => exact hP hs
  | cons e es ih =>
    obtain ⟨s₁, h₁, h₂⟩ := M.runFrom_cons_eq_some.mp h
    have ih₁ := ih (fun e' he' => hes e' (List.mem_cons_of_mem e he'))
      (hI (hes e List.mem_cons_self) hs h₁) h₂
    simp only [States, hP hs, h₁, Option.some.injEq, forall_eq', ih₁]

/-! ## Two systems -/

/-- A relation that all steps of a run keep, with the same events of another system,
relates the states in which the runs of the two end. -/
theorem runFrom_simulates {τ : Type} (N : System τ ε) {R : σ → τ → Prop} {I : σ → Prop}
    {allowed : ε → Prop} {ok : σ → ε → Prop}
    (hI : ∀ {s e s'}, allowed e → I s → M.step s e = some s' → I s')
    (hR : ∀ {s e s' t}, allowed e → I s → ok s e → R s t → M.step s e = some s' →
      ∃ t', N.step t e = some t' ∧ R s' t')
    {s s' : σ} {t : τ} {es : List ε} (hes : ∀ e ∈ es, allowed e) (hs : I s)
    (hok : M.Steps ok s es) (hst : R s t) (h : M.runFrom s es = some s') :
    ∃ t', N.runFrom t es = some t' ∧ R s' t' := by
  induction es generalizing s t with
  | nil =>
    simp only [runFrom_nil, Option.some.injEq] at h
    exact ⟨t, rfl, h ▸ hst⟩
  | cons e es ih =>
    obtain ⟨s₁, h₁, h₂⟩ := M.runFrom_cons_eq_some.mp h
    have he := hes e List.mem_cons_self
    obtain ⟨t₁, ht₁, hst₁⟩ := hR he hs hok.1 hst h₁
    obtain ⟨t', ht', hst'⟩ := ih (fun e' he' => hes e' (List.mem_cons_of_mem e he'))
      (hI he hs h₁) (hok.2 s₁ h₁) hst₁ h₂
    exact ⟨t', N.runFrom_cons_eq_some.mpr ⟨t₁, ht₁, ht'⟩, hst'⟩

/-! ## Reachability -/

/-- Some run from `s` ends in `s'`. -/
def Reaches (s s' : σ) : Prop := ∃ es, M.runFrom s es = some s'

variable {M}

theorem Reaches.refl (s : σ) : M.Reaches s s := ⟨[], rfl⟩

theorem Reaches.head {s s₁ s' : σ} {e : ε} (hs : M.step s e = some s₁) (h : M.Reaches s₁ s') :
    M.Reaches s s' := by
  obtain ⟨es, hes⟩ := h
  exact ⟨e :: es, M.runFrom_cons_eq_some.mpr ⟨s₁, hs, hes⟩⟩

theorem Reaches.trans {s s₁ s' : σ} (h₁ : M.Reaches s s₁) (h₂ : M.Reaches s₁ s') :
    M.Reaches s s' := by
  obtain ⟨es, hes⟩ := h₁
  induction es generalizing s with
  | nil =>
    rw [runFrom_nil, Option.some.injEq] at hes
    exact hes ▸ h₂
  | cons e es ih =>
    obtain ⟨s₂, hs, hes⟩ := M.runFrom_cons_eq_some.mp hes
    exact .head hs (ih hes)

end System

end CtrlMesh.Framework
