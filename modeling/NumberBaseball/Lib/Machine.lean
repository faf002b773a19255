import Mathlib.Logic.Basic

/-!
# `Lib.Machine` — fallible event machines, their runs and the rules for them

A **machine** has initial states, an admission condition on events and a step function that either
returns the next state or a fault. Nothing here knows what a state, an event or a fault is: the file
is the proof kit every whole-run statement of the development is assembled from.

## Contents
- **Runs and reachability.** `Run`/`Reachable`, the invariant rule and the refinement rule.
- **Admitted executions.** `tryRun` computes the end of a run, where admission can be decided.
- **Restriction.** `restrict P` admits only the events that meet `P` in the state they arrive in; a
  statement about "every run whose steps all meet a condition" is one about a restricted machine.
- **History.** `track` carries a value computed from the past next to the state, so that a statement
  about what happened earlier in a run becomes an invariant of pairs.
- **Two runs.** `Run.lockstep` keeps a relation between two runs over the same events, and
  `Run.filtered` between a run and the same run with the events a predicate selects left out.
- **Observations.** `trace` lists what an observer sees of a run; `Run.trace_invariant` relates it to the
  state, and `Run.simulates` reads it as a run of a second machine.
- **Progress.** `Leads.drain` finds a run that uses up what is left; `Run.count_invariant` relates the state
  to how often something has happened.
-/

/-! ## `Except` plumbing (definitional; used to execute handlers symbolically) -/

namespace Except
variable {ε α β : Type}

@[simp] theorem ok_bind (a : α) (f : α → Except ε β) : (Except.ok a >>= f) = f a := rfl

@[simp] theorem error_bind (x : ε) (f : α → Except ε β) :
    ((Except.error x : Except ε α) >>= f) = .error x := rfl

/-- A `bind` that succeeds has succeeded at both of its parts. -/
theorem bind_eq_ok {x : Except ε α} {f : α → Except ε β} {b : β} :
    (x >>= f) = .ok b ↔ ∃ a, x = .ok a ∧ f a = .ok b := by
  cases x with
  | error e => simp
  | ok a => simp

/-- A step that cannot fail adds no failure to what comes before it. -/
theorem fails_bind_ok_iff {x : Except ε α} {g : α → β} :
    (∃ e, (x >>= fun a => Except.ok (g a)) = .error e) ↔ ∃ e, x = .error e := by
  cases x with
  | ok a => exact ⟨nofun, nofun⟩
  | error e => exact ⟨fun _ => ⟨e, rfl⟩, fun _ => ⟨e, rfl⟩⟩

/-- The fault a computation ends with, if it does. -/
def fault? : Except ε α → Option ε
  | .ok _    => none
  | .error e => some e

theorem fault?_eq_some {x : Except ε α} {e : ε} : x.fault? = some e ↔ x = .error e := by
  cases x <;> simp [fault?]

/-- `x` refines `y`: it may fail where `y` does not, but what it returns `y` returns, too. -/
def Refines (x y : Except ε α) : Prop := ∀ a, x = .ok a → y = .ok a

namespace Refines

protected theorem refl (x : Except ε α) : x.Refines x := fun _ h => h

theorem error {e : ε} (y : Except ε α) : (Except.error e).Refines y := fun _ h => nomatch h

protected theorem bind {x y : Except ε α} {f g : α → Except ε β} (h : x.Refines y)
    (hfg : ∀ a, (f a).Refines (g a)) : (x >>= f).Refines (y >>= g) := by
  intro b hb
  obtain ⟨a, ha, hb⟩ := bind_eq_ok.mp hb
  exact bind_eq_ok.mpr ⟨a, h a ha, hfg a b hb⟩

end Refines

end Except

/-- A machine over states `σ` and events `ε`, whose steps can fail with a fault `φ`. -/
structure Machine (σ ε φ : Type) where
  init    : σ → Prop
  allowed : σ → ε → Prop
  step    : σ → ε → Except φ σ

namespace Machine

variable {σ ε φ γ : Type} (M : Machine σ ε φ)

/-! ## Runs and reachable states -/

/-- `Run s es t`: from `s`, each event of `es` is admitted and succeeds in turn, ending in `t`. -/
inductive Run : σ → List ε → σ → Prop
  | nil {s} : Run s [] s
  | cons {s s' t e es} : M.allowed s e → M.step s e = .ok s' → Run s' es t → Run s (e :: es) t

/-- The states some run from an initial state visits. -/
inductive Reachable : σ → Prop
  | init {s} : M.init s → Reachable s
  | step {s e s'} : Reachable s → M.allowed s e → M.step s e = .ok s' → Reachable s'

/-- Execute a list of events, whether or not they are admitted; the first fault ends it. -/
def exec (s : σ) : List ε → Except φ σ
  | []      => .ok s
  | e :: es => M.step s e >>= fun s' => exec s' es

variable {M}

/-- A run over `es ++ fs` passes through a state between the two. -/
theorem Run.split {s u : σ} {es fs : List ε} (h : M.Run s (es ++ fs) u) :
    ∃ t, M.Run s es t ∧ M.Run t fs u := by
  induction es generalizing s with
  | nil => exact ⟨s, .nil, h⟩
  | cons e es ih =>
      cases h with
      | cons ha hs hr =>
          obtain ⟨t, h1, h2⟩ := ih hr
          exact ⟨t, .cons ha hs h1, h2⟩

theorem Reachable.run {s t : σ} {es : List ε} (hs : M.Reachable s) (h : M.Run s es t) :
    M.Reachable t := by
  induction h with
  | nil => exact hs
  | cons ha hst _ ih => exact ih (.step hs ha hst)

/-! ## Admitted executions -/

variable (M) in
/-- Execute a list of events, stopping at the first one that is not admitted or faults. -/
def tryRun [∀ s e, Decidable (M.allowed s e)] : σ → List ε → Option σ
  | s, []      => some s
  | s, e :: es =>
      if M.allowed s e then
        match M.step s e with
        | .ok s'   => tryRun s' es
        | .error _ => none
      else none

section
variable [∀ s e, Decidable (M.allowed s e)]

theorem Run.of_tryRun {es : List ε} {t : σ} : ∀ {s : σ}, M.tryRun s es = some t → M.Run s es t := by
  induction es with
  | nil =>
      rintro s h
      obtain rfl := Option.some.inj h
      exact .nil
  | cons e es ih =>
      intro s h
      -- the first event was admitted and has succeeded, or there would be no end
      simp only [tryRun] at h
      split at h
      · next ha =>
          split at h
          · next s' hs => exact .cons ha hs (ih h)
          · cases h
      · cases h

/-- What an admitted execution computes, the end of some run has. -/
theorem Run.exists_view {s : σ} (es : List ε) {β : Type} (view : σ → β) {b : β}
    (h : (M.tryRun s es).map view = some b) : ∃ t, M.Run s es t ∧ view t = b := by
  obtain ⟨t, ht, hb⟩ := Option.map_eq_some_iff.mp h
  exact ⟨t, .of_tryRun ht, hb⟩

/-- The same of the last step of an admitted execution, seen from both of its states. -/
theorem Run.exists_step_view {s : σ} (es : List ε) (e : ε) {β : Type} (view : σ → σ → β) {b : β}
    (h : ((M.tryRun s es).bind fun t => (M.tryRun t [e]).map (view t)) = some b) :
    ∃ t t', M.Run s es t ∧ M.allowed t e ∧ M.step t e = .ok t' ∧ view t t' = b := by
  obtain ⟨t, ht, h⟩ := Option.bind_eq_some_iff.mp h
  obtain ⟨t', hrun, hb⟩ := Run.exists_view [e] (view t) h
  cases hrun with
  | cons ha hs hnil =>
      cases hnil
      exact ⟨t, t', .of_tryRun ht, ha, hs, hb⟩

end

/-! ## The invariant rules -/

/-- **The invariant rule.** What holds initially and survives every admitted step holds of every
    reachable state; the step may assume that its state is reachable. -/
theorem Reachable.invariant {I : σ → Prop} (hinit : ∀ s, M.init s → I s)
    (hstep : ∀ s e s', M.Reachable s → I s → M.allowed s e → M.step s e = .ok s' → I s')
    {s : σ} (h : M.Reachable s) : I s := by
  induction h with
  | init hi => exact hinit _ hi
  | step hr ha hs ih => exact hstep _ _ _ hr ih ha hs

/-- The same rule along one run from a state where the invariant holds. -/
theorem Run.invariant {I : σ → Prop}
    (hstep : ∀ s e s', I s → M.allowed s e → M.step s e = .ok s' → I s')
    {s t : σ} {es : List ε} (h : M.Run s es t) (hs : I s) : I t := by
  induction h with
  | nil => exact hs
  | cons ha hst _ ih => exact ih (hstep _ _ _ hs ha hst)

/-- **The refinement rule.** A machine that starts in fewer states, admits fewer events, and whose steps
    refine another's reaches no more states. -/
theorem Reachable.of_refines {N : Machine σ ε φ} (hinit : ∀ s, M.init s → N.init s)
    (hallowed : ∀ s e, M.allowed s e → N.allowed s e)
    (hstep : ∀ s e, (M.step s e).Refines (N.step s e)) {s : σ} (h : M.Reachable s) :
    N.Reachable s := by
  induction h with
  | init hi => exact .init (hinit _ hi)
  | step _ ha hs ih => exact .step ih (hallowed _ _ ha) (hstep _ _ _ hs)

/-- What the steps of a run refine is run through, too. -/
theorem Run.of_refines {N : Machine σ ε φ} (hallowed : ∀ s e, M.allowed s e → N.allowed s e)
    (hstep : ∀ s e, (M.step s e).Refines (N.step s e)) {s t : σ} {es : List ε}
    (h : M.Run s es t) : N.Run s es t := by
  induction h with
  | nil => exact .nil
  | cons ha hs _ ih => exact .cons (hallowed _ _ ha) (hstep _ _ _ hs) ih

/-! ## Restriction -/

variable (M) in
/-- `M` with only those events admitted that also meet `P` in the state they arrive in. -/
def restrict (P : σ → ε → Prop) : Machine σ ε φ where
  init      := M.init
  allowed s e := M.allowed s e ∧ P s e
  step      := M.step

instance {P : σ → ε → Prop} [h : ∀ s e, Decidable (M.allowed s e)] [h' : ∀ s e, Decidable (P s e)]
    (s : σ) (e : ε) : Decidable ((M.restrict P).allowed s e) :=
  @instDecidableAnd _ _ (h s e) (h' s e)

theorem Reachable.of_restrict {P : σ → ε → Prop} {s : σ} (h : (M.restrict P).Reachable s) :
    M.Reachable s := by
  induction h with
  | init hi => exact .init hi
  | step _ ha hs ih => exact .step ih ha.1 hs

theorem Run.of_restrict {P : σ → ε → Prop} {s t : σ} {es : List ε}
    (h : (M.restrict P).Run s es t) : M.Run s es t := by
  induction h with
  | nil => exact .nil
  | cons ha hs _ ih => exact .cons ha.1 hs ih

/-! ## History -/

variable (M) in
/-- `M` paired with a value that starts at `g₀` and that `upd` computes anew at every step, from the
    state before, the event, the state after and the old value. The value never feeds back into `M`. -/
def track (g₀ : σ → γ) (upd : σ → ε → σ → γ → γ) : Machine (σ × γ) ε φ where
  init p      := M.init p.1 ∧ p.2 = g₀ p.1
  allowed p e := M.allowed p.1 e
  step p e    := M.step p.1 e >>= fun s' => .ok (s', upd p.1 e s' p.2)

variable {g₀ : σ → γ} {upd : σ → ε → σ → γ → γ}

instance [h : ∀ s e, Decidable (M.allowed s e)] (p : σ × γ) (e : ε) :
    Decidable ((M.track g₀ upd).allowed p e) := h p.1 e

theorem track_step_ok {p q : σ × γ} {e : ε} :
    (M.track g₀ upd).step p e = .ok q ↔ M.step p.1 e = .ok q.1 ∧ q.2 = upd p.1 e q.1 p.2 := by
  show (M.step p.1 e >>= fun s' => Except.ok (s', upd p.1 e s' p.2)) = .ok q ↔ _
  rw [Except.bind_eq_ok]
  constructor
  · rintro ⟨s', hs, hq⟩
    injection hq with hq
    subst hq
    exact ⟨hs, rfl⟩
  · rintro ⟨hs, hq⟩
    exact ⟨q.1, hs, by rw [← hq]⟩

/-- A run has a history. -/
theorem Run.track {s t : σ} {es : List ε} (h : M.Run s es t) :
    ∀ g : γ, ∃ g', (M.track g₀ upd).Run (s, g) es (t, g') := by
  induction h with
  | nil => exact fun g => ⟨g, .nil⟩
  | @cons s s' t e es ha hs _ ih =>
      intro g
      obtain ⟨g', hrun⟩ := ih (upd s e s' g)
      have hstep : (M.track g₀ upd).step (s, g) e = .ok (s', upd s e s' g) :=
        track_step_ok.mpr ⟨hs, rfl⟩
      exact ⟨g', .cons ha hstep hrun⟩

/-- Forgetting the history leaves a reachable state. -/
theorem Reachable.of_track {p : σ × γ} (h : (M.track g₀ upd).Reachable p) : M.Reachable p.1 := by
  induction h with
  | init hi => exact .init hi.1
  | step _ ha hs ih => exact .step ih ha (track_step_ok.mp hs).1

/-- **The history rule.** An invariant of state and history together, from a step that may assume the
    state reachable. -/
theorem Reachable.track_invariant {I : σ → γ → Prop} (hinit : ∀ s, M.init s → I s (g₀ s))
    (hstep : ∀ s g e s', M.Reachable s → I s g → M.allowed s e → M.step s e = .ok s' →
      I s' (upd s e s' g))
    {s : σ} {g : γ} (h : (M.track g₀ upd).Reachable (s, g)) : I s g := by
  -- the invariant rule, for the machine of pairs
  refine Reachable.invariant (M := M.track g₀ upd) (I := fun p => I p.1 p.2) ?_ ?_ h
  · rintro p ⟨hi, hg⟩
    rw [hg]
    exact hinit p.1 hi
  · intro p e q hr hI ha hs
    obtain ⟨hs, hq⟩ := track_step_ok.mp hs
    rw [hq]
    exact hstep p.1 p.2 e q.1 hr.of_track hI ha hs

/-! ## Two runs -/

variable (M) in
/-- `C` holds, of the two states and the event, at every step of the executions of `es` from `s` and
    from `t`. -/
def Along (C : σ → σ → ε → Prop) : σ → σ → List ε → Prop
  | _, _, []      => True
  | s, t, e :: es =>
      C s t e ∧ ∀ s' t', M.step s e = .ok s' → M.step t e = .ok t' → Along C s' t' es

/-- **The lockstep rule.** A relation that every step preserves, as long as `C` holds of it, relates
    the ends of two runs over the same events; the second run exists because the first does. -/
theorem Run.lockstep {R : σ → σ → Prop} {C : σ → σ → ε → Prop}
    (hstep : ∀ s t e s', R s t → C s t e → M.allowed s e → M.step s e = .ok s' →
      ∃ t', M.allowed t e ∧ M.step t e = .ok t' ∧ R s' t')
    {s s' : σ} {es : List ε} (h : M.Run s es s') :
    ∀ {t : σ}, R s t → M.Along C s t es → ∃ t', M.Run t es t' ∧ R s' t' := by
  induction h with
  | nil => exact fun {t} hR _ => ⟨t, .nil, hR⟩
  | cons ha hs _ ih =>
      intro t hR hC
      -- the second run answers the step; the condition passes on to the states it leads to
      obtain ⟨t1, ha1, hs1, hR1⟩ := hstep _ _ _ _ hR hC.1 ha hs
      obtain ⟨t', hr, hR'⟩ := ih hR1 (hC.2 _ _ hs hs1)
      exact ⟨t', .cons ha1 hs1 hr, hR'⟩

/-- The condition on a pair of executions passes to their prefixes. -/
theorem Along.of_append {C : σ → σ → ε → Prop} {es fs : List ε} :
    ∀ {s t : σ}, M.Along C s t (es ++ fs) → M.Along C s t es := by
  induction es with
  | nil => exact fun _ => trivial
  | cons e es ih => exact fun h => ⟨h.1, fun s' t' hs ht => ih (h.2 s' t' hs ht)⟩

variable (M) in
/-- The events of `es` that `noise` does not select in the state they arrive in, along the execution
    of the *whole* list from `s`. -/
def filtered (noise : σ → ε → Bool) : σ → List ε → List ε
  | _, []      => []
  | s, e :: es =>
      match M.step s e with
      | .ok s'   => if noise s e then filtered noise s' es else e :: filtered noise s' es
      | .error _ => []

/-- **The filter rule.** If a selected event never leaves the class of the state it arrives in, and
    every other event respects the classes, a run and the same run without its selected events end in
    one class. -/
theorem Run.filtered {R : σ → σ → Prop} {noise : σ → ε → Bool}
    (hskip : ∀ s t e s', R s t → M.allowed s e → noise s e = true → M.step s e = .ok s' → R s' t)
    (hkeep : ∀ s t e s', R s t → M.allowed s e → noise s e = false → M.step s e = .ok s' →
      ∃ t', M.allowed t e ∧ M.step t e = .ok t' ∧ R s' t')
    {s s' : σ} {es : List ε} (h : M.Run s es s') :
    ∀ {t : σ}, R s t → ∃ t', M.Run t (M.filtered noise s es) t' ∧ R s' t' := by
  induction h with
  | nil => exact fun {t} hR => ⟨t, .nil, hR⟩
  | @cons s s1 s' e es ha hs _ ih =>
      intro t hR
      simp only [Machine.filtered, hs]
      by_cases hn : noise s e = true
      · -- left out: the other run stands still
        rw [if_pos hn]
        exact ih (hskip _ _ _ _ hR ha hn hs)
      · -- kept: the other run follows
        rw [if_neg hn]
        obtain ⟨t1, ha1, hs1, hR1⟩ := hkeep _ _ _ _ hR ha (by simpa using hn) hs
        obtain ⟨t', hr, hR'⟩ := ih hR1
        exact ⟨t', .cons ha1 hs1 hr, hR'⟩

/-! ## Composing runs -/

theorem Run.append {s t u : σ} {es fs : List ε} (h : M.Run s es t) (h' : M.Run t fs u) :
    M.Run s (es ++ fs) u := by
  induction h with
  | nil => exact h'
  | cons ha hs _ ih => exact .cons ha hs (ih h')

theorem Run.single {s t : σ} {e : ε} (ha : M.allowed s e) (hs : M.step s e = .ok t) :
    M.Run s [e] t := .cons ha hs .nil

/-- A state that is reached is the end of a run from an initial one. -/
theorem Reachable.exists_run {s : σ} (h : M.Reachable s) : ∃ s₀ es, M.init s₀ ∧ M.Run s₀ es s := by
  induction h with
  | @init s hi => exact ⟨s, [], hi, .nil⟩
  | step _ ha hs ih =>
      obtain ⟨s₀, es, hi, hrun⟩ := ih
      exact ⟨s₀, es ++ [_], hi, hrun.append (.single ha hs)⟩

variable (M) in
/-- Some run leads from `s` to `t`. -/
def Leads (s t : σ) : Prop := ∃ es, M.Run s es t

theorem Leads.refl (s : σ) : M.Leads s s := ⟨[], .nil⟩

theorem Leads.trans {s t u : σ} (h : M.Leads s t) (h' : M.Leads t u) : M.Leads s u := by
  obtain ⟨es, h⟩ := h
  obtain ⟨fs, h'⟩ := h'
  exact ⟨es ++ fs, h.append h'⟩

/-- **The draining rule.** If from every state with something left, some step leaves less and keeps what is
    known of the state, then some run leaves nothing. -/
theorem Leads.drain (I : σ → Prop) (left : σ → Nat)
    (hstep : ∀ s, I s → 0 < left s →
      ∃ e s', M.allowed s e ∧ M.step s e = .ok s' ∧ I s' ∧ left s' < left s) :
    ∀ s, I s → ∃ t, M.Leads s t ∧ I t ∧ left t = 0 := by
  intro s hI
  induction h : left s using Nat.strongRecOn generalizing s with
  | ind k ih =>
      by_cases hk : left s = 0
      · exact ⟨s, .refl s, hI, hk⟩
      · obtain ⟨e, s', ha, hs, hI', hlt⟩ := hstep s hI (Nat.pos_of_ne_zero hk)
        obtain ⟨t, hlead, ht⟩ := ih (left s') (h ▸ hlt) s' hI' rfl
        exact ⟨t, .trans ⟨[e], .single ha hs⟩ hlead, ht⟩

/-! ## Observations -/

variable (M) in
/-- What `obs` sees of the execution of a list of events from `s`, step by step. -/
def trace {β : Type} (obs : σ → ε → Option β) : σ → List ε → List β
  | _, []      => []
  | s, e :: es =>
      match M.step s e with
      | .ok s'   => (obs s e).toList ++ trace obs s' es
      | .error _ => []

/-- **The observation rule.** A relation between the state and what has been seen so far that every step
    keeps, holds at the end of a run of what has been seen of it. -/
theorem Run.trace_invariant {β : Type} {obs : σ → ε → Option β} {I : σ → List β → Prop}
    (hstep : ∀ s e s' l, I s l → M.allowed s e → M.step s e = .ok s' → I s' (l ++ (obs s e).toList))
    {s t : σ} {es : List ε} (h : M.Run s es t) :
    ∀ {l : List β}, I s l → I t (l ++ M.trace obs s es) := by
  induction h with
  | nil =>
      intro l hl
      rw [trace, List.append_nil]
      exact hl
  | cons ha hs _ ih =>
      intro l hl
      simp only [trace, hs]
      rw [← List.append_assoc]
      exact ih (hstep _ _ _ _ hl ha hs)

/-- What `f` makes of what has been seen can be seen at once. -/
theorem trace_filterMap {β δ : Type} {obs : σ → ε → Option β} (f : β → Option δ) (es : List ε) (s : σ) :
    (M.trace obs s es).filterMap f = M.trace (fun s e => (obs s e).bind f) s es := by
  have hone : ∀ o : Option β, o.toList.filterMap f = (o.bind f).toList := by
    intro o
    cases o with
    | none => rfl
    | some b => cases hb : f b <;> simp [hb]
  induction es generalizing s with
  | nil => rfl
  | cons e es ih =>
      simp only [trace]
      cases M.step s e with
      | error => rfl
      | ok s' => simp [hone, ih]

/-- Whoever sees less sees it in the same order. -/
theorem trace_sublist {β : Type} {obs obs' : σ → ε → Option β}
    (h : ∀ s e b, obs s e = some b → obs' s e = some b) (es : List ε) (s : σ) :
    (M.trace obs s es).Sublist (M.trace obs' s es) := by
  induction es generalizing s with
  | nil => exact .refl _
  | cons e es ih =>
      simp only [trace]
      cases M.step s e with
      | error => exact .refl _
      | ok s' =>
          refine .append ?_ (ih s')
          cases ho : obs s e with
          | none => simp
          | some b => simp [h s e b ho]

/-- **The simulation rule.** If every step either is not seen and leaves the image of the state alone, or
    is seen as a step of `N` between the images, then what is seen of a run is a run of `N`. -/
theorem Run.simulates {τ δ ψ : Type} {N : Machine τ δ ψ} {f : σ → τ} {obs : σ → ε → Option δ}
    {I : σ → Prop} (hI : ∀ s e s', I s → M.allowed s e → M.step s e = .ok s' → I s')
    (hunseen : ∀ s e s', I s → M.allowed s e → M.step s e = .ok s' → obs s e = none → f s' = f s)
    (hseen : ∀ s e s' d, I s → M.allowed s e → M.step s e = .ok s' → obs s e = some d →
      N.allowed (f s) d ∧ N.step (f s) d = .ok (f s'))
    {s t : σ} {es : List ε} (h : M.Run s es t) (hs : I s) :
    N.Run (f s) (M.trace obs s es) (f t) := by
  induction h with
  | nil => exact .nil
  | @cons s s' _ e _ ha hst _ ih =>
      have ih := ih (hI _ _ _ hs ha hst)
      simp only [trace, hst]
      cases ho : obs s e with
      | none =>
          rw [hunseen _ _ _ hs ha hst ho] at ih
          exact ih
      | some d =>
          obtain ⟨ha', hst'⟩ := hseen _ _ _ _ hs ha hst ho
          exact .cons ha' hst' ih

/-! ## Counting -/

/-- **The counting rule.** A relation between the state and how often something has happened, kept by every
    step, holds at the end of a run of how often it has happened in the run. -/
theorem Run.count_invariant {I : σ → Nat → Prop} {hit : ε → Bool}
    (hstep : ∀ s e s' k, I s k → M.allowed s e → M.step s e = .ok s' →
      I s' (k + if hit e then 1 else 0))
    {s t : σ} {es : List ε} (h : M.Run s es t) : ∀ {k : Nat}, I s k → I t (k + es.countP hit) := by
  induction h with
  | nil => exact fun hk => hk
  | cons ha hst _ ih =>
      intro k hk
      have hend := ih (hstep _ _ _ k hk ha hst)
      rwa [Nat.add_right_comm, Nat.add_assoc, ← List.countP_cons] at hend

end Machine
