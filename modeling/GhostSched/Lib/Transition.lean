import Mathlib.Data.List.Induction
import Mathlib.Logic.Relation

/-!
# Runs and reachability

Two ways a program takes step after step, each with its induction rule.

* `run step` feeds a list of inputs to a partial step function and collects
  the outputs. `run_induction` proves a property of the inputs read so far and
  the state reached; `run_simulation` compares the runs of two step functions
  on the same inputs.
* `Steps step` relates a state to the states that some sequence of labels can
  reach from it, so with labels owned by several parties it covers every
  interleaving of them. `Steps.invariant` is the invariant rule, and `exec`
  follows one given sequence of labels. `StepsWhen` is the same for steps that
  meet a condition, such as what the environment guarantees.
-/

namespace Transition

variable {σ τ ι ο : Type*}

/-! ## Deterministic runs -/

/-- Feed a list of inputs to a partial step function. -/
def run (step : σ → ι → Option (σ × ο)) : σ → List ι → Option (σ × List ο)
  | s, [] => some (s, [])
  | s, a :: as =>
    match step s a with
    | none => none
    | some (s', o) =>
      match run step s' as with
      | none => none
      | some (s'', os) => some (s'', o :: os)

section Run

variable {step : σ → ι → Option (σ × ο)} {s s' : σ} {as : List ι} {os : List ο}

/-- A run is its first step followed by a run. -/
theorem run_cons {a : ι} : run step s (a :: as) = some (s', os) ↔
      ∃ t o os', step s a = some (t, o) ∧ run step t as = some (s', os') ∧ os = o :: os' := by
  constructor
  · intro h
    simp only [run] at h
    split at h
    · cases h
    · rename_i t o ht
      split at h
      · cases h
      · rename_i u os' hu
        obtain ⟨rfl, rfl⟩ : u = s' ∧ o :: os' = os := by simpa using h
        exact ⟨t, o, os', ht, hu, rfl⟩
  · rintro ⟨t, o, os', ht, hu, rfl⟩
    simp only [run, ht, hu]

/-- A run is a run followed by its last step. -/
theorem run_concat {a : ι} : run step s (as ++ [a]) = some (s', os) ↔
      ∃ t os' o, run step s as = some (t, os') ∧ step t a = some (s', o) ∧ os = os' ++ [o] := by
  induction as generalizing s os with
  | nil =>
    rw [List.nil_append, run_cons]
    constructor
    · rintro ⟨t, o, os', ht, hu, rfl⟩
      obtain ⟨rfl, rfl⟩ : t = s' ∧ [] = os' := by simpa [run] using hu
      exact ⟨s, [], o, rfl, ht, rfl⟩
    · rintro ⟨t, os', o, ht, hu, rfl⟩
      obtain ⟨rfl, rfl⟩ : s = t ∧ [] = os' := by simpa [run] using ht
      exact ⟨s', o, [], hu, rfl, rfl⟩
  | cons b as ih =>
    rw [List.cons_append, run_cons]
    constructor
    · rintro ⟨t, o, os', ht, hu, rfl⟩
      obtain ⟨u, os'', o', hu', hstep, rfl⟩ := ih.mp hu
      exact ⟨u, o :: os'', o', run_cons.mpr ⟨t, o, os'', ht, hu', rfl⟩, hstep, rfl⟩
    · rintro ⟨u, os'', o', hu', hstep, rfl⟩
      obtain ⟨t, o, os', ht, hu, rfl⟩ := run_cons.mp hu'
      exact ⟨t, o, os' ++ [o'], ht, ih.mpr ⟨u, os', o', hu, hstep, rfl⟩, rfl⟩

/-- Induction over a run, last step last. -/
theorem run_induction {P : List ι → σ → List ο → Prop} (hnil : P [] s [])
    (hstep : ∀ as t os a t' o, run step s as = some (t, os) → P as t os →
      step t a = some (t', o) → P (as ++ [a]) t' (os ++ [o]))
    (h : run step s as = some (s', os)) : P as s' os := by
  induction as using List.reverseRecOn generalizing s' os with
  | nil =>
    obtain ⟨rfl, rfl⟩ : s = s' ∧ [] = os := by simpa [run] using h
    exact hnil
  | append_singleton as a ih =>
    obtain ⟨t, os', o, ht, hs, rfl⟩ := run_concat.mp h
    exact hstep as t os' a s' o ht (ih ht) hs

/-- Two machines in step give the same outputs on the same inputs. -/
theorem run_simulation {step' : τ → ι → Option (τ × ο)} {R : σ → τ → Prop} {t : τ}
    (hstep : ∀ s t a s' o, R s t → step s a = some (s', o) →
      ∃ t', step' t a = some (t', o) ∧ R s' t')
    (hR : R s t) (h : run step s as = some (s', os)) :
    ∃ t', run step' t as = some (t', os) ∧ R s' t' := by
  induction as generalizing s t os with
  | nil =>
    obtain ⟨rfl, rfl⟩ : s = s' ∧ [] = os := by simpa [run] using h
    exact ⟨t, rfl, hR⟩
  | cons a as ih =>
    obtain ⟨u, o, os', hu, hrun, rfl⟩ := run_cons.mp h
    obtain ⟨v, hv, hR'⟩ := hstep s t a u o hR hu
    obtain ⟨t', ht', hR''⟩ := ih hR' hrun
    exact ⟨t', run_cons.mpr ⟨v, o, os', hv, ht', rfl⟩, hR''⟩

end Run

/-! ## Reachability -/

/-- Some sequence of labels leads from one state to the other. -/
def Steps (step : σ → ι → Option σ) : σ → σ → Prop :=
  Relation.ReflTransGen fun s s' => ∃ a, step s a = some s'

/-- Follow one sequence of labels. -/
def exec (step : σ → ι → Option σ) : σ → List ι → Option σ
  | s, [] => some s
  | s, a :: as => (step s a).bind fun s' => exec step s' as

section Steps

variable {step : σ → ι → Option σ} {s s' : σ}

theorem Steps.refl : Steps step s s := Relation.ReflTransGen.refl

/-- What every step preserves holds in every state reached. -/
theorem Steps.invariant {P : σ → Prop} (h : Steps step s s')
    (hstep : ∀ s a s', P s → step s a = some s' → P s') (hs : P s) : P s' := by
  induction h with
  | refl => exact hs
  | tail _ hlast ih =>
    rcases hlast with ⟨a, ha⟩
    exact hstep _ a _ ih ha

/-- Following a sequence of labels is one way to get to a state. -/
theorem Steps.of_exec {as : List ι} (h : exec step s as = some s') : Steps step s s' := by
  induction as generalizing s with
  | nil =>
    have hs : s = s' := by simpa [exec] using h
    rw [hs]
    exact Steps.refl
  | cons a as ih =>
    rcases Option.bind_eq_some_iff.mp h with ⟨t, ht, hrest⟩
    exact Relation.ReflTransGen.head ⟨a, ht⟩ (ih hrest)

end Steps

/-! ## Reachability under a condition -/

/-- Some sequence of labels leads from one state to the other, and every step
meets the condition. -/
def StepsWhen (ok : σ → ι → Prop) (step : σ → ι → Option σ) : σ → σ → Prop :=
  Relation.ReflTransGen fun s s' => ∃ a, ok s a ∧ step s a = some s'

/-- Follow one sequence of labels as long as every step passes a check. -/
def execWhen (check : σ → ι → Bool) (step : σ → ι → Option σ) : σ → List ι → Option σ
  | s, [] => some s
  | s, a :: as => if check s a then (step s a).bind fun s' => execWhen check step s' as else none

section StepsWhen

variable {ok : σ → ι → Prop} {step : σ → ι → Option σ} {s s' : σ}

theorem StepsWhen.refl : StepsWhen ok step s s := Relation.ReflTransGen.refl

theorem StepsWhen.head {a : ι} {t : σ} (hok : ok s a) (hstep : step s a = some t)
    (h : StepsWhen ok step t s') : StepsWhen ok step s s' :=
  Relation.ReflTransGen.head ⟨a, hok, hstep⟩ h

/-- What every such step preserves holds in every state reached. -/
theorem StepsWhen.invariant {P : σ → Prop} (h : StepsWhen ok step s s')
    (hstep : ∀ s a s', P s → ok s a → step s a = some s' → P s') (hs : P s) : P s' := by
  induction h with
  | refl => exact hs
  | tail _ hlast ih =>
    rcases hlast with ⟨a, hok, ha⟩
    exact hstep _ a _ ih hok ha

theorem StepsWhen.trans {s'' : σ} (h : StepsWhen ok step s s') (h' : StepsWhen ok step s' s'') :
    StepsWhen ok step s s'' :=
  Relation.ReflTransGen.trans h h'

/-- A sequence of labels whose steps all pass a check. -/
theorem StepsWhen.of_execWhen {check : σ → ι → Bool} (hok : ∀ s a, check s a = true → ok s a)
    (as : List ι) (h : execWhen check step s as = some s') : StepsWhen ok step s s' := by
  induction as generalizing s with
  | nil =>
    have hs : s = s' := by simpa [execWhen] using h
    rw [hs]
    exact StepsWhen.refl
  | cons a as ih =>
    rcases Option.ite_none_right_eq_some.mp h with ⟨hc, hb⟩
    rcases Option.bind_eq_some_iff.mp hb with ⟨t, ht, hrest⟩
    exact StepsWhen.head (hok s a hc) ht (ih hrest)

end StepsWhen

end Transition
