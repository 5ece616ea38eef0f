import Mathlib.Data.Nat.Notation
import Mathlib.Logic.Function.Basic

/-!
# The kernel's side of a thread

What the kernel does with the threads of an enclave, and the message it sends
for it. A scheduler sees nothing but these messages, so the sequences of
messages that `step` allows are the ones it has to cope with.

* `Phase` is what a thread is doing, with the cpu it does it on.
* `step` is one event of a thread, with the message that reports it. Every
  message increments the barrier of its thread and carries the new value.
* `latch` is what a scheduler asks for when it picks a thread.
* `step_cases` says what a step can be; the schedulers are verified against it.
-/

namespace Kernel

open Function

/-- What a thread is doing. -/
inductive Phase (C : Type*) where
  /-- Not in ghost. -/
  | absent
  | blocked
  | runnable
  /-- The scheduler picked it for a cpu, but it does not run yet. -/
  | latched (cpu : C)
  /-- It runs; the flag says that it got there by a switchto. -/
  | running (cpu : C) (fromSwitchto : Bool)
  deriving DecidableEq

structure Task (C : Type*) where
  phase : Phase C
  /-- A thread that was preempted stays on its cpu until the next one runs. -/
  onCpu : Bool
  barrier : ℕ

/-- A thread that never was in ghost. -/
def Task.absent (C : Type*) : Task C := ⟨.absent, false, 0⟩

/-- The messages about a thread, with the parts of the payload that matter. -/
inductive Msg (C I : Type*) where
  | new (info : I) (runnable : Bool)
  | onCpu (cpu : C)
  | blocked (cpu : C) (fromSwitchto : Bool)
  | wakeup
  | preempt (cpu : C) (fromSwitchto : Bool)
  | yield (cpu : C) (fromSwitchto : Bool)
  | switchto (cpu : C)
  | affinityChanged
  | prioChanged
  | dead
  /-- With the cpu and `from_switchto` if `was_current` is set. -/
  | departed (current : Option (C × Bool))

/-- What happens to a thread. -/
inductive Event (G I : Type*) where
  /-- It enters ghost with a new status word. -/
  | enter (info : I) (barrier : ℕ) (runnable : Bool)
  | getOnCpu
  | block
  | wakeup
  | preempt
  | yield
  | switchto (target : G)
  | changeAffinity
  | changePrio
  | die
  | depart
  /-- It does not run any more and is now off its cpu. -/
  | leaveCpu

variable {G C I : Type*} [DecidableEq G]

/-- A thread goes to a phase and the scheduler is told. -/
def send (k : G → Task C) (g : G) (phase : Phase C) (msg : Msg C I) :
    (G → Task C) × Option (Msg C I) :=
  (update k g { k g with phase := phase, barrier := (k g).barrier + 1 }, some msg)

/-- A thread on a cpu hands it to a blocked one. -/
def switch (k : G → Task C) (g target : G) (cpu : C) : G → Task C :=
  update (update k g { k g with phase := .blocked }) target
    { k target with phase := .running cpu true, onCpu := true }

/-- One event of a thread, with the message that is sent for it. `report` says
whether the scheduler asked for `TASK_ON_CPU`. -/
def step (report : Bool) (k : G → Task C) (g : G) :
    Event G I → Option ((G → Task C) × Option (Msg C I))
  | .enter info barrier runnable =>
    match (k g).phase with
    | .absent =>
      some (update k g ⟨if runnable then .runnable else .blocked, (k g).onCpu, barrier⟩,
        some (.new info runnable))
    | _ => none
  | .getOnCpu =>
    match (k g).phase with
    | .latched c =>
      if report then
        some (update k g ⟨.running c false, true, (k g).barrier + 1⟩, some (.onCpu c))
      else some (update k g ⟨.running c false, true, (k g).barrier⟩, none)
    | _ => none
  | .block =>
    match (k g).phase with
    | .running c sw => some (send k g .blocked (.blocked c sw))
    | _ => none
  | .wakeup =>
    match (k g).phase with
    | .blocked => some (send k g .runnable .wakeup)
    | _ => none
  | .preempt =>
    match (k g).phase with
    | .running c sw => some (send k g .runnable (.preempt c sw))
    | .latched c => some (send k g .runnable (.preempt c false))
    | _ => none
  | .yield =>
    match (k g).phase with
    | .running c sw => some (send k g .runnable (.yield c sw))
    | _ => none
  | .switchto target =>
    match (k g).phase, (k target).phase with
    | .running c sw, .blocked =>
      if target ≠ g ∧ (k target).onCpu = false then
        -- only the start of a chain has a message
        if sw then some (switch k g target c, none)
        else
          let k' := update k g { k g with barrier := (k g).barrier + 1 }
          some (switch k' g target c, some (.switchto c))
      else none
    | _, _ => none
  | .changeAffinity =>
    match (k g).phase with
    | .absent => none
    | phase => some (send k g phase .affinityChanged)
  | .changePrio =>
    match (k g).phase with
    | .absent => none
    | phase => some (send k g phase .prioChanged)
  | .die =>
    -- a thread that exits blocks for the last time first
    match (k g).phase with
    | .blocked => some (send k g .absent .dead)
    | _ => none
  | .depart =>
    -- a latched thread is preempted first
    match (k g).phase with
    | .running c sw => some (send k g .absent (.departed (some (c, sw))))
    | .runnable | .blocked => some (send k g .absent (.departed none))
    | _ => none
  | .leaveCpu =>
    match (k g).phase with
    | .running _ _ => none
    | _ => some (update k g { k g with onCpu := false }, none)

/-- The scheduler commits a thread to a cpu. -/
def latch (k : G → Task C) (g : G) (cpu : C) (barrier : ℕ) : Option (G → Task C) :=
  match (k g).phase with
  | .runnable =>
    if (k g).onCpu = false ∧ (k g).barrier = barrier then
      some (update k g { k g with phase := .latched cpu })
    else none
  | _ => none

variable {k k' : G → Task C} {g : G}

theorem latch_eq_some {cpu : C} {barrier : ℕ} (h : latch k g cpu barrier = some k') :
    (k g).phase = .runnable ∧ (k g).barrier = barrier ∧
      k' = update k g { k g with phase := .latched cpu } := by
  unfold latch at h
  split at h
  · rcases Option.ite_none_right_eq_some.mp h with ⟨⟨-, hb⟩, hk⟩
    exact ⟨‹_›, hb, (Option.some.inj hk).symm⟩
  · cases h

/-! ## What a step can be -/

/-- The messages about one thread, with its state before and after. The start of
a switchto chain is not among them, since it moves two threads. -/
inductive Sends (t : Task C) : Msg C I → Task C → Prop where
  | new (info : I) (barrier : ℕ) (runnable : Bool) : t.phase = .absent →
    Sends t (.new info runnable) ⟨if runnable then .runnable else .blocked, t.onCpu, barrier⟩
  | onCpu (c : C) : t.phase = .latched c →
    Sends t (.onCpu c) ⟨.running c false, true, t.barrier + 1⟩
  | blocked (c : C) (sw : Bool) : t.phase = .running c sw →
    Sends t (.blocked c sw) ⟨.blocked, t.onCpu, t.barrier + 1⟩
  | wakeup : t.phase = .blocked → Sends t .wakeup ⟨.runnable, t.onCpu, t.barrier + 1⟩
  | preempt (c : C) (sw : Bool) : t.phase = .running c sw →
    Sends t (.preempt c sw) ⟨.runnable, t.onCpu, t.barrier + 1⟩
  | unlatch (c : C) : t.phase = .latched c →
    Sends t (.preempt c false) ⟨.runnable, t.onCpu, t.barrier + 1⟩
  | yield (c : C) (sw : Bool) : t.phase = .running c sw →
    Sends t (.yield c sw) ⟨.runnable, t.onCpu, t.barrier + 1⟩
  | affinityChanged : t.phase ≠ .absent →
    Sends t .affinityChanged ⟨t.phase, t.onCpu, t.barrier + 1⟩
  | prioChanged : t.phase ≠ .absent → Sends t .prioChanged ⟨t.phase, t.onCpu, t.barrier + 1⟩
  | dead : t.phase = .blocked → Sends t .dead ⟨.absent, t.onCpu, t.barrier + 1⟩
  | departed (c : C) (sw : Bool) : t.phase = .running c sw →
    Sends t (.departed (some (c, sw))) ⟨.absent, t.onCpu, t.barrier + 1⟩
  | left : t.phase = .runnable ∨ t.phase = .blocked →
    Sends t (.departed none) ⟨.absent, t.onCpu, t.barrier + 1⟩

/-- What a step can be. -/
inductive Step (report : Bool) (k : G → Task C) (g : G) :
    (G → Task C) → Option (Msg C I) → Prop where
  | sends (msg : Msg C I) (t : Task C) : Sends (k g) msg t →
    Step report k g (update k g t) (some msg)
  | getOnCpu (c : C) : report = false → (k g).phase = .latched c →
    Step report k g (update k g ⟨.running c false, true, (k g).barrier⟩) none
  /-- The start of a switchto chain. -/
  | start (target : G) (c : C) : (k g).phase = .running c false → target ≠ g →
    (k target).phase = .blocked →
    Step report k g (switch (update k g { k g with barrier := (k g).barrier + 1 }) g target c)
      (some (.switchto c))
  /-- A later switchto of a chain. -/
  | next (target : G) (c : C) : (k g).phase = .running c true → target ≠ g →
    (k target).phase = .blocked → Step report k g (switch k g target c) none
  | leaveCpu : (∀ c sw, (k g).phase ≠ .running c sw) →
    Step report k g (update k g { k g with onCpu := false }) none

/-- What a step can be that is not a switchto. -/
inductive OwnStep (report : Bool) (k : G → Task C) (g : G) :
    (G → Task C) → Option (Msg C I) → Prop where
  | sends (msg : Msg C I) (t : Task C) : Sends (k g) msg t →
    OwnStep report k g (update k g t) (some msg)
  | getOnCpu (c : C) : report = false → (k g).phase = .latched c →
    OwnStep report k g (update k g ⟨.running c false, true, (k g).barrier⟩) none
  | leaveCpu : (∀ c sw, (k g).phase ≠ .running c sw) →
    OwnStep report k g (update k g { k g with onCpu := false }) none

variable {msg : Option (Msg C I)} {e : Event G I} {report : Bool}

theorem ownStep_cases (h : step report k g e = some (k', msg))
    (he : ∀ target, e ≠ .switchto target) : OwnStep report k g k' msg := by
  -- an event that the state of the thread does not allow is no step
  cases e with (simp only [step, send] at h; split at h <;> try cases h)
  | enter info barrier runnable => exact .sends _ _ (.new info barrier runnable ‹_›)
  | getOnCpu =>
    rename_i c hp
    split at h <;> cases h
    · exact .sends _ _ (.onCpu c hp)
    · rename_i hr
      exact .getOnCpu c (Bool.not_eq_true _ ▸ hr) hp
  | block => exact .sends _ _ (.blocked _ _ ‹_›)
  | wakeup => exact .sends _ _ (.wakeup ‹_›)
  | preempt =>
    first
    | exact .sends _ _ (.preempt _ _ ‹_›)
    | exact .sends _ _ (.unlatch _ ‹_›)
  | yield => exact .sends _ _ (.yield _ _ ‹_›)
  | switchto target => exact absurd rfl (he target)
  | changeAffinity => exact .sends _ _ (.affinityChanged ‹_›)
  | changePrio => exact .sends _ _ (.prioChanged ‹_›)
  | die => exact .sends _ _ (.dead ‹_›)
  | depart =>
    first
    | exact .sends _ _ (.departed _ _ ‹_›)
    | exact .sends _ _ (.left (.inl ‹_›))
    | exact .sends _ _ (.left (.inr ‹_›))
  | leaveCpu =>
    rename_i hp
    exact .leaveCpu hp

theorem step_cases (h : step report k g e = some (k', msg)) : Step report k g k' msg := by
  by_cases he : ∃ target, e = .switchto target
  · rcases he with ⟨target, rfl⟩
    simp only [step] at h
    split at h
    · rename_i c sw hp hb
      rcases Option.ite_none_right_eq_some.mp h with ⟨⟨hne, -⟩, h⟩
      cases sw with
      | true =>
        cases h
        exact .next target c hp hne hb
      | false =>
        cases h
        exact .start target c hp hne hb
    · cases h
  · cases ownStep_cases h (not_exists.mp he) with
    | sends m t hs => exact .sends m t hs
    | getOnCpu c hr hp => exact .getOnCpu c hr hp
    | leaveCpu hp => exact .leaveCpu hp

/-! ## Steps without a message about the thread -/

section Switch

variable {k : G → Task C} {g target : G} {cpu : C}

theorem switch_target :
    switch k g target cpu target = { k target with phase := .running cpu true, onCpu := true } :=
  update_self ..

theorem switch_self (hne : target ≠ g) : switch k g target cpu g = { k g with phase := .blocked } :=
  (update_of_ne hne.symm ..).trans (update_self ..)

theorem switch_of_ne {g' : G} (hg : g' ≠ g) (ht : g' ≠ target) : switch k g target cpu g' = k g' :=
  (update_of_ne ht ..).trans (update_of_ne hg ..)

end Switch

/-- A thread neither enters nor leaves ghost, and whether it waits does not change. -/
structure Quiet (t t' : Task C) : Prop where
  absent : t'.phase = .absent ↔ t.phase = .absent
  runnable : t'.phase = .runnable ↔ t.phase = .runnable
  barrier : t.phase = .runnable → t'.barrier = t.barrier

theorem Quiet.refl (t : Task C) : Quiet t t :=
  ⟨Iff.rfl, Iff.rfl, fun _ => rfl⟩

/-- A thread in ghost that is and stays not runnable. -/
theorem Quiet.of_ne {t t' : Task C} (h : t.phase ≠ .absent ∧ t.phase ≠ .runnable)
    (h' : t'.phase ≠ .absent ∧ t'.phase ≠ .runnable) : Quiet t t' :=
  ⟨iff_of_false h'.1 h.1, iff_of_false h'.2 h.2, fun hr => absurd hr h.2⟩

/-- A thread on a cpu hands it to a blocked one. -/
theorem Quiet.switch {target : G} {c : C} {sw : Bool} (hself : (k' g).phase = .running c sw)
    (hothers : ∀ g' ≠ g, k' g' = k g') (hp : (k g).phase = .running c sw) (hne : target ≠ g)
    (ht : (k target).phase = .blocked) (g' : G) : Quiet (k g') (switch k' g target c g') := by
  by_cases htarget : g' = target
  · subst htarget
    rw [switch_target]
    exact .of_ne (by rw [ht]; exact ⟨nofun, nofun⟩) ⟨nofun, nofun⟩
  · by_cases hg : g' = g
    · subst hg
      rw [switch_self hne]
      exact .of_ne (by rw [hp]; exact ⟨nofun, nofun⟩) ⟨nofun, nofun⟩
    · rw [switch_of_ne hg htarget, hothers g' hg]
      exact .refl _

/-- A step is a message about one thread, or it is quiet and at most the start of
a switchto chain is reported. -/
theorem Step.sends_or_quiet (h : Step report k g k' msg) :
    (∃ m t, Sends (k g) m t ∧ msg = some m ∧ k' = update k g t) ∨
      ((∀ m, msg = some m → ∃ c, m = .switchto c) ∧ ∀ g', Quiet (k g') (k' g')) := by
  have hone : ∀ t, Quiet (k g) t → ∀ g', Quiet (k g') (update k g t g') := by
    intro t hq g'
    by_cases hg : g' = g
    · subst hg
      rw [update_self]
      exact hq
    · rw [update_of_ne hg]
      exact .refl _
  cases h with
  | sends m t hs => exact .inl ⟨m, t, hs, rfl, rfl⟩
  | getOnCpu c _ hp =>
    exact .inr ⟨nofun, hone _ (.of_ne (by rw [hp]; exact ⟨nofun, nofun⟩) ⟨nofun, nofun⟩)⟩
  | start target c hp hne ht =>
    have hself : (update k g { k g with barrier := (k g).barrier + 1 } g).phase =
        .running c false := by
      rw [update_self]
      exact hp
    refine .inr ⟨fun m hm => ⟨c, (Option.some.inj hm).symm⟩, ?_⟩
    exact .switch hself (fun g' hg => update_of_ne hg ..) hp hne ht
  | next target c hp hne ht =>
    exact .inr ⟨nofun, .switch hp (fun _ _ => rfl) hp hne ht⟩
  | leaveCpu hp => exact .inr ⟨nofun, hone _ ⟨Iff.rfl, Iff.rfl, fun _ => rfl⟩⟩

end Kernel
