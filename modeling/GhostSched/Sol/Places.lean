import GhostSched.Central.Places
import GhostSched.Sol.Model

/-!
# Where the SOL scheduler keeps its tasks

Each function keeps the places of the tasks, or ends with a fault. So the places do
not depend on which messages come when, nor on when transactions are committed.

* `Fits` is the place that the state of a task says. A task that the agent has
  preempted is nowhere until its message comes.
* `Settled` says that every task is there, and `Aside` that one task is nowhere,
  whatever its state says, while a function moves it.
* There is one lemma for each function. `task_located` is the result for all runs, and
  `preempted_message_handled` the one for the messages about a task that the agent has
  preempted.
-/

namespace Sol

open Central Checked Function

variable {G C : Type}

/-- The place of a task according to its state. -/
inductive Fits : Option (SolTask C) → Place C → Prop where
  | none : Fits none .out
  | blocked {t : SolTask C} : t.runState = .blocked → Fits (some t) .out
  | preemptedByAgent {t : SolTask C} : t.runState = .preemptedByAgent → Fits (some t) .out
  | queued {t : SolTask C} : t.runState = .queued → Fits (some t) .queued
  | yielding {t : SolTask C} : t.runState = .yielding → Fits (some t) .yielding
  | pending {t : SolTask C} {c : C} : t.runState = .pending → t.cpu = some c →
    Fits (some t) (.picked c)
  | onCpu {t : SolTask C} {c : C} : t.runState = .onCpu → t.cpu = some c →
    Fits (some t) (.onCpu c)

section Fits

variable {o : Option (SolTask C)} {p : Place C} {c : C} {t t' : SolTask C}

/-- A task on the runqueue says so. -/
theorem Fits.queued_iff (h : Fits o p) : p = .queued ↔ ∃ t, o = some t ∧ t.runState = .queued := by
  cases h <;> simp_all

/-- A yielding task says so. -/
theorem Fits.yielding_iff (h : Fits o p) :
    p = .yielding ↔ ∃ t, o = some t ∧ t.runState = .yielding := by
  cases h <;> simp_all

/-- A task on a cpu knows the cpu. -/
theorem Fits.onCpu_iff (h : Fits o p) :
    p = .onCpu c ↔ ∃ t, o = some t ∧ t.runState = .onCpu ∧ t.cpu = some c := by
  cases h <;> simp_all

/-- A task that was picked knows the cpu. -/
theorem Fits.picked_iff (h : Fits o p) :
    p = .picked c ↔ ∃ t, o = some t ∧ t.runState = .pending ∧ t.cpu = some c := by
  cases h <;> simp_all

/-- A blocked task is on no list and no cpu, nor is one that the agent has preempted. -/
theorem Fits.eq_out (h : Fits (some t) p)
    (ht : t.runState = .blocked ∨ t.runState = .preemptedByAgent) : p = .out := by
  cases h <;> simp_all

/-- The place depends on the state and the cpu only. -/
theorem Fits.congr (h : Fits (some t) p) (hstate : t'.runState = t.runState)
    (hcpu : t'.cpu = t.cpu) : Fits (some t') p := by
  cases h with
  | blocked hr => exact .blocked (hstate.trans hr)
  | preemptedByAgent hr => exact .preemptedByAgent (hstate.trans hr)
  | queued hr => exact .queued (hstate.trans hr)
  | yielding hr => exact .yielding (hstate.trans hr)
  | pending hr hc => exact .pending (hstate.trans hr) (hcpu.trans hc)
  | onCpu hr hc => exact .onCpu (hstate.trans hr) (hcpu.trans hc)

end Fits

/-! ## Invariant -/

/-- The tasks are where their states say, and the next task of a cpu has the transaction there.
While the end of a pass goes through the yielding tasks, those to come are the ones that still
yield. -/
structure SettledWith (s : State G C) (yielding : List G) : Prop where
  placed : Placed Fits s.tasks s.runQueue yielding s.current s.next
  target : ∀ c g, s.next c = some g → (s.requests c).target = some g

/-- The same without one task, which is nowhere. -/
structure AsideWith (s : State G C) (g : G) (yielding : List G) : Prop where
  lifted : Lifted g Fits s.tasks s.runQueue yielding s.current s.next
  target : ∀ c g, s.next c = some g → (s.requests c).target = some g

def Settled (s : State G C) : Prop := SettledWith s s.yieldingTasks

def Aside (s : State G C) (g : G) : Prop := AsideWith s g s.yieldingTasks

/-- Every fault ends the run. -/
def Any : Fault → Prop := fun _ => True

variable {s : State G C} {g : G} {t : SolTask C} {c : C} {l : List G}

/-- Looking up a task changes nothing. -/
theorem task_spec : Ensures Any (s.task g) fun t => s.tasks g = some t := by
  unfold State.task
  split
  · exact .ok ‹_›
  · exact .error trivial

section Moves

variable [DecidableEq G]

/-- A task that is aside may change as it likes. -/
theorem AsideWith.setTask (h : AsideWith s g l) (t : SolTask C) : AsideWith (s.setTask g t) g l :=
  ⟨h.lifted.retask _, h.target⟩

/-- Only the run state and the cpu tell where a task is. -/
theorem Settled.setTask (h : Settled s) (ht : s.tasks g = some t) {t' : SolTask C}
    (hstate : t'.runState = t.runState) (hcpu : t'.cpu = t.cpu) : Settled (s.setTask g t') :=
  ⟨h.placed.retask fun p hp => (ht ▸ hp : Fits (some t) p).congr hstate hcpu, h.target⟩

omit [DecidableEq G] in
/-- Such a task is aside already. -/
theorem Settled.aside_out (h : Settled s) (ht : s.tasks g = some t)
    (hr : t.runState = .blocked ∨ t.runState = .preemptedByAgent) : Aside s g :=
  ⟨h.placed.lift_out fun p hp => (ht ▸ hp : Fits (some t) p).eq_out hr, h.target⟩

/-- A task that is aside needs no place if it is blocked or preempted by the agent. -/
theorem Aside.settled_out (h : Aside s g)
    (hr : t.runState = .blocked ∨ t.runState = .preemptedByAgent) :
    Settled (s.setTask g t) := by
  refine ⟨(h.lifted.retask (some t)).put_out ?_, h.target⟩
  rw [update_self]
  rcases hr with hr | hr
  · exact .blocked hr
  · exact .preemptedByAgent hr

/-- A task that is aside may be freed. -/
theorem Aside.settled_freeTask (h : Aside s g) : Settled (freeTask s g) := by
  refine ⟨(h.lifted.retask none).put_out ?_, h.target⟩
  rw [update_self]
  exact .none

/-- `Enqueue` puts the task back, whatever the pass still holds. -/
theorem enqueue_specWith (h : AsideWith s g l) : Ensures Any (enqueue s g) fun s' =>
      SettledWith s' l ∧ s'.yieldingTasks = s.yieldingTasks := by
  refine .bind task_spec fun t _ => .bind (.check trivial) fun _ _ => .pure ⟨⟨?_, h.target⟩, rfl⟩
  refine (h.lifted.retask _).put_queue ?_ ?_
  · rw [update_self]
    exact .queued rfl
  · split
    · exact .refl _
    · exact List.perm_append_singleton ..

/-- `Enqueue` gives a task that is aside a place. -/
theorem enqueue_spec (h : Aside s g) : Ensures Any (enqueue s g) Settled := by
  refine (enqueue_specWith h).mono fun s' hs' => ?_
  rw [Settled, hs'.2]
  exact hs'.1

/-- `RemoveFromRunqueue` puts a queued task aside. -/
theorem removeFromRunqueue_spec (h : Settled s) :
    Ensures Any (removeFromRunqueue s g) fun s' => Aside s' g := by
  refine .bind task_spec fun t _ => .bind (.check trivial) fun _ _ =>
    .bind (.check trivial) fun _ hmem => .pure ?_
  have hperm : s.runQueue.Perm (g :: (s.runQueue.reverse.erase g).reverse) := by
    have hrev := List.perm_cons_erase (List.mem_reverse.mpr hmem)
    exact (List.reverse_perm _).symm.trans
      (hrev.trans ((List.reverse_perm (s.runQueue.reverse.erase g)).symm.cons g))
  have haside : Aside { s with runQueue := (s.runQueue.reverse.erase g).reverse } g :=
    ⟨h.placed.lift_queue hperm, h.target⟩
  exact haside.setTask _

/-- `Yield` gives a task that is aside a place. -/
theorem yield_spec (h : Aside s g) : Ensures Any (yield s g) Settled := by
  refine .bind task_spec fun t _ => .bind (.check trivial) fun _ _ => .pure ⟨?_, h.target⟩
  refine (h.lifted.retask _).put_yielding ?_ (List.perm_append_singleton ..)
  rw [update_self]
  exact .yielding rfl

/-- `Unyield` moves a task from one list to the other. -/
theorem unyield_spec (h : Settled s) : Ensures Any (unyield s g) Settled := by
  refine .bind task_spec fun t _ => .bind (.check trivial) fun _ _ =>
    .bind (.check trivial) fun _ hmem => enqueue_spec ?_
  have haside : Aside { s with yieldingTasks := s.yieldingTasks.erase g } g :=
    ⟨h.placed.lift_yielding (List.perm_cons_erase hmem), h.target⟩
  exact haside.setTask _

/-- The yielding tasks go back to the runqueue, one after the other. -/
theorem requeue_spec (h : SettledWith s l) :
    Ensures Any (requeue s l) fun s' => SettledWith s' [] := by
  induction l generalizing s with
  | nil => exact .ok h
  | cons g rest ih =>
    refine .bind task_spec fun t _ => .bind (.check trivial) fun _ _ => ?_
    have haside : AsideWith s g rest := ⟨h.placed.lift_yielding (.refl _), h.target⟩
    refine .bind (enqueue_specWith (haside.setTask { t with runState := .runnable }))
      fun s' hs' => ?_
    exact ih hs'.1

/-- A pass ends with no yielding tasks. -/
theorem endPass_spec (h : Settled s) : Ensures Any (endPass s) Settled :=
  .bind (requeue_spec h) fun _ hs' => .pure ⟨hs'.placed, hs'.target⟩

end Moves

/-! ## Cpus -/

section Cpus

variable [DecidableEq G] [DecidableEq C]

omit [DecidableEq C] in
/-- Looking up a cpu changes nothing. -/
theorem cpuStateOf_spec : Ensures Any (cpuStateOf s g) fun _ => True := by
  refine .bind task_spec fun t _ => ?_
  split
  · exact .error trivial
  · exact .bind (.check trivial) fun _ _ => .bind (.check trivial) fun _ _ => .pure trivial

section

variable (h : Settled s)
include h

/-- A task that leaves its cpu is aside. -/
theorem clearCurrent_spec : Ensures Any (clearCurrent s g) fun s' => Aside s' g := by
  refine .bind cpuStateOf_spec fun c _ => .bind (.check trivial) fun _ hc => .pure ?_
  exact ⟨h.placed.lift_current hc, h.target⟩

/-- `TaskOffCpu` puts a task aside, and its state says why. -/
theorem taskOffCpu_spec {blocked fromSwitchto : Bool} :
    Ensures Any (taskOffCpu s g blocked fromSwitchto) fun s' => Aside s' g ∧
      ∃ t, s'.tasks g = some t ∧ t.runState = if blocked then .blocked else .runnable := by
  refine .bind task_spec fun t ht => .bind (P := fun s' => Aside s' g) ?_ fun s' hs' => .pure ?_
  · split
    · exact clearCurrent_spec h
    · refine .bind (.check trivial) fun _ _ => .bind (.check trivial) fun _ hr => .pure ?_
      exact h.aside_out ht (.inl hr)
  · exact ⟨hs'.setTask _, _, update_self .., rfl⟩

/-- The next task of a cpu replaces the current one. -/
theorem replaceCurrent_spec {next : G} (hnext : s.next c = some next) :
    Ensures Any (replaceCurrent { s with next := update s.next c none } c next) Settled := by
  have hcpu : ∃ t, s.tasks next = some t ∧ t.runState = .pending ∧ t.cpu = some c :=
    (h.placed.next_some hnext).picked_iff.mp rfl
  rcases hcpu with ⟨t, ht, hr, hcpu⟩
  -- first the task that was there, if any, and then the one that comes
  refine .bind (P := fun s' => ∃ s₁, Settled s₁ ∧ s₁.next c = some next ∧ s₁.current c = none ∧
    s₁.tasks next = some t ∧ s' = { s₁ with
      next := update s₁.next c none, current := s'.current } ∧
    ∀ o, update s'.current c o = update s₁.current c o) ?_ ?_
  · split
    · rename_i hc
      exact .ok ⟨s, h, hnext, hc, ht, rfl, fun _ => rfl⟩
    · rename_i g hc
      refine .bind task_spec fun t' ht' => .bind (.check trivial) fun _ hr' => .pure ?_
      have haside : Aside { s with current := update s.current c none } g :=
        ⟨h.placed.lift_current hc, h.target⟩
      have hne : next ≠ g := by
        rintro rfl
        obtain rfl : t = t' := Option.some.inj (ht.symm.trans ht')
        exact absurd (hr.symm.trans hr') (by simp)
      refine ⟨_, haside.settled_out (t := { t' with runState := .preemptedByAgent }) (.inr rfl),
        hnext, update_self .., ?_, rfl, fun o => ?_⟩
      · exact (update_of_ne hne ..).trans ht
      · exact (update_idem ..).symm
  · rintro s' ⟨s₁, h₁, hnext₁, hcur₁, ht₁, hs', hcur⟩
    refine .bind task_spec fun t' ht' => .pure ?_
    have htasks : s'.tasks = s₁.tasks := by rw [hs']
    obtain rfl : t = t' := Option.some.inj (ht₁.symm.trans (htasks ▸ ht'))
    refine ⟨?_, ?_⟩
    · have hput := ((h₁.placed.lift_next hnext₁).retask
        (some { t with runState := .onCpu, prioBoost := false })).put_current (c := c)
        (by rw [update_self]; exact .onCpu rfl hcpu) hcur₁
      rw [← hcur, ← htasks] at hput
      rw [hs'] at hput ⊢
      exact hput
    · intro c' g' hc'
      rw [hs'] at hc' ⊢
      by_cases hcc : c' = c
      · have hnone := (update_self c none s₁.next).symm.trans (hcc ▸ hc')
        cases hnone
      · exact h₁.target c' g' ((update_of_ne hcc ..).symm.trans hc')

/-- A pending transaction that is complete decides where its task is. -/
theorem syncCpuState_spec : Ensures Any (syncCpuState s c) fun r => Settled r.1 := by
  unfold syncCpuState
  split
  · exact .error trivial
  · rename_i next hnext
    refine .bind task_spec fun t ht => .bind (.check trivial) fun _ _ =>
      .bind (.check trivial) fun _ _ => .bind (.check trivial) fun _ _ => ?_
    split
    · exact .bind (replaceCurrent_spec h hnext) fun s' hs' => .pure hs'
    · -- the transaction failed, so the task goes back to the run queue
      have haside : Aside { s with next := update s.next c none } next := by
        refine ⟨h.placed.lift_next hnext, fun c' g' hc' => ?_⟩
        grind [h.target]
      exact .bind (enqueue_spec (haside.setTask _)) fun s' hs' => .pure hs'

/-- A message about a pending task settles its transaction first. -/
theorem syncPending_spec : Ensures Any (syncPending s g) Settled := by
  refine .bind task_spec fun t _ => ?_
  split
  · exact .bind task_spec fun _ _ => .bind (.check trivial) fun _ _ =>
      .bind cpuStateOf_spec fun c _ => .bind (.check trivial) fun _ _ => .bind (.check trivial)
        fun _ _ =>
      .bind (syncCpuState_spec h) fun r hr => .bind (.check trivial) fun _ _ => .pure hr
  · exact .pure h

omit [DecidableEq G] in
/-- A transaction that is committed changes no place. -/
theorem Settled.setRequest {r : RunRequest G} (hr : r.target = (s.requests c).target) :
    Settled { s with requests := update s.requests c r } := by
  refine ⟨h.placed, fun c' g' hc' => ?_⟩
  grind [h.target]

/-- `TaskDeparted` first waits for the transaction of a pending task. -/
theorem reapPending_spec {done : Bool} : Ensures Any (reapPending s g done) Settled := by
  refine .bind task_spec fun t _ => ?_
  split
  · split
    · exact .error trivial
    · rename_i c _
      have hdone : Settled (completeRunRequest s c done) := by
        unfold completeRunRequest
        split
        · exact h
        · exact h.setRequest rfl
      exact .map (syncCpuState_spec hdone)
  · exact .pure h

end

/-! ## Messages -/

section

variable (h : Settled s)
include h

variable {seqnum : ℕ}

omit [DecidableEq C] in
/-- A new task has a place. -/
theorem taskNew_spec (ht : s.tasks g = none) {runnable : Bool} :
    Ensures Any (taskNew s g seqnum runnable) Settled := by
  have haside : Aside s g := by
    refine ⟨h.placed.lift_out fun p hp => ?_, h.target⟩
    rw [ht] at hp
    cases hp
    rfl
  refine .bind (P := Settled) ?_ fun s' hs' => .pure ⟨hs'.placed, hs'.target⟩
  split
  · exact enqueue_spec (haside.setTask _)
  · exact .ok (haside.settled_out (.inl rfl))

variable {deferrable : Bool}

omit [DecidableEq C] in
theorem taskRunnable_spec : Ensures Any (taskRunnable s g deferrable) Settled := by
  refine .bind task_spec fun t ht => .bind (.check trivial) fun _ hr => ?_
  exact enqueue_spec ((h.aside_out ht (.inl hr)).setTask _)

variable {done fromSwitchto : Bool}

/-- A task may depart from any place. -/
theorem taskDeparted_spec : Ensures Any (taskDeparted s g fromSwitchto done) Settled := by
  refine .bind (reapPending_spec h) fun s h => .bind task_spec fun t _ =>
    .bind (P := Settled) ?_ fun s h => .bind task_spec fun t ht =>
    .bind (P := fun s' => Aside s' g) ?_ fun s' hs' => .pure hs'.settled_freeTask
  · split
    · -- a yielding task goes to the run queue first
      exact unyield_spec h
    · exact .ok h
  · split
    · -- from its cpu
      exact (taskOffCpu_spec h).mono fun s' hs' => hs'.1
    · split
      · -- from the run queue
        exact removeFromRunqueue_spec h
      · -- blocked
        exact .bind (.check trivial) fun _ hr => .pure (h.aside_out ht (.inl hr))

omit [DecidableEq C] in
/-- A task dies only where it is blocked. -/
theorem taskDead_spec : Ensures Any (taskDead s g) Settled := by
  refine .bind task_spec fun t ht => .bind (.check trivial) fun _ hr => .pure ?_
  exact (h.aside_out ht (.inl hr)).settled_freeTask

theorem taskBlocked_spec : Ensures Any (taskBlocked s g fromSwitchto) Settled := by
  refine .bind (syncPending_spec h) fun s h => .bind task_spec fun t ht =>
    .bind (P := fun s' => Aside s' g) ?_ fun s' hs' => .bind task_spec fun t' _ =>
    .pure (hs'.settled_out (.inl rfl))
  split
  · -- on its cpu
    exact (taskOffCpu_spec h).mono fun s' hs' => hs'.1
  · split
    · -- preempted by the agent
      exact .ok (h.aside_out ht (.inr ‹_›))
    · -- still queued
      exact .bind (.check trivial) fun _ _ => removeFromRunqueue_spec h

theorem taskPreempted_spec : Ensures Any (taskPreempted s g fromSwitchto) Settled := by
  refine .bind (syncPending_spec h) fun s h => .bind task_spec fun t ht => ?_
  have hmarked : Settled (s.setTask g { t with preempted := true }) := h.setTask ht rfl rfl
  split
  · -- on its cpu
    exact .bind (taskOffCpu_spec hmarked) fun s' hs' => enqueue_spec hs'.1
  · split
    · -- preempted by the agent
      rename_i hr
      exact enqueue_spec ((hmarked.aside_out (update_self ..) (.inr hr)).setTask _)
    · -- still queued
      exact .bind (.check trivial) fun _ _ => .pure hmarked

theorem taskSwitchto_spec : Ensures Any (taskSwitchto s g) Settled := by
  refine .bind (syncPending_spec h) fun s h => (taskOffCpu_spec h).mono fun s' hs' => ?_
  rcases hs' with ⟨haside, t, ht, hr⟩
  -- the task keeps the state that it has got
  have hsame : s'.setTask g t = s' := by
    show { s' with tasks := update s'.tasks g (some t) } = s'
    rw [← ht, update_eq_self]
  exact hsame ▸ haside.settled_out (.inl hr)

theorem taskYield_spec : Ensures Any (taskYield s g fromSwitchto) Settled := by
  refine .bind (syncPending_spec h) fun s h => .bind task_spec fun t ht => ?_
  split
  · -- on its cpu
    exact .bind (taskOffCpu_spec h) fun s' hs' => yield_spec hs'.1
  · split
    · -- preempted by the agent
      exact enqueue_spec ((h.aside_out ht (.inr ‹_›)).setTask _)
    · -- still queued
      exact .bind (.check trivial) fun _ _ => .pure h

omit [DecidableEq C] in
/-- The sequence number says nothing about places. -/
theorem advance_spec : Ensures Any (advance s g seqnum) Settled :=
  .bind task_spec fun _ ht => .bind (.check trivial) fun _ _ => .pure (h.setTask ht rfl rfl)

/-- Every message that the agent survives leaves all tasks in their places. -/
theorem dispatchMessage_spec {msg : Kernel.Msg C Unit} :
    Ensures Any (dispatchMessage s g seqnum msg deferrable done) Settled := by
  unfold dispatchMessage
  split
  · exact taskNew_spec h ‹_›
  · -- a message about no task, or a second `TASK_NEW`
    exact .ok h
  · exact .ok h
  · exact taskDead_spec h
  · exact taskDeparted_spec h
  · exact .bind (taskRunnable_spec h) fun s' hs' => advance_spec hs'
  · exact .bind (taskBlocked_spec h) fun s' hs' => advance_spec hs'
  · exact .bind (taskPreempted_spec h) fun s' hs' => advance_spec hs'
  · exact .bind (taskYield_spec h) fun s' hs' => advance_spec hs'
  · exact .bind (taskSwitchto_spec h) fun s' hs' => advance_spec hs'
  · -- messages without a handler
    exact advance_spec h
  · exact advance_spec h
  · exact advance_spec h

end

/-! ## GlobalSchedule -/

variable {cfg : Config C} {available assigned cpus : List C}

omit [DecidableEq G] [DecidableEq C] in
/-- Where the agent is does not matter. -/
theorem Settled.setMode (h : Settled s) (mode : Mode C) : Settled { s with mode := mode } :=
  ⟨h.placed, h.target⟩

/-- The first loop of `GlobalSchedule`, for one cpu. -/
theorem reapCpu_spec (h : Settled s) {expired : Bool} :
    Ensures Any (reapCpu cfg s c cpus available expired) Settled := by
  unfold reapCpu
  split
  · exact .bind (.check trivial) fun _ _ => .bind (.check trivial) fun _ _ =>
      .bind (.check trivial) fun _ _ => .pure (h.setMode _)
  · split
    · exact .pure (h.setMode _)
    · refine .bind (P := Settled) ?_ fun s' hs' => ?_
      · split
        · exact .map (syncCpuState_spec h)
        · exact .ok h
      · split <;> exact .pure (hs'.setMode _)

/-- A task that is picked goes from the runqueue to its cpu. -/
theorem assignCpu_spec (h : Aside s g) : Ensures Any (assignCpu s g t c) Settled := by
  refine .bind (.check trivial) fun _ hnone =>
    .bind (P := fun s' => s' = { s with
      requests := update s.requests c ⟨some g, t.seqnum, .ready⟩ }) ?_ ?_
  · exact .bind (.check trivial) fun _ _ => .pure rfl
  · rintro _ rfl
    refine .pure ⟨?_, ?_⟩
    · refine (h.lifted.retask _).put_next ?_ hnone
      rw [update_self]
      split <;> exact .pending rfl rfl
    · intro c' g' hc'
      by_cases hcc : c' = c
      · subst hcc
        have hg : some g = some g' := (update_self c' (some g) s.next).symm.trans hc'
        show (update s.requests c' _ c').target = _
        rw [update_self]
        exact hg
      · show (update s.requests c _ c').target = _
        grind [h.target]

/-- The second loop of `GlobalSchedule`, for one task. -/
theorem pickTask_spec (h : Settled s) {rest : List G} (hq : s.runQueue = g :: rest) {onCpu : Bool}
    {barrier : ℕ} :
    Ensures Any (pickTask cfg s g rest available assigned onCpu barrier) Settled := by
  refine .bind task_spec fun t _ => .bind (.check trivial) fun _ _ => ?_
  have haside : Aside { s with runQueue := rest } g :=
    ⟨h.placed.lift_queue (hq ▸ .refl _), h.target⟩
  dsimp only
  split
  · exact yield_spec (haside.setTask _)
  · split
    · exact .error trivial
    · exact .bind (.check trivial) fun _ _ =>
        .bind (assignCpu_spec (haside.setTask _)) fun s' hs' => .pure (hs'.setMode _)

variable {a : Action G C}

/-- Every action keeps the places, by the lemma about the function that it calls. -/
theorem act_spec (h : Settled s) {r : Except Fault (State G C)} (hr : act cfg s a = some r) :
    Ensures Any r Settled := by
  cases a with (simp only [act] at hr; split at hr <;> cases hr)
  | commit c succeeded => exact h.setRequest rfl
  | message g seqnum msg deferrable done => exact dispatchMessage_spec h
  | startPass | endReap => exact h.setMode _
  | reap expired => exact reapCpu_spec h
  | pick onCpu barrier => exact pickTask_spec h ‹_›
  | endPass => exact endPass_spec h

/-- A step keeps the places. -/
theorem Settled.step (h : Settled s) {s' : State G C} (hstep : step cfg s a = some s') :
    Settled s' := by
  rcases Option.bind_eq_some_iff.mp hstep with ⟨r, hr, hs'⟩
  cases r with
  | error e => cases hs'
  | ok s'' =>
    cases hs'
    exact act_spec h hr

omit [DecidableEq G] [DecidableEq C] in
theorem Init.settled (h : Init s) : Settled s := by
  refine ⟨⟨fun _ => .out, ⟨?_, ?_, ?_, ?_, ?_, ?_⟩, fun g => ?_⟩, fun c g hc => ?_⟩
  · rw [h.runQueue]
    exact List.nodup_nil
  · simp [h.runQueue]
  · rw [h.yieldingTasks]
    exact List.nodup_nil
  · simp [h.yieldingTasks]
  · simp [h.current]
  · simp [h.next]
  · rw [h.tasks]
    exact .none
  · rw [h.next] at hc
    cases hc

/-! ## Runs -/

/-- A task is neither current nor next of any cpu. -/
def OffCpus (s : State G C) (g : G) : Prop := ∀ c, s.current c ≠ some g ∧ s.next c ≠ some g

/-- A task is at the place of its state and at no other. -/
def Located (s : State G C) (g : G) (t : SolTask C) : Prop :=
  match t.runState with
  | .blocked | .preemptedByAgent => g ∉ s.runQueue ∧ g ∉ s.yieldingTasks ∧ OffCpus s g
  | .queued => s.runQueue.count g = 1 ∧ g ∉ s.yieldingTasks ∧ OffCpus s g
  | .yielding => s.yieldingTasks.count g = 1 ∧ g ∉ s.runQueue ∧ OffCpus s g
  | .pending =>
    g ∉ s.runQueue ∧ g ∉ s.yieldingTasks ∧ (∀ c, s.current c ≠ some g) ∧
      ∃ c, t.cpu = some c ∧ (∀ c', s.next c' = some g ↔ c' = c) ∧ (s.requests c).target = some g
  | .onCpu =>
    g ∉ s.runQueue ∧ g ∉ s.yieldingTasks ∧ (∀ c, s.next c ≠ some g) ∧
      ∃ c, t.cpu = some c ∧ ∀ c', s.current c' = some g ↔ c' = c
  | .runnable => False

omit [DecidableEq C] in
/-- The place of a task, in the words of its own fields. -/
theorem Settled.located (h : Settled s) (ht : s.tasks g = some t) : Located s g t := by
  have hq : g ∈ s.runQueue ↔ t.runState = .queued := by
    rw [h.placed.mem_queue (fun _ _ hf => hf.queued_iff), ht]
    simp
  have hy : g ∈ s.yieldingTasks ↔ t.runState = .yielding := by
    rw [h.placed.mem_yielding (fun _ _ hf => hf.yielding_iff), ht]
    simp
  have hc : ∀ c, s.current c = some g ↔ t.runState = .onCpu ∧ t.cpu = some c := by
    intro c
    rw [h.placed.current_iff (fun _ _ hf => hf.onCpu_iff), ht]
    simp
  have hn : ∀ c, s.next c = some g ↔ t.runState = .pending ∧ t.cpu = some c := by
    intro c
    rw [h.placed.next_iff (fun _ _ hf => hf.picked_iff), ht]
    simp
  -- the places of a state exclude those of the others
  have hplace : ∃ p, Fits (some t) p := by
    rcases h.placed with ⟨place, -, hfits⟩
    exact ⟨place g, ht ▸ hfits g⟩
  unfold Located OffCpus
  rcases hplace with ⟨p, hp⟩
  cases hp with
  | blocked hr | preemptedByAgent hr => simp [hq, hy, hc, hn, hr]
  | queued hr => simp [hy, hc, hn, hr, List.count_eq_one_of_mem h.placed.queue_nodup (hq.mpr hr)]
  | yielding hr =>
    grind [h.placed.yielding_nodup]
  | pending hr hcpu =>
    grind [h.target]
  | onCpu hr hcpu =>
    rename_i c
    simp only [hr]
    refine ⟨by simp [hq, hr], by simp [hy, hr], by simp [hn, hr], c, hcpu, fun c' => ?_⟩
    rw [hc c', hcpu]
    simp [hr, eq_comm]

/-- Whatever messages come and whenever transactions are committed: in every state that is reached
without a fault each task is at the one place of its state. -/
theorem task_located {s₀ : State G C} (h₀ : Init s₀) (h : Transition.Steps (Sol.step cfg) s₀ s) :
    ∀ g t, s.tasks g = some t → Located s g t := by
  intro g t ht
  have hs : Settled s := h.invariant (fun _ _ _ hs hstep => hs.step hstep) h₀.settled
  exact hs.located ht

/-! ## Messages about a task that the agent has preempted -/

/-- What the kernel may send first about a thread that was replaced on its cpu: it got there by a
transaction, so `from_switchto` is not set. -/
def Leaves : Kernel.Msg C Unit → Prop
  | .preempt _ fromSwitchto | .blocked _ fromSwitchto | .yield _ fromSwitchto =>
    fromSwitchto = false
  | .departed current => current.any Prod.snd = false
  | .switchto _ => True
  | _ => False

/-- What is left of the task after such a message. -/
def Implies : Kernel.Msg C Unit → Option (SolTask C) → Prop
  | .preempt _ _, o => ∃ t, o = some t ∧ t.runState = .queued ∧ t.preempted = true
  | .blocked _ _, o | .switchto _, o => ∃ t, o = some t ∧ t.runState = .blocked
  | .yield _ _, o => ∃ t, o = some t ∧ (t.runState = .queued ∨ t.runState = .yielding)
  | .departed _, o => o = none
  | _, _ => True

/-- The handler has a case for a task that the agent has preempted. -/
def Handles : Kernel.Msg C Unit → Prop
  | .departed _ | .switchto _ => False
  | _ => True

section

variable (ht : s.tasks g = some t)
include ht

omit [DecidableEq G] [DecidableEq C] in
/-- The task is found. -/
theorem task_eq : s.task g = .ok t := by
  simp only [State.task, ht]

omit [DecidableEq C] in
/-- A runnable task is enqueued. -/
theorem enqueue_eq (hr : t.runState = .runnable) :
    ∃ s', enqueue s g = .ok s' ∧ s'.tasks g = some { t with runState := .queued } := by
  rw [enqueue, task_eq ht, ok_bind, check, if_pos hr]
  exact ⟨_, rfl, update_self ..⟩

/-- There is nothing to wait for. -/
theorem syncPending_eq (hr : t.runState ≠ .pending) : syncPending s g = .ok s := by
  rw [syncPending, task_eq ht, ok_bind, if_neg hr]
  rfl

omit [DecidableEq C] in
/-- `Advance` fails exactly if the number does not grow. -/
theorem advance_eq (seqnum : ℕ) : advance s g seqnum =
    if t.seqnum < seqnum then .ok (s.setTask g { t with seqnum := seqnum }) else .error .check := by
  rw [advance, task_eq ht, ok_bind, check]
  split <;> rfl

variable (hr : t.runState = .preemptedByAgent) {msg : Kernel.Msg C Unit} (hmsg : Leaves msg)
  (seqnum : ℕ) (deferrable done : Bool)
include hr hmsg

/-- The messages with a case for such a task are handled up to the check of the number. -/
theorem dispatch_preempted (hhandles : Handles msg) :
    ∃ s₁ t₁, dispatchMessage s g seqnum msg deferrable done = advance s₁ g seqnum ∧
      s₁.tasks g = some t₁ ∧ t₁.seqnum = t.seqnum ∧
      ∀ n, Implies msg (some { t₁ with seqnum := n }) := by
  have hsync := syncPending_eq ht (by rw [hr]; simp)
  cases msg with
  | preempt c fromSwitchto =>
    obtain rfl : fromSwitchto = false := hmsg
    obtain ⟨s₁, hs₁, ht₁⟩ := enqueue_eq (s := (s.setTask g { t with preempted := true }).setTask g
      { t with preempted := true, runState := .runnable }) (update_self ..) rfl
    refine ⟨s₁, _, ?_, ht₁, rfl, fun n => ⟨_, rfl, rfl, rfl⟩⟩
    simp only [dispatchMessage, ht, taskPreempted, hsync, ok_bind, task_eq ht]
    rw [if_neg (by simp [hr]), if_pos hr, hs₁]
    rfl
  | blocked c fromSwitchto =>
    obtain rfl : fromSwitchto = false := hmsg
    refine ⟨s.setTask g { t with runState := .blocked }, _, ?_, update_self .., rfl,
      fun n => ⟨_, rfl, rfl⟩⟩
    simp only [dispatchMessage, ht, taskBlocked, hsync, ok_bind, task_eq ht, hr]
    simp [task_eq ht]
  | yield c fromSwitchto =>
    obtain rfl : fromSwitchto = false := hmsg
    obtain ⟨s₁, hs₁, ht₁⟩ := enqueue_eq (s := s.setTask g { t with runState := .runnable })
      (update_self ..) rfl
    refine ⟨s₁, _, ?_, ht₁, rfl, fun n => ⟨_, rfl, .inl rfl⟩⟩
    simp only [dispatchMessage, ht, taskYield, hsync, ok_bind, task_eq ht, hr]
    simp [hs₁]
  | departed current | switchto c => exact hhandles.elim
  | new info runnable | onCpu c | wakeup | affinityChanged | prioChanged | dead => exact hmsg.elim

/-- `TaskDeparted` expects a blocked task then, and `TaskSwitchto` one on a cpu. -/
theorem dispatch_preempted_fails (hhandles : ¬ Handles msg) :
    dispatchMessage s g seqnum msg deferrable done = .error .check := by
  cases msg with
  | departed current =>
    have hswitchto : current.any Prod.snd = false := hmsg
    simp [dispatchMessage, ht, taskDeparted, reapPending, task_eq ht, hr, hswitchto, check]
  | switchto c =>
    have hsync := syncPending_eq ht (by rw [hr]; simp)
    simp [dispatchMessage, ht, taskSwitchto, hsync, taskOffCpu, task_eq ht, hr, check]
    rfl
  | preempt c b | blocked c b | yield c b => exact absurd trivial hhandles
  | new info runnable | onCpu c | wakeup | affinityChanged | prioChanged | dead => exact hmsg.elim

end

/-- A message that takes a task off its cpu is handled, even if the agent already knows that the
task was replaced, exactly if its number is greater than the last one and it is neither
`TASK_DEPARTED` nor `TASK_SWITCHTO`. -/
theorem preempted_message_handled {s₀ : State G C} (h₀ : Init s₀)
    (h : Transition.Steps (Sol.step cfg) s₀ s) (ht : s.tasks g = some t)
    (hr : t.runState = .preemptedByAgent) {msg : Kernel.Msg C Unit} (hmsg : Leaves msg)
    (seqnum : ℕ) (deferrable done : Bool) :
    Handles msg ∧ t.seqnum < seqnum ↔
      ∃ s', dispatchMessage s g seqnum msg deferrable done = .ok s' ∧ Settled s' ∧
        Implies msg (s'.tasks g) := by
  have hs : Settled s := h.invariant (fun _ _ _ hs hstep => hs.step hstep) h₀.settled
  by_cases hhandles : Handles msg
  · obtain ⟨s₁, t₁, heq, ht₁, hseq, himp⟩ :=
      dispatch_preempted ht hr hmsg seqnum deferrable done hhandles
    rw [advance_eq ht₁, hseq] at heq
    rw [and_iff_right hhandles]
    constructor
    · intro hlt
      rw [if_pos hlt] at heq
      refine ⟨_, heq, (dispatchMessage_spec hs).of_ok heq, ?_⟩
      rw [show (s₁.setTask g { t₁ with seqnum := seqnum }).tasks g = _ from update_self ..]
      exact himp seqnum
    · -- otherwise the `CHECK` of `Task::Advance` fails
      rintro ⟨s', hok, -⟩
      by_contra hlt
      rw [if_neg hlt] at heq
      cases heq.symm.trans hok
  · have hfails := dispatch_preempted_fails ht hr hmsg seqnum deferrable done hhandles
    refine iff_of_false (fun hboth => hhandles hboth.1) ?_
    rintro ⟨s', hok, -⟩
    cases hfails.symm.trans hok

end Cpus

/-! ## A preemption by the agent -/

/-- Two cpus. The agent is on the first one. -/
def twoCpus : Config Bool := ⟨[true, false], true, fun _ => []⟩

def noTasks : State Bool Bool where
  tasks := fun _ => none
  requests := fun _ => ⟨none, 0, .committed true⟩
  current := fun _ => none
  next := fun _ => none
  runQueue := []
  yieldingTasks := []
  numTasks := 0
  mode := .drain

theorem noTasks_init : Init noTasks := ⟨fun _ => rfl, fun _ => rfl, fun _ => rfl, rfl, rfl, rfl⟩

/-- A pass that picks a task for the second cpu. -/
def pickPass (expired : Bool) : List (Action Bool Bool) :=
  [.startPass, .reap false, .reap expired, .endReap, .pick false 1, .endPass]

/-- A pass that only finds out what has become of the transaction. -/
def reapPass : List (Action Bool Bool) :=
  [.startPass, .reap false, .reap false, .endReap, .endPass]

/-- The first thread runs on the second cpu, its time slice is over, and the second thread
replaces it. The agent learns of this from the transaction. -/
def preemption : List (Action Bool Bool) :=
  [.message true 1 (.new () true) false false] ++ pickPass false ++ [.commit false true] ++
    reapPass ++
    [.message false 1 (.new () true) false false] ++ pickPass true ++
      [.commit false true] ++ reapPass

def preempted : State Bool Bool :=
  (Transition.exec (step twoCpus) noTasks preemption).getD noTasks

theorem preempted_reached : Transition.Steps (step twoCpus) noTasks preempted :=
  .of_exec (show Transition.exec _ _ preemption = _ from rfl)

def preemptedTask : SolTask Bool := ⟨1, .preemptedByAgent, some false, false, false⟩

theorem preempted_task : preempted.tasks true = some preemptedTask := rfl

theorem task_located_preempted :
    preempted.current false = some false ∧ Located preempted true preemptedTask :=
  ⟨rfl, task_located noTasks_init preempted_reached true _ preempted_task⟩

/-- The thread that was replaced leaves ghost, or hands its cpu over before that. -/
theorem preempted_message_fails : ∃ s : State Bool Bool, Transition.Steps (step twoCpus) noTasks s ∧
      (∃ t, s.tasks true = some t ∧ t.runState = .preemptedByAgent ∧ t.seqnum < 2) ∧
      dispatchMessage s true 2 (.departed (some (false, false))) false false = .error .check ∧
      dispatchMessage s true 2 (.switchto false) false false = .error .check :=
  ⟨preempted, preempted_reached, ⟨_, preempted_task, rfl, by decide⟩, rfl, rfl⟩

theorem preempted_message_handled_blocked :
    ∃ s', dispatchMessage preempted true 2 (.blocked false false) false false = .ok s' ∧
      Settled s' ∧ Implies (.blocked false false) (s'.tasks true) :=
  (preempted_message_handled noTasks_init preempted_reached preempted_task rfl
    (show Leaves (.blocked false false) from rfl) 2 false false).1 ⟨trivial, by decide⟩

end Sol
