import GhostSched.Central.Places
import GhostSched.Fifo.Model

/-!
# The message handlers of the FIFO scheduler

What each handler does to the places of the tasks, provided that the task it is
about is where its state says. No `CHECK` fails then.

* `Fits` is the place that the state of a task says. A task in state `kRunnable`
  is one that the pass under way has picked.
* `Handled` is what a handler may do: change the task of one thread and its place.
* There is one lemma for each message, with the beliefs from `Central.Next` that
  the message can meet.
-/

namespace Fifo

open Central Function

variable {G C : Type*}

/-- The place of a task according to its state. -/
inductive Fits : Option (FifoTask C) → Place C → Prop where
  | none : Fits none .out
  | blocked {t : FifoTask C} : t.runState = .blocked → Fits (some t) .out
  | queued {t : FifoTask C} : t.runState = .queued → Fits (some t) .queued
  | yielding {t : FifoTask C} : t.runState = .yielding → Fits (some t) .yielding
  | onCpu {t : FifoTask C} {c : C} : t.runState = .onCpu → t.cpu = some c →
    Fits (some t) (.onCpu c)
  | runnable {t : FifoTask C} {c : C} : t.runState = .runnable → Fits (some t) (.picked c)

section Fits

variable {o : Option (FifoTask C)} {p : Place C} {c : C} {t t' : FifoTask C}

/-- A task on the run queue says so. -/
theorem Fits.queued_iff (h : Fits o p) : p = .queued ↔ ∃ t, o = some t ∧ t.runState = .queued := by
  cases h <;> simp_all

/-- A yielding task says so. -/
theorem Fits.yielding_iff (h : Fits o p) :
    p = .yielding ↔ ∃ t, o = some t ∧ t.runState = .yielding := by
  cases h <;> simp_all

/-- A task on a cpu knows the cpu. -/
theorem Fits.onCpu_iff (h : Fits o p) :
    p = .onCpu c ↔ ∃ t, o = some t ∧ t.runState = .onCpu ∧ t.cpu = some c := by
  cases h <;> simp_all

/-- A blocked task is at no place. -/
theorem Fits.eq_out (h : Fits o p) (ho : ∀ t, o = some t → t.runState = .blocked) : p = .out := by
  cases h <;> simp_all

/-- The place depends on the state and the cpu only. -/
theorem Fits.congr (h : Fits (some t) p) (hstate : t'.runState = t.runState)
    (hcpu : t'.cpu = t.cpu) : Fits (some t') p := by
  cases h with
  | blocked hr => exact .blocked (hstate.trans hr)
  | queued hr => exact .queued (hstate.trans hr)
  | yielding hr => exact .yielding (hstate.trans hr)
  | onCpu hr hc => exact .onCpu (hstate.trans hr) (hcpu.trans hc)
  | runnable hr => exact .runnable (hstate.trans hr)

end Fits

/-- What a message about a task may find: what the agent believes about a task in a state. Tasks
that a pass put aside are yielding only until its end. -/
inductive Allows (drain : Prop) : Option (FifoTask C) → View C → Prop where
  | absent : Allows drain none .absent
  | blocked {t : FifoTask C} : t.runState = .blocked → Allows drain (some t) .blocked
  | resting {t : FifoTask C} :
    t.runState = .queued ∨ t.runState = .runnable ∨ t.runState = .yielding →
    Allows drain (some t) .resting
  | waiting {t : FifoTask C} :
    t.runState = .queued ∨ t.runState = .runnable ∨ t.runState = .yielding ∧ ¬ drain →
    Allows drain (some t) .waiting
  | placed {t : FifoTask C} {c : C} : t.runState = .onCpu → t.cpu = some c →
    Allows drain (some t) (.placed c)

/-! ## The functions on one task -/

section Eq

variable {s : State G C} {g : G} {t : FifoTask C}

/-- A live task is found. -/
theorem withTask_eq {f : FifoTask C → State G C} (ht : s.tasks g = some t) :
    s.withTask g f = f t := by
  simp only [State.withTask, ht]

/-- A task is added at the front or at the back. -/
theorem push_perm (t : FifoTask C) (g : G) (queue : List G) :
    (t.push g queue).Perm (g :: queue) := by
  unfold FifoTask.push
  split
  · exact .refl _
  · exact List.perm_append_singleton ..

variable [DecidableEq G]

omit [DecidableEq G] in
/-- A check that succeeds does nothing. -/
theorem check_of_true {b : Bool} (h : b = true) : s.check b = s := by
  subst h
  simp [State.check]

/-- `Enqueue`, of a runnable task. -/
theorem enqueue_eq (ht : s.tasks g = some t) (hr : t.runState = .runnable) : enqueue s g = { s with
      tasks := update s.tasks g (some { t with runState := .queued })
      runQueue := t.push g s.runQueue } := by
  rw [enqueue, withTask_eq ht, check_of_true (decide_eq_true hr)]
  rfl

theorem setRunState_eq (ht : s.tasks g = some t) (r : RunState) :
    s.setRunState g r = s.setTask g { t with runState := r } :=
  withTask_eq ht

/-- `RemoveFromRunqueue`, of a task that is there. -/
theorem removeFromRunqueue_eq (ht : s.tasks g = some t) (hr : t.runState = .queued)
    (hmem : g ∈ s.runQueue) :
    removeFromRunqueue s g = { s with
      tasks := update s.tasks g (some { t with runState := .runnable })
      runQueue := (s.runQueue.reverse.erase g).reverse } := by
  rw [removeFromRunqueue, withTask_eq ht, check_of_true (decide_eq_true hr)]
  simp only [hmem, if_true]
  rfl

/-- The search starts at the back. -/
theorem reverse_erase_perm {queue : List G} (hmem : g ∈ queue) :
    queue.Perm (g :: (queue.reverse.erase g).reverse) := by
  have herase : queue.reverse.Perm (g :: queue.reverse.erase g) :=
    List.perm_cons_erase (List.mem_reverse.mpr hmem)
  exact (List.reverse_perm _).symm.trans (herase.trans (.cons _ (List.reverse_perm _).symm))

/-- `Unyield`, of a task that is there. -/
theorem unyield_eq (ht : s.tasks g = some t) (hr : t.runState = .yielding)
    (hmem : g ∈ s.yieldingTasks) :
    unyield s g = { s with
      tasks := update s.tasks g (some { t with runState := .queued })
      yieldingTasks := s.yieldingTasks.erase g
      runQueue := t.push g s.runQueue } := by
  rw [unyield, withTask_eq ht, check_of_true (decide_eq_true hr)]
  simp only [check_of_true (List.contains_iff_mem.mpr hmem)]
  rw [enqueue_eq (update_self ..) rfl]
  simp only [State.setTask, update_idem]
  rfl

variable [DecidableEq C] {c : C}

/-- The cpu of a task that is current there. -/
theorem clearCurrent_eq (hr : t.runState = .onCpu) (hc : t.cpu = some c)
    (hcurrent : s.current c = some g) :
    clearCurrent s g t = { s with current := update s.current c none } := by
  simp only [clearCurrent, hc]
  rw [check_of_true (decide_eq_true hr), check_of_true (decide_eq_true hcurrent)]

end Eq

/-! ## What a handler does -/

/-- Each task is where its state says, and none is picked. -/
def Settled (s : State G C) : Prop :=
  Placed Fits s.tasks s.runQueue s.yieldingTasks s.current fun _ => none

/-- The task of one thread changes, and with it its place and the number of tasks. -/
structure Handled [DecidableEq G] (s : State G C) (g : G) (o : Option (FifoTask C)) (n : ℤ)
    (s' : State G C) : Prop where
  tasks : s'.tasks = update s.tasks g o
  world : s'.world = s.world
  mode : s'.mode = s.mode
  crashed : s'.crashed = s.crashed
  misordered : s'.misordered = s.misordered
  numTasks : s'.numTasks = s.numTasks + n
  current : ∀ c, s.current c = none → s'.current c = none
  settled : Settled s'

section Settled

variable {s : State G C} {g : G}

/-- The run queue holds the tasks that say so. -/
theorem Settled.mem_runQueue (h : Settled s) :
    g ∈ s.runQueue ↔ ∃ t, s.tasks g = some t ∧ t.runState = .queued :=
  Placed.mem_queue h (fun _ _ hf => hf.queued_iff) g

/-- The yielding tasks are those that say so. -/
theorem Settled.mem_yielding (h : Settled s) :
    g ∈ s.yieldingTasks ↔ ∃ t, s.tasks g = some t ∧ t.runState = .yielding :=
  Placed.mem_yielding h (fun _ _ hf => hf.yielding_iff) g

/-- A cpu runs the task that says so. -/
theorem Settled.current_iff {c : C} (h : Settled s) :
    s.current c = some g ↔ ∃ t, s.tasks g = some t ∧ t.runState = .onCpu ∧ t.cpu = some c :=
  Placed.current_iff h (fun _ _ hf => hf.onCpu_iff) g

end Settled

section Put

variable [DecidableEq G] {tasks : G → Option (FifoTask C)}
  {queue queue' yielding yielding' : List G}
  {current next : C → Option G} {g : G} {t : FifoTask C}

variable (h : Lifted g Fits tasks queue yielding current next)
include h

/-- The task goes to the run queue. -/
theorem put_queued (hr : t.runState = .queued) (hq : queue'.Perm (g :: queue)) :
    Placed Fits (update tasks g (some t)) queue' yielding current next :=
  (h.retask _).put_queue (by rw [update_self]; exact .queued hr) hq

/-- The task goes to the yielding tasks. -/
theorem put_yielded (hr : t.runState = .yielding) (hy : yielding'.Perm (g :: yielding)) :
    Placed Fits (update tasks g (some t)) queue yielding' current next :=
  (h.retask _).put_yielding (by rw [update_self]; exact .yielding hr) hy

/-- The task is blocked. -/
theorem put_blocked (hr : t.runState = .blocked) :
    Placed Fits (update tasks g (some t)) queue yielding current next :=
  (h.retask _).put_out (by rw [update_self]; exact .blocked hr)

/-- The task is freed. -/
theorem put_freed : Placed Fits (update tasks g none) queue yielding current next :=
  (h.retask _).put_out (by rw [update_self]; exact .none)

end Put

section Handlers

variable [DecidableEq G] {s s' s'' : State G C} {g : G} {t : FifoTask C} {v : View C}

variable {o : Option (FifoTask C)} {n : ℤ}

theorem Handled.task (h : Handled s g o n s') : s'.tasks g = o := by
  rw [h.tasks, update_self]

/-- One function after the other, about the same task. -/
theorem Handled.trans {o' : Option (FifoTask C)} {n' : ℤ} (h : Handled s g o n s')
    (h' : Handled s' g o' n' s'') : Handled s g o' (n + n') s'' where
  tasks := by rw [h'.tasks, h.tasks, update_idem]
  world := h'.world.trans h.world
  mode := h'.mode.trans h.mode
  crashed := h'.crashed.trans h.crashed
  misordered := h'.misordered.trans h.misordered
  numTasks := by rw [h'.numTasks, h.numTasks, Int.add_assoc]
  current c hc := h'.current c (h.current c hc)
  settled := h'.settled

variable {current : C → Option G} {queue yielding : List G}

/-- The task gets to another place. -/
theorem handled_of_placed
    (h : Placed Fits (update s.tasks g o) queue yielding current fun _ => none)
    (hcurrent : ∀ c, s.current c = none → current c = none) :
    Handled s g o n { s with
      tasks := update s.tasks g o
      runQueue := queue
      yieldingTasks := yielding
      current := current
      numTasks := s.numTasks + n } :=
  ⟨rfl, rfl, rfl, rfl, rfl, rfl, hcurrent, h⟩

/-- The same with as many tasks as before. -/
theorem handled_same (h : Placed Fits (update s.tasks g o) queue yielding current fun _ => none)
    (hcurrent : ∀ c, s.current c = none → current c = none) :
    Handled s g o 0 { s with
      tasks := update s.tasks g o
      runQueue := queue
      yieldingTasks := yielding
      current := current } :=
  ⟨rfl, rfl, rfl, rfl, rfl, (Int.add_zero _).symm, hcurrent, h⟩

section

variable (h : Settled s)
include h

/-- A task changes in a way that does not matter for its place. -/
theorem handled_setTask {t' : FifoTask C} (ht : s.tasks g = some t)
    (hstate : t'.runState = t.runState) (hcpu : t'.cpu = t.cpu) :
    Handled s g (some t') 0 (s.setTask g t') := by
  refine handled_same (Placed.retask h fun p hp => ?_) fun _ hc => hc
  rw [ht] at hp
  exact hp.congr hstate hcpu

/-- Nothing changes. -/
theorem handled_refl (ht : s.tasks g = some t) : Handled s g (some t) 0 s where
  tasks := by rw [← ht, update_eq_self]
  world := rfl
  mode := rfl
  crashed := rfl
  misordered := rfl
  numTasks := (Int.add_zero _).symm
  current _ hc := hc
  settled := h

variable {seqnum : ℕ}

/-- `Task::Advance` stores the number. Its `CHECK` holds if that is greater and has 32 bits. -/
theorem handled_advance (ht : s.tasks g = some t) (hlt : t.seqnum < seqnum) :
    ∃ b, (seqnum < 2 ^ 32 → b = s.misordered) ∧
      advance s g seqnum = { s.setTask g { t with seqnum := seqnum } with misordered := b } ∧
      Handled s g (some { t with seqnum := seqnum })
        0 (s.setTask g { t with seqnum := seqnum }) := by
  refine ⟨_, fun hbound => ?_, withTask_eq ht, handled_setTask h ht rfl rfl⟩
  rw [Nat.mod_eq_of_lt hbound, Nat.mod_eq_of_lt (Nat.lt_trans hlt hbound), decide_eq_true hlt]
  exact Bool.or_false _

omit [DecidableEq G] in
/-- A task that is nowhere. -/
theorem Settled.lift_blocked (hg : ∀ t, s.tasks g = some t → t.runState = .blocked) :
    Lifted g Fits s.tasks s.runQueue s.yieldingTasks s.current fun _ => none :=
  Placed.lift_out h fun _ hf => hf.eq_out hg

/-- `TaskNew`, of a thread without a task. -/
theorem handled_taskNew {runnable : Bool} (hg : s.tasks g = none) : Handled s g
      (some ⟨seqnum, if runnable then .queued else .blocked, none, false, false⟩) 1
      (taskNew s g seqnum runnable) := by
  have hlift := h.lift_blocked (g := g) (by simp [hg])
  unfold taskNew
  cases runnable with
  | false => exact handled_of_placed (put_blocked hlift rfl) fun _ hc => hc
  | true =>
    -- `Enqueue` finds the task that was just written
    simp only [if_true]
    rw [setRunState_eq (update_self ..), enqueue_eq (update_self ..) rfl]
    simp only [State.setTask, update_idem]
    exact handled_of_placed (put_queued hlift rfl (push_perm ..)) fun _ hc => hc

/-- `TaskRunnable`, of a blocked task. -/
theorem handled_taskRunnable {deferrable : Bool} (ht : s.tasks g = some t)
    (hr : t.runState = .blocked) :
    Handled s g (some { t with runState := .queued, prioBoost := !deferrable }) 0
      (taskRunnable s g deferrable) := by
  have hlift := h.lift_blocked (g := g) (by simp [ht, hr])
  rw [taskRunnable, withTask_eq ht]
  simp only [check_of_true (decide_eq_true hr)]
  rw [enqueue_eq (update_self ..) rfl]
  simp only [State.setTask, update_idem]
  exact handled_same (put_queued hlift rfl (push_perm ..)) fun _ hc => hc

/-- `TaskDead`, of a blocked task. -/
theorem handled_taskDead (ht : s.tasks g = some t) (hr : t.runState = .blocked) :
    Handled s g none (-1) (taskDead s g) := by
  have hlift := h.lift_blocked (g := g) (by simp [ht, hr])
  rw [taskDead, withTask_eq ht, check_of_true (decide_eq_true hr)]
  exact handled_of_placed (put_freed hlift) fun _ hc => hc

/-- A queued task is taken from the run queue. -/
theorem removeFromRunqueue_lift (ht : s.tasks g = some t) (hr : t.runState = .queued) :
    ∃ queue, removeFromRunqueue s g = { s with
        tasks := update s.tasks g (some { t with runState := .runnable })
        runQueue := queue } ∧
      Lifted g Fits s.tasks queue s.yieldingTasks s.current fun _ => none := by
  have hmem : g ∈ s.runQueue := h.mem_runQueue.mpr ⟨t, ht, hr⟩
  exact ⟨_, removeFromRunqueue_eq ht hr hmem, Placed.lift_queue h (reverse_erase_perm hmem)⟩

end

variable [DecidableEq C] {c : C}

/-- The current task of a cpu leaves it. -/
theorem clearCurrent_lift (h : Settled s) (ht : s.tasks g = some t) (hr : t.runState = .onCpu)
    (hc : t.cpu = some c) :
    clearCurrent s g t = { s with current := update s.current c none } ∧
      Lifted g Fits s.tasks s.runQueue s.yieldingTasks (update s.current c none) fun _ => none := by
  have hcurrent : s.current c = some g := h.current_iff.mpr ⟨t, ht, hr, hc⟩
  exact ⟨clearCurrent_eq hr hc hcurrent, Placed.lift_current h hcurrent⟩

omit [DecidableEq G] in
/-- A cpu without a task stays without one. -/
theorem update_current_none (d : C) (hd : s.current d = none) :
    update s.current c none d = none := by
  by_cases hne : d = c
  · rw [hne, update_self]
  · rw [update_of_ne hne]
    exact hd

omit [DecidableEq G] [DecidableEq C] in
/-- No task is picked. -/
theorem Settled.runState (h : Settled s) (ht : s.tasks g = some t) :
    t.runState = .blocked ∨ t.runState = .yielding ∨ t.runState = .queued ∨
      t.runState = .onCpu ∧ ∃ c, t.cpu = some c := by
  rcases h with ⟨place, hb, hfits⟩
  have hg := hfits g
  rw [ht] at hg
  generalize hp : place g = p at hg
  cases hg with
  | blocked hr => exact .inl hr
  | yielding hr => exact .inr (.inl hr)
  | queued hr => exact .inr (.inr (.inl hr))
  | onCpu hr hc => exact .inr (.inr (.inr ⟨hr, _, hc⟩))
  | runnable => exact absurd ((hb.next _ g).mpr hp) (by simp)

omit [DecidableEq G] [DecidableEq C] in
/-- While the channel is drained, a task that may be on a cpu is queued or current. -/
theorem Allows.mayRun (hv : Allows True (some t) v) (hrun : v.MayRun)
    (h : Settled s) (ht : s.tasks g = some t) :
    t.runState = .queued ∨ t.runState = .onCpu ∧ ∃ c, t.cpu = some c := by
  have hstate := h.runState ht
  cases hv with
  | blocked | resting => exact hrun.elim
  | waiting hr =>
    rcases hr with hr | hr | ⟨-, hr⟩
    · exact .inl hr
    · -- picked, which is not possible between two passes
      simp [hr] at hstate
    · exact absurd trivial hr
  | placed hr hc => exact .inr ⟨hr, _, hc⟩

section

variable (h : Settled s)
include h

section

variable (ht : s.tasks g = some t)
include ht

/-- `TaskBlocked`, of a task that may run. -/
theorem handled_taskBlocked (hv : Allows True (some t) v) (hrun : v.MayRun) :
    Handled s g (some { t with runState := .blocked }) 0 (taskBlocked s g) := by
  rw [taskBlocked, withTask_eq ht]
  rcases hv.mayRun hrun h ht with hr | ⟨hr, c, hc⟩
  · -- from the run queue
    rcases removeFromRunqueue_lift h ht hr with ⟨queue, heq, hlift⟩
    simp only [hr, reduceCtorEq, if_false, decide_true, check_of_true, heq]
    rw [setRunState_eq (update_self ..)]
    simp only [State.setTask, update_idem]
    exact handled_same (put_blocked hlift rfl) fun _ hc => hc
  · -- from its cpu
    rcases clearCurrent_lift h ht hr hc with ⟨heq, hlift⟩
    simp only [hr, if_true, heq]
    rw [setRunState_eq (by exact ht)]
    exact handled_same (put_blocked hlift rfl) update_current_none

/-- `TaskPreempted`, of a task that may run. -/
theorem handled_taskPreempted (hv : Allows True (some t) v) (hrun : v.MayRun) :
    Handled s g (some { t with preempted := true, runState := .queued }) 0 (taskPreempted s g) := by
  rw [taskPreempted, withTask_eq ht]
  rcases hv.mayRun hrun h ht with hr | ⟨hr, c, hc⟩
  · -- queued already
    simp only [hr, reduceCtorEq, if_false, decide_true, check_of_true]
    exact handled_setTask h ht hr.symm rfl
  · -- from its cpu to the run queue
    rcases clearCurrent_lift h ht hr hc with ⟨-, hlift⟩
    have hcurrent : s.current c = some g := h.current_iff.mpr ⟨t, ht, hr, hc⟩
    simp only [hr, if_true]
    rw [clearCurrent_eq hr hc (by exact hcurrent), setRunState_eq (update_self ..),
      enqueue_eq (update_self ..) rfl]
    simp only [State.setTask, update_idem]
    exact handled_same (put_queued hlift rfl (push_perm ..)) update_current_none

/-- A task that yields is put aside, unless the agent has taken it off its cpu already. -/
theorem handled_taskYield (hv : Allows True (some t) v) (hrun : v.MayRun) :
    ∃ r, (r = .queued ∧ t.runState = .queued ∨ r = .yielding ∧ t.runState = .onCpu) ∧
      Handled s g (some { t with runState := r }) 0 (taskYield s g) := by
  rw [taskYield, withTask_eq ht]
  rcases hv.mayRun hrun h ht with hr | ⟨hr, c, hc⟩
  · -- queued already
    refine ⟨.queued, .inl ⟨rfl, hr⟩, ?_⟩
    simp only [hr, reduceCtorEq, if_false, decide_true, check_of_true]
    rw [← hr]
    exact handled_refl h ht
  · -- from its cpu
    refine ⟨.yielding, .inr ⟨rfl, hr⟩, ?_⟩
    rcases clearCurrent_lift h ht hr hc with ⟨heq, hlift⟩
    simp only [hr, if_true, heq]
    rw [yield, withTask_eq (by exact ht)]
    simp only [hr, decide_true, Bool.true_or, check_of_true]
    exact handled_same (put_yielded hlift rfl (List.perm_append_singleton ..)) update_current_none

theorem handled_forgetTask (hr : t.runState ≠ .yielding) :
    Handled s g none (-1) (forgetTask s g) := by
  rw [forgetTask, withTask_eq ht]
  rcases h.runState ht with hr' | hr' | hr' | ⟨hr', c, hc⟩
  · -- blocked
    have hlift := h.lift_blocked (g := g) (by simp [ht, hr'])
    simp only [hr', reduceCtorEq, if_false, decide_true, check_of_true]
    exact handled_of_placed (put_freed hlift) fun _ hc => hc
  · exact absurd hr' hr
  · -- from the run queue
    rcases removeFromRunqueue_lift h ht hr' with ⟨queue, heq, hlift⟩
    simp only [hr', reduceCtorEq, if_false, if_true, heq, freeTask, update_idem]
    exact handled_of_placed (put_freed hlift) fun _ hc => hc
  · rcases clearCurrent_lift h ht hr' hc with ⟨heq, hlift⟩
    simp only [hr', if_true, heq]
    exact handled_of_placed (put_freed hlift) update_current_none

/-- The task of a thread that leaves is freed, wherever it is. -/
theorem handled_taskDeparted : Handled s g none (-1) (taskDeparted s g) := by
  rw [taskDeparted, withTask_eq ht]
  by_cases hr : t.runState = .yielding
  · have hmem : g ∈ s.yieldingTasks := h.mem_yielding.mpr ⟨t, ht, hr⟩
    have hlift := Placed.lift_yielding h (List.perm_cons_erase hmem)
    have hun : Handled s g (some { t with runState := .queued }) 0 (unyield s g) := by
      rw [unyield_eq ht hr hmem]
      exact handled_same (put_queued hlift rfl (push_perm ..)) fun _ hc => hc
    simp only [hr, if_true]
    exact hun.trans (handled_forgetTask hun.settled hun.task (by simp))
  · simp only [hr, if_false]
    exact handled_forgetTask h ht hr

end

end

end Handlers

end Fifo
