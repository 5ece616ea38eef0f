import GhostSched.Central.Places
import GhostSched.Shinjuku.Model

/-!
# The message handlers of the Shinjuku scheduler

What each function does to the place of the task it is about.

* `Fits` is the place that the state of a task says, together with what its state says
  about its work. A task that a pass has picked is still in state `kQueued`.
* `Good` says that each task is at the place that fits it, and `Held` that this holds for
  all tasks but one, which is nowhere.
* `Moves` says that a function concerns one task only.
* There is one lemma for each function. It allows for faults other than the ones that
  involve `paused()`, since the messages are arbitrary.
-/

namespace Shinjuku

open Central Checked Function

variable {G C P T : Type}

/-! ## Run queue -/

namespace RunQueue

variable {rq rest : RunQueue P} {p : P}

/-- A task is added at its level, at the front or the back. -/
theorem tasks_push (qos : ℕ) (back : Bool) (p : P) (rq : RunQueue P) :
    (rq.push qos back p).tasks.Perm (p :: rq.tasks) := by
  induction rq with
  | nil => simp [push, tasks]
  | cons x rest ih =>
    rcases x with ⟨q, l⟩
    unfold push
    split_ifs
    · -- at the back of its level
      exact (List.perm_append_singleton p l).append_right _
    · simp [tasks]
    · simp [tasks]
    · -- on a later level
      exact (ih.append_left l).trans List.perm_middle

/-- The task that is popped was on some level. -/
theorem tasks_pop (h : rq.pop = some (p, rest)) : rq.tasks.Perm (p :: rest.tasks) := by
  induction rq generalizing rest with
  | nil => simp [pop] at h
  | cons x rq ih =>
    rcases x with ⟨q, l⟩
    unfold pop at h
    split at h
    · -- a later level has a task
      rename_i p' rest' hpop
      obtain ⟨rfl, rfl⟩ : p' = p ∧ (q, l) :: rest' = rest := by simpa using h
      exact ((ih hpop).append_left l).trans List.perm_middle
    · split at h
      · cases h
      · rename_i p' l'
        obtain ⟨rfl, rfl⟩ : p' = p ∧ (q, l') :: rq = rest := by simpa using h
        simp [tasks]

/-- The task that is erased was on some level. -/
theorem tasks_erase [DecidableEq P] (h : rq.erase p = some rest) :
    rq.tasks.Perm (p :: rest.tasks) := by
  induction rq generalizing rest with
  | nil => simp [erase] at h
  | cons x rq ih =>
    rcases x with ⟨q, l⟩
    unfold erase at h
    split at h
    · rename_i hmem
      obtain rfl : (q, (l.reverse.erase p).reverse) :: rq = rest := by simpa using h
      have hl : l.Perm (p :: (l.reverse.erase p).reverse) :=
        (l.reverse_perm.symm.trans (List.perm_cons_erase (List.mem_reverse.mpr hmem))).trans
          ((List.reverse_perm _).symm.cons p)
      exact hl.append_right _
    · rcases Option.map_eq_some_iff.mp h with ⟨rest', herase, rfl⟩
      exact ((ih herase).append_left l).trans List.perm_middle

end RunQueue

/-! ## Places -/

/-- The place of a task according to its state. -/
inductive Fits : Option (ShinjukuTask G C T) → Place C → Prop where
  | none : Fits none .out
  | blocked {t : ShinjukuTask G C T} : t.runState = .blocked → t.unscheduleLevel = .no →
    Fits (some t) .out
  | paused {t : ShinjukuTask G C T} : t.runState = .paused → t.hasWork = false →
    t.unscheduleLevel = .no → Fits (some t) .out
  | queued {t : ShinjukuTask G C T} : t.runState = .queued → t.hasWork = true →
    t.unscheduleLevel = .no → Fits (some t) .queued
  | picked {t : ShinjukuTask G C T} {c : C} : t.runState = .queued → t.hasWork = true →
    t.unscheduleLevel = .no → Fits (some t) (.picked c)
  | yielding {t : ShinjukuTask G C T} : t.runState = .yielding → t.hasWork = true →
    t.unscheduleLevel = .no → Fits (some t) .yielding
  | onCpu {t : ShinjukuTask G C T} {c : C} : t.runState = .onCpu → t.cpu = some c →
    (t.hasWork = true ↔ t.unscheduleLevel ≠ .must) → Fits (some t) (.onCpu c)

section Fits

variable {t t' : ShinjukuTask G C T} {p : Place C} {c : C}

/-- What the place depends on. -/
theorem Fits.congr (h : Fits (some t) p) (hstate : t'.runState = t.runState)
    (hcpu : t'.cpu = t.cpu) (hwork : t'.hasWork = t.hasWork)
    (hlevel : t'.unscheduleLevel = t.unscheduleLevel) : Fits (some t') p := by
  cases h with
  | blocked hr hl => exact .blocked (hstate.trans hr) (hlevel.trans hl)
  | paused hr hw hl => exact .paused (hstate.trans hr) (hwork.trans hw) (hlevel.trans hl)
  | queued hr hw hl => exact .queued (hstate.trans hr) (hwork.trans hw) (hlevel.trans hl)
  | picked hr hw hl => exact .picked (hstate.trans hr) (hwork.trans hw) (hlevel.trans hl)
  | yielding hr hw hl => exact .yielding (hstate.trans hr) (hwork.trans hw) (hlevel.trans hl)
  | onCpu hr hc hw => exact .onCpu (hstate.trans hr) (hcpu.trans hc) (by rw [hwork, hlevel, hw])

end Fits

/-- Every task is at the place that fits it. -/
def Good (s : State G C P T) : Prop :=
  Placed Fits s.heap s.runQueue.tasks s.yieldingTasks s.current s.next

/-- Every task but one is at the place that fits it, and that one is nowhere. -/
def Held (s : State G C P T) (p : P) : Prop :=
  Lifted p Fits s.heap s.runQueue.tasks s.yieldingTasks s.current s.next

/-- The data that is not about the places of the tasks. -/
def State.rest (s : State G C P T) :=
  (s.allocator, s.next, s.pausedRepeatables, s.orchs, s.cachedsids, s.mode, s.openCpus)

/-- The fields of the rest, one by one. -/
theorem State.rest_eq {s s' : State G C P T} (h : s'.rest = s.rest) :
    s'.allocator = s.allocator ∧ s'.next = s.next ∧ s'.pausedRepeatables = s.pausedRepeatables ∧
      s'.orchs = s.orchs ∧ s'.cachedsids = s.cachedsids ∧ s'.mode = s.mode ∧
      s'.openCpus = s.openCpus := by
  simpa only [State.rest, Prod.mk.injEq] using h

/-- Only one task has changed, and no task has got on a cpu. -/
structure Moves (s s' : State G C P T) (p : P) : Prop where
  heap : ∀ q ≠ p, s'.heap q = s.heap q
  current : ∀ c q, s'.current c = some q → s.current c = some q
  rest : s'.rest = s.rest

variable {s s' : State G C P T} {p : P}

/-- One function after the other, about the same task. -/
theorem Moves.trans {s'' : State G C P T} (h : Moves s s' p) (h' : Moves s' s'' p) :
    Moves s s'' p where
  heap q hq := (h'.heap q hq).trans (h.heap q hq)
  current c q hq := h.current c q (h'.current c q hq)
  rest := h'.rest.trans h.rest

theorem Moves.refl : Moves s s p :=
  ⟨fun _ _ => rfl, fun _ _ h => h, rfl⟩

/-- The faults that arbitrary messages can lead to. -/
def NotPaused (f : Fault) : Prop :=
  f ≠ .paused

/-- What a handler leaves as it is. -/
structure Kin (t t' : ShinjukuTask G C T) : Prop where
  gtid : t'.gtid = t.gtid
  orch : t'.orch = t.orch
  sp : t'.sp = t.sp
  hasWork : t'.hasWork = t.hasWork
  level : t'.unscheduleLevel = t.unscheduleLevel

variable {t : ShinjukuTask G C T}

theorem Kin.refl : Kin t t := ⟨rfl, rfl, rfl, rfl, rfl⟩

/-- One change after the other. -/
theorem Kin.trans {t' t'' : ShinjukuTask G C T} (h : Kin t t') (h' : Kin t' t'') : Kin t t'' :=
  ⟨h'.gtid.trans h.gtid, h'.orch.trans h.orch, h'.sp.trans h.sp, h'.hasWork.trans h.hasWork,
    h'.level.trans h.level⟩

/-! ## Queues -/

section Queues

variable {s : State G C P T} {p : P} {t t' : ShinjukuTask G C T}

/-- A live task is found. -/
theorem task_eq (ht : s.heap p = some t) : s.task p = .ok t := by
  simp [State.task, ht]

/-- A pointer to a live task is all that a lookup asks for. -/
theorem task_spec : Ensures NotPaused (s.task p) fun t => s.heap p = some t := by
  unfold State.task
  split
  · rename_i ht
    exact .ok ht
  · exact .error (by simp [NotPaused])

/-- A `CHECK` may fail, but not one about `paused()`. -/
theorem check_spec {q : Prop} [Decidable q] : Ensures NotPaused (check .check q) fun _ => q :=
  .check (by simp [NotPaused])

/-- A task may be without an item, and then the agent stops. -/
theorem item_spec : Ensures NotPaused t.item fun sp => t.sp = some sp := by
  unfold ShinjukuTask.item
  split
  · rename_i hsp
    exact .ok hsp
  · exact .error (by simp [NotPaused])

/-- `Front` does not change the run queue. -/
theorem front_spec : Ensures NotPaused (front s) fun o => o = s.runQueue.pop := by
  unfold front
  split
  · rename_i hpop
    exact .ok hpop.symm
  · rename_i hpop
    refine .bind task_spec fun t _ => ?_
    refine .bind check_spec fun _ _ => ?_
    refine .bind check_spec fun _ _ => ?_
    exact .pure hpop.symm

variable [DecidableEq P]

/-- A function that writes one task only. -/
theorem Moves.of_update {o : Option (ShinjukuTask G C T)} (hheap : s'.heap = update s.heap p o)
    (hcurrent : s'.current = s.current) (hrest : s'.rest = s.rest) : Moves s s' p :=
  ⟨fun _ hq => by rw [hheap, update_of_ne hq], fun _ _ h => hcurrent ▸ h, hrest⟩

theorem moves_setTask : Moves s (s.setTask p t) p :=
  .of_update rfl rfl rfl

/-- A change of the data that the place does not depend on. -/
theorem Good.setTask (h : Good s) (ht : s.heap p = some t) (hstate : t'.runState = t.runState)
    (hcpu : t'.cpu = t.cpu) (hwork : t'.hasWork = t.hasWork)
    (hlevel : t'.unscheduleLevel = t.unscheduleLevel) : Good (s.setTask p t') := by
  apply Placed.retask h
  rw [ht]
  intro q hq
  exact hq.congr hstate hcpu hwork hlevel

/-- A change of a task that is on a cpu, and stays there. -/
theorem Good.setTask_onCpu (h : Good s) (ht : s.heap p = some t) (hon : t.runState = .onCpu)
    (hstate : t'.runState = t.runState) (hcpu : t'.cpu = t.cpu)
    (hwork : t'.hasWork = true ↔ t'.unscheduleLevel ≠ .must) : Good (s.setTask p t') := by
  refine Placed.retask h fun q hq => ?_
  rw [ht] at hq
  cases hq with
  | onCpu _ hc => exact .onCpu (hstate.trans hon) (hcpu.trans hc) hwork
  | blocked hr | paused hr | queued hr | picked hr | yielding hr => simp [hon] at hr

/-- The new state of a task that is enqueued. -/
def ShinjukuTask.enqueued (t : ShinjukuTask G C T) : ShinjukuTask G C T :=
  { t with runState := if t.hasWork then .queued else .paused }

/-- The run queue after a task was enqueued, which happens only if the task has work. -/
def Grows (t : ShinjukuTask G C T) (p : P) (rq rq' : RunQueue P) : Prop :=
  if t.hasWork then rq'.tasks.Perm (p :: rq.tasks) else rq' = rq

variable {back : Bool}

/-- `Enqueue` adds the task at one end of its level. -/
theorem enqueue_result (ht : s.heap p = some t) : Ensures NotPaused (enqueue s p back) fun s' =>
      t.unscheduleLevel = .no ∧ ∃ rq, Grows t p s.runQueue rq ∧
        s' = { s.setTask p t.enqueued with runQueue := rq } := by
  unfold enqueue
  rw [task_eq ht, ok_bind]
  refine .bind check_spec fun _ hlevel => ?_
  split
  · rename_i hwork
    refine .bind item_spec fun sp _ => .pure
      ⟨hlevel, s.runQueue.push (s.qosOf sp) (back && !t.prioBoost) p, ?_, ?_⟩
    · rw [Grows, if_pos hwork]
      exact RunQueue.tasks_push _ _ p s.runQueue
    · simp [ShinjukuTask.enqueued, hwork]
  · rename_i hwork
    refine .pure ⟨hlevel, s.runQueue, ?_, ?_⟩
    · rw [Grows, if_neg hwork]
    · simp [ShinjukuTask.enqueued, hwork, State.setTask]

/-- A task that was nowhere is queued or paused. -/
theorem Held.enqueued {rq : RunQueue P} (h : Held s p) (hlevel : t.unscheduleLevel = .no)
    (hrq : Grows t p s.runQueue rq) : Good { s.setTask p t.enqueued with runQueue := rq } := by
  have hretask := h.retask (some t.enqueued)
  unfold Grows at hrq
  split_ifs at hrq with hwork
  · refine hretask.put_queue ?_ hrq
    rw [update_self]
    exact .queued (if_pos hwork) hwork hlevel
  · subst hrq
    refine hretask.put_out ?_
    rw [update_self]
    exact .paused (if_neg hwork) (eq_false_of_ne_true hwork) hlevel

/-- `Enqueue` gives a task that is nowhere its place. -/
theorem enqueue_spec (h : Held s p) (ht : s.heap p = some t) :
    Ensures NotPaused (enqueue s p back) fun s' =>
      Good s' ∧ Moves s s' p ∧ t.unscheduleLevel = .no ∧ s'.heap p = some t.enqueued := by
  refine (enqueue_result ht).mono ?_
  rintro s' ⟨hlevel, rq, hrq, rfl⟩
  exact ⟨h.enqueued hlevel hrq, .of_update rfl rfl rfl, hlevel, update_self ..⟩

/-- The task may have changed since it was put to its place. -/
theorem removeFromRunqueue_changed_spec (h : Good (s.setTask p t')) (ht : s.heap p = some t) :
    Ensures NotPaused (removeFromRunqueue s p) fun s' =>
      Held s' p ∧ Moves s s' p ∧ s'.heap p = some { t with runState := .paused } := by
  unfold removeFromRunqueue
  rw [task_eq ht, ok_bind]
  refine .bind check_spec fun _ _ => ?_
  split
  · rename_i rest hrest
    refine .pure ⟨?_, .of_update rfl rfl rfl, update_self ..⟩
    have hlift := (Placed.lift_queue h (RunQueue.tasks_erase hrest)).retask
      (some { t with runState := .paused })
    rwa [State.setTask, update_idem] at hlift
  · exact .error (by simp [NotPaused])

/-- Writing back what is there. -/
theorem setTask_self (ht : s.heap p = some t) : s.setTask p t = s := by
  rw [State.setTask, ← ht, update_eq_self]

@[simp] theorem setTask_setTask : (s.setTask p t).setTask p t' = s.setTask p t' := by
  simp [State.setTask]

/-- `RemoveFromRunqueue` takes the task from its level. -/
theorem removeFromRunqueue_spec (h : Good s) (ht : s.heap p = some t) :
    Ensures NotPaused (removeFromRunqueue s p) fun s' =>
      Held s' p ∧ Moves s s' p ∧ s'.heap p = some { t with runState := .paused } := by
  rw [← setTask_self ht] at h
  exact removeFromRunqueue_changed_spec h ht

/-- `Yield` of a task that has been taken from its place. -/
theorem yield_spec (h : Held s p) (ht : s.heap p = some t) (hwork : t.hasWork = true)
    (hlevel : t.unscheduleLevel = .no) :
    Ensures NotPaused (yield s p) fun s' =>
      Good s' ∧ Moves s s' p ∧ s'.heap p = some { t with runState := .yielding } := by
  unfold yield
  rw [task_eq ht, ok_bind]
  refine .bind check_spec fun _ _ => .pure ⟨?_, .of_update rfl rfl rfl, update_self ..⟩
  refine (h.retask (some { t with runState := .yielding })).put_yielding ?_
    (List.perm_append_singleton p s.yieldingTasks)
  rw [update_self]
  exact .yielding rfl hwork hlevel

/-- `Unyield` moves the task from one list to the other. -/
theorem unyield_spec (h : Good s) (ht : s.heap p = some t) :
    Ensures NotPaused (unyield s p) fun s' =>
      Good s' ∧ Moves s s' p ∧ t.runState = .yielding ∧ s'.heap p = some t.enqueued := by
  unfold unyield
  rw [task_eq ht, ok_bind]
  refine .bind check_spec fun _ hr => ?_
  refine .bind check_spec fun _ hmem => ?_
  have hheld : Held { s with yieldingTasks := s.yieldingTasks.erase p } p :=
    Placed.lift_yielding h (List.perm_cons_erase hmem)
  refine (enqueue_spec hheld ht).mono ?_
  rintro s' ⟨hgood, hmoves, -, hheap⟩
  exact ⟨hgood, ⟨hmoves.heap, hmoves.current, hmoves.rest⟩, hr, hheap⟩

variable [DecidableEq C]

/-- The cpu of a task loses its current task. -/
theorem clearCurrent_spec (h : Good s) (ht : s.heap p = some t) :
    Ensures NotPaused (clearCurrent s p) fun s' =>
      Held s' p ∧ Moves s s' p ∧ s'.heap = s.heap := by
  unfold clearCurrent
  rw [task_eq ht, ok_bind]
  refine .bind check_spec fun _ _ => ?_
  split
  · exact .error (by simp [NotPaused])
  · rename_i c _
    refine .bind check_spec fun _ hcurrent => .pure ⟨Placed.lift_current h hcurrent, ?_, rfl⟩
    refine ⟨fun _ _ => rfl, fun c' q hq => ?_, rfl⟩
    by_cases hc : c' = c
    · simp [hc] at hq
    · simpa [update_of_ne hc] using hq

end Queues

/-! ## Messages -/

section Messages

variable {s : State G C P T} {p : P} {t : ShinjukuTask G C T}

/-- Every task has a place. -/
theorem Good.fits (h : Good s) (ht : s.heap p = some t) : ∃ q, Fits (some t) q := by
  rcases h with ⟨place, -, hfits⟩
  exact ⟨place p, ht ▸ hfits p⟩

/-- A blocked or a paused task is nowhere already. -/
theorem Good.lift_out (h : Good s) (ht : s.heap p = some t)
    (hr : t.runState = .blocked ∨ t.runState = .paused) : Held s p := by
  refine Placed.lift_out h fun q hq => ?_
  grind [cases Shinjuku.Fits]

/-- A task on a cpu that is not marked has work. -/
theorem Good.hasWork_of_onCpu (h : Good s) (ht : s.heap p = some t) (hr : t.runState = .onCpu)
    (hlevel : t.unscheduleLevel = .no) : t.hasWork = true := by
  rcases h.fits ht with ⟨q, hq⟩
  grind [cases Shinjuku.Fits]

section Leave

variable [DecidableEq P]

variable {runtime : ℕ}

/-- `UpdateTaskRuntime` changes no place. -/
theorem updateTaskRuntime_spec {b : Bool} (h : Good s) (ht : s.heap p = some t) :
    Ensures NotPaused (updateTaskRuntime s p runtime b) fun s' =>
      Good s' ∧ Moves s s' p ∧ ∃ t', s'.heap p = some t' ∧ Kin t t' ∧ t'.runState = t.runState := by
  unfold updateTaskRuntime
  rw [task_eq ht, ok_bind]
  refine .bind check_spec fun _ _ => .bind check_spec fun _ _ => .pure ⟨?_, moves_setTask, ?_⟩
  · exact h.setTask ht rfl rfl rfl rfl
  · exact ⟨_, update_self .., ⟨rfl, rfl, rfl, rfl, rfl⟩, rfl⟩

/-- A task that yields goes back to the run queue first. -/
theorem unyield_if_spec (h : Good s) (ht : s.heap p = some t) :
    Ensures NotPaused (if t.runState = .yielding then unyield s p else .ok s) fun s' =>
      Good s' ∧ Moves s s' p ∧ ∃ t', s'.heap p = some t' ∧ Kin t t' ∧
        (t.runState ≠ .yielding → t' = t) ∧ (t.runState = .yielding → t' = t.enqueued) := by
  split_ifs with hr
  · refine (unyield_spec h ht).mono ?_
    rintro s' ⟨hgood, hmoves, -, hheap⟩
    exact ⟨hgood, hmoves, _, hheap, ⟨rfl, rfl, rfl, rfl, rfl⟩, fun hne => absurd hr hne,
      fun _ => rfl⟩
  · exact .ok ⟨h, .refl, t, ht, .refl, fun _ => rfl, fun hr' => absurd hr' hr⟩

variable [DecidableEq C]

/-- A task on a cpu gets off it. -/
theorem getOffCpu_spec (h : Good s) (ht : s.heap p = some t) :
    Ensures NotPaused (getOffCpu s p runtime) fun s' =>
      Held s' p ∧ Moves s s' p ∧
        ∃ t', s'.heap p = some t' ∧ Kin t t' ∧ t'.runState = t.runState := by
  refine .bind (updateTaskRuntime_spec h ht) fun s₁ ⟨hgood, hmoves, t₁, ht₁, hkin⟩ => ?_
  refine (clearCurrent_spec hgood ht₁).mono ?_
  rintro s' ⟨hheld, hmoves', hheap⟩
  exact ⟨hheld, hmoves.trans hmoves', t₁, hheap ▸ ht₁, hkin⟩

/-- `TaskDeparted` takes the task from wherever it is. -/
theorem departFrom_spec (h : Good s) (ht : s.heap p = some t) :
    Ensures NotPaused (departFrom s p) fun s' =>
      Held s' p ∧ Moves s s' p ∧ ∃ t', s'.heap p = some t' ∧ t'.gtid = t.gtid := by
  unfold departFrom
  rw [task_eq ht, ok_bind]
  split_ifs
  · refine (clearCurrent_spec h ht).mono ?_
    rintro s' ⟨hheld, hmoves, hheap⟩
    exact ⟨hheld, hmoves, t, hheap ▸ ht, rfl⟩
  · refine (removeFromRunqueue_spec h ht).mono ?_
    rintro s' ⟨hheld, hmoves, hheap⟩
    exact ⟨hheld, hmoves, _, hheap, rfl⟩
  · refine .bind check_spec fun _ hr => .pure ?_
    exact ⟨h.lift_out ht hr, .refl, t, ht, rfl⟩

/-- `TaskBlocked` first takes the task from its cpu or its level. -/
theorem blockFrom_spec (h : Good s) (ht : s.heap p = some t) :
    Ensures NotPaused (blockFrom s p runtime) fun s' =>
      Held s' p ∧ Moves s s' p ∧ ∃ t', s'.heap p = some t' ∧ Kin t t' := by
  unfold blockFrom
  rw [task_eq ht, ok_bind]
  split_ifs
  · refine (getOffCpu_spec h ht).mono ?_
    rintro s' ⟨hheld, hmoves, t', ht', hkin, -⟩
    exact ⟨hheld, hmoves, t', ht', hkin⟩
  · refine (removeFromRunqueue_spec h ht).mono ?_
    rintro s' ⟨hheld, hmoves, hheap⟩
    exact ⟨hheld, hmoves, _, hheap, ⟨rfl, rfl, rfl, rfl, rfl⟩⟩
  · refine .bind check_spec fun _ hr => .pure ?_
    exact ⟨h.lift_out ht (.inr hr), .refl, t, ht, .refl⟩

end Leave

/-- What a message may do to its task. Only messages that end its stay block or free it. -/
inductive Handled [DecidableEq G] [DecidableEq P] (s : State G C P T) (p : P)
    (t : ShinjukuTask G C T) (ends : Prop) : State G C P T → Prop where
  | stays {s' : State G C P T} {t' : ShinjukuTask G C T} : Good s' → Moves s s' p →
    s'.heap p = some t' → Kin t t' → (t'.runState = .blocked → t.runState = .blocked ∨ ends) →
    Handled s p t ends s'
  | freed {s' : State G C P T} : Held s' p → Moves s s' p → ends →
    Handled s p t ends { s' with
      allocator := update s'.allocator t.gtid none
      heap := update s'.heap p none
      numTasks := s'.numTasks - 1 }

variable [DecidableEq G] [DecidableEq P]

variable {ends : Prop}

/-- A handler leaves every task at a place that fits it. -/
theorem Handled.good (h : Handled s p t ends s') : Good s' := by
  cases h with
  | stays hgood => exact hgood
  | freed hheld =>
    refine (hheld.retask none).put_out ?_
    rw [update_self]
    exact .none

variable {t₀ : ShinjukuTask G C T} {s₀ : State G C P T}

/-- A task that is nowhere may be freed. -/
theorem freeTask_spec (h : Held s p) (hmoves : Moves s₀ s p) (ht : s.heap p = some t)
    (hgtid : t.gtid = t₀.gtid) (hends : ends) :
    Ensures NotPaused (freeTask s p) (Handled s₀ p t₀ ends) := by
  unfold freeTask
  rw [task_eq ht, ok_bind, hgtid]
  exact .pure (.freed h hmoves hends)

/-- `TaskDead`, of a blocked task. -/
theorem taskDead_spec (h : Good s) (ht : s.heap p = some t) (hends : ends) :
    Ensures NotPaused (taskDead s p) (Handled s p t ends) := by
  unfold taskDead
  rw [task_eq ht, ok_bind]
  refine .bind check_spec fun _ hr => ?_
  exact freeTask_spec (h.lift_out ht (.inl hr)) .refl ht rfl hends

variable {deferrable : Bool}

/-- `TaskRunnable`, of a blocked task. -/
theorem taskRunnable_spec (h : Good s) (ht : s.heap p = some t) :
    Ensures NotPaused (taskRunnable s p deferrable) (Handled s p t ends) := by
  unfold taskRunnable
  rw [task_eq ht, ok_bind]
  refine .bind check_spec fun _ hr => ?_
  have hgood : Good (s.setTask p { t with prioBoost := !deferrable }) :=
    h.setTask ht rfl rfl rfl rfl
  have hheld := hgood.lift_out (update_self ..) (.inl hr)
  refine (enqueue_spec hheld (update_self ..)).mono ?_
  rintro s' ⟨hgood', hmoves, -, hheap⟩
  exact .stays hgood' (moves_setTask.trans hmoves) hheap ⟨rfl, rfl, rfl, rfl, rfl⟩ fun _ => .inl hr

/-- `Advance` changes the sequence number only. -/
theorem advance_spec {seqnum : ℕ} (h : Handled s₀ p t₀ ends s) :
    Ensures NotPaused (advance s p seqnum) (Handled s₀ p t₀ ends) := by
  refine .bind task_spec fun t ht => .bind check_spec fun _ _ => .pure ?_
  cases h with
  | stays hgood hmoves ht' hkin hblocked =>
    obtain rfl : _ = t := Option.some.inj (ht'.symm.trans ht)
    exact .stays (hgood.setTask ht rfl rfl rfl rfl) (hmoves.trans moves_setTask)
      (update_self ..) (hkin.trans ⟨rfl, rfl, rfl, rfl, rfl⟩) hblocked
  | freed =>
    -- there is no task to advance
    simp at ht

variable [DecidableEq C]

/-- `TaskDeparted`, from any place. -/
theorem taskDeparted_spec (h : Good s) (ht : s.heap p = some t) (hends : ends) :
    Ensures NotPaused (taskDeparted s p) (Handled s p t ends) := by
  unfold taskDeparted
  rw [task_eq ht, ok_bind]
  refine .bind (unyield_if_spec h ht) fun s₁ ⟨hgood, hmoves, t₁, ht₁, hkin, _⟩ => ?_
  refine .bind (departFrom_spec hgood ht₁) fun s₂ ⟨hheld, hmoves', t₂, ht₂, hgtid⟩ => ?_
  exact freeTask_spec hheld (hmoves.trans hmoves') ht₂ (hgtid.trans hkin.gtid) hends

/-- `TaskBlocked`, from any place but the yielding tasks. -/
theorem taskBlocked_spec {runtime : ℕ} (h : Good s) (ht : s.heap p = some t)
    (hlevel : t.unscheduleLevel = .no) (hends : ends) :
    Ensures NotPaused (taskBlocked s p runtime) (Handled s p t ends) := by
  refine .bind (blockFrom_spec h ht) fun s₁ ⟨hheld, hmoves, t₁, ht₁, hkin⟩ => ?_
  rw [task_eq ht₁, ok_bind]
  refine .pure (.stays ?_ (hmoves.trans moves_setTask) (update_self ..)
    (hkin.trans ⟨rfl, rfl, rfl, rfl, rfl⟩) fun _ => .inr hends)
  refine (hheld.retask _).put_out ?_
  rw [update_self]
  exact .blocked rfl (hkin.level.trans hlevel)

/-- `TaskPreempted`: the task goes to the back of its level, unless it is paused. -/
theorem taskPreempted_spec {runtime : ℕ} (h : Good s) (ht : s.heap p = some t) :
    Ensures NotPaused (taskPreempted s p runtime) (Handled s p t ends) := by
  unfold taskPreempted
  rw [task_eq ht, ok_bind]
  set s₀ := s.setTask p { t with preempted := true, prioBoost := true }
  have hgood : Good s₀ := h.setTask ht rfl rfl rfl rfl
  have ht₁ : s₀.heap p = _ := update_self ..
  -- wherever it is enqueued from, it is queued or paused afterwards
  have henqueue {s₁ t₁} (hheld : Held s₁ p) (hmoves : Moves s₀ s₁ p)
      (ht₁ : s₁.heap p = some t₁) (hkin : Kin { t with preempted := true, prioBoost := true } t₁) :
      Ensures NotPaused (enqueue s₁ p true) (Handled s p t ends) := by
    refine (enqueue_spec hheld ht₁).mono ?_
    rintro s' ⟨hgood', hmoves', -, hheap⟩
    refine .stays hgood' ((moves_setTask.trans hmoves).trans hmoves') hheap
      ⟨hkin.gtid, hkin.orch, hkin.sp, hkin.hasWork, hkin.level⟩ fun hblocked => ?_
    simp only [ShinjukuTask.enqueued] at hblocked
    split at hblocked <;> cases hblocked
  split_ifs
  · -- on its cpu
    refine .bind (getOffCpu_spec hgood ht₁) fun s₁ ⟨hheld, hmoves, t₁, ht₁, hkin, _⟩ => ?_
    exact henqueue hheld hmoves ht₁ hkin
  · -- in the middle of its level
    refine .bind (removeFromRunqueue_spec hgood ht₁) fun s₁ ⟨hheld, hmoves, hheap⟩ => ?_
    exact henqueue hheld hmoves hheap ⟨rfl, rfl, rfl, rfl, rfl⟩
  · -- paused
    refine .bind check_spec fun _ hr => .pure ?_
    refine .stays hgood moves_setTask ht₁ ⟨rfl, rfl, rfl, rfl, rfl⟩ fun hblocked => ?_
    exact .inl hblocked

/-- `TaskYield`: a task on a cpu skips a round. -/
theorem taskYield_spec {runtime : ℕ} (h : Good s) (ht : s.heap p = some t)
    (hlevel : t.unscheduleLevel = .no) :
    Ensures NotPaused (taskYield s p runtime) (Handled s p t ends) := by
  unfold taskYield
  rw [task_eq ht, ok_bind]
  split_ifs with hr
  · have hwork := h.hasWork_of_onCpu ht hr hlevel
    refine .bind (getOffCpu_spec h ht) fun s₁ ⟨hheld, hmoves, t₁, ht₁, hkin, _⟩ => ?_
    refine (yield_spec hheld ht₁ (hkin.hasWork.trans hwork) (hkin.level.trans hlevel)).mono ?_
    rintro s' ⟨hgood, hmoves', hheap⟩
    exact .stays hgood (hmoves.trans hmoves') hheap (hkin.trans ⟨rfl, rfl, rfl, rfl, rfl⟩) (by simp)
  · -- queued or paused
    refine .bind check_spec fun _ _ => .pure ?_
    exact .stays h .refl ht .refl .inl

/-- The messages after which a thread does not want to run. -/
def Ends : Kernel.Msg C Unit → Prop
  | .blocked _ _ | .dead | .departed _ => True
  | _ => False

/-- A message about a thread that has a task, while no task is marked. -/
theorem taskMessage_spec {e : Entry G C Unit} (h : Good s) (ht : s.heap p = some t)
    (hlevel : t.unscheduleLevel = .no) :
    Ensures NotPaused (taskMessage s p e deferrable) (Handled s p t (Ends e.msg)) := by
  have hstays : Handled s p t (Ends e.msg) s := .stays h .refl ht .refl .inl
  unfold taskMessage
  cases hmsg : e.msg with
  | new info runnable => exact .ok (hmsg ▸ hstays)
  | dead => exact taskDead_spec h ht trivial
  | departed current => exact taskDeparted_spec h ht trivial
  | wakeup => exact .bind (taskRunnable_spec h ht) fun _ h' => advance_spec h'
  | blocked c b => exact .bind (taskBlocked_spec h ht hlevel trivial) fun _ h' => advance_spec h'
  | preempt c b => exact .bind (taskPreempted_spec h ht) fun _ h' => advance_spec h'
  | yield c b => exact .bind (taskYield_spec h ht hlevel) fun _ h' => advance_spec h'
  | onCpu c | switchto c | affinityChanged | prioChanged => exact advance_spec (hmsg ▸ hstays)

end Messages

end Shinjuku
