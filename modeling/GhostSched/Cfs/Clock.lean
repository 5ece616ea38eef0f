import GhostSched.Cfs.Runqueue

/-!
# The clock of a runqueue

`min_vruntime_` is where the runqueue has got to: a task that is enqueued starts
from there at the earliest. It is set in two ways. `UpdateMinVruntime` takes a
maximum, so it cannot go back. `InsertTaskIntoRq` takes the vruntime of the
leftmost task as it is, and that is behind the clock if the task that was inserted
is.

* `RqOp` are the operations on one runqueue, and `rqStep` is one of them.
* `Clock` is the invariant: no task of the runqueue is behind the clock.
* `NotBehind` is what a step must not do: put back a task that is behind.
* `clock_monotone` is the result for every sequence of operations;
  `clock_goes_back` shows that picking a task can leave it behind.
-/

namespace Cfs

open Transition Function

variable {G C P : Type*}

section Ops

variable [DecidableEq G] [DecidableEq C] [LinearOrder P]

/-- `PickNextTask` puts the task that was picked before back on the runqueue. -/
def PutsBack (c : C) (s : State G C P) (p : P) : Prop :=
  (s.heap p).state = .runnable ∨ (s.heap p).state = .running ∧ (s.cpus c).preemptCurr = true

/-- A task that is put back is not behind the clock. -/
def NotBehind (c : C) (s : State G C P) : RqOp C P → Prop
  | .putPrevTask p => (s.cpus c).minVruntime ≤ (s.heap p).vruntime
  | .pickNextTask _ => ∀ p ∈ (s.cpus c).current, PutsBack c s p →
      (s.cpus c).minVruntime ≤ (s.heap p).vruntime
  | _ => True

/-- No task of the runqueue is behind the clock. -/
structure Clock (c : C) (s : State G C P) : Prop where
  ordered : Ordered s.heap (s.cpus c).rq
  ahead : ∀ q ∈ (s.cpus c).rq, (s.cpus c).minVruntime ≤ (s.heap q).vruntime

/-- The current task is not on the runqueue. -/
def Apart (c : C) (s : State G C P) : Prop := ∀ p ∈ (s.cpus c).current, p ∉ (s.cpus c).rq

/-- The clock is still right, and it did not go back. -/
structure Advances (c : C) (s s' : State G C P) : Prop where
  clock : Clock c s'
  le : (s.cpus c).minVruntime ≤ (s'.cpus c).minVruntime

end Ops

/-! ## Steps -/

section Clock

variable {s s' s'' : State G C P} {c : C} [LinearOrder P]

/-- Nothing happens. -/
theorem Clock.advances (h : Clock c s) : Advances c s s := ⟨h, le_refl _⟩

/-- One part after the other. -/
theorem Advances.trans (h : Advances c s s') (h' : Advances c s' s'') : Advances c s s'' :=
  ⟨h'.clock, h.le.trans h'.le⟩

/-- The clock and the vruntimes of the tasks on the runqueue are the same, and no task was
added. -/
theorem Clock.frame (h : Clock c s) (hrq : (s'.cpus c).rq.Sublist (s.cpus c).rq)
    (hv : ∀ q ∈ (s'.cpus c).rq, (s'.heap q).vruntime = (s.heap q).vruntime)
    (hmin : (s'.cpus c).minVruntime = (s.cpus c).minVruntime) : Advances c s s' := by
  refine ⟨⟨?_, ?_⟩, hmin.ge⟩
  · exact Ordered.congr (List.Pairwise.sublist hrq h.ordered) hv
  · intro q hq
    rw [hmin, hv q hq]
    exact h.ahead q (hrq.subset hq)

end Clock

variable {s : State G C P} {p : P}

/-- A task changes, but its vruntime does not. -/
theorem vruntime_modify [DecidableEq P] {f : CfsTask G C → CfsTask G C}
    (hf : ∀ t, (f t).vruntime = t.vruntime) (q : P) :
    ((s.modify p f).heap q).vruntime = (s.heap q).vruntime := by
  show (update s.heap p (f (s.heap p)) q).vruntime = _
  by_cases hq : q = p
  · subst hq
    rw [update_self, hf]
  · rw [update_of_ne hq]

theorem vruntime_setState [DecidableEq P] {state : RunState} (q : P) :
    ((s.setState p state).heap q).vruntime = (s.heap q).vruntime :=
  vruntime_modify (by intro t; rfl) q

theorem vruntime_setOnRq [DecidableEq P] {onRq : OnRq} (q : P) :
    ((s.setOnRq p onRq).heap q).vruntime = (s.heap q).vruntime :=
  vruntime_modify (by intro t; rfl) q

variable {q : P}

/-- The clock is not ahead of a queued task. -/
theorem Clock.leastVruntime_le [LinearOrder P] {c : C} (h : Clock c s) (hq : q ∈ (s.cpus c).rq) :
    Rq.leastVruntime s c ≤ (s.heap q).vruntime := by
  unfold Rq.leastVruntime Rq.leftmost
  cases hrq : (s.cpus c).rq with
  | nil =>
    rw [hrq] at hq
    cases hq
  | cons a rest =>
    have hle : (s.heap a).vruntime ≤ (s.heap q).vruntime :=
      Ordered.leftmost_le (hrq ▸ h.ordered) (hrq ▸ hq)
    cases Rq.contender s c with
    | none => exact hle
    | some p => exact (min_le_right ..).trans hle

section Steps

variable [DecidableEq C] [LinearOrder P] {s s' : State G C P} {c : C} {p : P}

theorem insertTaskIntoRq_cpu : (Rq.insertTaskIntoRq s c p).cpus c =
    (s.cpus c).queued s.heap p { s.heap p with onRq := .queued } := by
  simp only [Rq.insertTaskIntoRq, Rq.setMinVruntime, Rq.store, State.setCpu, Rq.leftmost,
    update_self]
  rfl

/-- A task that is not behind goes on the runqueue. -/
theorem Clock.insert (h : Clock c s) (hle : (s.cpus c).minVruntime ≤ (s.heap p).vruntime) :
    Advances c s (Rq.insertTaskIntoRq s c p) := by
  set s' := Rq.insertTaskIntoRq s c p
  have hv : ∀ q, (s'.heap q).vruntime = (s.heap q).vruntime := vruntime_setOnRq
  have hall : ∀ q ∈ Rq.insert s'.heap p (s.cpus c).rq,
      (s.cpus c).minVruntime ≤ (s'.heap q).vruntime := by
    intro q hq
    rw [hv q]
    rcases mem_insert.mp hq with rfl | hq
    · exact hle
    · exact h.ahead q hq
  have hord : Ordered s'.heap (Rq.insert s'.heap p (s.cpus c).rq) :=
    (h.ordered.congr fun q _ => hv q).insert
  -- the clock is the vruntime of the leftmost task
  have hcpu : s'.cpus c = _ := insertTaskIntoRq_cpu
  have hne : Rq.insert s'.heap p (s.cpus c).rq ≠ [] := insert_ne_nil
  rcases List.exists_cons_of_ne_nil hne with ⟨a, rest, hcons⟩
  rw [hcons] at hall hord
  have hrq : (s'.cpus c).rq = a :: rest := by
    rw [hcpu]
    exact hcons
  have hmin : (s'.cpus c).minVruntime = (s'.heap a).vruntime := by
    rw [hcpu]
    show ((Rq.insert s'.heap p (s.cpus c).rq).head?.map fun q => (s'.heap q).vruntime).getD 0 = _
    rw [hcons]
    rfl
  refine ⟨⟨hrq ▸ hord, ?_⟩, hmin ▸ hall a List.mem_cons_self⟩
  intro q hq
  rw [hrq] at hq
  rw [hmin]
  exact hord.leftmost_le hq

theorem mem_insertTaskIntoRq :
    q ∈ ((Rq.insertTaskIntoRq s c p).cpus c).rq ↔ q = p ∨ q ∈ (s.cpus c).rq := by
  rw [insertTaskIntoRq_cpu]
  exact mem_insert

/-- A task that is enqueued starts from the clock. -/
theorem Clock.enqueueTask (h : Clock c s) (hp : p ∉ (s.cpus c).rq) :
    Advances c s (Rq.enqueueTask s c p) := by
  have hset : Advances c s (s.modify p fun t =>
      { t with vruntime := max (s.cpus c).minVruntime t.vruntime }) := by
    refine h.frame (List.Sublist.refl _) (fun q hq => ?_) rfl
    have hne : q ≠ p := fun heq => hp (heq ▸ hq)
    exact congrArg CfsTask.vruntime (update_of_ne hne ..)
  refine hset.trans (hset.clock.insert ?_)
  show _ ≤ (update s.heap p _ p).vruntime
  rw [update_self]
  exact le_max_left ..

theorem mem_enqueueTask : q ∈ ((Rq.enqueueTask s c p).cpus c).rq ↔ q = p ∨ q ∈ (s.cpus c).rq :=
  mem_insertTaskIntoRq

theorem Clock.dequeueTask (h : Clock c s) : Advances c s (Rq.dequeueTask s c p) := by
  simp only [Rq.dequeueTask]
  split
  · refine h.frame ?_ (fun q _ => vruntime_setOnRq q) ?_
    · simp only [Rq.store, State.setCpu, update_self]
      exact List.erase_sublist
    · simp only [Rq.store, State.setCpu, update_self]
      rfl
  · exact h.frame (List.Sublist.refl _) (fun _ _ => rfl) rfl

theorem Clock.updateMinVruntime (h : Clock c s) : Advances c s (Rq.updateMinVruntime s c) := by
  have hcpu : (Rq.updateMinVruntime s c).cpus c =
      { s.cpus c with minVruntime := max (s.cpus c).minVruntime (Rq.leastVruntime s c) } :=
    update_self ..
  refine ⟨⟨?_, ?_⟩, ?_⟩
  · rw [hcpu]
    exact h.ordered
  · rw [hcpu]
    intro q hq
    exact max_le (h.ahead q hq) (h.leastVruntime_le hq)
  · rw [hcpu]
    exact le_max_left ..

/-- The leftmost task is taken off the runqueue. -/
theorem Clock.takeLeftmost (runtime : UInt64) (h : Clock c s) :
    Advances c s (Rq.takeLeftmost s c runtime).1 ∧
      ∀ p ∈ (Rq.takeLeftmost s c runtime).2, p ∉ ((Rq.takeLeftmost s c runtime).1.cpus c).rq := by
  unfold Rq.takeLeftmost
  cases hrq : (s.cpus c).rq with
  | nil => exact ⟨h.updateMinVruntime, nofun⟩
  | cons p rest =>
    have hdeq : Advances c s (Rq.dequeueTask s c p) := h.dequeueTask
    set s₁ := ((Rq.dequeueTask s c p).setState p .running).modify p fun t =>
      { t with runtimeAtFirstPick := runtime }
    have hset : Advances c (Rq.dequeueTask s c p) s₁ :=
      hdeq.clock.frame (List.Sublist.refl _)
        (fun q _ => (vruntime_modify (by intro t; rfl) q).trans (vruntime_setState q)) rfl
    refine ⟨hdeq.trans (hset.trans hset.clock.updateMinVruntime), ?_⟩
    intro q hq
    cases hq
    -- the tasks of a runqueue in order are distinct
    have hcpu : ((Rq.dequeueTask s c p).cpus c).rq = rest := by
      simp [Rq.dequeueTask, State.touch, hrq, Rq.store, State.setCpu]
    have hupd : ((Rq.updateMinVruntime s₁ c).cpus c).rq = ((Rq.dequeueTask s c p).cpus c).rq := by
      simp only [Rq.updateMinVruntime, Rq.setMinVruntime, State.setCpu, update_self]
      rfl
    have hnodup : (p :: rest).Nodup := hrq ▸ h.ordered.nodup
    rw [hupd, hcpu]
    exact (List.nodup_cons.mp hnodup).1

variable {ps : List P}

theorem attachTasks_cons :
    Cfs.attachTasks s c (p :: ps) = Cfs.attachTasks (Rq.enqueueTask s c p) c ps := by
  unfold Cfs.attachTasks
  rw [List.foldl_cons]

theorem Clock.attachTasks (h : Clock c s) (hnodup : ps.Nodup) (hps : ∀ p ∈ ps, p ∉ (s.cpus c).rq) :
    Advances c s (Cfs.attachTasks s c ps) := by
  induction ps generalizing s with
  | nil => exact h.advances
  | cons p ps ih =>
    rcases List.nodup_cons.mp hnodup with ⟨hp, hnodup⟩
    have hone := h.enqueueTask (hps p List.mem_cons_self)
    rw [attachTasks_cons]
    refine hone.trans (ih hone.clock hnodup fun q hq => ?_)
    rw [mem_enqueueTask, not_or]
    exact ⟨fun heq => hp (heq ▸ hq), hps q (List.mem_cons_of_mem p hq)⟩

theorem mem_attachTasks (h : q ∈ ((Cfs.attachTasks s c ps).cpus c).rq) :
    q ∈ ps ∨ q ∈ (s.cpus c).rq := by
  induction ps generalizing s with
  | nil => exact .inr h
  | cons p ps ih =>
    rw [attachTasks_cons] at h
    rcases ih h with hq | hq
    · exact .inl (List.mem_cons_of_mem p hq)
    · rcases mem_enqueueTask.mp hq with rfl | hq
      · exact .inl List.mem_cons_self
      · exact .inr hq

theorem enqueueTask_current : ((Rq.enqueueTask s c p).cpus c).current = (s.cpus c).current := by
  unfold Rq.enqueueTask
  rw [insertTaskIntoRq_cpu]
  rfl

theorem attachTasks_current : ((Cfs.attachTasks s c ps).cpus c).current = (s.cpus c).current := by
  induction ps generalizing s with
  | nil => rfl
  | cons p ps ih =>
    rw [attachTasks_cons]
    exact ih.trans enqueueTask_current

variable {runtime : UInt64}

omit [DecidableEq C] in
/-- The current task, which is not on the runqueue, is charged. -/
theorem Clock.charge (h : Clock c s) (hp : p ∉ (s.cpus c).rq) :
    Advances c s (Cfs.charge s p runtime) := by
  refine h.frame (List.Sublist.refl _) (fun q hq => ?_) rfl
  have hne : q ≠ p := fun heq => hp (heq ▸ hq)
  exact congrArg CfsTask.vruntime (update_of_ne hne ..)

variable [DecidableEq G]

/-- The task that was picked before is put back, or it is not. -/
theorem Clock.reconcile (h : Clock c s)
    (hle : (s.heap p).state = .runnable ∨ (s.heap p).state = .running →
      (s.cpus c).minVruntime ≤ (s.heap p).vruntime) :
    Advances c s (Rq.reconcile s c p) := by
  have htouch : Advances c s (s.touch [p]) :=
    h.frame (List.Sublist.refl _) (fun _ _ => rfl) rfl
  unfold Rq.reconcile
  split
  · exact htouch
  · have hdeq := htouch.trans (htouch.clock.dequeueTask (p := p))
    exact hdeq.trans (hdeq.clock.frame (List.Sublist.refl _) (fun _ _ => rfl) rfl)
  · exact htouch.trans (htouch.clock.insert (hle (.inl ‹_›)))
  · have hput := htouch.trans (htouch.clock.insert (p := p) (hle (.inr ‹_›)))
    exact hput.trans (hput.clock.frame (List.Sublist.refl _) (fun q _ => vruntime_setState q) rfl)

theorem Clock.pickNextTask (prev : Option P) (runtime : UInt64) (h : Clock c s)
    (hprev : ∀ p ∈ prev, p ∉ (s.cpus c).rq)
    (hle : ∀ p ∈ prev, PutsBack c s p → (s.cpus c).minVruntime ≤ (s.heap p).vruntime) :
    Advances c s (Rq.pickNextTask s c prev runtime).1 ∧ ∀ p ∈ (Rq.pickNextTask s c prev runtime).2,
        p ∉ ((Rq.pickNextTask s c prev runtime).1.cpus c).rq := by
  have htouch : Advances c s (s.touch prev.toList) :=
    h.frame (List.Sublist.refl _) (fun _ _ => rfl) rfl
  have hreset : ∀ s : State G C P, Clock c s →
      Advances c s (s.setCpu c { s.cpus c with preemptCurr := false }) := by
    intro s h
    refine h.frame ?_ (fun _ _ => rfl) ?_
    · simp only [State.setCpu, update_self]
      exact List.Sublist.refl _
    · simp only [State.setCpu, update_self]
  simp only [Rq.pickNextTask]
  split
  · exact ⟨htouch, hprev⟩
  · have hset := htouch.trans (hreset _ htouch.clock)
    split
    · have htake := Clock.takeLeftmost runtime hset.clock
      exact ⟨hset.trans htake.1, htake.2⟩
    · rename_i p hkept
      have hback : (s.heap p).state = .runnable ∨ (s.heap p).state = .running → PutsBack c s p :=
        fun hstate => hstate.imp_right fun hrun => ⟨hrun, by
          -- a task that goes on running was kept above
          by_contra hflag
          exact hkept (decide_eq_true ⟨hrun, Bool.not_eq_true _ ▸ hflag⟩)⟩
      have hrec := hset.trans (hset.clock.reconcile (p := p) fun hstate => by
        simp only [State.setCpu, update_self]
        exact hle p rfl (hback hstate))
      have htake := Clock.takeLeftmost runtime hrec.clock
      exact ⟨hrec.trans htake.1, htake.2⟩

theorem pickAs_cpu {prev : Option P} : (Rq.pickAs s c prev runtime).cpus c =
    { (Rq.pickNextTask s c prev runtime).1.cpus c with
      current := (Rq.pickNextTask s c prev runtime).2 } :=
  update_self ..

/-- The task that is picked becomes the current one. -/
theorem Clock.pickAs (prev : Option P) (runtime : UInt64) (h : Clock c s)
    (hprev : ∀ p ∈ prev, p ∉ (s.cpus c).rq)
    (hle : ∀ p ∈ prev, PutsBack c s p → (s.cpus c).minVruntime ≤ (s.heap p).vruntime) :
    Advances c s (Rq.pickAs s c prev runtime) ∧ Apart c (Rq.pickAs s c prev runtime) := by
  rcases h.pickNextTask prev runtime hprev hle with ⟨hadv, hapart⟩
  refine ⟨hadv.trans (hadv.clock.frame ?_ (fun _ _ => rfl) ?_), ?_⟩
  · rw [pickAs_cpu]
  · rw [pickAs_cpu]
  · unfold Apart
    rw [pickAs_cpu]
    exact hapart

/-- Detaching takes tasks off the runqueue and does nothing else to it. -/
theorem detachTasks_spec (dst : C) (ok : P → Bool) (ps : List P) (n : ℕ) (s : State G C P) :
    ((Cfs.detachTasks c dst ok ps n s).1.cpus c).rq.Sublist (s.cpus c).rq ∧
      (∀ q, ((Cfs.detachTasks c dst ok ps n s).1.heap q).vruntime = (s.heap q).vruntime) ∧
      ((Cfs.detachTasks c dst ok ps n s).1.cpus c).minVruntime = (s.cpus c).minVruntime ∧
      ((Cfs.detachTasks c dst ok ps n s).1.cpus c).current = (s.cpus c).current := by
  induction ps generalizing n s with
  | nil => exact ⟨List.Sublist.refl _, fun _ => rfl, rfl, rfl⟩
  | cons p ps ih =>
    simp only [Cfs.detachTasks]
    split
    · exact ⟨List.Sublist.refl _, fun _ => rfl, rfl, rfl⟩
    · split
      · rename_i s₁ hcan
        -- associating a task changes its channel only
        have hsame : s₁.heap = s.heap ∧ s₁.cpus = s.cpus := by
          rcases Option.ite_none_right_eq_some.mp hcan with ⟨-, hcan⟩
          rcases Option.ite_none_right_eq_some.mp hcan with ⟨-, hcan⟩
          cases hcan
          exact ⟨rfl, rfl⟩
        rcases ih (n - 1) (detachTask s₁ c dst p) with ⟨hrq, hv, hmin, hcur⟩
        have hcpu : (detachTask s₁ c dst p).cpus c = (s₁.cpus c).unqueued p :=
          update_self ..
        rw [hcpu, hsame.2] at hrq hmin hcur
        refine ⟨hrq.trans List.erase_sublist, fun q => ?_, hmin, hcur⟩
        refine (hv q).trans ((vruntime_setOnRq q).trans ?_)
        rw [vruntime_modify (by intro t; rfl) q, hsame.1]
      · exact ih n _

theorem Clock.detachTasks {dst : C} {n : ℕ} {ok : P → Bool} (h : Clock c s) :
    Advances c s (Cfs.detachTasks c dst ok ps n s).1 := by
  rcases detachTasks_spec dst ok ps n s with ⟨hrq, hv, hmin, -⟩
  exact h.frame hrq (fun q _ => hv q) hmin

/-! ## Runs -/

omit [DecidableEq G] in
/-- The current task is cleared before it is put back. -/
theorem clearCurrent_spec (s : State G C P) (c : C) (p : P) :
    let s' := if (s.cpus c).current = some p then s.setCurrent c none else s
    s'.heap = s.heap ∧ (s'.cpus c).rq = (s.cpus c).rq ∧
      (s'.cpus c).minVruntime = (s.cpus c).minVruntime ∧
      ∀ q ∈ (s'.cpus c).current, q ∈ (s.cpus c).current ∧ q ≠ p := by
  split
  · simp [State.setCurrent, State.setCpu]
  · rename_i hne
    exact ⟨rfl, rfl, rfl, fun q hq => ⟨hq, fun heq => hne (heq ▸ hq)⟩⟩

/-- One operation that does not put back a task behind the clock. -/
theorem Clock.step {op : RqOp C P} (h : Clock c s) (hapart : Apart c s) (hok : NotBehind c s op)
    (hstep : rqStep c s op = some s') : Advances c s s' ∧ Apart c s' := by
  cases op with
  | enqueueTask p =>
    -- a new task is not behind the clock
    rcases Option.ite_none_right_eq_some.mp hstep with ⟨⟨hp, hcur⟩, hs⟩
    cases hs
    refine ⟨h.enqueueTask hp, fun q hq hmem => ?_⟩
    rw [enqueueTask_current] at hq
    rcases mem_enqueueTask.mp hmem with rfl | hmem
    · exact hcur hq
    · exact hapart q hq hmem
  | putPrevTask p =>
    -- the current task comes back, and is not behind the clock by assumption
    rcases Option.ite_none_right_eq_some.mp hstep with ⟨hp, hs⟩
    cases hs
    rcases clearCurrent_spec s c p with ⟨hheap, hrq, hmin, hcur⟩
    generalize (if (s.cpus c).current = some p then s.setCurrent c none else s) = s₁
      at hheap hrq hmin hcur ⊢
    have hsame : Advances c s s₁ :=
      h.frame (hrq ▸ List.Sublist.refl _) (fun q _ => by rw [hheap]) hmin
    have hle : (s₁.cpus c).minVruntime ≤ (s₁.heap p).vruntime := by
      rw [hmin, hheap]
      exact hok
    refine ⟨hsame.trans (hsame.clock.insert hle), fun q hq hmem => ?_⟩
    unfold Rq.putPrevTask at hq
    rw [insertTaskIntoRq_cpu] at hq
    rcases hcur q hq with ⟨hq, hne⟩
    rcases mem_insertTaskIntoRq.mp hmem with heq | hmem
    · exact hne heq
    · exact hapart q hq (hrq ▸ hmem)
  | pickNextTask runtime =>
    -- the clock follows the leftmost task
    cases hstep
    exact h.pickAs _ runtime hapart hok
  | pickFirstTask runtime =>
    cases hstep
    exact h.pickAs none runtime nofun nofun
  | dequeueTask p =>
    -- the leftmost task may only get later
    cases hstep
    refine ⟨h.dequeueTask, ?_⟩
    unfold Apart
    simp only [Rq.dequeueTask]
    split
    · simp only [Rq.store, State.setCpu, update_self]
      exact fun q hq hmem => hapart q hq (List.mem_of_mem_erase hmem)
    · exact hapart
  | attachTasks ps =>
    -- each is enqueued
    rcases Option.ite_none_right_eq_some.mp hstep with ⟨⟨hnodup, hps⟩, hs⟩
    cases hs
    refine ⟨h.attachTasks hnodup fun p hp => (hps p hp).1, fun q hq hmem => ?_⟩
    rw [attachTasks_current] at hq
    rcases mem_attachTasks hmem with hmem | hmem
    · exact (hps q hmem).2 hq
    · exact hapart q hq hmem
  | detachTasks dst n ok =>
    -- each is dequeued
    cases hstep
    have hspec := detachTasks_spec (c := c) dst ok (s.cpus c).rq n s
    rcases hspec with ⟨hrq, -, -, hcur⟩
    refine ⟨h.detachTasks, fun q hq hmem => ?_⟩
    rw [hcur] at hq
    exact hapart q hq (hrq.subset hmem)
  | updateMinVruntime =>
    cases hstep
    refine ⟨h.updateMinVruntime, ?_⟩
    unfold Apart
    simp only [Rq.updateMinVruntime, Rq.setMinVruntime, State.setCpu, update_self]
    exact hapart
  | charge runtime =>
    -- the current task is not on the queue
    rcases Option.map_eq_some_iff.mp hstep with ⟨p, hp, hs⟩
    cases hs
    exact ⟨h.charge (hapart p hp), hapart⟩

/-- In every sequence of operations that puts back no task behind the clock, the clock never
goes back, and a task that is then enqueued starts from there at the earliest. -/
theorem clock_monotone (h : Clock c s) (hapart : Apart c s)
    (hrun : StepsWhen (NotBehind c) (rqStep c) s s') :
    (s.cpus c).minVruntime ≤ (s'.cpus c).minVruntime ∧
      ∀ p, (s.cpus c).minVruntime ≤ ((Rq.enqueueTask s' c p).heap p).vruntime := by
  have hadv : Advances c s s' ∧ Apart c s' := by
    apply hrun.invariant (P := fun s₁ => Advances c s s₁ ∧ Apart c s₁)
    · intro s₁ op s₂ hs₁ hok hstep
      have hs₂ := hs₁.1.clock.step hs₁.2 hok hstep
      exact ⟨hs₁.1.trans hs₂.1, hs₂.2⟩
    · exact ⟨h.advances, hapart⟩
  refine ⟨hadv.1.le, fun p => hadv.1.le.trans ?_⟩
  have hv : ((Rq.enqueueTask s' c p).heap p).vruntime =
      max (s'.cpus c).minVruntime (s'.heap p).vruntime := by
    refine (vruntime_setOnRq p).trans ?_
    show (update s'.heap p _ p).vruntime = _
    rw [update_self]
  rw [hv]
  exact le_max_left ..

end Steps

/-! ### Two tasks on one cpu -/

instance (c : C) (s : State G C P) (p : P) : Decidable (PutsBack c s p) :=
  inferInstanceAs (Decidable (_ ∨ _))

instance (c : C) (s : State G C P) (op : RqOp C P) : Decidable (NotBehind c s op) := by
  unfold NotBehind
  split <;> infer_instance

/-- A runqueue without tasks; every task has nice value 0 and has not run. -/
def bareRq : State Unit Unit ℕ where
  kernel _ := .absent _
  channel _ := ()
  queue _ := []
  heap _ := ⟨(), 0, .runnable, .dequeued, (), fun _ => true, inverseWeightOf 0, 0, 0⟩
  mem _ := .live
  alloc _ := none
  cpus _ := ⟨none, false, [], 0, 0, []⟩
  agents _ := .asleep
  crashed := false
  usedFreed := false

theorem bareRq_clock : Clock () bareRq ∧ Apart () bareRq :=
  ⟨⟨List.Pairwise.nil, nofun⟩, nofun⟩

/-- A task runs for 10 ns and is put back. -/
def ranOnce : List (RqOp Unit ℕ) :=
  [.enqueueTask 0, .pickNextTask 0, .charge 10, .putPrevTask 0]

def ticked : State Unit Unit ℕ := (exec (rqStep ()) bareRq ranOnce).getD bareRq

theorem clock_monotone_ran : (ticked.cpus ()).minVruntime = 10 ∧
    (bareRq.cpus ()).minVruntime ≤ (ticked.cpus ()).minVruntime ∧
      ∀ p, (bareRq.cpus ()).minVruntime ≤ ((Rq.enqueueTask ticked () p).heap p).vruntime := by
  have hrun : StepsWhen (NotBehind ()) (rqStep ()) bareRq ticked :=
    .of_execWhen (fun _ _ h => of_decide_eq_true h) ranOnce rfl
  exact ⟨rfl, clock_monotone bareRq_clock.1 bareRq_clock.2 hrun⟩

/-- The second task is picked while the first one, which ran for 10 ns, waits. -/
def secondPicked : List (RqOp Unit ℕ) :=
  [.enqueueTask 0, .enqueueTask 1, .pickNextTask 0, .charge 10, .putPrevTask 0, .pickNextTask 0]

def ahead : State Unit Unit ℕ := (exec (rqStep ()) bareRq secondPicked).getD bareRq

/-- The second task did not run for long before it is preempted. -/
def behind : State Unit Unit ℕ :=
  (exec (rqStep ()) ahead [.charge 1, .putPrevTask 1]).getD bareRq

/-- `PickNextTask` does not count the task that it picks, so the clock is at the first task then.
When the second one is put back the clock goes back, and a new task starts from there. -/
theorem clock_goes_back : Steps (rqStep ()) bareRq ahead ∧ Steps (rqStep ()) ahead behind ∧
    (ahead.cpus ()).minVruntime = 10 ∧ (behind.cpus ()).minVruntime = 1 ∧
    ((Rq.enqueueTask behind () 2).heap 2).vruntime = 1 ∧ behind.crashed = false := by
  have hahead : exec (rqStep ()) bareRq secondPicked = some ahead := rfl
  have hbehind : exec (rqStep ()) ahead [.charge 1, .putPrevTask 1] = some behind := rfl
  exact ⟨.of_exec hahead, .of_exec hbehind, rfl, rfl, rfl, rfl⟩

end Cfs
