import GhostSched.Cfs.Places
import GhostSched.Cfs.Views

/-!
# The message handlers

What a handler does to the task of its message, for every message that can come
in the state the task is in. `Ready` is a task that is where its state says.
A handler either leaves it so (`Lands`), or frees it. No `CHECK` fails on the way:
`Frame` says that `crashed` stays as it is.

`handleMessage_spec` collects the handlers.
-/

namespace Cfs

open Kernel Function

variable {G C P : Type*}

/-- Where the state of a task says that it is. -/
def CfsTask.home (t : CfsTask G C) : Option (C × Place) :=
  match t.state, t.onRq with
  | .blocked, _ => none
  | .runnable, .queued => some (t.cpu, .rq)
  | .runnable, .migrating => some (t.cpu, .mq)
  | .runnable, .dequeued => some (t.cpu, .moving)
  | .running, _ => some (t.cpu, .current)
  | .done, _ => some (t.cpu, .current)

/-- Only a runnable task is on a queue. -/
def CfsTask.Valid (t : CfsTask G C) : Prop := t.state = .runnable ∨ t.onRq = .dequeued

/-- A task that may be picked: it is on a runqueue, or on its way to one. -/
def CfsTask.Queued (t : CfsTask G C) : Prop := t.state = .runnable ∧ t.onRq ≠ .migrating

/-- Only a runnable task is on a queue. -/
theorem CfsTask.Valid.dequeued {t : CfsTask G C} (h : t.Valid) (hstate : t.state ≠ .runnable) :
    t.onRq = .dequeued := h.resolve_left hstate

section Home

variable {t : CfsTask G C}

/-- A blocked task is nowhere. -/
theorem home_blocked (h : t.state = .blocked) : t.home = none := by
  simp [CfsTask.home, h]

/-- A running task is current. -/
theorem home_running (h : t.state = .running) : t.home = some (t.cpu, .current) := by
  simp [CfsTask.home, h]

/-- A task that is done waits on its cpu to be freed. -/
theorem home_done (h : t.state = .done) : t.home = some (t.cpu, .current) := by
  simp [CfsTask.home, h]

/-- A runnable task may be on the runqueue, -/
theorem home_queued (h : t.state = .runnable) (ho : t.onRq = .queued) :
    t.home = some (t.cpu, .rq) := by
  simp [CfsTask.home, h, ho]

/-- or on the migration queue, -/
theorem home_migrating (h : t.state = .runnable) (ho : t.onRq = .migrating) :
    t.home = some (t.cpu, .mq) := by
  simp [CfsTask.home, h, ho]

/-- or on the list of an agent that balances. -/
theorem home_moving (h : t.state = .runnable) (ho : t.onRq = .dequeued) :
    t.home = some (t.cpu, .moving) := by
  simp [CfsTask.home, h, ho]

/-- The state and the cpu of a task, from where it is. -/
theorem home_eq_rq {c : C} (h : t.home = some (c, .rq)) :
    t.state = .runnable ∧ t.onRq = .queued ∧ t.cpu = c := by
  unfold CfsTask.home at h
  split at h <;> cases h
  exact ⟨‹_›, ‹_›, rfl⟩

/-- Who is on a migration queue. -/
theorem home_eq_mq {c : C} (h : t.home = some (c, .mq)) :
    t.state = .runnable ∧ t.onRq = .migrating ∧ t.cpu = c := by
  unfold CfsTask.home at h
  split at h <;> cases h
  exact ⟨‹_›, ‹_›, rfl⟩

/-- Who is on the list of an agent. -/
theorem home_eq_moving {c : C} (h : t.home = some (c, .moving)) :
    t.state = .runnable ∧ t.onRq = .dequeued ∧ t.cpu = c := by
  unfold CfsTask.home at h
  split at h <;> cases h
  exact ⟨‹_›, ‹_›, rfl⟩

/-- Who is current. -/
theorem home_eq_current {c : C} (h : t.home = some (c, .current)) :
    (t.state = .running ∨ t.state = .done) ∧ t.cpu = c := by
  unfold CfsTask.home at h
  split at h <;> cases h
  · exact ⟨.inl ‹_›, rfl⟩
  · exact ⟨.inr ‹_›, rfl⟩

end Home

section Handlers

variable [LinearOrder P]

/-- The agent of a cpu has a message about a task, which is where its state says. -/
structure Ready (s : State G C P) (L : Layout C P) (c : C) (p : P) (t : CfsTask G C) : Prop
    extends Holds s L p t where
  settled : L.actual = L.current
  home : L.loc p = t.home
  valid : t.Valid
  cpu : t.cpu = c

/-- The task is where its new state says, and nothing else has moved. -/
def Lands (s s' : State G C P) (L : Layout C P) (p : P) (t : CfsTask G C) : Prop :=
  ∃ L' : Layout C P, Does s s' L' p t ∧ L'.loc = update L.loc p t.home ∧
    L'.actual = L'.current ∧ L'.moving = L.moving

variable {s s' : State G C P} {L L' : Layout C P} {c : C} {p : P} {t t' : CfsTask G C}

/-- The task is where its new state says, and the other ones have not moved. -/
theorem Does.lands (h : Does s s' L' p t) (hself : L'.loc p = t.home)
    (hothers : ∀ q, q ≠ p → L'.loc q = L.loc q) (hset : L'.actual = L'.current)
    (hmov : L'.moving = L.moving) : Lands s s' L p t := by
  refine ⟨L', h, ?_, hset, hmov⟩
  funext q
  rw [update_apply]
  split_ifs with hq
  · subst hq
    rw [hself]
  · rw [hothers q hq]

/-- The task was moved to another queue. -/
theorem Does.lands_put {l : Option (C × Place)} (h : Does s s' (L'.put p l) p t)
    (hself : l = t.home)
    (hothers : ∀ q, q ≠ p → L'.loc q = L.loc q) (hset : L'.actual = L'.current)
    (hmov : L'.moving = L.moving) : Lands s s' L p t := by
  refine h.lands ?_ (fun q hq => ?_) hset hmov
  · show update L'.loc p l p = _
    rw [update_self, hself]
  · show update L'.loc p l q = _
    rw [update_of_ne hq, hothers q hq]

/-- The task stays where it is. -/
theorem Ready.stays (h : Ready s L c p t) (hdoes : Does s s' L p t') (hhome : t'.home = t.home) :
    Lands s s' L p t' := by
  refine ⟨L, hdoes, ?_, h.settled, rfl⟩
  rw [hhome, ← h.home, update_eq_self]

/-- Only the place of one task differs, so the threads on the migration queues do not. -/
theorem Holds.relocate {l : Option (C × Place)} (h : Holds s L p t)
    (ha : Arranged s L') (hloc : L'.loc = update L.loc p l) : Holds s L' p t := by
  refine ⟨ha, h.task, fun q c hq hqt => ?_⟩
  by_cases hqp : q = p
  · exact hqp
  · rw [hloc, update_of_ne hqp] at hq
    exact h.key q c hq hqt

/-- The sequence number is brought up to date. -/
theorem Lands.advance {seqnum : ℕ} (h : Lands s s' L p t) (hlt : t.seqnum < seqnum) :
    Lands s (Cfs.advance s' p seqnum) L p { t with seqnum := seqnum } := by
  rcases h with ⟨L', hdoes, hloc, hset, hmov⟩
  refine ⟨L', ?_, hloc, hset, hmov⟩
  have htask : (s'.heap p).seqnum < seqnum := hdoes.holds.task ▸ hlt
  rw [Cfs.advance, check_of_true s' (decide_eq_true htask)]
  exact hdoes.next fun h => h.modify rfl (.inl rfl)

/-- `TaskPriorityChanged`, wherever the task is. -/
theorem Ready.taskPriorityChanged {input : Input C P} (h : Ready s L c p t)
    (hnice : niceOk input.nice = true) :
    Lands s (taskPriorityChanged s p input) L p
      { t with inverseWeight := inverseWeightOf input.nice } := by
  rw [Cfs.taskPriorityChanged, check_of_true s hnice]
  exact h.stays (h.modify rfl (.inl rfl)) rfl

variable [DecidableEq C]

theorem Holds.store {x : Option P} (h : Holds s L p t) (hx : ∀ q ∈ x, q = p) :
    Does s (s.setCurrent c x) (L.store c x) p t :=
  ⟨setCpu_frame (fun _ hq => .inr hq) (fun q hq => .inl (hx q hq)),
    h.toArranged.store, h.task, h.key⟩

section

variable (h : Ready s L c p t)
include h

omit [DecidableEq C] in
/-- A running task is the current one. -/
theorem Ready.current_eq (hstate : t.state = .running) : (s.cpus c).current = some p := by
  rw [h.actual, h.settled, h.current_iff, h.home, home_running hstate, h.cpu]

/-- The task is not current any more. -/
theorem Ready.clear (hstate : t.state = .running ∨ t.state = .blocked) : ∃ L' : Layout C P,
      Does s (if (s.cpus c).current = some p then s.setCurrent c none else s) L' p t ∧
        L'.loc p = none ∧ (∀ q, q ≠ p → L'.loc q = L.loc q) ∧ L'.actual = L'.current ∧
        L'.moving = L.moving := by
  have hcurrent : (s.cpus c).current = L.current c := by
    rw [h.actual, h.settled]
  rcases hstate with hstate | hstate
  · have hloc : L.loc p = some (c, .current) := by
      rw [h.home, home_running hstate, h.cpu]
    have hcur : L.current c = some p := h.current_iff.mpr hloc
    rw [if_pos (hcurrent.trans hcur)]
    have hdrop : Holds s (L.drop c p) p t := h.toHolds.relocate (h.toArranged.drop hloc) rfl
    refine ⟨_, hdrop.store nofun, update_self .., fun q hq => update_of_ne hq .., ?_, rfl⟩
    show update L.actual c none = update L.current c none
    rw [h.settled]
  · have hloc : L.loc p = none := by
      rw [h.home, home_blocked hstate]
    have hcur : (s.cpus c).current ≠ some p := by
      rw [hcurrent]
      exact h.not_at_none hloc c .current
    rw [if_neg hcur]
    exact ⟨L, h.refl, hloc, fun _ _ => rfl, h.settled, rfl⟩

/-- `TaskBlocked`, of the current task or at the end of a switchto chain. -/
theorem Ready.taskBlocked {cpu : C} {fromSwitchto : Bool}
    (hstate : t.state = .running ∧ cpu = c ∨ t.state = .blocked ∧ fromSwitchto = true) :
    Lands s (taskBlocked s c p cpu fromSwitchto) L p { t with state := .blocked } := by
  have hrun : t.state = .running ∨ t.state = .blocked := hstate.imp And.left And.left
  have hon : t.onRq = .dequeued := by
    apply h.valid.dequeued
    rcases hrun with hstate | hstate <;> simp [hstate]
  have hcheck : (fromSwitchto || (s.cpus c).current == some p) = true := by
    rcases hstate with ⟨hstate, -⟩ | ⟨-, rfl⟩
    · simp [h.current_eq hstate]
    · rfl
  have hcpu : (decide (cpu = c) || fromSwitchto) = true := by
    rcases hstate with ⟨-, rfl⟩ | ⟨-, rfl⟩ <;> simp
  rcases h.clear hrun with ⟨L', hclear, hloc, hothers, hset, hmov⟩
  have hblock := hclear.next fun h => h.setState .blocked (by
    rcases hrun with hstate | hstate <;> rw [hstate] <;> rfl)
  simp only [Cfs.taskBlocked]
  rw [check_of_true s hcheck, hblock.holds.task, check_of_true _ (decide_eq_true hon),
    check_of_true _ hcpu]
  exact hblock.lands (hloc.trans (home_blocked rfl).symm) hothers hset hmov

/-- `TaskSwitchto`, of the current task. -/
theorem Ready.taskSwitchto (hstate : t.state = .running) :
    Lands s (taskSwitchto s p) L p { t with state := .blocked } := by
  have hloc : L.loc p = some (c, .current) := by
    rw [h.home, home_running hstate, h.cpu]
  have hon : t.onRq = .dequeued := h.valid.dequeued (by simp [hstate])
  have hdrop : Holds s (L.drop c p) p t := h.toHolds.relocate (h.toArranged.drop hloc) rfl
  have hblock := hdrop.setState .blocked (by rw [hstate]; rfl)
  have hc : (s.heap p).cpu = c := by rw [h.task, h.cpu]
  have hcheck : ((s.cpus c).current == some p) = true := by simp [h.current_eq hstate]
  simp only [Cfs.taskSwitchto, hc]
  rw [check_of_true s hcheck, hblock.holds.task, check_of_true _ (decide_eq_true hon)]
  have hstore := hblock.next fun h => h.store (c := c) (x := none) nofun
  refine hstore.lands ?_ (fun q hq => update_of_ne hq ..) ?_ rfl
  · exact (update_self ..).trans (home_blocked rfl).symm
  · show update L.actual c none = update L.current c none
    rw [h.settled]

end

variable [DecidableEq G]

/-- A task that is on the runqueue or nowhere goes to the migration queue. -/
theorem Holds.startMigrateTask (h : Holds s L p t) (hcpu : t.cpu = c)
    (hloc : L.loc p = none ∧ t.onRq = .dequeued ∨ L.loc p = some (c, .rq) ∧ t.onRq = .queued) :
    Does s (startMigrateTask s p) (L.put p (some (c, .mq))) p { t with onRq := .migrating } := by
  have hc : (s.heap p).cpu = c := by rw [h.task, hcpu]
  simp only [Cfs.startMigrateTask, hc]
  rcases hloc with ⟨hloc, hon⟩ | ⟨hloc, hon⟩
  · have hdeq : Does s (Rq.dequeueTask s c p) L p t :=
      h.dequeueTask_of_ne (by rw [hloc]; exact nofun)
    have hset := hdeq.next fun h => h.setOnRq .migrating (by rw [hon]; rfl)
    exact hset.next fun h => h.mqEnqueueTask hloc
  · have hdeq := h.dequeueTask hloc hon
    have hset := hdeq.next fun h => h.setOnRq .migrating rfl
    have henq := hset.next fun h => h.mqEnqueueTask (c := c) (update_self ..)
    rw [Layout.put_put] at henq
    exact henq

/-- A task as `CfsScheduler::PutPrevTask` leaves it. -/
def CfsTask.putBack (t : CfsTask G C) : CfsTask G C :=
  { t with
    state := .runnable
    onRq := if t.cpuAffinity t.cpu then .queued else .migrating }

section

variable (h : Ready s L c p t)
include h

/-- `PutPrevTask`: the task is queued here, or migrates if it may not stay. -/
theorem Ready.putPrevTask (hstate : t.state = .running ∨ t.state = .blocked) :
    Lands s (putPrevTask s c p) L p t.putBack := by
  have hon : t.onRq = .dequeued := by
    apply h.valid.dequeued
    rcases hstate with hstate | hstate <;> simp [hstate]
  rcases h.clear hstate with ⟨L', hclear, hloc, hothers, hset, hmov⟩
  have hrun := hclear.next fun h => h.setState .runnable (by
    rcases hstate with hstate | hstate <;> rw [hstate] <;> rfl)
  simp only [Cfs.putPrevTask, hrun.holds.task, h.cpu]
  split
  · rename_i haff
    have hmig := hrun.next fun hr => hr.startMigrateTask h.cpu (.inl ⟨hloc, hon⟩)
    have heq : t.putBack = { t with state := .runnable, onRq := .migrating } := by
      simp [CfsTask.putBack, h.cpu, haff]
    rw [heq]
    refine hmig.lands_put ?_ hothers hset hmov
    rw [home_migrating rfl rfl]
    exact congrArg (fun cpu => some (cpu, Place.mq)) h.cpu.symm
  · rename_i haff
    have hput := hrun.next fun h => h.insertTaskIntoRq (c := c) hloc (by rw [hon]; rfl)
    have heq : t.putBack = { t with state := .runnable, onRq := .queued } := by
      simp [CfsTask.putBack, h.cpu, haff]
    rw [heq]
    refine hput.lands_put ?_ hothers hset hmov
    rw [home_queued rfl rfl]
    exact congrArg (fun cpu => some (cpu, Place.rq)) h.cpu.symm

/-- `TaskYield` and `TaskPreempted`, of the current task or at the end of a switchto chain. -/
theorem Ready.putBack {cpu : C} {fromSwitchto : Bool}
    (hstate : t.state = .running ∧ cpu = c ∨ t.state = .blocked ∧ fromSwitchto = true) :
    Lands s (Cfs.putBack s c p cpu fromSwitchto) L p t.putBack := by
  have hrun : t.state = .running ∨ t.state = .blocked := hstate.imp And.left And.left
  have hon : (s.heap p).onRq = .dequeued := by
    rw [h.task]
    apply h.valid.dequeued
    rcases hrun with hstate | hstate <;> simp [hstate]
  have hcheck : (fromSwitchto || (s.cpus c).current == some p) = true := by
    rcases hstate with ⟨hstate, -⟩ | ⟨-, rfl⟩
    · simp [h.current_eq hstate]
    · rfl
  have hcpu : (decide (cpu = c) || fromSwitchto) = true := by
    rcases hstate with ⟨-, rfl⟩ | ⟨-, rfl⟩ <;> simp
  simp only [Cfs.putBack]
  rw [check_of_true s hcheck, check_of_true s (decide_eq_true hon), check_of_true _ hcpu]
  exact h.putPrevTask hrun

/-- `TaskRunnable`, of a blocked task. -/
theorem Ready.taskRunnable (hstate : t.state = .blocked) :
    Lands s (taskRunnable s p) L p { t with state := .runnable, onRq := .migrating } := by
  have hon : t.onRq = .dequeued := h.valid.dequeued (by simp [hstate])
  have hc : (s.heap p).cpu = c := by rw [h.task, h.cpu]
  rcases h.clear (.inr hstate) with ⟨L', hclear, hloc, hothers, hset, hmov⟩
  have hrun := hclear.next fun h => h.setState .runnable (by rw [hstate]; rfl)
  have hmig := hrun.next fun h => h.setOnRq .migrating (by rw [hon]; rfl)
  have henq := hmig.next fun h => h.mqEnqueueTask (c := c) hloc
  simp only [Cfs.taskRunnable, hc]
  refine henq.lands_put ?_ hothers hset hmov
  rw [home_migrating rfl rfl]
  exact congrArg (fun cpu => some (cpu, Place.mq)) h.cpu.symm

/-- `TaskNew`, after the task has been allocated. -/
theorem Ready.taskNew {cfg : Config C} {input : Input C P} {seqnum : ℕ} {runnable : Bool}
    (hstate : t.state = .blocked) (hnice : niceOk input.nice = true) :
    ∃ t', Lands s (taskNew cfg s c p input seqnum runnable) L p t' ∧ t'.cpu = c ∧
      t'.seqnum = seqnum ∧ t'.cpuAffinity = readAffinity cfg input ∧ t'.Valid ∧ ¬ t'.Queued ∧
      t'.view = (if runnable then .waiting else .blocked) ∧
      ∀ c', t'.home ≠ some (c', .current) := by
  have hon : t.onRq = .dequeued := h.valid.dequeued (by simp [hstate])
  have hloc : L.loc p = none := by rw [h.home, home_blocked hstate]
  have hset := h.modify (f := fun t => { t with
    cpu := c, cpuAffinity := readAffinity cfg input, seqnum := seqnum }) rfl (.inl rfl)
  have hweight := hset.next fun h => h.modify
    (f := fun t => { t with inverseWeight := inverseWeightOf input.nice }) rfl (.inl rfl)
  simp only [Cfs.taskNew]
  rw [check_of_true _ hnice]
  cases runnable with
  | false =>
    have hhome : CfsTask.home { t with
        cpu := c, cpuAffinity := readAffinity cfg input, seqnum := seqnum
        inverseWeight := inverseWeightOf input.nice } = none := home_blocked (by exact hstate)
    refine ⟨_, hweight.lands (hloc.trans hhome.symm) (fun _ _ => rfl) h.settled rfl, rfl, rfl, rfl,
      .inr hon, fun hq => ?_, ?_, fun c' => ?_⟩
    · grind [Cfs.CfsTask.Queued]
    · simp [CfsTask.view, hstate]
    · rw [hhome]
      exact nofun
  | true =>
    simp only [if_true, hweight.holds.task]
    have hrun := hweight.next fun h => h.setState .runnable (by rw [hstate]; rfl)
    have hmig := hrun.next fun h => h.setOnRq .migrating (by rw [hon]; rfl)
    have henq := hmig.next fun h => h.mqEnqueueTask (c := c) hloc
    refine ⟨_, henq.lands_put ?_ (fun _ _ => rfl) h.settled rfl, rfl, rfl, rfl, .inl rfl,
      fun hq => absurd rfl hq.2, rfl, fun c' => ?_⟩
    · rw [home_migrating rfl rfl]
    · rw [home_migrating rfl rfl]
      simp

/-- `HandleTaskDone` of the current task: it stays until the next pick. -/
theorem Ready.handleTaskDone_current {fromSwitchto : Bool} (hstate : t.state = .running) :
    Lands s (handleTaskDone s p fromSwitchto) L p { t with state := .done } := by
  have hc : (s.heap p).cpu = c := by rw [h.task, h.cpu]
  have hloc : L.loc p = some (c, .current) := by
    rw [h.home, home_running hstate, h.cpu]
  have hmq : Does s (Mq.dequeueTask s c p) L p t :=
    h.mqDequeueTask_of_ne (by rw [hloc]; simp)
  have hdone := hmq.next fun h => h.setState .done (by rw [hstate]; rfl)
  have hcur : (((Mq.dequeueTask s c p).setState p .done).cpus c).current = some p := by
    rw [hdone.holds.actual, h.settled, h.current_iff, hloc]
  simp only [Cfs.handleTaskDone, hc]
  rw [h.task, if_pos (.inl hstate), if_pos hcur]
  refine hdone.lands ?_ (fun _ _ => rfl) h.settled rfl
  rw [hloc, home_done rfl]
  exact congrArg (fun cpu => some (cpu, Place.current)) h.cpu.symm

/-- `HandleTaskDone` of another task: it is freed. -/
theorem Ready.handleTaskDone {fromSwitchto : Bool}
    (hstate : t.state = .blocked ∨ t.state = .runnable) (hstill : t.home ≠ some (c, .moving)) :
    ∃ s₁ t₁, Does s s₁ (L.put p none) p t₁ ∧ t₁.vruntime = t.vruntime ∧
      handleTaskDone s p fromSwitchto = Rq.updateMinVruntime (freeTask s₁ p) c := by
  have hc : (s.heap p).cpu = c := by rw [h.task, h.cpu]
  have hprev : (s.heap p).state = .running ∨ fromSwitchto = true ∨ (s.heap p).state = .runnable ∨
      (s.heap p).state = .blocked := by
    rw [h.task]
    rcases hstate with hstate | hstate
    · exact .inr (.inr (.inr hstate))
    · exact .inr (.inr (.inl hstate))
  -- it is off the migration queue and not current, and goes off the runqueue
  have hfree : ∀ (L₁ : Layout C P) (t₁ t₂ : CfsTask G C),
      Does s ((Mq.dequeueTask s c p).setState p .done) L₁ p t₁ → L₁.actual = L₁.current →
      L₁.loc p ≠ some (c, .current) →
      Does ((Mq.dequeueTask s c p).setState p .done)
        (Rq.dequeueTask ((Mq.dequeueTask s c p).setState p .done) c p) (L.put p none) p t₂ →
      t₂.vruntime = t.vruntime →
      ∃ s₁ t₁, Does s s₁ (L.put p none) p t₁ ∧ t₁.vruntime = t.vruntime ∧
        Cfs.handleTaskDone s p fromSwitchto = Rq.updateMinVruntime (freeTask s₁ p) c := by
    intro L₁ t₁ t₂ hdone hset hcur hdeq hv
    refine ⟨_, t₂, hdone.next fun _ => hdeq, hv, ?_⟩
    have hne : (((Mq.dequeueTask s c p).setState p .done).cpus c).current ≠ some p := by
      rw [hdone.holds.actual, hset]
      exact fun hp => hcur (hdone.holds.current_iff.mp hp)
    simp only [Cfs.handleTaskDone, hc]
    rw [if_pos hprev, if_neg hne]
  rcases hstate with hstate | hstate
  · have hloc : L.loc p = none := by rw [h.home, home_blocked hstate]
    have hmq : Does s (Mq.dequeueTask s c p) L p t := h.mqDequeueTask_of_ne (by rw [hloc]; simp)
    have hdone := hmq.next fun h => h.setState .done (by rw [hstate]; rfl)
    have hdeq := hdone.holds.dequeueTask_of_ne (c := c) (by rw [hloc]; simp)
    grind [h.settled, Layout.put_self]
  · cases hon : t.onRq with
    | queued =>
      have hloc : L.loc p = some (c, .rq) := by rw [h.home, home_queued hstate hon, h.cpu]
      have hmq : Does s (Mq.dequeueTask s c p) L p t := h.mqDequeueTask_of_ne (by rw [hloc]; simp)
      have hdone := hmq.next fun h => h.setState .done (by rw [hstate]; rfl)
      exact hfree L _ _ hdone h.settled (by rw [hloc]; simp) (hdone.holds.dequeueTask hloc hon) rfl
    | migrating =>
      have hloc : L.loc p = some (c, .mq) := by rw [h.home, home_migrating hstate hon, h.cpu]
      have hnone : (L.put p none).loc p = none := update_self ..
      have hdone := (h.mqDequeueTask hloc).next fun h => h.setState .done (by rw [hstate]; rfl)
      have hdeq := hdone.holds.dequeueTask_of_ne (c := c) (by rw [hnone]; simp)
      exact hfree (L.put p none) _ _ hdone h.settled (by rw [hnone]; simp) hdeq rfl
    | dequeued =>
      rw [home_moving hstate hon, h.cpu] at hstill
      exact absurd rfl hstill

end

/-- What a handler leaves as it is, and when it may put the task on the runqueue. -/
structure Kept (cfg : Config C) (input : Input C P) (t t' : CfsTask G C) : Prop where
  gtid : t'.gtid = t.gtid
  cpu : t'.cpu = t.cpu
  vruntime : t'.vruntime = t.vruntime
  valid : t'.Valid
  affinity : t'.cpuAffinity = t.cpuAffinity ∨ t'.cpuAffinity = readAffinity cfg input
  queued : t'.Queued → t'.cpuAffinity t'.cpu = true ∨ t.Queued ∧ t'.cpuAffinity = t.cpuAffinity

variable {cfg : Config C} {input : Input C P}

/-- `TaskAffinityChanged`, unless an agent is moving the task. -/
theorem Ready.taskAffinityChanged (h : Ready s L c p t) (hstill : t.home ≠ some (c, .moving)) :
    ∃ t', Lands s (taskAffinityChanged cfg s p input) L p t' ∧ Kept cfg input t t' ∧
      t'.state = t.state ∧ t'.seqnum = t.seqnum := by
  have hset : Does s (s.modify p fun t => { t with cpuAffinity := readAffinity cfg input }) L p
      { t with cpuAffinity := readAffinity cfg input } := h.modify rfl (.inl rfl)
  have hstill' : t.home ≠ some (t.cpu, .moving) := h.cpu ▸ hstill
  simp only [Cfs.taskAffinityChanged, hset.holds.task]
  split
  · rename_i haff
    exact ⟨_, h.stays hset rfl, ⟨rfl, rfl, rfl, h.valid, .inr rfl, fun _ => .inl haff⟩, rfl, rfl⟩
  · split
    · rename_i hrun
      rcases hrun with ⟨hstate, hon⟩
      have hqueued : t.onRq = .queued := by
        cases hon' : t.onRq with
        | queued => rfl
        | migrating => exact absurd hon' hon
        | dequeued => exact absurd (home_moving hstate hon') hstill'
      have hloc : L.loc p = some (c, .rq) := by rw [h.home, home_queued hstate hqueued, h.cpu]
      have hmig := hset.next fun hs => hs.startMigrateTask h.cpu (.inr ⟨hloc, hqueued⟩)
      have hhome : CfsTask.home
          { t with cpuAffinity := readAffinity cfg input, onRq := .migrating } =
            some (t.cpu, .mq) := home_migrating (by exact hstate) rfl
      refine ⟨_, hmig.lands_put ?_ (fun _ _ => rfl) h.settled rfl,
        ⟨rfl, rfl, rfl, .inl hstate, .inr rfl, fun hq => absurd rfl hq.2⟩, rfl, rfl⟩
      rw [hhome, h.cpu]
    · rename_i hrun
      exact ⟨_, h.stays hset rfl, ⟨rfl, rfl, rfl, h.valid, .inr rfl, fun hq => absurd hq hrun⟩,
        rfl, rfl⟩

/-! ## Every message -/

omit [LinearOrder P] [DecidableEq G] in
theorem Kept.seqnum {i : ℕ} (h : Kept cfg input t t') : Kept cfg input t { t' with seqnum := i } :=
  ⟨h.gtid, h.cpu, h.vruntime, h.valid, h.affinity, h.queued⟩

omit [LinearOrder P] [DecidableEq G] in
/-- The new state is not one that is on the runqueue. -/
theorem Kept.of_state {state : RunState} (hon : t.onRq = .dequeued) (hstate : state ≠ .runnable) :
    Kept cfg input t { t with state := state } :=
  ⟨rfl, rfl, rfl, .inr hon, .inl rfl, fun hq => absurd hq.1 hstate⟩

omit [LinearOrder P] [DecidableEq G] in
theorem Kept.migrating : Kept cfg input t { t with state := .runnable, onRq := .migrating } :=
  ⟨rfl, rfl, rfl, .inl rfl, .inl rfl, fun hq => absurd rfl hq.2⟩

omit [LinearOrder P] [DecidableEq G] in
theorem Kept.putBack : Kept cfg input t t.putBack := by
  refine ⟨rfl, rfl, rfl, .inl rfl, .inl rfl, fun hq => .inl ?_⟩
  by_contra haff
  exact hq.2 (if_neg haff)

/-- The handler of message `i` turns a task into one with the view `v`, or frees it. -/
def Handled (cfg : Config C) (input : Input C P) (s s' : State G C P) (L : Layout C P) (c : C)
    (p : P) (t : CfsTask G C) (v : View C) (i : ℕ) : Prop :=
  (∃ t', Lands s s' L p t' ∧ Kept cfg input t t' ∧ t'.view = v ∧ t'.seqnum ≤ i ∧
    (v.Known → t'.seqnum = i)) ∨
    v = .absent ∧ ∃ s₁ t₁, Does s s₁ (L.put p none) p t₁ ∧ t₁.vruntime = t.vruntime ∧
      s' = Rq.updateMinVruntime (freeTask s₁ p) c

/-- The handler ends with `Advance`. -/
theorem Handled.advance {v : View C} {i : ℕ} (hlt : t.seqnum < i) (h : Lands s s' L p t')
    (hkept : Kept cfg input t t') (hseq : t'.seqnum = t.seqnum) (hview : t'.view = v) :
    Handled cfg input s (Cfs.advance s' p i) L c p t v i :=
  .inl ⟨_, h.advance (hseq ▸ hlt), hkept.seqnum, hview, le_refl _, fun _ => rfl⟩

omit [LinearOrder P] [DecidableEq C] [DecidableEq G] in
/-- What the agent believes of a blocked task. -/
theorem view_eq_blocked (h : t.view = .blocked) : t.state = .blocked := by
  unfold CfsTask.view at h
  split at h <;> first | assumption | cases h

omit [LinearOrder P] [DecidableEq C] [DecidableEq G] in
theorem view_eq_waiting (h : t.view = .waiting) : t.state = .runnable := by
  unfold CfsTask.view at h
  split at h <;> first | assumption | cases h

omit [LinearOrder P] [DecidableEq C] [DecidableEq G] in
theorem view_eq_current (h : t.view = .current c) : t.state = .running ∧ t.cpu = c := by
  grind [CfsTask.view]

/-- What the handler of a message does that can come in the state of the task. -/
theorem handleMessage_spec {msg : Msg C Unit} {v : View C} {i : ℕ} (h : Ready s L c p t)
    (hstill : t.home ≠ some (c, .moving))
    (hnice : niceOk input.nice = true) (hlt : t.seqnum < i) (hnew : ¬ IsNew msg)
    (hnext : t.view.Next msg v) :
    Handled cfg input s (handleMessage cfg s c p input i msg) L c p t v i := by
  have hdequeued : t.state = .running ∨ t.state = .blocked → t.onRq = .dequeued := by
    grind [h.valid.dequeued]
  -- the four things that can happen to a task
  have hblocked : ∀ cpu fromSwitchto, t.state = .running ∧ cpu = c ∨
      t.state = .blocked ∧ fromSwitchto = true →
      Handled cfg input s (Cfs.advance (Cfs.taskBlocked s c p cpu fromSwitchto) p i)
        L c p t .blocked i := by
    intro cpu fromSwitchto hstate
    have hon := hdequeued (hstate.imp And.left And.left)
    exact .advance hlt (h.taskBlocked hstate) (.of_state hon nofun) rfl rfl
  have hputBack : ∀ cpu fromSwitchto, t.state = .running ∧ cpu = c ∨
      t.state = .blocked ∧ fromSwitchto = true →
      Handled cfg input s (Cfs.advance (Cfs.putBack s c p cpu fromSwitchto) p i)
        L c p t .waiting i := by
    intro cpu fromSwitchto hstate
    exact .advance hlt (h.putBack hstate) .putBack rfl rfl
  have hdone : ∀ fromSwitchto, t.state = .running →
      Handled cfg input s (Cfs.handleTaskDone s p fromSwitchto) L c p t .done i := by
    intro fromSwitchto hstate
    exact .inl ⟨_, h.handleTaskDone_current hstate, .of_state (hdequeued (.inl hstate)) nofun, rfl,
      hlt.le, nofun⟩
  have hgone : ∀ fromSwitchto, t.state = .blocked ∨ t.state = .runnable →
      Handled cfg input s (Cfs.handleTaskDone s p fromSwitchto) L c p t .absent i := by
    intro fromSwitchto hstate
    exact .inr ⟨rfl, h.handleTaskDone hstate hstill⟩
  generalize hv : t.view = w at hnext
  cases hnext with
  | new | newRunnable => exact absurd trivial hnew
  | onCpu cpu =>
    -- nothing but the number changes
    refine .advance hlt (h.stays h.refl rfl) ?_ rfl hv
    exact ⟨rfl, rfl, rfl, h.valid, .inl rfl, fun hq => .inr ⟨hq, rfl⟩⟩
  | blocked cpu =>
    rcases view_eq_current hv with ⟨hstate, hcpu⟩
    exact hblocked cpu false (.inl ⟨hstate, hcpu ▸ h.cpu⟩)
  | blockedSwitched cpu => exact hblocked cpu true (.inr ⟨view_eq_blocked hv, rfl⟩)
  | wakeup => exact .advance hlt (h.taskRunnable (view_eq_blocked hv)) .migrating rfl rfl
  | preempt cpu | yield cpu =>
    rcases view_eq_current hv with ⟨hstate, hcpu⟩
    exact hputBack cpu false (.inl ⟨hstate, hcpu ▸ h.cpu⟩)
  | preemptSwitched cpu => exact hputBack cpu true (.inr ⟨view_eq_blocked hv, rfl⟩)
  | yieldSwitched cpu => exact hputBack cpu true (.inr ⟨view_eq_blocked hv, rfl⟩)
  | switchto cpu =>
    -- the task is blocked, and its cpu runs on
    rcases view_eq_current hv with ⟨hstate, -⟩
    exact .advance hlt (h.taskSwitchto hstate) (.of_state (hdequeued (.inl hstate)) nofun) rfl rfl
  | affinityChanged =>
    rcases h.taskAffinityChanged hstill with
      ⟨t', hlands, hkept, hstate, hseq⟩
    refine .advance hlt hlands hkept hseq ?_
    rw [← hv, CfsTask.view, CfsTask.view, hstate, hkept.cpu]
  | prioChanged =>
    refine .advance hlt (h.taskPriorityChanged hnice) ?_ rfl hv
    exact ⟨rfl, rfl, rfl, h.valid, .inl rfl, fun hq => .inr ⟨hq, rfl⟩⟩
  | dead | leftBlocked => exact hgone false (.inl (view_eq_blocked hv))
  | departed cpu => exact hdone false (view_eq_current hv).1
  | departedSwitched cpu => exact hgone true (.inl (view_eq_blocked hv))
  | leftWaiting => exact hgone false (.inr (view_eq_waiting hv))
  | leftCurrent cpu => exact hdone false (view_eq_current hv).1

end Handlers

end Cfs
