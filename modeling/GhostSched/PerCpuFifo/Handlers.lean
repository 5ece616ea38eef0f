import GhostSched.PerCpuFifo.Places

/-!
# Messages about a task

`handleMessage_spec` says what a message does to a task that no agent is working on. It
fails only if the task is not as the message `Expects`, and the task then is as the
message tells: `Outcome`. Between the association of a task with its cpu and the push
to the run queue, the agent of that cpu can handle messages about it:
`handleMessage_held`.
-/

namespace PerCpuFifo

open Kernel Checked Cfs Function

variable {G C P : Type}

/-- What the state of a task says about its thread. -/
def FifoTask.view (t : FifoTask G C) : View C :=
  match t.runState, t.cpu with
  | .blocked, _ => .blocked
  | .runnable, _ | .queued, _ | .onCpu, none => .waiting
  | .onCpu, some c => .current c

variable {t : FifoTask G C}

theorem FifoTask.view_blocked (h : t.runState = .blocked) : t.view = .blocked := by
  rw [FifoTask.view, h]

theorem FifoTask.view_waiting (h : t.runState = .runnable ∨ t.runState = .queued) :
    t.view = .waiting := by
  rcases h with h | h <;> rw [FifoTask.view, h]

/-- What a message that leaves the task says about its thread. -/
def told (v : View C) : Msg C Unit → View C
  | .new _ _ | .wakeup | .preempt _ _ | .yield _ _ => .waiting
  | .blocked _ _ | .switchto _ => .blocked
  | .onCpu _ | .affinityChanged | .prioChanged => v
  | .dead | .departed _ => .absent

/-- A message that tells that a thread has left. -/
def Leaves : Msg C Unit → Prop
  | .dead | .departed _ => True
  | _ => False

variable {msg : Msg C Unit} {v v' : View C}

/-- The message alone says what becomes of a task that stays. -/
theorem next_told (h : v.Next msg v') (hnew : ¬ IsNew msg) (hleaves : ¬ Leaves msg) :
    v' = told v msg := by
  cases h with
  | new | newRunnable => exact absurd trivial hnew
  | dead | departed | departedSwitched | leftBlocked | leftWaiting | leftCurrent =>
    exact absurd trivial hleaves
  | _ => rfl

theorem next_leaves (h : v.Next msg v') (hleaves : Leaves msg) : ¬ v'.Known := by
  cases h with
  | dead | departed | departedSwitched | leftBlocked | leftWaiting | leftCurrent => exact id
  | _ => exact hleaves.elim

/-- What has to hold of a task that no agent is working on, such that a message about it can be
handled. -/
def Expects (t : FifoTask G C) (i : ℕ) : Msg C Unit → Prop
  | .new _ _ => True
  | .wakeup => t.runState = .blocked ∧ t.seqnum < i
  | .departed current => current.any Prod.snd = true → t.OffCpu true
  | .dead => t.runState = .blocked
  | .yield _ fromSwitchto | .blocked _ fromSwitchto | .preempt _ fromSwitchto =>
    t.OffCpu fromSwitchto ∧ t.seqnum < i
  | .switchto _ => t.OffCpu false ∧ t.seqnum < i
  | .onCpu _ | .affinityChanged | .prioChanged => t.seqnum < i

variable [DecidableEq G]

/-- What a message makes of a task. -/
inductive Outcome [DecidableEq C] (s s' : State G C P) (c : C) (p : P) (t : FifoTask G C) (i : ℕ)
    (msg : Msg C Unit) : Prop where
  | ignored : IsNew msg → s' = s → Outcome s s' c p t i msg
  /-- The task is as the message tells. -/
  | stays (t' : FifoTask G C) : s'.alloc = s.alloc → s'.agents = s.agents → s'.heap p = some t' →
    t'.gtid = t.gtid → t'.cpu = t.cpu → t'.seqnum = i → (∀ v, t.view.Next msg v → v = t'.view) →
    Outcome s s' c p t i msg
  /-- A first wakeup. -/
  | migrates (t' : FifoTask G C) (target : C) : s'.alloc = s.alloc →
    s'.agents = update s.agents c (.migrating .associate p target i true) →
    s'.heap p = some t' → t'.gtid = t.gtid → t.cpu = none → t'.cpu = none →
    t'.seqnum = t.seqnum → t.seqnum < i → (∀ v, t.view.Next msg v → v = t'.view) →
    Outcome s s' c p t i msg
  | gone : s'.alloc = update s.alloc t.gtid none → s'.agents = s.agents →
    s'.heap p = none → (∀ v, t.view.Next msg v → ¬ v.Known) → Outcome s s' c p t i msg

/-- Nothing else changes. -/
structure Elsewhere (s s' : State G C P) (p : P) : Prop where
  kernel : s'.kernel = s.kernel
  channel : s'.channel = s.channel
  queue : s'.queue = s.queue
  heap : ∀ q ≠ p, s'.heap q = s.heap q

omit [DecidableEq G] in
theorem Only.elsewhere {s s' : State G C P} {p : P} (h : Only s s' p) : Elsewhere s s' p :=
  ⟨h.kernel, h.channel, h.queue, h.heap⟩

/-- A handler has moved a task; its sequence number is still the old one. -/
structure Becomes (cfg : Config C) (s s' : State G C P) (p : P) (t t' : FifoTask G C) : Prop where
  only : Only s s' p
  task : s'.heap p = some t'
  gtid : t'.gtid = t.gtid
  cpu : t'.cpu = t.cpu
  seqnum : t'.seqnum = t.seqnum
  inv : ∃ place', Inv cfg s' place'

section Handlers

variable [DecidableEq C] [DecidableEq P] {cfg : Config C} {s : State G C P}
  {place : P → Place C} {p : P} {t : FifoTask G C} {c : C} {i : ℕ} {fromSwitchto : Bool}

/-- `Enqueue` puts the task on the run queue of its cpu. -/
theorem requeue_spec (h : Aside cfg s place p t) (hr : t.runState = .runnable)
    (hcpu : t.cpu ≠ none) :
    Ensures (fun _ => False) (requeue s p) fun s' =>
      Only s s' p ∧ s'.heap p = some { t with runState := .queued } ∧
        ∃ place', Inv cfg s' place' := by
  rw [requeue, task_eq h.task, ok_bind]
  obtain ⟨c, hc⟩ := Option.ne_none_iff_exists'.mp hcpu
  rw [show cpuStateOf t = .ok c by rw [cpuStateOf, hc], ok_bind]
  exact (enqueue_spec h hc).allow fun _ hne => hne hr

section Alone

variable (h : Inv cfg s place) (ht : s.heap p = some t) (halone : ∀ c, (s.agents c).task ≠ some p)
include h ht halone

/-- Only the `CHECK` of `TaskOffCpu` can fail, here and in the next two. -/
theorem taskYield_spec :
    Ensures (fun _ => ¬ t.OffCpu fromSwitchto) (taskYield s p fromSwitchto) fun s' =>
      ∃ t', Becomes cfg s s' p t t' ∧ t'.runState = .queued := by
  refine .bind (taskOffCpu_spec h ht halone) fun s₁ hs₁ => ?_
  obtain ⟨honly, hcpu, place₁, haside⟩ := hs₁
  refine ((requeue_spec haside rfl hcpu).mono fun s' hs' => ?_).allow fun _ hfalse => hfalse.elim
  obtain ⟨honly', ht', hinv⟩ := hs'
  exact ⟨_, ⟨honly.trans honly', ht', rfl, rfl, rfl, hinv⟩, rfl⟩

theorem taskPreempted_spec :
    Ensures (fun _ => ¬ t.OffCpu fromSwitchto) (taskPreempted s p fromSwitchto) fun s' =>
      ∃ t', Becomes cfg s s' p t t' ∧ t'.runState = .queued := by
  refine .bind (taskOffCpu_spec h ht halone) fun s₁ hs₁ => ?_
  obtain ⟨honly, hcpu, place₁, haside⟩ := hs₁
  rw [task_eq haside.task, ok_bind]
  have haside' := haside.setTask
    { t with runState := .runnable, preempted := true, prioBoost := true } rfl rfl
  refine ((requeue_spec haside' rfl hcpu).mono fun s' hs' => ?_).allow fun _ hfalse => hfalse.elim
  obtain ⟨honly', ht', hinv⟩ := hs'
  exact ⟨_, ⟨(honly.trans (Only.setTask s₁ p _ s₁.runQueue s₁.current)).trans honly', ht', rfl,
    rfl, rfl, hinv⟩, rfl⟩

theorem taskBlocked_spec :
    Ensures (fun _ => ¬ t.OffCpu fromSwitchto) (taskBlocked s p fromSwitchto) fun s' =>
      ∃ t', Becomes cfg s s' p t t' ∧ t'.runState = .blocked := by
  refine (taskOffCpu_spec h ht halone).mono fun s' hs' => ?_
  obtain ⟨honly, -, place', haside⟩ := hs'
  refine ⟨_, ⟨honly, haside.task, rfl, rfl, rfl, place', haside.inv.settle fun u hu _ => ?_⟩, rfl⟩
  cases hu.symm.trans haside.task
  rw [haside.out]
  exact .blocked rfl

/-- A task that leaves is taken off its cpu or its run queue. -/
theorem takeOut_spec :
    Ensures (fun _ => ¬ (fromSwitchto = true → t.OffCpu true)) (takeOut s p fromSwitchto) fun s' =>
      Only s s' p ∧ ∃ place' t', Aside cfg s' place' p t' ∧ t'.gtid = t.gtid := by
  rw [takeOut, task_eq ht, ok_bind]
  split
  · rename_i hon
    refine ((taskOffCpu_spec h ht halone).mono fun s' hs' => ?_).allow fun _ hnot hexp => hnot ?_
    · obtain ⟨honly, -, place', haside⟩ := hs'
      exact ⟨honly, place', _, haside, rfl⟩
    · rcases hon with hr | hsw
      · exact .inl hr
      · rw [hsw]
        exact hexp hsw
  · split
    · rename_i hr
      obtain ⟨c, hcpu, -⟩ := (h.free p t (by simp) ht halone).eq_queued hr
      rw [show cpuStateOf t = .ok c by rw [cpuStateOf, hcpu], ok_bind]
      refine ((erase_spec h ht halone hr hcpu).mono fun s' hs' => ?_).allow fun _ hf => hf.elim
      obtain ⟨honly, place', haside⟩ := hs'
      exact ⟨honly, place', _, haside, rfl⟩
    · rename_i hon hqueued
      have hr := (h.free p t (by simp) ht halone).eq_blocked hqueued fun hr => hon (.inl hr)
      refine .bind (.check_of hr) fun _ _ => .pure ?_
      exact ⟨⟨rfl, rfl, rfl, rfl, rfl, fun _ _ => rfl⟩, place, t, h.aside_blocked ht halone hr, rfl⟩

end Alone

variable {t₁ : FifoTask G C} {s₁ : State G C P}

/-- The end of a message that leaves the task. -/
theorem Becomes.advance_spec (h : Becomes cfg s s₁ p t t₁) (c : C)
    (hview : ∀ v, t.view.Next msg v → v = t₁.view) :
    Ensures (fun _ => ¬ t.seqnum < i) (advance s₁ p i) fun s' =>
      (∃ place', Inv cfg s' place') ∧ Elsewhere s s' p ∧ Outcome s s' c p t i msg := by
  obtain ⟨place₁, hinv⟩ := h.inv
  refine ((PerCpuFifo.advance_spec hinv h.task).mono fun s' hs' => ?_).allow fun _ hnot =>
    h.seqnum ▸ hnot
  obtain ⟨honly, ht', hinv'⟩ := hs'
  have hall := h.only.trans honly
  exact ⟨⟨place₁, hinv'⟩, hall.elsewhere,
    .stays _ hall.alloc hall.agents ht' h.gtid h.cpu rfl hview⟩

/-- A task that was aside has been freed. -/
theorem Aside.freed {place₁ : P → Place C} (h : Aside cfg s₁ place₁ p t₁) (honly : Only s s₁ p)
    (hgtid : t₁.gtid = t.gtid) (hview : ∀ v, t.view.Next msg v → ¬ v.Known) :
    (∃ place', Inv cfg (s₁.free p t.gtid) place') ∧ Elsewhere s (s₁.free p t.gtid) p ∧
      Outcome s (s₁.free p t.gtid) c p t i msg := by
  refine ⟨⟨place₁, hgtid ▸ h.free⟩, ⟨honly.kernel, honly.channel, honly.queue, fun q hq => ?_⟩,
    .gone ?_ honly.agents (update_self ..) hview⟩
  · exact (update_of_ne hq ..).trans (honly.heap q hq)
  · show update s₁.alloc t.gtid none = _
    rw [honly.alloc]

/-- The agent starts to migrate a task that is aside. -/
theorem Aside.startMigrate (h : Aside cfg s place p t) (hagent : (s.agents c).task = none)
    (hr : t.runState = .runnable) (hfirst : c = cfg.first) (hchannel : s.channel t.gtid = c)
    (hn : i ≤ (s.kernel t.gtid).barrier) (hmail : ∀ x ∈ about t.gtid (s.queue c), i < x.1)
    (wakeup : Bool) :
    ∃ target next, startMigrate cfg s c p i wakeup =
      { s.setAgent c (.migrating .associate p target i wakeup) with next := next } ∧
      Inv cfg (startMigrate cfg s c p i wakeup) place := by
  have hinv : ∀ target next,
      let s' := { s.setAgent c (.migrating .associate p target i wakeup) with next := next }
      Inv cfg s' place := by
    intro target next s'
    have hheld : Held cfg s' place c (.migrating .associate p target i wakeup) :=
      ⟨t, h.task, hr, h.out, hfirst, hchannel, hn, hmail⟩
    have hs' : s' = { (s.setTask p t).setAgent c (.migrating .associate p target i wakeup) with
        runQueue := s.runQueue, current := s.current, next := next } := by
      rw [setTask_self h.task]
      rfl
    have hwork := h.inv.work (l := place p) t (.migrating .associate p target i wakeup) (.inr rfl)
      h.task (.inr ⟨hagent, h.alone⟩) (.inl rfl)
        rfl (fun c' hc' => h.inv.tasks.home p t c' h.task hc')
      (fun hnone => by cases hnone) (by rw [update_eq_self]; exact h.inv.board)
      (fun _ _ => id) hs' (by rw [update_eq_self]; exact hheld)
    rw [update_eq_self] at hwork
    exact hwork.settle_held (congrArg Agent.task (update_self c _ s.agents))
  unfold PerCpuFifo.startMigrate
  split
  · exact ⟨cfg.first, cfg.others, rfl, hinv _ _⟩
  · exact ⟨_, _, rfl, hinv _ _⟩

variable {deferrable : Bool}

section Message

variable (h : Inv cfg s place) (hagent : s.agents c = .drain)
  (ht : s.heap p = some t) (halone : ∀ c, (s.agents c).task ≠ some p)
  (hchannel : s.channel t.gtid = c) (hn : i ≤ (s.kernel t.gtid).barrier)
  (hmail : ∀ x ∈ about t.gtid (s.queue c), i < x.1)
include h hagent ht halone hchannel hn hmail

/-- The `CHECK`s of a wakeup hold for a blocked task and a new number. -/
theorem taskRunnable_spec : Ensures (fun _ => ¬ (t.runState = .blocked ∧ t.seqnum < i))
      (taskRunnable cfg s c p i deferrable) fun s' =>
        (∃ place', Inv cfg s' place') ∧ Elsewhere s s' p ∧
          (t.seqnum < i → Outcome s s' c p t i .wakeup) := by
  rw [taskRunnable, task_eq ht, ok_bind]
  refine .bind (.check_else fun hnot hand => hnot hand.1) fun _ hr => ?_
  obtain ⟨t₁, ht₁, hgtid, hcpu₁, hseq, hr₁⟩ : ∃ t₁ : FifoTask G C,
      t₁ = { t with runState := .runnable, prioBoost := !deferrable } ∧ t₁.gtid = t.gtid ∧
        t₁.cpu = t.cpu ∧ t₁.seqnum = t.seqnum ∧ t₁.runState = .runnable :=
    ⟨_, rfl, rfl, rfl, rfl, rfl⟩
  rw [← ht₁]
  have haside := (h.aside_blocked ht halone hr).setTask t₁ hgtid hcpu₁
  have honly := Only.setTask s p t₁ s.runQueue s.current
  have hnext : ∀ v, t.view.Next .wakeup v → v = .waiting := fun v hv => next_told hv id id
  split
  · -- the task has no cpu yet
    rename_i hcpu
    have hfirst : c = cfg.first := hchannel.symm.trans (h.fresh p t ht halone hcpu)
    rw [← hgtid] at hchannel hn hmail
    obtain ⟨target, next, heq, hinv⟩ := haside.startMigrate (c := c) (i := i)
      (congrArg Agent.task hagent) hr₁ hfirst hchannel hn hmail true
    refine .pure ⟨⟨_, hinv⟩, ?_, fun hlt => ?_⟩
    · rw [heq]
      exact ⟨rfl, rfl, rfl, honly.heap⟩
    · rw [heq]
      refine .migrates t₁ target rfl rfl (update_self ..) hgtid hcpu (hcpu₁.trans hcpu) hseq hlt ?_
      intro v hv
      rw [hnext v hv]
      exact (FifoTask.view_waiting (.inl hr₁)).symm
  · rename_i cpu hcpu
    refine .bind ((enqueue_spec haside (hcpu₁.trans hcpu)).allow fun _ hnot => absurd hr₁ hnot)
      fun s₁ hs₁ => ?_
    obtain ⟨honly₁, ht₁, hinv₁⟩ := hs₁
    have hbecomes : Becomes cfg s s₁ p t { t₁ with runState := .queued } :=
      ⟨honly.trans honly₁, ht₁, hgtid, hcpu₁, hseq, hinv₁⟩
    have hview : ∀ v, t.view.Next .wakeup v →
      v = FifoTask.view { t₁ with runState := .queued } := by
      intro v hv
      rw [hnext v hv]
      exact (FifoTask.view_waiting (.inr rfl)).symm
    refine ((hbecomes.advance_spec c hview).mono fun s' hs' => ?_).allow
      fun _ hnot hand => hnot hand.2
    exact ⟨hs'.1, hs'.2.1, fun _ => hs'.2.2⟩

/-- A message about a task that no agent is working on. -/
theorem handleMessage_spec (msg : Msg C Unit) :
    Ensures (fun _ => ¬ Expects t i msg) (handleMessage cfg s c p i deferrable msg) fun s' =>
      (∃ place', Inv cfg s' place') ∧ Elsewhere s s' p ∧
        (Expects t i msg → Outcome s s' c p t i msg) := by
  have hbecomes : Becomes cfg s s p t t :=
    ⟨⟨rfl, rfl, rfl, rfl, rfl, fun _ _ => rfl⟩, ht, rfl, rfl, rfl, place, h⟩
  -- a handler moves the task, and then its sequence number advances
  have hmoved : ∀ {x : Except Fault (State G C P)} {pre : Prop} {r : RunState},
      Ensures (fun _ => ¬ pre) x (fun s₁ => ∃ t₁, Becomes cfg s s₁ p t t₁ ∧ t₁.runState = r) →
      (∀ t₁ : FifoTask G C, t₁.runState = r → ∀ v, t.view.Next msg v → v = t₁.view) →
      Ensures (fun _ => ¬ (pre ∧ t.seqnum < i)) (x >>= fun s₁ => advance s₁ p i) fun s' =>
        (∃ place', Inv cfg s' place') ∧ Elsewhere s s' p ∧
          (pre ∧ t.seqnum < i → Outcome s s' c p t i msg) := by
    intro x pre r hx hview
    refine .bind (hx.allow fun _ hnot hand => hnot hand.1) fun s₁ hs₁ => ?_
    obtain ⟨t₁, hbecomes, hr⟩ := hs₁
    refine ((hbecomes.advance_spec c (hview t₁ hr)).mono fun s' hs' => ?_).allow
      fun _ hnot hand => hnot hand.2
    exact ⟨hs'.1, hs'.2.1, fun _ => hs'.2.2⟩
  cases msg with
  | new info runnable => exact .ok ⟨⟨place, h⟩, hbecomes.only.elsewhere,
      fun _ => .ignored trivial rfl⟩
  | wakeup =>
    exact (taskRunnable_spec h hagent ht halone hchannel hn hmail).mono fun s' hs' =>
      ⟨hs'.1, hs'.2.1, fun hexp => hs'.2.2 hexp.2⟩
  | departed current =>
    rw [handleMessage, taskDeparted, task_eq ht, ok_bind]
    refine .bind (takeOut_spec h ht halone) fun s₁ hs₁ => .pure ?_
    obtain ⟨honly, place₁, t₁, haside, hgtid⟩ := hs₁
    have hview : ∀ v, t.view.Next (.departed current) v → ¬ v.Known :=
      fun v hv => next_leaves hv trivial
    obtain ⟨hinv, helse, houtcome⟩ := haside.freed (c := c) (i := i) honly hgtid hview
    exact ⟨hinv, helse, fun _ => houtcome⟩
  | dead =>
    rw [handleMessage, taskDead, task_eq ht, ok_bind]
    refine .bind (.check_else id) fun _ hr => .pure ?_
    have hview : ∀ v, t.view.Next .dead v → ¬ v.Known := fun v hv => next_leaves hv trivial
    obtain ⟨hinv, helse, houtcome⟩ := (h.aside_blocked ht halone hr).freed (c := c) (i := i)
      hbecomes.only rfl hview
    exact ⟨hinv, helse, fun _ => houtcome⟩
  | yield cpu fromSwitchto =>
    refine hmoved (taskYield_spec h ht halone) fun t₁ hr v hv => ?_
    rw [next_told hv id id, FifoTask.view_waiting (.inr hr)]
    rfl
  | blocked cpu fromSwitchto | switchto cpu =>
    refine hmoved (taskBlocked_spec h ht halone) fun t₁ hr v hv => ?_
    rw [next_told hv id id, FifoTask.view_blocked hr]
    rfl
  | preempt cpu fromSwitchto =>
    refine hmoved (taskPreempted_spec h ht halone) fun t₁ hr v hv => ?_
    rw [next_told hv id id, FifoTask.view_waiting (.inr hr)]
    rfl
  | onCpu | affinityChanged | prioChanged =>
    refine (hbecomes.advance_spec c fun v hv => ?_).mono fun s' hs' =>
      ⟨hs'.1, hs'.2.1, fun _ => hs'.2.2⟩
    exact next_told hv id id

end Message

/-- A message that the agent of its new cpu handles while a task is migrated. It can only advance
the sequence number. -/
theorem handleMessage_held (h : Inv cfg s place) (ht : s.heap p = some t)
    (hr : t.runState = .runnable ∨ t.runState = .queued) (hout : place p = .out)
    (msg : Msg C Unit) :
    Ensures (fun _ => True) (handleMessage cfg s c p i deferrable msg) fun s' =>
      ∃ place', Inv cfg s' place' := by
  have hblocked : t.runState ≠ .blocked := by
    rcases hr with hr | hr <;> rw [hr] <;> exact nofun
  have honCpu : t.runState ≠ .onCpu := by
    rcases hr with hr | hr <;> rw [hr] <;> exact nofun
  have hstate : Ensures (fun _ => True) (cpuStateOf t) fun _ => True := by
    unfold cpuStateOf
    split
    · exact .ok trivial
    · exact .error trivial
  -- a task that is not on a cpu cannot leave it
  have hoff : ∀ blocked fromSwitchto, Ensures (fun _ => True)
      (taskOffCpu s p blocked fromSwitchto) fun _ => False := by
    intro blocked fromSwitchto
    rw [taskOffCpu, task_eq ht, ok_bind]
    refine .bind hstate fun cpu _ => ?_
    rw [if_neg honCpu]
    exact .bind (.check trivial) fun _ _ => .bind (.check trivial) fun _ hb => absurd hb hblocked
  have hadvance : Ensures (fun _ => True) (advance s p i) fun s' => ∃ place', Inv cfg s' place' :=
    ((advance_spec h ht).mono fun s' hs' => ⟨place, hs'.2.2⟩).allow fun _ _ => trivial
  cases msg with
  | new info runnable => exact .ok ⟨place, h⟩
  | wakeup =>
    rw [handleMessage, taskRunnable, task_eq ht, ok_bind]
    exact .bind (.check trivial) fun _ hb => absurd hb hblocked
  | departed current =>
    rw [handleMessage, taskDeparted, task_eq ht, ok_bind]
    refine .bind (P := fun _ => False) ?_ fun _ hfalse => hfalse.elim
    rw [takeOut, task_eq ht, ok_bind]
    split
    · exact hoff _ _
    · split
      · -- it is not on the run queue yet
        refine .bind hstate fun cpu _ => ?_
        rw [erase, task_eq ht, ok_bind]
        refine .bind (.check trivial) fun _ _ => .bind (.check trivial) fun _ hmem => ?_
        rw [h.board.mem_runQueue, hout] at hmem
        cases hmem
      · exact .bind (.check trivial) fun _ hb => absurd hb hblocked
  | dead =>
    rw [handleMessage, taskDead, task_eq ht, ok_bind]
    exact .bind (.check trivial) fun _ hb => absurd hb hblocked
  | yield cpu fromSwitchto | preempt cpu fromSwitchto =>
    exact .bind (.bind (P := fun _ => False) (hoff _ _) fun _ hfalse => hfalse.elim)
      (P := fun _ => False) fun _ hfalse => hfalse.elim
  | blocked | switchto => exact .bind (hoff _ _) fun _ hfalse => hfalse.elim
  | onCpu cpu | affinityChanged | prioChanged => exact hadvance

end Handlers

end PerCpuFifo
