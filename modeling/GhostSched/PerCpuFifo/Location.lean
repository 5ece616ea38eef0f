import GhostSched.Lib.Transition
import GhostSched.PerCpuFifo.Handlers
import Mathlib.Data.Fintype.Defs

/-!
# Location of the tasks

Every step keeps the invariant, as long as no thread comes back to ghost before the
scheduler is done with its last stay: `Fresh`. If one does, the message about its new
task is ignored, and the messages after it are applied to the old task by the agent of
the default channel while another agent is working on that task:
`queued_and_current`.

`task_at_one_place` is the result for all runs.
-/

namespace PerCpuFifo

open Kernel Checked Cfs Transition Function

variable {G C P : Type} [DecidableEq G]

/-- A thread enters ghost only when the scheduler has no task for it and no messages about it. -/
def Fresh (s : State G C P) : Action G C P → Prop
  | .kernel g (.enter _ _ _) => s.alloc g = none ∧ ∀ c, about g (s.queue c) = []
  | _ => True

/-! ## Steps outside of the scheduler -/

section Outside

variable {cfg : Config C} {s : State G C P} {place : P → Place C} {x : Option P}
  {k k' : G → Kernel.Task C} {channel channel' : G → C} {queue queue' : C → List (Cfs.Message G C)}
  {g : G} {c : C} {msg : Msg C Unit}

theorem Mail.congr (h : Mail cfg k channel queue)
    (hk : ∀ g, (k' g).barrier = (k g).barrier) : Mail cfg k' channel queue := by
  refine ⟨h.home, h.news, h.order, fun g x hx => ?_⟩
  rw [hk]
  exact h.bound g x hx

/-- Messages are taken from the front of a channel, or ones about no thread are added. -/
theorem Mail.sublist (h : Mail cfg k channel queue)
    (hsub : ∀ g c, (about g (queue' c)).Sublist (about g (queue c))) :
    Mail cfg k channel queue' := by
  have hmem : ∀ {c g i msg}, .task g i msg ∈ queue' c → .task g i msg ∈ queue c := by
    intro c g i msg hmem
    rw [← mem_about] at hmem ⊢
    exact (hsub g c).subset hmem
  refine ⟨fun c g i msg hm => h.home c g i msg (hmem hm),
    fun g i info runnable hm => h.news g i info runnable (hmem hm), fun g => ?_, fun g y hy => ?_⟩
  · exact (h.order g).sublist ((hsub g _).map _)
  · exact h.bound g y ((hsub g _).subset hy)

variable [DecidableEq C]

omit [DecidableEq C] in
/-- The kernel and the channels change, and what the tasks depend on does not. -/
theorem InvBut.outside (h : InvBut cfg s place x) (hmail : Mail cfg k channel queue)
    (hchannel : ∀ p t, s.heap p = some t → channel t.gtid = s.channel t.gtid)
    (hbarrier : ∀ p t, s.heap p = some t → (s.kernel t.gtid).barrier ≤ (k t.gtid).barrier)
    (hqueue : ∀ p t, s.heap p = some t → ∀ c, ∀ x ∈ about t.gtid (queue c),
      x ∈ about t.gtid (s.queue c) ∨ (s.kernel t.gtid).barrier < x.1) :
    InvBut cfg { s with kernel := k, channel := channel, queue := queue } place x := by
  refine ⟨h.board, ⟨h.tasks.owned, h.tasks.dead, ?_⟩, hmail, ?_, h.free, ?_, h.unique⟩
  · intro p t c ht hc
    exact (hchannel p t ht).trans (h.tasks.home p t c ht hc)
  · grind [h.fresh]
  · intro c
    exact (h.held c).frame (fun _ => id) fun p t _ ht =>
      ⟨t, ht, rfl, rfl, rfl, rfl, hchannel p t ht, hbarrier p t ht, hqueue p t ht c⟩

/-- A message is sent, by a thread that has no messages pending if it is a new one. -/
theorem Mail.send (h : Mail cfg k channel queue) (hk : ∀ g' ≠ g, (k' g').barrier = (k g').barrier)
    (hchannel : ∀ g' ≠ g, channel' g' = channel g')
    (hself : ¬ IsNew msg ∧ channel' g = channel g ∧ (k g).barrier < (k' g).barrier ∨
      (∀ c, about g (queue c) = []) ∧ channel' g = cfg.first) :
    Mail cfg k' channel' (update queue (channel' g)
      (queue (channel' g) ++ [.task g (k' g).barrier msg])) := by
  generalize hq : update queue (channel' g)
    (queue (channel' g) ++ [.task g (k' g).barrier msg]) = queue'
  -- the messages about the other threads are the same
  have hother : ∀ g' ≠ g, ∀ c, about g' (queue' c) = about g' (queue c) := by
    intro g' hg c
    rw [← hq]
    exact about_append_of_ne (Ne.symm hg)
  have hlast : about g (queue' (channel' g)) =
      about g (queue (channel' g)) ++ [((k' g).barrier, msg)] := by
    rw [← hq, update_self, about_append, about_self]
    rfl
  have helse : ∀ c, c ≠ channel' g → queue' c = queue c := by
    intro c hc
    rw [← hq, update_of_ne hc]
  -- what was pending before is on the same channel, and not newer than the barrier
  have hold : ∀ c, ∀ y ∈ about g (queue c), channel' g = c ∧ y.1 < (k' g).barrier ∧
    ¬ IsNew msg := by
    intro c y hy
    rcases hself with ⟨hnew, hch, hlt⟩ | ⟨hnone, -⟩
    · have hc : channel g = c := h.home c g y.1 y.2 (mem_about.mp hy)
      refine ⟨hch.trans hc, ?_, hnew⟩
      rw [← hc] at hy
      exact (h.bound g y hy).trans_lt hlt
    · rw [hnone c] at hy
      cases hy
  constructor
  · intro c g' i m hmem
    rw [← mem_about] at hmem
    by_cases hg : g' = g
    · subst hg
      by_cases hc : c = channel' g'
      · exact hc.symm
      · rw [helse c hc] at hmem
        exact (hold c _ hmem).1
    · grind [mem_about, h.home]
  · intro g' i info runnable hmem
    rw [← mem_about] at hmem
    by_cases hg : g' = g
    · grind [h.news, mem_about, Cfs.IsNew]
    · grind [mem_about, h.news]
  · intro g'
    by_cases hg : g' = g
    · grind [h.order]
    · rw [hother g' hg, hchannel g' hg]
      exact h.order g'
  · intro g' y hy
    by_cases hg : g' = g
    · subst hg
      rw [hlast, List.mem_append, List.mem_singleton] at hy
      rcases hy with hy | hy
      · exact (hold _ y hy).2.1.le
      · rw [hy]
    · rw [hother g' hg, hchannel g' hg] at hy
      rw [hk g' hg]
      exact h.bound g' y hy

variable {rest : List (Cfs.Message G C)} {m : Cfs.Message G C}

omit [DecidableEq C] in
theorem about_cons_sublist : (about g rest).Sublist (about g (m :: rest)) :=
  (List.sublist_cons_self m rest).filterMap _

theorem Inv.pop (h : Inv cfg s place) (hq : s.queue c = m :: rest) :
    Inv cfg { s with queue := update s.queue c rest } place := by
  have hsub : ∀ g c', (about g (update s.queue c rest c')).Sublist (about g (s.queue c')) := by
    grind [about_cons_sublist]
  exact h.outside (h.mail.sublist hsub) (fun _ _ _ => rfl) (fun _ _ _ => le_refl _)
    fun _ _ _ c' _ hx => .inl ((hsub _ c').subset hx)

theorem Inv.tick (h : Inv cfg s place) :
    Inv cfg { s with queue := update s.queue c (s.queue c ++ [.cpuTick]) } place := by
  have hsame : ∀ g c', about g (update s.queue c (s.queue c ++ [.cpuTick]) c') =
      about g (s.queue c') := by
    intro g c'
    by_cases hc : c' = c
    · subst hc
      rw [update_self, about_append, about_tick]
      exact List.append_nil _
    · rw [update_of_ne hc]
  refine h.outside (h.mail.sublist fun g c' => ?_) (fun _ _ _ => rfl) (fun _ _ _ => le_refl _)
    fun _ _ _ c' x hx => .inl ?_
  · rw [hsame]
  · rw [← hsame]
    exact hx

omit [DecidableEq C] in
/-- Only the barriers of the threads matter. -/
theorem Inv.kernel (h : Inv cfg s place) (hk : ∀ g, (k g).barrier = (s.kernel g).barrier) :
    Inv cfg { s with kernel := k } place :=
  h.outside (h.mail.congr hk) (fun _ _ _ => rfl) (fun _ t _ => (hk t.gtid).ge)
    fun _ _ _ _ _ hx => .inl hx

variable {e : Event G Unit}

omit [DecidableEq C] in
/-- A thread that is not in ghost can only enter it. -/
theorem enter_of_absent (h : Kernel.step false k g e = some (k', some msg))
    (hp : (k g).phase = .absent) : ∃ info barrier runnable, e = .enter info barrier runnable := by
  cases e with
  | enter info barrier runnable => exact ⟨info, barrier, runnable, rfl⟩
  | leaveCpu =>
    rw [Kernel.step, hp] at h
    cases h
  | _ =>
    simp only [Kernel.step, hp] at h
    cases h

omit [DecidableEq C] in
/-- A message is new only if the thread enters ghost, and every other one has a larger sequence
number than the ones before it. -/
theorem step_barrier {m : Option (Msg C Unit)} (h : Kernel.step false k g e = some (k', m)) :
    (∀ g' ≠ g, (k' g').barrier = (k g').barrier) ∧ (m = none → (k' g).barrier = (k g).barrier) ∧
      ∀ msg, m = some msg → (∃ info barrier runnable, e = .enter info barrier runnable) ∨
        ¬ IsNew msg ∧ (k g).barrier < (k' g).barrier := by
  have hone : ∀ t : Kernel.Task C, ∀ g' ≠ g, (update k g t g').barrier = (k g').barrier := by
    intro t g' hg
    rw [update_of_ne hg]
  cases step_cases h with
  | sends msg t hs =>
    grind [enter_of_absent, Cfs.IsNew, cases Kernel.Sends]
  | getOnCpu c _ hp | leaveCpu hp =>
    refine ⟨hone _, fun _ => ?_, (by simp)⟩
    rw [update_self]
  | start target c hp hne ht =>
    refine ⟨fun g' hg => ?_, (by simp), fun msg hm => ?_⟩
    · by_cases htarget : g' = target
      · rw [htarget, switch_target, update_of_ne (htarget ▸ hg)]
      · rw [switch_of_ne hg htarget, update_of_ne hg]
    · grind [switch_self, Cfs.IsNew]
  | next target c hp hne ht =>
    refine ⟨fun g' hg => ?_, fun _ => ?_, (by simp)⟩
    · by_cases htarget : g' = target
      · rw [htarget, switch_target]
      · rw [switch_of_ne hg htarget]
    · rw [switch_self hne]

/-- An event of a thread that does not come back too early. -/
theorem Inv.kernelStep {s' : State G C P} (h : Inv cfg s place) (hfresh : Fresh s (.kernel g e))
    (hs' : kernelStep cfg s g e = some s') :
    Inv cfg s' place := by
  rw [PerCpuFifo.kernelStep] at hs'
  split at hs'
  · cases hs'
  · grind [step_barrier, h.kernel]
  · rename_i k m hk
    cases hs'
    obtain ⟨hother, -, hself⟩ := step_barrier hk
    rcases hself m rfl with ⟨info, barrier, runnable, rfl⟩ | ⟨hnew, hlt⟩
    · -- a thread enters ghost
      obtain ⟨halloc, hnone⟩ := hfresh
      have hm : m = .new info runnable := by
        grind [Kernel.step]
      subst hm
      have hne : ∀ p t, s.heap p = some t → t.gtid ≠ g := by
        rintro p t ht rfl
        rw [(h.tasks.owned t.gtid p).mpr ⟨t, ht, rfl⟩] at halloc
        cases halloc
      have hchannel : update s.channel g cfg.first g = cfg.first := update_self ..
      refine h.outside (h.mail.send hother (fun g' hg => update_of_ne hg ..)
        (.inr ⟨hnone, hchannel⟩)) (fun p t ht => update_of_ne (hne p t ht) ..)
        (fun p t ht => (hother _ (hne p t ht)).ge) fun p t ht c' x hx => .inl ?_
      rw [about_append_of_ne (Ne.symm (hne p t ht))] at hx
      exact hx
    · have hchannel : channelsFor cfg s.channel g m = s.channel := by
        cases m with
        | new info runnable => exact absurd trivial hnew
        | _ => rfl
      rw [hchannel]
      refine h.outside (h.mail.send hother (fun _ _ => rfl) (.inl ⟨hnew, rfl, hlt⟩))
        (fun _ _ _ => rfl) (fun p t ht => ?_) fun p t ht c' x hx => ?_
      · by_cases hg : t.gtid = g
        · rw [hg]
          exact hlt.le
        · exact (hother _ hg).ge
      · by_cases hg : t.gtid = g
        · subst hg
          rw [show about t.gtid _ = _ from congrFun about_append_self c'] at hx
          by_cases hc : c' = s.channel t.gtid
          · subst hc
            rw [update_self, List.mem_append, List.mem_singleton] at hx
            rcases hx with hx | rfl
            · exact .inl hx
            · exact .inr hlt
          · rw [update_of_ne hc] at hx
            exact .inl hx
        · rw [about_append_of_ne (Ne.symm hg)] at hx
          exact .inl hx

end Outside

/-! ## Steps of the agents -/

section Agents

variable [DecidableEq C] [DecidableEq P] {cfg : Config C} {s : State G C P} {place : P → Place C}
  {p : P} {t : FifoTask G C} {c : C} {g : G} {i n : ℕ}

variable {a : Agent C P}

omit [DecidableEq C] [DecidableEq P] in
/-- The task that an agent is working on is on no run queue, and it is either associated with the
cpu of the agent, or it is between its association and the push. -/
theorem Held.where_is (h : Held cfg s place c a) (htasks : Tasks s.heap s.alloc s.channel place)
    (ha : a.task = some p) (ht : s.heap p = some t) :
    s.channel t.gtid = c ∧ (place p = .out ∨ place p = .onCpu c) ∨
      (t.runState = .runnable ∨ t.runState = .queued) ∧ place p = .out := by
  cases a with
  | asleep | drain => cases ha
  | opened q | committed q =>
    cases ha
    obtain ⟨u, hu, hcpu, hwhere⟩ := h
    grind [htasks.home]
  | migrating stage q target n wakeup =>
    cases stage with
    | advance => cases ha
    | associate =>
      cases ha
      obtain ⟨u, hu, hr, hplace, -, hchannel, -⟩ := h
      cases ht.symm.trans hu
      exact .inl ⟨hchannel, .inl hplace⟩
    | place | enqueue =>
      cases ha
      obtain ⟨u, hu, hr, hplace, -⟩ := h
      cases ht.symm.trans hu
      exact .inr ⟨.inl hr, hplace⟩
    | push =>
      cases ha
      obtain ⟨u, hu, hr, hplace, -⟩ := h
      cases ht.symm.trans hu
      exact .inr ⟨.inr hr, hplace⟩

variable {rest : List (Cfs.Message G C)}

omit [DecidableEq P] in
/-- The message at the front of a channel. The ones that are left about its thread are newer. -/
theorem Mail.front {k : G → Kernel.Task C} {channel : G → C} {queue : C → List (Cfs.Message G C)}
    {msg : Msg C Unit} (h : Mail cfg k channel queue) (hq : queue c = .task g i msg :: rest) :
    channel g = c ∧ i ≤ (k g).barrier ∧ ∀ x ∈ about g (update queue c rest c), i < x.1 := by
  have hmem : .task g i msg ∈ queue c := by
    rw [hq]
    exact List.mem_cons_self
  have hchannel : channel g = c := h.home c _ i msg hmem
  refine ⟨hchannel, h.bound g (i, msg) (hchannel.symm ▸ mem_about.mpr hmem), ?_⟩
  have horder := h.order g
  rw [update_self]
  grind [about_self, List.pairwise_cons]

/-- A message about a task. -/
theorem Inv.dispatch_known {msg : Msg C Unit} {deferrable : Bool} (h : Inv cfg s place)
    (hagent : s.agents c = .drain) (hq : s.queue c = .task g i msg :: rest)
    (halloc : s.alloc g = some p) :
    Ensures (fun _ => True)
      (handleMessage cfg { s with queue := update s.queue c rest } c p i deferrable msg)
      fun s' => ∃ place', Inv cfg s' place' := by
  obtain ⟨t, ht, rfl⟩ := (h.tasks.owned g p).mp halloc
  obtain ⟨hchannel, hi, hrest⟩ := h.mail.front hq
  have hinv := h.pop hq
  by_cases hfree : ∀ c', (s.agents c').task ≠ some p
  · exact ((handleMessage_spec hinv hagent ht hfree hchannel hi hrest msg).mono fun s' hs' =>
      hs'.1).allow fun _ _ => trivial
  · -- another agent is migrating the task
    obtain ⟨c', hc'⟩ := not_forall_not.mp hfree
    rcases (h.held c').where_is h.tasks hc' ht with ⟨hch, -⟩ | ⟨hr, hout⟩
    · cases hchannel.symm.trans hch
      rw [hagent] at hc'
      cases hc'
    · exact handleMessage_held hinv ht hr hout msg

omit [DecidableEq C] in
/-- The first message about a thread. -/
theorem Inv.allocate (h : Inv cfg s place) (halloc : s.alloc g = none) (hp : s.heap p = none)
    (hchannel : s.channel g = cfg.first) :
    Aside cfg (s.allocate p g) place p ⟨g, 0, .blocked, none, false, false⟩ := by
  have hself : (s.allocate p g).heap p = some ⟨g, 0, .blocked, none, false, false⟩ :=
    update_self ..
  have hne : ∀ {q}, q ≠ p → (s.allocate p g).heap q = s.heap q := fun hq => update_of_ne hq ..
  have hlive : ∀ {q u}, s.heap q = some u → q ≠ p := by
    rintro q u hu rfl
    rw [hp] at hu
    cases hu
  have halone : ∀ c, (s.agents c).task ≠ some p := by
    intro c hc
    obtain ⟨u, hu⟩ := (h.held c).live hc
    exact hlive hu rfl
  refine ⟨⟨h.board, ⟨?_, ?_, ?_⟩, h.mail, ?_, ?_, ?_, h.unique⟩, hself, halone, h.tasks.dead p hp⟩
  · intro g' q
    show update s.alloc g (some p) g' = some q ↔ _
    by_cases hq : q = p <;> grind [h.tasks.owned]
  · grind [h.tasks.dead]
  · intro q u c hu hc
    by_cases hq : q = p
    · subst hq
      cases hself.symm.trans hu
      cases hc
    · exact h.tasks.home q u c ((hne hq).symm.trans hu) hc
  · intro q u hu hfree hc
    by_cases hq : q = p
    · subst hq
      cases hself.symm.trans hu
      exact hchannel
    · exact h.fresh q u ((hne hq).symm.trans hu) hfree hc
  · intro q u hqx hu hfree
    have hq : q ≠ p := fun heq => hqx (congrArg some heq.symm)
    exact h.free q u (by simp) ((hne hq).symm.trans hu) hfree
  · intro c
    refine (h.held c).frame (fun _ => id) fun q u _ hu => ?_
    exact ⟨u, (hne (hlive hu)).trans hu, rfl, rfl, rfl, rfl, rfl, le_refl _, fun _ hx => .inl hx⟩

/-- The task of a new thread. -/
theorem Inv.dispatch_new {info : Unit} {runnable : Bool} (h : Inv cfg s place)
    (hagent : s.agents c = .drain) (hq : s.queue c = .task g i (.new info runnable) :: rest)
    (halloc : s.alloc g = none) (hp : s.heap p = none) :
    Ensures (fun _ => False)
      (taskNew cfg (State.allocate { s with queue := update s.queue c rest } p g) c p i
        runnable) fun s' => ∃ place', Inv cfg s' place' := by
  obtain ⟨hchannel, hi, hrest⟩ := h.mail.front hq
  have hfirst : s.channel g = cfg.first := by
    refine h.mail.news g i info runnable ?_
    rw [hchannel, hq]
    exact List.mem_cons_self
  have haside := (h.pop hq).allocate halloc hp hfirst
  rw [taskNew, task_eq haside.task, ok_bind]
  split
  · have haside' := haside.setTask { (⟨g, 0, .blocked, none, false, false⟩ : FifoTask G C) with
        seqnum := i, runState := .runnable } rfl rfl
    obtain ⟨target, next, -, hinv⟩ := haside'.startMigrate (c := c) (i := i)
      (congrArg Agent.task hagent) rfl (hchannel.symm.trans hfirst) hchannel hi hrest false
    exact .pure ⟨place, hinv⟩
  · have haside' := haside.setTask { (⟨g, 0, .blocked, none, false, false⟩ : FifoTask G C) with
        seqnum := i, runState := .blocked } rfl rfl
    refine .pure ⟨place, haside'.inv.settle fun u hu _ => ?_⟩
    cases hu.symm.trans haside'.task
    rw [haside'.out]
    exact .blocked rfl

variable {target : C}

omit [DecidableEq C] [DecidableEq P] in
/-- A thread without messages is associated with another channel. -/
theorem Mail.move {k : G → Kernel.Task C} {channel : G → C} {queue : C → List (Cfs.Message G C)}
    (h : Mail cfg k channel queue) (hnone : ∀ c, about g (queue c) = []) :
    Mail cfg k (update channel g target) queue := by
  have hnot : ∀ {c g' i msg}, .task g' i msg ∈ queue c → g' ≠ g := by
    rintro c g' i msg hmem rfl
    rw [← mem_about, hnone] at hmem
    cases hmem
  constructor
  · grind [h.home]
  · grind [h.news]
  · grind [h.order]
  · intro g' x hx
    by_cases hg : g' = g
    · rw [hg, hnone] at hx
      cases hx
    · rw [update_of_ne hg] at hx
      exact h.bound g' x hx

variable {wakeup : Bool}

/-- When the association succeeds, there are no messages about the thread. -/
theorem Inv.associate (h : Inv cfg s place)
    (hagent : s.agents c = .migrating .associate p target n wakeup) :
    Ensures (fun _ => True) (associate s c p target n wakeup) fun s' => Inv cfg s' place := by
  have hheld := h.held c
  rw [hagent] at hheld
  obtain ⟨t, ht, hr, hout, -, hchannel, -, hmail⟩ := hheld
  rw [PerCpuFifo.associate, task_eq ht, ok_bind]
  refine .bind (.check trivial) fun _ _ => .bind (.check trivial) fun _ hcpu =>
    .bind (.check trivial) fun _ hbarrier => .pure ?_
  -- the barrier says that the agent has read all messages, so none is left in the old queue
  have hnone : ∀ c', about t.gtid (s.queue c') = [] := by
    intro c'
    refine List.eq_nil_iff_forall_not_mem.mpr fun x hx => ?_
    have hc' : s.channel t.gtid = c' := h.mail.home c' _ x.1 x.2 (mem_about.mp hx)
    cases hchannel.symm.trans hc'
    have hle := h.mail.bound t.gtid x (hchannel.symm ▸ hx)
    have hlt := hmail x hx
    omega
  have hother : ∀ q u, q ≠ p → s.heap q = some u →
      update s.channel t.gtid target u.gtid = s.channel u.gtid := by
    intro q u hq hu
    refine update_of_ne (fun hg => hq ?_) ..
    have halloc := (h.tasks.owned t.gtid q).mpr ⟨u, hu, hg⟩
    rw [(h.tasks.owned t.gtid p).mpr ⟨t, ht, rfl⟩] at halloc
    exact (Option.some.inj halloc).symm
  have hmine : (s.agents c).task = some p := congrArg Agent.task hagent
  have hagents : ∀ c', ((s.setAgent c (.migrating .place p target n wakeup)).agents c').task =
      (s.agents c').task := by
    intro c'
    by_cases hc : c' = c
    · subst hc
      rw [hmine]
      exact congrArg _ (update_self ..)
    · exact congrArg _ (update_of_ne hc ..)
  refine ⟨h.board, ⟨h.tasks.owned, h.tasks.dead, ?_⟩, h.mail.move hnone, ?_, ?_, ?_, ?_⟩
  · -- a task with a cpu is at the channel of that cpu
    intro q u c' hu hc'
    by_cases hq : q = p
    · subst hq
      cases hu.symm.trans ht
      rw [hcpu] at hc'
      cases hc'
    · exact (hother q u hq hu).trans (h.tasks.home q u c' hu hc')
  · intro q u hu hfree hc'
    have hfree' : ∀ c', (s.agents c').task ≠ some q := fun c' => hagents c' ▸ hfree c'
    have hq : q ≠ p := fun heq => hfree' c (heq ▸ hmine)
    exact (hother q u hq hu).trans (h.fresh q u hu hfree' hc')
  · intro q u _ hu hfree
    exact h.free q u nofun hu fun c' => hagents c' ▸ hfree c'
  · intro c'
    by_cases hc : c' = c
    · subst hc
      rw [show (s.setAgent c' _).agents c' = _ from update_self ..]
      exact ⟨t, ht, hr, hout, hcpu, update_self ..⟩
    · rw [show (s.setAgent c _).agents c' = _ from update_of_ne hc ..]
      refine (h.held c').frame (fun _ => id) fun q u hq hu => ?_
      have hqp : q ≠ p := fun heq => hc (h.unique c' c p (heq ▸ hq) hmine)
      exact ⟨u, hu, rfl, rfl, rfl, rfl, hother q u hqp hu, le_refl _, fun _ hx => .inl hx⟩
  · grind [h.unique]

/-- The agent that works on a task changes it and does not move it. -/
theorem Inv.workOn {t' : FifoTask G C} (h : Inv cfg s place) (hmine : (s.agents c).task = some p)
    (ha : a.task = some p) (ht : s.heap p = some t) (hgtid : t'.gtid = t.gtid)
    (hhome : ∀ c', t'.cpu = some c' → s.channel t.gtid = c')
    (hheld : Held cfg ((s.setTask p t').setAgent c a) place c a) :
    Inv cfg ((s.setTask p t').setAgent c a) place := by
  have hsame : update place p (place p) = place := update_eq_self ..
  have hwork := InvBut.work (l := place p) h t' a (.inl rfl) ht (.inl hmine) (.inl ha)
    hgtid hhome (fun hnone => absurd (ha.symm.trans hnone) nofun)
    (by rw [hsame]; exact h.board) (fun _ _ => id) rfl (by rw [hsame]; exact hheld)
  rw [hsame] at hwork
  refine hwork.settle_held (c := c) ?_
  rw [show (State.setAgent _ c a).agents c = a from update_self ..]
  exact ha

/-- A part of a migration. -/
theorem Inv.migrate {stage : Stage} (h : Inv cfg s place)
    (hagent : s.agents c = .migrating stage p target n wakeup) :
    Ensures (fun _ => True) (migrate s c p target n wakeup stage) fun s' =>
      ∃ place', Inv cfg s' place' := by
  have hheld := h.held c
  rw [hagent] at hheld
  cases stage with
  | associate => exact (h.associate hagent).mono fun s' hs' => ⟨place, hs'⟩
  | place =>
    -- the task learns its cpu
    obtain ⟨t, ht, hr, hout, hcpu, hchannel⟩ := hheld
    rw [PerCpuFifo.migrate, task_eq ht, ok_bind]
    refine .pure ⟨place, h.workOn (congrArg _ hagent) rfl ht rfl ?_ ?_⟩
    · intro c' hc'
      cases hc'
      exact hchannel
    · exact ⟨_, update_self .., hr, hout, rfl⟩
  | enqueue =>
    -- it is queued, but on no queue yet
    obtain ⟨t, ht, hr, hout, hcpu⟩ := hheld
    rw [PerCpuFifo.migrate, task_eq ht, ok_bind]
    refine .bind (.check trivial) fun _ _ => .bind (.check trivial) fun _ _ =>
      .pure ⟨place, h.workOn (congrArg _ hagent) rfl ht rfl
        (fun c' hc' => h.tasks.home p t c' ht hc') ?_⟩
    exact ⟨_, update_self .., rfl, hout, hcpu⟩
  | push =>
    -- it gets on the run queue, and the agent lets go of it
    obtain ⟨t, ht, hr, hout, hcpu⟩ := hheld
    rw [PerCpuFifo.migrate, task_eq ht, ok_bind]
    have hmine : (s.agents c).task = some p := congrArg Agent.task hagent
    generalize ha : (if wakeup then Agent.migrating .advance p target n wakeup else .drain) = a
    have hnone : a.task = none := by
      rw [← ha]
      split <;> rfl
    have hheld : ∀ (s' : State G C P) (place' : P → Place C), Held cfg s' place' c a := by
      intro s' place'
      rw [← ha]
      split <;> trivial
    have hs' : (s.setRunQueue target (t.push p (s.runQueue target))).setAgent c a =
        { (s.setTask p t).setAgent c a with
          runQueue := update s.runQueue target (t.push p (s.runQueue target))
          current := s.current
          next := s.next } := by
      rw [setTask_self ht]
      rfl
    have hwork := InvBut.work h t a (.inl rfl) ht (.inl hmine) (.inr hnone) rfl
      (fun c' hc' => h.tasks.home p t c' ht hc') (fun _ hc => absurd (hcpu.symm.trans hc) (by simp))
      (h.board.push (c := target) hout (t.push_perm p _)) (fun _ _ => id) hs' (hheld _ _)
    refine .pure ⟨_, hwork.settle fun u hu _ => ?_⟩
    cases (show s.heap p = some u from hu).symm.trans ht
    rw [update_self]
    exact .queued target hr hcpu
  | advance =>
    -- another agent may have freed it meanwhile
    rw [PerCpuFifo.migrate]
    refine .bind (P := fun s' => Inv cfg s' place ∧ s'.agents = s.agents) ?_ fun s' hs' => .pure ?_
    · rcases Option.eq_none_or_eq_some (s.heap p) with hp | ⟨t, ht⟩
      · rw [PerCpuFifo.advance, show s.task p = .error .freed by rw [State.task, hp]]
        exact .error trivial
      · exact ((advance_spec h ht).mono fun s' hs' => ⟨hs'.2.2, hs'.1.agents⟩).allow
          fun _ _ => trivial
    · obtain ⟨hinv, hagents⟩ := hs'
      refine ⟨place, InvBut.setAgent hinv ?_ trivial⟩
      rw [hagents, hagent]
      rfl

omit [DecidableEq G] in
theorem taskOnCpu_eq (ht : s.heap p = some t) :
    taskOnCpu s p c = .ok ((s.setCurrent c (some p)).setTask p
      { t with runState := .onCpu, cpu := some c, preempted := false, prioBoost := false }) := by
  rw [taskOnCpu, task_eq ht]
  rfl

variable {x : Except Fault (State G C P)}

section

variable (h : Inv cfg s place)
include h

/-- The agent gets its cpu. -/
theorem Inv.wake (hx : wake cfg s c = some x) :
    Ensures (fun _ => False) x fun s' => ∃ place', Inv cfg s' place' := by
  have hinv : Inv cfg { s with kernel := takeCpu s.kernel c } place :=
    h.kernel fun g => (takeCpu_silent s.kernel c g).barrier
  rw [PerCpuFifo.wake] at hx
  split at hx
  · rename_i hagent
    obtain ⟨-, hx⟩ := Option.ite_none_right_eq_some.mp hx
    cases hx
    refine .ok ⟨place, InvBut.setAgent hinv ?_ trivial⟩
    rw [hagent]
    rfl
  · rename_i q hagent
    have hheld := h.held c
    rw [hagent] at hheld
    obtain ⟨t, ht, hcpu, hwhere⟩ := hheld
    rw [ht] at hx
    obtain ⟨-, hx⟩ := Option.ite_none_left_eq_some.mp hx
    cases hx
    rw [taskOnCpu_eq (s := State.setAgent { s with kernel := takeCpu s.kernel c } c .drain) ht]
    have hmine : (s.agents c).task = some q := congrArg Agent.task hagent
    -- it may be current already
    have hboard : Board (update place q (.onCpu c)) s.runQueue (update s.current c (some q)) := by
      rcases hwhere with ⟨-, hout, hnone⟩ | ⟨-, hon⟩
      · exact h.board.set hout hnone
      · grind [h.board.current, h.board, update_eq_self]
    refine .ok ⟨_, (hinv.work
      { t with runState := .onCpu, cpu := some c, preempted := false, prioBoost := false } .drain
      (.inl rfl) ht (.inl hmine) (.inr rfl) rfl ?_ (fun _ => (by simp)) hboard ?_ rfl
      trivial).settle fun u hu _ => ?_⟩
    · intro c' hc'
      cases hc'
      exact h.tasks.home q t c ht hcpu
    · intro c' hc hnone
      rw [update_of_ne hc]
      exact hnone
    · cases hu.symm.trans (update_self ..)
      rw [update_self]
      exact .onCpu c rfl rfl
  · cases hx

omit [DecidableEq C] [DecidableEq P] in
/-- A task that is on a run queue, or current on a cpu whose agent is not working on it, is one
that no agent is working on. -/
theorem Inv.alone_of_placed (ht : s.heap p = some t) (hagent : (s.agents c).task = none)
    (hplace : place p = .queued c ∨ place p = .onCpu c) : ∀ c', (s.agents c').task ≠ some p := by
  intro c' hc'
  rcases (h.held c').where_is h.tasks hc' ht with ⟨-, hw⟩ | ⟨-, hw⟩
  · rcases hw with hw | hw
    · rw [hw] at hplace
      rcases hplace with hplace | hplace <;> cases hplace
    · rw [hw] at hplace
      rcases hplace with hplace | hplace
      · cases hplace
      · cases hplace
        rw [hagent] at hc'
        cases hc'
  · rw [hw] at hplace
    rcases hplace with hplace | hplace <;> cases hplace

/-- The agent picks a task. -/
theorem Inv.pick {prioBoost : Bool} (hagent : s.agents c = .drain) :
    Ensures (fun _ => False) (pick s c prioBoost) fun s' => ∃ place', Inv cfg s' place' := by
  have hnone : (s.agents c).task = none := congrArg Agent.task hagent
  have hsleep : Inv cfg (s.setAgent c .asleep) place := InvBut.setAgent h hnone.symm trivial
  have hlive : ∀ q, place q ≠ .out → ∃ t, s.heap q = some t := by
    intro q hq
    rcases Option.eq_none_or_eq_some (s.heap q) with hnone | hsome
    · exact absurd (h.tasks.dead q hnone) hq
    · exact hsome
  rw [PerCpuFifo.pick]
  split
  · exact .ok ⟨place, hsleep⟩
  · rw [pickTask]
    split
    · -- the current task goes on
      rename_i q hcurrent
      have hplace := (h.board.current c q).mp hcurrent
      obtain ⟨t, ht⟩ := hlive q (by rw [hplace]; simp)
      have halone := h.alone_of_placed ht hnone (.inr hplace)
      have hfree := h.free q t (by simp) ht halone
      rw [hplace] at hfree
      have hstate : t.runState = .onCpu ∧ t.cpu = some c := by
        cases hfree with
        | onCpu _ hr hc => exact ⟨hr, hc⟩
      have hboard : Board (update place q (.onCpu c)) s.runQueue s.current := by
        rw [← hplace, update_eq_self]
        exact h.board
      have hs' : s.setAgent c (.opened q) = { (s.setTask q t).setAgent c (.opened q) with
          runQueue := s.runQueue, current := s.current, next := s.next } := by
        rw [setTask_self ht]
        rfl
      rw [ok_bind]
      exact .pure ⟨_, (InvBut.work (l := .onCpu c) h t (.opened q) (.inl rfl) ht
        (.inr ⟨hnone, halone⟩) (.inl rfl) rfl
        (fun c' hc' => h.tasks.home q t c' ht hc') (by rintro ⟨⟩) hboard (fun _ _ => id) hs'
        ⟨t, ht, hstate.2, .inr ⟨hstate.1, update_self ..⟩⟩).settle_held
          (congrArg Agent.task (update_self c _ s.agents))⟩
    · rename_i hcurrent
      rw [dequeue]
      split
      · exact .pure ⟨place, hsleep⟩
      · rename_i q rest hqueue
        have hplace : place q = .queued c := by
          rw [← h.board.mem_runQueue, hqueue]
          exact List.mem_cons_self
        obtain ⟨t, ht⟩ := hlive q (by rw [hplace]; simp)
        have halone := h.alone_of_placed ht hnone (.inl hplace)
        have hfree := h.free q t (by simp) ht halone
        rw [hplace] at hfree
        have hstate : t.runState = .queued ∧ t.cpu = some c := by
          cases hfree with
          | queued _ hr hc => exact ⟨hr, hc⟩
        rw [task_eq ht, ok_bind]
        refine .bind (P := fun r => r =
          ((s.setTask q { t with runState := .runnable }).setRunQueue c
          rest, some q)) (.bind (.check_of hstate.1) fun _ _ => .pure rfl) fun r hr => ?_
        subst hr
        have hboard := h.board.remove hplace (by rw [hqueue])
        exact .pure ⟨_, (InvBut.work h { t with runState := .runnable } (.opened q) (.inl rfl) ht
          (.inr ⟨hnone, halone⟩) (.inl rfl) rfl
          (fun c' hc' => h.tasks.home q t c' ht hc') (by rintro ⟨⟩) hboard (fun _ _ => id) rfl
          ⟨_, update_self .., hstate.2, .inl ⟨rfl, update_self .., hcurrent⟩⟩).settle_held
            (congrArg Agent.task (update_self c _ s.agents))⟩

/-- A task whose transaction failed goes to the run queue. -/
theorem putBack_eq (ht : s.heap p = some t) (hcpu : t.cpu = some c)
    (hwhere : t.runState = .runnable ∧ place p = .out ∧ s.current c = none ∨
      t.runState = .onCpu ∧ place p = .onCpu c) :
    putBack s c p = .ok { (s.setTask p { t with prioBoost := true, runState := .queued }).setAgent c
        .drain with
      current := update s.current c none
      runQueue := update s.runQueue c (p :: s.runQueue c) } := by
  have henqueue : ∀ s₁ : State G C P, s₁.heap p = some { t with runState := .runnable } →
      enqueue (s₁.setTask p { t with runState := .runnable, prioBoost := true }) c p =
        .ok ((s₁.setTask p { t with prioBoost := true, runState := .queued }).setRunQueue c
          (p :: s₁.runQueue c)) := by
    intro s₁ hs₁
    rw [enqueue, task_eq (show State.heap (State.setTask ..) p = _ from update_self ..), ok_bind]
    rw [check, if_pos (by rw [hcpu]; rfl), ok_bind, check, if_pos rfl, ok_bind]
    simp only [State.setTask, update_idem]
    rfl
  rw [putBack]
  rcases hwhere with ⟨hr, -, hnone⟩ | ⟨hr, hplace⟩
  · rw [if_neg (by rw [hnone]; simp), ok_bind, task_eq ht, ok_bind]
    have ht' : t = { t with runState := .runnable } := by
      rw [← hr]
    have hs := henqueue s (ht.trans (congrArg some ht'))
    rw [show ({ t with prioBoost := true } : FifoTask G C) =
      { t with runState := .runnable, prioBoost := true } by rw [← hr], hs, ok_bind]
    have hcurrent : update s.current c none = s.current := by
      rw [← hnone, update_eq_self]
    rw [hcurrent]
    rfl
  · have hcurrent := (h.board.current c p).mpr hplace
    rw [if_pos hcurrent, taskOffCpu, task_eq ht, ok_bind,
      show cpuStateOf t = .ok c by rw [cpuStateOf, hcpu], ok_bind]
    rw [if_pos hr, check, if_pos hcurrent, ok_bind]
    show (Except.ok ((s.setCurrent c none).setTask p { t with runState := .runnable }) >>= _) = _
    generalize hs₁ : (s.setCurrent c none).setTask p { t with runState := .runnable } = s₁
    have ht₁ : s₁.heap p = some { t with runState := .runnable } := by
      rw [← hs₁]
      exact update_self ..
    rw [ok_bind, task_eq ht₁, ok_bind, henqueue s₁ ht₁, ok_bind, ← hs₁]
    simp only [State.setTask, update_idem]
    rfl

/-- The transaction is committed, or the task goes back to the run queue. -/
theorem Inv.commit {ok : Bool} (hagent : s.agents c = .opened p) (hx : commit s c p ok = some x) :
    Ensures (fun _ => False) x fun s' => ∃ place', Inv cfg s' place' := by
  have hheld := h.held c
  rw [hagent] at hheld
  obtain ⟨t, ht, hcpu, hwhere⟩ := hheld
  have hmine : (s.agents c).task = some p := congrArg Agent.task hagent
  rw [PerCpuFifo.commit, ht] at hx
  dsimp only at hx
  split at hx
  · obtain ⟨k, hk, hx⟩ := Option.map_eq_some_iff.mp hx
    cases hx
    obtain ⟨-, -, rfl⟩ := latch_eq_some hk
    refine .ok ⟨place, InvBut.setAgent (h.kernel fun g => ?_) hmine.symm ⟨t, ht, hcpu, hwhere⟩⟩
    by_cases hg : g = t.gtid
    · rw [hg, update_self]
    · rw [update_of_ne hg]
  · cases hx
    rw [putBack_eq h ht hcpu hwhere]
    have hboard : Board (update place p (.queued c))
        (update s.runQueue c (p :: s.runQueue c)) (update s.current c none) := by
      rcases hwhere with ⟨-, hout, hnone⟩ | ⟨-, hon⟩
      · rw [← hnone, update_eq_self]
        exact h.board.push hout (.refl _)
      · have hpush := (h.board.clear hon).push (c := c) (update_self ..) (.refl _)
        rw [update_idem] at hpush
        exact hpush
    refine .ok ⟨_, (InvBut.work h { t with prioBoost := true, runState := .queued } .drain
      (.inl rfl)
      ht (.inl hmine) (.inr rfl) rfl
      (fun c' hc' => h.tasks.home p t c' ht hc')
        (fun _ hnone => absurd (hcpu.symm.trans hnone) nofun)
      hboard ?_ rfl trivial).settle fun u hu _ => ?_⟩
    · intro c' hc hnone
      rw [update_of_ne hc]
      exact hnone
    · cases hu.symm.trans (update_self ..)
      rw [update_self]
      exact .queued c rfl hcpu

end

end Agents

/-! ## Runs -/

section Runs

variable [DecidableEq C] [DecidableEq P] {cfg : Config C} {s s' s₀ : State G C P}
  {place : P → Place C}

omit [DecidableEq C] [DecidableEq P] in
theorem Init.inv (h : Init s) : Inv cfg s fun _ => .out := by
  have hheap : ∀ {p t}, s.heap p ≠ some t := by
    intro p t ht
    rw [h.heap] at ht
    cases ht
  have hqueue : ∀ {c m}, m ∉ s.queue c := by
    intro c m hm
    rw [h.queue] at hm
    cases hm
  have htask : ∀ {c p}, (s.agents c).task ≠ some p := by
    intro c p hp
    rw [h.agents] at hp
    cases hp
  refine ⟨⟨fun c => ?_, fun c p => ?_, fun c p => ?_⟩, ⟨fun g p => ?_, fun _ _ => rfl, ?_⟩,
    ⟨?_, ?_, fun g => ?_, fun g x hx => ?_⟩, ?_, ?_, fun c => ?_, ?_⟩
  · rw [h.runQueue]
    exact .nil
  · rw [h.runQueue]
    exact iff_of_false nofun nofun
  · rw [h.current]
    exact iff_of_false nofun nofun
  · grind [h.alloc]
  · exact fun p t c ht => absurd ht hheap
  · exact fun c g i msg hm => absurd hm hqueue
  · exact fun g i info runnable hm => absurd hm hqueue
  · rw [h.queue]
    exact .nil
  · rw [h.queue] at hx
    cases hx
  · exact fun p t ht => absurd ht hheap
  · exact fun p t _ ht => absurd ht hheap
  · rw [h.agents]
    trivial
  · exact fun c c' p hp => absurd hp htask

variable {a : Action G C P}

/-- What an action does, if it is not one of a thread that comes back too early. -/
theorem Inv.act {x : Except Fault (State G C P)} (h : Inv cfg s place) (hfresh : Fresh s a)
    (hx : act cfg s a = some x) :
    Ensures (fun _ => True) x fun s' => ∃ place', Inv cfg s' place' := by
  cases a with simp only [PerCpuFifo.act] at hx
  | kernel g e =>
    obtain ⟨s', hs', rfl⟩ := Option.map_eq_some_iff.mp hx
    exact .ok ⟨place, h.kernelStep hfresh hs'⟩
  | tick c =>
    cases hx
    exact .ok ⟨place, h.tick⟩
  | wake c => exact (h.wake hx).allow fun _ _ => trivial
  | dispatch c p deferrable =>
    split at hx
    · rename_i msg rest hagent hq
      cases msg with
      | cpuTick =>
        cases hx
        exact .ok ⟨place, h.pop hq⟩
      | task g i msg =>
        unfold dispatchMessage at hx
        dsimp only at hx
        split at hx
        · -- a message about a task
          grind [h.dispatch_known]
        · -- a new task
          rename_i info runnable halloc
          obtain ⟨hp, hx⟩ := Option.ite_none_right_eq_some.mp hx
          cases hx
          exact (h.dispatch_new hagent hq halloc (Option.isNone_iff_eq_none.mp hp)).allow
            fun _ _ => trivial
        · -- a message about a thread without a task
          cases hx
          exact .ok ⟨place, h.pop hq⟩
    · cases hx
  | migrate c =>
    grind [PerCpuFifo.act, h.migrate]
  | pick c prioBoost =>
    split at hx <;> cases hx
    rename_i hagent hq
    exact (h.pick hagent).allow fun _ _ => trivial
  | commit c ok =>
    split at hx
    · rename_i p hagent
      exact (h.commit hagent hx).allow fun _ _ => trivial
    · cases hx

theorem step_eq_some (h : step cfg s a = some s') : act cfg s a = some (.ok s') := by
  rw [step] at h
  split at h
  · rename_i hx
    rw [hx, Option.some.inj h]
  · cases h

theorem inv_of_stepsWhen (h : Init s₀) (hsteps : StepsWhen Fresh (step cfg) s₀ s) :
    ∃ place, Inv cfg s place := by
  refine hsteps.invariant (P := fun s => ∃ place, Inv cfg s place) ?_ ⟨_, h.inv⟩
  rintro s₁ a s₂ ⟨place, hinv⟩ hfresh hstep
  exact (hinv.act hfresh (step_eq_some hstep)).of_ok rfl

/-- A task that no agent is working on is where its state says, and nowhere else. -/
theorem task_at_one_place (h : Init s₀) (hsteps : StepsWhen Fresh (step cfg) s₀ s) {p : P}
    {t : FifoTask G C} (ht : s.heap p = some t) (hidle : ∀ c, (s.agents c).task ≠ some p) :
    (t.runState = .blocked ∧ ∀ c, p ∉ s.runQueue c ∧ s.current c ≠ some p) ∨
      (t.runState = .queued ∧ ∃ c, t.cpu = some c ∧ (s.runQueue c).count p = 1 ∧
        (∀ c' ≠ c, p ∉ s.runQueue c') ∧ ∀ c', s.current c' ≠ some p) ∨
      (t.runState = .onCpu ∧ ∃ c, t.cpu = some c ∧ (∀ c', s.current c' = some p ↔ c' = c) ∧
        ∀ c', p ∉ s.runQueue c') := by
  obtain ⟨place, hinv⟩ := inv_of_stepsWhen h hsteps
  have hfree := hinv.free p t (by simp) ht hidle
  have hmem := fun c => hinv.board.mem_runQueue c p
  have hcurrent := fun c => hinv.board.current c p
  generalize place p = l at hfree hmem hcurrent
  cases hfree with
  | blocked hr =>
    refine .inl ⟨hr, fun c => ⟨?_, ?_⟩⟩
    · rw [hmem]
      simp
    · rw [ne_eq, hcurrent]
      simp
  | queued c hr hc =>
    grind [List.count_eq_one_of_mem, hinv.board.nodup]
  | onCpu c hr hc =>
    refine .inr (.inr ⟨hr, c, hc, ?_, ?_⟩)
    · intro c'
      rw [hcurrent]
      exact ⟨fun heq => (Place.onCpu.inj heq).symm, fun heq => congrArg _ heq.symm⟩
    · intro c'
      rw [hmem]
      simp

end Runs

instance [DecidableEq C] [DecidableEq P] [Fintype C] (s : State G C P) (a : Action G C P) :
    Decidable (Fresh s a) := by
  unfold Fresh
  split <;> infer_instance

/-- Two cpus, and nothing has happened yet. -/
def twoCpus : Config Bool := ⟨false, [true]⟩

def idle : State Bool Bool Bool where
  kernel _ := .absent Bool
  channel _ := false
  queue _ := []
  alloc _ := none
  heap _ := none
  current _ := none
  runQueue _ := []
  agents _ := .asleep
  next := []

theorem idle_init : Init idle :=
  ⟨fun _ => rfl, fun _ => rfl, fun _ => rfl, fun _ => rfl, fun _ => rfl, fun _ => rfl, fun _ => rfl⟩

/-- A thread enters ghost, and its task gets the memory of the same name. -/
def enters (g : Bool) : List (Action Bool Bool Bool) :=
  [.kernel g (.enter () 0 true), .dispatch false g false, .migrate false, .migrate false,
    .migrate false, .migrate false]

/-- Two threads enter ghost, one for each cpu. -/
def bothEnter : List (Action Bool Bool Bool) := [.wake false] ++ enters false ++ enters true

def bothQueued : State Bool Bool Bool := (exec (step twoCpus) idle bothEnter).getD idle

theorem task_at_one_place_queued :
    bothQueued.heap true = some ⟨true, 0, .queued, some true, false, false⟩ ∧
    (bothQueued.runQueue true).count true = 1 ∧ true ∉ bothQueued.runQueue false := by
  have hrun : StepsWhen Fresh (step twoCpus) idle bothQueued :=
    .of_execWhen (fun _ _ h => of_decide_eq_true h) bothEnter rfl
  have hidle : ∀ c, (bothQueued.agents c).task ≠ some true := by decide
  rcases task_at_one_place idle_init hrun rfl hidle with ⟨hr, -⟩ | ⟨-, c, hc, hcount, hne, -⟩
    | ⟨hr, -⟩
  · cases hr
  · cases hc
    exact ⟨rfl, hcount, hne false nofun⟩
  · cases hr

/-- The thread on cpu `true` departs and comes back while the agent waits in its second `Commit`.
The other thread switches to it, and it yields. -/
def comesBack : List (Action Bool Bool Bool) :=
  bothEnter ++
  [.wake true, .pick true false, .commit true true, .kernel true .getOnCpu, .wake true,
    .kernel true .leaveCpu, .pick true false, .commit true true, .kernel true .getOnCpu,
    .kernel true .depart, .kernel true .leaveCpu, .kernel true (.enter () 10 false),
    .dispatch false true false, .pick false false, .commit false true, .kernel false .getOnCpu,
    .kernel false (.switchto true), .kernel true .yield, .wake false, .dispatch false true false,
    .dispatch false true false, .wake true]

def yieldedTwice : State Bool Bool Bool := (exec (step twoCpus) idle comesBack).getD idle

/-- The default agent puts the old task on the run queue, and the agent that waited makes it the
current one. -/
theorem queued_and_current : Init idle ∧ Steps (step twoCpus) idle yieldedTwice ∧
    yieldedTwice.heap true = some ⟨true, 11, .onCpu, some true, false, false⟩ ∧
    (∀ c, (yieldedTwice.agents c).task ≠ some true) ∧
    yieldedTwice.current true = some true ∧ true ∈ yieldedTwice.runQueue true := by
  have hrun : Steps (step twoCpus) idle yieldedTwice :=
    .of_exec (show exec (step twoCpus) idle comesBack = some yieldedTwice from rfl)
  refine ⟨idle_init, hrun, rfl, ?_, rfl, ?_⟩ <;> decide

end PerCpuFifo
