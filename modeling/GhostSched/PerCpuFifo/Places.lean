import GhostSched.PerCpuFifo.Model
import Mathlib.Data.List.Nodup
import Mathlib.Data.List.Perm.Basic

/-!
# Where the per-cpu FIFO scheduler keeps its tasks

* `Board` says that each task is at one place. The place of a task that no agent is
  working on is the one its state says: `Free`.
* `Held` is what holds of the task that an agent is working on. Other agents do not
  touch it: all messages about a thread are on the channel that it is associated with,
  `Mail`, and that is the one of the agent.
* `InvBut` has all of it, with an exception for one task that a handler has taken from
  its place and not yet put to another one: `Aside`.
* There is one lemma for each function. It also says when the function does not fail.
-/

namespace PerCpuFifo

open Kernel Checked Cfs Function

variable {G C P : Type}

/-! ## Places -/

inductive Place (C : Type) where
  | out
  | queued (cpu : C)
  | onCpu (cpu : C)

/-- The places of all tasks. -/
structure Board (place : P → Place C) (runQueue : C → List P) (current : C → Option P) :
    Prop where
  nodup : ∀ c, (runQueue c).Nodup
  mem_runQueue : ∀ c p, p ∈ runQueue c ↔ place p = .queued c
  current : ∀ c p, current c = some p ↔ place p = .onCpu c

section Board

variable [DecidableEq C] [DecidableEq P] {place : P → Place C} {runQueue : C → List P}
  {current : C → Option P} {p : P} {c : C} {l : List P}

section

variable (h : Board place runQueue current)
include h

/-- A task gets on the run queue of a cpu. -/
theorem Board.push (hp : place p = .out) (hl : l.Perm (p :: runQueue c)) :
    Board (update place p (.queued c)) (update runQueue c l) current := by
  have hnot : ∀ c', p ∉ runQueue c' := by
    intro c' hmem
    rw [h.mem_runQueue, hp] at hmem
    cases hmem
  constructor
  · grind [h.nodup]
  · grind [h.mem_runQueue]
  · grind [h.current]

/-- A task gets off it. -/
theorem Board.remove (hp : place p = .queued c) (hl : (runQueue c).Perm (p :: l)) :
    Board (update place p .out) (update runQueue c l) current := by
  obtain ⟨hnot, hnodup⟩ := List.nodup_cons.mp (hl.nodup_iff.mp (h.nodup c))
  constructor
  · grind [h.nodup]
  · grind [h.mem_runQueue]
  · grind [h.current]

/-- The current task gets off its cpu. -/
theorem Board.clear (hp : place p = .onCpu c) :
    Board (update place p .out) runQueue (update current c none) := by
  constructor
  · exact h.nodup
  · grind [h.mem_runQueue]
  · intro c' q
    have hcurrent : current c = some p := (h.current c p).mpr hp
    by_cases hc : c' = c <;> grind [h.current]

/-- A task gets on a cpu. -/
theorem Board.set (hp : place p = .out) (hc : current c = none) :
    Board (update place p (.onCpu c)) runQueue (update current c (some p)) := by
  constructor
  · exact h.nodup
  · grind [h.mem_runQueue]
  · grind [h.current]

end

end Board

/-! ## Invariant -/

/-- The task that the agent is working on. After the push the task can be taken by the agent of its
cpu, so what is left of a migration does not count. -/
def Agent.task : Agent C P → Option P
  | .asleep | .drain | .migrating .advance _ _ _ _ => none
  | .migrating .associate p _ _ _ | .migrating .place p _ _ _ => some p
  | .migrating .enqueue p _ _ _ | .migrating .push p _ _ _ => some p
  | .opened p | .committed p => some p

/-- The place of a task that no agent is working on. -/
inductive Free (t : FifoTask G C) : Place C → Prop where
  | blocked : t.runState = .blocked → Free t .out
  | queued (c : C) : t.runState = .queued → t.cpu = some c → Free t (.queued c)
  | onCpu (c : C) : t.runState = .onCpu → t.cpu = some c → Free t (.onCpu c)

variable {t : FifoTask G C} {l : Place C}

/-- Only the state and the cpu tell where a task is. -/
theorem Free.congr {t' : FifoTask G C} (h : Free t l) (hstate : t'.runState = t.runState)
    (hcpu : t'.cpu = t.cpu) : Free t' l := by
  cases h with
  | blocked hr => exact .blocked (hstate.trans hr)
  | queued c hr hc => exact .queued c (hstate.trans hr) (hcpu.trans hc)
  | onCpu c hr hc => exact .onCpu c (hstate.trans hr) (hcpu.trans hc)

section Free

variable {t : FifoTask G C} {l : Place C}

/-- A blocked task is nowhere. -/
theorem Free.eq_out (h : Free t l) (hr : t.runState = .blocked) : l = .out := by
  cases h with
  | blocked => rfl
  | queued c hr' | onCpu c hr' => exact absurd (hr.symm.trans hr') nofun

/-- A queued task is on the run queue of its cpu. -/
theorem Free.eq_queued (h : Free t l) (hr : t.runState = .queued) :
    ∃ c, t.cpu = some c ∧ l = .queued c := by
  cases h with
  | blocked hr' | onCpu c hr' => exact absurd (hr.symm.trans hr') nofun
  | queued c _ hc => exact ⟨c, hc, rfl⟩

/-- A task on a cpu is current there. -/
theorem Free.eq_onCpu (h : Free t l) (hr : t.runState = .onCpu) :
    ∃ c, t.cpu = some c ∧ l = .onCpu c := by
  cases h with
  | blocked hr' | queued c hr' => exact absurd (hr.symm.trans hr') nofun
  | onCpu c _ hc => exact ⟨c, hc, rfl⟩

/-- There is no fourth place. -/
theorem Free.eq_blocked (h : Free t l) (hqueued : t.runState ≠ .queued)
    (honCpu : t.runState ≠ .onCpu) : t.runState = .blocked := by
  cases h with
  | blocked hr => exact hr
  | queued c hr => exact absurd hr hqueued
  | onCpu c hr => exact absurd hr honCpu

end Free

variable [DecidableEq G]

/-- Where the messages are. -/
structure Mail (cfg : Config C) (kernel : G → Kernel.Task C) (channel : G → C)
    (queue : C → List (Cfs.Message G C)) : Prop where
  home : ∀ c g i msg, .task g i msg ∈ queue c → channel g = c
  news : ∀ g i info runnable, .task g i (.new info runnable) ∈ queue (channel g) →
    channel g = cfg.first
  order : ∀ g, ((about g (queue (channel g))).map Prod.fst).Pairwise (· < ·)
  bound : ∀ g, ∀ x ∈ about g (queue (channel g)), x.1 ≤ (kernel g).barrier

/-- The allocator knows the tasks that are live, and each is associated with its cpu. -/
structure Tasks (heap : P → Option (FifoTask G C)) (alloc : G → Option P) (channel : G → C)
    (place : P → Place C) : Prop where
  owned : ∀ g p, alloc g = some p ↔ ∃ t, heap p = some t ∧ t.gtid = g
  dead : ∀ p, heap p = none → place p = .out
  home : ∀ p t c, heap p = some t → t.cpu = some c → channel t.gtid = c

/-- What holds of the task that the agent of a cpu is working on. -/
def Held (cfg : Config C) (s : State G C P) (place : P → Place C) (c : C) : Agent C P → Prop
  | .asleep | .drain | .migrating .advance _ _ _ _ => True
  | .migrating .associate p _ n _ => ∃ t, s.heap p = some t ∧ t.runState = .runnable ∧
    place p = .out ∧ c = cfg.first ∧ s.channel t.gtid = c ∧ n ≤ (s.kernel t.gtid).barrier ∧
    ∀ x ∈ about t.gtid (s.queue c), n < x.1
  | .migrating .place p target _ _ => ∃ t, s.heap p = some t ∧ t.runState = .runnable ∧
    place p = .out ∧ t.cpu = none ∧ s.channel t.gtid = target
  | .migrating .enqueue p target _ _ => ∃ t, s.heap p = some t ∧ t.runState = .runnable ∧
    place p = .out ∧ t.cpu = some target
  | .migrating .push p target _ _ => ∃ t, s.heap p = some t ∧ t.runState = .queued ∧
    place p = .out ∧ t.cpu = some target
  | .opened p | .committed p => ∃ t, s.heap p = some t ∧ t.cpu = some c ∧
    (t.runState = .runnable ∧ place p = .out ∧ s.current c = none ∨
      t.runState = .onCpu ∧ place p = .onCpu c)

/-- The invariant, with an exception for one task. -/
structure InvBut (cfg : Config C) (s : State G C P) (place : P → Place C) (x : Option P) :
    Prop where
  board : Board place s.runQueue s.current
  tasks : Tasks s.heap s.alloc s.channel place
  mail : Mail cfg s.kernel s.channel s.queue
  fresh : ∀ p t, s.heap p = some t → (∀ c, (s.agents c).task ≠ some p) → t.cpu = none →
    s.channel t.gtid = cfg.first
  free : ∀ p t, x ≠ some p → s.heap p = some t → (∀ c, (s.agents c).task ≠ some p) →
    Free t (place p)
  held : ∀ c, Held cfg s place c (s.agents c)
  unique : ∀ c c' p, (s.agents c).task = some p → (s.agents c').task = some p → c = c'

def Inv (cfg : Config C) (s : State G C P) (place : P → Place C) : Prop := InvBut cfg s place none

/-- A handler has taken the task from its place. -/
structure Aside (cfg : Config C) (s : State G C P) (place : P → Place C) (p : P)
    (t : FifoTask G C) : Prop where
  inv : InvBut cfg s place (some p)
  task : s.heap p = some t
  alone : ∀ c, (s.agents c).task ≠ some p
  out : place p = .out

/-! ## What a step leaves alone -/

/-- A task that a step does not move, and the messages about it. New messages have larger sequence
numbers. -/
structure Carries (s s' : State G C P) (place place' : P → Place C) (c : C) (p : P)
    (t t' : FifoTask G C) : Prop where
  task : s'.heap p = some t'
  gtid : t'.gtid = t.gtid
  runState : t'.runState = t.runState
  cpu : t'.cpu = t.cpu
  place : place' p = place p
  channel : s'.channel t.gtid = s.channel t.gtid
  barrier : (s.kernel t.gtid).barrier ≤ (s'.kernel t.gtid).barrier
  mail : ∀ x ∈ about t.gtid (s'.queue c),
    x ∈ about t.gtid (s.queue c) ∨ (s.kernel t.gtid).barrier < x.1

section Frame

variable {cfg : Config C} {s s' : State G C P} {place place' : P → Place C} {c : C} {p : P}
  {t t' : FifoTask G C} {a : Agent C P} {x : Option P}

/-- An agent does not notice what happens to other tasks. -/
theorem Held.frame (h : Held cfg s place c a)
    (hcurrent : a.task ≠ none → s.current c = none → s'.current c = none)
    (hcarries : ∀ p t, a.task = some p → s.heap p = some t →
      ∃ t', Carries s s' place place' c p t t') : Held cfg s' place' c a := by
  cases a with
  | asleep | drain => trivial
  | opened p | committed p =>
    obtain ⟨t, ht, hcpu, hwhere⟩ := h
    obtain ⟨t', h'⟩ := hcarries p t rfl ht
    refine ⟨t', h'.task, h'.cpu.trans hcpu, ?_⟩
    rw [h'.runState, h'.place]
    exact hwhere.imp_left fun hw => ⟨hw.1, hw.2.1, hcurrent nofun hw.2.2⟩
  | migrating stage p target n wakeup =>
    cases stage with
    | associate =>
      obtain ⟨t, ht, hr, hplace, hfirst, hchannel, hn, hmail⟩ := h
      obtain ⟨t', h'⟩ := hcarries p t rfl ht
      refine ⟨t', h'.task, h'.runState.trans hr, h'.place.trans hplace, hfirst, ?_, ?_, ?_⟩
      · rw [h'.gtid, h'.channel]
        exact hchannel
      · rw [h'.gtid]
        exact hn.trans h'.barrier
      · grind [cases PerCpuFifo.Carries]
    | place =>
      obtain ⟨t, ht, hr, hplace, hcpu, hchannel⟩ := h
      obtain ⟨t', h'⟩ := hcarries p t rfl ht
      refine ⟨t', h'.task, h'.runState.trans hr, h'.place.trans hplace, h'.cpu.trans hcpu, ?_⟩
      rw [h'.gtid, h'.channel]
      exact hchannel
    | enqueue | push =>
      obtain ⟨t, ht, hr, hplace, hcpu⟩ := h
      obtain ⟨t', h'⟩ := hcarries p t rfl ht
      exact ⟨t', h'.task, h'.runState.trans hr, h'.place.trans hplace, h'.cpu.trans hcpu⟩
    | advance => trivial

/-- The task of an agent is live. -/
theorem Held.live (h : Held cfg s place c a) (ha : a.task = some p) : ∃ t, s.heap p = some t := by
  cases a with
  | asleep | drain => cases ha
  | opened q | committed q =>
    cases ha
    obtain ⟨t, ht, -⟩ := h
    exact ⟨t, ht⟩
  | migrating stage q target n wakeup =>
    cases stage with
    | advance => cases ha
    | _ =>
      cases ha
      obtain ⟨t, ht, -⟩ := h
      exact ⟨t, ht⟩

/-- An agent goes on with the task that it has. -/
theorem InvBut.setAgent [DecidableEq C] (h : InvBut cfg s place x)
    (htask : a.task = (s.agents c).task) (hheld : Held cfg s place c a) :
    InvBut cfg (s.setAgent c a) place x := by
  have hagents : ∀ c', ((s.setAgent c a).agents c').task = (s.agents c').task := by
    intro c'
    by_cases hc : c' = c
    · subst hc
      rw [← htask]
      exact congrArg _ (update_self ..)
    · exact congrArg _ (update_of_ne hc ..)
  have hsame : ∀ c' p t, s.heap p = some t →
      ∃ t', Carries s (s.setAgent c a) place place c' p t t' :=
    fun c' p t ht => ⟨t, ht, rfl, rfl, rfl, rfl, rfl, le_refl _, fun _ hx => .inl hx⟩
  refine ⟨h.board, h.tasks, h.mail, ?_, ?_, ?_, ?_⟩
  · intro p t ht hfree
    simp only [hagents] at hfree
    exact h.fresh p t ht hfree
  · intro p t hx ht hfree
    simp only [hagents] at hfree
    exact h.free p t hx ht hfree
  · intro c'
    by_cases hc : c' = c
    · subst hc
      rw [show (s.setAgent c' a).agents c' = a from update_self ..]
      exact hheld.frame (fun _ => id) fun p t _ ht => hsame c' p t ht
    · rw [show (s.setAgent c a).agents c' = s.agents c' from update_of_ne hc ..]
      exact (h.held c').frame (fun _ => id) fun p t _ ht => hsame c' p t ht
  · grind [h.unique]

theorem Inv.but (h : Inv cfg s place) (p : P) : InvBut cfg s place (some p) :=
  ⟨h.board, h.tasks, h.mail, h.fresh, fun q t _ => h.free q t nofun, h.held, h.unique⟩

/-- The task is where it should be after all. -/
theorem InvBut.settle (h : InvBut cfg s place (some p))
    (hfree : ∀ t, s.heap p = some t → (∀ c, (s.agents c).task ≠ some p) → Free t (place p)) :
    Inv cfg s place := by
  refine ⟨h.board, h.tasks, h.mail, h.fresh, ?_, h.held, h.unique⟩
  intro q t _ ht halone
  by_cases hq : q = p
  · subst hq
    exact hfree t ht halone
  · exact h.free q t (fun heq => hq (Option.some.inj heq).symm) ht halone

/-- An agent that holds the task answers for it. -/
theorem InvBut.settle_held (h : InvBut cfg s place (some p)) (hc : (s.agents c).task = some p) :
    Inv cfg s place :=
  h.settle fun _ _ hfree => absurd hc (hfree c)

variable [DecidableEq P]

omit [DecidableEq G] in
/-- A task changes, and goes to another place. -/
theorem Tasks.retask {heap : P → Option (FifoTask G C)} {alloc : G → Option P} {channel : G → C}
    (h : Tasks heap alloc channel place) (ht : heap p = some t) (hgtid : t'.gtid = t.gtid)
    (hhome : ∀ c, t'.cpu = some c → channel t.gtid = c) :
    Tasks (update heap p (some t')) alloc channel (update place p l) := by
  constructor
  · grind [h.owned]
  · grind [h.dead]
  · grind [h.home]

variable {current : C → Option P} {runQueue : C → List P}

/-- A task that no agent is working on changes, and goes to another place. -/
theorem InvBut.retask (h : InvBut cfg s place x) (t' : FifoTask G C) (hx : x = none ∨ x = some p)
    (ht : s.heap p = some t) (halone : ∀ c, (s.agents c).task ≠ some p) (hgtid : t'.gtid = t.gtid)
    (hcpu : t'.cpu = t.cpu) (hboard : Board (update place p l) runQueue current)
    (hcurrent : ∀ c, (s.agents c).task ≠ none → s.current c = none → current c = none) :
    InvBut cfg { s.setTask p t' with runQueue := runQueue, current := current }
      (update place p l) (some p) := by
  refine ⟨hboard, h.tasks.retask ht hgtid fun c hc => h.tasks.home p t c ht (hcpu ▸ hc), h.mail,
    ?_, ?_, ?_, h.unique⟩
  · intro q u hu hfree huc
    by_cases hq : q = p
    · subst hq
      cases hu.symm.trans (update_self ..)
      rw [hgtid]
      exact h.fresh q t ht hfree (hcpu ▸ huc)
    · exact h.fresh q u ((update_of_ne hq ..).symm.trans hu) hfree huc
  · intro q u hqx hu hfree
    have hq : q ≠ p := fun heq => hqx (congrArg some heq.symm)
    rw [update_of_ne hq]
    refine h.free q u ?_ ((update_of_ne hq ..).symm.trans hu) hfree
    rcases hx with rfl | rfl
    · exact nofun
    · exact hqx
  · intro c
    refine (h.held c).frame (hcurrent c) fun q u hq hu => ?_
    have hqp : q ≠ p := fun heq => halone c (heq ▸ hq)
    exact ⟨u, (update_of_ne hqp ..).trans hu, rfl, rfl, rfl, update_of_ne hqp ..,
      rfl, le_refl _, fun _ hx => .inl hx⟩

/-- The agent that is, or will be, working on a task changes it. -/
theorem InvBut.work [DecidableEq C] {next : List C} (h : InvBut cfg s place x) (t' : FifoTask G C)
    (a : Agent C P) (hx : x = none ∨ x = some p) (ht : s.heap p = some t)
    (hagent : (s.agents c).task = some p ∨
      (s.agents c).task = none ∧ ∀ c', (s.agents c').task ≠ some p)
    (hyours : a.task = some p ∨ a.task = none)
    (hgtid : t'.gtid = t.gtid) (hhome : ∀ c', t'.cpu = some c' → s.channel t.gtid = c')
    (hfresh : a.task = none → t'.cpu ≠ none) (hboard : Board (update place p l) runQueue current)
    (hcurrent : ∀ c' ≠ c, s.current c' = none → current c' = none)
    (hs' : s' = { (s.setTask p t').setAgent c a with
      runQueue := runQueue, current := current, next := next })
    (hheld : Held cfg s' (update place p l) c a) :
    InvBut cfg s' (update place p l) (some p) := by
  obtain ⟨hother, hmine⟩ : (∀ c' ≠ c, (s.agents c').task ≠ some p) ∧
      ∀ q, (s.agents c).task = some q → q = p := by
    rcases hagent with hp | ⟨hnone, halone⟩
    · exact ⟨fun c' hc hc' => hc (h.unique c' c p hc' hp),
        fun q hq => Option.some.inj (hq.symm.trans hp)⟩
    · exact ⟨fun c' _ => halone c', fun q hq => absurd (hnone.symm.trans hq) nofun⟩
  have hself : s'.agents c = a := by
    rw [hs']
    exact update_self ..
  have hne : ∀ {c'}, c' ≠ c → s'.agents c' = s.agents c' := by
    intro c' hc
    rw [hs']
    exact update_of_ne hc ..
  have hheap : ∀ {q}, q ≠ p → s'.heap q = s.heap q := by
    intro q hq
    rw [hs']
    exact update_of_ne hq ..
  have hchannel : s'.channel = s.channel := by
    rw [hs']
    rfl
  -- the other tasks have the agents that they had
  have hiff : ∀ q, q ≠ p → (∀ c', (s'.agents c').task ≠ some q) →
      ∀ c', (s.agents c').task ≠ some q := by
    intro q hq hfree c' hc'
    by_cases hc : c' = c
    · subst hc
      exact hq (hmine q hc')
    · exact hfree c' (hne hc ▸ hc')
  constructor
  · rw [hs']
    exact hboard
  · rw [hs']
    exact h.tasks.retask ht hgtid hhome
  · rw [hs']
    exact h.mail
  · intro q u hu hfree huc
    by_cases hq : q = p
    · subst hq
      rw [hs'] at hu
      cases hu.symm.trans (update_self ..)
      -- a task without a cpu stays with its agent
      exact absurd huc (hfresh (hyours.resolve_left (hself ▸ hfree c)))
    · rw [hchannel]
      exact h.fresh q u (hheap hq ▸ hu) (hiff q hq hfree) huc
  · grind [h.free]
  · intro c'
    by_cases hc : c' = c
    · subst hc
      rw [hself]
      exact hheld
    · rw [hne hc]
      refine (h.held c').frame (fun _ hnone => ?_) fun q u hq hu => ?_
      · rw [hs']
        exact hcurrent c' hc hnone
      · have hqp : q ≠ p := fun heq => hother c' hc (heq ▸ hq)
        refine ⟨u, (hheap hqp).trans hu, rfl, rfl, rfl, update_of_ne hqp .., ?_, ?_, ?_⟩
        · rw [hchannel]
        · rw [hs']
          exact le_refl _
        · rw [hs']
          exact fun _ hx => .inl hx
  · intro c₁ c₂ q h₁ h₂
    have hq : a.task = some q → q = p := by
      intro ha
      rcases hyours with hp | hnone
      · exact Option.some.inj (ha.symm.trans hp)
      · exact absurd (hnone.symm.trans ha) nofun
    by_cases hc₁ : c₁ = c
    · by_cases hc₂ : c₂ = c
      · exact hc₁.trans hc₂.symm
      · rw [hc₁, hself] at h₁
        rw [hne hc₂, hq h₁] at h₂
        exact absurd h₂ (hother c₂ hc₂)
    · by_cases hc₂ : c₂ = c
      · rw [hc₂, hself] at h₂
        rw [hne hc₁, hq h₂] at h₁
        exact absurd h₁ (hother c₁ hc₁)
      · grind [h.unique]

/-- A task changes and stays where it is, whoever is working on it. -/
theorem InvBut.adjust (h : InvBut cfg s place x) (ht : s.heap p = some t)
    (hgtid : t'.gtid = t.gtid) (hstate : t'.runState = t.runState) (hcpu : t'.cpu = t.cpu) :
    InvBut cfg (s.setTask p t') place x := by
  have hself : (s.setTask p t').heap p = some t' := update_self ..
  have hne : ∀ {q}, q ≠ p → (s.setTask p t').heap q = s.heap q :=
    fun hq => update_of_ne hq ..
  -- every task has a counterpart with the same thread, state and cpu
  have hback : ∀ q u', (s.setTask p t').heap q = some u' → ∃ u, s.heap q = some u ∧
      u'.gtid = u.gtid ∧ u'.runState = u.runState ∧ u'.cpu = u.cpu := by
    intro q u' hu'
    by_cases hq : q = p
    · subst hq
      rw [hself] at hu'
      cases hu'
      exact ⟨t, ht, hgtid, hstate, hcpu⟩
    · rw [hne hq] at hu'
      exact ⟨u', hu', rfl, rfl, rfl⟩
  have hforth : ∀ q u, s.heap q = some u → ∃ u', (s.setTask p t').heap q = some u' ∧
      u'.gtid = u.gtid ∧ u'.runState = u.runState ∧ u'.cpu = u.cpu := by
    intro q u hu
    by_cases hq : q = p
    · subst hq
      rw [ht] at hu
      cases hu
      exact ⟨t', hself, hgtid, hstate, hcpu⟩
    · exact ⟨u, (hne hq).trans hu, rfl, rfl, rfl⟩
  have htasks := h.tasks.retask (l := place p) ht hgtid
    fun c hc => h.tasks.home p t c ht (hcpu ▸ hc)
  rw [update_eq_self] at htasks
  refine ⟨h.board, htasks, h.mail, ?_, ?_, ?_, h.unique⟩
  · intro q u' hu' hfree hc
    obtain ⟨u, hu, hg, -, hc'⟩ := hback q u' hu'
    rw [hg]
    exact h.fresh q u hu hfree (hc' ▸ hc)
  · intro q u' hx hu' hfree
    obtain ⟨u, hu, -, hr, hc⟩ := hback q u' hu'
    exact (h.free q u hx hu hfree).congr hr hc
  · intro c
    refine (h.held c).frame (fun _ => id) fun q u _ hu => ?_
    obtain ⟨u', hu', hg, hr, hc⟩ := hforth q u hu
    exact ⟨u', hu', hg, hr, hc, rfl, rfl, le_refl _, fun _ hx => .inl hx⟩

end Frame

/-! ## Functions that move one task -/

/-- Only one task, the run queues and the current tasks change. -/
structure Only (s s' : State G C P) (p : P) : Prop where
  kernel : s'.kernel = s.kernel
  channel : s'.channel = s.channel
  queue : s'.queue = s.queue
  alloc : s'.alloc = s.alloc
  agents : s'.agents = s.agents
  heap : ∀ q ≠ p, s'.heap q = s.heap q

variable {s : State G C P} {p : P}

omit [DecidableEq G] in
/-- One function after the other, about the same task. -/
theorem Only.trans {s' s'' : State G C P} (h : Only s s' p) (h' : Only s' s'' p) : Only s s'' p :=
  ⟨h'.kernel.trans h.kernel, h'.channel.trans h.channel, h'.queue.trans h.queue,
    h'.alloc.trans h.alloc, h'.agents.trans h.agents,
    fun q hq => (h'.heap q hq).trans (h.heap q hq)⟩

omit [DecidableEq G] in
theorem Only.setTask [DecidableEq P] (s : State G C P) (p : P) (t : FifoTask G C)
    (runQueue : C → List P) (current : C → Option P) :
    Only s { s.setTask p t with runQueue := runQueue, current := current } p :=
  ⟨rfl, rfl, rfl, rfl, rfl, fun _ hq => update_of_ne hq ..⟩

omit [DecidableEq G] in
theorem task_eq (h : s.heap p = some t) : s.task p = .ok t := by
  rw [State.task, h]

omit [DecidableEq G] in
theorem setTask_self [DecidableEq P] (h : s.heap p = some t) : s.setTask p t = s := by
  rw [State.setTask, ← h, update_eq_self]

/-- The task is, as far as the scheduler knows, on a cpu. -/
def FifoTask.OffCpu (t : FifoTask G C) (fromSwitchto : Bool) : Prop :=
  t.runState = .onCpu ∨ t.runState = .blocked ∧ fromSwitchto = true ∧ t.cpu ≠ none

section Moves

variable [DecidableEq C] [DecidableEq P] {cfg : Config C} {s : State G C P}
  {place : P → Place C} {p : P} {t : FifoTask G C} {c : C}

omit [DecidableEq C] in
/-- A change of a task that is aside. -/
theorem Aside.setTask (h : Aside cfg s place p t) (t' : FifoTask G C) (hgtid : t'.gtid = t.gtid)
    (hcpu : t'.cpu = t.cpu) : Aside cfg (s.setTask p t') place p t' := by
  have hplace : update place p .out = place := by
    rw [← h.out]
    exact update_eq_self ..
  have hinv := h.inv.retask t' (.inr rfl) h.task h.alone hgtid hcpu (l := .out)
    (by rw [hplace]; exact h.inv.board) (fun _ _ => id)
  rw [hplace] at hinv
  exact ⟨hinv, update_self .., h.alone, h.out⟩

omit [DecidableEq C] [DecidableEq P] in
/-- A blocked task is aside already. -/
theorem Inv.aside_blocked (h : Inv cfg s place) (ht : s.heap p = some t)
    (halone : ∀ c, (s.agents c).task ≠ some p) (hr : t.runState = .blocked) :
    Aside cfg s place p t :=
  ⟨h.but p, ht, halone, (h.free p t nofun ht halone).eq_out hr⟩

/-- `TaskOffCpu` puts the task aside. -/
theorem taskOffCpu_spec (h : Inv cfg s place) (ht : s.heap p = some t)
    (halone : ∀ c, (s.agents c).task ≠ some p) {blocked fromSwitchto : Bool} :
    Ensures (fun _ => ¬ t.OffCpu fromSwitchto) (taskOffCpu s p blocked fromSwitchto) fun s' =>
      Only s s' p ∧ t.cpu ≠ none ∧ ∃ place', Aside cfg s' place' p
        { t with runState := if blocked then .blocked else .runnable } := by
  rw [taskOffCpu, task_eq ht, ok_bind]
  have hfree := h.free p t nofun ht halone
  rcases Option.eq_none_or_eq_some t.cpu with hcpu | ⟨c, hcpu⟩
  · rw [show cpuStateOf t = .error .check by rw [cpuStateOf, hcpu]]
    refine .error ?_
    grind [FifoTask.OffCpu, cases Free]
  · rw [show cpuStateOf t = .ok c by rw [cpuStateOf, hcpu], ok_bind]
    have hsome : t.cpu ≠ none := by
      rw [hcpu]
      exact nofun
    dsimp only
    split
    · -- it is current on its cpu
      rename_i hr
      obtain ⟨c', hc, hplace⟩ := hfree.eq_onCpu hr
      rw [hcpu] at hc
      cases hc
      refine .bind (.check_of ((h.board.current c p).mpr hplace)) fun _ _ => .pure ?_
      refine ⟨Only.setTask s p _ s.runQueue (update s.current c none), hsome, _,
        h.retask _ (.inl rfl) ht halone rfl rfl (h.board.clear hplace) ?_,
        update_self .., halone, update_self ..⟩
      intro c' _ hc'
      by_cases hcc : c' = c
      · subst hcc
        exact update_self ..
      · exact (update_of_ne hcc ..).trans hc'
    · -- it got there by a switchto
      refine .bind (.check_else ?_) fun _ _ => .bind (.check_else ?_) fun _ hb => .pure ?_
      · grind [FifoTask.OffCpu]
      · grind [FifoTask.OffCpu]
      · exact ⟨Only.setTask s p _ s.runQueue s.current, hsome, place,
          (h.aside_blocked ht halone hb).setTask _ rfl rfl⟩

omit [DecidableEq G] [DecidableEq C] [DecidableEq P] in
theorem FifoTask.push_perm (t : FifoTask G C) (p : P) (ps : List P) :
    (t.push p ps).Perm (p :: ps) := by
  unfold FifoTask.push
  split
  · exact .refl _
  · exact List.perm_append_singleton ..

/-- `Enqueue` fails only if the task is not runnable. -/
theorem enqueue_spec (h : Aside cfg s place p t) (hcpu : t.cpu = some c) :
    Ensures (fun _ => t.runState ≠ .runnable) (enqueue s c p) fun s' =>
      Only s s' p ∧ s'.heap p = some { t with runState := .queued } ∧
        ∃ place', Inv cfg s' place' := by
  rw [enqueue, task_eq h.task, ok_bind]
  have hsome : t.cpu.isSome = true := by
    rw [hcpu]
    rfl
  refine .bind (.check_of hsome) fun _ _ => .bind (.check_else id) fun _ _ => .pure ?_
  have hinv := h.inv.retask { t with runState := .queued } (.inr rfl) h.task h.alone rfl rfl
    (h.inv.board.push (c := c) h.out (t.push_perm p _)) (fun _ _ => id)
  refine ⟨Only.setTask s p _ _ s.current, update_self .., _, hinv.settle fun u hu _ => ?_⟩
  cases hu.symm.trans (update_self ..)
  rw [update_self]
  exact .queued c rfl hcpu

/-- `Erase`, of a queued task that no agent holds. -/
theorem erase_spec (h : Inv cfg s place) (ht : s.heap p = some t)
    (halone : ∀ c, (s.agents c).task ≠ some p) (hr : t.runState = .queued) (hcpu : t.cpu = some c) :
    Ensures (fun _ => False) (erase s c p) fun s' =>
      Only s s' p ∧ ∃ place', Aside cfg s' place' p { t with runState := .runnable } := by
  rw [erase, task_eq ht, ok_bind]
  obtain ⟨c', hc, hplace⟩ := (h.free p t nofun ht halone).eq_queued hr
  cases hcpu.symm.trans hc
  have hmem : p ∈ s.runQueue c := (h.board.mem_runQueue c p).mpr hplace
  refine .bind (.check_of hr) fun _ _ => .bind (.check_of hmem) fun _ _ => .pure ?_
  have hperm : (s.runQueue c).Perm (p :: if (s.runQueue c).getLast? = some p then
      (s.runQueue c).dropLast else (s.runQueue c).erase p) := by
    split
    · rename_i hlast
      have happend := List.dropLast_append_getLast? p hlast
      exact (happend ▸ List.perm_append_singleton p _ : (s.runQueue c).Perm _)
    · exact List.perm_cons_erase hmem
  exact ⟨Only.setTask s p _ _ s.current, _,
    h.retask _ (.inl rfl) ht halone rfl rfl (h.board.remove hplace hperm) (fun _ _ => id),
    update_self .., halone, update_self ..⟩

omit [DecidableEq C] in
/-- `Advance` fails only if the number does not grow. -/
theorem advance_spec (h : Inv cfg s place) (ht : s.heap p = some t) {seqnum : ℕ} :
    Ensures (fun _ => ¬ t.seqnum < seqnum) (advance s p seqnum) fun s' =>
      Only s s' p ∧ s'.heap p = some { t with seqnum := seqnum } ∧ Inv cfg s' place := by
  rw [advance, task_eq ht, ok_bind]
  refine .bind (.check_else id) fun _ _ => .pure ?_
  exact ⟨Only.setTask s p _ s.runQueue s.current, update_self .., h.adjust ht rfl rfl rfl⟩

omit [DecidableEq C] in
/-- A task that is aside is freed. -/
theorem Aside.free (h : Aside cfg s place p t) : Inv cfg (s.free p t.gtid) place := by
  have hself : (s.free p t.gtid).heap p = none := update_self ..
  have hne : ∀ {q}, q ≠ p → (s.free p t.gtid).heap q = s.heap q :=
    fun hq => update_of_ne hq ..
  have hback : ∀ {q u}, (s.free p t.gtid).heap q = some u → q ≠ p ∧ s.heap q = some u := by
    intro q u hu
    by_cases hq : q = p
    · subst hq
      rw [hself] at hu
      cases hu
    · exact ⟨hq, (hne hq).symm.trans hu⟩
  have hinv := h.inv
  refine ⟨hinv.board, ⟨?_, ?_, ?_⟩, hinv.mail, ?_, ?_, ?_, hinv.unique⟩
  · intro g q
    show update s.alloc t.gtid none g = some q ↔ _
    by_cases hg : g = t.gtid
    · subst hg
      rw [update_self]
      refine iff_of_false nofun ?_
      rintro ⟨u, hu, hug⟩
      -- the allocator has one task for a thread
      obtain ⟨hq, hu'⟩ := hback hu
      have halloc := (hinv.tasks.owned t.gtid q).mpr ⟨u, hu', hug⟩
      grind [hinv.tasks.owned, h.task]
    · grind [hinv.tasks.owned, h.task]
  · grind [h.out, hinv.tasks.dead]
  · intro q u c hu
    exact hinv.tasks.home q u c (hback hu).2
  · intro q u hu
    exact hinv.fresh q u (hback hu).2
  · intro q u _ hu
    exact hinv.free q u (fun heq => (hback hu).1 (Option.some.inj heq).symm) (hback hu).2
  · intro c
    refine (hinv.held c).frame (fun _ => id) fun q u hq hu => ?_
    have hqp : q ≠ p := fun heq => h.alone c (heq ▸ hq)
    exact ⟨u, (hne hqp).trans hu, rfl, rfl, rfl, rfl, rfl, le_refl _, fun _ hx => .inl hx⟩

end Moves

end PerCpuFifo
