import GhostSched.Cfs.Model

/-!
# What the scheduler knows about a thread

The kernel is ahead of the scheduler by the messages that have not been handled.
A `View` is what the scheduler knows, `Next` is what a message makes of it, and
`Agrees` says when nothing is left to be told. `Follows` puts them together: the
pending messages of a thread lead from what is known about it to what it does.

The messages of a thread can be on two channels. If it left ghost and entered it
again, the messages of the new task are on the default channel while those of the
old one may still be on the channel of its cpu. `Mail` has them as two lists.

* `Follows.append`, `Follows.silent`: steps of the kernel.
* `Follows.pick`, `Follows.unpick`, `Follows.leave`: what the scheduler does on
  its own.
* `Follows.caught_up`: a sequence number that is the barrier has nothing pending.
-/

namespace Cfs

open Kernel Function

variable {G C : Type*}

/-- What the scheduler knows about a thread. -/
inductive View (C : Type*) where
  /-- It has no task. -/
  | absent
  | blocked
  /-- It is runnable and not current. -/
  | waiting
  | current (cpu : C)
  /-- It left, but the task is still current. -/
  | done

def View.Known : View C → Prop
  | .blocked | .waiting | .current _ => True
  | .absent | .done => False

/-- What a thread may be doing if there is nothing to be told. -/
inductive View.Agrees : View C → Phase C → Prop where
  | absent : Agrees .absent .absent
  | done : Agrees .done .absent
  | blocked : Agrees .blocked .blocked
  /-- Nobody is told that a thread got its cpu by a switchto. -/
  | switched (c : C) : Agrees .blocked (.running c true)
  | waiting : Agrees .waiting .runnable
  | picked (c : C) : Agrees (.current c) .runnable
  | latched (c : C) : Agrees (.current c) (.latched c)
  | running (c : C) : Agrees (.current c) (.running c false)

/-- What a message makes of a view. -/
inductive View.Next : View C → Msg C Unit → View C → Prop where
  | new {v : View C} : ¬ v.Known → Next v (.new () false) .blocked
  | newRunnable {v : View C} : ¬ v.Known → Next v (.new () true) .waiting
  | onCpu (c : C) : Next (.current c) (.onCpu c) (.current c)
  | blocked (c : C) : Next (.current c) (.blocked c false) .blocked
  | blockedSwitched (c : C) : Next .blocked (.blocked c true) .blocked
  | wakeup : Next .blocked .wakeup .waiting
  | preempt (c : C) : Next (.current c) (.preempt c false) .waiting
  | preemptSwitched (c : C) : Next .blocked (.preempt c true) .waiting
  | yield (c : C) : Next (.current c) (.yield c false) .waiting
  | yieldSwitched (c : C) : Next .blocked (.yield c true) .waiting
  | switchto (c : C) : Next (.current c) (.switchto c) .blocked
  | affinityChanged {v : View C} : v.Known → Next v .affinityChanged v
  | prioChanged {v : View C} : v.Known → Next v .prioChanged v
  | dead : Next .blocked .dead .absent
  | departed (c : C) : Next (.current c) (.departed (some (c, false))) .done
  | departedSwitched (c : C) : Next .blocked (.departed (some (c, true))) .absent
  | leftBlocked : Next .blocked (.departed none) .absent
  | leftWaiting : Next .waiting (.departed none) .absent
  | leftCurrent (c : C) : Next (.current c) (.departed none) .done

/-- A message starts a new task. -/
def IsNew : Msg C Unit → Prop
  | .new _ _ => True
  | _ => False

/-- A message that is only sent about a task that has its cpu. -/
def NeedsCurrent : Msg C Unit → Prop
  | .onCpu _ | .blocked _ false | .preempt _ false | .yield _ false | .switchto _ => True
  | .departed (some (_, false)) => True
  | _ => False

/-- The pending messages lead from a view and a sequence number to a thread. -/
def Follows (k : Kernel.Task C) : View C → ℕ → List (ℕ × Msg C Unit) → Prop
  | v, n, [] => v.Agrees k.phase ∧ n ≤ k.barrier ∧ (v.Known → n = k.barrier)
  | v, n, (i, msg) :: rest => (v.Known → n < i) ∧ ∃ v', v.Next msg v' ∧ Follows k v' i rest

/-! ## Steps of the kernel -/

section Kernel

variable {k k' : Kernel.Task C} {v : View C} {n : ℕ} {msg : Msg C Unit}
  {pending : List (ℕ × Msg C Unit)}

/-- A thread sends a message. -/
theorem Follows.append (h : Follows k v n pending) (hnext : ∀ v : View C, v.Agrees k.phase →
      ∃ v', v.Next msg v' ∧ v'.Agrees k'.phase ∧ (v.Known → k.barrier < k'.barrier)) :
    Follows k' v n (pending ++ [(k'.barrier, msg)]) := by
  induction pending generalizing v n with
  | nil =>
    rcases h with ⟨hagrees, -, hseq⟩
    rcases hnext v hagrees with ⟨v', hv', hagrees', hlt⟩
    exact ⟨fun hknown => hseq hknown ▸ hlt hknown, v', hv', hagrees', le_refl _, fun _ => rfl⟩
  | cons x rest ih =>
    rcases h with ⟨hlt, v', hv', hrest⟩
    exact ⟨hlt, v', hv', ih hrest⟩

/-- Nothing is sent. -/
theorem Follows.silent (h : Follows k v n pending) (hb : k'.barrier = k.barrier)
    (hagrees : ∀ v : View C, v.Agrees k.phase → v.Agrees k'.phase) : Follows k' v n pending := by
  induction pending generalizing v n with
  | nil =>
    rcases h with ⟨hv, hle, hseq⟩
    exact ⟨hagrees v hv, hb ▸ hle, fun hknown => hb ▸ hseq hknown⟩
  | cons x rest ih =>
    rcases h with ⟨hlt, v', hv', hrest⟩
    exact ⟨hlt, v', hv', ih hrest⟩

/-- A thread in ghost is known as soon as there is nothing to be told. -/
theorem View.Agrees.known {phase : Phase C} (h : v.Agrees phase) (hp : phase ≠ .absent) :
    v.Known := by
  cases h with
  | absent | done => exact absurd rfl hp
  | _ => exact trivial

/-- Every message that a thread sends is one that the view allows for. -/
theorem View.Agrees.sends {t t' : Kernel.Task C} (h : v.Agrees t.phase) (hs : Sends t msg t') :
    ∃ v', v.Next msg v' ∧ v'.Agrees t'.phase ∧ (v.Known → t.barrier < t'.barrier) := by
  cases hs with
  | new info barrier runnable hp =>
    -- the first message of a stay: nothing was known
    rw [hp] at h
    have hnot : ¬ v.Known := by
      cases h with
      | absent | done => exact id
    cases runnable with
    | true => exact ⟨_, .newRunnable hnot, .waiting, fun hknown => absurd hknown hnot⟩
    | false => exact ⟨_, .new hnot, .blocked, fun hknown => absurd hknown hnot⟩
  | onCpu c hp =>
    rw [hp] at h
    cases h
    exact ⟨_, .onCpu c, .running c, fun _ => Nat.lt_succ_self _⟩
  | blocked c sw hp =>
    -- at the end of a switchto chain the agent has no current task
    rw [hp] at h
    cases h with
    | switched => exact ⟨_, .blockedSwitched c, .blocked, fun _ => Nat.lt_succ_self _⟩
    | running => exact ⟨_, .blocked c, .blocked, fun _ => Nat.lt_succ_self _⟩
  | wakeup hp =>
    rw [hp] at h
    cases h
    exact ⟨_, .wakeup, .waiting, fun _ => Nat.lt_succ_self _⟩
  | preempt c sw hp =>
    rw [hp] at h
    cases h with
    | switched => exact ⟨_, .preemptSwitched c, .waiting, fun _ => Nat.lt_succ_self _⟩
    | running => exact ⟨_, .preempt c, .waiting, fun _ => Nat.lt_succ_self _⟩
  | unlatch c hp =>
    -- the thread never got on its cpu
    rw [hp] at h
    cases h
    exact ⟨_, .preempt c, .waiting, fun _ => Nat.lt_succ_self _⟩
  | yield c sw hp =>
    rw [hp] at h
    cases h with
    | switched => exact ⟨_, .yieldSwitched c, .waiting, fun _ => Nat.lt_succ_self _⟩
    | running => exact ⟨_, .yield c, .waiting, fun _ => Nat.lt_succ_self _⟩
  | affinityChanged hp =>
    exact ⟨v, .affinityChanged (h.known hp), h, fun _ => Nat.lt_succ_self _⟩
  | prioChanged hp =>
    exact ⟨v, .prioChanged (h.known hp), h, fun _ => Nat.lt_succ_self _⟩
  | dead hp =>
    rw [hp] at h
    cases h
    exact ⟨_, .dead, .absent, fun _ => Nat.lt_succ_self _⟩
  | departed c sw hp =>
    -- a current task stays until its cpu is free
    rw [hp] at h
    cases h with
    | switched => exact ⟨_, .departedSwitched c, .absent, fun _ => Nat.lt_succ_self _⟩
    | running => exact ⟨_, .departed c, .done, fun _ => Nat.lt_succ_self _⟩
  | left hp =>
    rcases hp with hp | hp
    · -- a thread that waits, which the agent may have picked
      rw [hp] at h
      cases h with
      | waiting => exact ⟨_, .leftWaiting, .absent, fun _ => Nat.lt_succ_self _⟩
      | picked c => exact ⟨_, .leftCurrent c, .done, fun _ => Nat.lt_succ_self _⟩
    · rw [hp] at h
      cases h
      exact ⟨_, .leftBlocked, .absent, fun _ => Nat.lt_succ_self _⟩

/-- A thread has a cpu, and not by a switchto. -/
def HasCpu (k : Kernel.Task C) (c : C) : Prop :=
  k.phase = .latched c ∨ k.phase = .running c false

/-- A thread that has a cpu is current there as far as the scheduler knows, and it did not
leave ghost meanwhile. -/
theorem Follows.hasCpu {c : C} (h : Follows k v n pending) (hp : HasCpu k c) :
    v = .current c ∧ ∀ x ∈ pending, ¬ IsNew x.2 := by
  induction pending generalizing v n with
  | nil =>
    refine ⟨?_, nofun⟩
    rcases hp with hp | hp
    · cases hp ▸ h.1
      rfl
    · cases hp ▸ h.1
      rfl
  | cons x rest ih =>
    rcases x with ⟨i, msg⟩
    rcases h with ⟨-, v', hv', hrest⟩
    grind [IsNew, cases Cfs.View.Next]

/-- A thread changes, and there is nothing to be told about it. -/
structure Silent (k k' : Kernel.Task C) : Prop where
  barrier : k'.barrier = k.barrier
  agrees : ∀ v : View C, v.Agrees k.phase → v.Agrees k'.phase
  hasCpu : ∀ c, HasCpu k' c → HasCpu k c

theorem Silent.refl (k : Kernel.Task C) : Silent k k := ⟨rfl, fun _ => id, fun _ => id⟩

/-- A thread changes, and the message tells. -/
structure Tells (k : Kernel.Task C) (msg : Msg C Unit) (k' : Kernel.Task C) : Prop where
  next : ∀ v : View C, v.Agrees k.phase →
    ∃ v', v.Next msg v' ∧ v'.Agrees k'.phase ∧ (v.Known → k.barrier < k'.barrier)
  hasCpu : ∀ c, HasCpu k' c → HasCpu k c
  needs : NeedsCurrent msg → ∃ c, HasCpu k c

theorem Sends.tells (h : Sends k msg k') : Tells k msg k' where
  next _ hv := hv.sends h
  hasCpu c hc := by
    grind [Cfs.HasCpu, cases Kernel.Sends]
  needs hneeds := by
    cases h with
    | onCpu c hp | unlatch c hp => exact ⟨c, .inl hp⟩
    | blocked c sw hp =>
      cases sw with
      | true => exact hneeds.elim
      | false => exact ⟨c, .inr hp⟩
    | preempt c sw hp =>
      cases sw with
      | true => exact hneeds.elim
      | false => exact ⟨c, .inr hp⟩
    | yield c sw hp =>
      cases sw with
      | true => exact hneeds.elim
      | false => exact ⟨c, .inr hp⟩
    | departed c sw hp =>
      cases sw with
      | true => exact hneeds.elim
      | false => exact ⟨c, .inr hp⟩
    | _ => exact hneeds.elim

end Kernel

theorem takeCpu_silent [DecidableEq C] (k : G → Kernel.Task C) (c : C) (g : G) :
    Silent (k g) (takeCpu k c g) := by
  unfold takeCpu
  split
  · rename_i hp
    refine ⟨rfl, fun v hv => ?_, fun c' hc => ?_⟩
    · rw [hp] at hv
      cases hv
      exact .picked c
    · rcases hc with hc | hc <;> cases hc
  · exact .refl _

theorem takeCpu_free [DecidableEq C] {k : G → Kernel.Task C} {c : C} {g : G}
    (h : (k g).phase ≠ .latched c) :
    ¬ HasCpu (takeCpu k c g) c := by
  unfold takeCpu
  split
  · rintro (hc | hc) <;> cases hc
  · rename_i hp
    rintro (hc | hc)
    · exact h hc
    · exact hp hc

section Switch

variable [DecidableEq G] {k k' : G → Kernel.Task C} {g target : G} {c : C}

/-- The threads that a switchto does not stop. -/
theorem silent_switch (hothers : ∀ g' ≠ g, k' g' = k g') (hne : target ≠ g)
    (ht : (k target).phase = .blocked) {g' : G} (hg : g' ≠ g) :
    Silent (k g') (switch k' g target c g') := by
  by_cases htarget : g' = target
  · subst htarget
    rw [switch_target, hothers g' hg]
    refine ⟨rfl, fun v hv => ?_, fun c' hc => ?_⟩
    · rw [ht] at hv
      cases hv
      exact .switched c
    · rcases hc with hc | hc <;> cases hc
  · rw [switch_of_ne hg htarget, hothers g' hg]
    exact .refl _

/-- What an event does to the threads: at most one has something to tell. -/
theorem step_tells {msg : Option (Msg C Unit)} (h : Kernel.Step false k g k' msg) :
    (∀ g' ≠ g, Silent (k g') (k' g')) ∧ (msg = none → Silent (k g) (k' g)) ∧
      ∀ m, msg = some m → Tells (k g) m (k' g) := by
  have hone : ∀ t : Kernel.Task C, ∀ g' ≠ g, Silent (k g') (update k g t g') := by
    intro t g' hg
    rw [update_of_ne hg]
    exact .refl _
  cases h with
  | sends m t hs =>
    grind [Sends.tells]
  | getOnCpu c _ hp =>
    refine ⟨hone _, fun _ => ?_, nofun⟩
    rw [update_self]
    refine ⟨rfl, fun v hv => ?_, fun c' hc => ?_⟩
    · rw [hp] at hv
      cases hv
      exact .running c
    · grind [HasCpu]
  | start target c hp hne ht =>
    refine ⟨fun g' hg => silent_switch (fun g' hg => update_of_ne hg ..) hne ht hg, nofun,
      fun m hm => ?_⟩
    cases hm
    rw [switch_self hne, update_self]
    refine ⟨fun v hv => ?_, fun c' hc => ?_, fun _ => ⟨c, .inr hp⟩⟩
    · rw [hp] at hv
      cases hv
      exact ⟨_, .switchto c, .blocked, fun _ => Nat.lt_succ_self _⟩
    · rcases hc with hc | hc <;> cases hc
  | next target c hp hne ht =>
    refine ⟨fun g' hg => silent_switch (fun _ _ => rfl) hne ht hg, fun _ => ?_, nofun⟩
    rw [switch_self hne]
    refine ⟨rfl, fun v hv => ?_, fun c' hc => ?_⟩
    · rw [hp] at hv
      cases hv
      exact .blocked
    · rcases hc with hc | hc <;> cases hc
  | leaveCpu hp =>
    refine ⟨hone _, fun _ => ?_, nofun⟩
    rw [update_self]
    exact ⟨rfl, fun _ => id, fun _ => id⟩

end Switch

/-! ## Steps of the scheduler -/

section Scheduler

variable {k : Kernel.Task C} {v : View C} {n : ℕ} {c : C} {pending old new : List (ℕ × Msg C Unit)}

/-- A thread that is not known can only come back. -/
theorem View.Next.isNew {v' : View C} {msg : Msg C Unit} (h : v.Next msg v') (hv : ¬ v.Known) :
    IsNew msg ∧ ∀ w : View C, ¬ w.Known → w.Next msg v' := by
  cases h with
  | new => exact ⟨trivial, fun w hw => .new hw⟩
  | newRunnable => exact ⟨trivial, fun w hw => .newRunnable hw⟩
  | affinityChanged hknown | prioChanged hknown => exact absurd hknown hv
  | _ => exact absurd trivial hv

/-- A thread that left is the same whether its task has been freed or not. -/
theorem Follows.leave {w : View C} {n' : ℕ} (h : Follows k v n pending) (hv : ¬ v.Known)
    (hw : ¬ w.Known) (hn : n' ≤ n) : Follows k w n' pending := by
  cases pending with
  | nil =>
    rcases h with ⟨hagrees, hle, -⟩
    have hp : k.phase = .absent := by
      by_contra hp
      exact hv (hagrees.known hp)
    refine ⟨?_, hn.trans hle, fun hknown => absurd hknown hw⟩
    rw [hp]
    cases w with
    | absent => exact .absent
    | done => exact .done
    | _ => exact absurd trivial hw
  | cons x rest =>
    rcases h with ⟨-, v', hv', hrest⟩
    exact ⟨fun hknown => absurd hknown hw, v', (hv'.isNew hv).2 w hw, hrest⟩

/-- The sequence number matters for a known thread only. -/
theorem Follows.seqnum {n' : ℕ} (h : Follows k v n pending) (hle : n' ≤ n) (hn : v.Known → n' = n) :
    Follows k v n' pending := by
  by_cases hv : v.Known
  · exact hn hv ▸ h
  · exact h.leave hv hv hle

/-- A task that waits is picked. -/
theorem Follows.pick (h : Follows k .waiting n pending) : Follows k (.current c) n pending := by
  induction pending generalizing n with
  | nil =>
    rcases h with ⟨hagrees, hle, hseq⟩
    refine ⟨?_, hle, fun _ => hseq trivial⟩
    generalize k.phase = phase at hagrees
    cases hagrees
    exact .picked c
  | cons x rest ih =>
    rcases x with ⟨i, msg⟩
    rcases h with ⟨hlt, v', hv', hrest⟩
    refine ⟨fun _ => hlt trivial, ?_⟩
    cases hv' with
    | new hnot | newRunnable hnot => exact absurd trivial hnot
    | affinityChanged => exact ⟨_, .affinityChanged trivial, ih hrest⟩
    | prioChanged => exact ⟨_, .prioChanged trivial, ih hrest⟩
    | leftWaiting => exact ⟨_, .leftCurrent c, hrest.leave id id (le_refl _)⟩

/-- The current task is put back. Nothing is pending that tells how it got off its cpu. -/
theorem Follows.unpick (h : Follows k (.current c) n (old ++ new))
    (hold : ∀ x ∈ old, ¬ NeedsCurrent x.2) (hnew : ∀ x ∈ new.head?, IsNew x.2)
    (hcpu : ¬ HasCpu k c) : Follows k .waiting n (old ++ new) := by
  rcases not_or.mp hcpu with ⟨hlatched, hrunning⟩
  induction old generalizing n with
  | nil =>
    cases new with
    | nil =>
      rcases h with ⟨hagrees, hle, hseq⟩
      refine ⟨?_, hle, fun _ => hseq trivial⟩
      generalize k.phase = phase at hagrees hlatched hrunning
      cases hagrees with
      | picked => exact .waiting
      | latched => exact absurd rfl hlatched
      | running => exact absurd rfl hrunning
    | cons x rest =>
      rcases x with ⟨i, msg⟩
      rcases h with ⟨-, v', hv', -⟩
      have hmsg : IsNew msg := hnew _ rfl
      cases hv' with
      | new hnot | newRunnable hnot => exact absurd trivial hnot
      | _ => exact hmsg.elim
  | cons x rest ih =>
    rcases x with ⟨i, msg⟩
    rcases h with ⟨hlt, v', hv', hrest⟩
    have hmsg : ¬ NeedsCurrent msg := hold _ List.mem_cons_self
    have hold' : ∀ x ∈ rest, ¬ NeedsCurrent x.2 := fun x hx => hold x (List.mem_cons_of_mem _ hx)
    refine ⟨fun _ => hlt trivial, ?_⟩
    cases hv' with
    | new hnot | newRunnable hnot => exact absurd trivial hnot
    | affinityChanged => exact ⟨_, .affinityChanged trivial, ih hrest hold'⟩
    | prioChanged => exact ⟨_, .prioChanged trivial, ih hrest hold'⟩
    | leftCurrent => exact ⟨_, .leftWaiting, hrest.leave id id (le_refl _)⟩
    | _ => exact absurd trivial hmsg

/-- The sequence number of a message is not behind the ones before it. -/
theorem Follows.le_barrier (h : Follows k v n pending) (hnew : ∀ x ∈ pending, ¬ IsNew x.2) :
    n ≤ k.barrier := by
  induction pending generalizing v n with
  | nil => exact h.2.1
  | cons x rest ih =>
    rcases x with ⟨i, msg⟩
    rcases h with ⟨hlt, v', hv', hrest⟩
    grind [hv'.isNew, List.mem_cons_self]

/-- If the sequence number is the barrier, everything has been handled. -/
theorem Follows.caught_up (h : Follows k v n pending) (hv : v.Known)
    (hnew : ∀ x ∈ pending, ¬ IsNew x.2) (hb : n = k.barrier) : pending = [] := by
  cases pending with
  | nil => rfl
  | cons x rest =>
    rcases x with ⟨i, msg⟩
    rcases h with ⟨hlt, v', -, hrest⟩
    have hle : i ≤ k.barrier := hrest.le_barrier fun x hx => hnew x (List.mem_cons_of_mem _ hx)
    have hlt : n < i := hlt hv
    omega

end Scheduler

/-! ## The channels -/

/-- What the state of a task says about its thread. -/
def CfsTask.view (t : CfsTask G C) : View C :=
  match t.state with
  | .blocked => .blocked
  | .runnable => .waiting
  | .running => .current t.cpu
  | .done => .done

def viewOf : Option (CfsTask G C) → View C
  | none => .absent
  | some t => t.view

def seqnumOf : Option (CfsTask G C) → ℕ
  | none => 0
  | some t => t.seqnum

/-- The cpu whose channel has the messages of a task. -/
def homeOf (cfg : Config C) : Option (CfsTask G C) → C
  | none => cfg.defaultCpu
  | some t => t.cpu

section Mail

variable [DecidableEq C]

/-- The messages of a thread: `old` are for the task that the scheduler has, `new` are for the
tasks after it. -/
structure Mail (cfg : Config C) (known : Option (CfsTask G C)) (k : Kernel.Task C) (channel : C)
    (queue : C → List (ℕ × Msg C Unit)) (old new : List (ℕ × Msg C Unit)) : Prop where
  queue_eq : ∀ c, queue c =
    (if c = homeOf cfg known then old else []) ++ if c = cfg.defaultCpu then new else []
  old_mem : ∀ x ∈ old, ¬ IsNew x.2
  new_head : ∀ x ∈ new.head?, IsNew x.2
  unknown : known = none → old = []
  channel_old : new = [] → ∀ t ∈ known, channel = t.cpu
  channel_new : new ≠ [] → channel = cfg.defaultCpu
  follows : Follows k (viewOf known) (seqnumOf known) (old ++ new)

variable {cfg : Config C} {known : Option (CfsTask G C)} {t t' : CfsTask G C}
  {k k' : Kernel.Task C} {channel c : C} {queue : C → List (ℕ × Msg C Unit)}
  {old new rest : List (ℕ × Msg C Unit)} {x : ℕ × Msg C Unit}

/-- A message of the task that the scheduler has. -/
theorem Mail.send_old (h : Mail cfg (some t) k channel queue old []) (hx : ¬ IsNew x.2)
    (hf : Follows k' t.view t.seqnum (old ++ [x])) :
    Mail cfg (some t) k' channel (update queue channel (queue channel ++ [x])) (old ++ [x]) [] := by
  have hch : channel = t.cpu := h.channel_old rfl t rfl
  subst hch
  refine ⟨fun c => ?_, fun y hy => ?_, h.new_head, nofun, h.channel_old, h.channel_new, ?_⟩
  · by_cases hc : c = t.cpu
    · subst hc
      rw [update_self, h.queue_eq]
      simp [homeOf]
    · rw [update_of_ne hc, h.queue_eq]
      simp [homeOf, hc]
  · grind [h.old_mem]
  · rw [List.append_nil]
    exact hf

/-- A message that is, or comes after, the first of a new task. -/
theorem Mail.send_new (h : Mail cfg known k channel queue old new) (hx : new ≠ [] ∨ IsNew x.2)
    (hf : Follows k' (viewOf known) (seqnumOf known) (old ++ (new ++ [x]))) :
    Mail cfg known k' cfg.defaultCpu
      (update queue cfg.defaultCpu (queue cfg.defaultCpu ++ [x])) old (new ++ [x]) := by
  refine ⟨fun c => ?_, h.old_mem, fun y hy => ?_, h.unknown, fun hnil => ?_, fun _ => rfl, hf⟩
  · grind [h.queue_eq]
  · cases new with
    | nil =>
      cases hy
      exact hx.resolve_left fun hne => hne rfl
    | cons z zs => exact h.new_head y hy
  · exact absurd hnil (by simp)

theorem Mail.silent (h : Mail cfg known k channel queue old new)
    (hf : Follows k' (viewOf known) (seqnumOf known) (old ++ new)) :
    Mail cfg known k' channel queue old new :=
  ⟨h.queue_eq, h.old_mem, h.new_head, h.unknown, h.channel_old, h.channel_new, hf⟩

section

variable (h : Mail cfg (some t) k channel queue old new)
include h

/-- The task changes, but not its cpu. -/
theorem Mail.retask (hcpu : t'.cpu = t.cpu) (hf : Follows k t'.view t'.seqnum (old ++ new)) :
    Mail cfg (some t') k channel queue old new := by
  refine ⟨fun c => ?_, h.old_mem, h.new_head, nofun, fun hnil u hu => ?_, h.channel_new, hf⟩
  · rw [h.queue_eq, homeOf, homeOf, hcpu]
  · cases hu
    rw [hcpu]
    exact h.channel_old hnil t rfl

/-- The task is freed. -/
theorem Mail.free (hv : ¬ t.view.Known) :
    Mail cfg (none : Option (CfsTask G C)) k channel queue [] new := by
  have hold : old = [] := by
    cases old with
    | nil => rfl
    | cons x rest =>
      rcases h.follows with ⟨-, v', hv', -⟩
      exact absurd (hv'.isNew hv).1 (h.old_mem x List.mem_cons_self)
  subst hold
  refine ⟨fun c => ?_, nofun, h.new_head, fun _ => rfl, nofun, h.channel_new, ?_⟩
  · rw [h.queue_eq]
    simp
  · exact h.follows.leave hv id (Nat.zero_le _)

/-- A task that has been associated with another channel goes there. Its sequence number was
the barrier, so nothing is pending. -/
theorem Mail.associate (hno : ∀ x ∈ queue cfg.defaultCpu, ¬ IsNew x.2) (hv : t.view.Known)
    (hseq : k.barrier = t.seqnum) (hview : t'.view = t.view) (hseq' : t'.seqnum = t.seqnum) :
    Mail cfg (some t') k t'.cpu queue [] [] := by
  have hnew : new = [] := by
    cases new with
    | nil => rfl
    | cons x rest =>
      grind [h.new_head, h.queue_eq]
  subst hnew
  have hold : old = [] := by
    have hnil := h.follows.caught_up hv (by simpa using h.old_mem) hseq.symm
    simpa using hnil
  subst hold
  have hf : Follows k t'.view t'.seqnum [] := by
    rw [hview, hseq']
    exact h.follows
  refine ⟨fun c => ?_, nofun, nofun, nofun, fun _ u hu => ?_, fun hne => absurd rfl hne, hf⟩
  · rw [h.queue_eq]
    simp
  · cases hu
    rfl

/-- The first message of a channel is for the task that the scheduler has. -/
theorem Mail.first_old (hq : queue c = x :: rest) (hx : ¬ IsNew x.2) :
    t.cpu = c ∧ ∃ old', old = x :: old' ∧
      ∀ t' : CfsTask G C, t'.cpu = t.cpu → Follows k t'.view t'.seqnum (old' ++ new) →
        Mail cfg (some t') k channel (update queue c rest) old' new := by
  have hnew : ∀ ys, new ≠ x :: ys := by
    rintro ys rfl
    exact hx (h.new_head x rfl)
  have hqueue := h.queue_eq c
  rw [hq] at hqueue
  have hcpu : t.cpu = c := by
    by_contra hne
    have hc : c ≠ homeOf cfg (some t) := fun heq => hne heq.symm
    rw [if_neg hc] at hqueue
    split at hqueue
    · exact hnew rest hqueue.symm
    · cases hqueue
  subst hcpu
  rw [homeOf, if_pos rfl] at hqueue
  cases old with
  | nil =>
    split at hqueue
    · exact absurd hqueue.symm (hnew rest)
    · cases hqueue
  | cons y old' =>
    rw [List.cons_append] at hqueue
    cases hqueue
    refine ⟨rfl, old', rfl, fun t' hcpu hf => ?_⟩
    refine ⟨fun c => ?_, fun z hz => h.old_mem z (List.mem_cons_of_mem _ hz), h.new_head, nofun,
      fun hnil u hu => ?_, h.channel_new, hf⟩
    · by_cases hc : c = t.cpu
      · subst hc
        rw [update_self, homeOf, hcpu, if_pos rfl]
      · rw [update_of_ne hc, h.queue_eq, homeOf, homeOf, hcpu, if_neg hc, if_neg hc]
    · cases hu
      rw [hcpu]
      exact h.channel_old hnil t rfl

end

omit [DecidableEq C] in
/-- Messages up to the first of a new task. -/
theorem exists_split (xs : List (ℕ × Msg C Unit)) : ∃ old new, xs = old ++ new ∧
    (∀ x ∈ old, ¬ IsNew x.2) ∧ ∀ x ∈ new.head?, IsNew x.2 := by
  induction xs with
  | nil => exact ⟨[], [], rfl, nofun, nofun⟩
  | cons x xs ih =>
    by_cases hx : IsNew x.2
    · refine ⟨[], x :: xs, rfl, nofun, fun y hy => ?_⟩
      cases hy
      exact hx
    · rcases ih with ⟨old, new, rfl, hold, hnew⟩
      refine ⟨x :: old, new, rfl, fun y hy => ?_, hnew⟩
      rcases List.mem_cons.mp hy with rfl | hy
      · exact hx
      · exact hold y hy

/-- The first message of a channel is for a thread without a task. -/
theorem Mail.first_new (h : Mail cfg (none : Option (CfsTask G C)) k channel queue old new)
    (hq : queue c = x :: rest) :
    c = cfg.defaultCpu ∧ new = x :: rest ∧
      ∀ t' : CfsTask G C, t'.cpu = c → Follows k t'.view t'.seqnum rest →
        ∃ old' new', Mail cfg (some t') k channel (update queue c rest) old' new' := by
  have hold : old = [] := h.unknown rfl
  subst hold
  have hqueue := h.queue_eq c
  rw [hq] at hqueue
  have hc : c = cfg.defaultCpu := by
    by_contra hne
    rw [if_neg hne] at hqueue
    simp at hqueue
  subst hc
  have hnew : x :: rest = new := by simpa using hqueue
  subst hnew
  refine ⟨rfl, rfl, fun t' hcpu hf => ?_⟩
  rcases exists_split rest with ⟨old', new', rfl, hold', hnew'⟩
  have hch : channel = cfg.defaultCpu := h.channel_new (by simp)
  refine ⟨old', new', fun c => ?_, hold', hnew', nofun, fun _ u hu => ?_, fun _ => hch, hf⟩
  · by_cases hc : c = cfg.defaultCpu
    · subst hc
      rw [update_self, homeOf, hcpu, if_pos rfl, if_pos rfl]
    · rw [update_of_ne hc, h.queue_eq]
      simp [homeOf, hcpu, hc]
  · cases hu
    rw [hch, hcpu]

end Mail

/-! ## One queue of messages -/

section About

variable [DecidableEq G]

/-- The messages about one thread. -/
def about (g : G) (queue : List (Message G C)) : List (ℕ × Msg C Unit) :=
  queue.filterMap fun
    | .cpuTick => none
    | .task g' i msg => if g' = g then some (i, msg) else none

variable {g g' : G} {i : ℕ} {msg : Msg C Unit} {queue rest : List (Message G C)}

theorem about_self : about g (.task g i msg :: rest) = (i, msg) :: about g rest := by
  simp [about]

theorem about_of_ne (hne : g' ≠ g) : about g (.task g' i msg :: rest) = about g rest := by
  simp [about, hne]

theorem about_tick : about g (.cpuTick :: rest) = about g rest := by
  simp [about]

theorem about_append {queue' : List (Message G C)} :
    about g (queue ++ queue') = about g queue ++ about g queue' :=
  List.filterMap_append ..

theorem about_append_self [DecidableEq C] {queue : C → List (Message G C)} {ch : C} :
    (fun c => about g (update queue ch (queue ch ++ [.task g i msg]) c)) =
      update (fun c => about g (queue c)) ch (about g (queue ch) ++ [(i, msg)]) := by
  funext c
  rw [update_apply]
  split_ifs with hc
  · subst hc
    rw [update_self, about_append, about_self]
    rfl
  · rw [update_of_ne hc]

theorem about_append_of_ne [DecidableEq C] {queue : C → List (Message G C)} {ch c : C}
    (hne : g' ≠ g) :
    about g (update queue ch (queue ch ++ [.task g' i msg]) c) = about g (queue c) := by
  by_cases hc : c = ch
  · subst hc
    rw [update_self, about_append, about_of_ne hne]
    exact List.append_nil _
  · rw [update_of_ne hc]

theorem about_update [DecidableEq C] {queue : C → List (Message G C)} {c : C}
    {rest : List (Message G C)} :
    (fun c' => about g (update queue c rest c')) =
      update (fun c' => about g (queue c')) c (about g rest) := by
  funext c'
  rw [update_apply]
  split_ifs with hc
  · subst hc
    rw [update_self]
  · rw [update_of_ne hc]

theorem mem_about : (i, msg) ∈ about g queue ↔ .task g i msg ∈ queue := by
  induction queue with
  | nil => simp [about]
  | cons m rest ih =>
    cases m with
    | cpuTick => simp [about_tick, ih]
    | task g' j msg' =>
      by_cases hg : g' = g
      · subst hg
        simp [about_self, ih]
      · simp [about_of_ne hg, ih, Ne.symm hg]

end About

end Cfs
