import Mathlib.Algebra.Order.Ring.Int
import Mathlib.Logic.Function.Basic
import GhostSched.Lib.Transition

/-!
# Threads of biff

The path of a thread through flux and biff: the message handlers of
`flux_api.bpf.c` with biff's thread operations (`biff_flux.bpf.c`), and the part
of `flux_pnt` that picks a thread and tries to latch it.

* A message handler is a list of accesses (`MicroOp`), in the order in which the
  source makes them. It runs under the task lock of its thread, so there is at
  most one for each gtid.
* A cpu in PNT holds biff's lock while it takes a thread off the runqueue, and
  holds no task lock until `bpf_ghost_run_gtid` succeeds.
* The kernel decides which messages can come. `Task` is what it knows of a
  thread; every message moves the thread's barrier on.

Accesses of different parties interleave freely. Sections under biff's lock
that touch only what that lock protects are one step.
-/

namespace Flux

open Function

/-! ## Flux's view of a thread -/

/-- The scheduler ids of `flux_bpf.h`. -/
inductive SchedId where
  | none
  | roci
  | biff
  | idle
deriving DecidableEq

/-- `struct flux_thread`, with biff's part of it. -/
structure Thread (G : Type*) where
  gtid : G
  seqnum : ℕ
  refcnt : ℤ
  sched : SchedId
  onRq : Bool
  onCpu : Bool
  pendingLatch : Bool
  enqueued : Bool

/-! ## Message handlers -/

/-- One access of a message handler. -/
inductive MicroOp (T : Type*) where
  /-- `handle_new`: add the gtid to `sw_lookup`, unless it is there, and
  initialise the thread, which nobody else knows yet -/
  | insert (idx : T) (runnable : Bool)
  /-- `gtid_to_thread` -/
  | lookup
  /-- `biff_thread_new` -/
  | initBiff
  /-- `__biff_enqueue_task` -/
  | enqueue
  /-- `__biff_dequeue_task` -/
  | dequeue
  /-- `flux_request_cpus` -/
  | request (nrCpus : ℤ)
  /-- `flux_request_cpus` if `on_rq` is set -/
  | requestIfOnRq (nrCpus : ℤ)
  | storeSeqnum
  | setOnRq (b : Bool)
  | setOnCpu (b : Bool)
  /-- `handle_latch_failure` looks whether it has the ball -/
  | takeBall
  | clearPending
  | setSchedNone
  /-- `flux_thread_decref`, which deletes the entry at zero -/
  | decref
  | deleteEntry
deriving DecidableEq

/-- The messages about a thread. -/
inductive Msg (T : Type*) where
  | new (idx : T) (runnable : Bool)
  | onCpu
  | blocked
  | wakeup
  | preempt (fromSwitchto : Bool)
  | yield (fromSwitchto : Bool)
  | switchto
  | affinityChanged
  | prioChanged
  | latchFailure
  | dead
  | departed
deriving DecidableEq

/-- What the handler of a message does. Operations of a scheduler are skipped
when the thread has none. -/
def Msg.handler {T : Type*} : Msg T → List (MicroOp T)
  | .new idx runnable =>
    [.insert idx runnable, .initBiff, .requestIfOnRq 1, .storeSeqnum] ++
      if runnable then [.enqueue, .storeSeqnum] else []
  | .onCpu => [.lookup, .storeSeqnum, .setOnCpu true]
  | .blocked => [.lookup, .request (-1), .storeSeqnum, .setOnRq false, .setOnCpu false]
  | .wakeup => [.lookup, .enqueue, .request 1, .storeSeqnum, .setOnRq true]
  | .preempt fromSwitchto | .yield fromSwitchto =>
    [.lookup, .enqueue, .storeSeqnum] ++
      (if fromSwitchto then [.setOnRq true] else []) ++ [.setOnCpu false]
  | .switchto => [.lookup, .storeSeqnum, .setOnRq false, .setOnCpu false]
  | .affinityChanged | .prioChanged => [.lookup, .storeSeqnum]
  | .latchFailure => [.lookup, .takeBall]
  | .dead => [.lookup, .storeSeqnum, .setSchedNone, .decref]
  | .departed =>
    [.lookup, .dequeue, .requestIfOnRq (-1), .storeSeqnum, .setSchedNone, .decref]

/-- A message handler in progress. -/
structure Handler (T K : Type*) where
  msg : Msg T
  seqnum : ℕ
  /-- the thread it has looked up -/
  thread : Option T := none
  todo : List (MicroOp T)
  /-- the cpu whose failed latch called it -/
  caller : Option K := none

/-! ## PNT -/

/-- Where a cpu is in `biff_pick_next_task`, with the thread and the
`latched_seqnum` it has. -/
inductive PntPc (T : Type*) where
  | idle
  /-- off the runqueue, biff's lock held until `run` -/
  | readSeqnum (t : T)
  | setPending (t : T) (n : ℕ)
  | incref (t : T) (n : ℕ)
  | unlock (t : T) (n : ℕ)
  /-- `bpf_ghost_run_gtid` comes next -/
  | run (t : T) (n : ℕ)
  /-- the latch succeeded, the task lock is held until `idle` -/
  | clearPending (t : T)
  | wonDecref (t : T)
  | wonDelete (t : T)
  | wonReturn (t : T)
  /-- the latch failed; the handler of the failure runs first -/
  | failed (t : T)
  | failedDecref (t : T)
  | failedDelete (t : T)
deriving DecidableEq

/-! ## The kernel's view -/

/-- The states of a thread in the kernel. -/
inductive Phase where
  /-- not in ghost -/
  | absent
  | blocked
  | runnable
  | latched
  | running
deriving DecidableEq

/-- What the kernel knows of a thread. -/
structure Task where
  phase : Phase
  /-- runs because another thread switched to it -/
  inSwitchto : Bool
  /-- still on a cpu, also when it is about to leave it -/
  onCpu : Bool
  barrier : ℕ

/-- Threads by gtid `G`, thread structs by status word index `T`, cpus `K`. -/
structure State (G T K : Type*) where
  rq : List T
  /-- the cpu in PNT that holds biff's lock -/
  biffLock : Option K
  nrCpusWanted : ℤ
  threads : T → Thread G
  swLookup : G → Option T
  pnt : K → PntPc T
  handlers : G → Option (Handler T K)
  /-- the cpu that holds the task lock after a latch -/
  latchedBy : G → Option K
  tasks : G → Task

variable {G T K : Type*} [DecidableEq G] [DecidableEq T] [DecidableEq K]

namespace State

variable (s : State G T K)

def setThread (t : T) (f : Thread G → Thread G) : State G T K :=
  { s with threads := update s.threads t (f (s.threads t)) }

def setHandler (g : G) (h : Option (Handler T K)) : State G T K :=
  { s with handlers := update s.handlers g h }

def setPnt (c : K) (pc : PntPc T) : State G T K :=
  { s with pnt := update s.pnt c pc }

def setTask (g : G) (f : Task → Task) : State G T K :=
  { s with tasks := update s.tasks g (f (s.tasks g)) }

def setLatchedBy (g : G) (c : Option K) : State G T K :=
  { s with latchedBy := update s.latchedBy g c }

/-- `bpf_map_delete_elem` on `sw_lookup` -/
def deleteEntry (g : G) : State G T K :=
  { s with swLookup := update s.swLookup g none }

/-- Nobody holds the task lock of the thread. -/
def TaskLockFree (g : G) : Prop := s.handlers g = none ∧ s.latchedBy g = none

instance (g : G) : Decidable (s.TaskLockFree g) :=
  decidable_of_iff ((s.handlers g).isNone = true ∧ (s.latchedBy g).isNone = true)
    (by simp [TaskLockFree, Option.isNone_iff_eq_none])

/-- The kernel sends a message: it moves the barrier on and calls the handler
under the task lock. -/
def send (g : G) (msg : Msg T) (caller : Option K) : State G T K :=
  (s.setTask g fun k => { k with barrier := k.barrier + 1 }).setHandler g
    (some { msg, seqnum := (s.tasks g).barrier + 1, todo := msg.handler, caller })

end State

/-! ## Steps of a handler -/

/-- The handler goes on with `todo`. -/
def State.resume (s : State G T K) (g : G) (h : Handler T K) (todo : List (MicroOp T)) :
    State G T K :=
  s.setHandler g (some { h with todo })

/-- One access to the thread that the handler has looked up. -/
def threadOp (s : State G T K) (g : G) (h : Handler T K) (t : T) (rest : List (MicroOp T)) :
    MicroOp T → Option (State G T K)
  | .insert _ _ | .lookup => none
  | .initBiff =>
    some (((s.setThread t fun x =>
      if x.sched = .biff then { x with enqueued := false } else x)).resume g h rest)
  | .enqueue =>
    if (s.threads t).sched = .biff then
      if s.biffLock = none then
        some (({ s with rq := s.rq ++ [t] }.setThread t
          fun x => { x with enqueued := true }).resume g h rest)
      else none
    else some (s.resume g h rest)
  | .dequeue =>
    if (s.threads t).sched = .biff then
      if s.biffLock = none then
        if (s.threads t).enqueued then
          some (({ s with rq := s.rq.erase t }.setThread t
            fun x => { x with enqueued := false }).resume g h rest)
        else some (s.resume g h rest)
      else none
    else some (s.resume g h rest)
  | .request n =>
    if (s.threads t).sched = .biff then
      some ({ s with nrCpusWanted := s.nrCpusWanted + n }.resume g h rest)
    else some (s.resume g h rest)
  | .requestIfOnRq n =>
    if (s.threads t).sched = .biff ∧ (s.threads t).onRq then
      some ({ s with nrCpusWanted := s.nrCpusWanted + n }.resume g h rest)
    else some (s.resume g h rest)
  | .storeSeqnum => some ((s.setThread t fun x => { x with seqnum := h.seqnum }).resume g h rest)
  | .setOnRq b => some ((s.setThread t fun x => { x with onRq := b }).resume g h rest)
  | .setOnCpu b => some ((s.setThread t fun x => { x with onCpu := b }).resume g h rest)
  | .takeBall =>
    if (s.threads t).pendingLatch then
      some (s.resume g h [.clearPending, .enqueue, .storeSeqnum])
    else some (s.resume g h [.storeSeqnum])
  | .clearPending =>
    some ((s.setThread t fun x => { x with pendingLatch := false }).resume g h rest)
  | .setSchedNone => some ((s.setThread t fun x => { x with sched := .none }).resume g h rest)
  | .decref =>
    some ((s.setThread t fun x => { x with refcnt := x.refcnt - 1 }).resume g h
      (if (s.threads t).refcnt - 1 = 0 then .deleteEntry :: rest else rest))
  | .deleteEntry => some ((s.deleteEntry (s.threads t).gtid).resume g h rest)

/-- The next access of a handler, or its return. -/
def handlerStep (s : State G T K) (g : G) : Option (State G T K) :=
  match s.handlers g with
  | none => none
  | some h =>
    match h.todo with
    | [] => some (s.setHandler g none)
    | .insert idx runnable :: rest =>
      match s.swLookup g with
      | some _ => some (s.resume g h [])
      | none =>
        some (({ s with swLookup := update s.swLookup g (some idx) }.setThread idx fun x => { x with
            gtid := g, seqnum := h.seqnum, refcnt := 1, sched := .biff, onRq := runnable
            onCpu := false, pendingLatch := false }).resume g { h with thread := some idx } rest)
    | .lookup :: rest =>
      match s.swLookup g with
      | none => some (s.resume g h [])
      | some t => some (s.resume g { h with thread := some t } rest)
    | op :: rest =>
      match h.thread with
      | none => none
      | some t => threadOp s g h t rest op

/-! ## Steps of PNT -/

/-- The next access of a cpu in PNT. `ok` says how a latch ends. -/
def pntStep (s : State G T K) (c : K) (ok : Bool) : Option (State G T K) :=
  match s.pnt c with
  | .idle =>
    -- __biff_pick_first_to_run
    if s.biffLock = none then
      match s.rq with
      | [] => none
      | t :: rq =>
        some (({ s with rq := rq, biffLock := some c }.setThread t
          fun x => { x with enqueued := false }).setPnt c (.readSeqnum t))
    else none
  -- flux_prepare_to_run
  | .readSeqnum t => some (s.setPnt c (.setPending t (s.threads t).seqnum))
  | .setPending t n =>
    some ((s.setThread t fun x => { x with pendingLatch := true }).setPnt c (.incref t n))
  | .incref t n =>
    some ((s.setThread t fun x => { x with refcnt := x.refcnt + 1 }).setPnt c (.unlock t n))
  | .unlock t n => some ({ s with biffLock := none }.setPnt c (.run t n))
  -- flux_run_thread
  | .run t n =>
    let g := (s.threads t).gtid
    if s.TaskLockFree g then
      if ok then
        if (s.tasks g).barrier = n ∧ (s.tasks g).phase = .runnable ∧ (s.tasks g).onCpu = false then
          some (((s.setTask g fun k => { k with phase := .latched }).setLatchedBy g
            (some c)).setPnt c (.clearPending t))
        else none
      else if (s.tasks g).phase = .absent then some (s.setPnt c (.failedDecref t))
      else some ((s.send g .latchFailure (some c)).setPnt c (.failed t))
    else none
  | .clearPending t =>
    some ((s.setThread t fun x => { x with pendingLatch := false }).setPnt c (.wonDecref t))
  | .wonDecref t =>
    some ((s.setThread t fun x => { x with refcnt := x.refcnt - 1 }).setPnt c
      (if (s.threads t).refcnt - 1 = 0 then .wonDelete t else .wonReturn t))
  | .wonDelete t => some ((s.deleteEntry (s.threads t).gtid).setPnt c (.wonReturn t))
  | .wonReturn t => some ((s.setLatchedBy (s.threads t).gtid none).setPnt c .idle)
  | .failed t =>
    match s.handlers (s.threads t).gtid with
    | some h => if h.caller = some c then none else some (s.setPnt c (.failedDecref t))
    | none => some (s.setPnt c (.failedDecref t))
  | .failedDecref t =>
    some ((s.setThread t fun x => { x with refcnt := x.refcnt - 1 }).setPnt c
      (if (s.threads t).refcnt - 1 = 0 then .failedDelete t else .idle))
  | .failedDelete t => some ((s.deleteEntry (s.threads t).gtid).setPnt c .idle)

/-! ## Steps of the kernel -/

/-- What the kernel does with a thread. -/
inductive KernelEvent (G T : Type*) where
  /-- The thread enters ghost with a status word and its barrier. -/
  | enter (idx : T) (barrier : ℕ) (runnable : Bool)
  | getOnCpu
  | block
  | wakeup
  | preempt
  | yield
  /-- The thread switches to another one. -/
  | switchto (target : G)
  | changeAffinity
  | changePrio
  | die
  | depart
  /-- A thread that does not run any more is off its cpu. -/
  | leaveCpu

/-- A thread switches to a blocked one, which takes its cpu. -/
def State.switch (s : State G T K) (g target : G) : State G T K :=
  (s.setTask g fun k => { k with phase := .blocked }).setTask target
    fun k => { k with phase := .running, inSwitchto := true, onCpu := true }

/-- One step of the kernel for a thread whose task lock is free. -/
def kernelStep (s : State G T K) (g : G) (e : KernelEvent G T) : Option (State G T K) :=
  let k := s.tasks g
  if s.TaskLockFree g then
    match e with
    | .enter idx barrier runnable =>
      if k.phase = .absent then
        some ((s.setTask g fun _ =>
          ⟨if runnable then .runnable else .blocked, false, k.onCpu, barrier⟩).send g
            (.new idx runnable) none)
      else none
    | .getOnCpu =>
      if k.phase = .latched then
        some ((s.setTask g fun k =>
          { k with phase := .running, inSwitchto := false, onCpu := true }).send g .onCpu none)
      else none
    | .block =>
      if k.phase = .running then
        some ((s.setTask g fun k => { k with phase := .blocked }).send g .blocked none)
      else none
    | .wakeup =>
      if k.phase = .blocked then
        some ((s.setTask g fun k => { k with phase := .runnable }).send g .wakeup none)
      else none
    | .preempt =>
      if k.phase = .running then
        some ((s.setTask g fun k => { k with phase := .runnable }).send g
          (.preempt k.inSwitchto) none)
      else if k.phase = .latched then
        some ((s.setTask g fun k => { k with phase := .runnable }).send g (.preempt false) none)
      else none
    | .yield =>
      if k.phase = .running then
        some ((s.setTask g fun k => { k with phase := .runnable }).send g
          (.yield k.inSwitchto) none)
      else none
    | .switchto target =>
      if k.phase = .running ∧ target ≠ g ∧ s.TaskLockFree target ∧
          (s.tasks target).phase = .blocked ∧ (s.tasks target).onCpu = false then
        -- only the start of a chain has a message
        if k.inSwitchto then some (s.switch g target)
        else some ((s.switch g target).send g .switchto none)
      else none
    | .changeAffinity =>
      if k.phase = .absent then none else some (s.send g .affinityChanged none)
    | .changePrio => if k.phase = .absent then none else some (s.send g .prioChanged none)
    | .die =>
      if k.phase = .blocked then
        some ((s.setTask g fun k => { k with phase := .absent }).send g .dead none)
      else none
    | .depart =>
      -- a latched thread is preempted first
      if k.phase = .blocked ∨ k.phase = .runnable ∨ k.phase = .running then
        some ((s.setTask g fun k => { k with phase := .absent }).send g .departed none)
      else none
    | .leaveCpu =>
      if k.phase = .running then none
      else some (s.setTask g fun k => { k with onCpu := false })
  else none

/-- The messages about a thread in ghost, with its state before and after. The
start of a switchto chain is not among them, since it moves two threads. -/
inductive KernelMsg {T : Type*} (k : Task) : Msg T → Task → Prop where
  | getOnCpu : k.phase = .latched →
    KernelMsg k .onCpu { k with phase := .running, inSwitchto := false, onCpu := true }
  | block : k.phase = .running → KernelMsg k .blocked { k with phase := .blocked }
  | wakeup : k.phase = .blocked → KernelMsg k .wakeup { k with phase := .runnable }
  | preempt : k.phase = .running →
    KernelMsg k (.preempt k.inSwitchto) { k with phase := .runnable }
  | unlatch : k.phase = .latched → KernelMsg k (.preempt false) { k with phase := .runnable }
  | yield : k.phase = .running → KernelMsg k (.yield k.inSwitchto) { k with phase := .runnable }
  | changeAffinity : k.phase ≠ .absent → KernelMsg k .affinityChanged k
  | changePrio : k.phase ≠ .absent → KernelMsg k .prioChanged k
  | die : k.phase = .blocked → KernelMsg k .dead { k with phase := .absent }
  | depart : k.phase = .blocked ∨ k.phase = .runnable ∨ k.phase = .running →
    KernelMsg k .departed { k with phase := .absent }

omit [DecidableEq T] [DecidableEq K] in
/-- What a step of the kernel can be. -/
theorem kernelStep_cases {s s' : State G T K} {g : G} {e : KernelEvent G T}
    (h : kernelStep s g e = some s') : s.TaskLockFree g ∧
    ((∃ idx barrier r, e = .enter idx barrier r ∧ (s.tasks g).phase = .absent ∧
        s' = (s.setTask g fun _ => ⟨if r then .runnable else .blocked, false,
          (s.tasks g).onCpu, barrier⟩).send g (.new idx r) none) ∨
      (∃ msg k, KernelMsg (s.tasks g) msg k ∧ (msg = .departed → e = .depart) ∧
        s' = (s.setTask g fun _ => k).send g msg none) ∨
      (∃ target, (s.tasks g).phase = .running ∧ target ≠ g ∧ s.TaskLockFree target ∧
        (s.tasks target).phase = .blocked ∧
        s' = if (s.tasks g).inSwitchto then s.switch g target
          else (s.switch g target).send g .switchto none) ∨
      s' = s.setTask g fun k => { k with onCpu := false }) := by
  have hid : (s.setTask g fun _ => s.tasks g) = s := by simp [State.setTask]
  unfold kernelStep at h
  by_cases hfree : s.TaskLockFree g
  case neg =>
    rw [if_neg hfree] at h
    cases h
  rw [if_pos hfree] at h
  refine ⟨hfree, ?_⟩
  cases e with
  | enter idx barrier r =>
    rcases Option.ite_none_right_eq_some.mp h with ⟨hp, hs⟩
    exact .inl ⟨idx, barrier, r, rfl, hp, (Option.some.inj hs).symm⟩
  | getOnCpu =>
    rcases Option.ite_none_right_eq_some.mp h with ⟨hp, hs⟩
    exact .inr (.inl ⟨_, _, .getOnCpu hp, by simp, (Option.some.inj hs).symm⟩)
  | block =>
    rcases Option.ite_none_right_eq_some.mp h with ⟨hp, hs⟩
    exact .inr (.inl ⟨_, _, .block hp, by simp, (Option.some.inj hs).symm⟩)
  | wakeup =>
    rcases Option.ite_none_right_eq_some.mp h with ⟨hp, hs⟩
    exact .inr (.inl ⟨_, _, .wakeup hp, by simp, (Option.some.inj hs).symm⟩)
  | preempt =>
    by_cases hp : (s.tasks g).phase = .running
    · -- from its cpu
      simp only [if_pos hp] at h
      exact .inr (.inl ⟨_, _, .preempt hp, by simp, (Option.some.inj h).symm⟩)
    · -- latched, but not on its cpu yet
      simp only [if_neg hp] at h
      rcases Option.ite_none_right_eq_some.mp h with ⟨hp, hs⟩
      exact .inr (.inl ⟨_, _, .unlatch hp, by simp, (Option.some.inj hs).symm⟩)
  | yield =>
    rcases Option.ite_none_right_eq_some.mp h with ⟨hp, hs⟩
    exact .inr (.inl ⟨_, _, .yield hp, by simp, (Option.some.inj hs).symm⟩)
  | switchto target =>
    -- only the first switch of a chain sends a message
    rcases Option.ite_none_right_eq_some.mp h with ⟨⟨hp, hne, hft, hpt, -⟩, hs⟩
    refine .inr (.inr (.inl ⟨target, hp, hne, hft, hpt, ?_⟩))
    split at hs
    · rw [if_pos ‹_›]
      exact (Option.some.inj hs).symm
    · rw [if_neg ‹_›]
      exact (Option.some.inj hs).symm
  | changeAffinity =>
    -- the state of the thread does not change
    rcases Option.ite_none_left_eq_some.mp h with ⟨hp, hs⟩
    refine .inr (.inl ⟨_, _, .changeAffinity hp, by simp, ?_⟩)
    rw [hid]
    exact (Option.some.inj hs).symm
  | changePrio =>
    rcases Option.ite_none_left_eq_some.mp h with ⟨hp, hs⟩
    refine .inr (.inl ⟨_, _, .changePrio hp, by simp, ?_⟩)
    rw [hid]
    exact (Option.some.inj hs).symm
  | die =>
    rcases Option.ite_none_right_eq_some.mp h with ⟨hp, hs⟩
    exact .inr (.inl ⟨_, _, .die hp, by simp, (Option.some.inj hs).symm⟩)
  | depart =>
    rcases Option.ite_none_right_eq_some.mp h with ⟨hp, hs⟩
    exact .inr (.inl ⟨_, _, .depart hp, fun _ => rfl, (Option.some.inj hs).symm⟩)
  | leaveCpu =>
    rcases Option.ite_none_left_eq_some.mp h with ⟨-, hs⟩
    exact .inr (.inr (.inr (Option.some.inj hs).symm))

/-! ## The system -/

/-- Who takes the next step. -/
inductive Action (G T K : Type*) where
  | kernel (g : G) (e : KernelEvent G T)
  | handler (g : G)
  | pnt (c : K) (ok : Bool)

def step (s : State G T K) : Action G T K → Option (State G T K)
  | .kernel g e => kernelStep s g e
  | .handler g => handlerStep s g
  | .pnt c ok => pntStep s c ok

end Flux
