import GhostSched.Cfs.Views
import GhostSched.Lib.Checked

/-!
# The per-cpu FIFO scheduler

Each cpu has an agent with a channel and a run queue. The agent of the first cpu also
gets the messages about new tasks. When such a task becomes runnable for the first
time it is assigned to a cpu: it is associated with the channel of that cpu and then
put on its run queue, without a common lock.

* `FifoTask` and `State` are the data of the scheduler. `heap` has the tasks that are
  live, and a use of another pointer is a fault, as is a failed `CHECK`.
* `Stage` is how far a migration has got; other agents may take steps between its
  parts. An agent waits in `Commit` until its cpu is given back to it, so
  `TaskOnCpu` comes after the task has run.
* `act` interleaves the kernel, as in `Kernel`, with the agents. An agent takes one
  step for each message, and one for each part of `FifoSchedule`.
-/

namespace PerCpuFifo

open Kernel Checked Function

/-! ## State -/

/-- `FifoTaskState`. -/
inductive RunState where
  | blocked
  | runnable
  | queued
  | onCpu
  deriving DecidableEq

structure FifoTask (G C : Type) where
  gtid : G
  seqnum : ℕ
  runState : RunState
  /-- `none` is -1. -/
  cpu : Option C
  /-- Whether the last execution was preempted or not. -/
  preempted : Bool
  prioBoost : Bool

/-- What is next in the migration of a task. -/
inductive Stage where
  /-- `AssociateTask`. -/
  | associate
  /-- The store of the cpu. -/
  | place
  /-- `Enqueue` up to the lock of the run queue. -/
  | enqueue
  /-- The rest of `Enqueue`. -/
  | push
  /-- `Advance`, if the message was a wakeup. -/
  | advance
  deriving DecidableEq

/-- Where the agent of a cpu is. -/
inductive Agent (C P : Type) where
  /-- It waits in the kernel. -/
  | asleep
  /-- It drains its channel. -/
  | drain
  /-- In `Migrate`, called for a message with a sequence number. -/
  | migrating (stage : Stage) (task : P) (cpu : C) (seqnum : ℕ) (wakeup : Bool)
  /-- A transaction is open for the task. -/
  | opened (task : P)
  /-- It waits in a `Commit` that put a task on the cpu. -/
  | committed (task : P)
  deriving DecidableEq

/-- The cpus of the enclave; the channel of the first one is the default channel. -/
structure Config (C : Type) where
  first : C
  others : List C

def Config.cpus {C : Type} (cfg : Config C) : List C := cfg.first :: cfg.others

structure State (G C P : Type) where
  kernel : G → Kernel.Task C
  /-- The channel that a task is associated with. -/
  channel : G → C
  queue : C → List (Cfs.Message G C)
  /-- The map of the allocator. -/
  alloc : G → Option P
  heap : P → Option (FifoTask G C)
  current : C → Option P
  runQueue : C → List P
  agents : C → Agent C P
  /-- `next` of `AssignCpu`, as the cpus from there on. -/
  next : List C

inductive Fault where
  | check
  /-- A use of a task that was freed. -/
  | freed
  deriving DecidableEq

variable {G C P : Type}

namespace State

def task (s : State G C P) (p : P) : Except Fault (FifoTask G C) :=
  match s.heap p with
  | some t => .ok t
  | none => .error .freed

def setTask [DecidableEq P] (s : State G C P) (p : P) (t : FifoTask G C) : State G C P :=
  { s with heap := update s.heap p (some t) }

def setAgent [DecidableEq C] (s : State G C P) (c : C) (a : Agent C P) : State G C P :=
  { s with agents := update s.agents c a }

def setCurrent [DecidableEq C] (s : State G C P) (c : C) (p : Option P) : State G C P :=
  { s with current := update s.current c p }

def setRunQueue [DecidableEq C] (s : State G C P) (c : C) (ps : List P) : State G C P :=
  { s with runQueue := update s.runQueue c ps }

/-- `GetTask` for a thread that the allocator does not know. -/
def allocate [DecidableEq G] [DecidableEq P] (s : State G C P) (p : P) (g : G) : State G C P :=
  { s.setTask p ⟨g, 0, .blocked, none, false, false⟩ with
    alloc := update s.alloc g (some p) }

def free [DecidableEq G] [DecidableEq P] (s : State G C P) (p : P) (g : G) : State G C P :=
  { s with
    heap := update s.heap p none
    alloc := update s.alloc g none }

end State

/-! ## The run queue -/

section Queues

variable [DecidableEq C] [DecidableEq P]

/-- The run queue with one more task. -/
def FifoTask.push (t : FifoTask G C) (p : P) (ps : List P) : List P :=
  if t.prioBoost then p :: ps else ps ++ [p]

/-- `FifoRq::Enqueue`. -/
def enqueue (s : State G C P) (c : C) (p : P) : Except Fault (State G C P) := do
  let t ← s.task p
  check .check (t.cpu.isSome = true)
  check .check (t.runState = .runnable)
  return (s.setTask p { t with runState := .queued }).setRunQueue c (t.push p (s.runQueue c))

/-- `FifoRq::Dequeue`. -/
def dequeue (s : State G C P) (c : C) : Except Fault (State G C P × Option P) :=
  match s.runQueue c with
  | [] => .ok (s, none)
  | p :: rest => do
    let t ← s.task p
    check .check (t.runState = .queued)
    return ((s.setTask p { t with runState := .runnable }).setRunQueue c rest, some p)

/-- `FifoRq::Erase`. The last place is looked at first. -/
def erase (s : State G C P) (c : C) (p : P) : Except Fault (State G C P) := do
  let t ← s.task p
  check .check (t.runState = .queued)
  check .check (p ∈ s.runQueue c)
  let ps :=
    if (s.runQueue c).getLast? = some p then (s.runQueue c).dropLast else (s.runQueue c).erase p
  return (s.setTask p { t with runState := .runnable }).setRunQueue c ps

/-- `cpu_state_of`. -/
def cpuStateOf (t : FifoTask G C) : Except Fault C :=
  match t.cpu with
  | some c => .ok c
  | none => .error .check

def taskOffCpu (s : State G C P) (p : P) (blocked fromSwitchto : Bool) :
    Except Fault (State G C P) := do
  let t ← s.task p
  let c ← cpuStateOf t
  let t' := { t with runState := if blocked then .blocked else .runnable }
  if t.runState = .onCpu then do
    check .check (s.current c = some p)
    return (s.setCurrent c none).setTask p t'
  else do
    check .check (fromSwitchto = true)
    check .check (t.runState = .blocked)
    return s.setTask p t'

def taskOnCpu (s : State G C P) (p : P) (c : C) : Except Fault (State G C P) := do
  let t ← s.task p
  return (s.setCurrent c (some p)).setTask p
    { t with runState := .onCpu, cpu := some c, preempted := false, prioBoost := false }

end Queues

/-! ## Messages -/

section Messages

variable [DecidableEq G] [DecidableEq C] [DecidableEq P]

/-- `AssignCpu`, and then the agent is at the start of `Migrate`. -/
def startMigrate (cfg : Config C) (s : State G C P) (c : C) (p : P) (seqnum : ℕ)
    (wakeup : Bool) : State G C P :=
  match s.next with
  | [] => { s.setAgent c (.migrating .associate p cfg.first seqnum wakeup) with next := cfg.others }
  | target :: rest =>
    { s.setAgent c (.migrating .associate p target seqnum wakeup) with next := rest }

/-- `Task::Advance`. -/
def advance (s : State G C P) (p : P) (seqnum : ℕ) : Except Fault (State G C P) := do
  let t ← s.task p
  check .check (t.seqnum < seqnum)
  return s.setTask p { t with seqnum := seqnum }

def taskNew (cfg : Config C) (s : State G C P) (c : C) (p : P) (seqnum : ℕ) (runnable : Bool) :
    Except Fault (State G C P) := do
  let t ← s.task p
  if runnable then
    return startMigrate cfg (s.setTask p { t with seqnum := seqnum, runState := .runnable }) c p
      seqnum false
  else return s.setTask p { t with seqnum := seqnum, runState := .blocked }

/-- With the `Advance` that follows, unless the task is migrated first. -/
def taskRunnable (cfg : Config C) (s : State G C P) (c : C) (p : P) (seqnum : ℕ)
    (deferrable : Bool) : Except Fault (State G C P) := do
  let t ← s.task p
  check .check (t.runState = .blocked)
  let s := s.setTask p { t with runState := .runnable, prioBoost := !deferrable }
  match t.cpu with
  | none => return startMigrate cfg s c p seqnum true
  | some cpu => do advance (← enqueue s cpu p) p seqnum

/-- A task that leaves is taken from its place. -/
def takeOut (s : State G C P) (p : P) (fromSwitchto : Bool) : Except Fault (State G C P) := do
  let t ← s.task p
  if t.runState = .onCpu ∨ fromSwitchto = true then taskOffCpu s p false fromSwitchto
  else if t.runState = .queued then do erase s (← cpuStateOf t) p
  else do
    check .check (t.runState = .blocked)
    return s

def taskDeparted (s : State G C P) (p : P) (fromSwitchto : Bool) : Except Fault (State G C P) := do
  let t ← s.task p
  return (← takeOut s p fromSwitchto).free p t.gtid

def taskDead (s : State G C P) (p : P) : Except Fault (State G C P) := do
  let t ← s.task p
  check .check (t.runState = .blocked)
  return s.free p t.gtid

/-- The task goes to the run queue of its cpu. -/
def requeue (s : State G C P) (p : P) : Except Fault (State G C P) := do
  let t ← s.task p
  enqueue s (← cpuStateOf t) p

def taskYield (s : State G C P) (p : P) (fromSwitchto : Bool) : Except Fault (State G C P) := do
  requeue (← taskOffCpu s p false fromSwitchto) p

def taskBlocked (s : State G C P) (p : P) (fromSwitchto : Bool) : Except Fault (State G C P) :=
  taskOffCpu s p true fromSwitchto

def taskPreempted (s : State G C P) (p : P) (fromSwitchto : Bool) : Except Fault (State G C P) := do
  let s ← taskOffCpu s p false fromSwitchto
  let t ← s.task p
  requeue (s.setTask p { t with preempted := true, prioBoost := true }) p

def taskSwitchto (s : State G C P) (p : P) : Except Fault (State G C P) :=
  taskOffCpu s p true false

/-- A message about a task that the allocator has; `c` is the cpu of the agent. -/
def handleMessage (cfg : Config C) (s : State G C P) (c : C) (p : P) (seqnum : ℕ)
    (deferrable : Bool) : Msg C Unit → Except Fault (State G C P)
  -- there is a task for the thread already
  | .new _ _ => .ok s
  | .wakeup => taskRunnable cfg s c p seqnum deferrable
  | .departed current => taskDeparted s p (current.any Prod.snd)
  | .dead => taskDead s p
  | .yield _ fromSwitchto => do advance (← taskYield s p fromSwitchto) p seqnum
  | .blocked _ fromSwitchto => do advance (← taskBlocked s p fromSwitchto) p seqnum
  | .preempt _ fromSwitchto => do advance (← taskPreempted s p fromSwitchto) p seqnum
  | .switchto _ => do advance (← taskSwitchto s p) p seqnum
  | .onCpu _ | .affinityChanged | .prioChanged => advance s p seqnum

/-- `DispatchMessage`. A new task gets the memory `p`, which has to be free. -/
def dispatchMessage (cfg : Config C) (s : State G C P) (c : C) (p : P) (deferrable : Bool) :
    Cfs.Message G C → Option (Except Fault (State G C P))
  | .cpuTick => some (.ok s)
  | .task g seqnum msg =>
    match s.alloc g, msg with
    | some q, msg => some (handleMessage cfg s c q seqnum deferrable msg)
    | none, .new _ runnable =>
      if (s.heap p).isNone then some (taskNew cfg (s.allocate p g) c p seqnum runnable) else none
    | none, _ => some (.ok s)

end Messages

/-! ## Steps -/

inductive Action (G C P : Type) where
  /-- An event of a thread. -/
  | kernel (gtid : G) (event : Event G Unit)
  /-- The kernel sends a `CPU_TICK`. -/
  | tick (cpu : C)
  /-- The agent gets its cpu. -/
  | wake (cpu : C)
  /-- The agent handles the first message of its channel. -/
  | dispatch (cpu : C) (memory : P) (deferrable : Bool)
  /-- The next part of a migration. -/
  | migrate (cpu : C)
  /-- The channel is empty; `FifoSchedule` up to the open transaction. -/
  | pick (cpu : C) (prioBoost : Bool)
  | commit (cpu : C) (ok : Bool)

section Step

variable [DecidableEq G] [DecidableEq C] [DecidableEq P]

/-- The channels when a message is sent; a new thread is associated with the default channel. -/
def channelsFor (cfg : Config C) (channel : G → C) (g : G) : Msg C Unit → G → C
  | .new _ _ => update channel g cfg.first
  | _ => channel

/-- An event of a thread; its message goes to its channel. -/
def kernelStep (cfg : Config C) (s : State G C P) (g : G) (e : Event G Unit) :
    Option (State G C P) :=
  match Kernel.step false s.kernel g e with
  | none => none
  | some (k, none) => some { s with kernel := k }
  | some (k, some msg) =>
    let channel := channelsFor cfg s.channel g msg
    some { s with
      kernel := k
      channel := channel
      queue := update s.queue (channel g) (s.queue (channel g) ++ [.task g (k g).barrier msg]) }

/-- The agent gets its cpu back when no thread waits for it any more. -/
def wake (cfg : Config C) (s : State G C P) (c : C) : Option (Except Fault (State G C P)) :=
  let s' := { s with kernel := Cfs.takeCpu s.kernel c }.setAgent c .drain
  match s.agents c with
  | .asleep => if c ∈ cfg.cpus then some (.ok s') else none
  | .committed p =>
    match s.heap p with
    | none => some (.error .freed)
    | some t =>
      if (s.kernel t.gtid).phase = .latched c then none else some (taskOnCpu s' p c)
  | _ => none

/-- `AssociateTask` succeeds if there is no newer message about the thread. -/
def associate (s : State G C P) (c : C) (p : P) (target : C) (seqnum : ℕ) (wakeup : Bool) :
    Except Fault (State G C P) := do
  let t ← s.task p
  check .check (t.runState = .runnable)
  check .check (t.cpu = none)
  check .check ((s.kernel t.gtid).phase ≠ .absent ∧ (s.kernel t.gtid).barrier = seqnum)
  return { s.setAgent c (.migrating .place p target seqnum wakeup) with
    channel := update s.channel t.gtid target }

/-- One part of `Migrate`. -/
def migrate (s : State G C P) (c : C) (p : P) (target : C) (seqnum : ℕ) (wakeup : Bool) :
    Stage → Except Fault (State G C P)
  | .associate => associate s c p target seqnum wakeup
  | .place => do
    let t ← s.task p
    return (s.setTask p { t with cpu := some target }).setAgent c
      (.migrating .enqueue p target seqnum wakeup)
  | .enqueue => do
    let t ← s.task p
    check .check (t.cpu.isSome = true)
    check .check (t.runState = .runnable)
    return (s.setTask p { t with runState := .queued }).setAgent c
      (.migrating .push p target seqnum wakeup)
  | .push => do
    let t ← s.task p
    return (s.setRunQueue target (t.push p (s.runQueue target))).setAgent c
      (if wakeup then .migrating .advance p target seqnum wakeup else .drain)
  | .advance => do
    return (← advance s p seqnum).setAgent c .drain

/-- The task that `FifoSchedule` wants to run. -/
def pickTask (s : State G C P) (c : C) : Except Fault (State G C P × Option P) :=
  match s.current c with
  | some p => .ok (s, some p)
  | none => dequeue s c

def pick (s : State G C P) (c : C) (prioBoost : Bool) : Except Fault (State G C P) :=
  if prioBoost then .ok (s.setAgent c .asleep)
  else do
    let (s, next) ← pickTask s c
    match next with
    | none => return s.setAgent c .asleep
    | some p => return s.setAgent c (.opened p)

/-- The transaction failed. -/
def putBack (s : State G C P) (c : C) (p : P) : Except Fault (State G C P) := do
  let s ← (if s.current c = some p then taskOffCpu s p false false else .ok s)
  let t ← s.task p
  return (← enqueue (s.setTask p { t with prioBoost := true }) c p).setAgent c .drain

/-- The barrier of the transaction is the sequence number of the task. -/
def commit (s : State G C P) (c : C) (p : P) (ok : Bool) : Option (Except Fault (State G C P)) :=
  match s.heap p with
  | none => some (.error .freed)
  | some t =>
    if ok then
      (latch s.kernel t.gtid c t.seqnum).map fun k =>
        .ok ({ s with kernel := k }.setAgent c (.committed p))
    else some (putBack s c p)

/-- What an action does. -/
def act (cfg : Config C) (s : State G C P) : Action G C P → Option (Except Fault (State G C P))
  | .kernel g e => (kernelStep cfg s g e).map .ok
  | .tick c => some (.ok { s with queue := update s.queue c (s.queue c ++ [.cpuTick]) })
  | .wake c => wake cfg s c
  | .dispatch c p deferrable =>
    match s.agents c, s.queue c with
    | .drain, msg :: rest =>
      dispatchMessage cfg { s with queue := update s.queue c rest } c p deferrable msg
    | _, _ => none
  | .migrate c =>
    match s.agents c with
    | .migrating stage p target seqnum wakeup => some (migrate s c p target seqnum wakeup stage)
    | _ => none
  | .pick c prioBoost =>
    match s.agents c, s.queue c with
    | .drain, [] => some (pick s c prioBoost)
    | _, _ => none
  | .commit c ok =>
    match s.agents c with
    | .opened p => commit s c p ok
    | _ => none

/-- A step without a fault. -/
def step (cfg : Config C) (s : State G C P) (a : Action G C P) : Option (State G C P) :=
  match act cfg s a with
  | some (.ok s') => some s'
  | _ => none

end Step

/-- At the start, no thread is in ghost and every agent waits. -/
structure Init (s : State G C P) : Prop where
  absent : ∀ g, (s.kernel g).phase = .absent
  queue : ∀ c, s.queue c = []
  alloc : ∀ g, s.alloc g = none
  heap : ∀ p, s.heap p = none
  current : ∀ c, s.current c = none
  runQueue : ∀ c, s.runQueue c = []
  agents : ∀ c, s.agents c = .asleep

end PerCpuFifo
