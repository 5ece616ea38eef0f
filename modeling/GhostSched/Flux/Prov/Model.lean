import GhostSched.Lib.TailQueue
import GhostSched.Lib.Transition
import Mathlib.Algebra.Order.Ring.Int

/-!
# The provisioning scheduler

`prov_flux.bpf.c`. Prov has three children, and Flux calls it for each cpu that it has:
to pick a child, and when a cpu comes back because the child yields, because a preemption
that prov asked for is completed, or because somebody above prov takes the cpu. A cpu that
a child has granted further down is still with that child here.

Whatever prov does under its lock is one step. The counters of the children change outside
of the lock, and so does `preempt_to`. The lists are tail queues of cpus, where the two
child lists share their links.

Left out are the statistics, and the clock that `prov_can_poke` looks at: a request may find
that it can poke or that it cannot.
-/

namespace Prov

open TailQueue Function

inductive Child where
  | prio
  | next
  | last
deriving DecidableEq

/-- Where a cpu is. -/
inductive Pc where
  /-- the cpu is not prov's -/
  | away
  /-- `current_sched` is prov -/
  | here
  /-- a child has been chosen, and `flux_cpu_grant` comes next -/
  | grant (child : Child)
  /-- a child has the cpu -/
  | child (child : Child)
  /-- the child has lost the cpu, and `__prov_cpu_returned` comes next; `taken` says that
  prov loses it too -/
  | returned (child : Child) (taken : Bool)
  /-- the request of `prov_cpu_preempted` is under way -/
  | requested
deriving DecidableEq

/-- `struct prov_flux_cpu` without its links; `preempt` says that `preempt_to` asks for a
preemption by prov. -/
structure Cpu where
  priority : Bool
  preemptPending : Bool
  owningChild : Option Child
  preempt : Bool
  pc : Pc
deriving DecidableEq

/-- Where a call of `prov_request_for_cpus` is. -/
inductive Request (K : Type*) where
  | idle
  | start (child : Child)
  | loop (child : Child) (needed i : ℕ)
  /-- a victim is earmarked, and `flux_preempt_cpu` comes next -/
  | preempt (child : Child) (victim : K) (needed i : ℕ)

structure State (K R : Type*) where
  nrCpusWanted : Child → ℤ
  nrCpus : Child → ℤ
  priorityCpus : Head K
  nextsCpus : Head K
  lastsCpus : Head K
  prioLink : K → Link K
  childLink : K → Link K
  cpus : K → Cpu
  request : K ⊕ R → Request K

inductive Action (K R : Type*) where
  /-- the parent grants the cpu to prov -/
  | allocate (c : K)
  /-- `prov_pick_next_task`, up to the end of the locked part -/
  | pick (c : K)
  /-- `flux_cpu_grant` -/
  | grant (c : K)
  /-- the child yields -/
  | yield (c : K)
  /-- `flux_pnt` acts on a preemption that prov has asked for -/
  | complete (c : K)
  /-- somebody above prov takes the cpu -/
  | take (c : K)
  /-- `__prov_cpu_returned` -/
  | cpuReturned (c : K)
  /-- `prov_cpu_preempted` has made its request -/
  | leave (c : K)
  /-- `prov_cpu_ticked` -/
  | tick (c : K)
  /-- `flux_request_cpus` of a child -/
  | requestCpus (r : R) (child : Child) (nr : ℤ)
  /-- the next access of a request -/
  | request (x : K ⊕ R) (canPoke : Bool)

/-- What does not change. -/
structure Config where
  maxNrPrioCpus : ℕ

/-- `PROV_MAX_NR_PREEMPTS` -/
def maxNrPreempts : ℕ := 5

section Model

variable {K R : Type*} [DecidableEq K] [DecidableEq R]

def State.setCpu (st : State K R) (c : K) (cpu : Cpu) : State K R :=
  { st with cpus := update st.cpus c cpu }

def State.setRequest (st : State K R) (x : K ⊕ R) (r : Request K) : State K R :=
  { st with request := update st.request x r }

/-- `__sync_fetch_and_add(&child->f.nr_cpus, n)` -/
def State.addNrCpus (st : State K R) (child : Child) (n : ℤ) : State K R :=
  { st with nrCpus := update st.nrCpus child (st.nrCpus child + n) }

/-! ### Lists -/

def State.insertNexts (st : State K R) (c : K) : State K R :=
  let q := insertHead st.nextsCpus st.childLink c
  { st with nextsCpus := q.1, childLink := q.2 }

def State.insertLasts (st : State K R) (c : K) : State K R :=
  let q := insertHead st.lastsCpus st.childLink c
  { st with lastsCpus := q.1, childLink := q.2 }

def State.insertPriorityHead (st : State K R) (c : K) : State K R :=
  let q := insertHead st.priorityCpus st.prioLink c
  { st with priorityCpus := q.1, prioLink := q.2 }

def State.insertPriorityTail (st : State K R) (c : K) : State K R :=
  let q := insertTail st.priorityCpus st.prioLink c
  { st with priorityCpus := q.1, prioLink := q.2 }

def State.removePriority (st : State K R) (c : K) : State K R :=
  let q := remove st.priorityCpus st.prioLink c
  { st with priorityCpus := q.1, prioLink := q.2 }

def State.removeNexts (st : State K R) (c : K) : State K R :=
  let q := remove st.nextsCpus st.childLink c
  { st with nextsCpus := q.1, childLink := q.2 }

def State.removeLasts (st : State K R) (c : K) : State K R :=
  let q := remove st.lastsCpus st.childLink c
  { st with lastsCpus := q.1, childLink := q.2 }

/-- `__remove_from_child_list`; there is no list for prio. -/
def State.removeFromChildList (st : State K R) (c : K) : Child → State K R
  | .prio => st
  | .next =>
    if (st.cpus c).priority then (st.removeNexts c).removePriority c else st.removeNexts c
  | .last =>
    if (st.cpus c).priority then (st.removeLasts c).removePriority c else st.removeLasts c

/-! ### Prov -/

/-- `prio_nr_needed`. The minimum is of unsigned numbers: below zero is above the maximum. -/
def prioNrNeeded (cfg : Config) (st : State K R) : ℕ :=
  let wanted := st.nrCpusWanted .prio
  let clamped := if wanted < 0 then (cfg.maxNrPrioCpus : ℤ) else min wanted cfg.maxNrPrioCpus
  (clamped - st.nrCpus .prio).toNat

/-- `flux_sched_nr_cpus_needed` -/
def nrCpusNeeded (st : State K R) (child : Child) : ℕ :=
  (st.nrCpusWanted child - st.nrCpus child).toNat

/-- `give_to_prio` -/
def giveToPrio (cfg : Config) (st : State K R) (cpu : Cpu) : Bool :=
  prioNrNeeded cfg st != 0 && (cpu.priority || st.priorityCpus.first.isNone)

/-- `prov_pick_next_task` -/
def pickNextTask (cfg : Config) (st : State K R) (c : K) : State K R :=
  let cpu := st.cpus c
  if giveToPrio cfg st cpu then
    st.setCpu c { cpu with owningChild := some .prio, pc := .grant .prio }
  else if nrCpusNeeded st .next ≠ 0 then
    let st := st.insertNexts c
    let st := if cpu.priority then st.insertPriorityTail c else st
    st.setCpu c { cpu with owningChild := some .next, pc := .grant .next }
  else if nrCpusNeeded st .last ≠ 0 then
    let st := st.insertLasts c
    let st := if cpu.priority then st.insertPriorityHead c else st
    st.setCpu c { cpu with owningChild := some .last, pc := .grant .last }
  else
    -- flux_cpu_yield; a parent, or `flux_pnt` itself, may grant the cpu again
    st.setCpu c { cpu with owningChild := none, pc := .away }

/-- `__prov_cpu_returned` -/
def cpuReturned (st : State K R) (c : K) (child : Child) (pc : Pc) : State K R :=
  let cpu := st.cpus c
  if cpu.preemptPending then
    st.setCpu c { cpu with owningChild := none, preemptPending := false, pc := pc }
  else (st.removeFromChildList c child).setCpu c { cpu with owningChild := none, pc := pc }

/-- `prov_cpu_ticked` asks for a preemption. -/
def cpuTicked (cfg : Config) (st : State K R) (cpu : Cpu) : Child → Bool
  | .prio => !cpu.priority && st.priorityCpus.first.isSome
  | .next | .last => giveToPrio cfg st cpu

/-- Whom a request for a child takes a cpu from. -/
def victim (st : State K R) : Child → Option K
  | .prio => st.priorityCpus.first.or (st.lastsCpus.first.or st.nextsCpus.first)
  | .next => st.lastsCpus.first
  | .last => none

/-- The list that a victim is on. -/
def victimList (st : State K R) (v : K) : Child → Child
  | .prio => if (st.cpus v).owningChild = some .next then .next else .last
  | _ => .last

/-- The locked part of a request: the victim is taken off its lists. -/
def earmark (st : State K R) (child : Child) (v : K) : State K R :=
  (st.removeFromChildList v (victimList st v child)).setCpu v
    { st.cpus v with preemptPending := true }

/-- The next access of a request. -/
def requestStep (cfg : Config) (st : State K R) (x : K ⊕ R) (canPoke : Bool) : Option (State K R) :=
  match st.request x with
  | .idle => none
  | .start child =>
    if canPoke then
      match child with
      | .prio => some (st.setRequest x (.loop .prio (prioNrNeeded cfg st) 0))
      | .next => some (st.setRequest x (.loop .next (nrCpusNeeded st .next) 0))
      | .last => some (st.setRequest x .idle)
    else some (st.setRequest x .idle)
  | .loop child needed i =>
    if i < needed ∧ i < maxNrPreempts then
      match victim st child with
      | none => some (st.setRequest x .idle)
      | some v => some ((earmark st child v).setRequest x (.preempt child v needed (i + 1)))
    else some (st.setRequest x .idle)
  | .preempt child v needed i =>
    some ((st.setCpu v { st.cpus v with preempt := true }).setRequest x (.loop child needed i))

def step (cfg : Config) (st : State K R) : Action K R → Option (State K R)
  | .allocate c =>
    match (st.cpus c).pc with
    | .away => some (st.setCpu c { st.cpus c with pc := .here })
    | _ => none
  | .pick c =>
    match (st.cpus c).pc with
    | .here => some (pickNextTask cfg st c)
    | _ => none
  | .grant c =>
    match (st.cpus c).pc with
    | .grant child =>
      some ((st.setCpu c { st.cpus c with pc := .child child }).addNrCpus child 1)
    | _ => none
  | .yield c =>
    match (st.cpus c).pc with
    | .child child =>
      some ((st.setCpu c { st.cpus c with pc := .returned child false }).addNrCpus child (-1))
    | _ => none
  | .complete c =>
    match (st.cpus c).pc with
    | .child child =>
      if (st.cpus c).preempt then
        some ((st.setCpu c { st.cpus c with
          preempt := false, pc := .returned child false }).addNrCpus child (-1))
      else none
    | .here => some (st.setCpu c { st.cpus c with preempt := false })
    | _ => none
  | .take c =>
    match (st.cpus c).pc with
    | .child child =>
      some ((st.setCpu c { st.cpus c with
        preempt := false, pc := .returned child true }).addNrCpus child (-1))
    | .here => some (st.setCpu c { st.cpus c with preempt := false, pc := .away })
    | _ => none
  | .cpuReturned c =>
    match (st.cpus c).pc with
    | .returned child false => some (cpuReturned st c child .here)
    | .returned child true =>
      some ((cpuReturned st c child .requested).setRequest (.inl c) (.start child))
    | _ => none
  | .leave c =>
    match (st.cpus c).pc, st.request (.inl c) with
    | .requested, .idle => some (st.setCpu c { st.cpus c with pc := .away })
    | _, _ => none
  | .tick c =>
    match (st.cpus c).pc with
    | .child child =>
      some (if cpuTicked cfg st (st.cpus c) child then
        st.setCpu c { st.cpus c with preempt := true } else st)
    | _ => none
  | .requestCpus r child nr =>
    match st.request (.inr r) with
    | .idle =>
      let st := { st with
        nrCpusWanted := update st.nrCpusWanted child (st.nrCpusWanted child + nr) }
      some (if nr < 0 then st else st.setRequest (.inr r) (.start child))
    | _ => none
  | .request x canPoke => requestStep cfg st x canPoke

end Model

end Prov
