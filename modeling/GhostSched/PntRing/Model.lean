import Mathlib.Algebra.Order.Ring.Int
import Mathlib.Logic.Function.Basic
import GhostSched.Lib.Transition

/-!
# The PNT ring

The multi-producer, multi-consumer ring of `pntring.bpf.h` and its functions in
`pntring_funcs.bpf.h`, one step for each load, store or compare-and-swap.

* Producers run `pnt_push_task_to_ring` or `pnt_schedule_onto_ring`.
* Consumers run `pnt_latch_task_from_ring`.
* The one agent thread runs `pnt_unschedule_ring_slot`, `pnt_ring_reap_errors`
  and, for a task that got on cpu, `pnt_ring_reap_slot`.

`prod_idx` and `cons_idx` are natural numbers: a run ends before one of them
would wrap. What happened to the transaction of each ring index is recorded in
history variables (`Txn`), which no function of the ring reads.
-/

namespace PntRing

open Function

/-! ## Transaction states -/

/-- `GHOST_TXN_READY` -/
def txnReady : ℤ := 2 ^ 31 - 1

/-- `GHOST_TXN_REAPED`, not part of the kernel's own protocol -/
def txnReaped : ℤ := txnReady - 1

/-- `GHOST_TXN_COMPLETE`; the other results follow it in the enumeration. -/
def txnComplete : ℤ := -2 ^ 31

/-- `GHOST_TXN_ABORTED` -/
def txnAborted : ℤ := txnComplete + 1

/-- `GHOST_TXN_TARGET_STALE` -/
def txnTargetStale : ℤ := txnComplete + 3

/-- `GHOST_TXN_TARGET_NOT_FOUND` -/
def txnTargetNotFound : ℤ := txnComplete + 4

/-- `GHOST_TXN_TARGET_NOT_RUNNABLE` -/
def txnTargetNotRunnable : ℤ := txnComplete + 5

/-- `GHOST_TXN_CPU_OFFLINE` -/
def txnCpuOffline : ℤ := txnComplete + 7

/-- `GHOST_TXN_CPU_UNAVAIL` -/
def txnCpuUnavail : ℤ := txnComplete + 8

/-- `GHOST_TXN_NOT_PERMITTED` -/
def txnNotPermitted : ℤ := txnComplete + 11

/-- The transaction state for a nonzero result of `bpf_ghost_run_gtid`. -/
def latchErrorState (ret : ℤ) : ℤ :=
  if -ret = 116 then txnTargetStale              -- ESTALE
  else if -ret = 16 then txnTargetNotRunnable    -- EBUSY
  else if -ret = 2 then txnTargetNotFound        -- ENOENT
  else if -ret = 34 then txnCpuOffline           -- ERANGE
  else if -ret = 28 then txnCpuUnavail           -- ENOSPC
  else txnNotPermitted                           -- EXDEV, EINVAL and the rest

/-- A cpu number: the kernel's claim mark `[0, nr_cpu_ids)`, which is none of
the ring's own marks. -/
def Cpu : Type := { n : ℕ // (n : ℤ) < txnReaped }

/-! ## The ring -/

/-- `NR_PNT_RING_SLOTS` -/
def nrPntRingSlots : ℕ := 64

/-- `PNT_NR_RING_RETRY` -/
def pntNrRingRetry : ℕ := 5

/-- `struct pnt_ring_slot` -/
structure Slot where
  txnState : ℤ
  gtid : ℕ
  taskBarrier : ℕ
  cpu : ℕ
  taskPtr : Option ℕ

/-- `struct pnt_ring` -/
structure Ring where
  prodIdx : ℕ
  consIdx : ℕ
  slots : Fin nrPntRingSlots → Slot

/-- `pnt_ring_nr_used`, in 64 bits -/
def pntRingNrUsed (prodIdx consIdx : ℕ) : ℕ := (prodIdx + 2 ^ 64 - consIdx) % 2 ^ 64

/-- `pnt_ring_nr_empty`, in 64 bits -/
def pntRingNrEmpty (prodIdx consIdx : ℕ) : ℕ :=
  (nrPntRingSlots + 2 ^ 64 - pntRingNrUsed prodIdx consIdx) % 2 ^ 64

/-- `pnt_ring_full` -/
def pntRingFull (prodIdx consIdx : ℕ) : Bool := pntRingNrEmpty prodIdx consIdx == 0

/-- `pnt_ring_get_slot` -/
def pntRingGetSlot (idx : ℕ) : Fin nrPntRingSlots :=
  ⟨idx % nrPntRingSlots, Nat.mod_lt _ (by decide)⟩

/-- `pnt_ring_to_agent_data`; the ring id is shifted in 32 bits. -/
def pntRingToAgentData (ringId ringIndex : ℕ) : ℕ :=
  1 <<< 63 ||| (ringId <<< 6) % 2 ^ 32 ||| (ringIndex &&& (nrPntRingSlots - 1))

/-! ## Program counters -/

/-- Which of the two producing functions was called. -/
inductive ProducerFn where
  /-- `pnt_push_task_to_ring` for a ring id -/
  | push (whichRing : ℕ)
  /-- `pnt_schedule_onto_ring` with a task pointer -/
  | schedule (taskPtr : Option ℕ)

/-- The arguments of a producing call. -/
structure Request where
  fn : ProducerFn
  gtid : ℕ
  taskBarrier : ℕ

/-- The task pointer that goes into the slot. -/
def Request.taskPtr (req : Request) : Option ℕ :=
  match req.fn with
  | .push _ => none
  | .schedule taskPtr => taskPtr

/-- The barrier as the slot's 32-bit field holds it. -/
def Request.barrier32 (req : Request) : ℕ := req.taskBarrier % 2 ^ 32

/-- What the call returns for a produced index: agent data, or the slot. -/
def Request.result (req : Request) (idx : ℕ) : ℕ :=
  match req.fn with
  | .push whichRing => pntRingToAgentData whichRing idx
  | .schedule _ => pntRingGetSlot idx

/-- Where a producer is. `i` counts the attempts of a push. -/
inductive ProducerPc where
  | returned (result : Option ℕ)
  | loadProd (req : Request) (i : ℕ)
  | loadCons (req : Request) (i : ℕ) (prodIdx : ℕ)
  | loadState (req : Request) (i : ℕ) (prodIdx : ℕ)
  | casProd (req : Request) (i : ℕ) (prodIdx : ℕ)
  | storeGtid (req : Request) (idx : ℕ)
  | storeBarrier (req : Request) (idx : ℕ)
  | storeTaskPtr (req : Request) (idx : ℕ)
  | storeReady (req : Request) (idx : ℕ)

/-- Where a producer goes when another one took the index: a push gives up
after its last attempt, the agent tries for ever. -/
def Request.retry (req : Request) (i : ℕ) : ProducerPc :=
  match req.fn with
  | .push _ => if i + 1 < pntNrRingRetry then .loadProd req (i + 1) else .returned none
  | .schedule _ => .loadProd req i

/-- Where a consumer is, on which cpu and in which attempt. -/
inductive ConsumerPc where
  | returned (ok : Bool)
  | loadCons (cpu : Cpu) (i : ℕ)
  | loadProd (cpu : Cpu) (i : ℕ) (consIdx : ℕ)
  | loadState (cpu : Cpu) (i : ℕ) (consIdx : ℕ)
  | casCons (cpu : Cpu) (i : ℕ) (consIdx : ℕ)
  | casState (cpu : Cpu) (i : ℕ) (idx : ℕ)
  | reloadState (cpu : Cpu) (i : ℕ) (idx : ℕ)
  | storeReaped (cpu : Cpu) (i : ℕ) (idx : ℕ)
  | storeCpu (cpu : Cpu) (i : ℕ) (idx : ℕ)
  | loadGtid (cpu : Cpu) (i : ℕ) (idx : ℕ)
  | loadBarrier (cpu : Cpu) (i : ℕ) (idx gtid : ℕ)
  | runGtid (cpu : Cpu) (i : ℕ) (idx gtid taskBarrier : ℕ)
  | storeResult (cpu : Cpu) (i : ℕ) (idx : ℕ) (ret : ℤ)
  | orLatchError (cpu : Cpu) (i : ℕ)

/-- The next attempt of a consumer, if it has one left. -/
def latchContinue (cpu : Cpu) (i : ℕ) : ConsumerPc :=
  if i + 1 < pntNrRingRetry then .loadCons cpu (i + 1) else .returned false

/-- Where the agent is. -/
inductive AgentPc where
  | returned (result : ℤ)
  | unschedLoad (idx : ℕ)
  | unschedCas (idx : ℕ)
  | unschedSpin (idx : ℕ)
  | unschedReap (idx : ℕ)
  | reapErrorsLoad (idx : ℕ)
  | reapErrorsPtr (idx : ℕ)
  | reapErrorsReap (idx : ℕ)
  | onCpuReap (idx : ℕ)

/-! ## State -/

/-- One call of `bpf_ghost_run_gtid`. -/
structure Attempt (C : Type*) where
  consumer : C
  gtid : ℕ
  taskBarrier : ℕ
  ret : ℤ

/-- What has happened to the transaction of one ring index. -/
structure Txn (P C : Type*) where
  /-- the producer that claimed the index, with its arguments -/
  claim : Option (P × Request) := none
  /-- the consumer that claimed the slot -/
  consumer : Option C := none
  attempts : List (Attempt C) := []
  /-- the results of `pnt_unschedule_ring_slot` -/
  unscheduled : List Bool := []
  /-- the kernel sent `MSG_TASK_ON_CPU` -/
  onCpu : Bool := false
  reaped : Bool := false

/-- The ring, its users and the history variables. -/
structure State (P C : Type*) where
  ring : Ring
  latchError : Bool
  /-- a consumer printed "Weird state" -/
  weird : Bool
  producers : P → ProducerPc
  consumers : C → ConsumerPc
  agent : AgentPc
  /-- the indices whose slot the agent has in some `task->slot` -/
  held : List ℕ
  txns : ℕ → Txn P C

namespace State

variable {P C : Type*} [DecidableEq P] [DecidableEq C] (s : State P C)

/-- The slot of a ring index. -/
def slot (idx : ℕ) : Slot := s.ring.slots (pntRingGetSlot idx)

/-- Write to the slot of a ring index. -/
def setSlot (idx : ℕ) (f : Slot → Slot) : State P C :=
  { s with ring.slots := update s.ring.slots (pntRingGetSlot idx) (f (s.slot idx)) }

/-- Write `txn_state`. -/
def setTxnState (idx : ℕ) (v : ℤ) : State P C := s.setSlot idx fun sl => { sl with txnState := v }

def setProducer (p : P) (pc : ProducerPc) : State P C :=
  { s with producers := update s.producers p pc }

def setConsumer (c : C) (pc : ConsumerPc) : State P C :=
  { s with consumers := update s.consumers c pc }

def setAgent (pc : AgentPc) : State P C := { s with agent := pc }

/-- Record an event of one transaction. -/
def record (idx : ℕ) (f : Txn P C → Txn P C) : State P C :=
  { s with txns := update s.txns idx (f (s.txns idx)) }

/-- The agent learns of a produced slot. -/
def hold (idx : ℕ) : State P C := { s with held := idx :: s.held }

/-- The agent clears `task->slot`. -/
def release (idx : ℕ) : State P C := { s with held := s.held.filter (· ≠ idx) }

end State

/-! ## Steps -/

section Steps

variable {P C : Type*} [DecidableEq P] [DecidableEq C]

/-- One access of `pnt_push_task_to_ring` or `pnt_schedule_onto_ring`. -/
def producerStep (s : State P C) (p : P) : Option (State P C) :=
  match s.producers p with
  | .returned _ => none
  | .loadProd req i => some (s.setProducer p (.loadCons req i s.ring.prodIdx))
  | .loadCons req i prodIdx =>
    if pntRingFull prodIdx s.ring.consIdx then some (s.setProducer p (.returned none))
    else some (s.setProducer p (.loadState req i prodIdx))
  | .loadState req i prodIdx =>
    if (s.slot prodIdx).txnState ≠ txnReaped then some (s.setProducer p (.returned none))
    else some (s.setProducer p (.casProd req i prodIdx))
  | .casProd req i prodIdx =>
    if s.ring.prodIdx = prodIdx then
      -- the indices do not wrap
      if prodIdx + 1 < 2 ^ 64 then
        some (({ s with ring.prodIdx := prodIdx + 1 }.record prodIdx
          fun t => { t with claim := some (p, req) }).setProducer p (.storeGtid req prodIdx))
      else none
    else some (s.setProducer p (req.retry i))
  | .storeGtid req idx =>
    some ((s.setSlot idx fun sl => { sl with gtid := req.gtid }).setProducer p
      (.storeBarrier req idx))
  | .storeBarrier req idx =>
    some ((s.setSlot idx fun sl => { sl with taskBarrier := req.barrier32 }).setProducer p
      (.storeTaskPtr req idx))
  | .storeTaskPtr req idx =>
    some ((s.setSlot idx fun sl => { sl with taskPtr := req.taskPtr }).setProducer p
      (.storeReady req idx))
  | .storeReady req idx =>
    -- from here on the agent may learn of the slot
    some (((s.setTxnState idx txnReady).hold idx).setProducer p (.returned (some (req.result idx))))

/-- One access of `pnt_latch_task_from_ring`. `ret` is what
`bpf_ghost_run_gtid` returns, if this step calls it. -/
def consumerStep (s : State P C) (c : C) (ret : ℤ) : Option (State P C) :=
  match s.consumers c with
  | .returned _ => none
  | .loadCons cpu i => some (s.setConsumer c (.loadProd cpu i s.ring.consIdx))
  | .loadProd cpu i consIdx =>
    if s.ring.prodIdx = consIdx then some (s.setConsumer c (.returned false))
    else some (s.setConsumer c (.loadState cpu i consIdx))
  | .loadState cpu i consIdx =>
    if (s.slot consIdx).txnState = txnReady ∨ (s.slot consIdx).txnState = txnAborted then
      some (s.setConsumer c (.casCons cpu i consIdx))
    else some (s.setConsumer c (.returned false))
  | .casCons cpu i consIdx =>
    if s.ring.consIdx = consIdx then
      some (({ s with ring.consIdx := consIdx + 1 }.record consIdx
        fun t => { t with consumer := some c }).setConsumer c (.casState cpu i consIdx))
    else some (s.setConsumer c (latchContinue cpu i))
  | .casState cpu i idx =>
    if (s.slot idx).txnState = txnReady then
      some ((s.setTxnState idx cpu.1).setConsumer c (.storeCpu cpu i idx))
    else some (s.setConsumer c (.reloadState cpu i idx))
  | .reloadState cpu i idx =>
    some ({ s with weird := s.weird || (s.slot idx).txnState != txnAborted }.setConsumer c
      (.storeReaped cpu i idx))
  | .storeReaped cpu i idx =>
    some (((s.setTxnState idx txnReaped).record idx
      fun t => { t with reaped := true }).setConsumer c (latchContinue cpu i))
  | .storeCpu cpu i idx =>
    some ((s.setSlot idx fun sl => { sl with cpu := cpu.1 }).setConsumer c (.loadGtid cpu i idx))
  | .loadGtid cpu i idx => some (s.setConsumer c (.loadBarrier cpu i idx (s.slot idx).gtid))
  | .loadBarrier cpu i idx gtid =>
    some (s.setConsumer c (.runGtid cpu i idx gtid (s.slot idx).taskBarrier))
  | .runGtid cpu i idx gtid taskBarrier =>
    some ((s.record idx fun t =>
      { t with attempts := t.attempts ++ [⟨c, gtid, taskBarrier, ret⟩] }).setConsumer
      c (.storeResult cpu i idx ret))
  | .storeResult cpu i idx ret =>
    if ret = 0 then
      -- the task gets on cpu, and its message is sent, after the program returns
      some (((s.setTxnState idx txnComplete).record idx
        fun t => { t with onCpu := true }).setConsumer c (.returned true))
    else some ((s.setTxnState idx (latchErrorState ret)).setConsumer c (.orLatchError cpu i))
  | .orLatchError cpu i =>
    some ({ s with latchError := true }.setConsumer c (latchContinue cpu i))

/-- `pnt_ring_reap_slot` by the agent, which lets go of the slot. -/
def pntRingReapSlot (s : State P C) (idx : ℕ) : State P C :=
  ((s.setTxnState idx txnReaped).record idx fun t => { t with reaped := true }).release idx

/-- One access of the agent's functions. -/
def agentStep (s : State P C) : Option (State P C) :=
  match s.agent with
  | .returned _ => none
  | .unschedLoad idx =>
    if (s.slot idx).txnState = txnReady then some (s.setAgent (.unschedCas idx))
    else some (s.setAgent (.unschedSpin idx))
  | .unschedCas idx =>
    if (s.slot idx).txnState = txnReady then
      some ((((s.setTxnState idx txnAborted).record idx
        fun t => { t with unscheduled := true :: t.unscheduled }).release idx).setAgent
          (.returned 1))
    else some (s.setAgent (.unschedSpin idx))
  | .unschedSpin idx =>
    if 0 ≤ (s.slot idx).txnState then some s
    else if (s.slot idx).txnState = txnComplete then
      some ((s.record idx
        fun t => { t with unscheduled := false :: t.unscheduled }).setAgent (.returned 0))
    else some (s.setAgent (.unschedReap idx))
  | .unschedReap idx =>
    some (((pntRingReapSlot s idx).record idx
      fun t => { t with unscheduled := true :: t.unscheduled }).setAgent (.returned 1))
  | .reapErrorsLoad idx =>
    if (s.slot idx).txnState = txnComplete then some (s.setAgent (.returned 0))
    else if (s.slot idx).txnState = txnAborted then some (s.setAgent (.returned 0))
    else if (s.slot idx).txnState = txnReaped then some (s.setAgent (.returned 0))
    else if (s.slot idx).txnState = txnReady then some (s.setAgent (.returned 0))
    else if 0 ≤ (s.slot idx).txnState then some (s.setAgent (.returned 0))
    else some (s.setAgent (.reapErrorsPtr idx))
  | .reapErrorsPtr idx =>
    if (s.slot idx).taskPtr = none then some (s.setAgent (.returned (-1)))
    else some (s.setAgent (.reapErrorsReap idx))
  | .reapErrorsReap idx => some ((pntRingReapSlot s idx).setAgent (.returned 1))
  | .onCpuReap idx => some ((pntRingReapSlot s idx).setAgent (.returned 0))

/-- What a party can do next: start a call, or make its next access. -/
inductive Action (P C : Type*) where
  | produce (p : P) (req : Request)
  | producer (p : P)
  | latch (c : C) (cpu : Cpu)
  | consumer (c : C) (ret : ℤ)
  /-- The agent handles the message of a pushed task and sets `task_ptr`. -/
  | attach (idx : ℕ) (taskPtr : ℕ)
  | unschedule (idx : ℕ)
  | reapErrors (idx : ℕ)
  /-- The agent handles `MSG_TASK_ON_CPU`. -/
  | taskOnCpu (idx : ℕ)
  | agent

/-- A new call of the agent, which has to be between calls and may only name a
slot it holds. -/
def agentCall (s : State P C) (idx : ℕ) (s' : State P C) : Option (State P C) :=
  match s.agent with
  | .returned _ => if idx ∈ s.held then some s' else none
  | _ => none

/-- One step of one party. -/
def step (s : State P C) : Action P C → Option (State P C)
  | .produce p req =>
    match s.producers p with
    | .returned _ => some (s.setProducer p (.loadProd req 0))
    | _ => none
  | .producer p => producerStep s p
  | .latch c cpu =>
    match s.consumers c with
    | .returned _ => some (s.setConsumer c (.loadCons cpu 0))
    | _ => none
  | .consumer c ret => consumerStep s c ret
  | .attach idx taskPtr =>
    agentCall s idx (s.setSlot idx fun sl => { sl with taskPtr := some taskPtr })
  | .unschedule idx => agentCall s idx (s.setAgent (.unschedLoad idx))
  | .reapErrors idx => agentCall s idx (s.setAgent (.reapErrorsLoad idx))
  | .taskOnCpu idx =>
    if (s.txns idx).onCpu then agentCall s idx (s.setAgent (.onCpuReap idx)) else none
  | .agent => agentStep s

/-- A ring whose indices are equal and whose slots are all reaped, with nobody
in a call. -/
structure Init (s : State P C) : Prop where
  idx : s.ring.consIdx = s.ring.prodIdx
  noWrap : s.ring.prodIdx < 2 ^ 64
  slots : ∀ j, (s.ring.slots j).txnState = txnReaped
  weird : s.weird = false
  producers : ∀ p, ∃ r, s.producers p = .returned r
  consumers : ∀ c, ∃ r, s.consumers c = .returned r
  agent : ∃ r, s.agent = .returned r
  held : s.held = []
  txns : ∀ k, s.txns k = {}

end Steps

end PntRing
