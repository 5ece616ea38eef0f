import Mathlib.Data.List.Nodup
import Mathlib.Data.Nat.Notation
import Mathlib.Logic.Function.Basic

/-!
# Transactions

The shared word and the ownership word of the transaction of each cpu, with the
functions of the agents that open, abort and commit transactions.

* `step` is one atomic operation of an agent or of the kernel, so a run of it is an
  interleaving of any number of agents and the kernel. A transaction belongs to the
  agent in `user` until that agent hands it over.
* `opening`, `claimed` and `firstAbort` are not in the source: what the last `Open`
  asked for and whether it is over, whether the kernel has claimed that opening, and
  what its first `Abort` returned.
* `Careful` is what the callers have to keep to.
-/

namespace Transactions

open Function

/-! ## Model -/

/-- The values of `ghost_txn_state` that say that a transaction is committed. -/
inductive Code where
  | complete
  | aborted
  | targetOncpu
  | targetStale
  | targetNotFound
  | targetNotRunnable
  | agentStale
  | cpuOffline
  | cpuUnavail
  | invalidFlags
  | invalidTarget
  | notPermitted
  | invalidCpu
  | noAgent
  | unsupportedVersion
  | poisoned
  deriving DecidableEq

inductive TxnState (C : Type*) where
  | ready
  | claimed (cpu : C)
  | committed (code : Code)
  deriving DecidableEq

/-- The fields that `Open` stores. -/
structure Fields (G : Type*) where
  gtid : G
  taskBarrier : ℕ
  agentBarrier : ℕ
  runFlags : ℕ
  commitFlags : ℕ
  deriving DecidableEq

/-- `RunRequestOptions`. -/
structure Options (G O : Type*) where
  fields : Fields G
  /-- `none` is `kSyncGroupNotOwned`. -/
  syncGroupOwner : Option O
  allowTxnTargetOnCpu : Bool

structure Txn (C G O : Type*) where
  state : TxnState C
  syncGroupOwner : Option O
  fields : Fields G
  allowTxnTargetOnCpu : Bool

/-- What a function has returned. -/
inductive Result (C : Type*) where
  | opened (c : C)
  | aborted (c : C) (success : Bool)
  | committed (cs : List C) (success : Bool)
  | synced (cs : List C) (success : Bool)

/-- Where an agent is. -/
inductive Call (C G O : Type*) where
  | idle
  | returned (result : Result C)
  /-- A `CHECK` has failed. -/
  | crashed
  /-- `GHOST_ERROR`: the kernel gave a code that is not expected. -/
  | error
  /-- In `Open`, in the loop that takes the ownership. -/
  | openOwner (c : C) (options : Options G O)
  /-- Before the `CHECK`s of the ownership and of `committed`. -/
  | openCheck (c : C) (options : Options G O)
  /-- Before the stores. -/
  | openStore (c : C) (options : Options G O)
  /-- Before the last `CHECK` and the store of the state. -/
  | openReady (c : C)
  /-- In `Abort`, before the load of the state. -/
  | abortLoad (c : C)
  /-- Before the exchange. -/
  | abortExchange (c : C)
  /-- After an exchange that succeeded. -/
  | abortRelease (c : C)
  /-- In `CommitRunRequests`, with the cpus that `CompleteRunRequest` is still to be called for. -/
  | committing (cs rest : List C) (success : Bool)
  /-- In `SyncCommit`. -/
  | syncSubmit (cs : List C)
  /-- In the loop after a `SyncCommit` that failed. -/
  | syncComplete (cs rest : List C) (failureDetected : Bool)
  /-- In `ReleaseSyncRequests`. -/
  | syncRelease (cs rest : List C)

/-- What the last `Open` of a transaction asked for. -/
inductive Opening (O : Type*) where
  /-- It is over. -/
  | closed
  /-- `Open` has not returned yet. -/
  | opening
  | plain
  | group (owner : O)
  deriving DecidableEq

structure State (A C G O : Type*) where
  txn : C → Txn C G O
  call : A → Call C G O
  user : C → Option A
  opening : C → Opening O
  claimed : C → Bool
  firstAbort : C → Option Bool

inductive Action (A C G O : Type*) where
  | callOpen (a : A) (c : C) (options : Options G O)
  /-- One round of the loop; the weak exchange may fail for no reason. -/
  | takeOwner (a : A) (spurious : Bool)
  | checkOpen (a : A)
  | storeFields (a : A)
  | storeReady (a : A)
  | callAbort (a : A) (c : C)
  | load (a : A)
  | exchange (a : A)
  | releaseAborted (a : A)
  /-- `Submit` and `Commit`, and the same for a list of cpus. -/
  | callCommit (a : A) (cs : List C)
  /-- One `CompleteRunRequest`, or the return of the loop. -/
  | complete (a : A)
  | callSync (a : A) (cs : List C)
  /-- `SyncCommit` returns. -/
  | syncCommit (a : A) (success : Bool)
  | completeSync (a : A)
  | releaseSync (a : A)
  /-- An agent stops using a transaction. -/
  | handOver (a : A) (c : C)
  /-- The kernel claims a transaction for a cpu, and commits it. -/
  | claim (c cpu : C)
  | commit (c : C) (code : Code)

def TxnState.IsCommitted {C : Type*} : TxnState C → Prop
  | .committed _ => True
  | _ => False

instance {C : Type*} : (x : TxnState C) → Decidable x.IsCommitted
  | .committed _ => .isTrue trivial
  | .ready | .claimed _ => .isFalse id

/-- The failures that `CompleteRunRequest` expects. -/
def Code.expected (online allowTxnTargetOnCpu : Bool) : Code → Bool
  | .targetNotFound | .targetStale | .agentStale | .cpuUnavail | .poisoned | .aborted => true
  | .noAgent => !online
  | .targetOncpu => allowTxnTargetOnCpu
  | _ => false

/-- The cpus whose transactions a call uses. -/
def Call.uses {C G O : Type*} : Call C G O → List C
  | .idle | .crashed | .error => []
  | .returned (.opened c) | .returned (.aborted c _) => [c]
  | .returned (.committed cs _) | .returned (.synced cs _) => cs
  | .openOwner c _ | .openCheck c _ | .openStore c _ | .openReady c => [c]
  | .abortLoad c | .abortExchange c | .abortRelease c => [c]
  | .committing cs _ _ | .syncSubmit cs | .syncComplete cs _ _ | .syncRelease cs _ => cs

/-- The next function can be called. -/
def Call.free {C G O : Type*} : Call C G O → Bool
  | .idle | .returned _ => true
  | _ => false

section Step

variable {A C G O : Type*} [DecidableEq A] [DecidableEq C] [DecidableEq O]

namespace State

def setTxn (s : State A C G O) (c : C) (x : Txn C G O) : State A C G O :=
  { s with txn := update s.txn c x }

def setCall (s : State A C G O) (a : A) (x : Call C G O) : State A C G O :=
  { s with call := update s.call a x }

def setOpening (s : State A C G O) (c : C) (x : Opening O) : State A C G O :=
  { s with opening := update s.opening c x }

/-- Call a function on the transactions of some cpus, which the agent uses from now on. -/
def start (s : State A C G O) (a : A) (cs : List C) (x : Call C G O) : Option (State A C G O) :=
  if (s.call a).free = true ∧ ∀ c ∈ cs, s.user c = none ∨ s.user c = some a then
    some { s.setCall a x with user := fun c => if c ∈ cs then some a else s.user c }
  else none

/-- A `CHECK`, and what comes after it. -/
def check (s : State A C G O) (a : A) (p : Prop) [Decidable p] (next : State A C G O) :
    State A C G O :=
  if p then next else s.setCall a .crashed

/-- The result of the first `Abort` is kept. -/
def aborts (s : State A C G O) (c : C) (success : Bool) : State A C G O :=
  { s with
    firstAbort := update s.firstAbort c (some ((s.firstAbort c).getD success)) }

end State

/-- `SyncCommit` has succeeded: every transaction is complete and nobody owns it. -/
def commitAll (s : State A C G O) (cs : List C) : State A C G O :=
  { s with
    txn := fun c =>
      if c ∈ cs then { s.txn c with state := .committed .complete, syncGroupOwner := none }
      else s.txn c
    opening := fun c => if c ∈ cs then .closed else s.opening c
    claimed := fun c => if c ∈ cs then true else s.claimed c }

/-- A transaction that was opened without an owner is over when it is committed. -/
def Opening.commit : Opening O → Opening O
  | .plain => .closed
  | x => x

def step (online : Bool) (s : State A C G O) : Action A C G O → Option (State A C G O)
  | .callOpen a c options =>
    let x : Call C G O :=
      if options.syncGroupOwner.isSome then .openOwner c options else .openCheck c options
    (s.start a [c] x).map (·.setOpening c .opening)
  | .takeOwner a spurious =>
    match s.call a with
    | .openOwner c options =>
      match (s.txn c).syncGroupOwner with
      | none =>
        if spurious then some s
        else some ((s.setTxn c { s.txn c with syncGroupOwner := options.syncGroupOwner }).setCall a
            (.openCheck c options))
      | some owner =>
        if some owner = options.syncGroupOwner then some (s.setCall a (.openCheck c options))
        -- the owner has to be waited for
        else some s
    | _ => none
  | .checkOpen a =>
    match s.call a with
    | .openCheck c options =>
      some (s.check a ((s.txn c).syncGroupOwner.isSome = options.syncGroupOwner.isSome ∧
          (s.txn c).state.IsCommitted)
        (s.setCall a (.openStore c options)))
    | _ => none
  | .storeFields a =>
    match s.call a with
    | .openStore c options =>
      some ((s.setTxn c { s.txn c with
          fields := options.fields
          allowTxnTargetOnCpu := options.allowTxnTargetOnCpu }).setCall a (.openReady c))
    | _ => none
  | .storeReady a =>
    match s.call a with
    | .openReady c =>
      let x : Opening O :=
        match (s.txn c).syncGroupOwner with
        | none => .plain
        | some owner => .group owner
      some (s.check a
        ((s.txn c).allowTxnTargetOnCpu = true → (s.txn c).syncGroupOwner.isSome = true)
        { ((s.setTxn c { s.txn c with state := .ready }).setCall a
          (.returned (.opened c))).setOpening
            c x with
          claimed := update s.claimed c false
          firstAbort := update s.firstAbort c none })
    | _ => none
  | .callAbort a c => s.start a [c] (.abortLoad c)
  | .load a =>
    match s.call a with
    | .abortLoad c =>
      match (s.txn c).state with
      | .ready => some (s.setCall a (.abortExchange c))
      | _ => some ((s.aborts c false).setCall a (.returned (.aborted c false)))
    | _ => none
  | .exchange a =>
    match s.call a with
    | .abortExchange c =>
      match (s.txn c).state with
      | .ready =>
        some (((s.setTxn c { s.txn c with state := .committed .aborted }).aborts c true).setCall a
          (.abortRelease c))
      | _ => some ((s.aborts c false).setCall a (.returned (.aborted c false)))
    | _ => none
  | .releaseAborted a =>
    match s.call a with
    | .abortRelease c =>
      some (((s.setTxn c { s.txn c with syncGroupOwner := none }).setOpening c .closed).setCall a
        (.returned (.aborted c true)))
    | _ => none
  | .callCommit a cs => s.start a cs (.committing cs cs true)
  | .complete a =>
    match s.call a with
    | .committing cs [] success => some (s.setCall a (.returned (.committed cs success)))
    | .committing cs (c :: rest) success =>
      match (s.txn c).state with
      | .committed code =>
        let s' := s.setOpening c (s.opening c).commit
        if code = .complete then some (s'.setCall a (.committing cs rest success))
        else if code.expected online (s.txn c).allowTxnTargetOnCpu then
          some (s'.setCall a (.committing cs rest false))
        else some (s.setCall a .error)
      -- it is waited for
      | _ => none
    | _ => none
  | .callSync a cs => s.start a cs (.syncSubmit cs)
  | .syncCommit a success =>
    match s.call a with
    | .syncSubmit cs =>
      if success then
        -- no transaction of the group has failed before
        if ∀ c ∈ cs, ¬ (s.txn c).state.IsCommitted ∨ (s.txn c).state = .committed .complete then
          some ((commitAll s cs).setCall a (.returned (.synced cs true)))
        else none
      else if ∃ c ∈ cs, (s.txn c).state.IsCommitted ∧ (s.txn c).state ≠ .committed .complete then
        some (s.setCall a (.syncComplete cs cs false))
      else none
    | _ => none
  | .completeSync a =>
    match s.call a with
    | .syncComplete cs [] failureDetected =>
      some (s.check a (failureDetected = true) (s.setCall a (.syncRelease cs cs)))
    | .syncComplete cs (c :: rest) failureDetected =>
      match (s.txn c).state with
      | .committed code =>
        if code = .complete then some (s.setCall a (.syncComplete cs rest failureDetected))
        else if code.expected online (s.txn c).allowTxnTargetOnCpu then
          some (s.setCall a (.syncComplete cs rest true))
        else some (s.setCall a .error)
      | _ => none
    | _ => none
  | .releaseSync a =>
    match s.call a with
    | .syncRelease cs [] => some (s.setCall a (.returned (.synced cs false)))
    | .syncRelease cs (c :: rest) =>
      some (s.check a ((s.txn c).state.IsCommitted ∧ (s.txn c).syncGroupOwner.isSome = true)
        (((s.setTxn c { s.txn c with syncGroupOwner := none }).setOpening c .closed).setCall a
          (.syncRelease cs rest)))
    | _ => none
  | .handOver a c =>
    if (s.call a).free = true ∧ s.user c = some a ∧ (s.txn c).state.IsCommitted ∧
        (s.txn c).syncGroupOwner.isNone = true then
      some { s.setCall a .idle with user := update s.user c none }
    else none
  | .claim c cpu =>
    match (s.txn c).state with
    | .ready =>
      some { s.setTxn c { s.txn c with state := .claimed cpu } with
        claimed := update s.claimed c true }
    | _ => none
  | .commit c code =>
    match (s.txn c).state with
    | .claimed _ => some (s.setTxn c { s.txn c with state := .committed code })
    | _ => none

end Step

variable {A C G O : Type*}

/-- Nothing was opened yet. -/
structure Init (s : State A C G O) : Prop where
  state : ∀ c, (s.txn c).state.IsCommitted
  owner : ∀ c, (s.txn c).syncGroupOwner = none
  call : ∀ a, s.call a = .idle
  opening : ∀ c, s.opening c = .closed
  claimed : ∀ c, s.claimed c = true
  firstAbort : ∀ c, s.firstAbort c = none

def Opening.isGroup : Opening O → Bool
  | .group _ => true
  | _ => false

/-- What the callers have to keep to. A transaction is opened again only after it was committed,
and with an owner if somebody still owns it. A group consists of transactions that were opened
with an owner and not aborted; a `CpuList` holds no cpu twice. -/
def Careful (s : State A C G O) : Action A C G O → Prop
  | .callOpen _ c options =>
    (s.txn c).state.IsCommitted ∧
      (options.syncGroupOwner = none → (s.txn c).syncGroupOwner = none) ∧
      (options.allowTxnTargetOnCpu = true → options.syncGroupOwner.isSome = true)
  | .callSync _ cs => cs.Nodup ∧ ∀ c ∈ cs, (s.opening c).isGroup = true
  | _ => True

end Transactions
