import Mathlib.Order.Basic
import GhostSched.PntRing.Model

/-!
# The invariant of the PNT ring

Every ring index has a stage, from not yet claimed to reaped. At most one index
of a slot is between these two, because a producer claims an index only after
the index one lap before it was reaped; that index alone decides what the slot
holds.

* `Stage.Ok` says what slot and history look like in each stage.
* `ProducerOk`, `ConsumerOk` and `AgentOk` say what a party knows at each of
  its program counters. What was read earlier is only known to hold while the
  index that it was read for is still current.
* `Inv` puts them together. `Inv.move` is the rule for a step that touches the
  slot and the history of one index.
-/

namespace PntRing

open Function

/-- The stages of a transaction. -/
inductive Stage where
  /-- not claimed by a producer -/
  | free
  /-- claimed, being written -/
  | filling
  | ready
  | aborted
  /-- claimed by a consumer, `txn_state` is its cpu -/
  | taken
  | complete
  | failed
  | reaped
deriving DecidableEq

namespace Stage

/-- The index owns its slot. -/
def Live (x : Stage) : Prop := x ≠ free ∧ x ≠ reaped

/-- The stages before a consumer claims the slot. -/
def Unconsumed (x : Stage) : Prop := x = filling ∨ x = ready ∨ x = aborted

/-- The stages in which the agent may hold the slot. -/
def Held (x : Stage) : Prop := x = ready ∨ x = taken ∨ x = complete ∨ x = failed

theorem Held.live {x : Stage} (h : x.Held) : x.Live := by
  rcases h with rfl | rfl | rfl | rfl <;> exact ⟨by decide, by decide⟩

end Stage

/-! ## Slots of indices -/

theorem pntRingGetSlot_eq_iff {j k : ℕ} :
    pntRingGetSlot j = pntRingGetSlot k ↔ j % nrPntRingSlots = k % nrPntRingSlots := by
  simp [pntRingGetSlot]

/-- Two indices of one slot are at least a lap apart. -/
theorem add_nrPntRingSlots_le {j k : ℕ} (h : pntRingGetSlot j = pntRingGetSlot k) (hlt : j < k) :
    j + nrPntRingSlots ≤ k := by
  rw [pntRingGetSlot_eq_iff] at h
  unfold nrPntRingSlots at *
  omega

/-- A ring whose indices are a lap apart is seen as full. -/
theorem pntRingFull_lap (consIdx : ℕ) :
    pntRingFull (consIdx + nrPntRingSlots) consIdx = true := by
  have hused : pntRingNrUsed (consIdx + nrPntRingSlots) consIdx = nrPntRingSlots := by
    unfold pntRingNrUsed nrPntRingSlots
    omega
  have hempty : pntRingNrEmpty (consIdx + nrPntRingSlots) consIdx = 0 := by
    unfold pntRingNrEmpty
    rw [hused]
    simp [nrPntRingSlots]
  simp [pntRingFull, hempty]

/-- The error states are negative and neither completion nor abort. -/
theorem latchErrorState_bounds (ret : ℤ) :
    latchErrorState ret < 0 ∧ latchErrorState ret ≠ txnComplete ∧
      latchErrorState ret ≠ txnAborted := by
  unfold latchErrorState
  split_ifs <;> decide

section Invariant

variable {P C : Type*}

/-- The slot holds what the producer was asked for. -/
def Filled (sl : Slot) (req : Request) : Prop :=
  sl.gtid = req.gtid ∧ sl.taskBarrier = req.barrier32

/-- What the history of a transaction has to satisfy. -/
structure Txn.Ok (t : Txn P C) : Prop where
  once : t.attempts.length ≤ 1
  asked : ∀ a ∈ t.attempts, ∃ p req, t.claim = some (p, req) ∧ a.gtid = req.gtid ∧
    a.taskBarrier = req.barrier32
  unscheduled : ∀ r ∈ t.unscheduled, r = true ↔ ∀ a ∈ t.attempts, a.ret ≠ 0

/-- Slot and history of an index in each stage. -/
def Stage.Ok (s : State P C) (k : ℕ) : Stage → Prop
  | .free => s.txns k = {}
  | .filling =>
    (s.slot k).txnState = txnReaped ∧ ∃ p req, s.txns k = { claim := some (p, req) }
  | .ready =>
    (s.slot k).txnState = txnReady ∧ ∃ p req c, Filled (s.slot k) req ∧
      s.txns k = { claim := some (p, req), consumer := c }
  | .aborted =>
    (s.slot k).txnState = txnAborted ∧ ∃ p req c,
      s.txns k = { claim := some (p, req), consumer := c, unscheduled := [true] }
  | .taken =>
    (0 ≤ (s.slot k).txnState ∧ (s.slot k).txnState < txnReaped) ∧
      ∃ p req c as, Filled (s.slot k) req ∧
        s.txns k = { claim := some (p, req), consumer := some c, attempts := as } ∧
        (as = [] ∨ ∃ ret, as = [⟨c, req.gtid, req.barrier32, ret⟩])
  | .complete =>
    (s.slot k).txnState = txnComplete ∧ ∃ p req c us, true ∉ us ∧
      s.txns k = { claim := some (p, req), consumer := some c, unscheduled := us, onCpu := true
                   attempts := [⟨c, req.gtid, req.barrier32, 0⟩] }
  | .failed =>
    ((s.slot k).txnState < 0 ∧ (s.slot k).txnState ≠ txnComplete ∧
        (s.slot k).txnState ≠ txnAborted) ∧
      ∃ p req c ret, ret ≠ 0 ∧
        s.txns k = { claim := some (p, req), consumer := some c
                     attempts := [⟨c, req.gtid, req.barrier32, ret⟩] }
  | .reaped => (s.txns k).Ok ∧ ((s.txns k).claim ≠ none → (s.txns k).reaped = true)

/-- No index owns the slot of `k`. -/
def SlotFree (st : ℕ → Stage) (k : ℕ) : Prop :=
  ∀ j, pntRingGetSlot j = pntRingGetSlot k → ¬ (st j).Live

/-- What a producer knows. -/
def ProducerOk (s : State P C) (st : ℕ → Stage) (p : P) : ProducerPc → Prop
  | .returned _ | .loadProd _ _ => True
  | .loadCons _ _ k => k ≤ s.ring.prodIdx
  | .loadState _ _ k =>
    k ≤ s.ring.prodIdx ∧ (s.ring.prodIdx = k → k < s.ring.consIdx + nrPntRingSlots)
  | .casProd _ _ k =>
    k ≤ s.ring.prodIdx ∧
      (s.ring.prodIdx = k → k < s.ring.consIdx + nrPntRingSlots ∧ SlotFree st k)
  | .storeGtid req k => st k = .filling ∧ (s.txns k).claim = some (p, req)
  | .storeBarrier req k =>
    st k = .filling ∧ (s.txns k).claim = some (p, req) ∧ (s.slot k).gtid = req.gtid
  | .storeTaskPtr req k | .storeReady req k =>
    st k = .filling ∧ (s.txns k).claim = some (p, req) ∧ Filled (s.slot k) req

/-- The consumer `c` has claimed the slot of `k`, now in one of the stages `X`. -/
def Consumes (s : State P C) (st : ℕ → Stage) (c : C) (k : ℕ) (X : Stage → Prop) : Prop :=
  k < s.ring.consIdx ∧ (s.txns k).consumer = some c ∧ X (st k)

/-- What a consumer knows. -/
def ConsumerOk (s : State P C) (st : ℕ → Stage) (c : C) : ConsumerPc → Prop
  | .returned _ | .loadCons _ _ | .orLatchError _ _ => True
  | .loadProd _ _ k => k ≤ s.ring.consIdx
  | .loadState _ _ k => k ≤ s.ring.consIdx ∧ (s.ring.consIdx = k → k < s.ring.prodIdx)
  | .casCons _ _ k =>
    k ≤ s.ring.consIdx ∧ (s.ring.consIdx = k → st k = .ready ∨ st k = .aborted)
  | .casState _ _ k => Consumes s st c k fun x => x = .ready ∨ x = .aborted
  | .reloadState _ _ k | .storeReaped _ _ k => Consumes s st c k (· = .aborted)
  | .storeCpu _ _ k | .loadGtid _ _ k =>
    Consumes s st c k (· = .taken) ∧ (s.txns k).attempts = []
  | .loadBarrier _ _ k gtid =>
    Consumes s st c k (· = .taken) ∧ (s.txns k).attempts = [] ∧
      ∃ p req, (s.txns k).claim = some (p, req) ∧ gtid = req.gtid
  | .runGtid _ _ k gtid taskBarrier =>
    Consumes s st c k (· = .taken) ∧ (s.txns k).attempts = [] ∧
      ∃ p req, (s.txns k).claim = some (p, req) ∧ gtid = req.gtid ∧ taskBarrier = req.barrier32
  | .storeResult _ _ k ret =>
    Consumes s st c k (· = .taken) ∧ ∃ p req, (s.txns k).claim = some (p, req) ∧
      (s.txns k).attempts = [⟨c, req.gtid, req.barrier32, ret⟩]

/-- The consumer is between its claim of the transaction and its result. -/
def ConsumerPc.Working (k : ℕ) : ConsumerPc → Prop
  | .storeCpu _ _ idx | .loadGtid _ _ idx | .loadBarrier _ _ idx _ | .runGtid _ _ idx _ _
  | .storeResult _ _ idx _ => idx = k
  | _ => False

/-- What the agent knows. -/
def AgentOk (s : State P C) (st : ℕ → Stage) : AgentPc → Prop
  | .returned _ => True
  | .unschedLoad k | .unschedCas k | .reapErrorsLoad k => k ∈ s.held
  | .unschedSpin k => k ∈ s.held ∧ st k ≠ .ready
  | .unschedReap k | .reapErrorsPtr k | .reapErrorsReap k => k ∈ s.held ∧ st k = .failed
  | .onCpuReap k => k ∈ s.held ∧ st k = .complete

/-- The invariant, for given stages of the indices. -/
structure Inv (s : State P C) (st : ℕ → Stage) : Prop where
  cons_le : s.ring.consIdx ≤ s.ring.prodIdx
  prod_le : s.ring.prodIdx ≤ s.ring.consIdx + nrPntRingSlots
  weird : s.weird = false
  free_iff : ∀ k, st k = .free ↔ s.ring.prodIdx ≤ k
  /-- the indices between the two counters -/
  ahead : ∀ k, s.ring.consIdx ≤ k → k < s.ring.prodIdx →
    (st k).Unconsumed ∧ (s.txns k).consumer = none
  behind : ∀ k, k < s.ring.consIdx → st k ≠ .filling
  /-- an index is claimed only when the one a lap before it was reaped -/
  lap : ∀ k, k + nrPntRingSlots < s.ring.prodIdx → st k = .reaped
  ok : ∀ k, (st k).Ok s k
  empty : ∀ j, (∀ k, pntRingGetSlot k = j → ¬ (st k).Live) → (s.ring.slots j).txnState = txnReaped
  producers : ∀ p, ProducerOk s st p (s.producers p)
  consumers : ∀ c, ConsumerOk s st c (s.consumers c)
  /-- a claimed transaction has a consumer that works on it -/
  working : ∀ k, st k = .taken → ∃ c, (s.txns k).consumer = some c ∧ (s.consumers c).Working k
  agent : AgentOk s st s.agent
  held : ∀ k ∈ s.held, (st k).Held

/-! ## One owner for each slot -/

section Basic

variable {s s' : State P C} {st : ℕ → Stage} {j k : ℕ} {x : Stage}

theorem Inv.lt_of_live (h : Inv s st) (hk : (st k).Live) : k < s.ring.prodIdx := by
  by_contra hge
  exact hk.1 ((h.free_iff k).mpr (Nat.le_of_not_lt hge))

/-- Two indices that own the same slot are the same. -/
theorem Inv.live_unique (h : Inv s st) (hj : (st j).Live) (hk : (st k).Live)
    (hslot : pntRingGetSlot j = pntRingGetSlot k) : j = k := by
  have hjp := h.lt_of_live hj
  have hkp := h.lt_of_live hk
  rcases Nat.lt_trichotomy j k with hlt | heq | hlt
  · have := add_nrPntRingSlots_le hslot hlt
    exact absurd (h.lap j (by omega)) hj.2
  · exact heq
  · have := add_nrPntRingSlots_le hslot.symm hlt
    exact absurd (h.lap k (by omega)) hk.2

/-- Whatever the stage, the history is as it should be. -/
theorem Stage.Ok.txn (h : x.Ok s k) : (s.txns k).Ok := by
  cases x with
  | free =>
    rw [show s.txns k = {} from h]
    exact ⟨by simp, by simp, by simp⟩
  | filling =>
    rcases h with ⟨-, p, req, ht⟩
    rw [ht]
    exact ⟨by simp, by simp, by simp⟩
  | ready =>
    rcases h with ⟨-, p, req, c, -, ht⟩
    rw [ht]
    exact ⟨by simp, by simp, by simp⟩
  | aborted =>
    rcases h with ⟨-, p, req, c, ht⟩
    rw [ht]
    exact ⟨by simp, by simp, by simp⟩
  | taken =>
    rcases h with ⟨-, p, req, c, as, -, ht, rfl | ⟨ret, rfl⟩⟩
    · rw [ht]
      exact ⟨by simp, by simp, by simp⟩
    · rw [ht]
      exact ⟨by simp, by simp, by simp⟩
  | complete =>
    rcases h with ⟨-, p, req, c, us, hus, ht⟩
    rw [ht]
    refine ⟨by simp, by simp, ?_⟩
    intro r hr
    have hne : r ≠ true := by
      intro h
      exact hus (h ▸ hr)
    simp [hne]
  | failed =>
    rcases h with ⟨-, p, req, c, ret, -, ht⟩
    rw [ht]
    exact ⟨by simp, by simp, by simp⟩
  | reaped => exact h.1

/-- An owned slot that reads as reaped is still being filled. -/
theorem Stage.Ok.eq_filling (h : x.Ok s k) (hlive : x.Live)
    (hstate : (s.slot k).txnState = txnReaped) : x = .filling := by
  cases x with
  | free => exact absurd rfl hlive.1
  | filling => rfl
  | ready | aborted | complete => exact absurd (h.1.symm.trans hstate) (by decide)
  | taken =>
    have hlt := h.1.2
    rw [hstate] at hlt
    exact absurd hlt (Int.lt_irrefl _)
  | failed =>
    have hneg := h.1.1
    rw [hstate] at hneg
    exact absurd hneg (by decide)
  | reaped => exact absurd rfl hlive.2

/-- A slot that reads as reaped, in a ring that is not full, is free for the
next index. -/
theorem Inv.slotFree (h : Inv s st) (hroom : s.ring.prodIdx < s.ring.consIdx + nrPntRingSlots)
    (hstate : (s.slot s.ring.prodIdx).txnState = txnReaped) : SlotFree st s.ring.prodIdx := by
  intro j hj hlive
  have hlt := h.lt_of_live hlive
  have hlap := add_nrPntRingSlots_le hj hlt
  have hslot : s.slot j = s.slot s.ring.prodIdx := congrArg s.ring.slots hj
  have hfill := (h.ok j).eq_filling hlive (by rw [hslot, hstate])
  exact h.behind j (by omega) hfill

/-- The on-cpu message of a slot that the agent holds tells of a success. -/
theorem Stage.Ok.eq_complete (h : x.Ok s k) (hheld : x.Held) (hmsg : (s.txns k).onCpu = true) :
    x = .complete := by
  rcases hheld with rfl | rfl | rfl | rfl
  · rcases h with ⟨-, p, req, c, -, htxn⟩
    rw [htxn] at hmsg
    cases hmsg
  · rcases h with ⟨-, p, req, c, as, -, htxn, -⟩
    rw [htxn] at hmsg
    cases hmsg
  · rfl
  · rcases h with ⟨-, p, req, c, ret, -, htxn⟩
    rw [htxn] at hmsg
    cases hmsg

end Basic

/-! ## A step that touches one index -/

/-- Only the slot and the history of `k` change, and no counter does. -/
structure Touches (s s' : State P C) (k : ℕ) : Prop where
  prodIdx : s'.ring.prodIdx = s.ring.prodIdx
  consIdx : s'.ring.consIdx = s.ring.consIdx
  slots : ∀ j, j ≠ pntRingGetSlot k → s'.ring.slots j = s.ring.slots j
  txns : ∀ j, j ≠ k → s'.txns j = s.txns j

section Move

variable {s s' : State P C} {st st' : ℕ → Stage} {j k : ℕ} {x : Stage}

/-- A stage is about the state of a slot and what its producer wrote. -/
theorem Stage.Ok.congr (h : x.Ok s k)
    (hslot : x.Live → (s'.slot k).txnState = (s.slot k).txnState ∧
      (s'.slot k).gtid = (s.slot k).gtid ∧ (s'.slot k).taskBarrier = (s.slot k).taskBarrier)
    (htxn : s'.txns k = s.txns k) : x.Ok s' k := by
  cases x with
  | free => exact htxn.trans h
  | reaped =>
    unfold Stage.Ok at h ⊢
    rw [htxn]
    exact h
  | _ =>
    rcases hslot ⟨by decide, by decide⟩ with ⟨hstate, hgtid, hbarrier⟩
    unfold Stage.Ok at h ⊢
    simp only [Filled, hstate, hgtid, hbarrier, htxn] at h ⊢
    exact h

/-- The slot of another index that owns one does not change. -/
theorem Touches.slot (ht : Touches s s' k) (h : Inv s st) (hk : (st k).Live) (hj : (st j).Live)
    (hne : j ≠ k) : s'.slot j = s.slot j :=
  ht.slots _ fun hslot => hne (h.live_unique hj hk hslot)

theorem SlotFree.move (h : SlotFree st j) (hk : (st k).Live) :
    SlotFree (update st k x) j := by
  intro i hi hlive
  by_cases hik : i = k
  · subst hik
    exact h i hi hk
  · rw [update_of_ne hik] at hlive
    exact h i hi hlive

/-- A producer is not disturbed while the counters grow and the index that it
is filling is left alone. -/
theorem ProducerOk.mono {p : P} {pc : ProducerPc} (hpc : ProducerOk s st p pc)
    (hprod : s.ring.prodIdx ≤ s'.ring.prodIdx) (hcons : s.ring.consIdx ≤ s'.ring.consIdx)
    (hfree : s'.ring.prodIdx = s.ring.prodIdx → ∀ idx, SlotFree st idx → SlotFree st' idx)
    (hfill : ∀ idx req, st idx = .filling → (s.txns idx).claim = some (p, req) →
      st' idx = .filling ∧ s'.txns idx = s.txns idx ∧ s'.slot idx = s.slot idx) :
    ProducerOk s' st' p pc := by
  cases pc with
  | returned _ | loadProd _ _ => trivial
  | loadCons _ _ idx => exact le_trans hpc hprod
  | loadState _ _ idx =>
    rcases hpc with ⟨hle, hroom⟩
    refine ⟨le_trans hle hprod, ?_⟩
    intro heq
    have := hroom (by omega)
    omega
  | casProd _ _ idx =>
    rcases hpc with ⟨hle, hroom⟩
    refine ⟨le_trans hle hprod, ?_⟩
    intro heq
    rcases hroom (by omega) with ⟨hlt, hslot⟩
    exact ⟨by omega, hfree (by omega) idx hslot⟩
  | storeGtid req idx =>
    rcases hfill idx req hpc.1 hpc.2 with ⟨hst, htxn, -⟩
    exact ⟨hst, by rw [htxn, hpc.2]⟩
  | storeBarrier req idx =>
    rcases hfill idx req hpc.1 hpc.2.1 with ⟨hst, htxn, hslot⟩
    exact ⟨hst, by rw [htxn, hpc.2.1], by rw [hslot, hpc.2.2]⟩
  | storeTaskPtr req idx | storeReady req idx =>
    rcases hfill idx req hpc.1 hpc.2.1 with ⟨hst, htxn, hslot⟩
    exact ⟨hst, by rw [htxn, hpc.2.1], hslot ▸ hpc.2.2⟩

theorem ProducerOk.move {p : P} {pc : ProducerPc} (hpc : ProducerOk s st p pc) (h : Inv s st)
    (ht : Touches s s' k) (hk : (st k).Live)
    (hown : st k = .filling → ∀ req, (s.txns k).claim ≠ some (p, req)) :
    ProducerOk s' (update st k x) p pc := by
  refine hpc.mono ht.prodIdx.ge ht.consIdx.ge (fun _ idx hfree => hfree.move hk) ?_
  intro idx req hst hclaim
  have hne : idx ≠ k := by
    intro heq
    subst heq
    exact hown hst req hclaim
  refine ⟨by rw [update_of_ne hne, hst], ht.txns idx hne, ht.slot h hk ?_ hne⟩
  rw [hst]
  exact ⟨by decide, by decide⟩

/-- What a step of another party may do to an index that a consumer is at. -/
structure Yields (s s' : State P C) (k : ℕ) (y x : Stage) : Prop where
  ready : y = .ready → x = .ready ∨ x = .aborted
  aborted : y = .aborted → x = .aborted
  taken : y = .taken → x = .taken
  claim : (s'.txns k).claim = (s.txns k).claim
  consumer : (s'.txns k).consumer = (s.txns k).consumer
  attempts : (s'.txns k).attempts = (s.txns k).attempts

theorem Yields.of_eq (htxn : s'.txns k = s.txns k) : Yields s s' k x x :=
  ⟨.inl, id, id, by rw [htxn], by rw [htxn], by rw [htxn]⟩

/-- No consumer expects the stage to stay. -/
theorem Yields.of_ne {y : Stage} (hready : y ≠ .ready) (haborted : y ≠ .aborted)
    (htaken : y ≠ .taken) (hclaim : (s'.txns k).claim = (s.txns k).claim)
    (hconsumer : (s'.txns k).consumer = (s.txns k).consumer)
    (hattempts : (s'.txns k).attempts = (s.txns k).attempts) : Yields s s' k y x :=
  ⟨(absurd · hready), (absurd · haborted), (absurd · htaken), hclaim, hconsumer, hattempts⟩

/-- A consumer is not disturbed while the counters grow and the indices it has
claimed stay in the stage that it expects. -/
theorem ConsumerOk.mono {c : C} {pc : ConsumerPc} (hpc : ConsumerOk s st c pc)
    (hprod : s.ring.prodIdx ≤ s'.ring.prodIdx) (hcons : s.ring.consIdx ≤ s'.ring.consIdx)
    (hhead : s'.ring.consIdx = s.ring.consIdx → ∀ idx, s.ring.consIdx = idx →
      st idx = .ready ∨ st idx = .aborted → st' idx = .ready ∨ st' idx = .aborted)
    (hown : ∀ idx, idx < s.ring.consIdx → (s.txns idx).consumer = some c →
      Yields s s' idx (st idx) (st' idx)) :
    ConsumerOk s' st' c pc := by
  have hready : ∀ idx, Consumes s st c idx (fun x => x = .ready ∨ x = .aborted) →
      Consumes s' st' c idx fun x => x = .ready ∨ x = .aborted := by
    intro idx hidx
    rcases hidx with ⟨hlt, hc, hst⟩
    have hy := hown idx hlt hc
    refine ⟨by omega, hy.consumer.trans hc, ?_⟩
    rcases hst with hst | hst
    · exact hy.ready hst
    · exact .inr (hy.aborted hst)
  have haborted : ∀ idx, Consumes s st c idx (· = .aborted) →
      Consumes s' st' c idx (· = .aborted) := by
    intro idx hidx
    rcases hidx with ⟨hlt, hc, hst⟩
    have hy := hown idx hlt hc
    exact ⟨by omega, hy.consumer.trans hc, hy.aborted hst⟩
  have htaken : ∀ idx, Consumes s st c idx (· = .taken) →
      Consumes s' st' c idx (· = .taken) ∧ (s'.txns idx).claim = (s.txns idx).claim ∧
        (s'.txns idx).attempts = (s.txns idx).attempts := by
    intro idx hidx
    rcases hidx with ⟨hlt, hc, hst⟩
    have hy := hown idx hlt hc
    exact ⟨⟨by omega, hy.consumer.trans hc, hy.taken hst⟩, hy.claim, hy.attempts⟩
  cases pc with
  | returned _ | loadCons _ _ | orLatchError _ _ => trivial
  | loadProd _ _ idx => exact le_trans hpc hcons
  | loadState _ _ idx =>
    rcases hpc with ⟨hle, hlt⟩
    refine ⟨le_trans hle hcons, ?_⟩
    intro heq
    have := hlt (by omega)
    omega
  | casCons _ _ idx =>
    rcases hpc with ⟨hle, hst⟩
    refine ⟨le_trans hle hcons, ?_⟩
    intro heq
    have hidx : s.ring.consIdx = idx := by omega
    exact hhead (by omega) idx hidx (hst hidx)
  | casState _ _ idx => exact hready idx hpc
  | reloadState _ _ idx | storeReaped _ _ idx => exact haborted idx hpc
  | storeCpu _ _ idx | loadGtid _ _ idx =>
    rcases htaken idx hpc.1 with ⟨hX, -, hatt⟩
    exact ⟨hX, by rw [hatt, hpc.2]⟩
  | loadBarrier _ _ idx gtid | runGtid _ _ idx gtid taskBarrier =>
    rcases htaken idx hpc.1 with ⟨hX, hclaim, hatt⟩
    refine ⟨hX, by rw [hatt, hpc.2.1], ?_⟩
    rw [hclaim]
    exact hpc.2.2
  | storeResult _ _ idx ret =>
    rcases htaken idx hpc.1 with ⟨hX, hclaim, hatt⟩
    refine ⟨hX, ?_⟩
    rw [hclaim, hatt]
    exact hpc.2

/-- A consumer is not disturbed by a step on an index that another consumer
has, nor by one that leaves its stage as the consumer expects it. -/
theorem ConsumerOk.move {c : C} {pc : ConsumerPc} (hpc : ConsumerOk s st c pc)
    (ht : Touches s s' k)
    (hown : (k < s.ring.consIdx ∧ (s.txns k).consumer ≠ some c) ∨ Yields s s' k (st k) x) :
    ConsumerOk s' (update st k x) c pc := by
  refine hpc.mono ht.prodIdx.ge ht.consIdx.ge ?_ ?_
  · intro _ idx hidx hst
    rw [update_apply]
    split_ifs with hik
    · subst hik
      rcases hown with hown | hy
      · omega
      · rcases hst with hst | hst
        · exact hy.ready hst
        · exact .inr (hy.aborted hst)
    · exact hst
  · intro idx _ hc
    rw [update_apply]
    split_ifs with hik
    · subst hik
      rcases hown with hown | hy
      · exact absurd hc hown.2
      · exact hy
    · exact .of_eq (ht.txns idx hik)

/-- The agent is not disturbed by a step of another party on an index, if that
step leaves the results alone. -/
theorem AgentOk.move {pc : AgentPc} (hpc : AgentOk s st pc) (hheld : s.held ⊆ s'.held)
    (hkeep : k ∈ s.held → (x = .ready → st k = .ready) ∧ (st k = .failed → x = .failed) ∧
      (st k = .complete → x = .complete)) :
    AgentOk s' (update st k x) pc := by
  have hcase : ∀ idx, idx ∈ s.held →
      (update st k x idx = .ready → st idx = .ready) ∧
        (st idx = .failed → update st k x idx = .failed) ∧
        (st idx = .complete → update st k x idx = .complete) := by
    intro idx hidx
    rw [update_apply]
    split_ifs with hik
    · subst hik
      exact hkeep hidx
    · exact ⟨id, id, id⟩
  cases pc with
  | returned _ => trivial
  | unschedLoad idx | unschedCas idx | reapErrorsLoad idx => exact hheld hpc
  | unschedSpin idx => exact ⟨hheld hpc.1, fun h => hpc.2 ((hcase idx hpc.1).1 h)⟩
  | unschedReap idx | reapErrorsPtr idx | reapErrorsReap idx =>
      exact ⟨hheld hpc.1, (hcase idx hpc.1).2.1 hpc.2⟩
  | onCpuReap idx => exact ⟨hheld hpc.1, (hcase idx hpc.1).2.2 hpc.2⟩

end Move

end Invariant

end PntRing
