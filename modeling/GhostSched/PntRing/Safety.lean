import GhostSched.PntRing.Preserve

/-!
# Safety of the PNT ring

What holds in every state that producers, consumers and the agent can reach
from an empty ring, however their accesses interleave.
-/

namespace PntRing

open Transition Function

section Safety

variable {P C : Type*} {s₀ s s' : State P C}

/-- An empty ring satisfies the invariant: the indices below the counters are
reaped, the others free. -/
theorem Init.inv (h : Init s₀) :
    Inv s₀ fun k => if s₀.ring.prodIdx ≤ k then .free else .reaped := by
  refine ⟨h.idx.le, by rw [h.idx]; exact Nat.le_add_right .., h.weird, ?_, ?_, ?_, ?_, ?_, ?_, ?_,
    ?_, ?_, ?_, ?_⟩
  · intro k
    split_ifs with hk <;> simp [hk]
  · intro k hc hp
    rw [h.idx] at hc
    omega
  · intro k _
    split_ifs <;> decide
  · intro k hk
    rw [if_neg (by omega)]
  · intro k
    split_ifs
    · exact h.txns k
    · unfold Stage.Ok
      rw [h.txns k]
      exact ⟨⟨by simp, by simp, by simp⟩, by simp⟩
  · exact fun j _ => h.slots j
  · intro p
    rcases h.producers p with ⟨r, hr⟩
    rw [hr]
    trivial
  · intro c
    rcases h.consumers c with ⟨r, hr⟩
    rw [hr]
    trivial
  · intro k hk
    split_ifs at hk
  · rcases h.agent with ⟨r, hr⟩
    rw [hr]
    trivial
  · rw [h.held]
    simp

/-- The invariant holds in every state reached. -/
theorem Init.reachable_inv [DecidableEq P] [DecidableEq C] (h₀ : Init s₀) (h : Steps step s₀ s) :
    ∃ st, Inv s st := by
  refine h.invariant (P := fun s => ∃ st, Inv s st) ?_ ⟨_, h₀.inv⟩
  intro s a s' hs hstep
  rcases hs with ⟨st, hinv⟩
  exact hinv.step hstep

/-! ## What stays in the history -/

/-- A claim and the results of unscheduling are never taken back. -/
def Txn.Keeps (t t' : Txn P C) : Prop :=
  (t.claim ≠ none → t'.claim = t.claim) ∧ t.unscheduled ⊆ t'.unscheduled

theorem Txn.Keeps.refl (t : Txn P C) : t.Keeps t := ⟨fun _ => rfl, List.Subset.refl _⟩

variable {t : Txn P C}

theorem Txn.Keeps.trans {t' t'' : Txn P C} (h : t.Keeps t') (h' : t'.Keeps t'') :
    t.Keeps t'' := by
  refine ⟨?_, List.Subset.trans h.2 h'.2⟩
  intro hclaim
  have heq := h.1 hclaim
  rw [h'.1 (by rw [heq]; exact hclaim), heq]

/-- A step that adds to the history of one index keeps the history of all. -/
theorem keeps_of_update {idx : ℕ} (hs : s'.txns = update s.txns idx t) (ht : (s.txns idx).Keeps t)
    (k : ℕ) : (s.txns k).Keeps (s'.txns k) := by
  rw [hs]
  rw [update_apply]
  split_ifs with hk
  · subst hk
    exact ht
  · exact .refl _

variable {st : ℕ → Stage} {p : P}

theorem producerStep_keeps [DecidableEq P] (h : Inv s st) (hs : producerStep s p = some s')
    (k : ℕ) : (s.txns k).Keeps (s'.txns k) := by
  unfold producerStep at hs
  split at hs
  case h_5 req i idx _ =>
    split_ifs at hs with heq
    · cases hs
      -- the index was free, so it had no claim
      refine keeps_of_update rfl ?_ k
      refine ⟨?_, List.Subset.refl _⟩
      intro hclaim
      have hok := h.ok idx
      rw [(h.free_iff idx).mpr heq.le] at hok
      rw [show s.txns idx = {} from hok] at hclaim
      exact absurd rfl hclaim
    · cases hs
      exact .refl _
  all_goals
    try split_ifs at hs
    all_goals
      cases hs
      try exact .refl _

theorem consumerStep_keeps [DecidableEq C] {c : C} {ret : ℤ}
    (hs : consumerStep s c ret = some s') (k : ℕ) : (s.txns k).Keeps (s'.txns k) := by
  unfold consumerStep at hs
  split at hs
  all_goals
    try split_ifs at hs
    all_goals
      cases hs
      try first
      | exact .refl _
      | refine keeps_of_update rfl ?_ k
        exact ⟨fun _ => rfl, List.Subset.refl _⟩

theorem agentStep_keeps (hs : agentStep s = some s') (k : ℕ) :
    (s.txns k).Keeps (s'.txns k) := by
  have hreap : ∀ idx, (s.txns k).Keeps ((pntRingReapSlot s idx).txns k) := by
    intro idx
    refine keeps_of_update rfl ?_ k
    exact ⟨fun _ => rfl, List.Subset.refl _⟩
  unfold agentStep at hs
  split at hs
  case h_5 idx _ =>
    cases hs
    refine (hreap idx).trans ?_
    refine keeps_of_update rfl ?_ k
    exact ⟨fun _ => rfl, List.subset_cons_self ..⟩
  all_goals
    try split_ifs at hs
    all_goals
      cases hs
      try first
      | exact .refl _
      | exact hreap _
      | refine keeps_of_update rfl ?_ k
        exact ⟨fun _ => rfl, List.subset_cons_self ..⟩

/-- No step takes back a claim or the result of an unschedule. -/
theorem step_keeps [DecidableEq P] [DecidableEq C] {a : Action P C} (h : Inv s st)
    (hs : step s a = some s') (k : ℕ) : (s.txns k).Keeps (s'.txns k) := by
  have hcall : ∀ idx t, agentCall s idx t = some s' → t.txns = s.txns →
      (s.txns k).Keeps (s'.txns k) := by
    intro idx t hs ht
    unfold agentCall at hs
    split at hs
    · split_ifs at hs
      cases hs
      rw [ht]
      exact .refl _
    · cases hs
  cases a with
  | produce p req | latch c cpu =>
    unfold step at hs
    dsimp only at hs
    split at hs <;> cases hs
    exact .refl _
  | producer p => exact producerStep_keeps h hs k
  | consumer c ret => exact consumerStep_keeps hs k
  | attach idx taskPtr | unschedule idx | reapErrors idx => exact hcall idx _ hs rfl
  | taskOnCpu idx =>
    unfold step at hs
    dsimp only at hs
    split_ifs at hs
    exact hcall idx _ hs rfl
  | agent => exact agentStep_keeps hs k

/-- What is in the history of an index stays there in every later state. -/
theorem steps_keeps [DecidableEq P] [DecidableEq C] (h : Inv s st) (hs : Steps step s s') (k : ℕ) :
    (s.txns k).Keeps (s'.txns k) := by
  have hall : (∃ st, Inv s' st) ∧ (s.txns k).Keeps (s'.txns k) := by
    refine hs.invariant (P := fun t => (∃ st, Inv t st) ∧ (s.txns k).Keeps (t.txns k)) ?_
      ⟨⟨st, h⟩, .refl _⟩
    intro t a t' ht hstep
    rcases ht with ⟨⟨st', hinv⟩, hkeep⟩
    exact ⟨hinv.step hstep, hkeep.trans (step_keeps hinv hstep k)⟩
  exact hall.2

/-! ## Stores of the producers -/

/-- The producer is writing to the slot of `k`. -/
def ProducerPc.Stores (k : ℕ) : ProducerPc → Prop
  | .storeGtid _ idx | .storeBarrier _ idx | .storeTaskPtr _ idx | .storeReady _ idx => idx = k
  | _ => False

/-- A producer only writes to a slot when it is filling it. -/
theorem producerStep_slots [DecidableEq P] {j : Fin nrPntRingSlots}
    (hs : producerStep s p = some s') (hj : s'.ring.slots j ≠ s.ring.slots j) :
    ∃ k, pntRingGetSlot k = j ∧ (s.producers p).Stores k := by
  have hwrite : ∀ idx f, update s.ring.slots (pntRingGetSlot idx) f j ≠ s.ring.slots j →
      pntRingGetSlot idx = j := by
    intro idx f hne
    by_contra hidx
    exact hne (update_of_ne (Ne.symm hidx) ..)
  unfold producerStep at hs
  split at hs
  case h_6 req idx hpc | h_7 req idx hpc | h_8 req idx hpc | h_9 req idx hpc =>
    cases hs
    exact ⟨idx, hwrite idx _ hj, by rw [hpc]; rfl⟩
  all_goals
    try split_ifs at hs
    all_goals
      cases hs
      try exact absurd rfl hj

variable {k : ℕ}

/-- A producer that writes for `k` has claimed `k` and is still filling it. -/
theorem Inv.stores (h : Inv s st) (hp : (s.producers p).Stores k) :
    st k = .filling ∧ ∃ req, (s.txns k).claim = some (p, req) := by
  have hok := h.producers p
  cases hpc : s.producers p <;> rw [hpc] at hok hp
  case storeGtid req idx =>
    rcases hp
    exact ⟨hok.1, req, hok.2⟩
  case storeBarrier req idx | storeTaskPtr req idx | storeReady req idx =>
    rcases hp
    exact ⟨hok.1, req, hok.2.1⟩
  all_goals exact absurd hp id

/-- An index that was claimed and not reaped owns its slot. -/
theorem Inv.live_of_claim (h : Inv s st) (hclaim : (s.txns k).claim ≠ none)
    (hreaped : (s.txns k).reaped = false) : (st k).Live := by
  have hok := h.ok k
  constructor
  · intro heq
    rw [heq] at hok
    rw [show s.txns k = {} from hok] at hclaim
    exact hclaim rfl
  · intro heq
    rw [heq] at hok
    rw [hok.2 hclaim] at hreaped
    cases hreaped

/-! ## The protocol -/

/-- An unschedule was answered with true exactly when the transaction has not
been latched successfully, neither now nor in any later state. -/
theorem unscheduled_iff [DecidableEq P] [DecidableEq C] {r : Bool} (h : Inv s st)
    (hr : r ∈ (s.txns k).unscheduled) :
    r = true ↔ ∀ s', Steps step s s' → ∀ a ∈ (s'.txns k).attempts, a.ret ≠ 0 := by
  constructor
  · intro htrue s' hs a ha
    have hinv : ∃ st', Inv s' st' := by
      refine hs.invariant (P := fun t => ∃ st, Inv t st) ?_ ⟨st, h⟩
      intro t b t' ht hstep
      rcases ht with ⟨st', hinv⟩
      exact hinv.step hstep
    rcases hinv with ⟨st', hinv⟩
    have hmem := (steps_keeps h hs k).2 hr
    exact ((hinv.ok k).txn.unscheduled r hmem).mp htrue a ha
  · intro hnone
    exact ((h.ok k).txn.unscheduled r hr).mpr (hnone s Steps.refl)

/-- The PNT ring keeps its protocol in every state reached from an empty ring.

* The counters are at most `NR_PNT_RING_SLOTS` apart.
* A transaction is attempted at most once, with the gtid and the barrier of
  the producer that claimed its index; that claim never changes.
* An unschedule returned true exactly when the transaction is never latched
  successfully; it waits only for a consumer that has claimed the transaction.
* A producer writes to a slot only while it fills it: the slot then has no
  other index that is claimed and not yet reaped. -/
theorem ring_protocol [DecidableEq P] [DecidableEq C] (h₀ : Init s₀) (h : Steps step s₀ s) :
    (s.ring.consIdx ≤ s.ring.prodIdx ∧ s.ring.prodIdx - s.ring.consIdx ≤ nrPntRingSlots) ∧
    (∀ k, (s.txns k).attempts.length ≤ 1 ∧ ∀ a ∈ (s.txns k).attempts,
      ∃ p req, (s.txns k).claim = some (p, req) ∧ a.gtid = req.gtid ∧
        a.taskBarrier = req.barrier32 ∧
        ∀ s', Steps step s s' → (s'.txns k).claim = some (p, req)) ∧
    (∀ k, ∀ r ∈ (s.txns k).unscheduled,
      r = true ↔ ∀ s', Steps step s s' → ∀ a ∈ (s'.txns k).attempts, a.ret ≠ 0) ∧
    (∀ k, s.agent = .unschedSpin k → 0 ≤ (s.slot k).txnState →
      ∃ c, (s.consumers c).Working k) ∧
    (∀ p s', producerStep s p = some s' → ∀ k, (s.txns k).claim ≠ none →
      (s.txns k).reaped = false → s'.slot k ≠ s.slot k →
      (s.producers p).Stores k ∧ ∃ req, (s.txns k).claim = some (p, req)) ∧
    (∀ j k, (s.txns j).claim ≠ none → (s.txns j).reaped = false → (s.txns k).claim ≠ none →
      (s.txns k).reaped = false → pntRingGetSlot j = pntRingGetSlot k → j = k) := by
  rcases h₀.reachable_inv h with ⟨st, hinv⟩
  refine ⟨⟨hinv.cons_le, ?_⟩, ?_, ?_, ?_, ?_, ?_⟩
  · have := hinv.prod_le
    omega
  · -- each request is tried at most once, with what was asked for
    intro k
    have htxn := (hinv.ok k).txn
    refine ⟨htxn.once, ?_⟩
    intro a ha
    rcases htxn.asked a ha with ⟨p, req, hclaim, hgtid, hbarrier⟩
    refine ⟨p, req, hclaim, hgtid, hbarrier, ?_⟩
    intro s' hs
    rw [(steps_keeps hinv hs k).1 (by rw [hclaim]; simp), hclaim]
  · exact fun k r hr => unscheduled_iff hinv hr
  · -- the agent spins only while a consumer is at work
    intro k hag hpos
    have ha := hinv.agent
    rw [hag] at ha
    have hok := hinv.ok k
    rcases hinv.held k ha.1 with hst | hst | hst | hst
    · -- not ready, since the agent has tried the exchange
      exact absurd hst ha.2
    · rcases hinv.working k hst with ⟨c, -, hw⟩
      exact ⟨c, hw⟩
    · rw [hst] at hok
      rw [hok.1] at hpos
      exact absurd hpos (by decide)
    · rw [hst] at hok
      exact absurd hok.1.1 (Int.not_lt.mpr hpos)
  · -- a producer stores to the slot that it has claimed
    intro p s' hs k hclaim hreaped hne
    rcases producerStep_slots hs hne with ⟨idx, hslot, hstore⟩
    rcases hinv.stores hstore with ⟨hfill, hreq⟩
    have hlive : (st idx).Live := by
      rw [hfill]
      exact ⟨by decide, by decide⟩
    have heq := hinv.live_unique hlive (hinv.live_of_claim hclaim hreaped) hslot
    subst heq
    exact ⟨hstore, hreq⟩
  · intro j k hj hj' hk hk'
    exact hinv.live_unique (hinv.live_of_claim hj hj') (hinv.live_of_claim hk hk')

end Safety

/-- An empty ring with one producer and one consumer. -/
def emptyRing : State Unit Unit where
  ring := ⟨0, 0, fun _ => ⟨txnReaped, 0, 0, 0, none⟩⟩
  latchError := false
  weird := false
  producers := fun _ => .returned none
  consumers := fun _ => .returned false
  agent := .returned 0
  held := []
  txns := fun _ => {}

/-- The agent schedules a task and wants it back, but the consumer on cpu 3
claims the transaction in between and latches it. -/
def lateUnschedule : List (Action Unit Unit) :=
  .produce () ⟨.schedule (some 9), 7, 2 ^ 32 + 5⟩ :: List.replicate 8 (.producer ()) ++
    [.latch () ⟨3, by decide⟩] ++ List.replicate 4 (.consumer () 0) ++
    [.unschedule 0, .agent, .consumer () 0, .agent, .agent] ++
    List.replicate 5 (.consumer () 0) ++ [.agent]

theorem ring_protocol_late :
    ∃ s, exec step emptyRing lateUnschedule = some s ∧ (s.txns 0).unscheduled = [false] ∧
      ¬ (∀ s', Steps step s s' → ∀ a ∈ (s'.txns 0).attempts, a.ret ≠ 0) ∧
      ∀ a ∈ (s.txns 0).attempts, a.gtid = 7 ∧ a.taskBarrier = 5 := by
  refine ⟨_, rfl, rfl, ?_, ?_⟩
  · have h := @ring_protocol Unit Unit emptyRing _ _ _
      ⟨rfl, by decide, fun _ => rfl, rfl, fun _ => ⟨_, rfl⟩, fun _ => ⟨_, rfl⟩, ⟨_, rfl⟩, rfl,
        fun _ => rfl⟩ (Steps.of_exec (show exec step emptyRing lateUnschedule = _ from rfl))
    have hiff := h.2.2.1 0 false (by decide)
    exact fun hall => absurd (hiff.mpr hall) (by decide)
  · decide

end PntRing
