import GhostSched.PntRing.Invariant

/-!
# Every access keeps the invariant

First the rules for the three kinds of party: a step that only moves the
party's program counter, and a step on the index that the party is working on.
Then the accesses themselves, one lemma for each that writes, and from them
`Inv.step`.
-/

namespace PntRing

open Function

section Preserve

variable {P C : Type*} {s s' : State P C} {st : ℕ → Stage} {k : ℕ} {x : Stage}

theorem Inv.ok_of (h : Inv s st) (hst : st k = x) : x.Ok s k := hst ▸ h.ok k

/-- The invariant after a step on one index. -/
theorem Inv.move (h : Inv s st) (ht : Touches s s' k) (hk : (st k).Live)
    (hweird : s'.weird = false) (hx : x ≠ .free)
    (hahead : s.ring.consIdx ≤ k → x.Unconsumed ∧ (s'.txns k).consumer = none)
    (hbehind : k < s.ring.consIdx → x ≠ .filling) (hok : x.Ok s' k)
    (hreap : x = .reaped → (s'.slot k).txnState = txnReaped)
    (hproducers : ∀ p, ProducerOk s' (update st k x) p (s'.producers p))
    (hconsumers : ∀ c, ConsumerOk s' (update st k x) c (s'.consumers c))
    (hworking : x = .taken → ∃ c, (s'.txns k).consumer = some c ∧ (s'.consumers c).Working k)
    (hothers : ∀ j c, j ≠ k → (s.consumers c).Working j → (s'.consumers c).Working j)
    (hagent : AgentOk s' (update st k x) s'.agent)
    (hheld : ∀ j ∈ s'.held, (update st k x j).Held) :
    Inv s' (update st k x) := by
  have hlt := h.lt_of_live hk
  refine ⟨?_, ?_, hweird, ?_, ?_, ?_, ?_, ?_, ?_, hproducers, hconsumers, ?_, hagent, hheld⟩
  · rw [ht.consIdx, ht.prodIdx]
    exact h.cons_le
  · rw [ht.consIdx, ht.prodIdx]
    exact h.prod_le
  · -- the free indices are those from prod_idx on
    intro j
    rw [ht.prodIdx]
    by_cases hjk : j = k
    · subst hjk
      rw [Function.update_self]
      exact ⟨fun h => absurd h hx, fun h => by omega⟩
    · rw [Function.update_of_ne hjk]
      exact h.free_iff j
  · intro j hcons hprod
    rw [ht.consIdx] at hcons
    rw [ht.prodIdx] at hprod
    by_cases hjk : j = k
    · subst hjk
      rw [Function.update_self]
      exact hahead hcons
    · rw [Function.update_of_ne hjk, ht.txns j hjk]
      exact h.ahead j hcons hprod
  · intro j hcons
    rw [ht.consIdx] at hcons
    by_cases hjk : j = k
    · subst hjk
      rw [Function.update_self]
      exact hbehind hcons
    · rw [Function.update_of_ne hjk]
      exact h.behind j hcons
  · intro j hj
    rw [ht.prodIdx] at hj
    by_cases hjk : j = k
    · subst hjk
      exact absurd (h.lap j hj) hk.2
    · rw [Function.update_of_ne hjk]
      exact h.lap j hj
  · intro j
    by_cases hjk : j = k
    · subst hjk
      rw [Function.update_self]
      exact hok
    · rw [Function.update_of_ne hjk]
      refine (h.ok j).congr ?_ (ht.txns j hjk)
      intro hj
      rw [ht.slot h hk hj hjk]
      exact ⟨rfl, rfl, rfl⟩
  · -- a slot without owner: the one of k, or one that had no owner before
    intro j hj
    by_cases hjk : j = pntRingGetSlot k
    · subst hjk
      have hnot := hj k rfl
      rw [Function.update_self] at hnot
      apply hreap
      by_contra hne
      exact hnot ⟨hx, hne⟩
    · rw [ht.slots j hjk]
      refine h.empty j ?_
      intro i hi
      have hik : i ≠ k := by
        intro heq
        subst heq
        exact hjk hi.symm
      have := hj i hi
      rwa [Function.update_of_ne hik] at this
  · intro j hj
    by_cases hjk : j = k
    · subst hjk
      rw [Function.update_self] at hj
      exact hworking hj
    · rw [Function.update_of_ne hjk] at hj
      rcases h.working j hj with ⟨c, hc, hw⟩
      exact ⟨c, by rw [ht.txns j hjk, hc], hothers j c hjk hw⟩

/-! ## Rules for each party -/

theorem State.record_id : s.record k id = s :=
  congrArg (fun txns => { s with txns }) (update_eq_self ..)

theorem State.setSlot_id : s.setSlot k id = s :=
  congrArg (fun slots => { s with ring.slots := slots }) (update_eq_self ..)

section Producer

variable [DecidableEq P] {p : P} {pc : ProducerPc} {req : Request}

/-- A producer that only moves on. -/
theorem Inv.setProducer (h : Inv s st) (hpc : ProducerOk s st p pc) :
    Inv (s.setProducer p pc) st := by
  refine ⟨h.cons_le, h.prod_le, h.weird, h.free_iff, h.ahead, h.behind, h.lap, h.ok, h.empty, ?_,
    h.consumers, h.working, h.agent, h.held⟩
  exact (forall_update_iff s.producers (ProducerOk s st)).mpr ⟨hpc, fun q _ => h.producers q⟩

/-- A producer that writes to the slot it is filling. -/
theorem Inv.moveProducer (h : Inv s st) (hst : st k = .filling)
    (hclaim : (s.txns k).claim = some (p, req)) (ht : Touches s s' k)
    (htxns : s'.txns = s.txns) (hweird : s'.weird = s.weird) (hcs : s'.consumers = s.consumers)
    (hag : s'.agent = s.agent) (hps : s'.producers = update s.producers p pc)
    (hx : x = .filling ∨ x = .ready) (hok : x.Ok s' k) (hheld : s.held ⊆ s'.held)
    (hheld' : ∀ j ∈ s'.held, j ∈ s.held ∨ j = k ∧ x.Held)
    (hpc : ProducerOk s' (update st k x) p pc) : Inv s' (update st k x) := by
  have hk : (st k).Live := by
    rw [hst]
    exact ⟨by decide, by decide⟩
  -- no consumer has passed a slot that is being filled
  have hge : s.ring.consIdx ≤ k := by
    by_contra hlt
    exact h.behind k (by omega) hst
  have hnot : k ∉ s.held := by
    intro hmem
    have := h.held k hmem
    rw [hst] at this
    exact absurd this (by unfold Stage.Held; decide)
  refine h.move ht hk (hweird.trans h.weird) ?_ ?_ ?_ hok ?_ ?_ ?_ ?_ ?_ ?_ ?_
  · rcases hx with rfl | rfl <;> decide
  · intro _
    rw [htxns]
    refine ⟨?_, (h.ahead k hge (h.lt_of_live hk)).2⟩
    rcases hx with rfl | rfl
    · exact .inl rfl
    · exact .inr (.inl rfl)
  · intro hlt
    omega
  · intro heq
    rcases hx with rfl | rfl <;> exact absurd heq (by decide)
  · -- a slot has one producer
    rw [hps]
    refine (forall_update_iff _ (ProducerOk s' _)).mpr ⟨hpc, fun q hq => ?_⟩
    refine (h.producers q).move h ht hk ?_
    intro _ req' hclaim'
    rw [hclaim] at hclaim'
    exact hq (Prod.mk.inj (Option.some.inj hclaim')).1.symm
  · -- no consumer looks at it
    intro c
    rw [hcs]
    refine (h.consumers c).move ht (.inr ?_)
    rw [hst]
    exact .of_ne nofun nofun nofun (by rw [htxns]) (by rw [htxns]) (by rw [htxns])
  · intro heq
    rcases hx with rfl | rfl <;> exact absurd heq (by decide)
  · intro j c _ hw
    rw [hcs]
    exact hw
  · rw [hag]
    exact h.agent.move hheld fun hmem => absurd hmem hnot
  · grind [h.held]

end Producer

section Consumer

variable [DecidableEq C] {c : C} {old pc : ConsumerPc}

/-- A consumer that only moves on. -/
theorem Inv.setConsumer (h : Inv s st) (hold : s.consumers c = old) (hpc : ConsumerOk s st c pc)
    (hw : ∀ k, old.Working k → pc.Working k) : Inv (s.setConsumer c pc) st := by
  subst hold
  refine ⟨h.cons_le, h.prod_le, h.weird, h.free_iff, h.ahead, h.behind, h.lap, h.ok, h.empty,
    h.producers, ?_, ?_, h.agent, h.held⟩
  · exact (forall_update_iff s.consumers (ConsumerOk s st)).mpr ⟨hpc, fun d _ => h.consumers d⟩
  · intro k hk
    rcases h.working k hk with ⟨d, hd, hwd⟩
    refine ⟨d, hd, ?_⟩
    show (update s.consumers c pc d).Working k
    rw [update_apply]
    split_ifs with hdc
    · exact hw k (hdc ▸ hwd)
    · exact hwd

/-- A consumer that writes to the slot it has claimed, and what happened to it. -/
theorem Inv.moveConsumer {f : Slot → Slot} {r : Txn P C → Txn P C} (h : Inv s st)
    (hold : s.consumers c = old) (hw : ∀ j, old.Working j → k = j)
    (hlt : k < s.ring.consIdx) (hcons : (s.txns k).consumer = some c)
    (hX : st k = .ready ∨ st k = .aborted ∨ st k = .taken)
    (hs' : s' = ((s.setSlot k f).record k r).setConsumer c pc)
    (hx : x = .taken ∨ x = .complete ∨ x = .failed ∨ x = .reaped)
    (hok : s'.slot k = f (s.slot k) → s'.txns k = r (s.txns k) → x.Ok s' k)
    (hheld : (st k).Held → x.Held) (hreap : x = .reaped → (f (s.slot k)).txnState = txnReaped)
    (hwk : x = .taken → (r (s.txns k)).consumer = some c ∧ pc.Working k)
    (hpc : s'.txns k = r (s.txns k) → ConsumerOk s' (update st k x) c pc) :
    Inv s' (update st k x) := by
  have hk : (st k).Live := by
    rcases hX with hX | hX | hX <;> rw [hX] <;> exact ⟨by decide, by decide⟩
  have hslot : s'.slot k = f (s.slot k) := hs' ▸ update_self ..
  have htk : s'.txns k = r (s.txns k) := hs' ▸ update_self ..
  have hcs : s'.consumers = update s.consumers c pc := by rw [hs']; rfl
  have ht : Touches s s' k := by
    subst hs'
    exact ⟨rfl, rfl, fun j hj => update_of_ne hj .., fun j hj => update_of_ne hj ..⟩
  refine h.move ht hk (by rw [hs']; exact h.weird) ?_ ?_ ?_ (hok hslot htk) (hslot ▸ hreap)
    ?_ ?_ ?_ ?_ ?_ ?_
  · rcases hx with rfl | rfl | rfl | rfl <;> decide
  · intro hge
    omega
  · intro _
    rcases hx with rfl | rfl | rfl | rfl <;> decide
  · intro p
    rw [show s'.producers = s.producers by rw [hs']; rfl]
    refine (h.producers p).move h ht hk ?_
    intro hfill
    exact absurd hfill (h.behind k hlt)
  · rw [hcs]
    refine (forall_update_iff _ (ConsumerOk s' _)).mpr ⟨hpc htk, fun d hd => ?_⟩
    refine (h.consumers d).move ht (.inl ⟨hlt, ?_⟩)
    rw [hcons]
    exact fun heq => hd (Option.some.inj heq).symm
  · intro heq
    rcases hwk heq with ⟨hc', hwork⟩
    refine ⟨c, htk ▸ hc', ?_⟩
    rw [hcs, update_self]
    exact hwork
  · intro j d hjk hwd
    rw [hcs, update_of_ne]
    · exact hwd
    · rintro rfl
      exact hjk (hw j (hold ▸ hwd)).symm
  · subst hs'
    refine h.agent.move (List.Subset.refl _) fun _ => ?_
    grind
  · intro j hj
    subst hs'
    by_cases hjk : j = k
    · subst hjk
      rw [update_self]
      exact hheld (h.held j hj)
    · rw [update_of_ne hjk]
      exact h.held j hj

end Consumer

section Agent

variable {pc : AgentPc}

/-- The agent only moves on. -/
theorem Inv.setAgent (h : Inv s st) (hpc : AgentOk s st pc) : Inv (s.setAgent pc) st :=
  ⟨h.cons_le, h.prod_le, h.weird, h.free_iff, h.ahead, h.behind, h.lap, h.ok, h.empty,
    h.producers, h.consumers, h.working, hpc, h.held⟩

/-- The agent writes to a slot it holds. -/
theorem Inv.moveAgent (h : Inv s st) (hmem : k ∈ s.held) (ht : Touches s s' k)
    (hweird : s'.weird = s.weird) (hps : s'.producers = s.producers)
    (hcs : s'.consumers = s.consumers) (hy : Yields s s' k (st k) x)
    (hx : x = st k ∨ x = .aborted ∨ k < s.ring.consIdx ∧ x = .reaped) (hok : x.Ok s' k)
    (hreap : x = .reaped → (s'.slot k).txnState = txnReaped)
    (hag : AgentOk s' (update st k x) s'.agent) (hsub : s'.held ⊆ s.held)
    (hheld : k ∈ s'.held → x.Held) : Inv s' (update st k x) := by
  have hkh := h.held k hmem
  have hk := hkh.live
  refine h.move ht hk (hweird.trans h.weird) ?_ ?_ ?_ hok hreap ?_ ?_ ?_ ?_ hag ?_
  · rcases hx with rfl | rfl | ⟨-, rfl⟩
    · exact hk.1
    · decide
    · decide
  · -- the index has not passed the slot
    intro hge
    rcases h.ahead k hge (h.lt_of_live hk) with ⟨hun, hnone⟩
    refine ⟨?_, by rw [hy.consumer, hnone]⟩
    rcases hx with rfl | rfl | ⟨hlt, -⟩
    · exact hun
    · exact .inr (.inr rfl)
    · omega
  · -- it has
    intro hlt
    rcases hx with rfl | rfl | ⟨-, rfl⟩
    · exact h.behind k hlt
    · decide
    · decide
  · -- the producer is done with a slot that the agent holds
    intro p
    rw [hps]
    refine (h.producers p).move h ht hk ?_
    intro hfill
    rw [hfill] at hkh
    exact absurd hkh (by unfold Stage.Held; decide)
  · intro c
    rw [hcs]
    exact (h.consumers c).move ht (.inr hy)
  · -- a consumer that is at work goes on
    intro heq
    rcases hx with rfl | rfl | ⟨-, rfl⟩
    · rcases h.working k heq with ⟨c, hc, hw⟩
      exact ⟨c, by rw [hy.consumer, hc], by rw [hcs]; exact hw⟩
    · exact absurd heq (by decide)
    · exact absurd heq (by decide)
  · intro j c _ hw
    rw [hcs]
    exact hw
  · -- the other slots that the agent holds
    intro j hj
    by_cases hjk : j = k
    · subst hjk
      rw [Function.update_self]
      exact hheld hj
    · rw [Function.update_of_ne hjk]
      exact h.held j (hsub hj)

end Agent

/-! ## Accesses of a producer -/

section ProducerSteps

variable [DecidableEq P] {p : P} {req : Request} {i : ℕ}

/-- The compare-and-swap on `prod_idx` succeeds: the index is claimed. -/
theorem Inv.claim (h : Inv s st) (hp : ProducerOk s st p (.casProd req i k))
    (hk : s.ring.prodIdx = k) :
    let s' := ({ s with ring.prodIdx := k + 1 }.record k
      fun t => { t with claim := some (p, req) }).setProducer p (.storeGtid req k)
    Inv s' (update st k .filling) := by
  intro s'
  have hroom : k < s.ring.consIdx + nrPntRingSlots := (hp.2 hk).1
  have hfreeSlot : SlotFree st k := (hp.2 hk).2
  have hcons := h.cons_le
  have hfree : st k = .free := (h.free_iff k).mpr (by omega)
  have htxn : s.txns k = {} := by
    have := h.ok k
    rwa [hfree] at this
  have htk : s'.txns k = { claim := some (p, req) } := by
    have : s'.txns k = { s.txns k with claim := some (p, req) } := update_self ..
    rw [this, htxn]
  have htj : ∀ j, j ≠ k → s'.txns j = s.txns j := fun j hj => update_of_ne hj ..
  have hstj : ∀ j, j ≠ k → update st k .filling j = st j :=
    fun j hj => update_of_ne hj ..
  -- only k was free before and is not now
  have hne : ∀ j, st j ≠ .free → j ≠ k := by
    intro j hj heq
    subst heq
    exact hj hfree
  refine ⟨?_, ?_, h.weird, ?_, ?_, ?_, ?_, ?_, ?_, ?_, ?_, ?_, ?_, ?_⟩
  · change s.ring.consIdx ≤ k + 1
    omega
  · change k + 1 ≤ s.ring.consIdx + nrPntRingSlots
    omega
  · intro j
    change _ ↔ k + 1 ≤ j
    by_cases hjk : j = k
    · subst hjk
      rw [update_self]
      exact ⟨fun h => absurd h (by decide), fun h => by omega⟩
    · rw [hstj j hjk, h.free_iff j]
      omega
  · intro j hjc hjp
    change j < k + 1 at hjp
    by_cases hjk : j = k
    · subst hjk
      rw [update_self, htk]
      exact ⟨.inl rfl, rfl⟩
    · rw [hstj j hjk, htj j hjk]
      exact h.ahead j hjc (by omega)
  · intro j hjc
    change j < s.ring.consIdx at hjc
    rw [hstj j (by omega)]
    exact h.behind j hjc
  · -- the index a lap before k has no slot any more
    intro j hj
    change j + nrPntRingSlots < k + 1 at hj
    rw [hstj j (by omega)]
    by_cases hlast : j + nrPntRingSlots = k
    · have hslot : pntRingGetSlot j = pntRingGetSlot k := by
        rw [pntRingGetSlot_eq_iff, ← hlast, Nat.add_mod_right]
      have hnot := hfreeSlot j hslot
      grind [h.free_iff, PntRing.Stage.Live]
    · exact h.lap j (by omega)
  · exact (forall_update_iff st fun j y => y.Ok s' j).mpr ⟨⟨h.empty _ hfreeSlot, p, req, htk⟩,
      fun j hjk => (h.ok j).congr (fun _ => ⟨rfl, rfl, rfl⟩) (htj j hjk)⟩
  · intro j hj
    have hjk : pntRingGetSlot k ≠ j := by
      grind [PntRing.Stage.Live]
    refine h.empty j ?_
    intro l hl
    have := hj l hl
    rwa [hstj l (fun heq => hjk (heq ▸ hl))] at this
  · refine (forall_update_iff s.producers (ProducerOk s' _)).mpr
      ⟨⟨update_self .., by rw [htk]⟩, fun q hq => ?_⟩
    refine (h.producers q).mono (Nat.le_succ_of_le hk.le) le_rfl ?_ ?_
    · intro heq
      change k + 1 = _ at heq
      omega
    · intro idx req' hst _
      have hidx : idx ≠ k := hne idx (by rw [hst]; decide)
      exact ⟨by rw [hstj idx hidx, hst], htj idx hidx, rfl⟩
  · intro c
    refine (h.consumers c).mono (Nat.le_succ_of_le hk.le) le_rfl ?_ ?_
    · intro _ idx _ hst
      rw [hstj idx (hne idx (by rcases hst with hst | hst <;> rw [hst] <;> decide))]
      exact hst
    · intro idx hlt _
      have hidx : idx ≠ k := by omega
      rw [hstj idx hidx]
      exact .of_eq (htj idx hidx)
  · intro j hj
    by_cases hjk : j = k
    · subst hjk
      rw [update_self] at hj
      exact absurd hj (by decide)
    · rw [hstj j hjk] at hj
      rcases h.working j hj with ⟨c, hc, hw⟩
      exact ⟨c, by rw [htj j hjk, hc], hw⟩
  · refine h.agent.move (List.Subset.refl _) ?_
    intro hmem
    exact absurd hfree (h.held k hmem).live.1
  · intro j hj
    have hjh := h.held j hj
    rw [hstj j (hne j hjh.live.1)]
    exact hjh

/-- A store to a field of the slot being filled, other than its state. -/
theorem Inv.fill {f : Slot → Slot} {pc : ProducerPc} (h : Inv s st)
    (hst : st k = .filling) (hclaim : (s.txns k).claim = some (p, req))
    (hf : ∀ sl, (f sl).txnState = sl.txnState)
    (hpc : ∀ s' : State P C, s'.txns = s.txns → s'.slot k = f (s.slot k) → ProducerOk s' st p pc) :
    Inv ((s.setSlot k f).setProducer p pc) st := by
  have hslot : ((s.setSlot k f).setProducer p pc).slot k = f (s.slot k) := update_self ..
  have hupd : update st k .filling = st := by rw [← hst, update_eq_self]
  rw [← hupd]
  refine h.moveProducer hst hclaim ⟨rfl, rfl, fun j hj => update_of_ne hj .., fun j _ => rfl⟩
    rfl rfl rfl rfl rfl (.inl rfl) ?_ (List.Subset.refl _) (fun j hj => .inl hj) ?_
  · have hok := h.ok_of hst
    refine ⟨?_, hok.2⟩
    rw [hslot, hf]
    exact hok.1
  · rw [hupd]
    exact hpc _ rfl hslot

/-- The last store of a producer. -/
theorem Inv.publish (h : Inv s st) (hp : ProducerOk s st p (.storeReady req k)) (r : Option ℕ) :
    let s' := ((s.setTxnState k txnReady).hold k).setProducer p (.returned r)
    Inv s' (update st k .ready) := by
  intro s'
  rcases hp with ⟨hst, hclaim, hfilled⟩
  have hslot : s'.slot k = { s.slot k with txnState := txnReady } := update_self ..
  refine h.moveProducer hst hclaim ⟨rfl, rfl, fun j hj => update_of_ne hj .., fun j _ => rfl⟩
    rfl rfl rfl rfl rfl (.inr rfl) ?_ (List.subset_cons_self ..) ?_ trivial
  · rcases h.ok_of hst with ⟨-, q, req', htxn⟩
    have heq : (q, req') = (p, req) := by
      rw [htxn] at hclaim
      exact Option.some.inj hclaim
    refine ⟨by rw [hslot], p, req, none, ?_, ?_⟩
    · rw [hslot]
      exact hfilled
    · change s.txns k = _
      rw [htxn, heq]
  · intro j hj
    rcases List.mem_cons.mp hj with rfl | hj
    · exact .inr ⟨rfl, .inl rfl⟩
    · exact .inl hj

/-- Every access of a producer keeps the invariant. -/
theorem Inv.producerStep (h : Inv s st) (hs : producerStep s p = some s') : ∃ st', Inv s' st' := by
  have hp := h.producers p
  unfold PntRing.producerStep at hs
  generalize s.producers p = pc at hs hp
  cases pc with
  | returned r => cases hs
  | loadProd req i =>
    cases hs
    exact ⟨st, h.setProducer (le_refl s.ring.prodIdx)⟩
  | loadCons req i idx =>
    have hle : idx ≤ s.ring.prodIdx := hp
    have hprod := h.prod_le
    by_cases hfull : pntRingFull idx s.ring.consIdx
    · simp only [hfull, if_true] at hs
      cases hs
      exact ⟨st, h.setProducer trivial⟩
    · simp only [hfull] at hs
      cases hs
      refine ⟨st, h.setProducer ⟨hle, ?_⟩⟩
      intro heq
      -- a full ring would have been noticed
      have hne : idx ≠ s.ring.consIdx + nrPntRingSlots := by
        intro hidx
        rw [hidx, pntRingFull_lap] at hfull
        exact hfull rfl
      omega
  | loadState req i idx =>
    dsimp only at hs
    by_cases hstate : (s.slot idx).txnState ≠ txnReaped
    · rw [if_pos hstate] at hs
      cases hs
      exact ⟨st, h.setProducer trivial⟩
    · rw [if_neg hstate] at hs
      cases hs
      refine ⟨st, h.setProducer ⟨hp.1, ?_⟩⟩
      grind [h.slotFree, PntRing.ProducerOk]
  | casProd req i idx =>
    by_cases heq : s.ring.prodIdx = idx
    · by_cases hwrap : idx + 1 < 2 ^ 64
      · simp only [heq, hwrap, if_true] at hs
        cases hs
        exact ⟨_, h.claim hp heq⟩
      · simp only [heq, hwrap, if_true, if_false] at hs
        cases hs
    · simp only [heq, if_false] at hs
      cases hs
      refine ⟨st, h.setProducer ?_⟩
      grind [Request.retry, PntRing.ProducerOk]
  | storeGtid req idx =>
    cases hs
    refine ⟨st, h.fill hp.1 hp.2 (fun sl => rfl) ?_⟩
    intro s' htxns hslot
    exact ⟨hp.1, by rw [htxns, hp.2], by rw [hslot]⟩
  | storeBarrier req idx =>
    cases hs
    refine ⟨st, h.fill hp.1 hp.2.1 (fun sl => rfl) ?_⟩
    intro s' htxns hslot
    exact ⟨hp.1, by rw [htxns, hp.2.1], by rw [hslot]; exact ⟨hp.2.2, rfl⟩⟩
  | storeTaskPtr req idx =>
    cases hs
    refine ⟨st, h.fill hp.1 hp.2.1 (fun sl => rfl) ?_⟩
    intro s' htxns hslot
    exact ⟨hp.1, by rw [htxns, hp.2.1], by rw [hslot]; exact hp.2.2⟩
  | storeReady req idx =>
    cases hs
    exact ⟨_, h.publish hp _⟩

end ProducerSteps

/-! ## Accesses of a consumer -/

section ConsumerSteps

variable [DecidableEq C] {c : C} {cpu : Cpu} {i : ℕ}

omit [DecidableEq C] in
theorem consumerOk_latchContinue : ConsumerOk s st c (latchContinue cpu i) := by
  unfold latchContinue
  split_ifs <;> trivial

section

variable (h : Inv s st)
include h

omit [DecidableEq C] in
theorem Inv.consumer {pc : ConsumerPc} (hpc : s.consumers c = pc) : ConsumerOk s st c pc :=
  hpc ▸ h.consumers c

/-- The compare-and-swap on `cons_idx` succeeds: the slot is claimed. -/
theorem Inv.consume (hpc : s.consumers c = .casCons cpu i k) (hk : s.ring.consIdx = k) :
    let s' := ({ s with ring.consIdx := k + 1 }.record k
      fun t => { t with consumer := some c }).setConsumer c (.casState cpu i k)
    Inv s' st := by
  intro s'
  have hst : st k = .ready ∨ st k = .aborted := (h.consumer hpc).2 hk
  have hprod := h.prod_le
  -- the slot is filled, so there is something to consume
  have hlt : k < s.ring.prodIdx := by
    apply h.lt_of_live
    rcases hst with hst | hst <;> rw [hst] <;> exact ⟨by decide, by decide⟩
  have htk : s'.txns k = { s.txns k with consumer := some c } := update_self ..
  have htj : ∀ j, j ≠ k → s'.txns j = s.txns j := fun j hj => update_of_ne hj ..
  refine ⟨?_, ?_, h.weird, h.free_iff, ?_, ?_, h.lap, ?_, h.empty, ?_, ?_, ?_, h.agent, h.held⟩
  · change k + 1 ≤ s.ring.prodIdx
    omega
  · change s.ring.prodIdx ≤ k + 1 + nrPntRingSlots
    omega
  · -- ahead of the new index nothing changes
    intro j hjc hjp
    change k + 1 ≤ j at hjc
    rw [htj j (by omega)]
    exact h.ahead j (by omega) hjp
  · -- the slot is behind it now
    intro j hjc
    change j < k + 1 at hjc
    by_cases hjk : j = k
    · subst hjk
      rcases hst with hst | hst <;> rw [hst] <;> decide
    · exact h.behind j (by omega)
  · intro j
    by_cases hjk : j = k
    · subst hjk
      rcases hst with hst | hst
      · rcases h.ok_of hst with ⟨hstate, p, req, d, hfilled, htxn⟩
        rw [hst]
        exact ⟨hstate, p, req, some c, hfilled, by rw [htk, htxn]⟩
      · rcases h.ok_of hst with ⟨hstate, p, req, d, htxn⟩
        rw [hst]
        exact ⟨hstate, p, req, some c, by rw [htk, htxn]⟩
    · exact (h.ok j).congr (fun _ => ⟨rfl, rfl, rfl⟩) (htj j hjk)
  · -- a producer that is still at work is at another slot
    intro p
    refine (h.producers p).mono le_rfl (Nat.le_succ_of_le hk.le) (fun _ _ => id) ?_
    intro idx req hidx _
    have hne : idx ≠ k := by
      intro heq
      subst heq
      rcases hst with hst | hst <;> exact absurd (hidx.symm.trans hst) (by decide)
    exact ⟨hidx, htj idx hne, rfl⟩
  · -- a consumer that still looks at the slot loses its exchange
    refine (forall_update_iff s.consumers (ConsumerOk s' st)).mpr
      ⟨⟨Nat.lt_succ_self k, by rw [htk], hst⟩, fun d hd => ?_⟩
    refine (h.consumers d).mono le_rfl (Nat.le_succ_of_le hk.le) ?_ ?_
    · intro heq
      change k + 1 = _ at heq
      omega
    · intro idx hidx _
      exact .of_eq (htj idx (by omega))
  · intro j hj
    rcases h.working j hj with ⟨d, hd, hwd⟩
    have hjk : j ≠ k := by
      intro heq
      subst heq
      rcases hst with hst | hst <;> exact absurd (hj.symm.trans hst) (by decide)
    have hdc : d ≠ c := by
      rintro rfl
      rw [hpc] at hwd
      exact hwd
    refine ⟨d, by rw [htj j hjk, hd], ?_⟩
    rw [show s'.consumers d = _ from update_of_ne hdc ..]
    exact hwd

/-- The compare-and-swap on `txn_state` succeeds: the transaction is claimed. -/
theorem Inv.take (hpc : s.consumers c = .casState cpu i k)
    (hstate : (s.slot k).txnState = txnReady) :
    Inv ((s.setTxnState k cpu.1).setConsumer c (.storeCpu cpu i k)) (update st k .taken) := by
  have hc := h.consumer hpc
  have hst : st k = .ready := by
    rcases hc.2.2 with hst | hst
    · exact hst
    · exact absurd ((h.ok_of hst).1.symm.trans hstate) (by decide)
  rcases h.ok_of hst with ⟨-, p, req, d, hfilled, htxn⟩
  have hd : d = some c := by
    have := hc.2.1
    rwa [htxn] at this
  refine h.moveConsumer (r := id) hpc nofun hc.1 hc.2.1 (.inl hst) (by rw [State.record_id]; rfl)
    (.inl rfl) ?_ ?_ nofun ?_ ?_
  · intro hslot htk
    refine ⟨?_, p, req, c, [], ?_, ?_, .inl rfl⟩
    · rw [hslot]
      exact ⟨Int.natCast_nonneg _, cpu.2⟩
    · rw [hslot]
      exact hfilled
    · rw [htk, id, htxn, hd]
  · intro _
    exact .inr (.inl rfl)
  · intro _
    exact ⟨hc.2.1, rfl⟩
  · intro _
    refine ⟨⟨hc.1, hc.2.1, update_self ..⟩, ?_⟩
    change (s.txns k).attempts = []
    rw [htxn]

/-- The consumer reaps the slot of an aborted transaction. -/
theorem Inv.reapAborted (hpc : s.consumers c = .storeReaped cpu i k) :
    Inv (((s.setTxnState k txnReaped).record k
      fun t => { t with reaped := true }).setConsumer c (latchContinue cpu i))
      (update st k .reaped) := by
  have hc := h.consumer hpc
  have hst : st k = .aborted := hc.2.2
  refine h.moveConsumer hpc nofun hc.1 hc.2.1 (.inr (.inl hst)) rfl (.inr (.inr (.inr rfl))) ?_ ?_
    (fun _ => rfl) nofun (fun _ => consumerOk_latchContinue)
  · intro _ htk
    have htxn := (h.ok k).txn
    refine ⟨?_, ?_⟩
    · rw [htk]
      exact ⟨htxn.once, htxn.asked, htxn.unscheduled⟩
    · intro _
      rw [htk]
  · grind [Stage.Held]

/-- The consumer notes its cpu in the slot. -/
theorem Inv.noteCpu (hpc : s.consumers c = .storeCpu cpu i k) :
    Inv ((s.setSlot k fun sl => { sl with cpu := cpu.1 }).setConsumer c (.loadGtid cpu i k))
      st := by
  have hc := h.consumer hpc
  have hst : st k = .taken := hc.1.2.2
  have hupd : update st k .taken = st := by rw [← hst, update_eq_self]
  rw [← hupd]
  refine h.moveConsumer (r := id) hpc (fun _ => id) hc.1.1 hc.1.2.1 (.inr (.inr hst))
    (by rw [State.record_id]) (.inl rfl) ?_ ?_ nofun ?_ ?_
  · intro hslot htk
    refine (h.ok_of hst).congr ?_ htk
    intro _
    rw [hslot]
    exact ⟨rfl, rfl, rfl⟩
  · rw [hst]
    exact id
  · intro _
    exact ⟨hc.1.2.1, rfl⟩
  · intro _
    rw [hupd]
    exact hc

/-- The call of `bpf_ghost_run_gtid`. -/
theorem Inv.runGtid {gtid taskBarrier : ℕ}
    (hpc : s.consumers c = .runGtid cpu i k gtid taskBarrier) (ret : ℤ) :
    Inv ((s.record k
      fun t => { t with attempts := t.attempts ++ [⟨c, gtid, taskBarrier, ret⟩] }).setConsumer
        c (.storeResult cpu i k ret)) st := by
  rcases h.consumer hpc with ⟨hcons, hnone, p, req, hclaim, rfl, rfl⟩
  have hst : st k = .taken := hcons.2.2
  have hupd : update st k .taken = st := by rw [← hst, update_eq_self]
  rw [← hupd]
  refine h.moveConsumer (f := id) hpc (fun _ => id) hcons.1 hcons.2.1 (.inr (.inr hst))
    (by rw [State.setSlot_id]) (.inl rfl) ?_ ?_ nofun ?_ ?_
  · intro _ htk
    rcases h.ok_of hst with ⟨hstate, q, req', d, as, hfilled, htxn, -⟩
    have hq : (q, req') = (p, req) := by
      rw [htxn] at hclaim
      exact Option.some.inj hclaim
    have hd : d = c := by
      have := hcons.2.1
      rw [htxn] at this
      exact Option.some.inj this
    rw [Prod.mk.injEq] at hq
    rw [hq.2] at hfilled
    refine ⟨hstate, p, req, c, _, hfilled, ?_, .inr ⟨ret, rfl⟩⟩
    rw [htk, hnone, htxn, hq.1, hq.2, hd]
    rfl
  · rw [hst]
    exact id
  · intro _
    exact ⟨hcons.2.1, rfl⟩
  · intro htk
    refine ⟨⟨hcons.1, by rw [htk]; exact hcons.2.1, update_self ..⟩, p, req, ?_, ?_⟩
    · rw [htk]
      exact hclaim
    · rw [htk, hnone]
      rfl

omit [DecidableEq C] in
/-- A transaction in the hands of a consumer that has its result. -/
theorem Inv.result_txn {ret : ℤ} (hc : ConsumerOk s st c (.storeResult cpu i k ret)) :
    ∃ p req, s.txns k = { claim := some (p, req), consumer := some c
                          attempts := [⟨c, req.gtid, req.barrier32, ret⟩] } := by
  rcases hc with ⟨hcons, p, req, hclaim, hatt⟩
  have hok := h.ok k
  grind [PntRing.Consumes, PntRing.Stage.Ok]

/-- The latch succeeded. -/
theorem Inv.complete (hpc : s.consumers c = .storeResult cpu i k 0) :
    Inv (((s.setTxnState k txnComplete).record k
      fun t => { t with onCpu := true }).setConsumer c (.returned true))
      (update st k .complete) := by
  have hc := h.consumer hpc
  rcases h.result_txn hc with ⟨p, req, htxn⟩
  have hst : st k = .taken := hc.1.2.2
  refine h.moveConsumer hpc (fun _ => id) hc.1.1 hc.1.2.1 (.inr (.inr hst)) rfl (.inr (.inl rfl))
    ?_ ?_ nofun nofun (fun _ => trivial)
  · intro hslot htk
    refine ⟨by rw [hslot], p, req, c, [], by simp, ?_⟩
    rw [htk, htxn]
  · intro _
    exact .inr (.inr (.inl rfl))

/-- The latch failed. -/
theorem Inv.fail {ret : ℤ} (hpc : s.consumers c = .storeResult cpu i k ret) (hret : ret ≠ 0) :
    Inv ((s.setTxnState k (latchErrorState ret)).setConsumer c (.orLatchError cpu i))
      (update st k .failed) := by
  have hc := h.consumer hpc
  rcases h.result_txn hc with ⟨p, req, htxn⟩
  have hst : st k = .taken := hc.1.2.2
  refine h.moveConsumer (r := id) hpc (fun _ => id) hc.1.1 hc.1.2.1 (.inr (.inr hst))
    (by rw [State.record_id]; rfl) (.inr (.inr (.inl rfl))) ?_ ?_ nofun nofun ?_
  · intro hslot _
    refine ⟨?_, p, req, c, ret, hret, htxn⟩
    rw [hslot]
    exact latchErrorState_bounds ret
  · intro _
    exact .inr (.inr (.inr rfl))
  · exact fun _ => trivial

/-- Every access of a consumer keeps the invariant. -/
theorem Inv.consumerStep {ret : ℤ} (hs : consumerStep s c ret = some s') : ∃ st', Inv s' st' := by
  have hc := h.consumers c
  unfold PntRing.consumerStep at hs
  -- before its claim of a transaction a consumer works on none, afterwards on one
  generalize hpc : s.consumers c = pc at hs hc
  cases pc with
  | returned r => cases hs
  | loadCons cpu i =>
    cases hs
    exact ⟨st, h.setConsumer hpc (le_refl s.ring.consIdx) fun _ => False.elim⟩
  | loadProd cpu i idx =>
    have hle : idx ≤ s.ring.consIdx := hc
    have hcp := h.cons_le
    by_cases heq : s.ring.prodIdx = idx
    · simp only [heq, if_true] at hs
      cases hs
      exact ⟨st, h.setConsumer hpc trivial fun _ => False.elim⟩
    · simp only [heq, if_false] at hs
      cases hs
      refine ⟨st, h.setConsumer hpc ⟨hle, ?_⟩ fun _ => False.elim⟩
      intro hidx
      omega
  | loadState cpu i idx =>
    dsimp only at hs
    by_cases hstate : (s.slot idx).txnState = txnReady ∨ (s.slot idx).txnState = txnAborted
    · rw [if_pos hstate] at hs
      cases hs
      refine ⟨st, h.setConsumer hpc ⟨hc.1, ?_⟩ fun _ => False.elim⟩
      intro hidx
      -- the index is current, so it owns the slot that was read
      rcases (h.ahead idx hidx.le (hc.2 hidx)).1 with hfill | hready | habort
      · have hok := h.ok_of hfill
        rcases hstate with hstate | hstate <;> exact absurd (hok.1.symm.trans hstate) (by decide)
      · exact .inl hready
      · exact .inr habort
    · rw [if_neg hstate] at hs
      cases hs
      exact ⟨st, h.setConsumer hpc trivial fun _ => False.elim⟩
  | casCons cpu i idx =>
    by_cases heq : s.ring.consIdx = idx
    · simp only [heq, if_true] at hs
      cases hs
      exact ⟨st, h.consume hpc heq⟩
    · simp only [heq, if_false] at hs
      cases hs
      exact ⟨st, h.setConsumer hpc consumerOk_latchContinue fun _ => False.elim⟩
  | casState cpu i idx =>
    by_cases hstate : (s.slot idx).txnState = txnReady
    · simp only [hstate, if_true] at hs
      cases hs
      exact ⟨_, h.take hpc hstate⟩
    · simp only [hstate, if_false] at hs
      cases hs
      refine ⟨st, h.setConsumer hpc ⟨hc.1, hc.2.1, ?_⟩ fun _ => False.elim⟩
      rcases hc.2.2 with hst | hst
      · exact absurd (h.ok_of hst).1 hstate
      · exact hst
  | reloadState cpu i idx =>
    cases hs
    have hsame : { s with weird := s.weird || (s.slot idx).txnState != txnAborted } = s := by
      rw [(h.ok_of hc.2.2).1, bne_self_eq_false, Bool.or_false]
    rw [hsame]
    exact ⟨st, h.setConsumer hpc hc fun _ => False.elim⟩
  | storeReaped cpu i idx =>
    cases hs
    exact ⟨_, h.reapAborted hpc⟩
  | storeCpu cpu i idx =>
    cases hs
    exact ⟨st, h.noteCpu hpc⟩
  | loadGtid cpu i idx =>
    cases hs
    refine ⟨st, h.setConsumer hpc ⟨hc.1, hc.2, ?_⟩ fun _ => id⟩
    rcases h.ok_of hc.1.2.2 with ⟨-, p, req, d, as, hfilled, htxn, -⟩
    exact ⟨p, req, by rw [htxn], hfilled.1⟩
  | loadBarrier cpu i idx gtid =>
    cases hs
    rcases hc with ⟨hcons, hnone, p, req, hclaim, hgtid⟩
    refine ⟨st, h.setConsumer hpc ⟨hcons, hnone, p, req, hclaim, hgtid, ?_⟩ fun _ => id⟩
    rcases h.ok_of hcons.2.2 with ⟨-, q, req', d, as, hfilled, htxn, -⟩
    grind [PntRing.Filled]
  | runGtid cpu i idx gtid taskBarrier =>
    cases hs
    exact ⟨st, h.runGtid hpc ret⟩
  | storeResult cpu i idx r =>
    by_cases hr : r = 0
    · subst hr
      cases hs
      exact ⟨_, h.complete hpc⟩
    · simp only [hr, if_false] at hs
      cases hs
      exact ⟨_, h.fail hpc hr⟩
  | orLatchError cpu i =>
    cases hs
    have h' : Inv { s with latchError := true } st :=
      ⟨h.cons_le, h.prod_le, h.weird, h.free_iff, h.ahead, h.behind, h.lap, h.ok, h.empty,
        h.producers, h.consumers, h.working, h.agent, h.held⟩
    exact ⟨st, h'.setConsumer hpc consumerOk_latchContinue fun _ => False.elim⟩

end

end ConsumerSteps

/-! ## Accesses of the agent -/

section AgentSteps

/-- The agent yanks a transaction back before a consumer claimed it. -/
theorem Inv.abort (h : Inv s st) (hmem : k ∈ s.held) (hstate : (s.slot k).txnState = txnReady) :
    let s' := (((s.setTxnState k txnAborted).record k
      fun t => { t with unscheduled := true :: t.unscheduled }).release k).setAgent (.returned 1)
    Inv s' (update st k .aborted) := by
  intro s'
  have hst : st k = .ready := by
    rcases h.held k hmem with hst | hst | hst | hst
    · exact hst
    · have := (h.ok_of hst).1.2
      rw [hstate] at this
      exact absurd this (by decide)
    · exact absurd ((h.ok_of hst).1.symm.trans hstate) (by decide)
    · have := (h.ok_of hst).1.1
      rw [hstate] at this
      exact absurd this (by decide)
  have hslot : s'.slot k = { s.slot k with txnState := txnAborted } := update_self ..
  have htk : s'.txns k = { s.txns k with unscheduled := true :: (s.txns k).unscheduled } :=
    update_self ..
  refine h.moveAgent hmem ⟨rfl, rfl, fun j hj => update_of_ne hj .., fun j hj => update_of_ne hj ..⟩
    rfl rfl rfl ⟨?_, ?_, ?_, by rw [htk], by rw [htk], by rw [htk]⟩ (.inr (.inl rfl))
      ?_ nofun trivial
    List.filter_sublist.subset ?_
  · intro _
    exact .inr rfl
  · intro _
    rfl
  · intro heq
    exact absurd (hst.symm.trans heq) (by decide)
  · have hok := h.ok k
    grind [PntRing.Stage.Ok]
  · intro hin
    exact absurd hin (by simp [s', State.setAgent, State.release])

/-- The agent learns that it came too late. -/
theorem Inv.keepComplete (h : Inv s st) (hmem : k ∈ s.held) (hst : st k = .complete) :
    let s' := (s.record k
      fun t => { t with unscheduled := false :: t.unscheduled }).setAgent (.returned 0)
    Inv s' st := by
  intro s'
  have hupd : update st k .complete = st := by rw [← hst, update_eq_self]
  have htk : s'.txns k = { s.txns k with unscheduled := false :: (s.txns k).unscheduled } :=
    update_self ..
  rw [← hupd]
  refine h.moveAgent hmem ⟨rfl, rfl, fun _ _ => rfl, fun j hj => update_of_ne hj ..⟩
    rfl rfl rfl ?_ (.inl hst.symm) ?_ nofun trivial
    (List.Subset.refl _) (fun _ => .inr (.inr (.inl rfl)))
  · rw [hst]
    exact .of_ne nofun nofun nofun (by rw [htk]) (by rw [htk]) (by rw [htk])
  · rcases h.ok_of hst with ⟨hstate, p, req, c, us, hus, htxn⟩
    exact ⟨hstate, p, req, c, false :: us, by simp [hus], by rw [htk, htxn]⟩

/-- The agent reaps a slot whose transaction has its result; `us` is what it
records about the result of an unschedule. -/
theorem Inv.reap (h : Inv s st) (hmem : k ∈ s.held) {s' : State P C}
    (hst : st k = .complete ∨ st k = .failed) (us : List Bool)
    (hring : s'.ring = (s.setTxnState k txnReaped).ring)
    (htxns : s'.txns = update s.txns k
      { s.txns k with reaped := true, unscheduled := us ++ (s.txns k).unscheduled })
    (hus : ∀ r ∈ us, st k = .failed ∧ r = true)
    (hweird : s'.weird = s.weird) (hps : s'.producers = s.producers)
    (hcs : s'.consumers = s.consumers) (hhd : s'.held = s.held.filter (· ≠ k))
    {r : ℤ} (hag : s'.agent = .returned r) : Inv s' (update st k .reaped) := by
  have hslot : s'.slot k = { s.slot k with txnState := txnReaped } := by
    unfold State.slot
    rw [hring]
    exact update_self ..
  have htk : s'.txns k =
      { s.txns k with reaped := true, unscheduled := us ++ (s.txns k).unscheduled } := by
    rw [htxns, update_self]
  have hbehind : k < s.ring.consIdx := by
    by_contra hge
    have hlt := h.lt_of_live (h.held k hmem).live
    have hun := (h.ahead k (by omega) hlt).1
    grind [Stage.Unconsumed]
  refine h.moveAgent hmem ⟨by rw [hring]; rfl, by rw [hring]; rfl, ?_, ?_⟩ hweird hps hcs
    ?_ (.inr (.inr ⟨hbehind, rfl⟩)) ⟨?_, ?_⟩ ?_ ?_ ?_ ?_
  · intro j hj
    rw [hring]
    exact update_of_ne hj ..
  · intro j hj
    rw [htxns, update_of_ne hj]
  · rcases hst with hst | hst <;> rw [hst] <;>
      exact .of_ne nofun nofun nofun (by rw [htk]) (by rw [htk]) (by rw [htk])
  · have hok := (h.ok k).txn
    rw [htk]
    refine ⟨hok.once, hok.asked, ?_⟩
    intro r hr
    rcases List.mem_append.mp hr with hr | hr
    · -- a failed transaction is given back
      rcases hus r hr with ⟨hfail, rfl⟩
      have hk := h.ok k
      grind [PntRing.Stage.Ok]
    · exact hok.unscheduled r hr
  · intro _
    rw [htk]
  · intro _
    rw [hslot]
  · rw [hag]
    trivial
  · rw [hhd]
    exact List.filter_sublist.subset
  · intro hin
    rw [hhd] at hin
    simp at hin

/-- Every access of the agent keeps the invariant. -/
theorem Inv.agentStep (h : Inv s st) (hs : agentStep s = some s') : ∃ st', Inv s' st' := by
  have ha := h.agent
  unfold PntRing.agentStep at hs
  -- a slot that reads otherwise is not ready
  have hnot : ∀ idx, (s.slot idx).txnState ≠ txnReady → st idx ≠ .ready :=
    fun idx hstate hst => hstate (h.ok_of hst).1
  generalize s.agent = pc at hs ha
  cases pc with
  | returned r => cases hs
  | unschedLoad idx =>
    by_cases hstate : (s.slot idx).txnState = txnReady
    · simp only [hstate, if_true] at hs
      cases hs
      exact ⟨st, h.setAgent ha⟩
    · simp only [hstate, if_false] at hs
      cases hs
      exact ⟨st, h.setAgent ⟨ha, hnot idx hstate⟩⟩
  | unschedCas idx =>
    by_cases hstate : (s.slot idx).txnState = txnReady
    · simp only [hstate, if_true] at hs
      cases hs
      exact ⟨_, h.abort ha hstate⟩
    · simp only [hstate, if_false] at hs
      cases hs
      exact ⟨st, h.setAgent ⟨ha, hnot idx hstate⟩⟩
  | unschedSpin idx =>
    dsimp only at hs
    have hheld := h.held idx ha.1
    have hok := h.ok idx
    by_cases hneg : 0 ≤ (s.slot idx).txnState
    · rw [if_pos hneg] at hs
      cases hs
      exact ⟨st, h⟩
    · rw [if_neg hneg] at hs
      by_cases hcomp : (s.slot idx).txnState = txnComplete
      · rw [if_pos hcomp] at hs
        cases hs
        refine ⟨st, h.keepComplete ha.1 ?_⟩
        grind [PntRing.Stage.Held, PntRing.AgentOk, PntRing.Stage.Ok]
      · rw [if_neg hcomp] at hs
        cases hs
        refine ⟨st, h.setAgent ⟨ha.1, ?_⟩⟩
        grind [PntRing.Stage.Held, PntRing.AgentOk, PntRing.Stage.Ok]
  | unschedReap idx =>
    cases hs
    refine ⟨_, h.reap ha.1 (.inr ha.2) [true] rfl ?_ ?_ rfl rfl rfl rfl rfl⟩
    · simp [State.setAgent, State.record, pntRingReapSlot, State.release, State.setTxnState,
        State.setSlot]
    · intro r hr
      exact ⟨ha.2, List.mem_singleton.mp hr⟩
  | reapErrorsLoad idx =>
    dsimp only at hs
    have hheld := h.held idx ha
    have hok := h.ok idx
    split_ifs at hs with hcomp habort hreap hready hpos <;> cases hs
    case neg =>
      refine ⟨st, h.setAgent ⟨ha, ?_⟩⟩
      grind [PntRing.Stage.Held, PntRing.Stage.Ok]
    all_goals exact ⟨st, h.setAgent trivial⟩
  | reapErrorsPtr idx =>
    dsimp only at hs
    split_ifs at hs
    · cases hs
      exact ⟨st, h.setAgent trivial⟩
    · cases hs
      exact ⟨st, h.setAgent ha⟩
  | reapErrorsReap idx =>
    cases hs
    exact ⟨_, h.reap ha.1 (.inr ha.2) [] rfl rfl (by simp) rfl rfl rfl rfl rfl⟩
  | onCpuReap idx =>
    cases hs
    exact ⟨_, h.reap ha.1 (.inl ha.2) [] rfl rfl (by simp) rfl rfl rfl rfl rfl⟩

end AgentSteps

/-! ## All steps -/

section Step

/-- A new call of the agent, which knows that it holds the slot. -/
theorem Inv.agentCall {t : State P C} (hs : agentCall s k t = some s')
    (ht : k ∈ s.held → ∃ st', Inv t st') : ∃ st', Inv s' st' := by
  unfold PntRing.agentCall at hs
  split at hs
  · split_ifs at hs with hmem
    cases hs
    exact ht hmem
  · cases hs

variable [DecidableEq P] [DecidableEq C] {a : Action P C}

/-- Every step of every party keeps the invariant. -/
theorem Inv.step (h : Inv s st) (hs : step s a = some s') : ∃ st', Inv s' st' := by
  cases a with unfold PntRing.step at hs
  | produce p req =>
    dsimp only at hs
    split at hs <;> cases hs
    exact ⟨st, h.setProducer trivial⟩
  | producer p => exact h.producerStep hs
  | latch c cpu =>
    dsimp only at hs
    split at hs <;> cases hs
    rename_i r hr
    exact ⟨st, h.setConsumer hr trivial nofun⟩
  | consumer c ret => exact h.consumerStep hs
  | attach idx taskPtr =>
    refine Inv.agentCall hs ?_
    intro hmem
    have hupd : update st idx (st idx) = st := update_eq_self ..
    refine ⟨_, h.moveAgent hmem
      ⟨rfl, rfl, fun j hj => update_of_ne hj .., fun _ _ => rfl⟩ rfl rfl rfl
      (.of_eq rfl) (.inl rfl) ?_ ?_ ?_ (List.Subset.refl _) (fun _ => h.held idx hmem)⟩
    · refine (h.ok idx).congr ?_ rfl
      intro _
      have hslot : (s.setSlot idx fun sl => { sl with taskPtr := some taskPtr }).slot idx =
          { s.slot idx with taskPtr := some taskPtr } := update_self ..
      rw [hslot]
      exact ⟨rfl, rfl, rfl⟩
    · exact fun heq => absurd heq (h.held idx hmem).live.2
    · rw [hupd]
      exact h.agent
  | unschedule idx | reapErrors idx => exact Inv.agentCall hs fun hmem => ⟨st, h.setAgent hmem⟩
  | taskOnCpu idx =>
    dsimp only at hs
    split_ifs at hs with hmsg
    refine Inv.agentCall hs ?_
    intro hmem
    exact ⟨st, h.setAgent ⟨hmem, (h.ok idx).eq_complete (h.held idx hmem) hmsg⟩⟩
  | agent => exact h.agentStep hs

end Step

end Preserve

end PntRing
