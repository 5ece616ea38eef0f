import GhostSched.Shinjuku.Safety

/-!
# Paused repeatables of the Shinjuku scheduler

A task of a repeating work class that has lost its work waits in `paused_repeatables_` until
a pass finds that its period is over and gives it work again.

* Nothing takes a task off this list but the pass. A task that departs meanwhile is freed, and
  the pass then follows a pointer to it (`repeatables_departed`). One that blocks stays on the
  list, too.
* `Careful` says what has to hold of a step for the list to stay in order. Along runs of such
  steps the pass finds live and paused tasks only, and the checks of `MakeEngineRunnable`
  pass (`repeatables_rearmed`).
-/

namespace Shinjuku

open Central Checked Transition Function

variable {G C P T : Type} {cfg : Config G C T} {s s₀ s' : State G C P T} {p : P}
  {t t' : ShinjukuTask G C T} {tgid : T} {sid : ℕ}

/-! ## The list -/

/-- A task that waits for its period to end. Its item belongs to its own table. -/
structure Waiting (cfg : Config G C T) (s : State G C P T) (p : P) (t : ShinjukuTask G C T)
    (tgid : T) (sid : ℕ) : Prop where
  task : s.heap p = some t
  hasWork : t.hasWork = false
  blocked : t.runState ≠ .blocked
  orch : t.orch = some tgid
  sp : t.sp = some (.item tgid sid)
  bound : sid < cfg.numSchedItems tgid
  attached : s.orchs tgid = true
  gtid : (s.cachedsids tgid sid).gtid = some t.gtid
  noWork : (s.cachedsids tgid sid).hasWork = false
  repeating : cfg.repeating tgid (s.cachedsids tgid sid).wcid = true

/-- All tasks on the list wait. -/
structure Listed (cfg : Config G C T) (s : State G C P T) : Prop where
  nodup : s.pausedRepeatables.Nodup
  waiting : ∀ p ∈ s.pausedRepeatables, ∃ t tgid sid, Waiting cfg s p t tgid sid

/-- A task that waits keeps waiting if only its place changes. -/
theorem Waiting.congr (h : Waiting cfg s p t tgid sid) (ht' : s'.heap p = some t')
    (hgtid : t'.gtid = t.gtid) (horch : t'.orch = t.orch) (hsp : t'.sp = t.sp)
    (hwork : t'.hasWork = t.hasWork) (hblocked : t'.runState ≠ .blocked)
    (hattached : s'.orchs tgid = true)
    (hcached : s'.cachedsids tgid sid = s.cachedsids tgid sid) :
    Waiting cfg s' p t' tgid sid where
  task := ht'
  hasWork := hwork.trans h.hasWork
  blocked := hblocked
  orch := horch.trans h.orch
  sp := hsp.trans h.sp
  bound := h.bound
  attached := hattached
  gtid := by rw [hcached, hgtid, h.gtid]
  noWork := by rw [hcached, h.noWork]
  repeating := by rw [hcached, h.repeating]

/-- The record of the task has not changed. -/
theorem Waiting.frame (h : Waiting cfg s p t tgid sid) (hheap : s'.heap p = s.heap p)
    (hattached : s'.orchs tgid = true)
    (hcached : s'.cachedsids tgid sid = s.cachedsids tgid sid) : Waiting cfg s' p t tgid sid :=
  h.congr (hheap.trans h.task) rfl rfl rfl rfl h.blocked hattached hcached

theorem Listed.of_nil (h : s.pausedRepeatables = []) : Listed cfg s :=
  ⟨by simp [h], by simp [h]⟩

/-- A step of a pass. -/
theorem Listed.keeps (h : Listed cfg s) (h' : Keeps s s') : Listed cfg s' := by
  refine ⟨h'.repeatables ▸ h.nodup, fun p hp => ?_⟩
  rw [h'.repeatables] at hp
  rcases h.waiting p hp with ⟨t, tgid, sid, hw⟩
  rcases h'.task p t hw.task with ⟨t', ht', hsame⟩
  refine ⟨t', tgid, sid, hw.congr ht' hsame.gtid hsame.orch hsame.sp hsame.hasWork ?_ ?_ ?_⟩
  · exact fun hr => hw.blocked (hsame.blocked hr)
  · rw [h'.orchs, hw.attached]
  · rw [h'.cachedsids]

section Messages

variable [DecidableEq G] [DecidableEq P]

/-- A message to another task, or one that does not end the stay of its task. -/
theorem Listed.handled {ends : Prop} (h : Listed cfg s) (ht : s.heap p = some t)
    (h' : Handled s p t ends s') (hends : p ∈ s.pausedRepeatables → ¬ ends) : Listed cfg s' := by
  cases h' with
  | @stays _ t' _ hmoves ht' hkin hblocked =>
    rcases State.rest_eq hmoves.rest with ⟨-, -, hrepeatables, horchs, hcached, -⟩
    refine ⟨hrepeatables ▸ h.nodup, fun q hq => ?_⟩
    rw [hrepeatables] at hq
    rcases h.waiting q hq with ⟨u, tgid, sid, hw⟩
    have hattached : s'.orchs tgid = true := by rw [horchs, hw.attached]
    by_cases hqp : q = p
    · subst hqp
      obtain rfl : t = u := Option.some.inj (ht.symm.trans hw.task)
      refine ⟨t', tgid, sid, hw.congr ht' hkin.gtid hkin.orch hkin.sp hkin.hasWork ?_ hattached ?_⟩
      · exact fun hr => (hblocked hr).elim hw.blocked (hends hq)
      · rw [hcached]
    · exact ⟨u, tgid, sid, hw.frame (hmoves.heap q hqp) hattached (by rw [hcached])⟩
  | @freed s' _ hmoves hended =>
    rcases State.rest_eq hmoves.rest with ⟨-, -, hrepeatables, horchs, hcached, -⟩
    refine ⟨hrepeatables ▸ h.nodup, fun q hq => ?_⟩
    rw [hrepeatables] at hq
    rcases h.waiting q hq with ⟨u, tgid, sid, hw⟩
    have hqp : q ≠ p := by
      rintro rfl
      exact hends hq hended
    refine ⟨u, tgid, sid, hw.frame ?_ ?_ ?_⟩
    · exact (update_of_ne hqp ..).trans (hmoves.heap q hqp)
    · exact horchs ▸ hw.attached
    · rw [hcached]

omit [DecidableEq P] in
/-- A new task is not on the list. -/
theorem Listed.created {g : G} (h : Listed cfg s) (hp : s.heap p = none)
    (h' : Created s p g s' t) : Listed cfg s' := by
  refine ⟨h'.repeatables ▸ h.nodup, fun q hq => ?_⟩
  rw [h'.repeatables] at hq
  rcases h.waiting q hq with ⟨u, tgid, sid, hw⟩
  have hqp : q ≠ p := by
    rintro rfl
    cases hp.symm.trans hw.task
  rcases h'.orchs tgid hw.attached with ⟨hattached, hcached⟩
  exact ⟨u, tgid, sid, hw.frame (h'.heap q hqp) hattached (by rw [hcached])⟩

end Messages

/-! ## Careful steps -/

/-- The paused repeatable that the pass looks at. -/
def State.rearmed (s : State G C P T) : Option P :=
  match s.mode with
  | .rearm i => s.pausedRepeatables[i]?
  | _ => none

/-- The thread that an item belongs to. -/
def State.gtidOf (s : State G C P T) : Item T → Option G
  | .item tgid sid => (s.cachedsids tgid sid).gtid
  | .dummy => none

/-- An item that is read again keeps the tasks on the list waiting. Engines belong to threads of
their own process. -/
structure Respects (cfg : Config G C T) (s : State G C P T) (tgid : T) (sid : ℕ)
    (sp : SchedParams G) : Prop where
  waiting : ∀ p ∈ s.pausedRepeatables, ∀ t ∈ s.heap p,
    sp.gtid = some t.gtid ∨ t.sp = some (.item tgid sid) →
      sp.gtid = some t.gtid ∧ t.sp = some (.item tgid sid) ∧ sp.hasWork = false ∧
        cfg.repeating tgid sp.wcid = true
  own : cfg.repeating tgid sp.wcid = true →
    ∀ g ∈ sp.gtid, ∀ p ∈ s.allocator g, ∀ t ∈ s.heap p, t.orch = some tgid

/-- What has to hold of a step. A task on the list does not block, die or depart, its item gets no
work and is not given to another thread, and the table still says so when the pass looks at it. -/
def Careful (cfg : Config G C T) (s : State G C P T) : Action G C P T → Prop
  | .dispatch e _ _ => ∀ p ∈ s.pausedRepeatables, s.allocator e.gtid = some p → ¬ Ends e.msg
  | .refresh tgid sid copy _ _ =>
    Respects cfg s tgid sid (copy.apply (s.cachedsids tgid sid)).1
  | .rearm _ gpid =>
    ∀ p ∈ s.rearmed, ∀ t ∈ s.heap p, ∀ sp ∈ t.sp, gpid = s.gtidOf sp
  | _ => True

section Decide

theorem respects_iff {sp : SchedParams G} : Respects cfg s tgid sid sp ↔
    (∀ p ∈ s.pausedRepeatables, ∀ t ∈ s.heap p,
      sp.gtid = some t.gtid ∨ t.sp = some (.item tgid sid) →
        sp.gtid = some t.gtid ∧ t.sp = some (.item tgid sid) ∧ sp.hasWork = false ∧
          cfg.repeating tgid sp.wcid = true) ∧
    (cfg.repeating tgid sp.wcid = true →
      ∀ g ∈ sp.gtid, ∀ p ∈ s.allocator g, ∀ t ∈ s.heap p, t.orch = some tgid) :=
  ⟨fun h => ⟨h.waiting, h.own⟩, fun h => ⟨h.1, h.2⟩⟩

instance : DecidablePred (Ends : Kernel.Msg C Unit → Prop) := fun _ => by
  unfold Ends
  split <;> infer_instance

variable [DecidableEq G] [DecidableEq P] [DecidableEq T]

instance (sp : SchedParams G) : Decidable (Respects cfg s tgid sid sp) :=
  decidable_of_iff' _ respects_iff

instance : DecidablePred (Careful cfg s) := fun _ => by
  unfold Careful
  split <;> infer_instance

end Decide

section Refresh

variable [DecidableEq G] [DecidableEq P] [DecidableEq T]

omit [DecidableEq G] [DecidableEq P] in
/-- The new copy of an item. -/
theorem Listed.setParams {sp : SchedParams G} (h : Listed cfg s)
    (hsp : Respects cfg s tgid sid sp) :
    Listed cfg (s.setParams tgid sid sp) := by
  refine ⟨h.nodup, fun q hq => ?_⟩
  rcases h.waiting q hq with ⟨u, tgid', sid', hw⟩
  refine ⟨u, tgid', sid', ?_⟩
  by_cases hitem : u.sp = some (.item tgid sid)
  · -- it is the item of this task
    obtain ⟨rfl, rfl⟩ : tgid' = tgid ∧ sid' = sid := by simpa [hw.sp] using hitem
    rcases hsp.waiting q hq u hw.task (.inr hitem) with ⟨hgtid, -, hwork, hrepeating⟩
    exact { hw with
        gtid := by simpa [State.setParams] using hgtid
        noWork := by simpa [State.setParams] using hwork
        repeating := by simpa [State.setParams] using hrepeating }
  · refine hw.frame rfl hw.attached ?_
    by_cases htgid : tgid' = tgid
    · subst htgid
      have hsid : sid' ≠ sid := by
        rintro rfl
        exact hitem hw.sp
      simp [State.setParams, hsid]
    · simp [State.setParams, htgid]

omit [DecidableEq G] [DecidableEq P] [DecidableEq T] in
/-- The callback about an item. -/
theorem Listed.updated (h : Listed cfg s) (h' : Updated cfg s p t tgid sid s' t')
    (ht : s.heap p = some t) (hbound : sid < cfg.numSchedItems tgid)
    (hattached : s.orchs tgid = true) (hgtid : (s.cachedsids tgid sid).gtid = some t.gtid)
    (hown : cfg.repeating tgid (s.cachedsids tgid sid).wcid = true → t.orch = some tgid)
    (hwaiting : p ∈ s.pausedRepeatables →
      t.sp = some (.item tgid sid) ∧ (s.cachedsids tgid sid).hasWork = false) : Listed cfg s' := by
  rcases State.rest_eq h'.rest with ⟨-, -, -, horchs, hcached, -⟩
  -- tasks that were on the list before
  have hold : ∀ q ∈ s.pausedRepeatables, ∃ u tgid sid, Waiting cfg s' q u tgid sid := by
    intro q hq
    rcases h.waiting q hq with ⟨u, tgid', sid', hw⟩
    have hattached' : s'.orchs tgid' = true := horchs ▸ hw.attached
    by_cases hqp : q = p
    · subst hqp
      obtain rfl : t = u := Option.some.inj (ht.symm.trans hw.task)
      rcases hwaiting hq with ⟨hitem, hwork⟩
      refine ⟨t', tgid', sid', hw.congr h'.task h'.gtid h'.orch (h'.sp.trans hitem.symm) ?_ ?_
        hattached' (by rw [hcached])⟩
      · rw [h'.hasWork, hw.hasWork, hwork]
      · exact fun hr => hw.blocked (h'.blocked hr)
    · exact ⟨u, tgid', sid', hw.frame (h'.heap q hqp) hattached' (by rw [hcached])⟩
  rcases h'.repeatables with hsame | ⟨hjoins, hblocked, hwork, hwork', hrepeating⟩
  · refine ⟨hsame ▸ h.nodup, fun q hq => hold q ?_⟩
    rwa [hsame] at hq
  · -- the task has lost its work, so it was not on the list
    have hp : p ∉ s.pausedRepeatables := by
      intro hp
      rcases h.waiting p hp with ⟨u, _, _, hw⟩
      obtain rfl : t = u := Option.some.inj (ht.symm.trans hw.task)
      simp [hw.hasWork] at hwork
    refine ⟨?_, fun q hq => ?_⟩
    · rw [hjoins]
      exact h.nodup.append (List.nodup_singleton p) (by simpa using hp)
    · rw [hjoins, List.mem_append, List.mem_singleton] at hq
      rcases hq with hq | rfl
      · exact hold q hq
      · refine ⟨t', tgid, sid, ⟨h'.task, hwork', fun hr => hblocked (h'.blocked hr),
          h'.orch.trans (hown hrepeating), h'.sp, hbound, horchs ▸ hattached, ?_, ?_, ?_⟩⟩
        · rw [hcached, h'.gtid, hgtid]
        · rw [hcached, ← h'.hasWork, hwork']
        · rw [hcached, hrepeating]

variable [DecidableEq C]

omit [DecidableEq G] [DecidableEq P] [DecidableEq T] in
theorem Refreshed.mode (h : Refreshed cfg s tgid sid s') : s'.mode = s.mode := by
  cases h with
  | ignored => rfl
  | updated _ _ _ _ hupdated =>
    have hrest := State.rest_eq hupdated.rest
    exact hrest.2.2.2.2.2.1

omit [DecidableEq G] [DecidableEq P] in
/-- An item is read again. -/
theorem Listed.refreshed {sp : SchedParams G} (h : Listed cfg s) (hinv : Inv cfg s)
    (hinv' : Inv cfg s') (hm : s.mode = .update ∨ s.mode = .scrape)
    (hattached : s.orchs tgid = true)
    (hbound : sid < cfg.numSchedItems tgid) (hsp : Respects cfg s tgid sid sp)
    (h' : Refreshed cfg (s.setParams tgid sid sp) tgid sid s') : Listed cfg s' := by
  rcases hm with hm | hm
  · have hparams := h.setParams hsp
    have hself : (s.setParams tgid sid sp).cachedsids tgid sid = sp := by simp [State.setParams]
    have hd : (s.setParams tgid sid sp).inDiscovery = false := by
      simp [State.inDiscovery, State.setParams, hm]
    cases h' with
    | ignored hsame =>
      obtain rfl := hsame hd
      exact hparams
    | @updated cached g p t t' s' hengines hg hp ht hupdated =>
      obtain rfl := hengines.same hd
      rcases (hinv.known g p).mp hp with ⟨u, hu, rfl⟩
      obtain rfl : t = u := Option.some.inj (ht.symm.trans hu)
      rw [hself] at hg
      refine hparams.updated hupdated ht hbound hattached (by rw [hself, hg]) ?_ fun hmem => ?_
      · rw [hself]
        exact fun hrepeating => hsp.own hrepeating _ hg p hp t ht
      · rcases hsp.waiting p hmem t ht (.inl hg) with ⟨-, hitem, hwork, -⟩
        exact ⟨hitem, by rw [hself, hwork]⟩
  · -- during the discovery the list stays empty
    have hmode := hinv'.mode
    rw [ModeInv, h'.mode, State.setParams, hm] at hmode
    exact .of_nil hmode.2.2

end Refresh

/-! ## Re-arming -/

section Rearm

/-- Two tasks on the list have different items. -/
theorem Listed.item_inj {q : P} {u : ShinjukuTask G C T} (h : Listed cfg s) (hinv : Inv cfg s)
    (hp : p ∈ s.pausedRepeatables) (ht : s.heap p = some t) (hsp : t.sp = some (.item tgid sid))
    (hq : Waiting cfg s q u tgid sid) : q = p := by
  rcases h.waiting p hp with ⟨v, tgid', sid', hw⟩
  obtain rfl : t = v := Option.some.inj (ht.symm.trans hw.task)
  obtain ⟨rfl, rfl⟩ : tgid' = tgid ∧ sid' = sid := by simpa [hw.sp] using hsp
  -- both belong to the thread of the item
  have hgtid : u.gtid = t.gtid := Option.some.inj (hq.gtid.symm.trans hw.gtid)
  have hknown : s.allocator t.gtid = some q := (hinv.known _ _).mpr ⟨u, hq.task, hgtid⟩
  exact Option.some.inj (hknown.symm.trans ((hinv.known _ _).mpr ⟨t, ht, rfl⟩))

variable [DecidableEq P] [DecidableEq T]

/-- A task has got work again. -/
theorem Listed.rearmed {i : ℕ} (h : Listed cfg s) (hinv : Inv cfg s)
    (hp : s.pausedRepeatables[i]? = some p) (h' : Rearmed s i p s') : Listed cfg s' := by
  cases h' with
  | waits =>
    refine ⟨h.nodup, fun q hq => ?_⟩
    rcases h.waiting q hq with ⟨u, tgid, sid, hw⟩
    exact ⟨u, tgid, sid, hw.frame rfl hw.attached rfl⟩
  | @armed t t' orch sid sp rq ht hitem =>
    refine ⟨h.nodup.eraseIdx i, fun q hq => ?_⟩
    rcases List.mem_eraseIdx_iff_getElem?.mp hq with ⟨j, hj, hget⟩
    have hqp : q ≠ p := by
      rintro rfl
      have hlt : j < s.pausedRepeatables.length := (List.getElem?_eq_some_iff.mp hget).1
      exact hj ((List.getElem?_inj hlt h.nodup).mp (hget.trans hp.symm))
    rcases h.waiting q (List.mem_of_getElem? hget) with ⟨u, tgid, sid', hw⟩
    refine ⟨u, tgid, sid', hw.frame (update_of_ne hqp ..) hw.attached ?_⟩
    dsimp only
    by_cases htgid : tgid = orch
    · subst htgid
      have hsid : sid' ≠ sid := by
        rintro rfl
        exact hqp (h.item_inj hinv (List.mem_of_getElem? hp) ht hitem hw)
      rw [update_self, update_of_ne hsid]
    · rw [update_of_ne htgid]

variable [DecidableEq G]

/-- The checks pass for a task that waits. -/
theorem rearm_ok (i : ℕ) (now : ℤ) {gpid : Option G} (h : Waiting cfg s p t tgid sid)
    (hlevel : t.unscheduleLevel = .no) (hgpid : gpid = (s.cachedsids tgid sid).gtid) :
    ∃ s', rearm cfg s i p now gpid = .ok s' := by
  unfold rearm
  rw [task_eq h.task, ok_bind]
  simp only [h.orch, ShinjukuTask.item, h.sp, ok_bind]
  split_ifs
  · simp [makeEngineRunnable, enqueue, check, State.task, State.setTask, State.setParams, h.bound,
      h.repeating, h.noWork, hgpid, hlevel, ShinjukuTask.item]
  · exact ⟨_, rfl⟩

end Rearm

/-! ## Runs -/

section Run

/-- When the pass comes to the list, the tasks on it are paused. -/
theorem Listed.paused {i : ℕ} (h : Listed cfg s) (hinv : Inv cfg s) (hm : s.mode = .rearm i)
    (hp : p ∈ s.pausedRepeatables) :
    ∃ t tgid sid, Waiting cfg s p t tgid sid ∧ t.runState = .paused := by
  rcases h.waiting p hp with ⟨t, tgid, sid, hw⟩
  exact ⟨t, tgid, sid, hw, (hinv.place_of_work hm hw.task hw.blocked).1.mpr hw.hasWork⟩

theorem Listed.rearmable (h : Listed cfg s) (hinv : Inv cfg s) : Rearmable s := by
  intro i p t hm hp ht
  rcases h.paused hinv hm (List.mem_of_getElem? hp) with ⟨u, _, _, hw, hr⟩
  obtain rfl : t = u := Option.some.inj (ht.symm.trans hw.task)
  exact hr

/-- Whether a step of the agent is careful. -/
def CarefulStep (cfg : Config G C T) : Agent G C P T → Action G C P T → Prop
  | .running s, a => Careful cfg s a
  | .stopped _, _ => True

instance [DecidableEq G] [DecidableEq P] [DecidableEq T] (x : Agent G C P T)
    (a : Action G C P T) : Decidable (CarefulStep cfg x a) := by
  unfold CarefulStep
  split <;> infer_instance

/-- The invariant of careful runs. -/
def InOrder (cfg : Config G C T) : Agent G C P T → Prop
  | .running s => Inv cfg s ∧ Listed cfg s
  | .stopped _ => True

variable [DecidableEq G] [DecidableEq C] [DecidableEq P] [DecidableEq T]

theorem Listed.evolves {a : Action G C P T} (h : Listed cfg s) (hinv : Inv cfg s)
    (hinv' : Inv cfg s') (hcareful : Careful cfg s a) (h' : Evolves cfg s a s') :
    Listed cfg s' := by
  cases h' with
  | dispatched _ h' =>
    cases h' with
    | handled hp ht h' => exact h.handled ht h' fun hmem => hcareful _ hmem hp
    | created hp _ h' => exact h.created hp h'
    | ignored => exact h
  | discovered _ hp h' => exact h.created hp h'
  | refreshed hm hattached hbound h' =>
    exact h.refreshed hinv hinv' hm hattached hbound hcareful h'
  | passes h' => exact h.keeps h'
  | rearmed _ hp h' => exact h.rearmed hinv hp h'

theorem InOrder.step {x y : Agent G C P T} {a : Action G C P T} (h : InOrder cfg x)
    (hcareful : CarefulStep cfg x a) (hstep : step cfg x a = some y) : InOrder cfg y := by
  rcases step_cases hstep with ⟨s, rfl, hend⟩
  rcases h with ⟨hinv, hlisted⟩
  rcases hend with ⟨s', rfl, hact⟩ | ⟨f, rfl, -⟩
  · rcases (hinv.act (hlisted.rearmable hinv) hact).of_ok rfl with ⟨hinv', hevolves⟩
    exact ⟨hinv', hlisted.evolves hinv hinv' hcareful hevolves⟩
  · trivial

theorem InOrder.of_run (h₀ : Init s₀) {x : Agent G C P T}
    (h : StepsWhen (CarefulStep cfg) (Shinjuku.step cfg) (.running s₀) x) : InOrder cfg x :=
  h.invariant (fun _ _ _ hx hok hstep => hx.step hok hstep) ⟨h₀.inv, .of_nil h₀.pausedRepeatables⟩

/-- In every run of careful steps no task is on the list twice, the pass finds live and paused tasks
without work on it, and giving them work again does not fault. -/
theorem repeatables_rearmed (h₀ : Init s₀)
    (h : StepsWhen (CarefulStep cfg) (step cfg) (.running s₀) (.running s)) :
    s.pausedRepeatables.Nodup ∧ (∀ i, s.mode = .rearm i → ∀ p ∈ s.pausedRepeatables,
        ∃ t, s.heap p = some t ∧ t.runState = .paused ∧ t.hasWork = false) ∧
      ∀ now gpid x, Careful cfg s (.rearm now gpid) →
        step cfg (.running s) (.rearm now gpid) = some x → ∃ s', x = .running s' := by
  rcases InOrder.of_run h₀ h with ⟨hinv, hlisted⟩
  refine ⟨hlisted.nodup, fun i hm p hp => ?_, fun now gpid x hcareful hstep => ?_⟩
  · rcases hlisted.paused hinv hm hp with ⟨t, _, _, hw, hr⟩
    exact ⟨t, hw.task, hr, hw.hasWork⟩
  · rcases step_cases hstep with ⟨s₁, heq, hend⟩
    cases heq
    rcases hend with ⟨s', rfl, -⟩ | ⟨f, rfl, hact⟩
    · exact ⟨s', rfl⟩
    · simp only [act] at hact
      split at hact
      · rename_i i hm
        rcases Option.map_eq_some_iff.mp hact with ⟨p, hp, hfault⟩
        rcases hlisted.paused hinv hm (List.mem_of_getElem? hp) with ⟨t, tgid, sid, hw, hr⟩
        have hlevel := hinv.good.level_of_offCpu hw.task (by simp [hr])
        have hgpid : gpid = (s.cachedsids tgid sid).gtid :=
          hcareful p (by simpa [State.rearmed, hm] using hp) t hw.task _ hw.sp
        rcases rearm_ok i now hw hlevel hgpid with ⟨s', hok⟩
        cases hok.symm.trans hfault
      · cases hact

end Run

/-! ## A task that departs while it is on the list -/

/-- One cpu and one process whose work classes are all repeating. -/
def oneEngine : Config Bool Unit Unit :=
  { oneCpu with repeating := fun _ _ => true, period := fun _ _ => 10 }

/-- A thread runs and has no work any more. The pass takes it off its cpu and finds that its period
is not over. -/
def pauseEngine : List (Action Bool Unit Bool Unit) :=
  [.scrape, .discoveryComplete, .dispatch ⟨true, .new () true, 1, 0⟩ true ⟨false, true, none⟩,
    .updateSchedParams, .refresh () 0 (.copied ⟨some true, 0, true, 0⟩) none 0] ++ passOverCpu ++
  [.commit true 0 0, .requeueYielding, .endPass,
    .updateSchedParams, .refresh () 0 (.copied ⟨some true, 0, false, 0⟩) none 0,
    .globalSchedule, .pick true false 0, .endPick, .settleLevel, .openTransactions,
    .pick true false 0, .settleLevel, .openTransactions, .requeueYielding,
    .rearm 5 (some true), .endPass]

/-- A pass without tasks, up to the point where it comes to the list. -/
def passOverIdle : List (Action Bool Unit Bool Unit) :=
  [.updateSchedParams, .globalSchedule, .pick true false 0, .settleLevel, .openTransactions,
    .pick true false 0, .settleLevel, .openTransactions, .requeueYielding]

/-- The state after some actions. -/
def engineReached (as : List (Action Bool Unit Bool Unit)) : State Bool Unit Bool Unit :=
  match Transition.exec (step oneEngine) (.running noTasks) as with
  | some (.running s) => s
  | _ => noTasks

/-- The thread leaves ghost, and the next pass comes to the list. -/
def departEngine : List (Action Bool Unit Bool Unit) :=
  pauseEngine ++ [.dispatch ⟨true, .departed none, 2, 0⟩ true ⟨false, true, none⟩] ++
    passOverIdle ++ [.rearm 20 (some true)]

/-- The thread blocks, and the next pass comes to the list. -/
def blockEngine : List (Action Bool Unit Bool Unit) :=
  pauseEngine ++ [.dispatch ⟨true, .blocked () false, 2, 0⟩ true ⟨false, true, none⟩] ++
    passOverIdle

/-- If the thread departs before its period is over, the pass follows a pointer to the freed task.
If it blocks, the pass finds a task on the list that is not paused. -/
theorem repeatables_departed : Steps (step oneEngine) (.running noTasks) (.stopped .freed) ∧
      ∃ s : State Bool Unit Bool Unit, Steps (step oneEngine) (.running noTasks) (.running s) ∧
        s.mode = .rearm 0 ∧ s.pausedRepeatables = [true] ∧
        (s.heap true).map (·.runState) = some .blocked :=
  ⟨.of_exec (show exec _ _ departEngine = _ from rfl), engineReached blockEngine,
    .of_exec (show exec _ _ blockEngine = _ from rfl), rfl, rfl, rfl⟩

theorem pauseEngine_run : StepsWhen (CarefulStep oneEngine) (step oneEngine) (.running noTasks)
    (.running (engineReached (pauseEngine ++ passOverIdle))) :=
  .of_execWhen (fun _ _ h => of_decide_eq_true h) (pauseEngine ++ passOverIdle) rfl

theorem repeatables_rearmed_engine : (engineReached (pauseEngine ++ passOverIdle)).mode = .rearm 0 ∧
      (engineReached (pauseEngine ++ passOverIdle)).pausedRepeatables = [true] ∧
      ∃ t, (engineReached (pauseEngine ++ passOverIdle)).heap true = some t ∧
        t.runState = .paused ∧ t.hasWork = false :=
  ⟨rfl, rfl, (repeatables_rearmed noTasks_init pauseEngine_run).2.1 0 rfl true (by decide)⟩

end Shinjuku
