import GhostSched.Shinjuku.Invariant

/-!
# The passes of the Shinjuku scheduler

Each step of `GlobalSchedule` keeps the invariant.

* The first loop takes tasks from the run queue and makes them `next` of a cpu.
* The second loop settles the unschedule levels.
* The third loop opens the transactions, and the fourth looks at their results.
* At the end the tasks that have skipped the pass go back to the run queue, and paused
  repeatables get work again.
-/

namespace Shinjuku

open Central Checked Function

variable {G C P T : Type} {cfg : Config G C T} {s s' : State G C P T} {p : P} {c : C}
  {t t' : ShinjukuTask G C T}

/-! ## What a pass keeps -/

/-- A task that may have gone to another place. -/
structure Same (t t' : ShinjukuTask G C T) : Prop where
  gtid : t'.gtid = t.gtid
  orch : t'.orch = t.orch
  sp : t'.sp = t.sp
  hasWork : t'.hasWork = t.hasWork
  blocked : t'.runState = .blocked → t.runState = .blocked

theorem Same.refl : Same t t := ⟨rfl, rfl, rfl, rfl, id⟩

/-- One change after the other. -/
theorem Same.trans {t'' : ShinjukuTask G C T} (h : Same t t') (h' : Same t' t'') : Same t t'' :=
  ⟨h'.gtid.trans h.gtid, h'.orch.trans h.orch, h'.sp.trans h.sp, h'.hasWork.trans h.hasWork,
    fun hr => h.blocked (h'.blocked hr)⟩

/-- A step of a pass only changes the places of tasks. -/
structure Keeps (s s' : State G C P T) : Prop where
  allocator : s'.allocator = s.allocator
  repeatables : s'.pausedRepeatables = s.pausedRepeatables
  orchs : s'.orchs = s.orchs
  cachedsids : s'.cachedsids = s.cachedsids
  task : ∀ p t, s.heap p = some t → ∃ t', s'.heap p = some t' ∧ Same t t'
  none : ∀ p, s.heap p = none → s'.heap p = none

/-- No task changes. -/
theorem Keeps.of_eq (hheap : s'.heap = s.heap) (hallocator : s'.allocator = s.allocator)
    (hrepeatables : s'.pausedRepeatables = s.pausedRepeatables) (horchs : s'.orchs = s.orchs)
    (hcached : s'.cachedsids = s.cachedsids) : Keeps s s' :=
  ⟨hallocator, hrepeatables, horchs, hcached, fun _ t ht => ⟨t, hheap ▸ ht, .refl⟩,
    fun _ hp => hheap ▸ hp⟩

/-- One part of a pass after the other. -/
theorem Keeps.trans {s'' : State G C P T} (h : Keeps s s') (h' : Keeps s' s'') : Keeps s s'' where
  allocator := h'.allocator.trans h.allocator
  repeatables := h'.repeatables.trans h.repeatables
  orchs := h'.orchs.trans h.orchs
  cachedsids := h'.cachedsids.trans h.cachedsids
  task p t ht := by
    rcases h.task p t ht with ⟨t', ht', hsame⟩
    rcases h'.task p t' ht' with ⟨t'', ht'', hsame'⟩
    exact ⟨t'', ht'', hsame.trans hsame'⟩
  none p hp := h'.none p (h.none p hp)

/-- The record of one task has changed. -/
theorem Keeps.of_update [DecidableEq P] (ht : s.heap p = some t)
    (hheap : s'.heap = update s.heap p (some t')) (hsame : Same t t')
    (hallocator : s'.allocator = s.allocator)
    (hrepeatables : s'.pausedRepeatables = s.pausedRepeatables) (horchs : s'.orchs = s.orchs)
    (hcached : s'.cachedsids = s.cachedsids) : Keeps s s' := by
  refine ⟨hallocator, hrepeatables, horchs, hcached, fun q u hu => ?_, fun q hq => ?_⟩
  · rw [hheap]
    by_cases hqp : q = p
    · subst hqp
      obtain rfl : t = u := Option.some.inj (ht.symm.trans hu)
      exact ⟨t', update_self .., hsame⟩
    · exact ⟨u, (update_of_ne hqp ..).trans hu, .refl⟩
  · rw [hheap, update_of_ne, hq]
    rintro rfl
    cases ht.symm.trans hq

/-- One task has gone to another place. -/
theorem Keeps.of_moves [DecidableEq P] (h : Moves s s' p) (ht : s.heap p = some t)
    (ht' : s'.heap p = some t')
    (hsame : Same t t') : Keeps s s' := by
  have hrest := State.rest_eq h.rest
  refine .of_update ht ?_ hsame hrest.1 hrest.2.2.1 hrest.2.2.2.1 hrest.2.2.2.2.1
  grind [h.heap]

/-- `Enqueue` changes the state only. -/
theorem same_enqueued : Same t t.enqueued :=
  ⟨rfl, rfl, rfl, rfl, fun h => by
    simp only [ShinjukuTask.enqueued] at h
    split at h <;> cases h⟩

/-- The allocator still knows the tasks. -/
theorem Keeps.known (h : Keeps s s') (hknown : Known s) : Known s' := by
  intro g p
  rw [h.allocator, hknown g p]
  cases ht : s.heap p with
  | none => simp [h.none p ht]
  | some t =>
    rcases h.task p t ht with ⟨t', ht', hsame⟩
    simp [ht', hsame.gtid]

/-- The outcome of a step of a pass. -/
def Passes (cfg : Config G C T) (s s' : State G C P T) : Prop :=
  Inv cfg s' ∧ Keeps s s'

/-- The pass goes to its next part. -/
theorem Inv.enter {m : Mode C} (h : Inv cfg s) (hm : ModeInv cfg { s with mode := m }) :
    Passes cfg s { s with mode := m } :=
  ⟨⟨h.good, h.known, h.cpus, h.nextCpus, hm⟩, .of_eq rfl rfl rfl rfl rfl⟩

/-! ## Picking tasks -/

section Pick

variable {r : Round} {again : Bool} {cpus updated : List C}

/-- The cpu is left as it is. -/
theorem Picking.next_cpu (h : Picking cfg s r again (c :: cpus) updated) :
    Picking cfg s r false cpus updated where
  nodup := (List.nodup_cons.mp h.nodup).2
  subset _ hc' := h.subset (List.mem_cons_of_mem c hc')
  opened := h.opened
  levels := h.levels
  fresh hr c' hc' := h.fresh hr c' (List.mem_cons_of_mem c hc')
  again hagain := by cases hagain

variable {usable : Bool}

/-- A cpu that is not skipped may get a task in this round. -/
theorem skipForSchedule_spec (h : r = .first → s.next c = none) :
    Ensures NotPaused (skipForSchedule s r c usable) fun skip => skip = false → Ready s r c := by
  unfold skipForSchedule
  split
  · exact .ok (by simp)
  split
  · rename_i p hp
    refine .bind task_spec fun t ht => .pure fun hmust => ⟨h rfl, fun _ q u hq hu => ?_⟩
    obtain rfl : p = q := Option.some.inj (hp.symm.trans hq)
    obtain rfl : t = u := Option.some.inj (ht.symm.trans hu)
    simpa using hmust
  · rename_i hnone
    exact .ok fun _ => ⟨h rfl, fun _ q u hq => by simp [hnone] at hq⟩
  · exact .ok fun hnext => ⟨by simpa using hnext, by simp⟩

variable {now : ℤ}

/-- The decision to preempt changes nothing. -/
theorem shouldPreempt_spec :
    Ensures NotPaused (shouldPreempt cfg s p now) fun _ => True := by
  refine .bind task_spec fun t _ => .bind front_spec fun o _ => ?_
  split
  · exact .pure trivial
  · refine .bind item_spec fun sp _ => .bind task_spec fun u _ => .bind item_spec fun sp' _ => ?_
    split_ifs <;> exact .pure trivial

/-- A pass that has picked tasks for all cpus. -/
theorem Inv.levels (h : Inv cfg s) (hopened : Opened s updated)
    (hlevels : Levels s (roundRule r s.next)) :
    Passes cfg s { s with mode := .levels r cfg.cpus updated } := by
  refine h.enter ?_
  cases r with
  | first =>
    refine ⟨cfg.nodup, hopened, ?_⟩
    refine Levels.mono hlevels fun c l hc hrule => ⟨fun _ => hrule, fun hnot => ?_⟩
    exact absurd (h.cpus c hc) hnot
  | second => exact ⟨hopened, hlevels⟩

/-- A task on the run queue has work and is not marked. -/
theorem Good.queued (h : Good s) (hp : p ∈ s.runQueue.tasks) :
    ∃ t, s.heap p = some t ∧ t.runState = .queued ∧ t.hasWork = true ∧ t.unscheduleLevel = .no := by
  rcases h with ⟨place, hb, hfits⟩
  grind [hb.mem_queue, cases Shinjuku.Fits]

variable [DecidableEq P]

variable {rest : RunQueue P}

/-- A task that is still on its old cpu skips the pass. -/
theorem Inv.pick_yield (h : Inv cfg s) (hpick : Picking cfg s r again (c :: cpus) updated)
    (hready : Ready s r c) (hpop : s.runQueue.pop = some (p, rest)) :
    Ensures NotPaused (yield { s with runQueue := rest } p) fun s' =>
      Passes cfg s { s' with mode := .pick r true (c :: cpus) updated } := by
  have hperm := RunQueue.tasks_pop hpop
  have hmem : p ∈ s.runQueue.tasks := hperm.mem_iff.mpr List.mem_cons_self
  rcases h.good.queued hmem with ⟨t, ht, hr, hwork, hlevel⟩
  have hheld : Held { s with runQueue := rest } p := Placed.lift_queue h.good hperm
  refine (yield_spec hheld ht hwork hlevel).mono ?_
  rintro s' ⟨hgood, hmoves, ht'⟩
  rcases State.rest_eq hmoves.rest with ⟨hallocator, hnext, hrepeatables, horchs, hcached, -, hopen⟩
  have hcurrent : ∀ c' q, s'.current c' = some q → s.current c' = some q ∧
    s'.heap q = s.heap q := by
    grind [hmoves.current, hmoves.heap, h.good.not_current_of_queued]
  have hkeeps : Keeps s s' := by
    have hkeeps := Keeps.of_moves hmoves ht ht' ⟨rfl, rfl, rfl, rfl, by simp⟩
    exact { hkeeps with }
  refine ⟨⟨hgood, hkeeps.known h.known, ?_, ?_, ?_⟩, ?_⟩
  · intro c' hc'
    rcases Option.ne_none_iff_exists'.mp hc' with ⟨q, hq⟩
    exact h.cpus c' (Option.ne_none_iff_exists'.mpr ⟨q, (hcurrent c' q hq).1⟩)
  · intro c' hc'
    exact h.nextCpus c' (hnext ▸ hc')
  · refine
      { nodup := hpick.nodup
        subset := hpick.subset
        opened := ?_
        levels := ?_
        fresh := fun hr c' hc' => hnext ▸ hpick.fresh hr c' hc'
        again := ?_ }
    · grind [hpick.opened, Shinjuku.Opened]
    · rw [hnext]
      exact hpick.levels.of_same hcurrent
    · rintro - c' rest' hcons
      constructor <;> grind [hready.next, hready.level]
  · exact { hkeeps with }

variable [DecidableEq C]

/-- A task becomes the next one of a cpu. -/
theorem Inv.pick_next (h : Inv cfg s) (hpick : Picking cfg s r again (c :: cpus) updated)
    (hready : Ready s r c) (hpop : s.runQueue.pop = some (p, rest)) :
    Inv cfg { s with
      runQueue := rest
      next := update s.next c (some p)
      mode := .pick r false cpus (updated ++ [c]) } := by
  have hperm := RunQueue.tasks_pop hpop
  rcases h.good.queued (hperm.mem_iff.mpr List.mem_cons_self) with ⟨t, ht, hr, hwork, hlevel⟩
  have hlift : Lifted p Fits s.heap rest.tasks s.yieldingTasks s.current s.next :=
    Placed.lift_queue h.good hperm
  have hmem : c ∈ cfg.cpus := hpick.subset List.mem_cons_self
  refine ⟨?_, h.known, h.cpus, ?_, ?_⟩
  · refine hlift.put_next ?_ hready.next
    rw [ht]
    exact .picked hr hwork hlevel
  · grind [h.nextCpus]
  · refine
      { nodup := (List.nodup_cons.mp hpick.nodup).2
        subset := fun _ hc' => hpick.subset (List.mem_cons_of_mem c hc')
        opened := ?_
        levels := ?_
        fresh := ?_
        again := by simp }
    · grind [hpick.opened, Shinjuku.Opened]
    · intro c' q u hq hu
      have hrule := hpick.levels c' q u hq hu
      cases r with
      | first =>
        intro hnext
        by_cases hcc : c' = c
        · subst hcc
          exact hready.level rfl q u hq hu
        · exact hrule (by simpa [update_of_ne hcc] using hnext)
      | second =>
        refine hrule.imp_right fun hmust => ⟨hmust.1, ?_⟩
        by_cases hcc : c' = c
        · simp [hcc]
        · simpa [update_of_ne hcc] using hmust.2
    · grind [hpick.nodup, hpick.fresh]

variable {onCpu : Bool}

/-- A cpu gets the first task of the run queue. -/
theorem Inv.pickTask (h : Inv cfg s) (hpick : Picking cfg s r again (c :: cpus) updated)
    (hready : Ready s r c) :
    Ensures NotPaused (pickTask cfg s r c cpus updated onCpu) (Passes cfg s) := by
  refine .bind front_spec fun o ho => ?_
  split
  · exact .pure (h.levels hpick.opened hpick.levels)
  · dsimp only
    split_ifs
    · exact .bind (h.pick_yield hpick hready ho.symm) fun s' hs' => .pure hs'
    · exact .pure ⟨h.pick_next hpick hready ho.symm, .of_eq rfl rfl rfl rfl rfl⟩

/-- One round of the loop over the cpus. -/
theorem Inv.pickFor (h : Inv cfg s) (hm : s.mode = .pick r again (c :: cpus) updated) :
    Ensures NotPaused (pickFor cfg s r again c cpus updated usable onCpu now) (Passes cfg s) := by
  have hpick := h.mode
  rw [ModeInv, hm] at hpick
  have hleave : Passes cfg s { s with mode := .pick r false cpus updated } := by
    have hnext := hpick.next_cpu
    exact h.enter ⟨hnext.nodup, hnext.subset, hnext.opened, hnext.levels, hnext.fresh, by simp⟩
  have hskip : Ensures NotPaused
      (if again then .ok false else skipForSchedule s r c usable) fun skip =>
        skip = false → Ready s r c := by
    split_ifs with hagain
    · exact .ok fun _ => hpick.again hagain c cpus rfl
    · exact skipForSchedule_spec fun hr => hpick.fresh hr c List.mem_cons_self
  refine .bind hskip fun skip hready => ?_
  split_ifs with hs
  · exact .pure hleave
  · refine .bind (P := fun _ => True) ?_ fun preempt _ => ?_
    · split
      · exact shouldPreempt_spec
      · exact .ok trivial
    · split_ifs
      · exact h.pickTask hpick (hready (by simpa using hs))
      · exact .pure hleave

end Pick

/-! ## Settling the levels -/

section Levels

variable [DecidableEq P] [DecidableEq C]

/-- `UnscheduleTask`, of the current task of a cpu. -/
theorem unscheduleTask_eq (ht : s.heap p = some t) (hr : t.runState = .onCpu)
    (hc : t.cpu = some c) :
    unscheduleTask s p =
      .ok { s.setTask p { t with runState := .paused, unscheduleLevel := .no } with
        current := update s.current c none } := by
  unfold unscheduleTask
  rw [task_eq ht, ok_bind, hc, check, if_pos hr]
  rfl

/-- The cpu of a task idles. -/
theorem Good.unschedule (h : Good s) (hc : s.current c = some p) (hwork : t.hasWork = false) :
    Good { s.setTask p { t with runState := .paused, unscheduleLevel := .no } with
      current := update s.current c none } := by
  refine ((Placed.lift_current h hc).retask _).put_out ?_
  rw [update_self]
  exact .paused rfl hwork rfl

/-- What may happen to the task of one cpu. -/
structure OnCpu (s s' : State G C P T) (c : C) : Prop where
  good : Good s'
  keeps : Keeps s s'
  rest : s'.rest = s.rest
  current : ∀ c' q, s'.current c' = some q →
    s.current c' = some q ∧ (c' ≠ c → s'.heap q = s.heap q)

omit [DecidableEq P] [DecidableEq C] in
theorem OnCpu.refl (h : Good s) : OnCpu s s c :=
  ⟨h, .of_eq rfl rfl rfl rfl rfl, rfl, fun _ _ hq => ⟨hq, fun _ => rfl⟩⟩

omit [DecidableEq P] [DecidableEq C] in
/-- The rule for the levels holds again once it holds at that cpu. -/
theorem OnCpu.levels {rule : C → UnscheduleLevel → Prop} (h : OnCpu s s' c)
    (hrule : ∀ c' p t, c' ≠ c → s.current c' = some p → s.heap p = some t →
      rule c' t.unscheduleLevel)
    (hself : ∀ p t, s'.current c = some p → s'.heap p = some t → rule c t.unscheduleLevel) :
    Levels s' rule := by
  intro c' p t hp ht
  by_cases hc : c' = c
  · subst hc
    exact hself p t hp ht
  · rcases h.current c' p hp with ⟨hp', hheap⟩
    exact hrule c' p t hc hp' (hheap hc ▸ ht)

/-- The task of a cpu is taken off. -/
theorem unscheduleTask_spec (h : Good s) (hc : s.current c = some p) (ht : s.heap p = some t)
    (hwork : t.hasWork = false) :
    Ensures NotPaused (unscheduleTask s p) fun s' =>
      OnCpu s s' c ∧ s'.current c = none ∧
        s'.heap p = some { t with runState := .paused, unscheduleLevel := .no } := by
  rcases h.current hc with ⟨u, hu, hr, hcpu, -⟩
  obtain rfl : t = u := Option.some.inj (ht.symm.trans hu)
  rw [unscheduleTask_eq ht hr hcpu]
  refine .ok ⟨⟨h.unschedule hc hwork, ?_, rfl, ?_⟩, update_self .., update_self ..⟩
  · exact .of_update ht rfl ⟨rfl, rfl, rfl, rfl, by simp⟩ rfl rfl rfl rfl
  · intro c' q hq
    by_cases hcc : c' = c
    · simp [hcc] at hq
    · have hq' : s.current c' = some q := by simpa [update_of_ne hcc] using hq
      refine ⟨hq', fun _ => update_of_ne ?_ ..⟩
      rintro rfl
      exact hcc (h.current_inj hq' hc)

/-- A task without successor is not marked afterwards. -/
theorem keepOrUnschedule_spec (h : Good s) (hc : s.current c = some p) :
    Ensures NotPaused (keepOrUnschedule s p) fun s' =>
      OnCpu s s' c ∧ ∃ t, s'.heap p = some t ∧ t.unscheduleLevel = .no := by
  rcases h.current hc with ⟨t, ht, hr, hcpu, hwork⟩
  unfold keepOrUnschedule
  rw [task_eq ht, ok_bind]
  split
  · rename_i hlevel
    exact .pure ⟨.refl h, t, ht, hlevel⟩
  · rename_i hlevel
    refine .pure ⟨⟨?_, .of_moves moves_setTask ht (update_self ..) ⟨rfl, rfl, rfl, rfl, id⟩,
      rfl, fun c' q hq => ⟨hq, fun hcc => update_of_ne ?_ ..⟩⟩, _, update_self .., rfl⟩
    · exact h.setTask_onCpu ht hr rfl rfl (by simp [hwork, hlevel])
    · rintro rfl
      exact hcc (h.current_inj hq hc)
  · rename_i hlevel
    refine (unscheduleTask_spec h hc ht (by simpa [hlevel] using hwork)).mono ?_
    rintro s' ⟨honCpu, -, ht'⟩
    exact ⟨honCpu, _, ht', rfl⟩

/-- One round of the second loop. -/
theorem settleLevel_spec (h : Good s) :
    Ensures NotPaused (settleLevel s c) fun s' =>
      OnCpu s s' c ∧ ∀ p t, s'.current c = some p → s'.heap p = some t →
        t.unscheduleLevel = .no ∨ s.next c ≠ none ∧ s.current c = some p ∧ s.heap p = some t := by
  unfold settleLevel
  split
  · rename_i hnone
    exact .ok ⟨.refl h, by simp [hnone]⟩
  · rename_i p hp
    have hsettle : Ensures NotPaused (if (s.next c).isNone then keepOrUnschedule s p else .ok s)
        fun s' => OnCpu s s' c ∧ ((∃ t, s'.heap p = some t ∧ t.unscheduleLevel = .no) ∨
          s.next c ≠ none ∧ s' = s) := by
      split_ifs with hnext
      · exact (keepOrUnschedule_spec h hp).mono fun s' hs' => ⟨hs'.1, .inl hs'.2⟩
      · exact .ok ⟨.refl h, .inr ⟨by simpa using hnext, rfl⟩⟩
    refine .bind hsettle fun s' ⟨honCpu, hlevel⟩ => ?_
    refine .bind task_spec fun u hu => .bind check_spec fun _ _ => .pure ⟨honCpu, ?_⟩
    grind [honCpu.current]

/-- The levels of one cpu are settled after the tasks are picked. -/
theorem Inv.settleLevel {r : Round} {cpus updated : List C} (h : Inv cfg s)
    (hm : s.mode = .levels r (c :: cpus) updated) :
    Ensures NotPaused (settleLevel { s with mode := .levels r cpus updated } c) (Passes cfg s) := by
  have hgood : Good { s with mode := Mode.levels r cpus updated } := h.good
  refine (settleLevel_spec hgood).mono ?_
  rintro s' ⟨honCpu, hself⟩
  have hrest := honCpu.rest
  simp only [State.rest, Prod.mk.injEq] at hrest
  rcases hrest with ⟨-, hnext, -, -, -, hmode, hopen⟩
  have hkeeps : Keeps s s' := by
    have hk := honCpu.keeps
    exact { hk with }
  have hinv := h.mode
  rw [ModeInv, hm] at hinv
  refine ⟨⟨honCpu.good, hkeeps.known h.known, ?_, hnext ▸ h.nextCpus, ?_⟩, hkeeps⟩
  · intro c' hc'
    rcases Option.ne_none_iff_exists'.mp hc' with ⟨q, hq⟩
    exact h.cpus c' (Option.ne_none_iff_exists'.mpr ⟨q, (honCpu.current c' q hq).1⟩)
  · have hopened : Opened s updated → Opened s' updated := by
      intro hopened c'
      have hc' := hopened c'
      rwa [← hnext, ← hopen] at hc'
    rw [ModeInv, hmode]
    cases r with
    | first =>
      rcases hinv with ⟨hnodup, hop, hlevels⟩
      refine ⟨(List.nodup_cons.mp hnodup).2, hopened hop,
        honCpu.levels (fun c' q u hcc hq hu => ?_) fun q u hq hu => ?_⟩
      · rcases hlevels c' q u hq hu with ⟨hin, hout⟩
        rw [hnext]
        exact ⟨fun hmem => hin (List.mem_cons_of_mem c hmem),
          fun hnot => hout (by simp [hcc, hnot])⟩
      · -- the level of this cpu is settled now
        rw [hnext]
        refine ⟨fun hmem => absurd hmem (List.nodup_cons.mp hnodup).1, fun _ => ?_⟩
        rcases hself q u hq hu with hno | ⟨hsome, hq', hu'⟩
        · exact .inl hno
        · exact .inr ⟨(hlevels c q u hq' hu').1 List.mem_cons_self hsome, hsome⟩
    | second =>
      refine ⟨hopened hinv.1, honCpu.levels (fun c' q u _ hq hu => ?_) fun q u hq hu => ?_⟩
      · rw [hnext]
        exact hinv.2 c' q u hq hu
      · rw [hnext]
        rcases hself q u hq hu with hno | ⟨-, hq', hu'⟩
        · exact .inl hno
        · exact hinv.2 c q u hq' hu'

end Levels

/-! ## Transactions -/

section Commit

variable {updated : List C} {r : Round}

/-- The levels are settled after the second loop. -/
theorem Inv.settled (h : Inv cfg s) (hm : s.mode = .levels r [] updated) :
    Opened s updated ∧ Levels s (Settled s.next) := by
  have hinv := h.mode
  grind [ModeInv, Shinjuku.Levels]

variable [DecidableEq P] [DecidableEq C]

/-- The transactions of the cpus with a new task are opened. -/
theorem Inv.openTransactions (h : Inv cfg s) (hm : s.mode = .levels r [] updated) :
    Ensures NotPaused (openTransactions cfg s r updated) (Passes cfg s) := by
  rcases h.settled hm with ⟨hopened, hlevels⟩
  unfold Shinjuku.openTransactions
  refine .bind check_spec fun _ hsome => .pure ⟨⟨h.good, h.known, h.cpus, h.nextCpus, ?_⟩,
    .of_eq rfl rfl rfl rfl rfl⟩
  -- the current task is never the next one
  have hfilter : updated.filter (fun c => s.current c ≠ s.next c) = updated := by
    refine List.filter_eq_self.mpr fun c hc => ?_
    rcases Option.isSome_iff_exists.mp (hsome c hc) with ⟨p, hp⟩
    simpa [hp] using h.good.not_current_of_next hp
  rw [hfilter]
  have hiff : ∀ c, s.next c ≠ none ↔ c ∈ s.openCpus ++ updated := by
    intro c
    rw [hopened c, List.mem_append, or_comm]
  cases r with
  | first =>
    exact
      { nodup := cfg.nodup
        subset := fun _ hc => hc
        opened := fun c => by simpa using hiff c
        levels := hlevels
        fresh := by simp
        again := by simp }
  | second =>
    refine ⟨cfg.nodup.filter _, fun c => ?_, hlevels⟩
    rw [List.mem_filter, decide_eq_true_iff, ← hiff]
    exact ⟨fun hc => ⟨h.nextCpus c hc, hc⟩, And.right⟩

variable {runtime : ℕ}

omit [DecidableEq C] in
/-- A task that has lost its cpu. The cpu still refers to it. -/
theorem displace_result {prev : P} (ht : s.heap prev = some t) :
    Ensures NotPaused (displace s prev runtime) fun s' =>
      ∃ t', Same t t' ∧ t'.unscheduleLevel = .no ∧ ∃ rq, Grows t' prev s.runQueue rq ∧
        s' = { s.setTask prev t'.enqueued with runQueue := rq } := by
  unfold displace
  rw [task_eq ht, ok_bind]
  refine .bind check_spec fun _ hr => .bind check_spec fun _ _ => ?_
  refine (enqueue_result (update_self ..)).mono ?_
  rintro s' ⟨hlevel, rq, hrq, rfl⟩
  refine ⟨{ t with
    unscheduleLevel := .no
    runtime := runtime
    elapsedRuntime := t.elapsedRuntime + (runtime - t.runtime) },
    ⟨rfl, rfl, rfl, rfl, id⟩, hlevel, rq, hrq, ?_⟩
  rw [setTask_setTask]

/-- A task gets on a cpu that no other task is on. -/
theorem Good.put_onCpu (h : Good s) (hp : s.next c = some p) (hc : s.current c = none)
    (hcpu : t.cpu = some c) (hr : t.runState = .onCpu) (hwork : t.hasWork = true)
    (hlevel : t.unscheduleLevel = .no) :
    Good { s.setTask p t with
      next := update s.next c none
      current := update s.current c (some p) } := by
  refine ((Placed.lift_next h hp).retask (some t)).put_current ?_ hc
  rw [update_self]
  exact .onCpu hr hcpu (by simp [hwork, hlevel])

/-- The state of a cpu once its transaction has been looked at. -/
structure Committed (s s' : State G C P T) (c : C) (cpus : List C) : Prop where
  good : Good s'
  keeps : Keeps s s'
  next : s'.next = update s.next c none
  mode : s'.mode = .commit cpus
  level : ∀ p t, s'.current c = some p → s'.heap p = some t → t.unscheduleLevel = .no
  others : ∀ c' ≠ c, ∀ p, s'.current c' = some p →
    s.current c' = some p ∧ s'.heap p = s.heap p

variable {cpus : List C}

omit [DecidableEq P] in
/-- A transaction has succeeded or failed, and the pass goes on. -/
theorem Inv.committed (h : Inv cfg s) (hm : s.mode = .commit (c :: cpus))
    (h' : Committed s s' c cpus) : Passes cfg s s' := by
  have hinv := h.mode
  rw [ModeInv, hm] at hinv
  rcases hinv with ⟨hnodup, hnext, hlevels⟩
  have hc := (hnext c).mpr List.mem_cons_self
  rcases List.nodup_cons.mp hnodup with ⟨hnot, hnodup'⟩
  have hnext' : ∀ c' ≠ c, s'.next c' = s.next c' := fun c' hcc => by
    rw [h'.next, Function.update_of_ne hcc]
  refine ⟨⟨h'.good, h'.keeps.known h.known, fun c' hc' => ?_, fun c' hc' => ?_, ?_⟩, h'.keeps⟩
  · by_cases hcc : c' = c
    · exact hcc ▸ h.nextCpus c hc
    · rcases Option.ne_none_iff_exists'.mp hc' with ⟨q, hq⟩
      exact h.cpus c' (Option.ne_none_iff_exists'.mpr ⟨q, (h'.others c' hcc q hq).1⟩)
  · by_cases hcc : c' = c
    · exact hcc ▸ h.nextCpus c hc
    · exact h.nextCpus c' (hnext' c' hcc ▸ hc')
  · rw [ModeInv, h'.mode]
    refine ⟨hnodup', fun c' => ?_, fun c' q u hq hu => ?_⟩
    · by_cases hcc : c' = c
      · simp [h'.next, hcc, hnot]
      · rw [hnext' c' hcc, hnext c']
        simp [hcc]
    · by_cases hcc : c' = c
      · subst hcc
        exact .inl (h'.level q u hq hu)
      · rcases h'.others c' hcc q hq with ⟨hq', hheap⟩
        unfold Settled
        rw [hnext' c' hcc]
        exact hlevels c' q u hq' (hheap ▸ hu)

/-- A cpu that is about to get its next task, with the state `S` it would be in without its old
task. -/
structure Vacated (s S : State G C P T) (c : C) : Prop where
  good : Good S
  keeps : Keeps s S
  next : S.next = s.next
  current : S.current = update s.current c none
  others : ∀ p, s.current c ≠ some p → S.heap p = s.heap p

/-- The old task of the cpu is displaced. -/
theorem displace_spec (next : C → Option P) (mode : Mode C) (h : Good s) :
    Ensures NotPaused
      (match s.current c with
      | none => .ok { s with next := next, mode := mode }
      | some prev => displace { s with next := next, mode := mode } prev runtime) fun s' =>
        ∃ S, Vacated s S c ∧ s' = { S with next := next, current := s.current, mode := mode } := by
  split
  · rename_i hnone
    refine .ok ⟨s, ⟨h, .of_eq rfl rfl rfl rfl rfl, rfl, ?_, fun _ _ => rfl⟩, rfl⟩
    rw [← hnone, update_eq_self]
  · rename_i prev hprev
    rcases h.current hprev with ⟨t, ht, -⟩
    refine (displace_result (s := { s with next := next, mode := mode }) ht).mono ?_
    rintro s' ⟨t', hsame, hlevel, rq, hrq, rfl⟩
    have hheld : Held { s with current := update s.current c none } prev :=
      Placed.lift_current h hprev
    refine ⟨_, ⟨hheld.enqueued hlevel hrq,
      .of_update ht rfl (hsame.trans same_enqueued) rfl rfl rfl rfl, rfl, rfl,
      fun q hq => update_of_ne ?_ ..⟩, rfl⟩
    rintro rfl
    exact hq hprev

variable {now : ℤ}

/-- The next task gets on the cpu. -/
theorem commitSucceeded_spec (h : Good s) (hp : s.next c = some p) :
    Ensures NotPaused
      (commitSucceeded { s with next := update s.next c none, mode := .commit cpus } c p
        runtime now) fun s' => Committed s s' c cpus := by
  rcases h.next hp with ⟨t, ht, hr, hwork, hlevel⟩
  have hnot : ∀ c', s.current c' ≠ some p := fun c' => h.not_current_of_next hp
  refine .bind (displace_spec (s := s) (update s.next c none) (.commit cpus) h) ?_
  rintro s' ⟨S, hS, rfl⟩
  have htS : S.heap p = some t := (hS.others p (hnot c)).trans ht
  rw [task_eq (by exact htS), ok_bind]
  have hcurrent : S.current c = none := by
    rw [hS.current, update_self]
  have hgood := hS.good.put_onCpu (t := { t with
    runState := .onCpu
    cpu := some c
    preempted := false
    prioBoost := false
    elapsedRuntime := 0
    lastRan := now }) (hS.next ▸ hp) hcurrent rfl rfl hwork hlevel
  rw [hS.current, update_idem, hS.next] at hgood
  refine .pure ⟨hgood, hS.keeps.trans ?_, rfl, rfl, ?_, ?_⟩
  · exact .of_update htS rfl ⟨rfl, rfl, rfl, rfl, by simp⟩ rfl rfl rfl rfl
  · intro q u hq hu
    obtain rfl : p = q := by simpa using hq
    simp only [State.setTask, update_self, Option.some.injEq] at hu
    rw [← hu]
    exact hlevel
  · intro c' hcc q hq
    have hq' : s.current c' = some q := by simpa [update_of_ne hcc] using hq
    have hne : q ≠ p := by
      rintro rfl
      exact hnot c' hq'
    refine ⟨hq', (update_of_ne hne ..).trans (hS.others q fun hc => hcc ?_)⟩
    exact h.current_inj hq' hc

/-- The next task goes back to the run queue, and a task that has to leave is taken off. -/
theorem commitFailed_spec (h : Good s) (hp : s.next c = some p)
    (hlevels : Levels s (Settled s.next)) :
    Ensures NotPaused
      (commitFailed { s with next := update s.next c none, mode := .commit cpus } c p)
      fun s' => Committed s s' c cpus := by
  rcases h.next hp with ⟨t, ht, hr, hwork, hlevel⟩
  have hnot : ∀ c', s.current c' ≠ some p := fun c' => h.not_current_of_next hp
  have hheld : Held { s with next := update s.next c none, mode := .commit cpus } p :=
    Placed.lift_next h hp
  refine .bind (enqueue_result ht) ?_
  rintro s₁ ⟨-, rq, hrq, rfl⟩
  have hgood := hheld.enqueued hlevel hrq
  have hkeeps : Keeps s { s.setTask p t.enqueued with
      runQueue := rq, next := update s.next c none, mode := .commit cpus } :=
    .of_update ht rfl same_enqueued rfl rfl rfl rfl
  have hheap : ∀ c' q, s.current c' = some q →
      update s.heap p (some t.enqueued) q = s.heap q := by
    intro c' q hq
    refine update_of_ne ?_ ..
    rintro rfl
    exact hnot c' hq
  split
  · rename_i hnone
    refine .pure ⟨hgood, hkeeps, rfl, rfl, ?_, fun c' _ q hq => ⟨hq, hheap c' q hq⟩⟩
    intro q u hq
    cases hnone.symm.trans hq
  · rename_i prev hprev
    rcases h.current hprev with ⟨u, hu, -, -, hwork'⟩
    have hu' := (hheap c prev hprev).trans hu
    rw [task_eq (by exact hu'), ok_bind]
    split_ifs with hmarked
    · -- only a task that has to leave is still marked
      have hmust : u.unscheduleLevel = .must := by
        rcases hlevels c prev u hprev hu with hno | ⟨hmust, -⟩
        · exact absurd hno hmarked
        · exact hmust
      refine (unscheduleTask_spec hgood hprev hu' (by simpa [hmust] using hwork')).mono ?_
      rintro s' ⟨honCpu, hnone, -⟩
      rcases State.rest_eq honCpu.rest with ⟨-, hnext, -, -, -, hmode, -⟩
      refine ⟨honCpu.good, hkeeps.trans honCpu.keeps, hnext, hmode, ?_, fun c' hcc q hq => ?_⟩
      · intro q v hq
        cases hnone.symm.trans hq
      · rcases honCpu.current c' q hq with ⟨hq', hsame⟩
        exact ⟨hq', (hsame hcc).trans (hheap c' q hq')⟩
    · refine .pure ⟨hgood, hkeeps, rfl, rfl, ?_, fun c' _ q hq => ⟨hq, hheap c' q hq⟩⟩
      intro q v hq hv
      obtain rfl : prev = q := Option.some.inj (hprev.symm.trans hq)
      obtain rfl : u = v := Option.some.inj (hu'.symm.trans hv)
      exact not_not.mp hmarked


/-- The result of one transaction. -/
theorem Inv.commitFor {success : Bool} (h : Inv cfg s) (hm : s.mode = .commit (c :: cpus)) :
    Ensures NotPaused (commitFor s c cpus success runtime now) (Passes cfg s) := by
  have hinv := h.at_mode hm
  unfold Shinjuku.commitFor
  split
  · exact .error (by simp [NotPaused])
  · rename_i p hp
    split_ifs
    · exact (commitSucceeded_spec h.good hp).mono fun s' => h.committed hm
    · exact (commitFailed_spec h.good hp hinv.2.2).mono fun s' => h.committed hm

end Commit

/-! ## The end of a pass -/

section Finish

variable [DecidableEq P]

/-- The tasks that have skipped the pass, with the list `yielding` of those that are left. -/
theorem foldlM_requeue_spec {yielding : List P}
    (h : Placed Fits s.heap s.runQueue.tasks yielding s.current s.next) :
    Ensures NotPaused (yielding.foldlM requeue s) fun s' =>
      Placed Fits s'.heap s'.runQueue.tasks [] s'.current s'.next ∧ Keeps s s' ∧
        s'.current = s.current ∧ s'.next = s.next ∧
        ∀ c p, s.current c = some p → s'.heap p = s.heap p := by
  induction yielding generalizing s with
  | nil => exact .pure ⟨h, .of_eq rfl rfl rfl rfl rfl, rfl, rfl, fun _ _ _ => rfl⟩
  | cons p yielding ih =>
    have hheld : Held { s with yieldingTasks := yielding } p := Placed.lift_yielding h (.refl _)
    have hnot : ∀ c, s.current c ≠ some p := by
      intro c hc
      rcases h with ⟨place, hb, -⟩
      have hp := (hb.mem_yielding p).mp List.mem_cons_self
      rw [(hb.current c p).mp hc] at hp
      cases hp
    have hrequeue : Ensures NotPaused (requeue s p) fun s' =>
        Placed Fits s'.heap s'.runQueue.tasks yielding s'.current s'.next ∧ Keeps s s' ∧
          s'.current = s.current ∧ s'.next = s.next ∧ ∀ q ≠ p, s'.heap q = s.heap q := by
      unfold requeue
      refine .bind task_spec fun t ht => .bind check_spec fun _ _ => ?_
      refine (enqueue_result ht).mono ?_
      rintro s' ⟨hlevel, rq, hrq, rfl⟩
      refine ⟨hheld.enqueued hlevel hrq, ?_, rfl, rfl, fun q hq => Function.update_of_ne hq ..⟩
      exact .of_moves (.of_update rfl rfl rfl) ht (Function.update_self ..) same_enqueued
    rw [List.foldlM_cons]
    refine .bind hrequeue ?_
    rintro s₁ ⟨h₁, hkeeps, hcurrent, hnext, hheap⟩
    refine (ih h₁).mono ?_
    rintro s' ⟨h', hkeeps', hcurrent', hnext', hheap'⟩
    refine ⟨h', hkeeps.trans hkeeps', hcurrent'.trans hcurrent, hnext'.trans hnext, ?_⟩
    intro c q hq
    have hne : q ≠ p := by
      rintro rfl
      exact hnot c hq
    exact (hheap' c q (hcurrent ▸ hq)).trans (hheap q hne)

/-- The tasks that have skipped a round are queued again. -/
theorem Inv.requeueYielding (h : Inv cfg s) (hm : s.mode = .commit []) :
    Ensures NotPaused (requeueYielding s) (Passes cfg s) := by
  rcases h.at_mode hm with ⟨-, hnext, hlevels⟩
  have hnone : ∀ c, s.next c = none := by simpa using hnext
  refine .bind (foldlM_requeue_spec h.good) ?_
  rintro s' ⟨hplaced, hkeeps, hcurrent, hnext', hheap⟩
  refine .pure ⟨⟨hplaced, hkeeps.known h.known, ?_, ?_, ?_, ?_, rfl⟩, ?_⟩
  · exact fun c hc => h.cpus c (hcurrent ▸ hc)
  · exact fun c hc => h.nextCpus c (hnext' ▸ hc)
  · intro c p t hc ht
    have hc' : s.current c = some p := hcurrent ▸ hc
    rcases hlevels c p t hc' ((hheap c p hc').symm.trans ht) with hno | ⟨-, hsome⟩
    · exact hno
    · exact absurd (hnone c) hsome
  · intro c
    exact (congrFun hnext' c).trans (hnone c)
  · exact { hkeeps with }

variable {i : ℕ}

/-- A paused task gets work again. -/
theorem Inv.arm {cached : T → ℕ → SchedParams G} (h : Inv cfg s) (hm : s.mode = .rearm i)
    (ht : s.heap p = some t) (hr : t.runState = .paused) :
    Ensures NotPaused
      (enqueue (State.setTask { s with cachedsids := cached } p { t with hasWork := true }) p true)
      fun s' => ∃ t' rq, s' = { s.setTask p t' with cachedsids := cached, runQueue := rq } ∧
        Inv cfg { s' with pausedRepeatables := s'.pausedRepeatables.eraseIdx i } := by
  rcases h.at_mode hm with ⟨hlevels, hnext, hyielding⟩
  have hheld :
      Held (State.setTask { s with cachedsids := cached } p { t with hasWork := true }) p :=
    Lifted.retask (h.good.lift_out ht (.inr hr)) _
  refine (enqueue_result (update_self ..)).mono ?_
  rintro s' ⟨hlevel, rq, hrq, rfl⟩
  rw [setTask_setTask]
  refine ⟨_, rq, rfl, ?_, ?_, h.cpus, h.nextCpus, ?_⟩
  · have hgood := hheld.enqueued hlevel hrq
    rwa [setTask_setTask] at hgood
  · exact h.known.update rfl (fun q hq => update_of_ne hq ..) ht (update_self ..) rfl
  · simp only [ModeInv, State.setTask, hm]
    grind [h.good.current, Shinjuku.Levels]

variable [DecidableEq T]

/-- What the look at a paused repeatable may do: nothing, or give work to the item it has. -/
inductive Rearmed (s : State G C P T) (i : ℕ) (p : P) : State G C P T → Prop where
  | waits : Rearmed s i p { s with mode := .rearm (i + 1) }
  | armed {t t' : ShinjukuTask G C T} {orch : T} {sid : ℕ} {sp : SchedParams G} {rq : RunQueue P} :
    s.heap p = some t → t.sp = some (.item orch sid) →
    Rearmed s i p { s.setTask p t' with
      cachedsids := update s.cachedsids orch (update (s.cachedsids orch) sid sp)
      runQueue := rq
      pausedRepeatables := s.pausedRepeatables.eraseIdx i }

variable [DecidableEq G]

variable {gpid : Option G}

omit [DecidableEq P] in
/-- `MakeEngineRunnable` writes one set of parameters. -/
theorem makeEngineRunnable_result {orch : T} {sp : Item T} :
    Ensures NotPaused (makeEngineRunnable cfg s orch sp gpid) fun s' =>
      ∃ sid sp', sp = .item orch sid ∧ s' = s.setParams orch sid sp' := by
  unfold makeEngineRunnable
  split
  · exact .error (by simp [NotPaused])
  · refine .bind check_spec fun _ hitem => .bind check_spec fun _ _ => ?_
    refine .bind check_spec fun _ _ => .bind check_spec fun _ _ => .pure ⟨_, _, ?_, rfl⟩
    rw [hitem.1]

/-- A paused repeatable is armed again. -/
theorem Inv.rearm {now : ℤ} (h : Inv cfg s) (hm : s.mode = .rearm i)
    (hidle : ∀ t, s.heap p = some t → t.runState = .paused) :
    Ensures NotPaused (rearm cfg s i p now gpid) fun s' => Inv cfg s' ∧ Rearmed s i p s' := by
  have hinv := h.at_mode hm
  refine .bind task_spec fun t ht => ?_
  split
  · exact .error (by simp [NotPaused])
  · refine .bind item_spec fun sp hsp => ?_
    split_ifs
    · refine .bind makeEngineRunnable_result ?_
      rintro s₁ ⟨sid, sp', rfl, rfl⟩
      refine .bind (h.arm hm ht (hidle t ht)) ?_
      rintro s' ⟨t', rq, rfl, hs'⟩
      exact .pure ⟨hs', .armed ht hsp⟩
    · exact .pure ⟨(h.enter (m := .rearm (i + 1)) hinv).1, .waits⟩

end Finish

/-! ## Steps -/

section Step

variable [DecidableEq G] [DecidableEq C] [DecidableEq P] [DecidableEq T]

/-- The paused repeatable that is looked at next is paused. -/
def Rearmable (s : State G C P T) : Prop :=
  ∀ i p t, s.mode = .rearm i → s.pausedRepeatables[i]? = some p → s.heap p = some t →
    t.runState = .paused

/-- What a step does. -/
inductive Evolves (cfg : Config G C T) (s : State G C P T) :
    Action G C P T → State G C P T → Prop where
  | dispatched {e : Entry G C Unit} {p : P} {a : Answers G} {s' : State G C P T} :
    s.mode = .drain → Dispatched s e s' → Evolves cfg s (.dispatch e p a) s'
  | discovered {p : P} {g : G} {seqnum runtime : ℕ} {runnable attach : Bool}
    {t : ShinjukuTask G C T} {s' : State G C P T} : s.mode = .discover → s.heap p = none →
    Created s p g s' t → Evolves cfg s (.discover p g seqnum runtime runnable attach) s'
  | refreshed {tgid : T} {sid : ℕ} {copy : Copy G} {gpid : Option G} {runtime : ℕ}
    {s' : State G C P T} : s.mode = .update ∨ s.mode = .scrape → s.orchs tgid = true →
    sid < cfg.numSchedItems tgid →
    Refreshed cfg (s.setParams tgid sid (copy.apply (s.cachedsids tgid sid)).1) tgid sid s' →
    Evolves cfg s (.refresh tgid sid copy gpid runtime) s'
  | passes {a : Action G C P T} {s' : State G C P T} : Keeps s s' → Evolves cfg s a s'
  | rearmed {now : ℤ} {gpid : Option G} {i : ℕ} {p : P} {s' : State G C P T} : s.mode = .rearm i →
    s.pausedRepeatables[i]? = some p → Rearmed s i p s' → Evolves cfg s (.rearm now gpid) s'

/-- Every action keeps the invariant, and says what it has done. -/
theorem Inv.act {a : Action G C P T} {x : Except Fault (State G C P T)} (h : Inv cfg s)
    (hrearm : Rearmable s) (hx : act cfg s a = some x) :
    Ensures NotPaused x fun s' => Inv cfg s' ∧ Evolves cfg s a s' := by
  have hpasses : ∀ {s'}, Passes cfg s s' → Inv cfg s' ∧ Evolves cfg s a s' :=
    fun hs' => ⟨hs'.1, .passes hs'.2⟩
  cases a with simp only [Shinjuku.act] at hx
  | discover p g seqnum runtime runnable attach =>
    -- discovery
    rcases Option.ite_none_right_eq_some.mp hx with ⟨⟨hm, hg, hp⟩, ⟨⟩⟩
    refine (taskNew_spec h.good hp).mono ?_
    rintro s' ⟨t, ht⟩
    exact ⟨h.created (.inr hm) hp hg ht, .discovered hm hp ht⟩
  | scrape =>
    rcases Option.ite_none_right_eq_some.mp hx with ⟨hm, ⟨⟩⟩
    have hinv := h.at_mode hm
    exact .ok (hpasses (h.enter hinv))
  | discoveryComplete =>
    rcases Option.ite_none_right_eq_some.mp hx with ⟨hm, ⟨⟩⟩
    have hinv := h.at_mode hm
    refine .ok (hpasses (h.enter ⟨fun c p t hc => ?_, hinv.2.1⟩))
    cases (hinv.1 c).symm.trans hc
  | dispatch e p a =>
    -- between two passes
    rcases Option.ite_none_right_eq_some.mp hx with ⟨hm, hx⟩
    exact (h.dispatchMessage hm hx).mono fun s' hs' => ⟨hs'.1, .dispatched hm hs'.2⟩
  | updateSchedParams =>
    rcases Option.ite_none_right_eq_some.mp hx with ⟨hm, ⟨⟩⟩
    have hinv := h.at_mode hm
    exact .ok (hpasses (h.enter hinv.2))
  | refresh tgid sid copy gpid runtime =>
    rcases Option.ite_none_right_eq_some.mp hx with ⟨⟨hm, horch, hsid⟩, ⟨⟩⟩
    have hset : Inv cfg (s.setParams tgid sid (copy.apply (s.cachedsids tgid sid)).1) :=
      h.with_cached hm _
    refine (refreshSchedParam_spec h.good).mono fun s' hs' => ?_
    exact ⟨hset.refreshed hm hs', .refreshed hm horch hsid hs'⟩
  | globalSchedule =>
    -- a pass begins: no cpu has a next task
    rcases Option.ite_none_right_eq_some.mp hx with ⟨hm, ⟨⟩⟩
    have hinv : ∀ c, s.next c = none := h.at_mode hm
    refine .ok (hpasses ⟨⟨h.good, h.known, h.cpus, h.nextCpus, ?_⟩, .of_eq rfl rfl rfl rfl rfl⟩)
    exact
      { nodup := cfg.nodup
        subset := fun _ hc => hc
        opened := fun c => by simp [hinv c]
        levels := fun c p t _ _ hsome => absurd (hinv c) hsome
        fresh := fun _ c _ => hinv c
        again := by simp }
  | pick usable onCpu now =>
    -- the parts of a pass
    split at hx <;> cases hx
    rename_i r again c cpus updated hm
    exact (h.pickFor hm).mono fun s' => hpasses
  | endPick =>
    split at hx <;> cases hx
    rename_i r again updated hm
    have hinv := h.at_mode hm
    exact .ok (hpasses (h.levels hinv.opened hinv.levels))
  | settleLevel =>
    split at hx <;> cases hx
    rename_i r c cpus updated hm
    exact (h.settleLevel hm).mono fun s' => hpasses
  | openTransactions =>
    split at hx <;> cases hx
    rename_i r updated hm
    exact (h.openTransactions hm).mono fun s' => hpasses
  | commit success runtime now =>
    split at hx <;> cases hx
    rename_i c cpus hm
    exact (h.commitFor hm).mono fun s' => hpasses
  | requeueYielding =>
    split at hx <;> cases hx
    rename_i hm
    exact (h.requeueYielding hm).mono fun s' => hpasses
  | rearm now gpid =>
    -- after a pass
    split at hx
    · rename_i i hm
      rcases Option.map_eq_some_iff.mp hx with ⟨p, hp, rfl⟩
      refine (h.rearm hm fun t ht => hrearm i p t hm hp ht).mono fun s' hs' => ?_
      exact ⟨hs'.1, .rearmed hm hp hs'.2⟩
    · cases hx
  | endPass =>
    split at hx
    · rename_i i hm
      rcases Option.ite_none_right_eq_some.mp hx with ⟨-, hx⟩
      obtain rfl := Option.some.inj hx
      have hinv := h.at_mode hm
      exact .ok (hpasses (h.enter ⟨hinv.1, hinv.2.1⟩))
    · cases hx

end Step

end Shinjuku
