import GhostSched.Shinjuku.Handlers

/-!
# Sched items of the Shinjuku scheduler

What `SchedParamsCallback` does to a task whose sched item has changed, and what
`TASK_NEW` does, which reads the sched item of the new task.

* `Updated` is what the callback may do to a task. On a cpu, a task that has lost its work is
  only marked, and one that has got new work may give way to another one.
* The checks that involve `paused()` pass, since the place of a task says whether it had
  work.
-/

namespace Shinjuku

open Central Checked Function

variable {G C P T : Type} {cfg : Config G C T} {s : State G C P T} {p : P}
  {t t₁ t₂ : ShinjukuTask G C T} {tgid : T} {sid : ℕ}

/-- The paused repeatables after an update. -/
def Joins (cfg : Config G C T) (s s' : State G C P T) (p : P) (t t' : ShinjukuTask G C T)
    (tgid : T) (sid : ℕ) : Prop :=
  s'.pausedRepeatables = s.pausedRepeatables ∨
    s'.pausedRepeatables = s.pausedRepeatables ++ [p] ∧ t.runState ≠ .blocked ∧
      t.hasWork = true ∧ t'.hasWork = false ∧
      cfg.repeating tgid (s.cachedsids tgid sid).wcid = true

/-- What the callback may do to a task. -/
structure Updated (cfg : Config G C T) (s : State G C P T) (p : P) (t : ShinjukuTask G C T)
    (tgid : T) (sid : ℕ) (s' : State G C P T) (t' : ShinjukuTask G C T) : Prop where
  good : Good s'
  heap : ∀ q ≠ p, s'.heap q = s.heap q
  current : ∀ c q, s'.current c = some q → s.current c = some q
  rest : ({ s' with pausedRepeatables := s.pausedRepeatables } : State G C P T).rest = s.rest
  task : s'.heap p = some t'
  gtid : t'.gtid = t.gtid
  orch : t'.orch = t.orch
  sp : t'.sp = some (.item tgid sid)
  hasWork : t'.hasWork = (s.cachedsids tgid sid).hasWork
  /-- Only tasks on a cpu are marked. -/
  level : t.runState ≠ .onCpu → t'.unscheduleLevel = .no
  blocked : t'.runState = .blocked → t.runState = .blocked
  repeatables : Joins cfg s s' p t t' tgid sid

variable {t' : ShinjukuTask G C T} {s' : State G C P T}

theorem Updated.of_moves (good : Good s') (hmoves : Moves s s' p) (task : s'.heap p = some t')
    (gtid : t'.gtid = t.gtid) (orch : t'.orch = t.orch) (sp : t'.sp = some (.item tgid sid))
    (hasWork : t'.hasWork = (s.cachedsids tgid sid).hasWork)
    (level : t.runState ≠ .onCpu → t'.unscheduleLevel = .no)
    (blocked : t'.runState = .blocked → t.runState = .blocked) :
    Updated cfg s p t tgid sid s' t' := by
  have hrepeatables : s'.pausedRepeatables = s.pausedRepeatables := by
    grind [hmoves.rest, State.rest]
  refine ⟨good, hmoves.heap, hmoves.current, ?_, task, gtid, orch, sp, hasWork, level, blocked,
    .inl hrepeatables⟩
  rw [← hrepeatables]
  exact hmoves.rest

/-- The task was put back to the run queue before the update. -/
theorem Updated.after {s₁ : State G C P T} (h : Updated cfg s₁ p t₁ tgid sid s' t')
    (hmoves : Moves s s₁ p) (hkin : Kin t t₁) (hon : t₁.runState = .onCpu → t.runState = .onCpu)
    (hblocked : t₁.runState = .blocked ↔ t.runState = .blocked) :
    Updated cfg s p t tgid sid s' t' := by
  have hrest := hmoves.rest
  simp only [State.rest, Prod.mk.injEq] at hrest
  rcases hrest with ⟨-, -, hrepeatables, -, hcached, -⟩
  refine ⟨h.good, fun q hq => (h.heap q hq).trans (hmoves.heap q hq),
    fun c q hq => hmoves.current c q (h.current c q hq), ?_, h.task, h.gtid.trans hkin.gtid,
    h.orch.trans hkin.orch, h.sp, ?_, fun hne => h.level fun hr => hne (hon hr),
    fun hr => hblocked.mp (h.blocked hr), ?_⟩
  · rw [← hrepeatables]
    exact h.rest.trans hmoves.rest
  · rw [h.hasWork, hcached]
  · have hjoins := h.repeatables
    rwa [Joins, hrepeatables, hcached, hkin.hasWork, Ne, hblocked] at hjoins

/-- A task with the parameters of an item. -/
structure Takes (s : State G C P T) (tgid : T) (sid : ℕ) (t t' : ShinjukuTask G C T) : Prop where
  runState : t'.runState = t.runState
  cpu : t'.cpu = t.cpu
  level : t'.unscheduleLevel = t.unscheduleLevel
  gtid : t'.gtid = t.gtid
  orch : t'.orch = t.orch
  sp : t'.sp = some (.item tgid sid)
  hasWork : t'.hasWork = (s.cachedsids tgid sid).hasWork

section Callback

variable [DecidableEq P]

variable {runtime : ℕ}

theorem takeParams_spec (ht : s.heap p = some t) :
    Ensures NotPaused (takeParams s p tgid sid runtime) fun s' =>
      ∃ t', s' = s.setTask p t' ∧ Takes s tgid sid t t' := by
  unfold takeParams
  rw [task_eq ht, ok_bind]
  split
  · exact .bind check_spec fun _ _ => .pure ⟨_, rfl, ⟨rfl, rfl, rfl, rfl, rfl, rfl, rfl⟩⟩
  · exact .pure ⟨_, rfl, ⟨rfl, rfl, rfl, rfl, rfl, rfl, rfl⟩⟩

/-- Cases (a) and (b). -/
theorem edgeFromIdle_spec (cfg : Config G C T) (h : Good s) (ht : s.heap p = some t)
    (hidle : t.hasWork = false)
    (hblocked : t.runState ≠ .blocked) (htakes : Takes s tgid sid t t₂) :
    Ensures NotPaused (edgeFromIdle (s.setTask p t₂) p) fun s' =>
      ∃ t', Updated cfg s p t tgid sid s' t' := by
  have ht₂ : (s.setTask p t₂).heap p = some t₂ := update_self ..
  -- a task without work is paused or marked
  have hstate : t.runState = .paused ∧ t.unscheduleLevel = .no ∨
      t.runState = .onCpu ∧ t.unscheduleLevel = .must := by
    rcases h.fits ht with ⟨q, hq⟩
    grind [cases Fits]
  have hnotBlocked : t₂.runState ≠ .blocked := by
    rw [htakes.runState]
    exact hblocked
  unfold edgeFromIdle
  rw [task_eq ht₂, ok_bind]
  refine .bind (.check_of ?_) fun _ _ => ?_
  · rw [htakes.runState, htakes.level]
    exact hstate.imp And.left id
  split_ifs with hwork hpaused
  · -- case (b)
    have hheld : Held (s.setTask p t₂) p :=
      Lifted.retask (h.lift_out ht (.inr (htakes.runState.symm.trans hpaused))) _
    refine (enqueue_spec hheld ht₂).mono ?_
    rintro s' ⟨hgood, hmoves, hlevel, hheap⟩
    refine ⟨_, .of_moves hgood (moves_setTask.trans hmoves) hheap htakes.gtid htakes.orch htakes.sp
      htakes.hasWork (fun _ => hlevel) ?_⟩
    simp [ShinjukuTask.enqueued, hwork]
  · -- the item has got work again before the task was taken off its cpu
    have hon : t.runState = .onCpu := by
      grind [htakes.runState]
    refine .pure ⟨_, .of_moves ?_ (moves_setTask.trans moves_setTask) (update_self ..)
      htakes.gtid htakes.orch htakes.sp htakes.hasWork (fun hne => absurd hon hne)
      fun hr => absurd hr hnotBlocked⟩
    rw [setTask_setTask]
    exact h.setTask_onCpu ht hon htakes.runState htakes.cpu (by simp [hwork])
  · -- case (a)
    refine .pure ⟨t₂, .of_moves ?_ moves_setTask ht₂ htakes.gtid htakes.orch htakes.sp
      htakes.hasWork ?_ fun hr => absurd hr hnotBlocked⟩
    · exact h.setTask ht htakes.runState htakes.cpu (by rw [hidle]; simpa using hwork) htakes.level
    · grind [htakes.level]

/-- The task has no work any more. -/
theorem loseWork_spec (h : Good s) (ht : s.heap p = some t) (htakes : Takes s tgid sid t t₂)
    (hwork : t₂.hasWork = false) :
    Ensures NotPaused (loseWork (s.setTask p t₂) p) fun s' =>
      Good s' ∧ Moves s s' p ∧ ∃ t', s'.heap p = some t' ∧
        (t'.runState = .paused ∧ t'.unscheduleLevel = .no ∨
          t'.runState = .onCpu ∧ t'.unscheduleLevel = .must ∧ t.runState = .onCpu) ∧
        t'.gtid = t.gtid ∧ t'.orch = t.orch ∧ t'.sp = t₂.sp ∧ t'.hasWork = false := by
  have ht₂ : (s.setTask p t₂).heap p = some t₂ := update_self ..
  unfold loseWork
  rw [task_eq ht₂, ok_bind]
  split_ifs with hon hqueued
  · rw [htakes.runState] at hon
    refine .pure ⟨?_, moves_setTask.trans moves_setTask, _, update_self ..,
      .inr ⟨htakes.runState.trans hon, rfl, hon⟩, htakes.gtid, htakes.orch, rfl, hwork⟩
    rw [setTask_setTask]
    exact h.setTask_onCpu ht hon htakes.runState htakes.cpu (by simp [hwork])
  · have hlevel : t₂.unscheduleLevel = .no := by
      rw [htakes.runState] at hqueued
      rw [htakes.level]
      rcases h.fits ht with ⟨q, hq⟩
      grind [cases Fits]
    have hgood : Good ((s.setTask p t₂).setTask p t) := by
      rw [setTask_setTask, setTask_self ht]
      exact h
    refine (removeFromRunqueue_changed_spec hgood ht₂).mono ?_
    rintro s' ⟨hheld, hmoves, hheap⟩
    refine ⟨hheld.put_out ?_, moves_setTask.trans hmoves, _, hheap, .inl ⟨rfl, hlevel⟩,
      htakes.gtid, htakes.orch, rfl, hwork⟩
    rw [hheap]
    exact .paused rfl hwork hlevel
  · exact .error (by simp [NotPaused])

/-- Cases (c) and (d). -/
theorem edgeFromWork_spec (h : Good s) (ht : s.heap p = some t) (hwork : t.hasWork = true)
    (hyielding : t.runState ≠ .yielding) (hblocked : t.runState ≠ .blocked)
    (htakes : Takes s tgid sid t t₂) :
    Ensures NotPaused (edgeFromWork cfg (s.setTask p t₂) p tgid) fun s' =>
      ∃ t', Updated cfg s p t tgid sid s' t' := by
  have ht₂ : (s.setTask p t₂).heap p = some t₂ := update_self ..
  have hstate : t.runState = .queued ∧ t.unscheduleLevel = .no ∨ t.runState = .onCpu := by
    rcases h.fits ht with ⟨q, hq⟩
    grind [cases Fits]
  have hnotBlocked : t₂.runState ≠ .blocked := by
    rw [htakes.runState]
    exact hblocked
  unfold edgeFromWork
  rw [task_eq ht₂, ok_bind]
  refine .bind (.check_of ?_) fun _ _ => ?_
  · rw [htakes.runState]
    rcases hstate with ⟨hr, -⟩ | hr <;> simp [hr]
  by_cases hwork₂ : t₂.hasWork = true
  · -- case (d)
    rw [if_pos hwork₂]
    refine .bind item_spec fun sp _ => .bind check_spec fun _ _ => ?_
    split_ifs with hon
    · rw [htakes.runState] at hon
      refine .pure ⟨_, .of_moves ?_ (moves_setTask.trans moves_setTask) (update_self ..)
        htakes.gtid htakes.orch htakes.sp htakes.hasWork (fun hne => absurd hon hne)
        fun hr => absurd hr hnotBlocked⟩
      rw [setTask_setTask]
      exact h.setTask_onCpu ht hon htakes.runState htakes.cpu (by simp [hwork₂])
    · rw [htakes.runState] at hon
      refine .pure ⟨t₂, .of_moves ?_ moves_setTask ht₂ htakes.gtid htakes.orch htakes.sp
        htakes.hasWork ?_ fun hr => absurd hr hnotBlocked⟩
      · exact h.setTask ht htakes.runState htakes.cpu (hwork₂.trans hwork.symm) htakes.level
      · intro _
        rw [htakes.level]
        exact (hstate.resolve_right hon).2
  · -- case (c)
    rw [if_neg hwork₂]
    have hwork₂' : t₂.hasWork = false := by simpa using hwork₂
    refine .bind (loseWork_spec h ht htakes hwork₂') ?_
    rintro s' ⟨hgood, hmoves, t', ht', hstate', hgtid, horch, hsp, hwork'⟩
    rw [task_eq ht', ok_bind]
    refine .bind (.check_of (hstate'.imp And.left fun h => ⟨h.1, h.2.1⟩)) fun _ _ => ?_
    have hupdated : Updated cfg s p t tgid sid s' t' := by
      refine .of_moves hgood hmoves ht' hgtid horch (hsp.trans htakes.sp) ?_ ?_ ?_
      · rw [hwork', ← htakes.hasWork, hwork₂']
      · exact fun hne => (hstate'.resolve_right fun h => hne h.2.2).2
      · intro hr
        rcases hstate' with ⟨hr', -⟩ | ⟨hr', -⟩ <;> simp [hr] at hr'
    refine .bind item_spec fun sp hsp' => ?_
    split_ifs with hrepeating
    · rcases State.rest_eq hmoves.rest with ⟨-, -, hrepeatables, -, hcached, -⟩
      refine .pure ⟨t', { hupdated with repeatables := .inr ⟨?_, hblocked, hwork, hwork', ?_⟩ }⟩
      · rw [← hrepeatables]
      · obtain rfl : _ = sp := Option.some.inj ((hsp.trans htakes.sp).symm.trans hsp')
        rw [← hcached]
        exact hrepeating
    · exact .pure ⟨t', hupdated⟩

theorem updateTask_spec (h : Good s) :
    Ensures NotPaused (updateTask cfg s p tgid sid runtime) fun s' =>
      ∃ t t', s.heap p = some t ∧ Updated cfg s p t tgid sid s' t' := by
  refine .bind task_spec fun t ht => ?_
  suffices hupdated : Ensures NotPaused _ fun s' => ∃ t', Updated cfg s p t tgid sid s' t' from
    hupdated.mono fun s' ⟨t', h'⟩ => ⟨t, t', ht, h'⟩
  refine .bind (unyield_if_spec h ht) fun s₁ ⟨hgood, hmoves, t₁, ht₁, hkin, hsame, hqueued⟩ => ?_
  -- a task that yields has work, so it is queued now
  have hyielding : t.runState = .yielding → t₁.runState = .queued := by
    intro hr
    rcases h.fits ht with ⟨q, hq⟩
    grind [ShinjukuTask.enqueued, cases Fits]
  have hstate : t₁.runState ≠ .yielding ∧ (t₁.runState = .onCpu → t.runState = .onCpu) ∧
      (t₁.runState = .blocked ↔ t.runState = .blocked) := by
    by_cases hr : t.runState = .yielding
    · simp [hyielding hr, hr]
    · simp [hsame hr, hr]
  rcases hstate with ⟨hyielding₁, hon, hblocked⟩
  refine .bind (takeParams_spec ht₁) ?_
  rintro s₂ ⟨t₂, rfl, htakes⟩
  split_ifs with hr hwork
  · -- a blocked task only gets its parameters
    have hr₁ := hblocked.mpr hr
    refine .pure ⟨t₂, Updated.after (.of_moves ?_ moves_setTask (update_self ..) htakes.gtid
      htakes.orch htakes.sp htakes.hasWork ?_ fun _ => hr₁) hmoves hkin hon hblocked⟩
    · refine Placed.retask hgood fun q hq => ?_
      rw [ht₁] at hq
      cases hq with
      | blocked _ hl => exact .blocked (htakes.runState.trans hr₁) (htakes.level.trans hl)
      | paused hr' | queued hr' | picked hr' | yielding hr' | onCpu hr' => simp [hr₁] at hr'
    · intro _
      rcases hgood.fits ht₁ with ⟨q, hq⟩
      grind [htakes.level, cases Fits]
  · refine (edgeFromWork_spec hgood ht₁ (hkin.hasWork.trans hwork) hyielding₁ (mt hblocked.mp hr)
      htakes).mono ?_
    rintro s' ⟨t', h'⟩
    exact ⟨t', h'.after hmoves hkin hon hblocked⟩
  · have hidle : t₁.hasWork = false := by simpa [hkin.hasWork] using hwork
    refine (edgeFromIdle_spec cfg hgood ht₁ hidle (mt hblocked.mp hr) htakes).mono ?_
    rintro s' ⟨t', h'⟩
    exact ⟨t', h'.after hmoves hkin hon hblocked⟩

end Callback

/-! ## Reading an item again -/

section Refresh

variable [DecidableEq C]

/-- The items that the callback sees. During the discovery, an engine without work gets some. -/
structure Engines (cfg : Config G C T) (s : State G C P T) (tgid : T) (sid : ℕ)
    (cached : T → ℕ → SchedParams G) : Prop where
  same : s.inDiscovery = false → cached = s.cachedsids
  engine : s.inDiscovery = true → cfg.repeating tgid (cached tgid sid).wcid = true →
    (cached tgid sid).hasWork = true

/-- What `SchedParamsCallback` may do. -/
inductive Refreshed (cfg : Config G C T) (s : State G C P T) (tgid : T) (sid : ℕ) :
    State G C P T → Prop where
  | ignored {cached : T → ℕ → SchedParams G} : (s.inDiscovery = false → cached = s.cachedsids) →
    Refreshed cfg s tgid sid { s with cachedsids := cached }
  | updated {cached : T → ℕ → SchedParams G} {g : G} {p : P} {t t' : ShinjukuTask G C T}
    {s' : State G C P T} : Engines cfg s tgid sid cached →
    (s.cachedsids tgid sid).gtid = some g → s.allocator g = some p → s.heap p = some t →
    Updated cfg { s with cachedsids := cached } p t tgid sid s' t' → Refreshed cfg s tgid sid s'

variable [DecidableEq G] [DecidableEq T]

variable {gpid : Option G}

omit [DecidableEq C] in
theorem makeEngineRunnable_spec :
    Ensures NotPaused (makeEngineRunnable cfg s tgid (.item tgid sid) gpid) fun s' =>
      ∃ cached, s' = { s with cachedsids := cached } ∧ (cached tgid sid).hasWork = true := by
  refine .bind check_spec fun _ _ => .bind check_spec fun _ _ => ?_
  refine .bind check_spec fun _ _ => .bind check_spec fun _ _ => .pure ⟨_, rfl, ?_⟩
  simp

/-- The items that the callback sees. -/
theorem engines_spec :
    Ensures NotPaused
      (if s.inDiscovery && cfg.repeating tgid (s.cachedsids tgid sid).wcid &&
          !(s.cachedsids tgid sid).hasWork then
        makeEngineRunnable cfg s tgid (.item tgid sid) gpid
      else .ok s) fun s' =>
      ∃ cached, s' = { s with cachedsids := cached } ∧ Engines cfg s tgid sid cached := by
  split_ifs with hengine
  · refine makeEngineRunnable_spec.mono ?_
    rintro s' ⟨cached, rfl, hwork⟩
    exact ⟨cached, rfl, ⟨fun hd => by simp [hd] at hengine, fun _ _ => hwork⟩⟩
  · refine .ok ⟨s.cachedsids, rfl, ⟨fun _ => rfl, fun hd hrepeating => ?_⟩⟩
    simpa [hd, hrepeating] using hengine

variable [DecidableEq P]

variable {runtime : ℕ}

theorem schedParamsCallback_spec {oldgtid : Option G} (h : Good s) :
    Ensures NotPaused (schedParamsCallback cfg s tgid sid oldgtid gpid runtime)
      (Refreshed cfg s tgid sid) := by
  refine .bind check_spec fun _ _ => ?_
  split
  · exact .pure (.ignored fun _ => rfl)
  · rename_i g hg
    refine .bind engines_spec ?_
    rintro s₁ ⟨cached, rfl, hengines⟩
    split
    · exact .pure (.ignored hengines.same)
    · rename_i p hp
      have hgood : Good { s with cachedsids := cached } := h
      refine (updateTask_spec hgood).mono ?_
      rintro s' ⟨t, t', ht, hupdated⟩
      exact .updated hengines hg hp ht hupdated

/-- An item is read again. -/
theorem refreshSchedParam_spec {copy : Copy G} (h : Good s) :
    Ensures NotPaused (refreshSchedParam cfg s tgid sid copy gpid runtime)
      (Refreshed cfg (s.setParams tgid sid (copy.apply (s.cachedsids tgid sid)).1) tgid sid) := by
  have hgood : Good (s.setParams tgid sid (copy.apply (s.cachedsids tgid sid)).1) := h
  unfold refreshSchedParam
  dsimp only
  split_ifs
  · exact schedParamsCallback_spec hgood
  · exact .ok (.ignored fun _ => rfl)

theorem getSchedParams_spec {g : G} (h : Good s) :
    Ensures NotPaused (getSchedParams cfg s tgid g gpid runtime) fun s' => s' = s ∨
      ∃ sid, (s.cachedsids tgid sid).gtid = some g ∧ Refreshed cfg s tgid sid s' := by
  unfold getSchedParams
  split
  · rename_i sid hsid
    refine (schedParamsCallback_spec h).mono fun s' h' => .inr ⟨sid, ?_, h'⟩
    simpa using List.find?_some hsid
  · exact .ok (.inl rfl)

end Refresh

/-! ## New tasks -/

section New

variable [DecidableEq G]

/-- What `TASK_NEW` does. -/
structure Created (s : State G C P T) (p : P) (g : G) (s' : State G C P T)
    (t : ShinjukuTask G C T) : Prop where
  good : Good s'
  heap : ∀ q ≠ p, s'.heap q = s.heap q
  current : ∀ c q, s'.current c = some q → s.current c = some q
  next : s'.next = s.next
  mode : s'.mode = s.mode
  openCpus : s'.openCpus = s.openCpus
  repeatables : s'.pausedRepeatables = s.pausedRepeatables
  allocator : s'.allocator = update s.allocator g (some p)
  task : s'.heap p = some t
  gtid : t.gtid = g
  level : t.unscheduleLevel = .no
  /-- Tables that were attached before are not touched. -/
  orchs : ∀ tgid, s.orchs tgid = true →
    s'.orchs tgid = true ∧ s'.cachedsids tgid = s.cachedsids tgid

variable {g : G} {s₁ s₂ : State G C P T}

theorem Created.moves (h : Created s p g s₁ t₁) (hgood : Good s₂) (hmoves : Moves s₁ s₂ p)
    (ht : s₂.heap p = some t₂) (hgtid : t₂.gtid = t₁.gtid)
    (hlevel : t₂.unscheduleLevel = t₁.unscheduleLevel) : Created s p g s₂ t₂ := by
  rcases State.rest_eq hmoves.rest with ⟨hallocator, hnext, hrepeatables, horchs, hcached,
    hmode, hopen⟩
  exact
    { good := hgood
      heap := fun q hq => (hmoves.heap q hq).trans (h.heap q hq)
      current := fun c q hq => h.current c q (hmoves.current c q hq)
      next := hnext.trans h.next
      mode := hmode.trans h.mode
      openCpus := hopen.trans h.openCpus
      repeatables := hrepeatables.trans h.repeatables
      allocator := hallocator.trans h.allocator
      task := ht
      gtid := hgtid.trans h.gtid
      level := hlevel.trans h.level
      orchs := by rw [horchs, hcached]; exact h.orchs }

variable [DecidableEq P]

theorem created_allocate (h : Good s) (hp : s.heap p = none) :
    Created s p g (s.allocate p g) (.init g) where
  good := by
    refine Placed.retask h fun q hq => ?_
    rw [hp] at hq
    cases hq
    exact .blocked rfl rfl
  heap q hq := update_of_ne hq ..
  current _ _ hq := hq
  next := rfl
  mode := rfl
  openCpus := rfl
  repeatables := rfl
  allocator := rfl
  task := update_self ..
  gtid := rfl
  level := rfl
  orchs _ horch := ⟨horch, rfl⟩

variable {runnable : Bool}

theorem enqueue_new_spec (h : Created s p g s₁ t₁) (hr : t₁.runState = .blocked) :
    Ensures NotPaused (if runnable then enqueue s₁ p true else .ok s₁) fun s₂ =>
      ∃ t₂, Created s p g s₂ t₂ ∧ t₂.runState ≠ .onCpu ∧ t₂.hasWork = t₁.hasWork ∧
        s₂.orchs = s₁.orchs := by
  split_ifs
  · refine (enqueue_spec (h.good.lift_out h.task (.inl hr)) h.task).mono ?_
    rintro s₂ ⟨hgood, hmoves, -, hheap⟩
    have hrest := State.rest_eq hmoves.rest
    refine ⟨_, h.moves hgood hmoves hheap rfl rfl, ?_, rfl, hrest.2.2.2.1⟩
    simp only [ShinjukuTask.enqueued]
    split <;> simp
  · exact .ok ⟨t₁, h, by simp [hr], rfl, rfl⟩

variable [DecidableEq T]

variable {attach : Bool}

/-- `HandleNewGtid` for a task that is not queued yet. It has work only if there is no table. -/
theorem handleNewGtid_spec (h : Created s p g s₁ t₁) (hr : t₁.runState = .blocked)
    (hwork : t₁.hasWork = false) :
    Ensures NotPaused (handleNewGtid s₁ p tgid attach) fun s₂ =>
      ∃ t₂, Created s p g s₂ t₂ ∧ t₂.runState = .blocked ∧
        (t₂.hasWork = true → s₂.orchs tgid = false) := by
  unfold handleNewGtid
  split_ifs with horch hattach
  · exact .ok ⟨t₁, h, hr, by simp [hwork]⟩
  · refine .ok ⟨t₁, { h with orchs := ?_ }, hr, by simp [hwork]⟩
    grind [h.orchs]
  · rw [task_eq h.task, ok_bind]
    refine .pure ⟨_, h.moves ?_ moves_setTask (update_self ..) rfl rfl, hr, ?_⟩
    · refine Placed.retask h.good fun q hq => ?_
      rw [h.task] at hq
      cases hq with
      | blocked _ hl => exact .blocked hr hl
      | paused hr' | queued hr' | picked hr' | yielding hr' | onCpu hr' => simp [hr] at hr'
    · intro _
      simpa [State.setTask] using horch

variable [DecidableEq C]

variable {gpid : Option G} {runtime : ℕ}

/-- The new task gets its parameters. It had no work, so it is not a paused repeatable. -/
theorem getSchedParams_new_spec (h : Created s p g s₁ t₁) (hd : s₁.inDiscovery = false)
    (hr : t₁.runState ≠ .onCpu) (hwork : t₁.hasWork = false) :
    Ensures NotPaused (getSchedParams cfg s₁ tgid g gpid runtime) fun s₂ =>
      ∃ t₂, Created s p g s₂ t₂ := by
  refine (getSchedParams_spec h.good).mono ?_
  rintro s₂ (rfl | ⟨sid, hgtid, hrefreshed⟩)
  · exact ⟨t₁, h⟩
  cases hrefreshed with
  | ignored hsame =>
    obtain rfl := hsame hd
    exact ⟨t₁, h⟩
  | @updated cached g' p' t t' s' hengines hg hp ht hupdated =>
    obtain rfl := hengines.same hd
    obtain rfl : g = g' := Option.some.inj (hgtid.symm.trans hg)
    obtain rfl : p = p' := by simpa [h.allocator] using hp
    obtain rfl : t₁ = t := Option.some.inj (h.task.symm.trans ht)
    rcases State.rest_eq hupdated.rest with ⟨hallocator, hnext, -, horchs, hcached, hmode, hopen⟩
    refine ⟨t', ?_⟩
    exact
      { good := hupdated.good
        heap := fun q hq => (hupdated.heap q hq).trans (h.heap q hq)
        current := fun c q hq => h.current c q (hupdated.current c q hq)
        next := hnext.trans h.next
        mode := hmode.trans h.mode
        openCpus := hopen.trans h.openCpus
        repeatables := by
          rcases hupdated.repeatables with hsame | ⟨-, -, hwork', -⟩
          · exact hsame.trans h.repeatables
          · simp [hwork] at hwork'
        allocator := hallocator.trans h.allocator
        task := hupdated.task
        gtid := hupdated.gtid.trans h.gtid
        level := hupdated.level hr
        orchs := by rw [horchs, hcached]; exact h.orchs }

theorem taskNew_spec {seqnum : ℕ} (h : Good s) (hp : s.heap p = none) :
    Ensures NotPaused
      (taskNew cfg (s.allocate p g) p g seqnum runtime runnable attach gpid) fun s' =>
        ∃ t, Created s p g s' t := by
  have hcreated : Created s p g _ _ := created_allocate h hp
  refine .bind (updateTaskRuntime_spec hcreated.good hcreated.task) ?_
  rintro s₁ ⟨hgood₁, hmoves₁, t₁, ht₁, hkin, hr₁⟩
  rw [task_eq ht₁, ok_bind]
  have hcreated₁ := hcreated.moves hgood₁ hmoves₁ ht₁ hkin.gtid hkin.level
  have hcreated₂ : Created s p g (s₁.setTask p { t₁ with seqnum := seqnum, runState := .blocked })
      { t₁ with seqnum := seqnum, runState := .blocked } :=
    hcreated₁.moves (hgood₁.setTask ht₁ hr₁.symm rfl rfl rfl) moves_setTask
      (update_self ..) rfl rfl
  refine .bind (handleNewGtid_spec hcreated₂ rfl hkin.hasWork) ?_
  rintro s₃ ⟨t₃, hcreated₃, hr₃, hwork₃⟩
  refine .bind (enqueue_new_spec hcreated₃ hr₃) ?_
  rintro s₄ ⟨t₄, hcreated₄, hr₄, hwork₄, horchs⟩
  rw [task_eq hcreated₄.task, ok_bind]
  -- the callback is not reached without a table
  generalize horch : (if s₄.orchs (cfg.tgid g) then some (cfg.tgid g) else none) = orch
  have hcreated₅ : Created s p g
      { s₄.setTask p { t₄ with orch := orch } with numTasks := s₄.numTasks + 1 }
      { t₄ with orch := orch } :=
    hcreated₄.moves (hcreated₄.good.setTask hcreated₄.task rfl rfl rfl rfl)
      (.of_update rfl rfl rfl) (update_self ..) rfl rfl
  dsimp only
  split_ifs with hd
  · exact .pure ⟨_, hcreated₅⟩
  · grind [NotPaused, getSchedParams_new_spec, Checked.Ensures]

end New

end Shinjuku
