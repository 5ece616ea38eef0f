import GhostSched.Shinjuku.Items

/-!
# The invariant of the Shinjuku scheduler

* `Inv` says that every task is at the place that fits it, which cpus have a picked task, and
  which unschedule levels the tasks on cpus may have, depending on where the agent is.
* The second loop of the first iteration settles the levels: a task that was marked keeps its
  mark only if another task is about to take its cpu, and then it has to leave. So
  `kCouldUnschedule` never reaches the transactions.
* `Keeps` is what the steps of a pass leave as it is.
-/

namespace Shinjuku

open Central Checked Function

variable {G C P T : Type}

/-! ## Tasks on cpus -/

section Current

variable {s : State G C P T} {c c' : C} {p : P}

theorem Good.current (h : Good s) (hc : s.current c = some p) :
    ∃ t, s.heap p = some t ∧ t.runState = .onCpu ∧ t.cpu = some c ∧
      (t.hasWork = true ↔ t.unscheduleLevel ≠ .must) := by
  rcases h with ⟨place, hb, hfits⟩
  have hp := hfits p
  rw [(hb.current c p).mp hc] at hp
  generalize s.heap p = o at hp
  cases hp with
  | onCpu hr hcpu hw => exact ⟨_, rfl, hr, hcpu, hw⟩

theorem Good.current_inj (h : Good s) (hc : s.current c = some p) (hc' : s.current c' = some p) :
    c = c' := by
  rcases h with ⟨place, hb, -⟩
  have hp := (hb.current c p).mp hc
  rw [(hb.current c' p).mp hc'] at hp
  cases hp
  rfl

theorem Good.not_current_of_queued (h : Good s) (hp : p ∈ s.runQueue.tasks) :
    s.current c ≠ some p := by
  rcases h with ⟨place, hb, -⟩
  intro hc
  have hq := (hb.mem_queue p).mp hp
  rw [(hb.current c p).mp hc] at hq
  cases hq

theorem Good.not_current_of_next (h : Good s) (hp : s.next c = some p) : s.current c' ≠ some p := by
  rcases h with ⟨place, hb, -⟩
  intro hc
  have hq := (hb.next c p).mp hp
  rw [(hb.current c' p).mp hc] at hq
  cases hq

/-- A task that is picked. -/
theorem Good.next (h : Good s) (hc : s.next c = some p) :
    ∃ t, s.heap p = some t ∧ t.runState = .queued ∧ t.hasWork = true ∧ t.unscheduleLevel = .no := by
  have hp := Placed.next_some h hc
  generalize s.heap p = o at hp
  cases hp with
  | picked hr hw hl => exact ⟨_, rfl, hr, hw, hl⟩

/-- The levels of the tasks on cpus obey a rule. -/
def Levels (s : State G C P T) (rule : C → UnscheduleLevel → Prop) : Prop :=
  ∀ c p t, s.current c = some p → s.heap p = some t → rule c t.unscheduleLevel

theorem Levels.mono {rule rule' : C → UnscheduleLevel → Prop} (h : Levels s rule)
    (himp : ∀ c l, s.current c ≠ none → rule c l → rule' c l) : Levels s rule' :=
  fun c p t hc ht => himp c _ (by simp [hc]) (h c p t hc ht)

/-- The tasks that are still on cpus have not changed. -/
theorem Levels.of_same {s' : State G C P T} {rule : C → UnscheduleLevel → Prop} (h : Levels s rule)
    (hsame : ∀ c p, s'.current c = some p → s.current c = some p ∧ s'.heap p = s.heap p) :
    Levels s' rule := by
  intro c p t hc ht
  rcases hsame c p hc with ⟨hc', hheap⟩
  exact h c p t hc' (hheap ▸ ht)

end Current

/-! ## The invariant -/

/-- In the first iteration, only tasks that have to leave get a successor. -/
def Paired (next : C → Option P) (c : C) (l : UnscheduleLevel) : Prop :=
  next c ≠ none → l = .must

/-- Only tasks with a successor are marked, and they have to leave. -/
def Settled (next : C → Option P) (c : C) (l : UnscheduleLevel) : Prop :=
  l = .no ∨ l = .must ∧ next c ≠ none

/-- The rule for the levels in the two iterations. -/
def roundRule (r : Round) (next : C → Option P) : C → UnscheduleLevel → Prop :=
  match r with
  | .first => Paired next
  | .second => Settled next

/-- The cpus with a picked task. -/
def Opened (s : State G C P T) (updated : List C) : Prop :=
  ∀ c, s.next c ≠ none ↔ c ∈ updated ∨ c ∈ s.openCpus

/-- A cpu that `SkipForSchedule` does not skip. -/
structure Ready (s : State G C P T) (r : Round) (c : C) : Prop where
  next : s.next c = none
  level : r = .first → ∀ p t, s.current c = some p → s.heap p = some t → t.unscheduleLevel = .must

/-- The state of a pass that picks tasks. -/
structure Picking (cfg : Config G C T) (s : State G C P T) (r : Round) (again : Bool)
    (cpus updated : List C) : Prop where
  nodup : cpus.Nodup
  subset : cpus ⊆ cfg.cpus
  opened : Opened s updated
  levels : Levels s (roundRule r s.next)
  /-- In the first iteration, the cpus that are left have no picked task. -/
  fresh : r = .first → ∀ c ∈ cpus, s.next c = none
  again : again = true → ∀ c rest, cpus = c :: rest → Ready s r c

/-- What holds where the agent is. -/
def ModeInv (cfg : Config G C T) (s : State G C P T) : Prop :=
  match s.mode with
  | .discover | .scrape =>
    (∀ c, s.current c = none) ∧ (∀ c, s.next c = none) ∧ s.pausedRepeatables = []
  | .drain => Levels s (fun _ l => l = .no) ∧ ∀ c, s.next c = none
  | .rearm _ => Levels s (fun _ l => l = .no) ∧ (∀ c, s.next c = none) ∧ s.yieldingTasks = []
  | .update => ∀ c, s.next c = none
  | .pick r again cpus updated => Picking cfg s r again cpus updated
  | .levels .first cpus updated => cpus.Nodup ∧ Opened s updated ∧
    Levels s fun c l => (c ∈ cpus → Paired s.next c l) ∧ (c ∉ cpus → Settled s.next c l)
  | .levels .second _ updated => Opened s updated ∧ Levels s (Settled s.next)
  | .commit cpus => cpus.Nodup ∧ (∀ c, s.next c ≠ none ↔ c ∈ cpus) ∧ Levels s (Settled s.next)

/-- The allocator knows the tasks. -/
def Known (s : State G C P T) : Prop :=
  ∀ g p, s.allocator g = some p ↔ ∃ t, s.heap p = some t ∧ t.gtid = g

structure Inv (cfg : Config G C T) (s : State G C P T) : Prop where
  good : Good s
  known : Known s
  cpus : ∀ c, s.current c ≠ none → c ∈ cfg.cpus
  nextCpus : ∀ c, s.next c ≠ none → c ∈ cfg.cpus
  mode : ModeInv cfg s

theorem Inv.at_mode {cfg : Config G C T} {s : State G C P T} {m : Mode C} (h : Inv cfg s)
    (hm : s.mode = m) : ModeInv cfg { s with mode := m } := by
  subst hm
  exact h.mode

theorem Init.inv {cfg : Config G C T} {s : State G C P T} (h : Init s) : Inv cfg s where
  good := by
    refine ⟨fun _ => .out, ⟨?_, ?_, ?_, ?_, ?_, ?_⟩, fun p => h.heap p ▸ .none⟩
    · simp [h.runQueue, RunQueue.tasks]
    · simp [h.runQueue, RunQueue.tasks]
    · simp [h.yieldingTasks]
    · simp [h.yieldingTasks]
    · simp [h.current]
    · simp [h.next]
  known g p := by simp [h.allocator, h.heap]
  cpus c hc := absurd (h.current c) hc
  nextCpus c hc := absurd (h.next c) hc
  mode := by
    rw [ModeInv, h.mode]
    exact ⟨h.current, h.next, h.pausedRepeatables⟩

/-! ## Messages and updates -/

section Drain

variable {cfg : Config G C T} {s s' : State G C P T} {p : P} {t : ShinjukuTask G C T}

/-- No task is marked, unless it is on a cpu. -/
theorem Good.level_of_offCpu (h : Good s) (ht : s.heap p = some t) (hr : t.runState ≠ .onCpu) :
    t.unscheduleLevel = .no := by
  rcases h.fits ht with ⟨q, hq⟩
  cases hq with
  | blocked _ hl | paused _ _ hl | queued _ _ hl | picked _ _ hl | yielding _ _ hl => exact hl
  | onCpu hr' => exact absurd hr' hr

/-- A task on a cpu is the current one there. -/
theorem Good.current_of_onCpu (h : Good s) (ht : s.heap p = some t) (hr : t.runState = .onCpu) :
    ∃ c, t.cpu = some c ∧ s.current c = some p := by
  rcases h with ⟨place, hb, hfits⟩
  have hp := hfits p
  rw [ht] at hp
  generalize hplace : place p = q at hp
  cases hp with
  | onCpu _ hcpu => exact ⟨_, hcpu, (hb.current _ p).mpr hplace⟩
  | blocked hr' | paused hr' | queued hr' | picked hr' | yielding hr' => simp [hr] at hr'

/-- While no task on a cpu is marked, no task is. -/
theorem Levels.all_no (h : Good s) (hlevels : Levels s fun _ l => l = .no)
    (ht : s.heap p = some t) : t.unscheduleLevel = .no := by
  by_cases hr : t.runState = .onCpu
  · rcases h.current_of_onCpu ht hr with ⟨c, -, hc⟩
    exact hlevels c p t hc ht
  · exact h.level_of_offCpu ht hr

/-- A message that concerns one task, while no task is marked. -/
theorem Inv.drain_moves (h : Inv cfg s) (hm : s.mode = .drain) (hgood : Good s') (hknown : Known s')
    (hheap : ∀ q ≠ p, s'.heap q = s.heap q)
    (hcurrent : ∀ c q, s'.current c = some q → s.current c = some q)
    (hnext : s'.next = s.next) (hmode : s'.mode = s.mode)
    (hlevel : ∀ t, s'.heap p = some t → t.unscheduleLevel = .no) : Inv cfg s' := by
  rcases h.at_mode hm with ⟨hlevels, hnone⟩
  refine ⟨hgood, hknown, ?_, ?_, ?_⟩
  · intro c hc
    rcases Option.ne_none_iff_exists'.mp hc with ⟨q, hq⟩
    exact h.cpus c (by simp [hcurrent c q hq])
  · rw [hnext]
    exact h.nextCpus
  · rw [ModeInv, hmode, hm, hnext]
    refine ⟨fun c q t hc ht => ?_, hnone⟩
    by_cases hq : q = p
    · subst hq
      exact hlevel t ht
    · exact hlevels c q t (hcurrent c q hc) (hheap q hq ▸ ht)

/-- One task changes, but not its thread. -/
theorem Known.update (h : Known s) (hallocator : s'.allocator = s.allocator)
    (hheap : ∀ q ≠ p, s'.heap q = s.heap q) (ht : s.heap p = some t) {t' : ShinjukuTask G C T}
    (ht' : s'.heap p = some t') (hgtid : t'.gtid = t.gtid) : Known s' := by
  intro g q
  rw [hallocator, h g q]
  by_cases hqp : q = p
  · subst hqp
    simp [ht, ht', hgtid]
  · rw [hheap q hqp]

variable [DecidableEq G]

theorem Inv.created {g : G} (h : Inv cfg s) (hm : s.mode = .drain ∨ s.mode = .discover)
    (hp : s.heap p = none) (hg : s.allocator g = none) (h' : Created s p g s' t) : Inv cfg s' := by
  have hknown : Known s' := by
    intro g' q
    rw [h'.allocator]
    by_cases hq : q = p
    · subst hq
      by_cases hg' : g' = g
      · subst hg'
        simp [h'.task, h'.gtid]
      · rw [update_of_ne hg', h.known g' q]
        simp [h'.task, h'.gtid, hp, Ne.symm hg']
    · rw [h'.heap q hq, ← h.known g' q]
      by_cases hg' : g' = g
      · subst hg'
        simp [hg, Ne.symm hq]
      · rw [update_of_ne hg']
  rcases hm with hm | hm
  · refine h.drain_moves hm h'.good hknown h'.heap h'.current h'.next h'.mode fun t' ht' => ?_
    obtain rfl : t = t' := Option.some.inj (h'.task.symm.trans ht')
    exact h'.level
  · have hinv := h.at_mode hm
    have hcurrent : ∀ c, s'.current c = none := by
      intro c
      by_contra hc
      rcases Option.ne_none_iff_exists'.mp hc with ⟨q, hq⟩
      cases (hinv.1 c).symm.trans (h'.current c q hq)
    refine ⟨h'.good, hknown, fun c hc => absurd (hcurrent c) hc, h'.next ▸ h.nextCpus, ?_⟩
    rw [ModeInv, h'.mode, hm, h'.next, h'.repeatables]
    exact ⟨hcurrent, hinv.2⟩

variable [DecidableEq P]

theorem Inv.handled {ends : Prop} (h : Inv cfg s) (hm : s.mode = .drain) (ht : s.heap p = some t)
    (h' : Handled s p t ends s') : Inv cfg s' := by
  have hinv := h.at_mode hm
  have hlevel := hinv.1.all_no h.good ht
  have hgood := h'.good
  cases h' with
  | stays _ hmoves ht' hkin =>
    have hrest := State.rest_eq hmoves.rest
    have hknown := h.known.update hrest.1 hmoves.heap ht ht' hkin.gtid
    refine h.drain_moves hm hgood hknown hmoves.heap hmoves.current hrest.2.1 hrest.2.2.2.2.2.1 ?_
    intro t'' ht''
    obtain rfl : _ = t'' := Option.some.inj (ht'.symm.trans ht'')
    exact hkin.level.trans hlevel
  | @freed s₁ _ hmoves =>
    have hrest := State.rest_eq hmoves.rest
    have hheap : ∀ q ≠ p, update s₁.heap p none q = s.heap q := fun q hq => by
      rw [update_of_ne hq, hmoves.heap q hq]
    refine h.drain_moves hm hgood ?_ hheap hmoves.current hrest.2.1 hrest.2.2.2.2.2.1 (by simp)
    -- the allocator forgets the thread of the task
    intro g q
    dsimp only
    rw [hrest.1]
    by_cases hq : q = p
    · subst hq
      have hknown := h.known g q
      simp only [ht, Option.some.injEq, exists_eq_left'] at hknown
      by_cases hg : g = t.gtid
      · simp [hg]
      · rw [update_of_ne hg, hknown]
        simp [Ne.symm hg]
    · rw [hheap q hq, ← h.known g q]
      by_cases hg : g = t.gtid
      · have hself : s.allocator t.gtid = some p := (h.known _ _).mpr ⟨t, ht, rfl⟩
        simp [hg, hself, Ne.symm hq]
      · rw [update_of_ne hg]

variable [DecidableEq C] [DecidableEq T]

/-- What a message may do. -/
inductive Dispatched (s : State G C P T) (e : Entry G C Unit) : State G C P T → Prop where
  | handled {p : P} {t : ShinjukuTask G C T} {s' : State G C P T} :
    s.allocator e.gtid = some p → s.heap p = some t → Handled s p t (Ends e.msg) s' →
    Dispatched s e s'
  | created {p : P} {t : ShinjukuTask G C T} {s' : State G C P T} :
    s.heap p = none → s.allocator e.gtid = none → Created s p e.gtid s' t → Dispatched s e s'
  | ignored : Dispatched s e s

theorem Inv.dispatchMessage {e : Entry G C Unit} {a : Answers G}
    {x : Except Fault (State G C P T)} (h : Inv cfg s) (hm : s.mode = .drain)
    (hx : dispatchMessage cfg s e p a = some x) :
    Ensures NotPaused x fun s' => Inv cfg s' ∧ Dispatched s e s' := by
  unfold Shinjuku.dispatchMessage at hx
  split at hx
  · rename_i q hq
    obtain rfl := Option.some.inj hx
    rcases (h.known _ _).mp hq with ⟨t, ht, -⟩
    have hinv := h.at_mode hm
    refine (taskMessage_spec h.good ht (hinv.1.all_no h.good ht)).mono fun s' hs' => ?_
    exact ⟨h.handled hm ht hs', .handled hq ht hs'⟩
  · rename_i hg _
    split at hx
    · rename_i hfree
      obtain rfl := Option.some.inj hx
      have hp := Option.isNone_iff_eq_none.mp hfree
      refine (taskNew_spec h.good hp).mono ?_
      rintro s' ⟨t, ht⟩
      exact ⟨h.created (.inl hm) hp hg ht, .created hp hg ht⟩
    · cases hx
  · obtain rfl := Option.some.inj hx
    exact .ok ⟨h, .ignored⟩

omit [DecidableEq G] [DecidableEq P] [DecidableEq C] [DecidableEq T] in
/-- The copies of the items are not part of the invariant. -/
theorem Inv.with_cached (h : Inv cfg s) (hm : s.mode = .update ∨ s.mode = .scrape)
    (cached : T → ℕ → SchedParams G) : Inv cfg { s with cachedsids := cached } := by
  refine ⟨h.good, h.known, h.cpus, h.nextCpus, ?_⟩
  have hinv := h.mode
  rcases hm with hm | hm
  · simp only [ModeInv, hm] at hinv ⊢
    exact hinv
  · simp only [ModeInv, hm] at hinv ⊢
    exact hinv

omit [DecidableEq G] [DecidableEq P] [DecidableEq T] in
theorem Inv.refreshed {tgid : T} {sid : ℕ} (h : Inv cfg s)
    (hm : s.mode = .update ∨ s.mode = .scrape) (h' : Refreshed cfg s tgid sid s') : Inv cfg s' := by
  cases h' with
  | ignored => exact h.with_cached hm _
  | @updated cached g p t t' s' hengines hg hp ht hupdated =>
    rcases State.rest_eq hupdated.rest with ⟨hallocator, hnext, -, -, -, hmode, -⟩
    have hknown := h.known.update hallocator hupdated.heap ht hupdated.task hupdated.gtid
    have hcurrent : ∀ c, s'.current c ≠ none → s.current c ≠ none := by
      intro c hc
      rcases Option.ne_none_iff_exists'.mp hc with ⟨q, hq⟩
      exact Option.ne_none_iff_exists'.mpr ⟨q, hupdated.current c q hq⟩
    refine ⟨hupdated.good, hknown, fun c hc => h.cpus c (hcurrent c hc), hnext ▸ h.nextCpus, ?_⟩
    have hinv := h.mode
    rcases hm with hm | hm
    · rw [ModeInv, hm] at hinv
      rw [ModeInv, hmode, hm, hnext]
      exact hinv
    · rw [ModeInv, hm] at hinv
      rw [ModeInv, hmode, hm, hnext]
      refine ⟨fun c => not_not.mp (mt (hcurrent c) (not_not.mpr (hinv.1 c))), hinv.2.1, ?_⟩
      -- an engine without work gets some during the discovery
      rcases hupdated.repeatables with hsame | ⟨-, -, -, hwork, hrepeating⟩
      · exact hsame.trans hinv.2.2
      · have hengine := hengines.engine (by simp [State.inDiscovery, hm]) hrepeating
        rw [hupdated.hasWork, hengine] at hwork
        cases hwork

end Drain

end Shinjuku
