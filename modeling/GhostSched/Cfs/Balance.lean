import GhostSched.Cfs.Migration

/-!
# Load balancing

An idle agent takes tasks from the runqueue of a busy cpu. `DetachTasks` and
`AttachTasks` are loops, each with a relation that says what several rounds of it
have done: `Detaches` and `Attaches`. Between the two the tasks are in the list of
the agent.
-/

namespace Cfs

open Kernel Function

variable {G C P : Type*} [DecidableEq G] [DecidableEq C] [LinearOrder P]

variable {cfg : Config C} {a : Action G C P} {s s₁ s₂ s' : State G C P} {L L₁ L₂ L' : Layout C P}
  {c src dst : C} {p : P} {ps qs : List P}

/-! ## A pass of an agent -/

omit [DecidableEq G] [LinearOrder P] in
theorem Sound.setCurrent {x : Option P} (h : Sound s) (hx : ∀ q ∈ x, s.mem q = .live) :
    Sound (s.setCurrent c x) :=
  forall_setCpu (Q := fun _ cs => (∀ p ∈ cs.rq, s.mem p = .live) ∧
    ∀ p ∈ cs.current, s.mem p = .live) ⟨(h c).1, hx⟩ h

/-- What the agent of `c` has done so far. The tasks that are current on other cpus are as they
were. -/
structure Turn (cfg : Config C) (c : C) (s s' : State G C P) (L L' : Layout C P) : Prop where
  core : Core s' L'
  comm : Comm cfg s'
  agents : s'.agents = s.agents
  crashed : s'.crashed = s.crashed
  actual : ∀ c', c' ≠ c → L'.actual c' = L.actual c'
  moving : ∀ c', c' ≠ c → L'.moving c' = L.moving c'
  current : ∀ c', c' ≠ c → L'.current c' = L.current c'
  others : ∀ c', c' ≠ c → ∀ q, L.current c' = some q →
    s'.mem q = s.mem q ∧ s'.heap q = s.heap q

/-- The agent stops with the current task that the layout has for it. -/
theorem Turn.shape {x : Agent G P} (h : Shape s L) (hturn : Turn cfg c s s' L L')
    (hmov : L'.moving c = x.moving)
    (hstale : ∀ p, L'.current c = some p → s'.mem p ≠ .live → x.Idle)
    (hidle : ∀ p, x.Idle → L'.current c = some p → s'.mem p ≠ .live)
    (htask : ∀ p, x.task = some p → L'.current c = some p ∧ (s'.heap p).state = .running) :
    Shape ((s'.setCurrent c (L'.current c)).setAgent c x) (L'.store c (L'.current c)) := by
  have harr : Arranged (s'.setCurrent c (L'.current c)) (L'.store c (L'.current c)) :=
    hturn.core.arranged.store
  have hcore : Core ((s'.setCurrent c (L'.current c)).setAgent c x) (L'.store c (L'.current c)) :=
    ⟨⟨harr.at_iff, harr.actual, harr.ordered, harr.size, harr.keys, harr.nodup⟩, hturn.core.owned,
      hturn.core.home, hturn.core.valid, hturn.core.gone⟩
  have hother : ∀ {c'}, c' ≠ c →
      ((s'.setCurrent c (L'.current c)).setAgent c x).agents c' = s.agents c' :=
    fun hc => (setAgent_of_ne hc).trans (congrFun hturn.agents _)
  refine ⟨hcore, ?_, fun c' => ?_, fun c' p hp hdead => ?_, fun c' p hi hp => ?_, fun c' p hp => ?_⟩
  · -- only the entry of this cpu can have differed
    funext c'
    show update L'.actual c (L'.current c) c' = L'.current c'
    by_cases hc : c' = c
    · subst hc
      rw [update_self]
    · rw [update_of_ne hc, hturn.actual c' hc, h.settled, hturn.current c' hc]
  · by_cases hc : c' = c
    · subst hc
      rw [setAgent_self]
      exact hmov
    · rw [hother hc]
      exact (hturn.moving c' hc).trans (h.moving c')
  · by_cases hc : c' = c
    · subst hc
      rw [setAgent_self]
      exact hstale p hp hdead
    · rw [hother hc]
      have hp : L.current c' = some p := (hturn.current c' hc).symm.trans hp
      have hdead : s'.mem p ≠ .live := hdead
      rw [(hturn.others c' hc p hp).1] at hdead
      exact h.stale c' p hp hdead
  · by_cases hc : c' = c
    · subst hc
      rw [setAgent_self] at hi
      exact hidle p hi hp
    · rw [hother hc] at hi
      have hp : L.current c' = some p := (hturn.current c' hc).symm.trans hp
      show s'.mem p ≠ .live
      rw [(hturn.others c' hc p hp).1]
      exact h.idle c' p hi hp
  · by_cases hc : c' = c
    · subst hc
      rw [setAgent_self] at hp
      exact htask p hp
    · rw [hother hc] at hp
      rcases h.task c' p hp with ⟨hcur, hstate⟩
      refine ⟨(hturn.current c' hc).trans hcur, ?_⟩
      show (s'.heap p).state = .running
      rw [(hturn.others c' hc p hcur).2]
      exact hstate

/-- The step ends, with the agent in `x`. -/
theorem Turn.finish (x : Agent G P) (h : Inv cfg s) (hshape : Shape s L)
    (hturn : Turn cfg c s s' L L') (hmov : L'.moving c = x.moving)
    (hstale : ∀ p, L'.current c = some p → s'.mem p ≠ .live → x.Idle)
    (hidle : ∀ p, x.Idle → L'.current c = some p → s'.mem p ≠ .live)
    (htask : ∀ p, x.task = some p → L'.current c = some p ∧ (s'.heap p).state = .running)
    (hpast : (s.agents c).Past)
    (hv : ∀ c', ∀ q ∈ (s.cpus c').rq, (s'.heap q).vruntime = (s.heap q).vruntime)
    (hchange : ∀ q, s'.mem q = .live → s.mem q = .live ∧ Change cfg a (s.heap q) (s'.heap q))
    (hopened : ∀ p, x = .opened p → (s'.heap p).cpuAffinity = (s.heap p).cpuAffinity ∧
      s.mem p = .live ∧ (s.heap p).cpu = c ∧
      ((s.heap p).Queued ∨ (s.heap p).state = .running ∧ a.Passes c))
    (hclean : Sound s → Spares s a →
      Sound (s'.setCurrent c (L'.current c)) ∧ s'.usedFreed = s.usedFreed) :
    Good cfg a s ((s'.setCurrent c (L'.current c)).setAgent c x) := by
  refine ⟨⟨⟨_, hturn.shape hshape hmov hstale hidle htask⟩, ?_, hturn.crashed.trans h.crashed⟩,
    ⟨hv, fun q hq _ => (hchange q hq).2, fun q hq hnot => absurd (hchange q hq).1 hnot,
      fun c' q hq => ?_⟩, hclean⟩
  · have hcomm : Comm cfg (s'.setCurrent c (L'.current c)) :=
      ⟨hturn.comm.mail, hturn.comm.free, hturn.comm.quiet⟩
    have hpast' : ((s'.setCurrent c (L'.current c)).agents c).Past := by
      show (s'.agents c).Past
      rw [hturn.agents]
      exact hpast
    exact hcomm.setAgent (fun _ => hpast'.awake) (fun _ => hpast')
  · by_cases hc : c' = c
    · subst hc
      rw [setAgent_self] at hq
      exact .inr (hopened q hq)
    · rw [setAgent_of_ne hc] at hq
      have hq : s'.agents c' = .opened q := hq
      rw [hturn.agents] at hq
      have hcur := (hshape.task c' q (by rw [hq]; rfl)).1
      exact .inl ⟨hq, (hturn.others c' hc q hcur).2⟩

omit [DecidableEq G] [LinearOrder P] in
theorem setCurrent_self {x : Option P} (h : (s.cpus c).current = x) : s.setCurrent c x = s := by
  subst h
  unfold State.setCurrent State.setCpu
  rw [update_eq_self]

omit [DecidableEq G] in
/-- An agent that is going to replace its current task, which was freed, forgets it. -/
theorem Shape.forget (h : Shape s L) (hidle : (s.agents c).Idle) :
    ∃ L', Core s L' ∧ L'.actual = L.actual ∧ L'.moving = L.moving ∧
      L'.current = update L.current c none ∧
      ∀ q, s.mem q = .live → L'.loc q = L.loc q := by
  cases hcur : L.current c with
  | none =>
    grind [h.toCore, update_eq_self]
  | some p =>
    have hdead := h.idle c p hidle hcur
    have hne : ∀ q, s.mem q = .live → q ≠ p := fun q hq heq => hdead (heq ▸ hq)
    have hlive : ∀ q, s.mem q = .live → (L.drop c p).loc q = L.loc q :=
      fun q hq => update_of_ne (hne q hq) ..
    refine ⟨L.drop c p, ⟨h.arranged.drop (h.arranged.current_iff.mp hcur), h.owned, fun q hq => ?_,
      h.valid, fun q l hq hl => ?_⟩, rfl, rfl, rfl, hlive⟩
    · rw [hlive q hq]
      exact h.home q hq
    · have hl : update L.loc p none q = some l := hl
      grind [h.gone]

/-! ## Detaching -/

/-- The tasks `ps` went from the runqueue of `src` to the list of the agent of `dst`. -/
structure Detaches (cfg : Config C) (src dst : C) (s s' : State G C P) (L L' : Layout C P)
    (ps : List P) : Prop where
  core : Core s' L'
  comm : Comm cfg s'
  agents : s'.agents = s.agents
  mem : s'.mem = s.mem
  queue : s'.queue = s.queue
  crashed : s'.crashed = s.crashed
  actual : L'.actual = L.actual
  current : L'.current = L.current
  moving : L'.moving = update L.moving dst (L.moving dst ++ ps)
  task : ∀ q, s'.heap q = s.heap q ∨ q ∈ ps ∧ L.loc q = some (src, .rq) ∧
    (s.heap q).cpuAffinity dst = true ∧
    s'.heap q = { s.heap q with cpu := dst, onRq := .dequeued }
  clean : Sound s → Sound s' ∧ s'.usedFreed = s.usedFreed

theorem Detaches.refl (hcore : Core s L) (hcomm : Comm cfg s) :
    Detaches cfg src dst s s L L [] where
  core := hcore
  comm := hcomm
  agents := rfl
  mem := rfl
  queue := rfl
  crashed := rfl
  actual := rfl
  current := rfl
  moving := by rw [List.append_nil, update_eq_self]
  task _ := .inl rfl
  clean hs := ⟨hs, rfl⟩

/-- A task that is on the runqueue after some rounds was there before. -/
theorem Detaches.loc (h : Detaches cfg src dst s s' L L' ps) (hcore : Core s L) {q : P}
    (hq : L'.loc q = some (src, .rq)) : L.loc q = some (src, .rq) ∧ s'.heap q = s.heap q := by
  have hlive : s'.mem q = .live := h.core.live hq nofun
  have hhome : (s'.heap q).home = some (src, .rq) := (h.core.home q hlive).symm.trans hq
  rcases h.task q with heq | ⟨-, -, -, heq⟩
  · grind [hcore.home, h.mem]
  · have hon := (home_eq_rq hhome).2.1
    rw [heq] at hon
    cases hon

theorem Detaches.trans (h₁ : Detaches cfg src dst s s₁ L L₁ ps) (hcore : Core s L)
    (h₂ : Detaches cfg src dst s₁ s₂ L₁ L₂ qs) : Detaches cfg src dst s s₂ L L₂ (ps ++ qs) where
  core := h₂.core
  comm := h₂.comm
  agents := h₂.agents.trans h₁.agents
  mem := h₂.mem.trans h₁.mem
  queue := h₂.queue.trans h₁.queue
  crashed := h₂.crashed.trans h₁.crashed
  actual := h₂.actual.trans h₁.actual
  current := h₂.current.trans h₁.current
  moving := by
    rw [h₂.moving, h₁.moving, update_self, update_idem, List.append_assoc]
  task q := by
    grind [h₂.task, h₁.task, h₁.loc]
  clean hs := by
    grind [h₁.clean, h₂.clean]

/-- A task of the runqueue is looked at. -/
theorem Detaches.touch (hcore : Core s L) (hcomm : Comm cfg s) (hloc : L.loc p = some (src, .rq)) :
    Detaches cfg src dst s (s.touch [p]) L L [] := by
  have hp : s.mem p = .live := hcore.live hloc nofun
  have hdoes := (hcore.holds hp).touch_self
  have hframe := hdoes.frame
  exact {
    core := hcore.same hdoes.holds.toArranged rfl rfl rfl
    comm := hcomm.frame_same hcore hp hframe rfl rfl rfl
    agents := rfl, mem := rfl, queue := rfl, crashed := rfl, actual := rfl, current := rfl
    moving := by rw [List.append_nil, update_eq_self]
    task := fun _ => .inl rfl
    clean := fun hs => ⟨hframe.sound hs hp, hframe.clean hs hp⟩ }

/-- A task that the kernel has associated with the channel of `dst` is detached. -/
theorem Detaches.one {ok : P → Bool} (hcore : Core s L) (hcomm : Comm cfg s)
    (hloc : L.loc p = some (src, .rq))
    (hno : ok p = true → ∀ x ∈ about (s.heap p).gtid (s.queue cfg.defaultCpu), ¬ IsNew x.2)
    (hcan : canMigrateTask s p dst ok = some s₁) :
    ∃ L', Detaches cfg src dst s (detachTask s₁ src dst p) L L' [p] := by
  have hp : s.mem p = .live := hcore.live hloc nofun
  rcases home_eq_rq ((hcore.home p hp).symm.trans hloc) with ⟨hstate, hon, -⟩
  rcases Option.ite_none_right_eq_some.mp hcan with ⟨haff, hassoc⟩
  rcases Option.ite_none_right_eq_some.mp hassoc with ⟨⟨hok, hb⟩, hs₁⟩
  have hs₁ := Option.some.inj hs₁
  have hdata : SameData s s₁ := by
    subst hs₁
    exact ⟨rfl, rfl, rfl, rfl, rfl, rfl⟩
  have hagents : s₁.agents = s.agents := by
    subst hs₁
    rfl
  have hqueue : s₁.queue = s.queue := by
    subst hs₁
    rfl
  have hcore₁ : Core s₁ L := hcore.same (hdata.arranged hcore.arranged) hdata.heap hdata.mem
    hdata.alloc
  have hp₁ : s₁.mem p = .live := hdata.mem ▸ hp
  -- off the runqueue, with its new cpu, and then in the list
  have hcpu : Does s₁ (s₁.modify p fun t => { t with cpu := dst }) L p
      { s₁.heap p with cpu := dst } := (hcore₁.holds hp₁).modify rfl (.inl rfl)
  have hset := hcpu.next fun h => h.setOnRq .dequeued (by rw [hdata.heap, hon]; rfl)
  have hoff := hset.next fun h => h.eraseTask hloc
  have hput : Does s₁ (detachTask s₁ src dst p) ((L.put p none).detach dst p) p
      { s₁.heap p with cpu := dst, onRq := .dequeued } :=
    ⟨hoff.frame, hoff.holds.relocate (hoff.holds.toArranged.detach (update_self ..)) rfl⟩
  have hframe := hput.frame
  have htask : (detachTask s₁ src dst p).heap p =
      { s.heap p with cpu := dst, onRq := .dequeued } := by
    rw [hput.holds.task, hdata.heap]
  refine ⟨_, {
    core := hcore₁.does hp₁ hput ?_ (.inr rfl)
    comm := ?_
    agents := hframe.agents.trans hagents
    mem := hframe.mem.trans hdata.mem
    queue := hframe.queue.trans hqueue
    crashed := hframe.crashed.trans hdata.crashed
    actual := rfl
    current := rfl
    moving := rfl
    task := ?_
    clean := ?_ }⟩
  · show update (update L.loc p none) p _ = _
    rw [update_idem, home_moving (by rw [hdata.heap]; exact hstate) rfl]
  · grind [hcomm.associate]
  · grind [hframe.heap, hdata.heap]
  · grind [hdata.clean, hframe.sound, hframe.clean]

/-- The loop of `DetachTasks` over tasks of the runqueue. -/
theorem detachTasks_detaches {ok : P → Bool} {n : ℕ} (hcore : Core s L) (hcomm : Comm cfg s)
    (hps : ∀ q ∈ ps, L.loc q = some (src, .rq)) (hnodup : ps.Nodup)
    (hno : ∀ q ∈ ps, ok q = true →
      ∀ x ∈ about (s.heap q).gtid (s.queue cfg.defaultCpu), ¬ IsNew x.2) :
    ∃ L', Detaches cfg src dst s (detachTasks src dst ok ps n s).1 L L'
      (detachTasks src dst ok ps n s).2 := by
  induction ps generalizing n s L with
  | nil => exact ⟨L, .refl hcore hcomm⟩
  | cons p ps ih =>
    rcases List.nodup_cons.mp hnodup with ⟨hp, hnodup⟩
    have hloc := hps p List.mem_cons_self
    -- the rest of the loop, after a round that leaves the other tasks alone
    have hrest : ∀ {s₁ : State G C P} {L₁ : Layout C P} {qs : List P} {n : ℕ},
        Detaches cfg src dst s s₁ L L₁ qs → (∀ q ∈ qs, q = p) →
        ∃ L', Detaches cfg src dst s (detachTasks src dst ok ps n s₁).1 L L'
          (qs ++ (detachTasks src dst ok ps n s₁).2) := by
      intro s₁ L₁ qs n hround hqs
      have hsame : ∀ q ∈ ps, s₁.heap q = s.heap q := by
        intro q hq
        rcases hround.task q with heq | ⟨hmem, -⟩
        · exact heq
        · exact absurd (hqs q hmem ▸ hq) hp
      have hps' : ∀ q ∈ ps, L₁.loc q = some (src, .rq) := by
        intro q hq
        have hloc := hps q (List.mem_cons_of_mem _ hq)
        have hlive := hcore.live hloc nofun
        rw [hround.core.home q (hround.mem ▸ hlive), hsame q hq, ← hcore.home q hlive]
        exact hloc
      have hno' : ∀ q ∈ ps, ok q = true →
          ∀ x ∈ about (s₁.heap q).gtid (s₁.queue cfg.defaultCpu), ¬ IsNew x.2 := by
        intro q hq hok
        rw [hsame q hq, hround.queue]
        exact hno q (List.mem_cons_of_mem _ hq) hok
      rcases ih (n := n) hround.core hround.comm hps' hnodup hno' with ⟨L', hL'⟩
      exact ⟨L', hround.trans hcore hL'⟩
    have htouch : Detaches cfg src dst s (s.touch [p]) L L [] := .touch hcore hcomm hloc
    simp only [detachTasks]
    split
    · exact ⟨L, .refl hcore hcomm⟩
    · split
      · rename_i s₁ hcan
        rcases Detaches.one htouch.core htouch.comm hloc
          (hno p List.mem_cons_self) hcan with ⟨L₁, hone⟩
        exact hrest (htouch.trans hcore hone) fun q hq => List.mem_singleton.mp hq
      · exact hrest htouch nofun

section

variable (hdet : Detaches cfg src c s s' L₁ L' ps)
include hdet

/-- What several rounds of the loop are for the agent of `dst`. -/
theorem Detaches.turn (hcore : Core s L₁) (hactual : L₁.actual = L.actual)
    (hmoving : L₁.moving = L.moving) (hcurrent : ∀ c', c' ≠ c → L₁.current c' = L.current c') :
    Turn cfg c s s' L L' where
  core := hdet.core
  comm := hdet.comm
  agents := hdet.agents
  crashed := hdet.crashed
  actual _ _ := by rw [hdet.actual, hactual]
  moving c' hc := by
    rw [hdet.moving, Function.update_of_ne hc, hmoving]
  current c' hc := by
    rw [hdet.current, hcurrent c' hc]
  others c' hc q hq := by
    refine ⟨by rw [hdet.mem], (hdet.task q).resolve_right fun hmoved => ?_⟩
    have hloc := hcore.arranged.current_iff.mp ((hcurrent c' hc).trans hq)
    rw [hmoved.2.1] at hloc
    cases hloc

theorem Detaches.vruntime (q : P) : (s'.heap q).vruntime = (s.heap q).vruntime := by
  rcases hdet.task q with heq | ⟨-, -, -, heq⟩ <;> rw [heq]

/-- A task is only detached for a cpu of its affinity. -/
theorem Detaches.change (q : P) : Change cfg a (s.heap q) (s'.heap q) := by
  rcases hdet.task q with heq | ⟨-, -, haff, heq⟩
  · rw [heq]
    exact .refl _
  · rw [heq]
    exact ⟨.inl rfl, fun _ => .inl haff⟩

end

/-- The agent has detached nothing, and waits. -/
theorem Inv.detach_nil (src : C) (h : Inv cfg s) (hshape : Shape s L)
    (hagent : s.agents c = .balance)
    (hdet : ∀ L, Core s L → ∃ L', Detaches cfg src c s s' L L' []) :
    Good cfg a s (setNext s' c none) := by
  have hidle : (s.agents c).Idle := by
    rw [hagent]
    trivial
  rcases hshape.forget hidle with ⟨L₁, hcore, hactual, hmoving, hcurrent, -⟩
  rcases hdet L₁ hcore with ⟨L', hdet⟩
  have hcur : L'.current c = none := by
    rw [hdet.current, hcurrent, update_self]
  have hturn : Turn cfg c s s' L L' := hdet.turn hcore hactual hmoving fun c' hc => by
    rw [hcurrent, update_of_ne hc]
  have hmov : L'.moving c = [] := by
    rw [hdet.moving, update_self, hmoving, hshape.moving, hagent]
    rfl
  have hgood := hturn.finish (a := a) .asleep h hshape hmov (by rw [hcur]; exact nofun) nofun nofun
    (by rw [hagent]; trivial) (fun _ q _ => hdet.vruntime q)
    (fun q hq => ⟨hdet.mem ▸ hq, hdet.change q⟩) nofun fun hs _ => ?_
  · rw [hcur] at hgood
    exact hgood
  · rw [hcur]
    exact ⟨(hdet.clean hs).1.setCurrent nofun, (hdet.clean hs).2⟩

/-- `LoadBalance` up to `DetachTasks`. -/
theorem Inv.detach {sizes : Sizes C P} (h : Inv cfg s) (hagent : s.agents c = .balance)
    (hno : ∀ q ∈ (s.cpus (findBusiestQueue cfg sizes.nrRunnable)).rq, sizes.ok q = true →
      ∀ x ∈ about (s.heap q).gtid (s.queue cfg.defaultCpu), ¬ IsNew x.2) :
    Good cfg (.detach c sizes) s (loadBalance cfg s c sizes) := by
  rcases h.shape with ⟨L, hshape⟩
  simp only [loadBalance]
  generalize findBusiestQueue cfg sizes.nrRunnable = src at hno
  split
  · have hdet : ∀ L, Core s L → ∃ L', Detaches cfg src c s
        (detachTasks src c sizes.ok (s.cpus src).rq
          (calculateImbalance sizes.src sizes.dst) s).1 L L'
        (detachTasks src c sizes.ok (s.cpus src).rq (calculateImbalance sizes.src sizes.dst) s).2 :=
      fun L hcore => detachTasks_detaches hcore h.comm (fun q hq => hcore.arranged.mem_rq.mp hq)
        (hshape.arranged.ordered src).nodup hno
    split
    · rename_i s' hres
      rw [hres] at hdet
      exact h.detach_nil src hshape hagent hdet
    · rename_i s' ps _ hres
      rw [hres] at hdet
      rcases hdet L hshape.toCore with ⟨L', hdet⟩
      have hturn : Turn cfg c s s' L L' := hdet.turn hshape.toCore rfl rfl fun _ _ => rfl
      have hself : (s'.cpus c).current = L'.current c := by
        rw [hdet.core.arranged.actual, hdet.actual, hdet.current, hshape.settled]
      have hgood := hturn.finish (a := .detach c sizes) (.attach ps) h hshape ?_
        (fun _ _ _ => trivial)
        (fun q _ hq => ?_) (by simp [Agent.task]) (by rw [hagent]; trivial)
        (fun _ q _ => hdet.vruntime q) (fun q hq => ⟨hdet.mem ▸ hq, hdet.change q⟩) (by simp)
        fun hs _ => ?_
      · rw [setCurrent_self hself] at hgood
        exact hgood
      · rw [hdet.moving, update_self, hshape.moving, hagent]
        rfl
      · rw [hdet.current] at hq
        rw [hdet.mem]
        exact hshape.idle c q (by rw [hagent]; trivial) hq
      · rw [setCurrent_self hself]
        exact hdet.clean hs
  · exact h.detach_nil src hshape hagent fun L hcore => ⟨L, .refl hcore h.comm⟩

/-! ## Attaching -/

/-- Tasks went from the list of the agent of `c` to its runqueue. -/
structure Attaches (cfg : Config C) (c : C) (s s' : State G C P) (L L' : Layout C P) : Prop where
  core : Core s' L'
  comm : Comm cfg s'
  agents : s'.agents = s.agents
  mem : s'.mem = s.mem
  crashed : s'.crashed = s.crashed
  actual : L'.actual = L.actual
  current : L'.current = L.current
  moving : ∀ c', c' ≠ c → L'.moving c' = L.moving c'
  task : ∀ q, s'.heap q = s.heap q ∨ L.loc q = some (c, .moving) ∧
    ∃ v, s'.heap q = { s.heap q with vruntime := v, onRq := .queued }
  clean : Sound s → Sound s' ∧ s'.usedFreed = s.usedFreed

theorem Attaches.refl (hcore : Core s L) (hcomm : Comm cfg s) : Attaches cfg c s s L L :=
  ⟨hcore, hcomm, rfl, rfl, rfl, rfl, rfl, fun _ _ => rfl, fun _ => .inl rfl, fun hs => ⟨hs, rfl⟩⟩

theorem Attaches.trans (h₁ : Attaches cfg c s s₁ L L₁) (hcore : Core s L)
    (h₂ : Attaches cfg c s₁ s₂ L₁ L₂) : Attaches cfg c s s₂ L L₂ where
  core := h₂.core
  comm := h₂.comm
  agents := h₂.agents.trans h₁.agents
  mem := h₂.mem.trans h₁.mem
  crashed := h₂.crashed.trans h₁.crashed
  actual := h₂.actual.trans h₁.actual
  current := h₂.current.trans h₁.current
  moving c' hc := (h₂.moving c' hc).trans (h₁.moving c' hc)
  task q := by
    rcases h₂.task q with heq₂ | ⟨hloc, v, heq₂⟩
    · rw [heq₂]
      exact h₁.task q
    · -- a task that is still in the list has not been touched
      have hlive : s₁.mem q = .live := h₁.core.live hloc nofun
      have hon := (home_eq_moving ((h₁.core.home q hlive).symm.trans hloc)).2.1
      rcases h₁.task q with heq₁ | ⟨-, w, heq₁⟩
      · refine .inr ⟨?_, v, heq₁ ▸ heq₂⟩
        rw [hcore.home q (h₁.mem ▸ hlive), ← heq₁, ← h₁.core.home q hlive]
        exact hloc
      · rw [heq₁] at hon
        cases hon
  clean hs := by
    rcases h₁.clean hs with ⟨hs₁, hu₁⟩
    rcases h₂.clean hs₁ with ⟨hs₂, hu₂⟩
    exact ⟨hs₂, hu₂.trans hu₁⟩

/-- The first task of the list is attached. -/
theorem Attaches.one (hcore : Core s L) (hcomm : Comm cfg s) (hmoving : L.moving c = p :: ps) :
    ∃ L', Attaches cfg c s (Rq.enqueueTask s c p) L L' ∧ L'.moving c = ps := by
  have hloc : L.loc p = some (c, .moving) :=
    hcore.arranged.mem_moving.mp (hmoving ▸ List.mem_cons_self)
  have hp : s.mem p = .live := hcore.live hloc nofun
  have hhome := (hcore.home p hp).symm.trans hloc
  rcases home_eq_moving hhome with ⟨hstate, hon, hcpu⟩
  have hoff : Holds s (L.attach c p ps) p (s.heap p) :=
    (hcore.holds hp).relocate (hcore.arranged.attach hmoving) rfl
  have hput := hoff.enqueueTask (c := c) (update_self ..) (by rw [hon]; rfl)
  have hframe := hput.frame
  have htask := hput.holds.task
  refine ⟨_, {
    core := hcore.does hp hput ?_ (.inl hstate)
    comm := hcomm.frame_same hcore hp hframe (by rw [htask]) (by rw [htask]) (by rw [htask]; rfl)
    agents := hframe.agents
    mem := hframe.mem
    crashed := hframe.crashed
    actual := rfl
    current := rfl
    moving := fun c' hc => update_of_ne hc ..
    task := fun q => ?_
    clean := fun hs => ⟨hframe.sound hs hp, hframe.clean hs hp⟩ }, update_self ..⟩
  · show update (update L.loc p none) p _ = _
    rw [update_idem, home_queued (by exact hstate) rfl, hcpu]
  · grind [hframe.heap]

/-- The loop of `AttachTasks`. -/
theorem attachTasks_attaches (hcore : Core s L) (hcomm : Comm cfg s) (hmoving : L.moving c = ps) :
    ∃ L', Attaches cfg c s (attachTasks s c ps) L L' ∧ L'.moving c = [] := by
  induction ps generalizing s L with
  | nil => exact ⟨L, .refl hcore hcomm, hmoving⟩
  | cons p ps ih =>
    rcases Attaches.one hcore hcomm hmoving with ⟨L₁, hone, hmoving₁⟩
    rcases ih hone.core hone.comm hmoving₁ with ⟨L', hrest, hnil⟩
    exact ⟨L', hone.trans hcore hrest, hnil⟩

/-- `AttachTasks`. -/
theorem Inv.attach (h : Inv cfg s) (hagent : s.agents c = .attach ps) :
    Good cfg (.attach c) s ((Cfs.attachTasks s c ps).setAgent c .repick) := by
  rcases h.shape with ⟨L, hshape⟩
  have hmoving : L.moving c = ps := by
    rw [hshape.moving, hagent]
    rfl
  rcases attachTasks_attaches hshape.toCore h.comm hmoving with ⟨L', hatt, hnil⟩
  -- only the tasks on the agent's list change
  have hsame : ∀ {q : P} {l : C × Place}, L.loc q = some l → l.2 ≠ .moving →
      (Cfs.attachTasks s c ps).heap q = s.heap q := by
    intro q l hloc hne
    grind [hatt.task]
  have hturn : Turn cfg c s (Cfs.attachTasks s c ps) L L' := {
    core := hatt.core
    comm := hatt.comm
    agents := hatt.agents
    crashed := hatt.crashed
    actual := fun c' _ => by rw [hatt.actual]
    moving := hatt.moving
    current := fun c' _ => by rw [hatt.current]
    others := fun c' _ q hq =>
      ⟨by rw [hatt.mem], hsame (hshape.arranged.current_iff.mp hq) (by simp)⟩ }
  have hself : ((Cfs.attachTasks s c ps).cpus c).current = L'.current c := by
    rw [hatt.core.arranged.actual, hatt.actual, hatt.current, hshape.settled]
  have hgood := hturn.finish (a := .attach c) .repick h hshape hnil (fun _ _ _ => trivial)
    (fun q _ hq => ?_) (by rintro _ ⟨⟩) (by rw [hagent]; trivial)
    (fun c' q hq => by rw [hsame (hshape.arranged.mem_rq.mp hq) (by simp)])
    (fun q hq => ⟨hatt.mem ▸ hq, ?_⟩) (by simp) fun hs _ => ?_
  · rw [setCurrent_self hself] at hgood
    exact hgood
  · rw [hatt.current] at hq
    rw [hatt.mem]
    exact hshape.idle c q (by rw [hagent]; trivial) hq
  · -- they were dequeued and are queued now
    rcases hatt.task q with heq | ⟨hloc, v, heq⟩
    · rw [heq]
      exact .refl _
    · have hlive : s.mem q = .live := hatt.mem ▸ hq
      rcases home_eq_moving ((hshape.home q hlive).symm.trans hloc) with ⟨hstate, hon, -⟩
      rw [heq]
      exact .same rfl rfl fun _ => ⟨hstate, by rw [hon]; simp⟩
  · rw [setCurrent_self hself]
    exact hatt.clean hs

end Cfs
