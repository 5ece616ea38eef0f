import GhostSched.Cfs.Invariant

/-!
# Handling a message

An agent that drains its channel takes the first message. It is for the task that
the scheduler has, or it starts a new task; the mail of the thread says which, as
long as no task is started while the scheduler still has the one before.
-/

namespace Cfs

open Kernel Function

variable {G C P : Type*} [DecidableEq G] [DecidableEq C] [LinearOrder P]

variable {cfg : Config C} {s : State G C P} {L : Layout C P} {c : C} {g : G} {p : P} {i : ℕ}
  {msg : Msg C Unit} {rest : List (Message G C)} {input : Input C P}

omit [DecidableEq G] [LinearOrder P] in
theorem popped_mem {m : Message G C} {x : Message G C} {c' : C} (hqueue : s.queue c = m :: rest)
    (hx : x ∈ update s.queue c rest c') : x ∈ s.queue c' := by
  rw [update_apply] at hx
  split_ifs at hx with hc
  · subst hc
    rw [hqueue]
    exact List.mem_cons_of_mem _ hx
  · exact hx

omit [LinearOrder P] in
theorem about_popped {g' : G} {c' : C} (hqueue : s.queue c = .task g i msg :: rest) (hg : g' ≠ g) :
    about g' (update s.queue c rest c') = about g' (s.queue c') := by
  by_cases hc : c' = c
  · subst hc
    rw [update_self, hqueue, about_of_ne (Ne.symm hg)]
  · rw [update_of_ne hc]

omit [DecidableEq G] [DecidableEq C] in
/-- The agent that drains its channel holds no tasks. -/
theorem Shape.not_moving (h : Shape s L) (hagent : s.agents c = .drain) (hp : s.mem p = .live) :
    (s.heap p).home ≠ some (c, .moving) := by
  intro hhome
  have hmem : p ∈ L.moving c := h.arranged.mem_moving.mpr ((h.home p hp).trans hhome)
  rw [h.moving, hagent] at hmem
  cases hmem

section

variable (h : Inv cfg s)
include h

/-- What the handler needs to know about the task of its message. -/
theorem Inv.ready (hshape : Shape s L) (hqueue : s.queue c = .task g i msg :: rest)
    (halloc : s.alloc g = some p) (hnew : ¬ IsNew msg) :
    Ready { s with queue := update s.queue c rest } L c p (s.heap p) ∧
      ∃ v old new, (s.heap p).view.Next msg v ∧ (s.heap p).seqnum < i ∧
        Follows (s.kernel g) v i (old ++ new) ∧
        ∀ t : CfsTask G C, t.cpu = (s.heap p).cpu →
          Follows (s.kernel g) t.view t.seqnum (old ++ new) →
          Mail cfg (some t) (s.kernel g) (s.channel g)
            (update (fun c' => about g (s.queue c')) c (about g rest)) old new := by
  rcases (hshape.owned g p).mp halloc with ⟨hp, rfl⟩
  rcases h.comm.mail (s.heap p).gtid with ⟨old, new, hmail⟩
  rw [hshape.known_self hp] at hmail
  have habout : about (s.heap p).gtid (s.queue c) = (i, msg) :: about (s.heap p).gtid rest := by
    rw [hqueue, about_self]
  rcases hmail.first_old habout hnew with ⟨hcpu, old', rfl, hmail'⟩
  rcases hmail.follows with ⟨hlt, v, hnext, hrest⟩
  have hview : (s.heap p).view.Known := by
    by_contra hnot
    exact hnew (hnext.isNew hnot).1
  have hshape' : Shape { s with queue := update s.queue c rest } L :=
    SameData.shape (s := s) ⟨rfl, rfl, rfl, rfl, rfl, rfl⟩ rfl hshape
  refine ⟨⟨hshape'.holds hp, hshape.settled, hshape.home p hp, hshape.valid p hp, hcpu⟩,
    v, old', new, hnext, hlt hview, hrest, hmail'⟩

/-- The mail of the threads after a message has been handled. -/
theorem Inv.dispatch_comm {s' : State G C P} (hqueue : s.queue c = .task g i msg :: rest)
    (hkernel : s'.kernel = s.kernel) (hchannel : s'.channel = s.channel)
    (hqueue' : s'.queue = update s.queue c rest) (hagents : s'.agents = s.agents)
    (hothers : ∀ g', g' ≠ g → known s' g' = known s g')
    (hmail : ∃ old new, Mail cfg (known s' g) (s.kernel g) (s.channel g)
      (update (fun c' => about g (s.queue c')) c (about g rest)) old new) :
    Comm cfg s' := by
  refine ⟨fun g' => ?_, ?_, ?_⟩
  · by_cases hg : g' = g
    · subst hg
      rw [hkernel, hchannel, hqueue', about_update]
      exact hmail
    · refine h.comm.mail_same (by rw [hkernel]; exact .refl _) (by rw [hchannel]) (hothers g' hg)
        fun c' => ?_
      rw [hqueue']
      exact about_popped hqueue hg
  · rw [hagents, hkernel]
    exact h.comm.free
  · rw [hagents, hqueue']
    intro c' hc g' j msg' hmem
    exact h.comm.quiet c' hc g' j msg' (popped_mem hqueue hmem)

/-- The message is handled and the task goes on. -/
theorem Inv.dispatch_lands {s' : State G C P} {t : CfsTask G C} (hshape : Shape s L)
    (hagent : s.agents c = .drain) (hqueue : s.queue c = .task g i msg :: rest)
    (halloc : s.alloc g = some p) (hcpu : (s.heap p).cpu = c)
    (hlands : Lands { s with queue := update s.queue c rest } s' L p t)
    (hkept : Kept cfg input (s.heap p) t)
    (hmail : ∃ old new, Mail cfg (some t) (s.kernel g) (s.channel g)
      (update (fun c' => about g (s.queue c')) c (about g rest)) old new) :
    Good cfg (.dispatch c input) s s' := by
  rcases (hshape.owned g p).mp halloc with ⟨hp, rfl⟩
  rcases hlands with ⟨L', hdoes, hloc, hset, hmov⟩
  have hframe := hdoes.frame
  have htask := hdoes.holds.task
  have hdata : SameData s { s with queue := update s.queue c rest } :=
    ⟨rfl, rfl, rfl, rfl, rfl, rfl⟩
  refine h.works hdata (hdata.shape rfl hshape) (fun _ _ => id) hp hcpu (hagent ▸ rfl)
    (hagent ▸ id) hdoes hloc hkept.valid hset hmov ?_ (.inr hkept.vruntime)
    ⟨hkept.affinity.imp id fun haff => ⟨c, input, rfl, haff⟩, fun hq => ?_⟩ ?_
  · exact fun c' hhome => (home_cpu hhome).trans (hkept.cpu.trans hcpu)
  · rcases hkept.queued hq with haff | ⟨hq, haff⟩
    · exact .inl haff
    · exact .inr (.inr ⟨hkept.cpu, haff, .inl hq⟩)
  · refine h.dispatch_comm hqueue hframe.kernel hframe.channel hframe.queue hframe.agents
      (fun g' hg => hshape.known_of_ne hframe.heap (by rw [hframe.alloc]) hg) ?_
    have hknown : known s' (s.heap p).gtid = some t := by
      rw [known, hframe.alloc, ← htask]
      exact congrArg (Option.map s'.heap) halloc
    rw [hknown]
    exact hmail

/-- The message is handled and the task is freed. -/
theorem Inv.dispatch_freed {s₁ : State G C P} {t : CfsTask G C} (hshape : Shape s L)
    (hagent : s.agents c = .drain) (hqueue : s.queue c = .task g i msg :: rest)
    (halloc : s.alloc g = some p) (hcpu : (s.heap p).cpu = c)
    (hdoes : Does { s with queue := update s.queue c rest } s₁ (L.put p none) p t)
    (hv : t.vruntime = (s.heap p).vruntime)
    (hmail : ∃ old new, Mail cfg (none : Option (CfsTask G C)) (s.kernel g) (s.channel g)
      (update (fun c' => about g (s.queue c')) c (about g rest)) old new) :
    Good cfg (.dispatch c input) s (Rq.updateMinVruntime (freeTask s₁ p) c) := by
  rcases (hshape.owned g p).mp halloc with ⟨hp, rfl⟩
  have hframe := hdoes.frame
  have hdata : SameData s { s with queue := update s.queue c rest } :=
    ⟨rfl, rfl, rfl, rfl, rfl, rfl⟩
  have hnone : (s.agents c).task = none := by
    rw [hagent]
    rfl
  have hfree : Core (freeTask s₁ p) (L.put p none) :=
    (hdata.shape rfl hshape).toCore.free hp hdoes rfl
  have hcore : Core (Rq.updateMinVruntime (freeTask s₁ p) c) (L.put p none) :=
    hfree.same hfree.arranged.updateMinVruntime rfl rfl rfl
  have hgone : (L.put p none).loc p = none := update_self ..
  have hcurrent : ∀ c' q, L.current c' = some q → q ≠ p := by
    rintro c' q hq rfl
    have hloc : (L.put q none).loc q = some (c', .current) := hcore.arranged.current_iff.mp hq
    rw [hgone] at hloc
    cases hloc
  have hmem : ∀ q, q ≠ p → (freeTask s₁ p).mem q = s.mem q := by
    intro q hq
    show update s₁.mem p .freed q = _
    rw [update_of_ne hq, hframe.mem]
  have hagents : (Rq.updateMinVruntime (freeTask s₁ p) c).agents = s.agents := hframe.agents
  refine ⟨⟨⟨L.put p none, hcore, hshape.settled, ?_, fun c' q hq hdead => ?_, fun c' q hi hq => ?_,
    fun c' q hq => ?_⟩, ?_, hframe.crashed.trans h.crashed⟩, ?_, fun hs _ => ?_⟩
  · rw [hagents]
    exact hshape.moving
  · rw [hagents]
    exact hshape.stale c' q hq (hmem q (hcurrent c' q hq) ▸ hdead)
  · rw [hagents] at hi
    show (freeTask s₁ p).mem q ≠ .live
    rw [hmem q (hcurrent c' q hq)]
    exact hshape.idle c' q hi hq
  · rw [hagents] at hq
    have hqp : q ≠ p := fun heq => hshape.task_ne hp hcpu hnone c' (heq ▸ hq)
    show _ ∧ (s₁.heap q).state = .running
    rw [hframe.heap q hqp]
    exact hshape.task c' q hq
  · have hself : (freeTask s₁ p).alloc (s.heap p).gtid = none := by
      show update s₁.alloc (s₁.heap p).gtid none (s.heap p).gtid = none
      rw [hframe.gtid, update_self]
    refine h.dispatch_comm hqueue hframe.kernel hframe.channel hframe.queue hagents
      (fun g' hg => hshape.known_of_ne hframe.heap ?_ hg) ?_
    · show update s₁.alloc (s₁.heap p).gtid none g' = _
      rw [hframe.gtid, update_of_ne hg, hframe.alloc]
    · have hknown : known (Rq.updateMinVruntime (freeTask s₁ p) c) (s.heap p).gtid = none :=
        congrArg (Option.map s₁.heap) hself
      rw [hknown]
      exact hmail
  · refine ⟨fun c' q hq => ?_, fun q hq hlive => ?_, fun q hq hnot => ?_, fun c' q hq => ?_⟩
    · show (s₁.heap q).vruntime = _
      by_cases hqp : q = p
      · rw [hqp, hdoes.holds.task, hv]
      · rw [hframe.heap q hqp]
    · have hqp : q ≠ p := by
        rintro rfl
        have hfreed : (freeTask s₁ q).mem q = .freed := update_self ..
        rw [show (Rq.updateMinVruntime (freeTask s₁ q) c).mem = (freeTask s₁ q).mem from rfl,
          hfreed] at hq
        cases hq
      show Change _ _ _ (s₁.heap q)
      rw [hframe.heap q hqp]
      exact .refl _
    · have hqp : q ≠ p := fun heq => hnot (heq ▸ hp)
      exact absurd ((hmem q hqp).symm.trans hq) hnot
    · rw [hagents] at hq
      have hqp : q ≠ p := fun heq => hshape.task_ne hp hcpu hnone c' (by rw [hq, heq]; rfl)
      exact .inl ⟨hq, hframe.heap q hqp⟩
  · -- the task is off the queues, so the others are still live
    have hsound := hdata.clean hs
    have hsound₁ : Sound s₁ := hframe.sound hsound.1 hp
    have hlive : Sound (freeTask s₁ p) := by
      refine fun c' => ⟨fun q hq => ?_, fun q hq => ?_⟩
      · have hqp : q ≠ p := by
          rintro rfl
          have hloc : (L.put q none).loc q = some (c', .rq) := hfree.arranged.mem_rq.mp hq
          rw [hgone] at hloc
          cases hloc
        rw [hmem q hqp, ← hframe.mem]
        exact (hsound₁ c').1 q hq
      · have hq : L.current c' = some q := by
          rw [← hshape.settled]
          exact (hfree.arranged.actual c').symm.trans hq
        rw [hmem q (hcurrent c' q hq)]
        have hcur : (s.cpus c').current = some q := by
          rw [hshape.arranged.actual, hshape.settled, hq]
        exact (hs c').2 q hcur
    have htouch : (freeTask s₁ p).usedFreed = s₁.usedFreed := by
      apply touch_of_live
      intro q hq
      rw [List.mem_singleton.mp hq, hframe.mem]
      exact hp
    have hmin := hlive.updateMinVruntime (c := c)
    exact ⟨hmin.1, hmin.2.trans (htouch.trans ((hframe.clean hsound.1 hp).trans hsound.2))⟩

/-- A message about a task that the scheduler has. -/
theorem Inv.dispatch_known (hagent : s.agents c = .drain)
    (hqueue : s.queue c = .task g i msg :: rest) (halloc : s.alloc g = some p)
    (hnew : ¬ IsNew msg) (hnice : niceOk input.nice = true) :
    Good cfg (.dispatch c input) s
      (handleMessage cfg { s with queue := update s.queue c rest } c p input i msg) := by
  rcases h.shape with ⟨L, hshape⟩
  rcases h.ready hshape hqueue halloc hnew with ⟨hready, v, old, new, hnext, hlt, hrest, hmail⟩
  have hp : s.mem p = .live := ((hshape.owned g p).mp halloc).1
  have hstill := hshape.not_moving hagent hp
  rcases handleMessage_spec hready hstill hnice hlt hnew hnext with
    ⟨t, hlands, hkept, hview, hle, hseq⟩ | ⟨rfl, s₁, t₁, hdoes, hv, hs'⟩
  · refine h.dispatch_lands hshape hagent hqueue halloc hready.cpu hlands hkept
      ⟨old, new, hmail t hkept.cpu ?_⟩
    rw [hview]
    exact hrest.seqnum hle hseq
  · rw [hs']
    refine h.dispatch_freed hshape hagent hqueue halloc hready.cpu hdoes hv ⟨[], new, ?_⟩
    -- the mail of a task that is done
    have hdone := hmail { s.heap p with state := .done } rfl (hrest.leave id id hlt.le)
    exact hdone.free id

/-- A `CPU_TICK`. -/
theorem Inv.dispatch_tick (hagent : s.agents c = .drain) (hqueue : s.queue c = .cpuTick :: rest) :
    Good cfg (.dispatch c input) s
      (cpuTick cfg { s with queue := update s.queue c rest } c input) := by
  rcases h.shape with ⟨L, hshape⟩
  have hdata : SameData s { s with queue := update s.queue c rest } :=
    ⟨rfl, rfl, rfl, rfl, rfl, rfl⟩
  have hcomm : ∀ s' : State G C P, s'.kernel = s.kernel → s'.channel = s.channel →
      s'.queue = update s.queue c rest → s'.agents = s.agents →
      (∀ g, known s' g = known s g) → Comm cfg s' := by
    intro s' hkernel hchannel hqueue' hagents hknown
    refine ⟨fun g => ?_, ?_, ?_⟩
    · refine h.comm.mail_same (by rw [hkernel]; exact .refl _) (by rw [hchannel]) (hknown g)
        fun c' => ?_
      rw [hqueue']
      by_cases hc : c' = c
      · subst hc
        rw [update_self, hqueue, about_tick]
      · rw [update_of_ne hc]
    · rw [hagents, hkernel]
      exact h.comm.free
    · rw [hagents, hqueue']
      intro c' hc g j msg hmem
      exact h.comm.quiet c' hc g j msg (popped_mem hqueue hmem)
  unfold Cfs.cpuTick
  split
  · exact ⟨⟨⟨L, hdata.shape rfl hshape⟩, hcomm _ rfl rfl rfl rfl hdata.known, h.crashed⟩,
      hdata.moves fun _ _ => id, fun hs _ => hdata.clean hs⟩
  · -- the current task is read, and it may be time to preempt it
    rename_i p hcurrent
    have hcur : L.current c = some p := by
      rw [← hshape.settled, ← hshape.arranged.actual]
      exact hcurrent
    have hp := hshape.live_of_agent hcur hagent id
    have hshape' := hdata.shape rfl hshape
    have hloc : L.loc p = some (c, .current) := hshape.arranged.current_iff.mp hcur
    have hcpu : (s.heap p).cpu = c := hshape.cpu_of_loc hp hloc
    have htouch : Does { s with queue := update s.queue c rest }
        (State.touch { s with queue := update s.queue c rest } [p]) L p (s.heap p) :=
      (hshape'.holds hp).touch_self
    have hgood : ∀ s' : State G C P, Does { s with queue := update s.queue c rest } s' L p
        (s.heap p) → Good cfg (.dispatch c input) s s' := by
      intro s' hdoes
      have hframe := hdoes.frame
      have hheap : s'.heap = s.heap := by
        funext q
        by_cases hqp : q = p
        · rw [hqp, hdoes.holds.task]
        · exact hframe.heap q hqp
      refine h.works hdata hshape' (fun _ _ => id) hp hcpu (hagent ▸ rfl) (hagent ▸ id) hdoes ?_
        (hshape.valid p hp) hshape.settled rfl (fun c' hhome => (home_cpu hhome).trans hcpu)
        (.inr rfl) (.refl _) ?_
      · exact (update_eq_self_iff.mpr (hshape.home p hp).symm).symm
      · refine hcomm s' hframe.kernel hframe.channel hframe.queue hframe.agents fun g => ?_
        rw [known, hframe.alloc, hheap]
        rfl
    simp only []
    split
    · exact hgood _ (htouch.next fun h => h.setCpu_same rfl rfl rfl rfl)
    · exact hgood _ htouch

end

omit [DecidableEq C] in
/-- The new task is nowhere yet. -/
theorem Shape.alloc (h : Shape s L) (hp : s.mem p = .unused) (hg : s.alloc g = none) :
    Shape (allocTask s g c p) L ∧ L.loc p = none := by
  rcases h.toCore.alloc (c := c) hp hg with ⟨hcore, hloc⟩
  have hcurrent : ∀ c' q, L.current c' = some q → q ≠ p := by
    rintro c' q hq rfl
    rw [h.arranged.current_iff, hloc] at hq
    cases hq
  have hmem : ∀ q, q ≠ p → (allocTask s g c p).mem q = s.mem q :=
    fun q hq => update_of_ne hq ..
  refine ⟨⟨hcore, h.settled, h.moving, fun c' q hq hdead => ?_, fun c' q hi hq => ?_,
    fun c' q hq => ?_⟩, hloc⟩
  · rw [hmem q (hcurrent c' q hq)] at hdead
    exact h.stale c' q hq hdead
  · rw [hmem q (hcurrent c' q hq)]
    exact h.idle c' q hi hq
  · rcases h.task c' q hq with ⟨hcur, hstate⟩
    have hheap : (allocTask s g c p).heap q = s.heap q :=
      update_of_ne (hcurrent c' q hcur) ..
    rw [hheap]
    exact ⟨hcur, hstate⟩

/-- A thread gets a task. -/
theorem Inv.dispatch_new {runnable : Bool} (h : Inv cfg s)
    (hqueue : s.queue c = .task g i (.new () runnable) :: rest) (halloc : s.alloc g = none)
    (hunused : s.mem input.memory = .unused) (hnice : niceOk input.nice = true) :
    Good cfg (.dispatch c input) s
      (taskNew cfg (allocTask { s with queue := update s.queue c rest } g c input.memory) c
        input.memory input i runnable) := by
  rcases h.shape with ⟨L, hshape⟩
  have hdata : SameData s { s with queue := update s.queue c rest } :=
    ⟨rfl, rfl, rfl, rfl, rfl, rfl⟩
  rcases (hdata.shape rfl hshape).alloc (c := c) hunused halloc with ⟨hshape', hloc⟩
  -- the state in which the task has been allocated
  generalize hs₀ : allocTask { s with queue := update s.queue c rest } g c input.memory = s₀
    at hshape' ⊢
  have hheap : ∀ q, q ≠ input.memory → s₀.heap q = s.heap q := by
    subst hs₀
    exact fun q hq => update_of_ne hq ..
  have hmem : ∀ q, q ≠ input.memory → s₀.mem q = s.mem q := by
    subst hs₀
    exact fun q hq => update_of_ne hq ..
  have halloc₀ : ∀ g', g' ≠ g → s₀.alloc g' = s.alloc g' := by
    subst hs₀
    exact fun g' hg => update_of_ne hg ..
  have hself : s₀.alloc g = some input.memory := by
    subst hs₀
    exact update_self ..
  have htask₀ : s₀.heap input.memory = ⟨g, 0, .blocked, .dequeued, c, fun _ => false, 0, 0, 0⟩ := by
    subst hs₀
    exact update_self ..
  have hagents₀ : s₀.agents = s.agents := by
    subst hs₀
    rfl
  have hsame : s₀.kernel = s.kernel ∧ s₀.channel = s.channel ∧ s₀.cpus = s.cpus ∧
      s₀.queue = update s.queue c rest ∧ s₀.crashed = s.crashed ∧
      s₀.usedFreed = s.usedFreed := by
    subst hs₀
    exact ⟨rfl, rfl, rfl, rfl, rfl, rfl⟩
  rcases hsame with ⟨hkernel₀, hchannel₀, hcpus₀, hqueue₀, hcrashed₀, hfreed₀⟩
  have hp : s₀.mem input.memory = .live := ((hshape'.owned g _).mp hself).1
  have hunplaced : ∀ {q l}, L.loc q = some l → q ≠ input.memory := by
    rintro q l hl rfl
    rw [hloc] at hl
    cases hl
  -- `TaskNew`
  have hready : Ready s₀ L c input.memory ⟨g, 0, .blocked, .dequeued, c, fun _ => false, 0, 0, 0⟩ :=
    ⟨htask₀ ▸ hshape'.holds hp, hshape.settled, hloc, .inr rfl, rfl⟩
  have hnew : ∃ t', Lands s₀ (taskNew cfg s₀ c input.memory input i runnable)
      L input.memory t' ∧ _ :=
    hready.taskNew rfl hnice
  rcases hnew with ⟨t, ⟨L', hdoes, hloc', hset, hmov⟩, hcpu, hseq, haff, hvalid, hqueued,
    hview, hhome⟩
  have hframe := hdoes.frame
  have htask := hdoes.holds.task
  generalize taskNew cfg s₀ c input.memory input i runnable = s' at hdoes hframe htask ⊢
  refine ⟨⟨⟨L', ?_⟩, ?_, hframe.crashed.trans (hcrashed₀.trans h.crashed)⟩, ?_, fun hs _ => ?_⟩
  · refine hshape'.does hp hdoes hloc' hvalid hset hmov (fun c' htask => ?_)
      fun c' hcur => absurd hcur (hhome c')
    exact hunplaced (hshape'.arranged.current_iff.mp (hshape'.task c' _ htask).1) rfl
  · refine h.dispatch_comm hqueue (hframe.kernel.trans hkernel₀) (hframe.channel.trans hchannel₀)
      (hframe.queue.trans hqueue₀) (hframe.agents.trans hagents₀) (fun g' hg => ?_) ?_
    · refine (hshape'.known_of_ne hframe.heap (by rw [hframe.alloc]) ?_).trans ?_
      · rw [htask₀]
        exact hg
      · rw [known, known, halloc₀ g' hg]
        cases hq : s.alloc g' with
        | none => rfl
        | some q =>
          have hlive := ((hshape.owned g' q).mp hq).1
          have hqp : q ≠ input.memory := by
            rintro rfl
            rw [hunused] at hlive
            cases hlive
          exact congrArg some (hheap q hqp)
    · have hknown : known s' g = some t := by
        rw [known, hframe.alloc, hself, ← htask]
        rfl
      rcases h.comm.mail g with ⟨old, new, hmail⟩
      have hnone : known s g = none := by
        rw [known, halloc]
        rfl
      rw [hnone] at hmail
      have habout : about g (s.queue c) = (i, .new () runnable) :: about g rest := by
        rw [hqueue, about_self]
      rcases hmail.first_new habout with ⟨-, rfl, hmail'⟩
      rw [hmail.unknown rfl] at hmail
      rcases hmail.follows with ⟨-, v, hnext, hrest⟩
      rw [hknown]
      refine hmail' t hcpu ?_
      rw [hview, hseq]
      cases hnext with
      | new | newRunnable => exact hrest
  · refine ⟨fun c' q hq => ?_, fun q _ hlive => ?_, fun q _ hnot => ?_, fun c' q hq => ?_⟩
    · have hqp := hunplaced (hshape.arranged.mem_rq.mp hq)
      rw [hframe.heap q hqp, hheap q hqp]
    · have hqp : q ≠ input.memory := by
        rintro rfl
        rw [hunused] at hlive
        cases hlive
      rw [hframe.heap q hqp, hheap q hqp]
      exact .refl _
    · have hqp : q = input.memory := by
        by_contra hqp
        rename_i hlive
        rw [hframe.mem, hmem q hqp] at hlive
        exact hnot hlive
      rw [hqp, htask]
      exact ⟨hqueued, c, input, rfl, haff⟩
    · rw [hframe.agents, hagents₀] at hq
      have hcur := (hshape.task c' q (by rw [hq]; rfl)).1
      have hqp := hunplaced (hshape.arranged.current_iff.mp hcur)
      exact .inl ⟨hq, (hframe.heap q hqp).trans (hheap q hqp)⟩
  · have hsound : Sound s₀ := by
      have hlive : ∀ q, s.mem q = .live → s₀.mem q = .live := by
        intro q hq
        by_cases hqp : q = input.memory
        · rw [hqp]
          exact hp
        · rw [hmem q hqp]
          exact hq
      intro c'
      rw [hcpus₀]
      exact ⟨fun q hq => hlive q ((hs c').1 q hq), fun q hq => hlive q ((hs c').2 q hq)⟩
    exact ⟨hframe.sound hsound hp, (hframe.clean hsound hp).trans hfreed₀⟩

theorem Inv.dispatch {s' : State G C P} (h : Inv cfg s)
    (hfirst : ∀ g i msg rest, s.queue c = .task g i msg :: rest → IsNew msg → s.alloc g = none)
    (hstep : dispatch cfg s c input = some s') : Good cfg (.dispatch c input) s s' := by
  unfold Cfs.dispatch at hstep
  split at hstep
  · rename_i m rest hagent hqueue
    rcases Option.ite_none_right_eq_some.mp hstep with ⟨⟨hunused, hnice⟩, hs⟩
    cases hs
    cases m with
    | cpuTick => exact h.dispatch_tick hagent hqueue
    | task g i msg =>
      cases halloc : s.alloc g with
      | some p =>
        have hnew : ¬ IsNew msg := by
          intro hnew
          rw [hfirst g i msg rest hqueue hnew] at halloc
          cases halloc
        simp only [dispatchMessage, halloc]
        exact h.dispatch_known hagent hqueue halloc hnew hnice
      | none =>
        -- only a new task can be told about
        rcases h.comm.mail g with ⟨old, new, hmail⟩
        have hnone : known s g = none := by
          rw [known, halloc]
          rfl
        have habout : about g (s.queue c) = (i, msg) :: about g rest := by
          rw [hqueue, about_self]
        rw [hnone] at hmail
        rcases hmail.first_new habout with ⟨-, hnew, -⟩
        have hmsg : IsNew msg := hmail.new_head (i, msg) (by rw [hnew]; rfl)
        cases msg with
        | new info runnable =>
          simp only [dispatchMessage, halloc]
          exact h.dispatch_new hqueue halloc hunused hnice
        | _ => exact hmsg.elim
  · cases hstep

end Cfs
