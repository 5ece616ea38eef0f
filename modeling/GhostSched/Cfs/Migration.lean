import GhostSched.Cfs.Dispatch

/-!
# Migration and load balancing

A task goes from a migration queue to the runqueue that `SelectTaskRq` chose, or
from the runqueue of a busy cpu to the list of an idle one and then to its
runqueue. If its cpu changes, the kernel has associated it with the channel of
the new one, and then there was no message left for it.
-/

namespace Cfs

open Kernel Function

variable {G C P : Type*}

/-! ## The choice of a runqueue -/

section Select

/-- If a cpu may be chosen, one that may be chosen is. -/
theorem selectLoop_eligible (eligible : C → Bool) {visited : List (C × UInt64)} {load : UInt64}
    {cpu : C} (h : (∃ v ∈ visited, eligible v.1 = true ∧ v.2 ≤ load) ∨ eligible cpu = true) :
    eligible (selectLoop eligible visited load cpu) = true := by
  induction visited generalizing load cpu with
  | nil =>
    rcases h with ⟨v, hv, -⟩ | h
    · cases hv
    · exact h
  | cons v rest ih =>
    rcases v with ⟨cpu', load'⟩
    unfold selectLoop
    split
    · rename_i hv
      split
      · exact hv
      · split
        · exact ih (.inr hv)
        · rename_i hlt
          apply ih
          rcases h with ⟨w, hw, helig, hle⟩ | h
          · rcases List.mem_cons.mp hw with rfl | hw
            · exact absurd hle hlt
            · exact .inl ⟨w, hw, helig, hle⟩
          · exact .inr h
    · rename_i hv
      apply ih
      rcases h with ⟨w, hw, helig, hle⟩ | h
      · rcases List.mem_cons.mp hw with rfl | hw
        · exact absurd helig hv
        · exact .inl ⟨w, hw, helig, hle⟩
      · exact .inr h

variable [DecidableEq C]

/-- The cpu that is chosen is in the affinity of the task, unless none is. -/
theorem selectTaskRq_affinity (cfg : Config C) (c : C) (t : CfsTask G C) (load : ℕ → UInt64) :
    t.cpuAffinity (selectTaskRq cfg c t load) = true ∨
      ∀ c' ∈ cfg.cpus, t.cpuAffinity c' = false := by
  by_cases h : ∃ c' ∈ cfg.cpus, t.cpuAffinity c' = true
  · rcases h with ⟨c', hc', haff⟩
    have hvisited : c' ∈ c :: t.cpu :: ((cfg.l3Siblings t.cpu).filter cfg.cpus.contains ++
      cfg.cpus) :=
      List.mem_cons_of_mem _ (List.mem_cons_of_mem _ (List.mem_append_right _ hc'))
    rw [← List.zipIdx_map_fst 0 (c :: _)] at hvisited
    rcases List.mem_map.mp hvisited with ⟨v, hv, rfl⟩
    have hmax : load v.2 ≤ (-1 : UInt64) := by
      rw [UInt64.le_iff_toNat_le]
      exact Nat.le_of_lt_succ (load v.2).toNat_lt
    have hmem : (v.1, load v.2) ∈ List.map (fun v : C × ℕ => (v.1, load v.2)) _ :=
      List.mem_map_of_mem hv
    have helig : (fun cpu => cfg.cpus.contains cpu && t.cpuAffinity cpu)
        (selectTaskRq cfg c t load) = true :=
      selectLoop_eligible (fun cpu => cfg.cpus.contains cpu && t.cpuAffinity cpu)
        (.inl ⟨_, hmem, by simp [hc', haff], hmax⟩)
    exact .inl (Bool.and_eq_true_iff.mp helig).2
  · refine .inr fun c' hc' => ?_
    by_contra haff
    exact h ⟨c', hc', Bool.not_eq_false _ ▸ haff⟩

end Select

section Migrate

variable [DecidableEq G] [DecidableEq C] [LinearOrder P]

/-- The order in which the task leaves one queue and joins the other does not matter. -/
theorem mqDequeueTask_enqueueTask (s : State G C P) (c dst : C) (p : P) :
    Mq.dequeueTask (Rq.enqueueTask s dst p) c p = Rq.enqueueTask (Mq.dequeueTask s c p) dst p := by
  by_cases hc : dst = c
  · subst hc
    simp [Mq.dequeueTask, Rq.enqueueTask, Rq.insertTaskIntoRq, Rq.store, Rq.setMinVruntime,
      Rq.leftmost, State.setOnRq, State.modify, State.touch, State.check, State.setTask,
      State.setCpu]
    exact fun hp => .inl (.inr hp)
  · simp [Mq.dequeueTask, Rq.enqueueTask, Rq.insertTaskIntoRq, Rq.store, Rq.setMinVruntime,
      Rq.leftmost, State.setOnRq, State.modify, State.touch, State.check, State.setTask,
      State.setCpu, hc, Ne.symm hc]
    exact ⟨update_comm hc .., fun hp => .inl (.inr hp)⟩

variable {cfg : Config C} {a : Action G C P} {s s' : State G C P} {L L' : Layout C P} {c dst : C}
  {p : P} {t : CfsTask G C}

omit [DecidableEq G] [LinearOrder P] in
theorem setAgent_of_ne {x : Agent G P} {c' : C} (hne : c' ≠ c) :
    (s.setAgent c x).agents c' = s.agents c' := update_of_ne hne ..

omit [DecidableEq G] [LinearOrder P] in
theorem setAgent_self {x : Agent G P} : (s.setAgent c x).agents c = x := update_self ..

omit [LinearOrder P] in
theorem Comm.setAgent {x : Agent G P} (h : Comm cfg s) (hawake : x.Awake → (s.agents c).Awake)
    (hpast : x.Past → (s.agents c).Past) : Comm cfg (s.setAgent c x) := by
  refine ⟨h.mail, fun c' hc => ?_, fun c' hc => ?_⟩
  · by_cases hcc : c' = c
    · subst hcc
      rw [setAgent_self] at hc
      exact h.free c' (hawake hc)
    · rw [setAgent_of_ne hcc] at hc
      exact h.free c' hc
  · by_cases hcc : c' = c
    · subst hcc
      rw [setAgent_self] at hc
      exact h.quiet c' (hpast hc)
    · rw [setAgent_of_ne hcc] at hc
      exact h.quiet c' hc

/-- The agent goes on in the same phase of its pass. -/
theorem Good.setAgent {x : Agent G P} (h : Good cfg a s s') (hmov : x.moving = (s'.agents c).moving)
    (hidle : x.Idle ↔ (s'.agents c).Idle) (hawake : x.Awake → (s'.agents c).Awake)
    (hpast : x.Past → (s'.agents c).Past) (htask : x.task = none) :
    Good cfg a s (s'.setAgent c x) := by
  rcases h.inv.shape with ⟨L, hshape⟩
  refine ⟨⟨⟨L, hshape.setAgent hmov hidle (by rw [htask]; exact nofun)⟩,
    h.inv.comm.setAgent hawake hpast, h.inv.crashed⟩,
    ⟨h.moves.vruntime, h.moves.change, h.moves.fresh, fun c' q hq => ?_⟩, h.clean⟩
  by_cases hcc : c' = c
  · subst hcc
    rw [setAgent_self] at hq
    rw [hq] at htask
    cases htask
  · rw [setAgent_of_ne hcc] at hq
    exact h.moves.opened c' q hq

/-- A task that leaves its migration queue for a runqueue, which may be the one of another cpu. -/
theorem Holds.migrate (dst : C) (h : Holds s L p t) (hloc : L.loc p = some (c, .mq))
    (hon : t.onRq = .migrating) :
    ∃ v, Does s (Mq.dequeueTask (Rq.enqueueTask s dst p) c p) (L.put p (some (dst, .rq))) p
      { t with vruntime := v, onRq := .queued } := by
  rw [mqDequeueTask_enqueueTask]
  have hdeq := h.mqDequeueTask hloc
  have henq := hdeq.next fun h => h.enqueueTask (c := dst) (update_self ..) (by
    rw [hon]
    rfl)
  rw [Layout.put_put] at henq
  exact ⟨_, henq⟩

/-- A task that is associated with a channel, so that nothing is pending for it. -/
theorem Comm.associate {s₁ : State G C P} (h : Comm cfg s) (hcore : Core s L) (hp : s.mem p = .live)
    (hs₁ : { s with channel := update s.channel (s.heap p).gtid dst } = s₁)
    (hframe : Frame s₁ s' p)
    (hno : ∀ x ∈ about (s.heap p).gtid (s.queue cfg.defaultCpu), ¬ IsNew x.2)
    (hb : (s.kernel (s.heap p).gtid).barrier = (s.heap p).seqnum)
    (hstate : (s.heap p).state = .runnable)
    (hstate' : (s'.heap p).state = .runnable) (hseq : (s'.heap p).seqnum = (s.heap p).seqnum)
    (hcpu : (s'.heap p).cpu = dst) : Comm cfg s' := by
  subst hs₁
  have hview : (s.heap p).view = .waiting := by
    simp [CfsTask.view, hstate]
  have hview' : (s'.heap p).view = (s.heap p).view := by
    simp [CfsTask.view, hstate, hstate']
  refine ⟨fun g => ?_, ?_, ?_⟩
  · by_cases hg : g = (s.heap p).gtid
    · subst hg
      rcases h.mail (s.heap p).gtid with ⟨old, new, hmail⟩
      rw [hcore.known_self hp] at hmail
      have hknown : known s' (s.heap p).gtid = some (s'.heap p) := by
        rw [known, hframe.alloc]
        exact congrArg (Option.map s'.heap) ((hcore.owned _ p).mpr ⟨hp, rfl⟩)
      have hassoc := hmail.associate hno (by rw [hview]; trivial) hb hview' hseq
      refine ⟨[], [], ?_⟩
      rw [hknown, hframe.kernel, hframe.channel, hframe.queue]
      rw [hcpu] at hassoc
      show Mail _ _ _ (update s.channel _ dst _) _ _ _
      rw [update_self]
      exact hassoc
    · refine h.mail_same (by rw [hframe.kernel]; exact .refl _) ?_ ?_ fun _ => by rw [hframe.queue]
      · rw [hframe.channel]
        exact update_of_ne hg ..
      · exact hcore.known_of_ne hframe.heap (by rw [hframe.alloc]) hg
  · rw [hframe.agents, hframe.kernel]
    exact h.free
  · rw [hframe.agents, hframe.queue]
    exact h.quiet

/-- `Migrate` of one task. -/
theorem Inv.migrate {g : G} {e : G × P} {todo : List G} {load : ℕ → UInt64} {ok : Bool}
    (h : Inv cfg s) (hagent : s.agents c = .migrate todo)
    (hfind : ((s.cpus c).mq.find? fun e => e.1 = g) = some e)
    (hno : ok = true → ∀ x ∈ about g (s.queue cfg.defaultCpu), ¬ IsNew x.2) :
    Good cfg (.migrate c g load ok) s
      ((migrateTask cfg s c e.2 load ok).setAgent c (.migrate (todo.erase g))) := by
  rcases h.shape with ⟨L, hshape⟩
  rcases e with ⟨g', p⟩
  have hg : g' = g := by
    have hfound := List.find?_some hfind
    exact of_decide_eq_true hfound
  have hmem : (g', p) ∈ (s.cpus c).mq := List.mem_of_find?_eq_some hfind
  have hloc : L.loc p = some (c, .mq) :=
    hshape.arranged.mem_mq.mp (List.mem_map_of_mem (f := Prod.snd) hmem)
  have hp : s.mem p = .live := hshape.live hloc nofun
  have hgtid : (s.heap p).gtid = g := (hshape.arranged.keys c _ hmem).symm.trans hg
  rcases home_eq_mq ((hshape.home p hp).symm.trans hloc) with ⟨hstate, hon, hcpu⟩
  -- the task goes to the runqueue of `dst`
  have hgood : ∀ (s₁ s' : State G C P) (t : CfsTask G C) (v : ℕ), SameData s s₁ →
      s₁.agents = s.agents → Does s₁ s' (L.put p (some (t.cpu, .rq))) p t →
      t = { s.heap p with cpu := t.cpu, vruntime := v, onRq := .queued } →
      t.cpuAffinity t.cpu = true ∨ (∀ c' ∈ cfg.cpus, t.cpuAffinity c' = false) →
      Comm cfg s' → Good cfg (.migrate c g load ok) s s' := by
    intro s₁ s' t v hdata hagents hdoes ht haff hcomm
    have hhome : t.home = some (t.cpu, .rq) := by
      apply home_queued
      · rw [ht]
        exact hstate
      · rw [ht]
    refine h.works hdata (hdata.shape hagents hshape) (fun _ _ hq => hagents ▸ hq) hp hcpu
      (by rw [hagents, hagent]; rfl) (by rw [hagents, hagent]; exact id) hdoes ?_ (.inl ?_)
      hshape.settled rfl ?_ (.inl fun c' hmem => ?_) ⟨.inl ?_, fun _ => haff.imp id .inl⟩ hcomm
    · rw [hhome]
      rfl
    · rw [ht]
      exact hstate
    · rw [hhome]
      simp
    · rw [hshape.arranged.mem_rq, hloc] at hmem
      simp at hmem
    · rw [ht]
  have haff := selectTaskRq_affinity cfg c (s.heap p) load
  have hmigrate : Good cfg (.migrate c g load ok) s (migrateTask cfg s c p load ok) ∧
      (migrateTask cfg s c p load ok).agents = s.agents := by
    unfold migrateTask
    rw [check_of_true s (decide_eq_true hon)]
    generalize selectTaskRq cfg c (s.heap p) load = dst at haff
    simp only [Cfs.migrate]
    split
    · -- it stays on this cpu
      rename_i hdst
      subst hdst
      rcases (hshape.holds hp).migrate (s.heap p).cpu hloc hon with ⟨v, hdoes⟩
      have hsame : SameData s s := ⟨rfl, rfl, rfl, rfl, rfl, rfl⟩
      refine ⟨hgood s _ { s.heap p with vruntime := v, onRq := .queued } v hsame rfl hdoes rfl haff
        ?_, hdoes.frame.agents⟩
      have htask := hdoes.holds.task
      exact h.comm.frame_same hshape.toCore hp hdoes.frame (by rw [htask]) (by rw [htask])
        (by rw [htask]; rfl)
    · split
      · -- the kernel refuses
        have hsame : SameData s s := ⟨rfl, rfl, rfl, rfl, rfl, rfl⟩
        exact ⟨⟨h, hsame.moves fun _ _ => id, fun hs _ => hsame.clean hs⟩, rfl⟩
      · rename_i s₁ hassoc
        rcases Option.ite_none_right_eq_some.mp hassoc with ⟨⟨hok, hb⟩, hs₁⟩
        have hs₁ := Option.some.inj hs₁
        have hdata : SameData s s₁ := by
          subst hs₁
          exact ⟨rfl, rfl, rfl, rfl, rfl, rfl⟩
        have hagents : s₁.agents = s.agents := by
          subst hs₁
          rfl
        have hshape₁ := hdata.shape hagents hshape
        have hp₁ : s₁.mem p = .live := hdata.mem ▸ hp
        have hcpu₁ : Does s₁ (s₁.modify p fun t => { t with cpu := dst }) L p
            { s₁.heap p with cpu := dst } := (hshape₁.holds hp₁).modify rfl (.inl rfl)
        have hrun : ((s₁.modify p fun t => { t with cpu := dst }).heap p).state = .runnable := by
          rw [hcpu₁.holds.task, hdata.heap]
          exact hstate
        rw [if_pos hrun]
        rcases hcpu₁.holds.migrate dst hloc (by rw [hdata.heap]; exact hon) with ⟨v, hmig⟩
        have hdoes := hcpu₁.next fun _ => hmig
        have htask := hdoes.holds.task
        refine ⟨hgood s₁ _ { s₁.heap p with cpu := dst, vruntime := v, onRq := .queued } v hdata
          hagents hdoes (by rw [hdata.heap])
          (by rw [hdata.heap]; exact haff) ?_, hdoes.frame.agents.trans hagents⟩
        refine h.comm.associate hshape.toCore hp hs₁ hdoes.frame ?_ hb hstate ?_ ?_ ?_
        · rw [hgtid]
          exact hno hok
        · rw [htask, hdata.heap]
          exact hstate
        · rw [htask, hdata.heap]
        · rw [htask]
  refine hmigrate.1.setAgent ?_ ?_ ?_ ?_ rfl
  · rw [hmigrate.2, hagent]
    rfl
  · rw [hmigrate.2, hagent]
    exact Iff.rfl
  · rw [hmigrate.2, hagent]
    exact id
  · rw [hmigrate.2, hagent]
    exact id

end Migrate

end Cfs
