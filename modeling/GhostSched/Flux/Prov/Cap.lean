import GhostSched.Flux.Prov.Lists
import GhostSched.Lib.Total

/-!
# The provisioning cap

Prov compares `nr_cpus` of prio with `max_nr_prio_cpus` under its lock, and
`flux_cpu_grant` increments the counter after the lock has been dropped.

* `prio_capped`: the cap holds as long as no cpu is picked for while a grant to prio is on
  its way to the counter.
* `prio_over_cap`: two cpus that are picked for at the same time break it.
-/

namespace Prov

open Transition Lib Function

variable {K R : Type*} {st st' st₀ : State K R} {c : K} {x : K ⊕ R} {cpu : Cpu} {cfg : Config}

/-- Prio has been granted the cpu, and has not lost it. -/
def Cpu.GrantedToPrio (cpu : Cpu) : Prop := cpu.pc = .grant .prio ∨ cpu.pc = .child .prio

instance : DecidablePred Cpu.GrantedToPrio := fun _ => inferInstanceAs (Decidable (_ ∨ _))

/-- The grant is not in `nr_cpus` yet. -/
def Cpu.underWay (cpu : Cpu) : ℤ := if cpu.pc = .grant .prio then 1 else 0

/-- The grant is in `nr_cpus`. -/
def Cpu.counted (cpu : Cpu) : ℤ := if cpu.pc = .child .prio then 1 else 0

/-- Prov picks only while no grant to prio is on its way to the counter. -/
def Settled (st : State K R) : Action K R → Prop
  | .pick _ => ∀ c, (st.cpus c).pc ≠ .grant .prio
  | _ => True

structure Capped (cfg : Config) (st : State K R) : Prop where
  counted : IsTotal (fun c => (st.cpus c).counted) (st.nrCpus .prio)
  underWay : ∃ n, IsTotal (fun c => (st.cpus c).underWay) n ∧
    st.nrCpus .prio + n ≤ cfg.maxNrPrioCpus

theorem Cpu.counted_eq_zero (h : ¬ cpu.GrantedToPrio) : cpu.counted = 0 :=
  if_neg fun hpc => h (.inr hpc)

theorem Cpu.underWay_eq_zero (h : ¬ cpu.GrantedToPrio) : cpu.underWay = 0 :=
  if_neg fun hpc => h (.inl hpc)

theorem Cpu.underWay_nonneg (cpu : Cpu) : 0 ≤ cpu.underWay := by
  unfold Cpu.underWay
  split
  · exact zero_le_one
  · exact le_rfl

section Rules

/-- Only the cpus and the counter of prio matter. -/
theorem Capped.frame (hC : Capped cfg st) (hcpus : st'.cpus = st.cpus)
    (hnr : st'.nrCpus .prio = st.nrCpus .prio) : Capped cfg st' := by
  constructor
  · rw [hcpus, hnr]
    exact hC.counted
  · rw [hcpus, hnr]
    exact hC.underWay

variable [DecidableEq K]

/-- A total over the cpus changes by what the moved cpu contributes. -/
theorem Moves.total (hm : Moves st c cpu st') {f : Cpu → ℤ} {n : ℤ}
    (h : IsTotal (fun c => f (st.cpus c)) n) :
    IsTotal (fun c => f (st'.cpus c)) (n + (f cpu - f (st.cpus c))) := by
  rw [← hm.self]
  apply h.update
  intro c' hc
  rw [hm.other hc]

/-- Prio is granted no further cpu. -/
theorem Capped.move (hC : Capped cfg st) (hm : Moves st c cpu st')
    (hnr : st'.nrCpus .prio - cpu.counted = st.nrCpus .prio - (st.cpus c).counted)
    (hle : cpu.counted + cpu.underWay ≤ (st.cpus c).counted + (st.cpus c).underWay) :
    Capped cfg st' := by
  rcases hC.underWay with ⟨n, hn, hcap⟩
  constructor
  · have htotal := hm.total hC.counted
    rwa [show st.nrCpus .prio + (cpu.counted - (st.cpus c).counted) = st'.nrCpus .prio by omega]
      at htotal
  · exact ⟨_, hm.total hn, by omega⟩

/-- A cpu that prio does not have is not given to prio. -/
theorem Capped.aside (hC : Capped cfg st) (hm : Moves st c cpu st')
    (hnr : st'.nrCpus .prio = st.nrCpus .prio) (hold : ¬ (st.cpus c).GrantedToPrio)
    (hnew : ¬ cpu.GrantedToPrio) : Capped cfg st' := by
  apply hC.move hm
  · rw [hnr, Cpu.counted_eq_zero hold, Cpu.counted_eq_zero hnew]
  · rw [Cpu.counted_eq_zero hold, Cpu.counted_eq_zero hnew, Cpu.underWay_eq_zero hold,
      Cpu.underWay_eq_zero hnew]

/-- The cpu stays where it is. -/
theorem Capped.same_pc (hC : Capped cfg st) (hm : Moves st c cpu st')
    (hnr : st'.nrCpus .prio = st.nrCpus .prio) (hpc : cpu.pc = (st.cpus c).pc) :
    Capped cfg st' := by
  apply hC.move hm
  · unfold Cpu.counted
    rw [hnr, hpc]
  · unfold Cpu.counted Cpu.underWay
    rw [hpc]

/-- Prio is granted a cpu, and no other grant is on its way. -/
theorem Capped.give_prio (hC : Capped cfg st) (hm : Moves st c cpu st')
    (hnr : st'.nrCpus .prio = st.nrCpus .prio) (hold : ¬ (st.cpus c).GrantedToPrio)
    (hpc : cpu.pc = .grant .prio) (hneeded : prioNrNeeded cfg st ≠ 0)
    (hsettled : ∀ c, (st.cpus c).pc ≠ .grant .prio) : Capped cfg st' := by
  have hroom : st.nrCpus .prio < cfg.maxNrPrioCpus := by
    simp only [prioNrNeeded] at hneeded
    split at hneeded <;> omega
  have hnone : IsTotal (fun c => (st.cpus c).underWay) 0 :=
    isTotal_zero fun c => if_neg (hsettled c)
  have hone : cpu.underWay = 1 := if_pos hpc
  have hzero : cpu.counted = 0 := by
    unfold Cpu.counted
    rw [hpc]
    rfl
  constructor
  · have htotal := hm.total hC.counted
    rwa [hzero, Cpu.counted_eq_zero hold, sub_self, add_zero, ← hnr] at htotal
  · refine ⟨_, hm.total hnone, ?_⟩
    rw [hone, Cpu.underWay_eq_zero hold, hnr]
    omega

/-! ## Steps -/

theorem removeFromChildList_nrCpus {child : Child} :
    (st.removeFromChildList c child).nrCpus = st.nrCpus := by
  cases child with
  | prio => rfl
  | next | last =>
    simp only [State.removeFromChildList]
    split <;> rfl

/-- Prio has a cpu that is on its way to it or at it, and no other. -/
theorem Cpu.not_granted {pc : Pc} (hpc : cpu.pc = pc)
    (hne : pc ≠ .grant .prio ∧ pc ≠ .child .prio) : ¬ cpu.GrantedToPrio := by
  rintro (h | h)
  · exact hne.1 (hpc.symm.trans h)
  · exact hne.2 (hpc.symm.trans h)

/-- `__prov_cpu_returned` does not touch the counters. -/
theorem cpuReturned_moves (st : State K R) (c : K) (child : Child) (pc : Pc) :
    ∃ cpu, Moves st c cpu (cpuReturned st c child pc) ∧ cpu.pc = pc ∧
      (cpuReturned st c child pc).nrCpus = st.nrCpus := by
  simp only [cpuReturned]
  split
  · exact ⟨_, ⟨rfl⟩, rfl, rfl⟩
  · refine ⟨{ st.cpus c with owningChild := none, pc := pc }, ⟨?_⟩, rfl, ?_⟩
    · show update (st.removeFromChildList c child).cpus c _ = _
      rw [removeFromChildList_cpus]
    · exact removeFromChildList_nrCpus

/-- An earmark is a mark on the cpu, which stays where it is. -/
theorem earmark_moves (st : State K R) (c : K) (child : Child) :
    Moves st c { st.cpus c with preemptPending := true } (earmark st child c) ∧
      (earmark st child c).nrCpus = st.nrCpus := by
  refine ⟨⟨?_⟩, removeFromChildList_nrCpus⟩
  show update (st.removeFromChildList c _).cpus c _ = _
  rw [removeFromChildList_cpus]

/-- Prio gets the cpu only if it is below the cap. -/
theorem Capped.pickNextTask (hC : Capped cfg st) (hpc : (st.cpus c).pc = .here)
    (hsettled : ∀ c, (st.cpus c).pc ≠ .grant .prio) : Capped cfg (pickNextTask cfg st c) := by
  have hold : ¬ (st.cpus c).GrantedToPrio := Cpu.not_granted hpc (by simp)
  simp only [Prov.pickNextTask]
  split
  case isTrue hgive =>
    have hneeded : prioNrNeeded cfg st ≠ 0 := by
      simp only [giveToPrio, Bool.and_eq_true, bne_iff_ne] at hgive
      exact hgive.1
    exact hC.give_prio ⟨rfl⟩ rfl hold rfl hneeded hsettled
  case isFalse =>
    -- next, last or the parent
    split
    · split <;> exact hC.aside ⟨rfl⟩ rfl hold (Cpu.not_granted rfl (by simp))
    · split
      · split <;> exact hC.aside ⟨rfl⟩ rfl hold (Cpu.not_granted rfl (by simp))
      · exact hC.aside ⟨rfl⟩ rfl hold (Cpu.not_granted rfl (by simp))

omit [DecidableEq K] in
theorem addNrCpus_prio (child : Child) (n : ℤ) : (st.addNrCpus child n).nrCpus .prio =
    st.nrCpus .prio + if child = .prio then n else 0 := by
  cases child <;> simp [State.addNrCpus]

/-- A child loses the cpu. -/
theorem Capped.lose (hC : Capped cfg st) {child : Child} (hpc : (st.cpus c).pc = .child child)
    (hnew : cpu.pc ≠ .grant .prio ∧ cpu.pc ≠ .child .prio) :
    Capped cfg ((st.setCpu c cpu).addNrCpus child (-1)) := by
  have hcounted : (st.cpus c).counted = if child = .prio then 1 else 0 := by
    unfold Cpu.counted
    rw [hpc]
    simp
  have hnot : ¬ cpu.GrantedToPrio := fun h => h.elim hnew.1 hnew.2
  apply hC.move ⟨rfl⟩
  · rw [addNrCpus_prio, hcounted, Cpu.counted_eq_zero hnot]
    show st.nrCpus .prio + _ - 0 = _
    split <;> omega
  · have h₂ := (st.cpus c).underWay_nonneg
    rw [Cpu.counted_eq_zero hnot, Cpu.underWay_eq_zero hnot]
    omega

/-- The grant arrives at the counter. -/
theorem Capped.grant (hC : Capped cfg st) {child : Child} (hpc : (st.cpus c).pc = .grant child) :
    Capped cfg ((st.setCpu c { st.cpus c with pc := .child child }).addNrCpus child 1) := by
  apply hC.move ⟨rfl⟩
  · rw [addNrCpus_prio]
    unfold Cpu.counted
    rw [hpc]
    show st.nrCpus .prio + _ - _ = _
    simp
  · unfold Cpu.counted Cpu.underWay
    rw [hpc]
    simp

section Step

variable [DecidableEq R]

/-- A request only asks for preemptions. -/
theorem Capped.requestStep (hC : Capped cfg st) {canPoke : Bool}
    (h : requestStep cfg st x canPoke = some st') : Capped cfg st' := by
  unfold Prov.requestStep at h
  cases hx : st.request x with
  | idle => simp [hx] at h
  | start child =>
    simp only [hx] at h
    split at h
    · cases child <;> cases h <;> exact hC.frame rfl rfl
    · cases h
      exact hC.frame rfl rfl
  | loop child needed i =>
    simp only [hx] at h
    split at h
    · split at h
      case h_1 =>
        cases h
        exact hC.frame rfl rfl
      case h_2 v hv =>
        cases h
        have hm := earmark_moves st v child
        exact (hC.same_pc hm.1 (congrFun hm.2 _) rfl).frame rfl rfl
    · cases h
      exact hC.frame rfl rfl
  | preempt child v needed i =>
    simp only [hx] at h
    cases h
    have hm : Moves st v { st.cpus v with preempt := true }
      (st.setCpu v { st.cpus v with preempt := true }) := ⟨rfl⟩
    exact (hC.same_pc hm rfl rfl).frame rfl rfl

/-- No step takes prio above the cap if a pick waits for the grants on their way. -/
theorem Capped.step (hC : Capped cfg st) {a : Action K R} (hsettled : Settled st a)
    (h : step cfg st a = some st') : Capped cfg st' := by
  cases a with simp only [Prov.step] at h
  | allocate c =>
    split at h
    case h_1 hpc =>
      cases h
      exact hC.aside ⟨rfl⟩ rfl (Cpu.not_granted hpc (by simp)) (Cpu.not_granted rfl (by simp))
    case h_2 => cases h
  | pick c =>
    -- the only step that lets a grant set off
    split at h
    case h_1 hpc =>
      cases h
      exact hC.pickNextTask hpc hsettled
    case h_2 => cases h
  | grant c =>
    -- from on its way to counted
    split at h
    case h_1 child hpc =>
      cases h
      exact hC.grant hpc
    case h_2 => cases h
  | yield c =>
    -- prio may lose a cpu
    split at h
    case h_1 child hpc =>
      cases h
      exact hC.lose hpc (by simp)
    case h_2 => cases h
  | complete c =>
    -- prio may lose a cpu to a preemption by prov
    split at h
    case h_1 child hpc =>
      split at h <;> cases h
      exact hC.lose hpc (by simp)
    case h_2 hpc =>
      cases h
      exact hC.same_pc ⟨rfl⟩ rfl rfl
    case h_3 => cases h
  | take c =>
    -- prio may lose a cpu to somebody above prov
    split at h
    case h_1 child hpc =>
      cases h
      exact hC.lose hpc (by simp)
    case h_2 hpc =>
      cases h
      exact hC.aside ⟨rfl⟩ rfl (Cpu.not_granted hpc (by simp)) (Cpu.not_granted rfl (by simp))
    case h_3 => cases h
  | cpuReturned c =>
    -- the cpu is not prio's any more
    split at h
    case h_1 child hpc =>
      cases h
      rcases cpuReturned_moves st c child .here with ⟨cpu, hm, hcpu, hnr⟩
      exact hC.aside hm (congrFun hnr _) (Cpu.not_granted hpc (by simp))
        (Cpu.not_granted hcpu (by simp))
    case h_2 child hpc =>
      cases h
      rcases cpuReturned_moves st c child .requested with ⟨cpu, hm, hcpu, hnr⟩
      exact (hC.aside hm (congrFun hnr _) (Cpu.not_granted hpc (by simp))
        (Cpu.not_granted hcpu (by simp))).frame rfl rfl
    case h_3 => cases h
  | leave c =>
    split at h
    case h_1 hpc _ =>
      cases h
      exact hC.aside ⟨rfl⟩ rfl (Cpu.not_granted hpc (by simp)) (Cpu.not_granted rfl (by simp))
    case h_2 => cases h
  | tick c =>
    -- only `preempt_to`
    split at h
    case h_1 child hpc =>
      cases h
      split
      · exact hC.same_pc ⟨rfl⟩ rfl rfl
      · exact hC
    case h_2 => cases h
  | requestCpus r child nr =>
    split at h
    case h_1 =>
      cases h
      split <;> exact hC.frame rfl rfl
    case h_2 => cases h
  | request x canPoke => exact hC.requestStep h

end Step

end Rules

/-! ## Results -/

theorem Init.capped (h : Init st) : Capped cfg st := by
  have hnot : ∀ c, ¬ (st.cpus c).GrantedToPrio := fun c => Cpu.not_granted (h.pc c) (by simp)
  constructor
  · rw [h.nrCpus]
    exact isTotal_zero fun c => Cpu.counted_eq_zero (hnot c)
  · refine ⟨0, isTotal_zero fun c => Cpu.underWay_eq_zero (hnot c), ?_⟩
    rw [h.nrCpus]
    omega

variable [DecidableEq K] [DecidableEq R]

/-- In every run in which prov picks only while no grant to prio is between the lock and the
counter, prio never has more than `max_nr_prio_cpus` cpus at once. -/
theorem prio_capped (h₀ : Init st₀) (h : StepsWhen Settled (step cfg) st₀ st) :
    {c | (st.cpus c).GrantedToPrio}.Finite ∧
      {c | (st.cpus c).GrantedToPrio}.ncard ≤ cfg.maxNrPrioCpus := by
  have hC : Capped cfg st := h.invariant (fun _ _ _ hs hok h => hs.step hok h) h₀.capped
  rcases hC.underWay with ⟨n, hn, hcap⟩
  have hgranted : ∀ c, (if (st.cpus c).GrantedToPrio then (1 : ℤ) else 0) =
      (st.cpus c).counted + (st.cpus c).underWay := by
    intro c
    rcases st.cpus c with ⟨priority, pending, owner, preempt, pc⟩
    cases pc with
    | grant child | child child => cases child <;> rfl
    | _ => rfl
  have htotal := ((hC.counted.add hn).congr hgranted).ncard
  refine ⟨htotal.1, ?_⟩
  omega

/-! ### Two cpus -/

/-- Prio wants two cpus, and prov has two. -/
def wants : List (Action Bool Unit) :=
  [.requestCpus () .prio 2, .request (.inr ()) false, .allocate false, .allocate true]

/-- Prio may have one cpu. -/
def one : Config := ⟨1⟩

def wanting : State Bool Unit := (exec (step one) bare wants).getD bare

def picked : State Bool Unit := (step one wanting (.pick false)).getD bare

def capped : State Bool Unit := (exec (step one) picked [.grant false]).getD bare

/-- The second pick comes before the first grant has reached the counter. -/
def racing : State Bool Unit :=
  (exec (step one) bare (wants ++ [.pick false, .pick true, .grant false, .grant true])).getD bare

/-- Only a pick looks at the counter. -/
def noPick : Action Bool Unit → Bool
  | .pick _ => false
  | _ => true

theorem settled_of_noPick (s : State Bool Unit) (a : Action Bool Unit) (h : noPick a = true) :
    Settled s a := by
  cases a with
  | pick => cases h
  | _ => trivial

theorem prio_capped_one : (capped.cpus false).GrantedToPrio ∧
    {c | (capped.cpus c).GrantedToPrio}.ncard ≤ one.maxNrPrioCpus := by
  have hwants : StepsWhen Settled (step one) bare wanting :=
    .of_execWhen settled_of_noPick wants rfl
  have hgrant : StepsWhen Settled (step one) picked capped :=
    .of_execWhen settled_of_noPick [.grant false] rfl
  have hsettled : Settled wanting (.pick false) := by
    intro c
    match c with
    | false | true => nofun
  exact ⟨by decide, (prio_capped bare_init (hwants.trans (.head hsettled rfl hgrant))).2⟩

theorem prio_over_cap : Init bare ∧ Steps (step one) bare racing ∧
    (racing.cpus false).GrantedToPrio ∧ (racing.cpus true).GrantedToPrio ∧
    (one.maxNrPrioCpus : ℤ) < racing.nrCpus .prio := by
  have hrun : exec (step one) bare (wants ++ [.pick false, .pick true, .grant false, .grant true]) =
    some racing :=
    rfl
  exact ⟨bare_init, .of_exec hrun, by decide, by decide, by decide⟩

end Prov
