import GhostSched.Lib.Total
import GhostSched.Lib.Transition

/-!
# Cpus in a hierarchy of schedulers

`flux_pnt`, the handlers of `CPU_AVAILABLE` and `CPU_BUSY`, and `flux_preempt_cpu`
(`flux_api.bpf.c`), for any hierarchy. Each cpu runs one operation at a time; the
accesses of different cpus interleave freely.

A scheduler's callbacks do not touch the state modelled here, apart from
`pick_next_task`, which grants the cpu to a child, yields it, or runs a thread, and
from calls of `flux_preempt_cpu`, which may come at any time.

The result is `nr_cpus_exact`: between operations, `nr_cpus` of a scheduler is the
number of cpus that it or a descendant has, and a cpu that is not available belongs to
nobody. `nr_cpus_of_children` holds at every moment.
-/

namespace Tiers

open Transition Lib Function

/-! ## Model -/

/-- `get_parent_id`, `sched_id_to_tier` and `FLUX_MAX_NR_TIERS`. -/
structure Hierarchy (S : Type*) where
  /-- `FLUX_SCHED_NONE` -/
  none : S
  /-- `top_tier_sched_id` -/
  top : S
  parent : S → S
  tier : S → ℕ
  maxNrTiers : ℕ
  tier_none : tier none = 0
  tier_parent : ∀ s, s ≠ none → tier (parent s) + 1 = tier s
  tier_lt : ∀ s, tier s < maxNrTiers
  top_ne : top ≠ none
  parent_top : parent top = none

/-- `struct flux_cpu` -/
structure Cpu (S : Type*) where
  available : Bool
  preemptTo : ℕ
  currentSched : S

/-- Where a cpu is. -/
inductive Pc (S : Type*) where
  | idle
  /-- `flux_pnt` looks at `preempt_to` -/
  | pnt
  | exchange
  /-- `handle_cpu_available` has set `available` -/
  | available
  /-- `handle_cpu_busy` has cleared `available` -/
  | busy
  /-- the loop of `flux_preempt_up_to`, in `flux_pnt` or not -/
  | preempt (tier i : ℕ) (inPnt : Bool)
  /-- `nr_cpus` of `current_sched` has been decremented -/
  | preempted (tier i : ℕ) (inPnt : Bool)
  /-- `flux_pnt` looks for an availability edge -/
  | edge
  /-- the loop of `flux_pnt` -/
  | pick (i : ℕ)
  /-- `flux_cpu_grant` has incremented `nr_cpus` of the child -/
  | grant (child : S) (i : ℕ)
  /-- `flux_cpu_yield` has given the cpu to the parent of `s` -/
  | yielded (s : S) (i : ℕ)

/-- What `pick_next_task` does with the cpu. -/
inductive Pick (S : Type*) where
  | grant (child : S)
  | yield
  /-- a thread runs: `pnt_success` -/
  | run
  | nothing

structure State (S K : Type*) where
  nrCpus : S → ℤ
  cpus : K → Cpu S
  pc : K → Pc S

inductive Action (S K : Type*) where
  | pnt (c : K)
  | cpuAvailable (c : K)
  | cpuBusy (c : K)
  /-- the next access of the operation in progress; `choice` is for `pick_next_task` -/
  | cpu (c : K) (choice : Pick S)
  /-- `flux_preempt_cpu`, up to the compare-and-swap that succeeds -/
  | preemptCpu (s : S) (c : K)

section Model

variable {S K : Type*} [DecidableEq S] [DecidableEq K]

def State.setCpu (st : State S K) (c : K) (f : Cpu S → Cpu S) : State S K :=
  { st with cpus := update st.cpus c (f (st.cpus c)) }

def State.setPc (st : State S K) (c : K) (pc : Pc S) : State S K :=
  { st with pc := update st.pc c pc }

/-- `__sync_fetch_and_add(&s->f.nr_cpus, n)` -/
def State.addNrCpus (st : State S K) (s : S) (n : ℤ) : State S K :=
  { st with nrCpus := update st.nrCpus s (st.nrCpus s + n) }

/-- One iteration of the loop of `flux_pnt`. -/
def pickNextTask (H : Hierarchy S) (st : State S K) (c : K) (i : ℕ) : Pick S → Option (State S K)
  | .grant child =>
    -- a scheduler grants its cpu to one of its children
    if H.parent child = (st.cpus c).currentSched ∧ child ≠ H.none then
      some ((st.addNrCpus child 1).setPc c (.grant child (i + 1)))
    else none
  | .yield =>
    -- `get_parent` of the top scheduler is the entry of `FLUX_SCHED_NONE`
    let s := (st.cpus c).currentSched
    some ((st.setCpu c fun x => { x with currentSched := H.parent s }).setPc c (.yielded s (i + 1)))
  | .run => some (st.setPc c .idle)
  | .nothing => some (st.setPc c (.pick (i + 1)))

/-- The next access of the operation that a cpu is in. -/
def cpuStep (H : Hierarchy S) (st : State S K) (c : K) (choice : Pick S) : Option (State S K) :=
  let cpu := st.cpus c
  match st.pc c with
  | .idle => none
  | .pnt =>
    -- FLUX_TIER_NO_PREEMPT
    if cpu.preemptTo = H.maxNrTiers then some (st.setPc c .edge) else some (st.setPc c .exchange)
  | .exchange =>
    some ((st.setCpu c fun x => { x with preemptTo := H.maxNrTiers }).setPc c
      (.preempt cpu.preemptTo 0 true))
  | .available => some ((st.setCpu c fun x => { x with preemptTo := H.maxNrTiers }).setPc c .idle)
  | .busy =>
    some ((st.setCpu c fun x => { x with preemptTo := 0 }).setPc c (.preempt 0 0 false))
  | .preempt tier i inPnt =>
    if i < H.maxNrTiers ∧ tier < H.tier cpu.currentSched then
      some ((st.addNrCpus cpu.currentSched (-1)).setPc c (.preempted tier i inPnt))
    else some (st.setPc c (if inPnt then .edge else .idle))
  | .preempted tier i inPnt =>
    some ((st.setCpu c fun x => { x with currentSched := H.parent x.currentSched }).setPc c
      (.preempt tier (i + 1) inPnt))
  | .edge =>
    if cpu.currentSched = H.none then
      some ((st.addNrCpus H.top 1).setPc c (.grant H.top 0))
    else some (st.setPc c (.pick 0))
  | .pick i =>
    if i < 2 * H.maxNrTiers then
      -- the entry of `FLUX_SCHED_NONE` has no `pick_next_task`
      if cpu.currentSched = H.none then some (st.setPc c (.pick (i + 1)))
      else pickNextTask H st c i choice
    else some (st.setPc c .idle)
  | .grant child i =>
    some ((st.setCpu c fun x => { x with currentSched := child }).setPc c (.pick i))
  | .yielded s i => some ((st.addNrCpus s (-1)).setPc c (.pick i))

def step (H : Hierarchy S) (st : State S K) : Action S K → Option (State S K)
  | .pnt c =>
    match st.pc c with
    | .idle => if (st.cpus c).available then some (st.setPc c .pnt) else none
    | _ => none
  | .cpuAvailable c =>
    match st.pc c with
    | .idle => some ((st.setCpu c fun x => { x with available := true }).setPc c .available)
    | _ => none
  | .cpuBusy c =>
    match st.pc c with
    | .idle => some ((st.setCpu c fun x => { x with available := false }).setPc c .busy)
    | _ => none
  | .cpu c choice => cpuStep H st c choice
  | .preemptCpu s c =>
    if H.tier s < (st.cpus c).preemptTo then
      some (st.setCpu c fun x => { x with preemptTo := H.tier s })
    else none

end Model

/-! ## Descendants -/

variable {S K : Type*} {H : Hierarchy S} {st st' st₀ : State S K} {s x : S} {c : K}

/-- `x` is the scheduler `s` or a descendant of it. -/
inductive Hierarchy.Under (H : Hierarchy S) (s : S) : S → Prop where
  | self : H.Under s s
  | child {x : S} : x ≠ H.none → H.Under s (H.parent x) → H.Under s x

theorem Hierarchy.Under.tier_le (h : H.Under s x) : H.tier s ≤ H.tier x := by
  induction h with
  | self => exact le_rfl
  | @child x hne _ ih =>
    have hp := H.tier_parent x hne
    omega

theorem Hierarchy.not_under_parent (hne : x ≠ H.none) : ¬ H.Under x (H.parent x) := by
  intro h
  have hle := h.tier_le
  have hp := H.tier_parent x hne
  omega

theorem Hierarchy.under_iff (hne : x ≠ H.none) : H.Under s x ↔ s = x ∨ H.Under s (H.parent x) := by
  constructor
  · intro h
    cases h with
    | self => exact .inl rfl
    | child _ h => exact .inr h
  · intro h
    rcases h with h | h
    · rw [h]
      exact .self
    · exact .child hne h

theorem Hierarchy.not_under_none (hs : s ≠ H.none) : ¬ H.Under s H.none := by
  intro h
  cases h with
  | self => exact hs rfl
  | child hne _ => exact hne rfl

theorem Hierarchy.eq_none_of_tier (h : H.tier x = 0) : x = H.none := by
  by_contra hne
  have hp := H.tier_parent x hne
  omega

open Classical in
/-- What a cpu of the scheduler `x` contributes to `nr_cpus` of `s`. -/
noncomputable def Hierarchy.share (H : Hierarchy S) (s x : S) : ℤ := if H.Under s x then 1 else 0

theorem Hierarchy.share_self : H.share s s = 1 := if_pos .self

theorem Hierarchy.share_parent_self (hne : x ≠ H.none) : H.share x (H.parent x) = 0 :=
  if_neg (H.not_under_parent hne)

open Classical in
theorem Hierarchy.share_parent (hne : x ≠ H.none) (hs : s ≠ x) :
    H.share s (H.parent x) = H.share s x := by
  have hiff : H.Under s x ↔ H.Under s (H.parent x) := by
    rw [H.under_iff hne]
    exact or_iff_right hs
  exact (if_congr hiff rfl rfl).symm

/-! ## The invariant -/

/-- The scheduler that the counters take the cpu to be with. -/
def Pc.holder (H : Hierarchy S) (current : S) : Pc S → S
  | .preempted _ _ _ => H.parent current
  | .grant child _ => child
  | .yielded s _ => s
  | _ => current

def State.holder (H : Hierarchy S) (st : State S K) (c : K) : S :=
  (st.pc c).holder H (st.cpus c).currentSched

/-- What a cpu relies on. The loop of `flux_preempt_up_to` has enough iterations left. -/
def CpuOk (H : Hierarchy S) (cpu : Cpu S) : Pc S → Prop
  | .idle | .available => cpu.available = false → cpu.currentSched = H.none
  | .busy => True
  | .pnt | .exchange | .edge | .pick _ => cpu.available = true
  | .preempt tier i inPnt => i + H.tier cpu.currentSched < H.maxNrTiers ∧
    (cpu.available = true ∨ inPnt = false ∧ tier = 0)
  | .preempted tier i inPnt => cpu.currentSched ≠ H.none ∧
    i + H.tier cpu.currentSched < H.maxNrTiers ∧ (cpu.available = true ∨ inPnt = false ∧ tier = 0)
  | .grant x _ | .yielded x _ =>
    cpu.available = true ∧ x ≠ H.none ∧ H.parent x = cpu.currentSched

structure Inv (H : Hierarchy S) (st : State S K) : Prop where
  cpu : ∀ c, CpuOk H (st.cpus c) (st.pc c)
  count : ∀ s, s ≠ H.none → IsTotal (fun c => H.share s (st.holder H c)) (st.nrCpus s)

section Steps

variable [DecidableEq S] [DecidableEq K] {cpu : Cpu S} {pc : Pc S} {choice : Pick S} {i : ℕ}

/-- The cpu `c` takes a step. -/
structure Moves (st : State S K) (c : K) (cpu : Cpu S) (pc : Pc S) (st' : State S K) : Prop where
  cpus : st'.cpus = update st.cpus c cpu
  pc : st'.pc = update st.pc c pc

omit [DecidableEq S] in
theorem moves_setPc (hcpus : st'.cpus = st.cpus) (hpc : st'.pc = st.pc) :
    Moves st c (st.cpus c) pc (st'.setPc c pc) := by
  constructor
  · rw [update_eq_self]
    exact hcpus
  · rw [← hpc]
    rfl

omit [DecidableEq S] in
theorem moves_setCpu (f : Cpu S → Cpu S) :
    Moves st c (f (st.cpus c)) pc ((st.setCpu c f).setPc c pc) := ⟨rfl, rfl⟩

omit [DecidableEq S] in
theorem Inv.move (hI : Inv H st) (hm : Moves st c cpu pc st') (hok : CpuOk H cpu pc)
    (hcount : ∀ s, s ≠ H.none → st'.nrCpus s = st.nrCpus s +
      (H.share s (pc.holder H cpu.currentSched) - H.share s (st.holder H c))) : Inv H st' := by
  have hself : st'.holder H c = pc.holder H cpu.currentSched := by
    unfold State.holder
    rw [hm.cpus, hm.pc, update_self, update_self]
  constructor
  · intro c'
    rw [hm.cpus, hm.pc]
    by_cases hc : c' = c
    · rw [hc, update_self, update_self]
      exact hok
    · rw [update_of_ne hc, update_of_ne hc]
      exact hI.cpu c'
  · intro s hs
    rw [hcount s hs, ← hself]
    apply (hI.count s hs).update
    intro c' hc
    unfold State.holder
    rw [hm.cpus, hm.pc, update_of_ne hc, update_of_ne hc]

omit [DecidableEq S] in
/-- The counters do not notice. -/
theorem Inv.quiet (hI : Inv H st) (hm : Moves st c cpu pc st') (hok : CpuOk H cpu pc)
    (hnr : st'.nrCpus = st.nrCpus)
    (hh : pc.holder H cpu.currentSched = st.holder H c) : Inv H st' := by
  apply hI.move hm hok
  intro s _
  rw [hnr, hh, sub_self, add_zero]

/-- A scheduler gets the cpu from its parent. -/
theorem Inv.down (hI : Inv H st) (hm : Moves st c cpu pc st') (hok : CpuOk H cpu pc)
    (hx : x ≠ H.none) (hnr : st'.nrCpus = update st.nrCpus x (st.nrCpus x + 1))
    (hold : st.holder H c = H.parent x) (hnew : pc.holder H cpu.currentSched = x) : Inv H st' := by
  apply hI.move hm hok
  intro s _
  rw [hnr, hold, hnew]
  by_cases hs : s = x
  · rw [hs, update_self, H.share_self, H.share_parent_self hx, sub_zero]
  · rw [update_of_ne hs, H.share_parent hx hs, sub_self, add_zero]

/-- A scheduler's parent gets the cpu back. -/
theorem Inv.up (hI : Inv H st) (hm : Moves st c cpu pc st') (hok : CpuOk H cpu pc)
    (hx : x ≠ H.none) (hnr : st'.nrCpus = update st.nrCpus x (st.nrCpus x + -1))
    (hold : st.holder H c = x) (hnew : pc.holder H cpu.currentSched = H.parent x) : Inv H st' := by
  apply hI.move hm hok
  intro s _
  rw [hnr, hold, hnew]
  by_cases hs : s = x
  · rw [hs, update_self, H.share_self, H.share_parent_self hx, zero_sub]
  · rw [update_of_ne hs, H.share_parent hx hs, sub_self, add_zero]

/-! ## Steps -/

theorem Inv.pickNextTask (hI : Inv H st) (hpc : st.pc c = .pick i)
    (hcur : (st.cpus c).currentSched ≠ H.none) (h : pickNextTask H st c i choice = some st') :
    Inv H st' := by
  have hok : (st.cpus c).available = true := by
    have := hI.cpu c
    rwa [hpc] at this
  have hold : st.holder H c = (st.cpus c).currentSched := by
    unfold State.holder
    rw [hpc]
    rfl
  cases choice with
  | grant child =>
    simp only [Tiers.pickNextTask, Option.ite_none_right_eq_some, Option.some.injEq] at h
    rcases h with ⟨⟨hparent, hne⟩, rfl⟩
    refine hI.down (moves_setPc rfl rfl) ⟨hok, hne, hparent⟩ hne rfl ?_ rfl
    rw [hold, hparent]
  | yield =>
    cases h
    -- the cpu is still counted for the scheduler that gives it up
    exact hI.quiet (moves_setCpu _) ⟨hok, hcur, rfl⟩ rfl hold.symm
  | run =>
    cases h
    refine hI.quiet (moves_setPc rfl rfl) ?_ rfl hold.symm
    intro ha
    rw [hok] at ha
    cases ha
  | nothing =>
    cases h
    exact hI.quiet (moves_setPc rfl rfl) hok rfl hold.symm

theorem Inv.cpuStep (hI : Inv H st) (h : cpuStep H st c choice = some st') : Inv H st' := by
  have hok := hI.cpu c
  have hold : st.holder H c = (st.pc c).holder H (st.cpus c).currentSched := rfl
  unfold Tiers.cpuStep at h
  cases hpc : st.pc c with
  | idle =>
    -- there is nothing to do
    simp [hpc] at h
  | pnt =>
    rw [hpc] at hok hold
    simp only [hpc] at h
    split at h <;> cases h <;> exact hI.quiet (moves_setPc rfl rfl) hok rfl hold.symm
  | exchange =>
    -- `flux_preempt_up_to` sets off with the tier that it has read
    rw [hpc] at hok hold
    simp only [hpc] at h
    cases h
    refine hI.quiet (moves_setCpu _) ⟨?_, .inl hok⟩ rfl hold.symm
    rw [Nat.zero_add]
    exact H.tier_lt _
  | available =>
    rw [hpc] at hok hold
    simp only [hpc] at h
    cases h
    exact hI.quiet (moves_setCpu _) hok rfl hold.symm
  | busy =>
    -- the kernel wants the cpu back
    rw [hpc] at hold
    simp only [hpc] at h
    cases h
    refine hI.quiet (moves_setCpu _) ⟨?_, .inr ⟨rfl, rfl⟩⟩ rfl hold.symm
    rw [Nat.zero_add]
    exact H.tier_lt _
  | preempt tier i inPnt =>
    rw [hpc] at hok hold
    simp only [hpc] at h
    split at h
    -- one scheduler more loses the cpu
    case isTrue hlt =>
      cases h
      have hne : (st.cpus c).currentSched ≠ H.none := by
        intro hn
        rw [hn, H.tier_none] at hlt
        exact absurd hlt.2 (Nat.not_lt_zero _)
      exact hI.up (moves_setPc rfl rfl) ⟨hne, hok⟩ hne rfl hold rfl
    case isFalse hge =>
      cases h
      -- the loop ends because the tier is reached, not because it has no iterations left
      have htier : H.tier (st.cpus c).currentSched ≤ tier := by
        have hi := hok.1
        omega
      cases inPnt with
      | true =>
        refine hI.quiet (moves_setPc rfl rfl) ?_ rfl hold.symm
        rcases hok.2 with ha | ha
        · exact ha
        · cases ha.1
      | false =>
        refine hI.quiet (moves_setPc rfl rfl) ?_ rfl hold.symm
        intro ha
        apply H.eq_none_of_tier
        rcases hok.2 with ha' | ha'
        · rw [ha'] at ha
          cases ha
        · rw [ha'.2] at htier
          exact Nat.le_zero.mp htier
  | preempted tier i inPnt =>
    -- `current_sched` follows
    rw [hpc] at hok hold
    simp only [hpc] at h
    cases h
    refine hI.quiet (moves_setCpu _) ⟨?_, hok.2.2⟩ rfl hold.symm
    have hp := H.tier_parent _ hok.1
    have hi := hok.2.1
    show i + 1 + H.tier (H.parent _) < _
    omega
  | edge =>
    -- the top scheduler gets a cpu that nobody has
    rw [hpc] at hok hold
    simp only [hpc] at h
    split at h
    case isTrue hn =>
      cases h
      refine hI.down (moves_setPc rfl rfl) ⟨hok, H.top_ne, ?_⟩ H.top_ne rfl ?_ rfl
      · rw [hn, H.parent_top]
      · rw [hold, H.parent_top]
        exact hn
    case isFalse =>
      cases h
      exact hI.quiet (moves_setPc rfl rfl) hok rfl hold.symm
  | pick i =>
    simp only [hpc] at h
    split at h
    case isTrue =>
      split at h
      case isTrue =>
        rw [hpc] at hok hold
        cases h
        exact hI.quiet (moves_setPc rfl rfl) hok rfl hold.symm
      case isFalse hcur => exact hI.pickNextTask hpc hcur h
    case isFalse =>
      rw [hpc] at hok hold
      cases h
      refine hI.quiet (moves_setPc rfl rfl) ?_ rfl hold.symm
      intro ha
      rw [show (st.cpus c).available = true from hok] at ha
      cases ha
  | grant child i =>
    -- `current_sched` goes down
    rw [hpc] at hok hold
    simp only [hpc] at h
    cases h
    exact hI.quiet (moves_setCpu _) hok.1 rfl hold.symm
  | yielded s i =>
    -- the parent has the cpu again
    rw [hpc] at hok hold
    simp only [hpc] at h
    cases h
    exact hI.up (moves_setPc rfl rfl) hok.1 hok.2.1 rfl hold hok.2.2.symm

omit [DecidableEq S] in
/-- `preempt_to` is a wish: nothing is counted by it. -/
theorem Inv.preemptCpu (hI : Inv H st) (t : ℕ) :
    Inv H (st.setCpu c fun x => { x with preemptTo := t }) := by
  have hm : Moves st c { st.cpus c with preemptTo := t } (st.pc c)
      (st.setCpu c fun x => { x with preemptTo := t }) :=
    ⟨rfl, (update_eq_self ..).symm⟩
  have hok := hI.cpu c
  apply hI.quiet hm ?_ rfl rfl
  generalize st.pc c = pc at hok
  cases pc <;> exact hok

omit [DecidableEq S] in
/-- An operation starts. -/
theorem Inv.start (hI : Inv H st) (hpc : st.pc c = .idle) (hm : Moves st c cpu pc st')
    (hok : CpuOk H cpu pc) (hnr : st'.nrCpus = st.nrCpus)
    (hh : pc.holder H cpu.currentSched = (st.cpus c).currentSched) : Inv H st' := by
  apply hI.quiet hm hok hnr
  unfold State.holder
  rw [hpc]
  exact hh

theorem Inv.step (hI : Inv H st) {a : Action S K} (h : step H st a = some st') : Inv H st' := by
  cases a with
  | pnt c =>
    simp only [Tiers.step] at h
    split at h
    case h_1 hpc =>
      simp only [Option.ite_none_right_eq_some, Option.some.injEq] at h
      rcases h with ⟨ha, rfl⟩
      exact hI.start hpc (moves_setPc rfl rfl) ha rfl rfl
    case h_2 => cases h
  | cpuAvailable c =>
    simp only [Tiers.step] at h
    split at h
    case h_1 hpc =>
      cases h
      refine hI.start hpc (moves_setCpu _) ?_ rfl rfl
      intro ha
      cases ha
    case h_2 => cases h
  | cpuBusy c =>
    simp only [Tiers.step] at h
    split at h
    case h_1 hpc =>
      cases h
      exact hI.start hpc (moves_setCpu _) trivial rfl rfl
    case h_2 => cases h
  | cpu c choice => exact hI.cpuStep h
  | preemptCpu s c =>
    simp only [Tiers.step, Option.ite_none_right_eq_some, Option.some.injEq] at h
    rw [← h.2]
    exact hI.preemptCpu _

/-! ## Results -/

/-- No cpu has been seen yet. -/
structure Init (H : Hierarchy S) (st : State S K) : Prop where
  nrCpus : ∀ s, st.nrCpus s = 0
  current : ∀ c, (st.cpus c).currentSched = H.none
  pc : ∀ c, st.pc c = .idle

omit [DecidableEq S] [DecidableEq K] in
theorem Init.inv (h : Init H st) : Inv H st := by
  constructor
  · intro c
    rw [h.pc c]
    intro _
    exact h.current c
  · intro s hs
    rw [h.nrCpus s]
    apply isTotal_zero
    intro c
    unfold State.holder
    rw [h.pc c]
    apply if_neg
    rw [h.current c]
    exact H.not_under_none hs

/-- Between operations `nr_cpus` of every scheduler is the number of cpus that it or one of
its descendants has, and a cpu that is not available belongs to nobody. -/
theorem nr_cpus_exact (h₀ : Init H st₀) (h : Steps (step H) st₀ st) (hidle : ∀ c, st.pc c = .idle) :
    (∀ s, s ≠ H.none → {c | H.Under s (st.cpus c).currentSched}.Finite ∧
      st.nrCpus s = {c | H.Under s (st.cpus c).currentSched}.ncard) ∧
    ∀ c, (st.cpus c).available = false → (st.cpus c).currentSched = H.none := by
  have hI : Inv H st := h.invariant (fun _ _ _ hs h => hs.step h) h₀.inv
  constructor
  · intro s hs
    have htotal : IsTotal (fun c => H.share s (st.cpus c).currentSched) (st.nrCpus s) := by
      apply (hI.count s hs).congr
      intro c
      unfold State.holder
      rw [hidle c]
      rfl
    classical
    exact htotal.ncard
  · intro c
    have hok := hI.cpu c
    rwa [hidle c] at hok

end Steps

/-! ### A scheduler and its children -/

section Children

variable {y : S}

theorem Hierarchy.Under.of_parent (h : H.Under x y) (hx : x ≠ H.none) : H.Under (H.parent x) y := by
  induction h with
  | self => exact .child hx .self
  | child hne _ ih => exact .child hne ih

/-- Of two schedulers of one tier, at most one has the cpu. -/
theorem Hierarchy.Under.eq_of_tier (hs : H.Under s y) (hx : H.Under x y)
    (htier : H.tier s = H.tier x) : s = x := by
  induction hs with
  | self =>
    cases hx with
    | self => rfl
    | child hne hx =>
      have hle := hx.tier_le
      have hp := H.tier_parent s hne
      omega
  | @child y hne hs ih =>
    rcases (H.under_iff hne).mp hx with rfl | hx
    · have hle := hs.tier_le
      have hp := H.tier_parent x hne
      omega
    · exact ih hx

theorem Hierarchy.Under.exists_child (h : H.Under s y) (hne : y ≠ s) :
    ∃ x, (x ≠ H.none ∧ H.parent x = s) ∧ H.Under x y := by
  induction h with
  | self => exact absurd rfl hne
  | @child y hy _ ih =>
    by_cases hp : H.parent y = s
    · exact ⟨y, ⟨hy, hp⟩, .self⟩
    · rcases ih hp with ⟨x, hx, hxy⟩
      exact ⟨x, hx, .child hy hxy⟩

variable [DecidableEq S] [DecidableEq K]

omit [DecidableEq K] in
/-- A cpu that `s` counts and does not have itself is counted by one child of `s`. -/
theorem Hierarchy.share_children (H : Hierarchy S) (s y : S) :
    IsTotal (fun x => if x ≠ H.none ∧ H.parent x = s then H.share x y else 0)
      (H.share s y - if y = s then 1 else 0) := by
  by_cases h : ∃ x, (x ≠ H.none ∧ H.parent x = s) ∧ H.Under x y
  · rcases h with ⟨x, ⟨hx, rfl⟩, hxy⟩
    have hne : y ≠ H.parent x := by
      rintro rfl
      exact H.not_under_parent hx hxy
    refine ⟨{x}, fun z hz => ite_eq_right_iff.mpr fun hchild => if_neg fun hzy => ?_, ?_⟩
    · have hpx := H.tier_parent x hx
      have hpz := H.tier_parent z hchild.1
      rw [hchild.2] at hpz
      exact hz (Finset.mem_singleton.mpr (hzy.eq_of_tier hxy (by omega)))
    · simp [share, hx, hxy, hxy.of_parent hx, hne]
  · have hshare : H.share s y = if y = s then 1 else 0 := by
      by_cases hys : y = s
      · rw [hys, share_self, if_pos rfl]
      · rw [if_neg hys]
        exact if_neg fun hsy => h (hsy.exists_child hys)
    rw [hshare, sub_self]
    exact isTotal_zero fun x => ite_eq_right_iff.mpr fun hx => if_neg fun hxy => h ⟨x, hx, hxy⟩

/-- In every state, also while operations are in progress, `nr_cpus` of a scheduler is the number of
cpus that it has itself plus `nr_cpus` of all its children. -/
theorem nr_cpus_of_children (h₀ : Init H st₀) (h : Steps (step H) st₀ st)
    (hs : s ≠ H.none) : {c | st.holder H c = s}.Finite ∧
    IsTotal (fun x => if x ≠ H.none ∧ H.parent x = s then st.nrCpus x else 0)
      (st.nrCpus s - {c | st.holder H c = s}.ncard) := by
  have hI : Inv H st := h.invariant (fun _ _ _ hs h => hs.step h) h₀.inv
  have hown : ∃ n, IsTotal (fun c => if st.holder H c = s then (1 : ℤ) else 0) n := by
    rcases hI.count s hs with ⟨F, hF, -⟩
    refine ⟨_, F, fun c hc => if_neg ?_, rfl⟩
    rintro rfl
    exact one_ne_zero (H.share_self.symm.trans (hF c hc))
  rcases hown with ⟨n, hown⟩
  rw [← hown.ncard.2]
  refine ⟨hown.ncard.1, .swap (fun x => ?_) (fun c => H.share_children s (st.holder H c)) ?_
    ((hI.count s hs).sub hown)⟩
  · by_cases hx : x ≠ H.none ∧ H.parent x = s
    · simp only [if_pos hx]
      exact hI.count x hx.1
    · simp only [if_neg hx]
      exact isTotal_zero fun _ => rfl
  · intro c hc x
    have hnonneg : ∀ x, 0 ≤ if x ≠ H.none ∧ H.parent x = s then H.share x (st.holder H c)
      else 0 := by
      intro x
      unfold Hierarchy.share
      split_ifs <;> simp
    exact le_antisymm (((H.share_children s _).single_le hnonneg x).trans_eq hc) (hnonneg x)

end Children

/-! ### The hierarchy of `flux.bpf.c` -/

/-- `enum flux_sched_id` -/
inductive Sched where
  | none
  | roci
  | biff
  | idle
deriving DecidableEq

/-- `sched_id_to_tier` -/
def Sched.tier : Sched → ℕ
  | .none => 0
  | .roci => 1
  | .biff | .idle => 2

/-- `get_parent_id` -/
def Sched.parent : Sched → Sched
  | .none | .roci => .none
  | .biff | .idle => .roci

def fluxHierarchy : Hierarchy Sched where
  none := .none
  top := .roci
  parent := Sched.parent
  tier := Sched.tier
  maxNrTiers := 3
  tier_none := rfl
  tier_parent s hs := by cases s <;> first | exact absurd rfl hs | rfl
  tier_lt s := by cases s <;> decide
  top_ne := by decide
  parent_top := rfl

def coldState : State Sched (Fin 2) where
  nrCpus _ := 0
  cpus _ := { available := false, preemptTo := 3, currentSched := .none }
  pc _ := .idle

/-- Biff runs a thread on the first cpu. -/
def biffRuns : List (Action Sched (Fin 2)) :=
  [.cpuAvailable 0, .cpu 0 .nothing, .pnt 0, .cpu 0 .nothing, .cpu 0 .nothing, .cpu 0 .nothing,
    .cpu 0 (.grant .biff), .cpu 0 .nothing, .cpu 0 .run]

def biffRunning : State Sched (Fin 2) :=
  (exec (step fluxHierarchy) coldState biffRuns).getD coldState

theorem nr_cpus_exact_biff :
    biffRunning.nrCpus .roci = 1 ∧ (biffRunning.cpus 0).currentSched = .biff ∧
    biffRunning.nrCpus .roci =
      {c | fluxHierarchy.Under .roci (biffRunning.cpus c).currentSched}.ncard := by
  have hinit : Init fluxHierarchy coldState := ⟨fun _ => rfl, fun _ => rfl, fun _ => rfl⟩
  have hrun : exec (step fluxHierarchy) coldState biffRuns = some biffRunning := rfl
  have hsteps : Steps (step fluxHierarchy) coldState biffRunning := .of_exec hrun
  have hidle : ∀ c, biffRunning.pc c = .idle := by
    intro c
    match c with
    | 0 | 1 => rfl
  have hexact := nr_cpus_exact hinit hsteps hidle
  have hne : Sched.roci ≠ fluxHierarchy.none := by decide
  exact ⟨rfl, rfl, (hexact.1 .roci hne).2⟩

theorem nr_cpus_of_children_biff : biffRunning.nrCpus .biff = 1 ∧
    IsTotal (fun x => if x ≠ fluxHierarchy.none ∧ fluxHierarchy.parent x = .roci then
      biffRunning.nrCpus x else 0)
      (biffRunning.nrCpus .roci - {c | biffRunning.holder fluxHierarchy c = .roci}.ncard) :=
  ⟨rfl, (nr_cpus_of_children ⟨fun _ => rfl, fun _ => rfl, fun _ => rfl⟩
    (.of_exec (show exec (step fluxHierarchy) coldState biffRuns = some biffRunning from rfl))
    (by decide)).2⟩

end Tiers
