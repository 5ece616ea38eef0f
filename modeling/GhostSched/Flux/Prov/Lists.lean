import GhostSched.Flux.Prov.Model

/-!
# The lists of prov

Each cpu is threaded through up to two lists. `Shape` relates the three heads and the two
maps of links to lists of cpus, and `Owned` says which cpus are on them, in terms of the
owner, the earmark and the priority flag of each cpu.

The result is `lists_exact`, which holds in every state, since all that prov does under its
lock is one step.
-/

namespace Prov

open TailQueue Transition Function

variable {K R : Type*} {st st' st₀ : State K R} {c v : K} {x : K ⊕ R} {cpu : Cpu} {cfg : Config}
  {ln ll lp : List K}

/-! ## Well-formed lists -/

/-- The three lists are well formed, and have these cpus. -/
structure Shape (st : State K R) (ln ll lp : List K) : Prop where
  nexts : IsQueue st.nextsCpus st.childLink ln
  lasts : IsQueue st.lastsCpus st.childLink ll
  priority : IsQueue st.priorityCpus st.prioLink lp
  disjoint : ∀ c ∈ ln, c ∉ ll

section Shape

variable [DecidableEq K]

variable (h : Shape st ln ll lp)
include h

/-- To the list of next. -/
theorem Shape.insertNexts (hn : c ∉ ln) (hl : c ∉ ll) :
    Shape (st.insertNexts c) (c :: ln) ll lp := by
  constructor
  · exact h.nexts.insertHead hn
  · apply h.lasts.congr
    intro c' hc'
    exact h.nexts.insertHead_other (fun hc => h.disjoint c' hc hc') (ne_of_mem_of_not_mem hc' hl)
  · exact h.priority
  · grind [h.disjoint]

/-- To the list of last. -/
theorem Shape.insertLasts (hn : c ∉ ln) (hl : c ∉ ll) :
    Shape (st.insertLasts c) ln (c :: ll) lp := by
  constructor
  · apply h.nexts.congr
    intro c' hc'
    exact h.lasts.insertHead_other (h.disjoint c' hc') (ne_of_mem_of_not_mem hc' hn)
  · exact h.lasts.insertHead hl
  · exact h.priority
  · grind [h.disjoint]

/-- From the list of next. -/
theorem Shape.removeNexts (hn : c ∈ ln) : Shape (st.removeNexts c) (ln.erase c) ll lp := by
  constructor
  · exact h.nexts.remove hn
  · apply h.lasts.congr
    intro c' hc'
    exact h.nexts.remove_other hn fun hc => h.disjoint c' hc hc'
  · exact h.priority
  · exact fun c' hc' => h.disjoint c' (List.mem_of_mem_erase hc')

/-- From the list of last. -/
theorem Shape.removeLasts (hl : c ∈ ll) : Shape (st.removeLasts c) ln (ll.erase c) lp := by
  constructor
  · apply h.nexts.congr
    intro c' hc'
    exact h.lasts.remove_other hl (h.disjoint c' hc')
  · exact h.lasts.remove hl
  · exact h.priority
  · exact fun c' hc' hmem => h.disjoint c' hc' (List.mem_of_mem_erase hmem)

/-- To the front of the priority list. -/
theorem Shape.insertPriorityHead (hp : c ∉ lp) : Shape (st.insertPriorityHead c) ln ll (c :: lp) :=
  ⟨h.nexts, h.lasts, h.priority.insertHead hp, h.disjoint⟩

/-- To the back of the priority list. -/
theorem Shape.insertPriorityTail (hp : c ∉ lp) :
    Shape (st.insertPriorityTail c) ln ll (lp ++ [c]) :=
  ⟨h.nexts, h.lasts, h.priority.insertTail hp, h.disjoint⟩

/-- From the priority list. -/
theorem Shape.removePriority (hp : c ∈ lp) : Shape (st.removePriority c) ln ll (lp.erase c) :=
  ⟨h.nexts, h.lasts, h.priority.remove hp, h.disjoint⟩

end Shape

/-! ## Who is on them -/

def Cpu.OnNexts (cpu : Cpu) : Prop := cpu.owningChild = some .next ∧ cpu.preemptPending = false

def Cpu.OnLasts (cpu : Cpu) : Prop := cpu.owningChild = some .last ∧ cpu.preemptPending = false

def Cpu.OnPriority (cpu : Cpu) : Prop := (cpu.OnNexts ∨ cpu.OnLasts) ∧ cpu.priority = true

/-- A cpu on two of the lists would be owned by both children. -/
structure Owned (st : State K R) (ln ll lp : List K) : Prop where
  nexts : ∀ c, c ∈ ln ↔ (st.cpus c).OnNexts
  lasts : ∀ c, c ∈ ll ↔ (st.cpus c).OnLasts
  priority : ∀ c, c ∈ lp ↔ (st.cpus c).OnPriority
  order : lp.Pairwise fun a b =>
    (st.cpus a).owningChild = some .next → (st.cpus b).owningChild = some .next

/-- A cpu has an owner from when a child is chosen to when the cpu comes back. -/
def Pc.owner : Pc → Option Child
  | .away | .here | .requested => none
  | .grant ch | .child ch | .returned ch _ => some ch

structure Cpu.Ok (cpu : Cpu) : Prop where
  owner : cpu.owningChild = cpu.pc.owner
  pending : cpu.preemptPending = true → cpu.pc.owner = some .next ∨ cpu.pc.owner = some .last

structure Inv (st : State K R) : Prop where
  cpu : ∀ c, (st.cpus c).Ok
  lists : ∃ ln ll lp, Shape st ln ll lp ∧ Owned st ln ll lp

section Rules

variable [DecidableEq K]

/-- The cpu `c` becomes `cpu`. -/
structure Moves (st : State K R) (c : K) (cpu : Cpu) (st' : State K R) : Prop where
  cpus : st'.cpus = update st.cpus c cpu

theorem Moves.self (hm : Moves st c cpu st') : st'.cpus c = cpu := by
  rw [hm.cpus, update_self]

theorem Moves.other (hm : Moves st c cpu st') {c' : K} (h : c' ≠ c) : st'.cpus c' = st.cpus c' := by
  rw [hm.cpus, update_of_ne h]

/-- One cpu changes, and with it the lists. -/
theorem Inv.move (hI : Inv st) (hm : Moves st c cpu st') (hok : cpu.Ok)
    (hlists : ∃ ln ll lp, Shape st' ln ll lp ∧ Owned st' ln ll lp) : Inv st' := by
  refine ⟨?_, hlists⟩
  intro c'
  by_cases hc : c' = c
  · rw [hc, hm.self]
    exact hok
  · rw [hm.other hc]
    exact hI.cpu c'

/-- The lists do not notice. -/
theorem Inv.quiet (hI : Inv st) (hm : Moves st c cpu st') (hok : cpu.Ok)
    (hshape : ∀ ln ll lp, Shape st ln ll lp → Shape st' ln ll lp)
    (howner : cpu.owningChild = (st.cpus c).owningChild)
    (hpending : cpu.preemptPending = (st.cpus c).preemptPending)
    (hpriority : cpu.priority = (st.cpus c).priority) : Inv st' := by
  rcases hI.lists with ⟨ln, ll, lp, hS, hO⟩
  refine hI.move hm hok ⟨ln, ll, lp, hshape ln ll lp hS, ?_⟩
  have howner' : ∀ c', (st'.cpus c').owningChild = (st.cpus c').owningChild := by
    intro c'
    by_cases hc : c' = c
    · rw [hc, hm.self, howner]
    · rw [hm.other hc]
  have hon : ∀ c', ((st'.cpus c').OnNexts ↔ (st.cpus c').OnNexts) ∧
      ((st'.cpus c').OnLasts ↔ (st.cpus c').OnLasts) ∧
      ((st'.cpus c').OnPriority ↔ (st.cpus c').OnPriority) := by
    intro c'
    by_cases hc : c' = c
    · simp only [hc, hm.self, Cpu.OnNexts, Cpu.OnLasts, Cpu.OnPriority, howner, hpending, hpriority,
        and_self]
    · rw [hm.other hc]
      exact ⟨Iff.rfl, Iff.rfl, Iff.rfl⟩
  constructor
  · exact fun c' => (hO.nexts c').trans (hon c').1.symm
  · exact fun c' => (hO.lasts c').trans (hon c').2.1.symm
  · exact fun c' => (hO.priority c').trans (hon c').2.2.symm
  · simp only [howner']
    exact hO.order

/-- The cpu comes on lists, or leaves them. -/
theorem Owned.move {ln' ll' lp' : List K} (hO : Owned st ln ll lp) (hm : Moves st c cpu st')
    (hn : ∀ c', c' ≠ c → (c' ∈ ln' ↔ c' ∈ ln)) (hl : ∀ c', c' ≠ c → (c' ∈ ll' ↔ c' ∈ ll))
    (hp : ∀ c', c' ≠ c → (c' ∈ lp' ↔ c' ∈ lp)) (hcn : c ∈ ln' ↔ cpu.OnNexts)
    (hcl : c ∈ ll' ↔ cpu.OnLasts) (hcp : c ∈ lp' ↔ cpu.OnPriority)
    (horder : lp'.Pairwise fun a b =>
      (st'.cpus a).owningChild = some .next → (st'.cpus b).owningChild = some .next) :
    Owned st' ln' ll' lp' := by
  constructor
  · intro c'
    by_cases hc : c' = c
    · rw [hc, hm.self]
      exact hcn
    · rw [hm.other hc, hn c' hc]
      exact hO.nexts c'
  · intro c'
    by_cases hc : c' = c
    · rw [hc, hm.self]
      exact hcl
    · rw [hm.other hc, hl c' hc]
      exact hO.lasts c'
  · intro c'
    by_cases hc : c' = c
    · rw [hc, hm.self]
      exact hcp
    · rw [hm.other hc, hp c' hc]
      exact hO.priority c'
  · exact horder

/-- The order of the other cpus is the same. -/
theorem Owned.order_of_notMem (hO : Owned st ln ll lp) (hm : Moves st c cpu st') {l : List K}
    (hl : l.Sublist lp) (hc : c ∉ l) : l.Pairwise fun a b =>
      (st'.cpus a).owningChild = some .next → (st'.cpus b).owningChild = some .next := by
  apply (hO.order.sublist hl).imp_of_mem
  intro a b ha hb hab
  rwa [hm.other (ne_of_mem_of_not_mem ha hc), hm.other (ne_of_mem_of_not_mem hb hc)]

end Rules

/-! ## Steps -/

/-- A cpu without an owner is on no list. -/
theorem Owned.notMem (hO : Owned st ln ll lp) (h : (st.cpus c).owningChild = none) :
    c ∉ ln ∧ c ∉ ll ∧ c ∉ lp := by
  refine ⟨?_, ?_, ?_⟩
  · rw [hO.nexts]
    exact fun hc => (nomatch h.symm.trans hc.1)
  · rw [hO.lasts]
    exact fun hc => (nomatch h.symm.trans hc.1)
  · rw [hO.priority]
    intro hc
    rcases hc.1 with hc | hc <;> exact (nomatch h.symm.trans hc.1)

section Steps

variable {child : Child} {pc : Pc}

/-- A cpu that prov is about to give away has no owner. -/
theorem Inv.here_none (hI : Inv st) (hpc : (st.cpus c).pc = .here) :
    (st.cpus c).owningChild = none ∧ (st.cpus c).preemptPending = false := by
  have hok := hI.cpu c
  refine ⟨by rw [hok.owner, hpc]; rfl, eq_false_of_ne_true fun hp => ?_⟩
  have howner := hok.pending hp
  rw [hpc] at howner
  exact howner.elim nofun nofun

/-- The cpu that a request finds is on the list that it is then removed from. -/
theorem victim_on (hS : Shape st ln ll lp) (hO : Owned st ln ll lp) (h : victim st child = some v) :
    (st.cpus v).owningChild = some (victimList st v child) ∧
      (st.cpus v).preemptPending = false ∧ victimList st v child ≠ .prio := by
  have hlast : st.lastsCpus.first = some v → (st.cpus v).OnLasts := by
    intro hv
    rw [hS.lasts.first] at hv
    exact (hO.lasts v).mp (List.mem_of_head? hv)
  cases child with
  | prio =>
    have hon : (st.cpus v).OnNexts ∨ (st.cpus v).OnLasts := by
      simp only [victim, Option.or_eq_some_iff] at h
      rcases h with hv | ⟨_, hv | ⟨_, hv⟩⟩
      · rw [hS.priority.first] at hv
        exact ((hO.priority v).mp (List.mem_of_head? hv)).1
      · exact .inr (hlast hv)
      · rw [hS.nexts.first] at hv
        exact .inl ((hO.nexts v).mp (List.mem_of_head? hv))
    rcases hon with hon | hon
    · exact ⟨by simp [victimList, hon.1], hon.2, by simp [victimList, hon.1]⟩
    · exact ⟨by simp [victimList, hon.1], hon.2, by simp [victimList, hon.1]⟩
  | next => exact ⟨(hlast h).1, (hlast h).2, nofun⟩
  | last => cases h

/-- Neither counters nor requests matter to the lists. -/
theorem Inv.frame (hI : Inv st) (hcpus : st'.cpus = st.cpus) (hn : st'.nextsCpus = st.nextsCpus)
    (hl : st'.lastsCpus = st.lastsCpus) (hp : st'.priorityCpus = st.priorityCpus)
    (hc : st'.childLink = st.childLink) (hpl : st'.prioLink = st.prioLink) : Inv st' := by
  rcases hI with ⟨hcpu, ln, ll, lp, hS, hO⟩
  refine ⟨?_, ln, ll, lp, ⟨?_, ?_, ?_, hS.disjoint⟩, ⟨?_, ?_, ?_, ?_⟩⟩
  · rw [hcpus]
    exact hcpu
  · rw [hn, hc]
    exact hS.nexts
  · rw [hl, hc]
    exact hS.lasts
  · rw [hp, hpl]
    exact hS.priority
  · rw [hcpus]
    exact hO.nexts
  · rw [hcpus]
    exact hO.lasts
  · rw [hcpus]
    exact hO.priority
  · rw [hcpus]
    exact hO.order

/-- The lists do not depend on the counters. -/
theorem Inv.addNrCpus (hI : Inv st) (child : Child) (n : ℤ) : Inv (st.addNrCpus child n) :=
  hI.frame rfl rfl rfl rfl rfl rfl

variable [DecidableEq K]

theorem Shape.setCpu (h : Shape st ln ll lp) (cpu : Cpu) : Shape (st.setCpu c cpu) ln ll lp :=
  ⟨h.nexts, h.lasts, h.priority, h.disjoint⟩

/-- A cpu of prov is given to a child. It comes on the list of the child and, if it
has priority, on the right side of the other cpus with priority. -/
theorem Inv.give {st₁ : State K R} {ln' ll' lp' : List K} (hI : Inv st)
    (hpc : (st.cpus c).pc = .here) (hO : Owned st ln ll lp)
    (hchild : child = .next ∨ child = .last) (hcpus : st₁.cpus = st.cpus)
    (hS : Shape st₁ ln' ll' lp') (hn : ∀ c', c' ∈ ln' ↔ c' = c ∧ child = .next ∨ c' ∈ ln)
    (hl : ∀ c', c' ∈ ll' ↔ c' = c ∧ child = .last ∨ c' ∈ ll)
    (hp : ∀ c', c' ∈ lp' ↔ c' = c ∧ (st.cpus c).priority ∨ c' ∈ lp)
    (hside : lp' = lp ∨ lp' = lp ++ [c] ∧ child = .next ∨ lp' = c :: lp ∧ child = .last) :
    let cpu := { st.cpus c with owningChild := some child, pc := .grant child }
    Inv (st₁.setCpu c cpu) := by
  intro cpu
  have hnone := hI.here_none hpc
  rcases hO.notMem hnone.1 with ⟨hcn, hcl, hcp⟩
  have hm : Moves st c cpu (st₁.setCpu c cpu) := ⟨congrArg (update · c _) hcpus⟩
  have hold := hO.order_of_notMem hm (List.Sublist.refl lp) hcp
  refine hI.move hm ⟨rfl, fun _ => hchild.imp (congrArg some) (congrArg some)⟩
    ⟨ln', ll', lp', hS.setCpu _, hO.move hm ?_ ?_ ?_ ?_ ?_ ?_ ?_⟩
  · intro c' hc
    simp [hn, hc]
  · intro c' hc
    simp [hl, hc]
  · intro c' hc
    simp [hp, hc]
  · simp [cpu, hn, hcn, Cpu.OnNexts, hnone.2]
  · simp [cpu, hl, hcl, Cpu.OnLasts, hnone.2]
  · simp [cpu, hp, hcp, Cpu.OnPriority, Cpu.OnNexts, Cpu.OnLasts, hnone.2, hchild]
  · rcases hside with rfl | ⟨rfl, rfl⟩ | ⟨rfl, rfl⟩
    · exact hold
    · -- behind all the others
      simp [cpu, List.pairwise_append, hold, hm.self]
    · -- in front of all the others
      simp [cpu, hold, hm.self]

/-- A cpu of prov is given to next. -/
theorem Inv.give_next (hI : Inv st) (hpc : (st.cpus c).pc = .here) :
    Inv ((if (st.cpus c).priority then (st.insertNexts c).insertPriorityTail c
      else st.insertNexts c).setCpu c
        { st.cpus c with owningChild := some .next, pc := .grant .next }) := by
  rcases hI.lists with ⟨ln, ll, lp, hS, hO⟩
  rcases hO.notMem (hI.here_none hpc).1 with ⟨hn, hl, hp⟩
  have hS' := hS.insertNexts hn hl
  split
  case isTrue hprio =>
    exact hI.give hpc hO (.inl rfl) rfl (hS'.insertPriorityTail hp) (by simp) (by simp)
      (by simp [hprio, or_comm]) (.inr (.inl ⟨rfl, rfl⟩))
  case isFalse hprio =>
    exact hI.give hpc hO (.inl rfl) rfl hS' (by simp) (by simp) (by simp [hprio]) (.inl rfl)

/-- A cpu of prov is given to last. -/
theorem Inv.give_last (hI : Inv st) (hpc : (st.cpus c).pc = .here) :
    Inv ((if (st.cpus c).priority then (st.insertLasts c).insertPriorityHead c
      else st.insertLasts c).setCpu c
        { st.cpus c with owningChild := some .last, pc := .grant .last }) := by
  rcases hI.lists with ⟨ln, ll, lp, hS, hO⟩
  rcases hO.notMem (hI.here_none hpc).1 with ⟨hn, hl, hp⟩
  have hS' := hS.insertLasts hn hl
  split
  case isTrue hprio =>
    exact hI.give hpc hO (.inr rfl) rfl (hS'.insertPriorityHead hp) (by simp) (by simp)
      (by simp [hprio]) (.inr (.inr ⟨rfl, rfl⟩))
  case isFalse hprio =>
    exact hI.give hpc hO (.inr rfl) rfl hS' (by simp) (by simp) (by simp [hprio]) (.inl rfl)

theorem removeFromChildList_cpus : (st.removeFromChildList c child).cpus = st.cpus := by
  cases child with
  | prio => rfl
  | next | last =>
    simp only [State.removeFromChildList]
    split <;> rfl

/-- `__remove_from_child_list` takes the cpu off every list that it is on. -/
theorem Shape.removeFromChildList (hS : Shape st ln ll lp) (hO : Owned st ln ll lp)
    (howner : (st.cpus c).owningChild = some child)
    (hpending : (st.cpus c).preemptPending = false) :
    Shape (st.removeFromChildList c child) (ln.erase c) (ll.erase c) (lp.erase c) := by
  have hn := hO.nexts c
  have hl := hO.lasts c
  have hp := hO.priority c
  simp only [Cpu.OnNexts, Cpu.OnLasts, Cpu.OnPriority, howner, hpending, Option.some.injEq,
    and_true] at hn hl hp
  cases child with
  | prio =>
    rw [List.erase_of_not_mem (by simp [hn]), List.erase_of_not_mem (by simp [hl]),
      List.erase_of_not_mem (by simp [hp])]
    exact hS
  | next =>
    rw [List.erase_of_not_mem (by simp [hl] : c ∉ ll)]
    have hS' := hS.removeNexts (hn.mpr rfl)
    grind [State.removeFromChildList, hS'.removePriority, List.erase_of_not_mem]
  | last =>
    rw [List.erase_of_not_mem (by simp [hn] : c ∉ ln)]
    have hS' := hS.removeLasts (hl.mpr rfl)
    grind [State.removeFromChildList, hS'.removePriority, List.erase_of_not_mem]

/-- A cpu that is on no list. -/
def Cpu.Off (cpu : Cpu) : Prop :=
  cpu.owningChild = none ∨ cpu.owningChild = some .prio ∨ cpu.preemptPending = true

omit [DecidableEq K] in
theorem Cpu.Off.not_on (h : cpu.Off) : ¬ cpu.OnNexts ∧ ¬ cpu.OnLasts := by
  constructor
  · intro hon
    rcases h with h | h | h
    · exact (nomatch h.symm.trans hon.1)
    · exact (nomatch h.symm.trans hon.1)
    · exact (nomatch h.symm.trans hon.2)
  · intro hon
    rcases h with h | h | h
    · exact (nomatch h.symm.trans hon.1)
    · exact (nomatch h.symm.trans hon.1)
    · exact (nomatch h.symm.trans hon.2)

/-- A cpu that stays off the lists. -/
theorem Inv.stay_off (hI : Inv st) (hold : (st.cpus c).Off) (hnew : cpu.Off) (hok : cpu.Ok) :
    Inv (st.setCpu c cpu) := by
  have hm : Moves st c cpu (st.setCpu c cpu) := ⟨rfl⟩
  rcases hI.lists with ⟨ln, ll, lp, hS, hO⟩
  have hn : c ∉ ln := fun h => hold.not_on.1 ((hO.nexts c).mp h)
  have hl : c ∉ ll := fun h => hold.not_on.2 ((hO.lasts c).mp h)
  have hp : c ∉ lp := fun h => ((hO.priority c).mp h).1.elim hold.not_on.1 hold.not_on.2
  refine hI.move hm hok ⟨ln, ll, lp, hS.setCpu _, hO.move hm (fun _ _ => Iff.rfl)
    (fun _ _ => Iff.rfl) (fun _ _ => Iff.rfl) (iff_of_false hn hnew.not_on.1)
    (iff_of_false hl hnew.not_on.2) (iff_of_false hp ?_)
    (hO.order_of_notMem hm (List.Sublist.refl lp) hp)⟩
  exact fun h => h.1.elim hnew.not_on.1 hnew.not_on.2

/-- A cpu leaves its lists: it has no owner any more, or an earmark. -/
theorem Inv.removeFromChildList (hI : Inv st) (howner : (st.cpus c).owningChild = some child)
    (hpending : (st.cpus c).preemptPending = false) (hok : cpu.Ok)
    (hoff : cpu.Off) : Inv ((st.removeFromChildList c child).setCpu c cpu) := by
  rcases hoff.not_on with ⟨hcn, hcl⟩
  have hm : Moves st c cpu ((st.removeFromChildList c child).setCpu c cpu) := by
    constructor
    show update (st.removeFromChildList c child).cpus c cpu = _
    rw [removeFromChildList_cpus]
  rcases hI.lists with ⟨ln, ll, lp, hS, hO⟩
  have hp : c ∉ lp.erase c := hS.priority.nodup.not_mem_erase
  refine hI.move hm hok ⟨_, _, _, (hS.removeFromChildList hO howner hpending).setCpu _,
    hO.move hm (fun _ => List.mem_erase_of_ne) (fun _ => List.mem_erase_of_ne)
      (fun _ => List.mem_erase_of_ne) (iff_of_false hS.nexts.nodup.not_mem_erase hcn)
      (iff_of_false hS.lasts.nodup.not_mem_erase hcl) (iff_of_false hp fun h => h.1.elim hcn hcl)
      (hO.order_of_notMem hm List.erase_sublist hp)⟩

/-- `prov_pick_next_task` -/
theorem Inv.pickNextTask (hI : Inv st) (hpc : (st.cpus c).pc = .here) :
    Inv (pickNextTask cfg st c) := by
  have hnone := hI.here_none hpc
  simp only [Prov.pickNextTask]
  split
  · exact hI.stay_off (.inl hnone.1) (.inr (.inl rfl))
      ⟨rfl, fun h => (nomatch h.symm.trans hnone.2)⟩
  · split
    · exact hI.give_next hpc
    · split
      · exact hI.give_last hpc
      · refine hI.stay_off (.inl hnone.1) (.inl rfl) ?_
        constructor <;> grind [Pc.owner]

/-- `__prov_cpu_returned` -/
theorem Inv.cpuReturned (hI : Inv st) (hold : (st.cpus c).pc.owner = some child)
    (hpc : pc.owner = none) : Inv (cpuReturned st c child pc) := by
  simp only [Prov.cpuReturned]
  split
  case isTrue hp => exact hI.stay_off (.inr (.inr hp)) (.inl rfl) ⟨hpc.symm, nofun⟩
  case isFalse hp =>
    exact hI.removeFromChildList ((hI.cpu c).owner.trans hold) (eq_false_of_ne_true hp)
      ⟨hpc.symm, fun h => absurd h hp⟩ (.inl rfl)

/-- A victim leaves its lists before it is preempted. -/
theorem Inv.earmark (hI : Inv st) (h : victim st child = some v) : Inv (earmark st child v) := by
  rcases hI.lists with ⟨ln, ll, lp, hS, hO⟩
  rcases victim_on hS hO h with ⟨howner, hpending, hne⟩
  have hok := hI.cpu v
  refine hI.removeFromChildList howner hpending ⟨hok.owner, fun _ => ?_⟩ (.inr (.inr rfl))
  rw [← hok.owner, howner]
  cases hlist : victimList st v child with
  | prio => exact absurd hlist hne
  | next => exact .inl rfl
  | last => exact .inr rfl

/-- The cpu goes on, with the same owner. -/
theorem Inv.goto (hI : Inv st) (preempt : Bool) (pc : Pc) (hpc : pc.owner = (st.cpus c).pc.owner) :
    Inv (st.setCpu c { st.cpus c with preempt := preempt, pc := pc }) := by
  have hok := hI.cpu c
  refine hI.quiet ⟨rfl⟩ ⟨hok.owner.trans hpc.symm, ?_⟩ (fun _ _ _ h => h.setCpu _) rfl rfl rfl
  intro hp
  rw [hpc]
  exact hok.pending hp

section Step

variable [DecidableEq R]

theorem Inv.setRequest (hI : Inv st) (x : K ⊕ R) (r : Request K) : Inv (st.setRequest x r) :=
  hI.frame rfl rfl rfl rfl rfl rfl

/-- One access of a request. -/
theorem Inv.requestStep (hI : Inv st) {canPoke : Bool}
    (h : requestStep cfg st x canPoke = some st') : Inv st' := by
  unfold Prov.requestStep at h
  cases hx : st.request x with
  | idle => simp [hx] at h
  | start child =>
    grind [hI.setRequest]
  | loop child needed i =>
    grind [hI.earmark, Prov.Inv.setRequest]
  | preempt child v needed i =>
    simp only [hx] at h
    cases h
    exact Inv.setRequest (hI.goto _ _ rfl) _ _

/-- Every step keeps the lists. -/
theorem Inv.step (hI : Inv st) {a : Action K R} (h : step cfg st a = some st') : Inv st' := by
  cases a with simp only [Prov.step] at h
  | allocate c =>
    split at h
    case h_1 hpc =>
      cases h
      exact hI.goto _ _ (by rw [hpc]; rfl)
    case h_2 => cases h
  | pick c =>
    grind [Prov.step, hI.pickNextTask]
  | grant c | yield c =>
    -- the counters are not under the lock
    split at h
    case h_1 child hpc =>
      cases h
      exact Inv.addNrCpus (hI.goto _ _ (by rw [hpc]; rfl)) _ _
    case h_2 => cases h
  | complete c =>
    -- the child's cpu comes back, or prov has it already
    split at h
    case h_1 child hpc =>
      split at h <;> cases h
      exact Inv.addNrCpus (hI.goto _ _ (by rw [hpc]; rfl)) _ _
    case h_2 hpc =>
      cases h
      exact hI.goto _ _ rfl
    case h_3 => cases h
  | take c =>
    -- the same for good
    split at h
    case h_1 child hpc =>
      cases h
      exact Inv.addNrCpus (hI.goto _ _ (by rw [hpc]; rfl)) _ _
    case h_2 hpc =>
      cases h
      exact hI.goto _ _ (by rw [hpc]; rfl)
    case h_3 => cases h
  | cpuReturned c =>
    -- the cpu leaves its lists here, unless it is earmarked
    split at h
    case h_1 child hpc =>
      cases h
      exact hI.cpuReturned (by rw [hpc]; rfl) rfl
    case h_2 child hpc =>
      cases h
      exact Inv.setRequest (hI.cpuReturned (by rw [hpc]; rfl) rfl) _ _
    case h_3 => cases h
  | leave c =>
    split at h
    case h_1 hpc _ =>
      cases h
      exact hI.goto _ _ (by rw [hpc]; rfl)
    case h_2 => cases h
  | tick c =>
    grind [Prov.step, hI.goto]
  | requestCpus r child nr =>
    -- a request touches no list before it takes the lock
    split at h
    case h_1 =>
      cases h
      split <;> exact hI.frame rfl rfl rfl rfl rfl rfl
    case h_2 => cases h
  | request x canPoke => exact hI.requestStep h

end Step

end Steps

/-! ## Results -/

/-- No cpu has been granted to prov yet. -/
structure Init (st : State K R) : Prop where
  nrCpus : ∀ child, st.nrCpus child = 0
  nexts : st.nextsCpus = .empty
  lasts : st.lastsCpus = .empty
  priority : st.priorityCpus = .empty
  pc : ∀ c, (st.cpus c).pc = .away
  owner : ∀ c, (st.cpus c).owningChild = none
  pending : ∀ c, (st.cpus c).preemptPending = false

/-- The lists are empty at first. -/
theorem Init.inv (h : Init st) : Inv st := by
  refine ⟨?_, [], [], [], ⟨?_, ?_, ?_, nofun⟩, ⟨?_, ?_, ?_, List.Pairwise.nil⟩⟩
  · intro c
    refine ⟨?_, fun hp => (nomatch (h.pending c).symm.trans hp)⟩
    rw [h.owner c, h.pc c]
    rfl
  · rw [h.nexts]
    exact isQueue_empty _
  · rw [h.lasts]
    exact isQueue_empty _
  · rw [h.priority]
    exact isQueue_empty _
  · exact fun c => iff_of_false nofun fun hc => (nomatch (h.owner c).symm.trans hc.1)
  · exact fun c => iff_of_false nofun fun hc => (nomatch (h.owner c).symm.trans hc.1)
  · intro c
    refine iff_of_false nofun fun hc => ?_
    rcases hc.1 with hc | hc <;> exact (nomatch (h.owner c).symm.trans hc.1)

/-- Whenever prov's lock is free, the three lists are well formed. A cpu is on the list of next
or of last iff that child owns it and it is not earmarked; it is on the priority list iff it is
on one of these and has the priority flag, so that an earmarked cpu is on no list. On the
priority list the cpus of last precede those of next, and the first one is not next's while one
is last's. -/
theorem lists_exact [DecidableEq K] [DecidableEq R] (h₀ : Init st₀) (h : Steps (step cfg) st₀ st) :
    ∃ ln ll lp, IsQueue st.nextsCpus st.childLink ln ∧ IsQueue st.lastsCpus st.childLink ll ∧
      IsQueue st.priorityCpus st.prioLink lp ∧
      (∀ c, c ∈ ln ↔ (st.cpus c).owningChild = some .next ∧ (st.cpus c).preemptPending = false) ∧
      (∀ c, c ∈ ll ↔ (st.cpus c).owningChild = some .last ∧ (st.cpus c).preemptPending = false) ∧
      (∀ c, c ∈ lp ↔ (c ∈ ln ∨ c ∈ ll) ∧ (st.cpus c).priority = true) ∧
      (∀ c, (st.cpus c).preemptPending = true → c ∉ ln ∧ c ∉ ll ∧ c ∉ lp) ∧
      (lp.Pairwise fun a b =>
        ¬ ((st.cpus a).owningChild = some .next ∧ (st.cpus b).owningChild = some .last)) ∧
      (∀ v, victim st .prio = some v → (st.cpus v).owningChild = some .next →
        ∀ c ∈ lp, (st.cpus c).owningChild ≠ some .last) := by
  have hI : Inv st := h.invariant (fun _ _ _ hs h => hs.step h) h₀.inv
  rcases hI.lists with ⟨ln, ll, lp, hS, hO⟩
  refine ⟨ln, ll, lp, hS.nexts, hS.lasts, hS.priority, hO.nexts, hO.lasts, ?_, ?_, ?_, ?_⟩
  · intro c
    rw [hO.priority, hO.nexts, hO.lasts]
    exact Iff.rfl
  · intro c hp
    have hoff : (st.cpus c).Off := .inr (.inr hp)
    refine ⟨fun hc => hoff.not_on.1 ((hO.nexts c).mp hc),
      fun hc => hoff.not_on.2 ((hO.lasts c).mp hc), fun hc => ?_⟩
    exact ((hO.priority c).mp hc).1.elim hoff.not_on.1 hoff.not_on.2
  · grind [hO.order.imp]
  · intro v hv howner c hc hlast
    -- the priority list is not empty, so the victim is its first cpu
    cases lp with
    | nil => cases hc
    | cons a lp =>
      have hfirst : st.priorityCpus.first = some a := hS.priority.first
      have hva : a = v := by
        simp only [victim, hfirst, Option.some_or, Option.some.injEq] at hv
        exact hv
      rw [← hva] at howner
      grind [List.pairwise_cons, hO.order]

/-- Two cpus with the priority flag. -/
def bare : State Bool Unit where
  nrCpusWanted _ := 0
  nrCpus _ := 0
  priorityCpus := .empty
  nextsCpus := .empty
  lastsCpus := .empty
  prioLink _ := ⟨none, none⟩
  childLink _ := ⟨none, none⟩
  cpus _ := ⟨true, false, none, false, .away⟩
  request _ := .idle

/-- Next and last get a cpu each. -/
def oneEach : List (Action Bool Unit) :=
  [.requestCpus () .next 1, .request (.inr ()) false, .requestCpus () .last 1,
    .request (.inr ()) false, .allocate false, .pick false, .grant false,
    .allocate true, .pick true]

def shared : State Bool Unit := (exec (step ⟨0⟩) bare oneEach).getD bare

theorem bare_init : Init bare :=
  ⟨fun _ => rfl, rfl, rfl, rfl, fun _ => rfl, fun _ => rfl, fun _ => rfl⟩

theorem lists_exact_shared : (shared.cpus false).owningChild = some .next ∧
    (shared.cpus true).owningChild = some .last ∧ shared.priorityCpus.first = some true ∧
    ∃ lp, IsQueue shared.priorityCpus shared.prioLink lp ∧ false ∈ lp ∧ true ∈ lp := by
  have hrun : exec (step ⟨0⟩) bare oneEach = some shared := rfl
  rcases lists_exact bare_init (.of_exec hrun) with ⟨ln, ll, lp, -, -, hlp, hn, hl, hp, -⟩
  exact ⟨rfl, rfl, rfl, lp, hlp, (hp false).mpr ⟨.inl ((hn false).mpr ⟨rfl, rfl⟩), rfl⟩,
    (hp true).mpr ⟨.inr ((hl true).mpr ⟨rfl, rfl⟩), rfl⟩⟩

end Prov
