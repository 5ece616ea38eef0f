import GhostSched.Topology.Model
import Mathlib.Data.Finset.Card
import Mathlib.Order.Interval.Finset.Nat

/-!
# Where the BPF helpers agree with the topology

The helpers work out siblings, cores and nodes from a few numbers. The constructors only
look at the siblings of cpu 0 to find out how cpus are numbered.

* `Uniform` topologies have the same distance between siblings on all cores, and cores are
  named after their first cpu, as on a host. There the siblings and the cores agree.
* The nodes agree if in addition the numbering is not consecutive and the cores are spread
  evenly over the nodes in ascending order (`bpf_topology_agrees`).
* With consecutive numbering the helper compares the number of a cpu to a number of cores, so
  it is wrong even with one node (`numa_node_of_consecutive`).
-/

namespace BpfTopology

variable {t : Topology} {n c a b : ℕ}

/-! ## Cpu lists -/

namespace CpuList

variable {l : CpuList}

theorem mem_ids : c ∈ l.ids n ↔ c < n ∧ c ∈ l := by
  simp [ids]

theorem pairwise_ids (l : CpuList) (n : ℕ) : (l.ids n).Pairwise (· < ·) :=
  List.pairwise_lt_range.filter _

/-- A loop over two cpus. -/
theorem ids_pair (hab : a < b) (hb : b < n) : CpuList.ids n {a, b} = [a, b] := by
  refine (pairwise_ids _ n).eq_of_mem_iff (by simpa using hab) fun x => ?_
  grind [mem_ids]

theorem ids_singleton (ha : a < n) : CpuList.ids n {a} = [a] := by
  refine (pairwise_ids _ n).eq_of_mem_iff (by simp) fun x => ?_
  grind [mem_ids]

/-- A list of at most two cpus. -/
theorem eq_pair (hl : ∀ x ∈ l, x < n) (hc : c ∈ l) (htwo : (l.ids n).length ≤ 2) :
    ∃ s, l = {c, s} := by
  have hcard : l.card ≤ 2 := by
    have hfinset : (l.ids n).toFinset = l := by
      grind [List.mem_toFinset, mem_ids]
    calc l.card = (l.ids n).toFinset.card := by rw [hfinset]
      _ ≤ (l.ids n).length := List.toFinset_card_le _
      _ ≤ 2 := htwo
  have herase : (l.erase c).card ≤ 1 := by
    rw [Finset.card_erase_of_mem hc]
    omega
  rcases Finset.card_le_one_iff_subset_singleton.mp herase with ⟨s, hs⟩
  by_cases hsl : s ∈ l
  · refine ⟨s, Finset.Subset.antisymm ?_ ?_⟩
    · intro x hx
      by_cases hxc : x = c
      · simp [hxc]
      · have := hs (Finset.mem_erase.mpr ⟨hxc, hx⟩)
        simp_all
    · simp [Finset.insert_subset_iff, hc, hsl]
  · refine ⟨c, Finset.Subset.antisymm ?_ ?_⟩
    · intro x hx
      by_cases hxc : x = c
      · simp [hxc]
      · have hxs := Finset.mem_singleton.mp (hs (Finset.mem_erase.mpr ⟨hxc, hx⟩))
        exact absurd (hxs ▸ hx) hsl
    · simp [hc]

end CpuList

/-! ## Accepted topologies -/

/-- What all constructors check. -/
structure Checked (t : Topology) : Prop where
  bound : ∀ c < t.numCpus, ∀ s ∈ (t.cpus c).siblings, s < t.numCpus
  self : ∀ c < t.numCpus, c ∈ (t.cpus c).siblings
  same : ∀ c < t.numCpus, ∀ s ∈ (t.cpus c).siblings, (t.cpus c).siblings = (t.cpus s).siblings
  small : t.numCpus ≤ maxCpus
  node : ∀ c < t.numCpus, 0 ≤ (t.cpus c).numaNode ∧ (t.cpus c).numaNode < t.highestNodeIdx + 1
  numbering : checkConsecutiveSmtNumbering t.numCpus t.cpus = some t.consecutiveSmtNumbering

theorem checked_of_build {cpus : ℕ → CpuRep} {highest : ℤ} (h : build n cpus highest = some t)
    (hbound : ∀ c < n, ∀ s ∈ (cpus c).siblings, s < n) (hsmall : n ≤ maxCpus) : Checked t := by
  unfold build at h
  split_ifs at h with hchecks
  rcases Option.map_eq_some_iff.mp h with ⟨consecutive, hnumbering, rfl⟩
  constructor <;> grind [CheckSiblings, CheckNodes]

/-- Siblings that were read from files are cpus. -/
theorem getAllSiblings_bound {K : Type*} [DecidableEq K] {file : ℕ → Option K}
    {siblings : ℕ → CpuList} (h : getAllSiblings n file = some (some siblings)) :
    ∀ s ∈ siblings c, s < n := by
  unfold getAllSiblings at h
  split_ifs at h
  · cases h
  · obtain rfl := Option.some.inj (Option.some.inj h)
    exact fun s hs => Finset.mem_range.mp (Finset.mem_filter.mp hs).1

theorem checked_of_read {K : Type*} [DecidableEq K] {file : ℕ → Option K}
    {l3Siblings : Option (Option (ℕ → CpuList))} {numaNode : ℕ → ℤ → ℤ} {highest : ℤ}
    (h : readTopology n (getAllSiblings n file) l3Siblings numaNode highest = some t)
    (hsmall : n ≤ maxCpus) : Checked t := by
  unfold readTopology at h
  split at h
  · rename_i siblings l3 hsiblings
    exact checked_of_build h (fun c _ => getAllSiblings_bound hsiblings) hsmall
  · cases h

theorem Accepted.checked (h : Accepted t) : Checked t := by
  cases h with
  | host h =>
    rcases Option.ite_none_right_eq_some.mp h with ⟨hchecks, hread⟩
    exact checked_of_read hread hchecks.1
  | test h => exact checked_of_read (Option.filter_eq_some_iff.mp h).1 (show 112 ≤ 512 by decide)
  | @custom rawCpus _ h =>
    simp only [BpfTopology.custom] at h
    split_ifs at h with hchecks
    refine checked_of_build h (fun c hc s hs => ?_) hchecks.1
    rw [List.getElem?_eq_getElem hc] at hs
    simp only [Option.map_some, Option.getD_some, Raw.rep, List.mem_toFinset, List.mem_map] at hs
    rcases hs with ⟨x, hx, rfl⟩
    have hbound := (hchecks.2.2 (_, c) (List.mk_mem_zipIdx_iff_getElem?.mpr
      (List.getElem?_eq_getElem hc))).2.1 x hx
    omega

/-! ## Uniform topologies -/

/-- The first sibling of a cpu. -/
def Topology.firstSibling (t : Topology) (c : ℕ) : ℕ :=
  ((t.cpus c).siblings.ids t.numCpus).head?.getD 0

/-- The distance between the siblings of a cpu. It is 0 for a cpu without other siblings. -/
def Topology.offset (t : Topology) (c : ℕ) : ℕ :=
  ((t.cpus c).siblings.ids t.numCpus).getLast?.getD 0 - t.firstSibling c

/-- All cores have the same distance between their siblings, and cores are named after their first
cpu. -/
structure Uniform (t : Topology) : Prop where
  two : ∀ c < t.numCpus, ((t.cpus c).siblings.ids t.numCpus).length ≤ 2
  offset : ∀ c < t.numCpus, t.offset c = t.offset 0
  core : ∀ c < t.numCpus, (t.cpus c).core = t.firstSibling c

theorem offset_pair (hs : (t.cpus c).siblings = {a, b}) (hab : a < b) (hb : b < t.numCpus) :
    t.offset c = b - a ∧ t.firstSibling c = a := by
  simp [Topology.offset, Topology.firstSibling, hs, CpuList.ids_pair hab hb]

theorem offset_singleton (hs : (t.cpus c).siblings = {a}) (ha : a < t.numCpus) :
    t.offset c = 0 ∧ t.firstSibling c = a := by
  simp [Topology.offset, Topology.firstSibling, hs, CpuList.ids_singleton ha]

section Uniform

variable (h : Checked t) (hu : Uniform t)

include h in
theorem Checked.pos : 0 < t.numCpus := by
  rcases Nat.eq_zero_or_pos t.numCpus with hzero | hpos
  · have hnumbering := h.numbering
    simp [checkConsecutiveSmtNumbering, CpuList.ids, hzero] at hnumbering
  · exact hpos

include h hu in
/-- The siblings of a cpu are at the common distance. -/
theorem Uniform.siblings (hc : c < t.numCpus) :
    t.offset 0 = 0 ∧ (t.cpus c).siblings = {c} ∧ t.firstSibling c = c ∨
      0 < t.offset 0 ∧ c + t.offset 0 < t.numCpus ∧
        (t.cpus c).siblings = {c, c + t.offset 0} ∧ t.firstSibling c = c ∨
      0 < t.offset 0 ∧ t.offset 0 ≤ c ∧ (t.cpus c).siblings = {c - t.offset 0, c} ∧
        t.firstSibling c = c - t.offset 0 := by
  rcases CpuList.eq_pair (h.bound c hc) (h.self c hc) (hu.two c hc) with ⟨s, hs⟩
  have hsn : s < t.numCpus := h.bound c hc s (by simp [hs])
  rw [← hu.offset c hc]
  rcases Nat.lt_trichotomy c s with hlt | rfl | hlt
  · grind [offset_pair]
  · grind [offset_singleton]
  · grind [Finset.pair_comm, offset_pair]

include h hu in
/-- The siblings of cpu 0, and what follows for the numbers that the BPF side gets. -/
theorem Uniform.smtCount : t.offset 0 = 0 ∧ t.smtCount = 1 ∧ t.consecutiveSmtNumbering = false ∨
      t.offset 0 = 1 ∧ t.smtCount = 2 ∧ t.consecutiveSmtNumbering = true ∨
      1 < t.offset 0 ∧ t.smtCount = 2 ∧ t.consecutiveSmtNumbering = false ∧
        t.offset 0 = (allCores t.numCpus t.cpus).card := by
  have hnumbering := h.numbering
  unfold checkConsecutiveSmtNumbering at hnumbering
  rcases hu.siblings h h.pos with ⟨hzero, hs, -⟩ | ⟨hpos, hlt, hs, -⟩ | ⟨hpos, hle, -⟩
  · rw [hs, CpuList.ids_singleton h.pos] at hnumbering
    refine .inl ⟨hzero, ?_, (Option.some.inj hnumbering).symm⟩
    rw [Topology.smtCount, hs, CpuList.ids_singleton h.pos]
    rfl
  · rw [Nat.zero_add] at hs hlt
    have hcount : t.smtCount = 2 := by
      rw [Topology.smtCount, hs, CpuList.ids_pair hpos hlt]
      rfl
    rw [hs, CpuList.ids_pair hpos hlt] at hnumbering
    simp only [Nat.sub_zero] at hnumbering
    split_ifs at hnumbering with hone hcores
    · exact .inr (.inl ⟨hone, hcount, (Option.some.inj hnumbering).symm⟩)
    · exact .inr (.inr ⟨by omega, hcount, (Option.some.inj hnumbering).symm, hcores⟩)
  · omega

include h hu in
/-- At distance 1, the pairs start at even cpus. -/
theorem Uniform.consecutive (hone : t.offset 0 = 1) (k : ℕ) (hk : 2 * k < t.numCpus) :
    2 * k + 1 < t.numCpus ∧ (t.cpus (2 * k)).siblings = {2 * k, 2 * k + 1} := by
  induction k with
  | zero =>
    grind [hu.siblings]
  | succ k ih =>
    rcases ih (by omega) with ⟨hlt', hs'⟩
    rcases hu.siblings h hk with ⟨hzero, -⟩ | ⟨-, hlt, hs, -⟩ | ⟨-, -, hs, -⟩
    · omega
    · exact ⟨hone ▸ hlt, hone ▸ hs⟩
    · -- the cpu in front of it already has a sibling
      grind [cases BpfTopology.Checked]

include h hu in
/-- At a larger distance, the first half of the cpus are the first siblings. -/
theorem Uniform.halves (hlt : 1 < t.offset 0)
    (hcores : t.offset 0 = (allCores t.numCpus t.cpus).card) : t.numCpus = 2 * t.offset 0 := by
  have hsmall : ∀ c < t.offset 0, c < t.numCpus → c + t.offset 0 < t.numCpus ∧
      t.firstSibling c = c := by
    intro c hc hcn
    grind [hu.siblings, cases BpfTopology.Checked]
  have hoffset : t.offset 0 < t.numCpus := by
    have := (hsmall 0 (by omega) h.pos).1
    omega
  -- the cores are the first siblings, and there are as many of them as the distance says
  have hcard : ((Finset.range t.numCpus).image t.firstSibling).card = t.offset 0 := by
    have himage : allCores t.numCpus t.cpus =
        ((Finset.range t.numCpus).image t.firstSibling).image fun c : ℕ => (c : ℤ) := by
      rw [Finset.image_image, allCores]
      exact Finset.image_congr fun c hc => hu.core c (by simpa using hc)
    rw [hcores, himage, Finset.card_image_of_injective _ fun _ _ => Int.natCast_inj.mp]
  have hfirsts : Finset.range (t.offset 0) = (Finset.range t.numCpus).image t.firstSibling := by
    refine Finset.eq_of_subset_of_card_le (fun c hc => ?_) (by rw [hcard, Finset.card_range])
    have hc := Finset.mem_range.mp hc
    exact Finset.mem_image.mpr ⟨c, Finset.mem_range.mpr (by omega), (hsmall c hc (by omega)).2⟩
  have hlast : t.firstSibling (t.numCpus - 1) < t.offset 0 := by
    rw [← Finset.mem_range, hfirsts]
    exact Finset.mem_image_of_mem _ (Finset.mem_range.mpr (by omega))
  have hmiddle := (hsmall (t.offset 0 - 1) (by omega) (by omega)).1
  rcases hu.siblings h (show t.numCpus - 1 < t.numCpus by omega) with
    ⟨-, -, hfirst⟩ | ⟨-, -, -, hfirst⟩ | ⟨-, -, -, hfirst⟩ <;> omega

/-! ## Siblings and cores -/

include h hu in
/-- The siblings and the core that the helpers work out. -/
theorem Uniform.sibling_core (hc : c < t.numCpus) :
    (t.cpus c).siblings = {c, (setBpfTopologyVars t).siblingOf c} ∧
      (setBpfTopologyVars t).coreOf c = t.firstSibling c := by
  have hsmall := h.small
  -- additions do not overflow
  have hword : ∀ x < 2 * maxCpus, x % 4294967296 = x := by
    intro x hx
    exact Nat.mod_eq_of_lt (lt_of_lt_of_le hx (by decide))
  rcases hu.smtCount h with ⟨hzero, hcount, -⟩ | ⟨hone, hcount, hflag⟩ |
    ⟨hlt, hcount, hflag, hcores⟩
  · -- no SMT
    rcases hu.siblings h hc with ⟨-, hs, hfirst⟩ | ⟨hpos, -⟩ | ⟨hpos, -⟩
    · simp [setBpfTopologyVars, Rodata.siblingOf, Rodata.coreOf, hcount, hs, hfirst,
        Nat.mod_eq_of_lt hc]
    · omega
    · omega
  · obtain ⟨k, rfl | rfl⟩ : ∃ k, c = 2 * k ∨ c = 2 * k + 1 := ⟨c / 2, by omega⟩
    · rcases hu.consecutive h hone k hc with ⟨hlt, hs⟩
      have hfirst := (offset_pair hs (by omega) hlt).2
      simp [setBpfTopologyVars, Rodata.siblingOf, Rodata.coreOf, hcount, hflag, hs, hfirst,
        hword (2 * k + 1) (by omega)]
    · rcases hu.consecutive h hone k (by omega) with ⟨hlt, hs⟩
      have hs' : (t.cpus (2 * k + 1)).siblings = {2 * k, 2 * k + 1} := by
        rw [← h.same (2 * k) (by omega) (2 * k + 1) (by simp [hs]), hs]
      have hfirst := (offset_pair hs' (by omega) hlt).2
      have hodd : (2 * k + 1) % 2 = 1 := by omega
      simp [setBpfTopologyVars, Rodata.siblingOf, Rodata.coreOf, hcount, hflag, hs', hfirst, hodd,
        Finset.pair_comm]
  · have hhalves := hu.halves h hlt hcores
    have hnr : t.numCpus / 2 = t.offset 0 := by omega
    rcases hu.siblings h hc with ⟨hzero, -⟩ | ⟨-, hsum, hs, hfirst⟩ | ⟨-, hle, hs, hfirst⟩
    · omega
    · have hfst : ¬ t.offset 0 ≤ c := by omega
      simp [setBpfTopologyVars, Rodata.siblingOf, Rodata.coreOf, hcount, hflag, hs, hfirst, hnr,
        hfst, hword (c + t.offset 0) (by omega)]
    · simp [setBpfTopologyVars, Rodata.siblingOf, Rodata.coreOf, hcount, hflag, hs, hfirst, hnr,
        hle, Finset.pair_comm]

end Uniform

/-! ## Nodes -/

/-- A function that takes each of the first `k` values equally often, in ascending order. -/
theorem eq_div_of_even {m k q : ℕ} {f : ℕ → ℕ} (hmono : ∀ x y, y < m → x ≤ y → f x ≤ f y)
    (hlt : ∀ x < m, f x < k)
    (hcount : ∀ v < k, ((Finset.range m).filter fun x => f x = v).card = q) :
    m = k * q ∧ ∀ x < m, f x = x / q := by
  have hbelow : ∀ v ≤ k, ((Finset.range m).filter fun x => f x < v).card = v * q := by
    intro v hv
    induction v with
    | zero => simp
    | succ v ih =>
      have hsplit : ((Finset.range m).filter fun x => f x < v + 1) =
          ((Finset.range m).filter fun x => f x < v) ∪
            (Finset.range m).filter fun x => f x = v := by
        ext x
        simp only [Finset.mem_filter, Finset.mem_union, Finset.mem_range]
        omega
      have hdisj : Disjoint ((Finset.range m).filter fun x => f x < v)
          ((Finset.range m).filter fun x => f x = v) := by
        refine Finset.disjoint_filter.mpr fun x _ hx => ?_
        omega
      rw [hsplit, Finset.card_union_of_disjoint hdisj, ih (by omega), hcount v (by omega),
        Nat.succ_mul]
  constructor
  · have hall := hbelow k le_rfl
    rwa [Finset.filter_true_of_mem fun x hx => hlt x (Finset.mem_range.mp hx),
      Finset.card_range] at hall
  · intro x hx
    -- smaller values are taken in front of `x`, and nothing in front of it has a larger value
    have hlow : f x * q ≤ x := by
      rw [← hbelow (f x) (hlt x hx).le, ← Finset.card_range x]
      refine Finset.card_le_card fun y hy => ?_
      simp only [Finset.mem_filter, Finset.mem_range, Finset.card_range] at hy ⊢
      by_contra hle
      exact absurd (hmono x y hy.1 (by omega)) (by omega)
    have hhigh : x < (f x + 1) * q := by
      rw [← hbelow (f x + 1) (hlt x hx)]
      calc x < (Finset.range (x + 1)).card := by simp
        _ ≤ _ := Finset.card_le_card fun y hy => by
          simp only [Finset.mem_filter, Finset.mem_range] at hy ⊢
          have := hmono y x hx (by omega)
          omega
    exact (Nat.div_eq_of_lt_le hlow hhigh).symm

/-- The cores are spread evenly over the nodes in ascending order, and siblings are on the same
node. -/
structure EvenNodes (t : Topology) : Prop where
  siblings : ∀ c < t.numCpus, ∀ s ∈ (t.cpus c).siblings, (t.cpus s).numaNode = (t.cpus c).numaNode
  ascending : ∀ c < t.numCpus, ∀ c' < t.numCpus, (t.cpus c).core ≤ (t.cpus c').core →
    (t.cpus c).numaNode ≤ (t.cpus c').numaNode
  even : ∃ q, ∀ v, 0 ≤ v → v ≤ t.highestNodeIdx →
    (((Finset.range t.numCpus).filter fun c => (t.cpus c).numaNode = v).image
      fun c => (t.cpus c).core).card = q

section Nodes

variable (h : Checked t) (hu : Uniform t)

include h hu in
/-- Without consecutive numbering, the first siblings are the first cpus. -/
theorem Uniform.firstSiblings (hflag : t.consecutiveSmtNumbering = false) :
    0 < t.numCpus / t.smtCount ∧ ∀ c < t.numCpus, t.firstSibling c < t.numCpus / t.smtCount ∧
        t.firstSibling c ∈ (t.cpus c).siblings ∧
        (c < t.numCpus / t.smtCount → t.firstSibling c = c) := by
  have hpos := h.pos
  rcases hu.smtCount h with ⟨hzero, hcount, -⟩ | ⟨-, -, hflag'⟩ | ⟨hlt, hcount, -, hcores⟩
  · rw [hcount, Nat.div_one]
    refine ⟨hpos, fun c hc => ?_⟩
    grind [hu.siblings]
  · simp [hflag] at hflag'
  · constructor <;> grind [hu.halves, hu.siblings]

include h hu in
/-- The node that the helper works out. -/
theorem EvenNodes.numaNode (he : EvenNodes t) (hflag : t.consecutiveSmtNumbering = false)
    (hc : c < t.numCpus) :
    ((setBpfTopologyVars t).numaNodeOf c : ℤ) = (t.cpus c).numaNode := by
  rcases hu.firstSiblings h hflag with ⟨hm, hfirst⟩
  rcases he.even with ⟨q, hq⟩
  generalize hcores : t.numCpus / t.smtCount = m at hm hfirst
  have hmn : m ≤ t.numCpus := hcores ▸ Nat.div_le_self ..
  have hnode := h.node
  have hself : ∀ x < m, t.firstSibling x = x := fun x hx => (hfirst x (by omega)).2.2 hx
  have hcore : ∀ x < m, (t.cpus x).core = x := fun x hx => by
    rw [hu.core x (by omega), hself x hx]
  have heven := eq_div_of_even (m := m) (k := (t.highestNodeIdx + 1).toNat) (q := q)
    (f := fun x => (t.cpus x).numaNode.toNat) ?_ ?_ ?_
  · rcases heven with ⟨hmk, hdiv⟩
    -- there are not more nodes than cores
    have hk : (t.highestNodeIdx + 1).toNat % 2 ^ 32 = (t.highestNodeIdx + 1).toNat := by
      have hq : 0 < q := Nat.pos_of_mul_pos_left (hmk ▸ hm)
      have hle : (t.highestNodeIdx + 1).toNat ≤ m := hmk ▸ Nat.le_mul_of_pos_right _ hq
      have hsmall : t.numCpus ≤ 512 := h.small
      exact Nat.mod_eq_of_lt (by omega)
    have hkpos : 0 < (t.highestNodeIdx + 1).toNat := Nat.pos_of_mul_pos_right (hmk ▸ hm)
    have hper : m / (t.highestNodeIdx + 1).toNat = q := by
      rw [hmk, Nat.mul_div_cancel_left _ hkpos]
    have hx := (hfirst c hc).1
    have hnodes : (t.cpus c).numaNode.toNat = t.firstSibling c / q := by
      rw [← hdiv _ hx, ← he.siblings c hc _ (hfirst c hc).2.1]
    have hof : (setBpfTopologyVars t).numaNodeOf c = t.firstSibling c / q := by
      have hcoreOf := (hu.sibling_core h hc).2
      have hnuma : (setBpfTopologyVars t).nrNuma = (t.highestNodeIdx + 1).toNat := hk
      have hperNuma : (setBpfTopologyVars t).nrCoresPerNuma = q := by
        simp only [setBpfTopologyVars, Topology.numNumaNodes, hcores, hk, hper]
      simp only [Rodata.numaNodeOf, hcoreOf, hnuma, hperNuma]
      split_ifs with htwo hge
      · have hlt : t.firstSibling c < 2 * q :=
          lt_of_lt_of_le hx (hmk ▸ Nat.mul_le_mul_right q htwo)
        exact (Nat.div_eq_of_lt_le (by omega) (by omega)).symm
      · exact (Nat.div_eq_of_lt (by omega)).symm
      · rfl
    rw [hof, ← hnodes, Int.toNat_of_nonneg (hnode c hc).1]
  · intro x y hy hxy
    have hle := he.ascending x (by omega) y (by omega) (by
      rw [hcore x (by omega), hcore y hy]
      exact_mod_cast hxy)
    exact Int.toNat_le_toNat hle
  · intro x hx
    have := hnode x (by omega)
    omega
  · intro v hv
    rw [← hq v (by omega) (by omega), ← Finset.card_image_of_injective
      ((Finset.range m).filter fun x => (t.cpus x).numaNode.toNat = v)
      fun _ _ => Int.natCast_inj.mp]
    congr 1
    ext x
    simp only [Finset.mem_image, Finset.mem_filter, Finset.mem_range]
    constructor
    · rintro ⟨y, ⟨hy, hv'⟩, rfl⟩
      have := hnode y (by omega)
      exact ⟨y, ⟨by omega, by omega⟩, hcore y hy⟩
    · rintro ⟨y, ⟨hy, hv'⟩, rfl⟩
      rcases hfirst y hy with ⟨hlt, hmem, -⟩
      refine ⟨t.firstSibling y, ⟨hlt, ?_⟩, (hu.core y hy).symm⟩
      rw [he.siblings y hy _ hmem, hv', Int.toNat_natCast]

end Nodes

/-! ## Results -/

/-- On a uniform topology, `sibling_of` and `core_of` agree with the topology. Without consecutive
numbering `numa_node_of` does as well, if the cores are spread evenly over the nodes. -/
theorem bpf_topology_agrees (h : Accepted t) (hu : Uniform t) :
    (∀ c < t.numCpus, (t.cpus c).siblings = {c, (setBpfTopologyVars t).siblingOf c} ∧
      ((setBpfTopologyVars t).coreOf c : ℤ) = (t.cpus c).core) ∧
    (t.consecutiveSmtNumbering = false → EvenNodes t → ∀ c < t.numCpus,
      ((setBpfTopologyVars t).numaNodeOf c : ℤ) = (t.cpus c).numaNode) := by
  refine ⟨fun c hc => ?_, fun hflag he c hc => he.numaNode h.checked hu hflag hc⟩
  rcases hu.sibling_core h.checked hc with ⟨hs, hcore⟩
  exact ⟨hs, by rw [hcore, hu.core c hc]⟩

/-- A host with the given sibling files. -/
def hostOr (numCpus : ℕ) (file : ℕ → ℕ) (numaNodeOfCpu : ℕ → ℤ) (highestNodeIdx : ℤ) : Topology :=
  (host numCpus (fun c => some (file c)) (fun _ => some 0) numaNodeOfCpu highestNodeIdx).getD
    ⟨0, fun _ => ⟨0, ∅, ∅, 0⟩, 0, false⟩

/-- Four cpus on two cores, with one node for each of them. -/
def twoCores : Topology := hostOr 4 (· % 2) (fun c => (c % 2 : ℕ)) 1

theorem twoCores_accepted : Accepted twoCores :=
  .host (show host 4 (fun c => some (c % 2)) (fun _ => some 0) (fun c => ((c % 2 : ℕ) : ℤ)) 1 =
    some twoCores from rfl)

theorem twoCores_uniform : Uniform twoCores := ⟨by decide, by decide, by decide⟩

theorem twoCores_evenNodes : EvenNodes twoCores := by
  refine ⟨by decide, by decide, 1, fun v hv hv' => ?_⟩
  have hone : v ≤ 1 := hv'
  obtain rfl | rfl : v = 0 ∨ v = 1 := by omega
  · decide
  · decide

theorem bpf_topology_agrees_twoCores :
    (twoCores.cpus 3).siblings = {3, (setBpfTopologyVars twoCores).siblingOf 3} ∧
      (setBpfTopologyVars twoCores).siblingOf 3 = 1 ∧
      ((setBpfTopologyVars twoCores).numaNodeOf 3 : ℤ) = (twoCores.cpus 3).numaNode := by
  have hagrees := bpf_topology_agrees twoCores_accepted twoCores_uniform
  exact ⟨(hagrees.1 3 (by decide)).1, by decide, hagrees.2 rfl twoCores_evenNodes 3 (by decide)⟩

/-- Four cpus on two cores of one node, with consecutive numbering. -/
def consecutiveCores : Topology := hostOr 4 (· / 2) (fun _ => 0) 0

/-- Only the siblings of cpu 0 are consecutive. -/
def mixedCores : Topology := hostOr 6 (fun c => if c < 2 then 0 else c % 2 + 1) (fun _ => 0) 0

/-- With consecutive numbering a cpu of the only node is said to be on node 1. With a numbering that
is only consecutive for cpu 0, a cpu of another core is said to be a sibling. -/
theorem numa_node_of_consecutive : (Accepted consecutiveCores ∧ Uniform consecutiveCores ∧
      (setBpfTopologyVars consecutiveCores).numaNodeOf 2 = 1 ∧
      (consecutiveCores.cpus 2).numaNode = 0 ∧ consecutiveCores.highestNodeIdx = 0) ∧
    (Accepted mixedCores ∧ (∀ c < 6, (mixedCores.cpus c).siblings.card = 2) ∧
      (setBpfTopologyVars mixedCores).siblingOf 2 = 3 ∧ 3 ∉ (mixedCores.cpus 2).siblings) := by
  refine ⟨⟨.host (show host 4 (fun c => some (c / 2)) (fun _ => some 0) (fun _ => 0) 0 =
    some consecutiveCores from rfl), ⟨by decide, by decide, by decide⟩, by decide, by decide, rfl⟩,
    .host (show host 6 (fun c => some (if c < 2 then 0 else c % 2 + 1)) (fun _ => some 0)
      (fun _ => 0) 0 = some mixedCores from rfl), by decide, by decide, by decide⟩

end BpfTopology
