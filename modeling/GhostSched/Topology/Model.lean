import Mathlib.Algebra.Group.Nat.Defs
import Mathlib.Data.Finset.Sort
import Mathlib.Data.List.Sort

/-!
# The topology and its BPF variables

`Topology` of `lib/topology.h` with its three constructors, and the helpers of
`third_party/bpf/topology.bpf.h`, which get along with six numbers and a flag.

* A `CpuList` is a bitmap, so it is a finite set. A loop over it sees the cpus in
  ascending order.
* `build` is the part that the constructors share. It fails where a `CHECK` fails.
* What the constructors read from sysfs and libnuma is given to them: the contents of the
  sibling files, the node of each cpu and the highest node.
-/

namespace BpfTopology

/-- `MAX_CPUS`. -/
def maxCpus : ℕ := 512

abbrev CpuList := Finset ℕ

/-- The cpus that a loop over the list sees. -/
def CpuList.ids (numCpus : ℕ) (l : CpuList) : List ℕ :=
  (List.range numCpus).filter (· ∈ l)

/-- `Cpu::CpuRep`. -/
structure CpuRep where
  core : ℤ
  siblings : CpuList
  l3Siblings : CpuList
  numaNode : ℤ

structure Topology where
  numCpus : ℕ
  cpus : ℕ → CpuRep
  highestNodeIdx : ℤ
  consecutiveSmtNumbering : Bool

/-! ## Checks -/

section Checks

variable (numCpus : ℕ) (cpus : ℕ → CpuRep)

/-- `CheckSiblings`. -/
def CheckSiblings : Prop :=
  ∀ c < numCpus, c ∈ (cpus c).siblings ∧
    (∀ s ∈ (cpus c).siblings, (cpus c).siblings = (cpus s).siblings) ∧
    ∀ s ∈ (cpus c).l3Siblings, (cpus c).l3Siblings = (cpus s).l3Siblings

/-- The checks of `CreateCpuListsForNumaNodes`. -/
def CheckNodes (numPossibleNodes : ℤ) : Prop :=
  ∀ c < numCpus, 0 ≤ (cpus c).numaNode ∧ (cpus c).numaNode < numPossibleNodes

instance : Decidable (CheckSiblings numCpus cpus) :=
  inferInstanceAs (Decidable (∀ c < numCpus, _))

instance (numPossibleNodes : ℤ) : Decidable (CheckNodes numCpus cpus numPossibleNodes) :=
  inferInstanceAs (Decidable (∀ c < numCpus, _))

/-- `all_cores`. -/
def allCores : Finset ℤ := (Finset.range numCpus).image fun c => (cpus c).core

/-- `CheckConsecutiveSmtNumbering`, which looks at the siblings of cpu 0. -/
def checkConsecutiveSmtNumbering : Option Bool :=
  match (cpus 0).siblings.ids numCpus with
  | [_] => some false
  | [a, b] =>
    if b - a = 1 then some true
    else if b - a = (allCores numCpus cpus).card then some false
    else none
  | _ => none

/-- The end of each constructor. -/
def build (highestNodeIdx : ℤ) : Option Topology :=
  if CheckSiblings numCpus cpus ∧ CheckNodes numCpus cpus (highestNodeIdx + 1) then
    (checkConsecutiveSmtNumbering numCpus cpus).map fun consecutive =>
      ⟨numCpus, cpus, highestNodeIdx, consecutive⟩
  else none

end Checks

/-! ## Constructors -/

/-- `GetAllSiblings` for the contents of the files. Without siblings, all files are empty. -/
def getAllSiblings {K : Type*} [DecidableEq K] (numCpus : ℕ) (file : ℕ → Option K) :
    Option (Option (ℕ → CpuList)) :=
  if file 0 = none then some none
  else if ∃ c < numCpus, file c = none then none
  else some (some fun c => (Finset.range numCpus).filter fun c' => file c' = file c)

/-- The cpus of a topology whose siblings were read from files. The node may depend on the cpu and
on its core. -/
def readCpus (numCpus : ℕ) (siblings : ℕ → CpuList) (l3Siblings : Option (ℕ → CpuList))
    (numaNode : ℕ → ℤ → ℤ) (c : ℕ) : CpuRep :=
  let core : ℤ := (((siblings c).ids numCpus).head?.getD 0 : ℕ)
  { core := core
    siblings := siblings c
    l3Siblings := (l3Siblings.map (· c)).getD ∅
    numaNode := numaNode c core }

/-- A topology whose siblings were read from files. All cpus have siblings. -/
def readTopology (numCpus : ℕ) (siblings l3Siblings : Option (Option (ℕ → CpuList)))
    (numaNode : ℕ → ℤ → ℤ) (highestNodeIdx : ℤ) : Option Topology :=
  match siblings, l3Siblings with
  | some (some siblings), some l3Siblings =>
    build numCpus (readCpus numCpus siblings l3Siblings numaNode) highestNodeIdx
  | _, _ => none

/-- `Topology(InitHost)`. -/
def host {K : Type*} [DecidableEq K] (numCpus : ℕ) (threadSiblings sharedCpuList : ℕ → Option K)
    (numaNodeOfCpu : ℕ → ℤ) (highestNodeIdx : ℤ) : Option Topology :=
  if numCpus ≤ maxCpus ∧ ∀ c < numCpus, 0 ≤ numaNodeOfCpu c then
    readTopology numCpus (getAllSiblings numCpus threadSiblings)
      (getAllSiblings numCpus sharedCpuList) (fun c _ => numaNodeOfCpu c) highestNodeIdx
  else none

/-- `kNumTestCpus`. -/
def numTestCpus : ℕ := 112

/-- The file contents of `SetUpTestSiblings`. -/
def testThreadSiblings (useConsecutiveSmtNumbering : Bool) (c : ℕ) : Option ℕ :=
  some (if useConsecutiveSmtNumbering then c / 2 else c % (numTestCpus / 2))

def testSharedCpuList (hasL3Cache : Bool) (c : ℕ) : Option ℕ :=
  if hasL3Cache then some (c % (numTestCpus / 2) / (numTestCpus / 2 / 2)) else none

def testNumaNode (core : ℤ) : ℤ := if core < (numTestCpus / 4 : ℕ) then 0 else 1

/-- `Topology(InitTest)`. -/
def test (hasL3Cache useConsecutiveSmtNumbering : Bool) : Option Topology :=
  (readTopology numTestCpus
    (getAllSiblings numTestCpus (testThreadSiblings useConsecutiveSmtNumbering))
    (getAllSiblings numTestCpus (testSharedCpuList hasL3Cache)) (fun _ => testNumaNode) 1).filter
    fun t => t.consecutiveSmtNumbering == useConsecutiveSmtNumbering

/-- `Cpu::Raw`. -/
structure Raw where
  cpu : ℤ
  core : ℤ
  siblings : List ℤ
  l3Siblings : List ℤ
  numaNode : ℤ

/-- `CheckCustomTopology`. -/
def CheckCustomTopology (cpus : List Raw) : Prop :=
  cpus ≠ [] ∧ ∀ p ∈ cpus.zipIdx, p.1.cpu = (p.2 : ℤ) ∧
    (∀ s ∈ p.1.siblings, 0 ≤ s ∧ s < (cpus.length : ℤ)) ∧
    ∀ s ∈ p.1.l3Siblings, 0 ≤ s ∧ s < (cpus.length : ℤ)

instance (cpus : List Raw) : Decidable (CheckCustomTopology cpus) :=
  inferInstanceAs (Decidable (_ ∧ _))

def Raw.rep (r : Raw) : CpuRep :=
  { core := r.core
    siblings := (r.siblings.map Int.toNat).toFinset
    l3Siblings := (r.l3Siblings.map Int.toNat).toFinset
    numaNode := r.numaNode }

/-- `Topology(InitCustom)`. Cpus that are given twice do not pass the checks, so it does not matter
how the sort treats them. -/
def custom (rawCpus : List Raw) : Option Topology :=
  let rawCpus := rawCpus.insertionSort fun a b => a.cpu ≤ b.cpu
  if rawCpus.length ≤ maxCpus ∧ CheckCustomTopology rawCpus then
    build rawCpus.length (fun c => ((rawCpus[c]?).map Raw.rep).getD ⟨0, ∅, ∅, 0⟩)
      ((rawCpus.map Raw.numaNode).foldl max (-1))
  else none

/-- The topologies that one of the constructors accepts. -/
inductive Accepted : Topology → Prop where
  | host {K : Type} [DecidableEq K] {numCpus : ℕ} {threadSiblings sharedCpuList : ℕ → Option K}
    {numaNodeOfCpu : ℕ → ℤ} {highestNodeIdx : ℤ} {t : Topology} :
    host numCpus threadSiblings sharedCpuList numaNodeOfCpu highestNodeIdx = some t → Accepted t
  | test {hasL3Cache useConsecutiveSmtNumbering : Bool} {t : Topology} :
    test hasL3Cache useConsecutiveSmtNumbering = some t → Accepted t
  | custom {rawCpus : List Raw} {t : Topology} : custom rawCpus = some t → Accepted t

namespace Topology

variable (t : Topology)

/-- `smt_count`. -/
def smtCount : ℕ := ((t.cpus 0).siblings.ids t.numCpus).length

/-- `num_numa_nodes`, a `uint32_t`. -/
def numNumaNodes : ℕ := (t.highestNodeIdx + 1).toNat % 2 ^ 32

end Topology

/-! ## The BPF side -/

/-- The variables in the rodata map that the helpers read. -/
structure Rodata where
  nrCpus : ℕ
  nrSiblingsPerCore : ℕ
  nrNuma : ℕ
  nrCores : ℕ
  nrCoresPerNuma : ℕ
  consecutiveSmtNumbering : Bool

/-- `SetBpfTopologyVars`. -/
def setBpfTopologyVars (t : Topology) : Rodata :=
  { nrCpus := t.numCpus
    nrSiblingsPerCore := t.smtCount
    nrNuma := t.numNumaNodes
    nrCores := t.numCpus / t.smtCount
    nrCoresPerNuma := t.numCpus / t.smtCount / t.numNumaNodes
    consecutiveSmtNumbering := t.consecutiveSmtNumbering }

namespace Rodata

variable (v : Rodata)

/-- `sibling_of`. -/
def siblingOf (cpu : ℕ) : ℕ :=
  if v.nrSiblingsPerCore = 1 then cpu
  else if v.consecutiveSmtNumbering then
    if cpu % 2 = 0 then (cpu + 1) % 2 ^ 32 else cpu - 1
  else if cpu ≥ v.nrCores then cpu - v.nrCores
  else (cpu + v.nrCores) % 2 ^ 32

/-- `core_of`. -/
def coreOf (cpu : ℕ) : ℕ :=
  if v.nrSiblingsPerCore = 2 then
    if v.consecutiveSmtNumbering then
      if cpu % 2 = 0 then cpu else cpu - 1
    else if cpu ≥ v.nrCores then cpu - v.nrCores
    else cpu
  else cpu % v.nrCores

/-- `numa_node_of`. -/
def numaNodeOf (cpu : ℕ) : ℕ :=
  let coreId := v.coreOf cpu
  if v.nrNuma ≤ 2 then if coreId ≥ v.nrCoresPerNuma then 1 else 0
  else coreId / v.nrCoresPerNuma

end Rodata

end BpfTopology
