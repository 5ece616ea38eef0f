import GhostSched.Shmem

/-!
# Layout of the priority table

Where the constructor of `PrioTable` puts the header, the two arrays and the stream in the shared
memory.

* Sizes are computed in 64 bits and the offsets in the header have 32. The only bound is the
  check of `createShmem` on the size of the mapping.
* Addresses are offsets from the start of the mapping, whose first page is the header of the
  region.
* `layout_disjoint` is about every table whose constructor returns.
-/

namespace PrioTable

open Shmem

/-! ## Model -/

/-- `ABSL_CACHELINE_SIZE` -/
def cachelineSize : ℕ := 64

/-- The size of `ghost_shmem_hdr`, `sched_item` and `work_class`: each has at most 64 bytes of
fields and is aligned to a cacheline. -/
def structSize : ℕ := 64

/-- The size of an `std::atomic<int>`, and of `stream` without its entries. -/
def intSize : ℕ := 4

/-- The stored fields of `ghost_shmem_hdr`. -/
structure Hdr where
  hdrlen : ℕ
  maplen : ℕ
  siNum : ℕ
  siOff : ℕ
  wcNum : ℕ
  wcOff : ℕ
  stCap : ℕ
  stOff : ℕ
  deriving DecidableEq

/-- Where the stream starts, before the check that it is a cacheline. -/
def streamStart (schedItems workClasses : UInt32) : ℕ :=
  structSize + structSize * schedItems.toNat + structSize * workClasses.toNat

def shmemSize (schedItems workClasses streamCapacity : UInt32) : ℕ :=
  streamStart schedItems workClasses + (intSize + intSize * streamCapacity.toNat)

def kPrioTableShmemName : Name := ['p', 'r', 'i', 'o', 't', 'a', 'b', 'l', 'e']

def kPrioTableVersion : ℤ := 0

/-- What is stored in a field of 32 bits. -/
def u32 (n : ℕ) : ℕ := n % 4294967296

def Hdr.init (numItems numClasses stCap : UInt32) : Hdr :=
  let siOff := structSize
  let wcOff := u32 (siOff + numItems.toNat * structSize)
  ⟨structSize, u32 (shmemSize numItems numClasses stCap), numItems.toNat, siOff,
    numClasses.toNat, wcOff, stCap.toNat, u32 (wcOff + numClasses.toNat * structSize)⟩

/-- The constructor: nothing is returned if a `CHECK` fails. -/
def construct (p : Process) (scan : List Fd) (numItems numClasses stCap : UInt32) :
    Option (Process × Hdr) :=
  if streamStart numItems numClasses % cachelineSize = 0 then
    (createShmem p scan kPrioTableVersion kPrioTableShmemName
      (shmemSize numItems numClasses stCap)).bind fun p' =>
        let hdr := Hdr.init numItems numClasses stCap
        if hdr.stOff % cachelineSize = 0 then some (p', hdr) else none
  else none

/-- Bytes of the mapping. -/
structure Bytes where
  start : ℕ
  size : ℕ

def Bytes.Disjoint (a b : Bytes) : Prop := a.start + a.size ≤ b.start ∨ b.start + b.size ≤ a.start

def Bytes.Within (a b : Bytes) : Prop := b.start ≤ a.start ∧ a.start + a.size ≤ b.start + b.size

/-- An element of an array of the table. -/
def element (off size i : ℕ) : Bytes := ⟨kHeaderReservedBytes + off + i * size, size⟩

/-- The whole array. -/
def array (off size num : ℕ) : Bytes := ⟨kHeaderReservedBytes + off, num * size⟩

namespace Hdr

variable (hdr : Hdr)

def schedItem (i : ℕ) : Bytes := element hdr.siOff structSize i

def workClass (i : ℕ) : Bytes := element hdr.wcOff structSize i

/-- An entry of the stream, after `scrape_all`. -/
def entry (i : ℕ) : Bytes := element (hdr.stOff + intSize) intSize i

/-- The header, the sched items, the work classes and the stream. -/
def parts : List Bytes :=
  [array 0 hdr.hdrlen 1, array hdr.siOff structSize hdr.siNum,
    array hdr.wcOff structSize hdr.wcNum, array hdr.stOff intSize (1 + hdr.stCap)]

end Hdr

/-! ## Result -/

theorem element_within {off size num i : ℕ} (h : i < num) :
    (element off size i).Within (array off size num) := by
  have hle := Nat.mul_le_mul_right size (Nat.succ_le_of_lt h)
  rw [Nat.succ_mul] at hle
  constructor
  · exact Nat.le_add_right _ _
  · simp only [element, array]
    omega

theorem element_disjoint {off size i j : ℕ} (h : i ≠ j) :
    (element off size i).Disjoint (element off size j) := by
  wlog hlt : i < j generalizing i j
  · exact (this h.symm (by omega)).symm
  have hle := Nat.mul_le_mul_right size (Nat.succ_le_of_lt hlt)
  rw [Nat.succ_mul] at hle
  left
  simp only [element]
  omega

theorem Hdr.entry_eq (hdr : Hdr) (i : ℕ) : hdr.entry i = element hdr.stOff intSize (i + 1) := by
  simp only [entry, element, Bytes.mk.injEq, and_true]
  rw [Nat.succ_mul]
  omega

/-- The size of a table is far from the end of the range of `size_t`. -/
theorem le_mapSize (numItems numClasses stCap : UInt32) :
    kHeaderReservedBytes + shmemSize numItems numClasses stCap ≤
      mapSize (shmemSize numItems numClasses stCap) := by
  have hitems := numItems.toNat_lt
  have hclasses := numClasses.toNat_lt
  have hcap := stCap.toNat_lt
  simp only [mapSize, kHeaderReservedBytes, kHugepageSize, shmemSize, streamStart, structSize,
    intSize]
  omega

/-- What the constructor has checked when it returns. -/
theorem construct_some {p p' : Process} {scan : List Fd} {numItems numClasses stCap : UInt32}
    {hdr : Hdr} (h : construct p scan numItems numClasses stCap = some (p', hdr)) :
    mapSize (shmemSize numItems numClasses stCap) < 4294967296 ∧
    hdr = Hdr.init numItems numClasses stCap ∧
    p'.regions = p.newRegion kPrioTableVersion kPrioTableShmemName
      (shmemSize numItems numClasses stCap) :: p.regions := by
  obtain ⟨-, h⟩ := Option.ite_none_right_eq_some.mp h
  obtain ⟨q, hq, h⟩ := Option.bind_eq_some_iff.mp h
  obtain ⟨⟨-, hsize, -⟩, hq⟩ := Option.ite_none_right_eq_some.mp hq
  obtain ⟨-, h⟩ := Option.ite_none_right_eq_some.mp h
  cases hq
  cases h
  exact ⟨hsize, rfl, rfl⟩

/-- No offset is truncated. -/
theorem Hdr.init_eq {numItems numClasses stCap : UInt32}
    (h : mapSize (shmemSize numItems numClasses stCap) < 4294967296) :
    Hdr.init numItems numClasses stCap = ⟨structSize, shmemSize numItems numClasses stCap,
      numItems.toNat, structSize, numClasses.toNat, structSize + numItems.toNat * structSize,
      stCap.toNat, streamStart numItems numClasses⟩ := by
  have hle := le_mapSize numItems numClasses stCap
  simp only [shmemSize, streamStart, structSize] at h hle
  simp only [Hdr.init, Hdr.mk.injEq, u32, shmemSize, streamStart, structSize, true_and]
  omega

/-- The objects are apart from each other, inside their range. -/
def Objects (object : ℕ → Bytes) (num : ℕ) (range : Bytes) : Prop :=
  ∀ i < num, (object i).Within range ∧ ∀ j < num, i ≠ j → (object i).Disjoint (object j)

theorem objects_of_array (off size num : ℕ) : Objects (element off size) num (array off size num) :=
  fun _ hi => ⟨element_within hi, fun _ _ hne => element_disjoint hne⟩

/-- The four parts of a table are apart from each other, start at a cacheline and lie behind the
header of the region in the mapping, and so do the objects in them. -/
theorem layout_disjoint {p p' : Process} {scan : List Fd} {numItems numClasses stCap : UInt32}
    {hdr : Hdr} (h : construct p scan numItems numClasses stCap = some (p', hdr)) :
    ∃ r, p'.regions = r :: p.regions ∧ hdr.parts.Pairwise Bytes.Disjoint ∧
      (∀ b ∈ hdr.parts, b.start % cachelineSize = 0 ∧
        b.Within ⟨kHeaderReservedBytes, r.size - kHeaderReservedBytes⟩) ∧
      hdr.maplen = shmemSize numItems numClasses stCap ∧
      hdr.wcOff = structSize + numItems.toNat * structSize ∧
      hdr.stOff = streamStart numItems numClasses ∧
      Objects hdr.schedItem numItems.toNat (array hdr.siOff structSize hdr.siNum) ∧
      Objects hdr.workClass numClasses.toNat (array hdr.wcOff structSize hdr.wcNum) ∧
      Objects hdr.entry stCap.toNat (array hdr.stOff intSize (1 + hdr.stCap)) := by
  obtain ⟨hsize, rfl, hregions⟩ := construct_some h
  have hle := le_mapSize numItems numClasses stCap
  rw [Hdr.init_eq hsize]
  refine ⟨_, hregions, ?_, ?_, rfl, rfl, rfl, objects_of_array _ _ _, objects_of_array _ _ _, ?_⟩
  · simp [Hdr.parts, Bytes.Disjoint, array, streamStart, structSize]
    omega
  · simp [shmemSize, streamStart, intSize, kHeaderReservedBytes, structSize] at hle
    simp [Hdr.parts, Bytes.Within, array, streamStart, cachelineSize, structSize, intSize,
      kHeaderReservedBytes, Process.newRegion, shmemSize]
    omega
  · -- an entry is an element of the array of integers that `scrape_all` is the first of
    intro i hi
    rw [Hdr.entry_eq]
    obtain ⟨hwithin, -⟩ := objects_of_array (streamStart numItems numClasses) intSize
      (1 + stCap.toNat) (i + 1) (by omega)
    refine ⟨hwithin, fun j _ hne => ?_⟩
    rw [Hdr.entry_eq]
    exact element_disjoint (by omega)

theorem layout_disjoint_small : ∃ p' hdr, construct process process.fds 2 1 11 = some (p', hdr) ∧
    hdr.parts.Pairwise Bytes.Disjoint := by
  obtain ⟨r, -, hdisjoint, -⟩ :=
    layout_disjoint (show construct process process.fds 2 1 11 = some (_, _) from rfl)
  exact ⟨_, _, rfl, hdisjoint⟩

end PrioTable
