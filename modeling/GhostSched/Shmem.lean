import GhostSched.Lib.Transition
import Mathlib.Algebra.Group.Nat.Defs
import Mathlib.Data.Int.Notation

/-!
# Names of shared memory regions

A process creates named regions, and others find them by the links of its descriptors.

* `openGhostShmemFd` takes the first descriptor whose link starts with the name, and the
  links end in a text of the kernel.
* `createShmem` does not store the client version, so `connectShmem` finds a zero.
* `region_attached` is about all regions of a process whose names are apart, in every order
  of the scan. `names_clash` shows what happens otherwise.
-/

namespace Shmem

open Transition

/-! ## Model -/

abbrev Name := List Char

def kMemFdPrefix : Name := ['g', 'h', 'o', 's', 't', '-', 's', 'h', 'm', 'e', 'm', '-']

def kHeaderVersion : ℤ := 1

def kHeaderReservedBytes : ℕ := 4096

def kHugepageSize : ℕ := 2 * 1024 * 1024

structure InternalHeader where
  headerVersion : ℤ
  mappingSize : ℕ
  headerSize : ℕ
  clientSize : ℕ
  ready : Bool
  owningPid : ℕ
  clientVersion : ℤ

/-- A region, with the version and the name that it was created for. -/
structure Region where
  version : ℤ
  name : Name
  /-- `st_size` of the file. -/
  size : ℕ
  hdr : InternalHeader

/-- What the kernel puts after the name of a file without a path. -/
def deleted : Name := [' ', '(', 'd', 'e', 'l', 'e', 't', 'e', 'd', ')']

def needle (suffix : Name) : Name := ['/', 'm', 'e', 'm', 'f', 'd', ':'] ++ kMemFdPrefix ++ suffix

/-- A descriptor: the text of its link, and the region if it is one of a region. -/
abbrev Fd := Name × Option Region

structure Process where
  pid : ℕ
  regions : List Region
  /-- The links of the other descriptors. None of them is of a region of another process. -/
  others : List Name
  not_ghost : ∀ l ∈ others, ¬ needle [] <+: l

def Region.fd (r : Region) : Fd := (needle r.name ++ deleted, some r)

def Process.fds (p : Process) : List Fd := p.regions.map Region.fd ++ p.others.map (·, none)

/-- The directory is scanned in any order. -/
def openGhostShmemFd (scan : List Fd) (suffix : Name) : Option Fd :=
  scan.find? fun fd => (needle suffix).isPrefixOf fd.1

/-- `roundup2` to whole huge pages. Both sums are of type `size_t`. -/
def mapSize (size : ℕ) : ℕ :=
  ((size + kHeaderReservedBytes) % 2 ^ 64 + (kHugepageSize - 1)) % 2 ^ 64 / kHugepageSize *
    kHugepageSize

/-- The pages of a new file are zero, and `client_version` is not stored. -/
def Process.newRegion (p : Process) (version : ℤ) (suffix : Name) (size : ℕ) : Region :=
  ⟨version, suffix, mapSize size, kHeaderVersion, mapSize size, kHeaderReservedBytes,
    mapSize size - kHeaderReservedBytes, false, p.pid, 0⟩

/-- Nothing is returned if a `CHECK` fails. A mapping of no bytes cannot be made. -/
def createShmem (p : Process) (scan : List Fd) (version : ℤ) (suffix : Name) (size : ℕ) :
    Option Process :=
  if openGhostShmemFd scan suffix = none ∧ mapSize size < 4294967296 ∧ 0 < mapSize size then
    some { p with regions := p.newRegion version suffix size :: p.regions }
  else none

/-- How a call of `ConnectShmem` ends. -/
inductive Connected where
  | notFound
  /-- It waits for the region to be ready. -/
  | waiting
  | checkFailed
  | mapped (r : Region)

def connectShmem (scan : List Fd) (version : ℤ) (suffix : Name) (pid : ℕ) : Connected :=
  match openGhostShmemFd scan suffix with
  | some (_, some r) =>
    if r.hdr.ready = false then .waiting
    else if r.hdr.headerVersion = kHeaderVersion ∧ r.hdr.clientVersion = version ∧
        r.hdr.mappingSize = r.size ∧ r.hdr.headerSize = kHeaderReservedBytes ∧
        r.hdr.owningPid = pid then .mapped r
    else .checkFailed
  -- a file that is no region has no header
  | some (_, none) => .checkFailed
  | none => .notFound

inductive Action where
  | create (scan : List Fd) (version : ℤ) (name : Name) (size : ℕ)
  | markReady (name : Name)

def Region.markReady (r : Region) : Region := { r with hdr := { r.hdr with ready := true } }

def step (p : Process) : Action → Option Process
  | .create scan version name size => createShmem p scan version name size
  | .markReady name =>
    some { p with regions := p.regions.map fun r => if r.name = name then r.markReady else r }

/-- Neither name is a prefix of the link of the other one. -/
def Apart (n m : Name) : Prop := ¬ n <+: m ++ deleted ∧ ¬ m <+: n ++ deleted

/-- Each new name is apart from the names in use, and the scan sees all descriptors. -/
def Distinct (p : Process) : Action → Prop
  | .create scan _ name _ => scan.Perm p.fds ∧ ∀ r ∈ p.regions, Apart name r.name
  | .markReady _ => True

/-! ## Lookup -/

section

variable {p p' : Process} {scan : List Fd} {name : Name} {fd : Fd} {r : Region}

theorem needle_iff (n m : Name) : needle n <+: needle m ↔ n <+: m := by
  rw [needle, needle, List.prefix_append_right_inj]

theorem fd_iff (n : Name) (r : Region) : needle n <+: r.fd.1 ↔ n <+: r.name ++ deleted := by
  rw [← needle_iff n (r.name ++ deleted)]
  simp only [Region.fd, needle, List.append_assoc]

/-- What a lookup finds is a region whose link starts with the name. -/
theorem openGhostShmemFd_some (hscan : scan.Perm p.fds) (h : openGhostShmemFd scan name = some fd) :
    ∃ r ∈ p.regions, fd = r.fd ∧ name <+: r.name ++ deleted := by
  have hmatch : needle name <+: fd.1 := by simpa using List.find?_some h
  have hmem : fd ∈ p.fds := hscan.mem_iff.mp (List.mem_of_find?_eq_some h)
  rcases List.mem_append.mp hmem with hmem | hmem
  · obtain ⟨r, hr, rfl⟩ := List.mem_map.mp hmem
    exact ⟨r, hr, rfl, (fd_iff name r).mp hmatch⟩
  · obtain ⟨l, hl, rfl⟩ := List.mem_map.mp hmem
    -- the link of another descriptor does not even start with the prefix
    have hnil : needle [] <+: needle name := (needle_iff [] name).mpr List.nil_prefix
    exact absurd (hnil.trans hmatch) (p.not_ghost l hl)

structure Inv (p : Process) : Prop where
  unique : ∀ r ∈ p.regions, ∀ r' ∈ p.regions, r.name <+: r'.name ++ deleted → r = r'
  hdr : ∀ r ∈ p.regions, r.hdr.headerVersion = kHeaderVersion ∧ r.hdr.clientVersion = 0 ∧
    r.hdr.mappingSize = r.size ∧ r.hdr.headerSize = kHeaderReservedBytes ∧
    r.hdr.owningPid = p.pid

theorem Inv.step {a : Action} (h : Inv p) (hok : Distinct p a) (hs : step p a = some p') :
    Inv p' := by
  cases a with
  | create scan version name size =>
    obtain ⟨-, hs⟩ := Option.ite_none_right_eq_some.mp hs
    cases hs
    constructor
    · intro r hr r' hr' hpre
      rcases List.mem_cons.mp hr with rfl | hr <;> rcases List.mem_cons.mp hr' with rfl | hr'
      · rfl
      · exact absurd hpre (hok.2 r' hr').1
      · exact absurd hpre (hok.2 r hr).2
      · exact h.unique r hr r' hr' hpre
    · intro r hr
      rcases List.mem_cons.mp hr with rfl | hr
      · exact ⟨rfl, rfl, rfl, rfl, rfl⟩
      · exact h.hdr r hr
  | markReady name =>
    cases hs
    have hname : ∀ r : Region, (if r.name = name then r.markReady else r).name = r.name := by
      intro r
      split <;> rfl
    constructor
    · intro r hr r' hr' hpre
      obtain ⟨q, hq, rfl⟩ := List.mem_map.mp hr
      obtain ⟨q', hq', rfl⟩ := List.mem_map.mp hr'
      rw [hname, hname] at hpre
      rw [h.unique q hq q' hq' hpre]
    · intro r hr
      obtain ⟨q, hq, rfl⟩ := List.mem_map.mp hr
      split <;> exact h.hdr q hq

/-- A lookup of a region finds it. -/
theorem Inv.open_self (h : Inv p) (hr : r ∈ p.regions) (hscan : scan.Perm p.fds) :
    openGhostShmemFd scan r.name = some r.fd := by
  have hmem : r.fd ∈ scan := hscan.mem_iff.mpr (List.mem_append_left _ (List.mem_map_of_mem hr))
  have hself : needle r.name <+: r.fd.1 := (fd_iff r.name r).mpr (List.prefix_append _ _)
  have hfound : (openGhostShmemFd scan r.name).isSome = true :=
    List.find?_isSome.mpr ⟨r.fd, hmem, List.isPrefixOf_iff_prefix.mpr hself⟩
  obtain ⟨fd, hfd⟩ := Option.isSome_iff_exists.mp hfound
  obtain ⟨r', hr', rfl, hpre⟩ := openGhostShmemFd_some hscan hfd
  rw [hfd, h.unique r hr r' hr' hpre]

/-- If the names are apart, each region that was created for version zero is found and mapped, and
creating one more does not fail because of the others. -/
theorem region_attached {p₀ : Process} (h₀ : p₀.regions = []) (h : StepsWhen Distinct step p₀ p) :
    (∀ r ∈ p.regions, r.version = 0 → r.hdr.ready = true → ∀ scan : List Fd, scan.Perm p.fds →
      connectShmem scan r.version r.name p.pid = .mapped r) ∧
    ∀ scan version name size, Distinct p (.create scan version name size) →
      mapSize size < 4294967296 → 0 < mapSize size →
        (step p (.create scan version name size)).isSome = true := by
  have hinv : Inv p := h.invariant (fun _ _ _ hi hok hs => hi.step hok hs)
    ⟨by simp [h₀], by simp [h₀]⟩
  constructor
  · intro r hr hv hready scan hscan
    rw [connectShmem, hinv.open_self hr hscan, Region.fd, hv]
    simp only [hready, Bool.true_eq_false, if_false, if_pos (hinv.hdr r hr)]
  · intro scan version name size hdistinct hsize hpos
    have hnone : openGhostShmemFd scan name = none := by
      cases hopen : openGhostShmemFd scan name with
      | none => rfl
      | some fd =>
        obtain ⟨r, hr, -, hpre⟩ := openGhostShmemFd_some hdistinct.1 hopen
        exact absurd hpre (hdistinct.2 r hr).1
    rw [step, createShmem, if_pos ⟨hnone, hsize, hpos⟩]
    rfl

end

def process : Process := ⟨7, [], [['/', 'd', 'e', 'v', '/', 'n', 'u', 'l', 'l']], by decide⟩

/-- A process with one region that is ready. -/
def hosting (version : ℤ) (name : Name) : Process :=
  { process with regions := [(process.newRegion version name 100).markReady] }

theorem region_attached_blob : ∃ r, (hosting 0 ['a']).regions = [r] ∧
    connectShmem (hosting 0 ['a']).fds.reverse 0 ['a'] 7 = .mapped r :=
  ⟨_, rfl, (region_attached (show process.regions = [] from rfl)
    (.head (a := .create process.fds 0 ['a'] 100) ⟨.refl _, by simp [process]⟩ rfl
      (.head (a := .markReady ['a']) trivial rfl .refl))).1 _ List.mem_cons_self rfl rfl _
        (List.reverse_perm _)⟩

/-- A region with another version cannot be mapped, and a name that is a prefix of another one
cannot be used. -/
theorem names_clash : connectShmem (hosting 1 ['a']).fds 1 ['a'] 7 = .checkFailed ∧
    step (hosting 0 ['a', 'b']) (.create (hosting 0 ['a', 'b']).fds 0 ['a'] 100) = none :=
  ⟨rfl, rfl⟩

end Shmem
