import GhostSched.Lib.Transition
import GhostSched.Avl.Delete

/-!
# Whole runs of the tree

A run starts from the empty tree over an arbitrary array and applies any
sequence of insertions, deletions and pops. `Run` adds to the state of the
code the nodes that are inserted and not yet deleted or popped, in the order
of their insertion.

* `Good.step` says what one operation does, for every operation.
* By induction over the operations it gives the invariant of every state that
  a run reaches (`run_good`), from which the results about whole runs follow.
-/

namespace Avl

open BinaryTree

/-! ## Operations -/

/-- A call by the user of the tree. -/
inductive Op where
  | insert (node key : ℕ)
  | delete (node : ℕ)
  | popMin
  | popMax
deriving DecidableEq, Repr

/-- The state of the code together with the nodes that are in use. -/
structure Run where
  state : State
  live : List ℕ

/-- The empty tree over the array `arr`. -/
def start (arr : Arr) : Run := ⟨⟨arr, .init, false⟩, []⟩

/-- Set the key of an element, as a user does before `avl_tree_insert`. -/
def setKey (s : State) (node key : ℕ) : State :=
  s.set node fun n => { n with key := key }

/-- One operation and what it returns. Only array elements that are not in
use may be inserted, and only nodes in use may be deleted. -/
def step (cfg : Config) (arrSz : ℕ) (r : Run) : Op → Option (Run × Option ℕ)
  | .insert i key =>
    if i < arrSz ∧ i ∉ r.live then
      some (⟨avlTreeInsert cfg (setKey r.state i key) i, r.live ++ [i]⟩, none)
    else none
  | .delete i =>
    if i ∈ r.live then some (⟨avlTreeDelete cfg r.state i, r.live.erase i⟩, none)
    else none
  | .popMin =>
    match avlTreePopMin cfg r.state with
    | (s, none) => some (⟨s, r.live⟩, none)
    | (s, some i) => some (⟨s, r.live.erase i⟩, some i)
  | .popMax =>
    match avlTreePopMax cfg r.state with
    | (s, none) => some (⟨s, r.live⟩, none)
    | (s, some i) => some (⟨s, r.live.erase i⟩, some i)

/-- A sequence of operations from the empty tree over `arr`. -/
def run (cfg : Config) (arrSz : ℕ) (arr : Arr) (ops : List Op) : Option (Run × List (Option ℕ)) :=
  Transition.run (step cfg arrSz) (start arr) ops

/-! ## One operation -/

/-- The invariant of a run: the nodes in use are split between the tree `T`
and the orphan list `O`. -/
structure Good (cfg : Config) (arrSz : ℕ) (r : Run) (T : BinaryTree ℕ) (O : List ℕ) : Prop where
  inv : Inv cfg r.state T O
  perm : (T.inorder ++ O).Perm r.live
  bound : ∀ i ∈ r.live, i < arrSz

/-- What a pop that takes the end `i` does. -/
def Popped (cfg : Config) (arr : Arr) (i : Option ℕ) (T : BinaryTree ℕ) (O : List ℕ)
    (T' : BinaryTree ℕ) (O' : List ℕ) : Prop :=
  match i with
  | none => T' = T ∧ O' = O
  | some i => Deleted cfg arr i T O T' O'

/-- The effect of an operation and its result on the in-order sequence of the
tree and on the orphan list. -/
def Effect (cfg : Config) (arr : Arr) (op : Op) (out : Option ℕ) (T : BinaryTree ℕ) (O : List ℕ)
    (T' : BinaryTree ℕ) (O' : List ℕ) : Prop :=
  match op with
  | .insert i _ => Inserted cfg arr i T O T' O'
  | .delete i => Deleted cfg arr i T O T' O'
  | .popMin => out = T.inorder.head? ∧ Popped cfg arr out T O T' O'
  | .popMax => out = T.inorder.getLast? ∧ Popped cfg arr out T O T' O'

/-- Everything a later proof needs to know about one operation. -/
structure StepSpec (cfg : Config) (arrSz : ℕ) (r : Run) (op : Op) (r' : Run) (out : Option ℕ)
    (T : BinaryTree ℕ) (O : List ℕ) (T' : BinaryTree ℕ) (O' : List ℕ) : Prop where
  good : Good cfg arrSz r' T' O'
  effect : Effect cfg r'.state.arr op out T O T' O'
  /-- nodes that stay out of use are not touched -/
  frame : ∀ j, j ∉ r.live → j ∉ r'.live → r'.state.arr j = r.state.arr j
  /-- no operation changes a key, the caller's own store before an insertion apart -/
  key : ∀ j, j ∈ r.live → (r'.state.arr j).key = (r.state.arr j).key
  /-- a node that leaves is no orphan any more -/
  cleared : ∀ j, j ∈ r.live → j ∉ r'.live → (r'.state.arr j).isOrphan = false

section Step

variable {cfg : Config} {arrSz : ℕ} {r : Run} {T : BinaryTree ℕ} {O : List ℕ}

section

variable (hG : Good cfg arrSz r T O)
include hG

theorem Good.nodup : r.live.Nodup :=
  hG.perm.nodup_iff.mp hG.inv.nodup

variable {node : ℕ}

theorem Good.insert (hcfg : 1 ≤ cfg.maxAvlHeight) (hsz : arrSz < 2 ^ 32) {key : ℕ}
    (hnode : node < arrSz) (hfresh : node ∉ r.live) :
    ∃ T' O', StepSpec cfg arrSz r (.insert node key)
      ⟨avlTreeInsert cfg (setKey r.state node key) node, r.live ++ [node]⟩ none T O T' O' := by
  have hfresh' : node ∉ T.inorder ++ O := fun hj => hfresh (hG.perm.mem_iff.mp hj)
  have hI : Inv cfg (setKey r.state node key) T O := hG.inv.set_fresh hfresh' _
  obtain ⟨T', O', hI', hins, htouch⟩ := avlTreeInsert_spec hI hcfg (by omega) hfresh'
  have hset : ∀ j, j ≠ node → (setKey r.state node key).arr j = r.state.arr j := fun j hj =>
    State.set_arr_of_ne _ _ hj
  refine ⟨T', O', ⟨hI', ?_, ?_⟩, ?_, ?_, ?_, ?_⟩
  · grind [hins.perm, hG.perm]
  · intro i hi
    rcases List.mem_append.mp hi with hi | hi
    · exact hG.bound i hi
    · rw [List.mem_singleton.mp hi]
      exact hnode
  · exact hins.congr htouch.key
  · grind [htouch.frame, hG.perm.mem_iff]
  · intro j hj
    rw [htouch.key, hset]
    rintro rfl
    exact hfresh hj
  · intro j hj hj'
    exact absurd (List.mem_append_left _ hj) hj'

/-- Deleting a node in use, by `avl_tree_delete` or by a pop. -/
theorem Good.delete (hcfg : 1 ≤ cfg.maxAvlHeight) (hnode : node ∈ r.live) : ∃ T' O', ∀ op out,
      (Deleted cfg (avlTreeDelete cfg r.state node).arr node T O T' O' →
        Effect cfg (avlTreeDelete cfg r.state node).arr op out T O T' O') →
      StepSpec cfg arrSz r op ⟨avlTreeDelete cfg r.state node, r.live.erase node⟩
        out T O T' O' := by
  have hmem := hG.perm.mem_iff.mpr hnode
  obtain ⟨T', O', hI', hdel, hflag, htouch⟩ := avlTreeDelete_spec hG.inv hcfg hmem
  have hne : ∀ j, j ∈ r.live → j ∉ r.live.erase node → j = node := by
    intro j hj hj'
    by_contra hne
    exact hj' ((List.mem_erase_of_ne hne).mpr hj)
  refine ⟨T', O', fun op out heff => ⟨⟨hI', ?_, ?_⟩, heff (hdel.congr htouch.key), ?_, ?_, ?_⟩⟩
  · grind [hdel.perm, hG.perm]
  · exact fun i hi => hG.bound i (List.mem_of_mem_erase hi)
  · intro j hj hj'
    exact htouch.frame j fun h => hj (hG.perm.mem_iff.mp h)
  · exact fun j _ => htouch.key j
  · intro j hj hj'
    rw [hne j hj hj']
    exact hflag

variable {op : Op}

/-- A pop that finds the tree empty. -/
theorem Good.skip (heff : Effect cfg r.state.arr op none T O T O) :
    StepSpec cfg arrSz r op r none T O T O :=
  ⟨hG, heff, fun _ _ _ => rfl, fun _ _ => rfl, fun _ hj hj' => absurd hj hj'⟩

/-- What one operation does, for every operation. -/
theorem Good.step (hcfg : 1 ≤ cfg.maxAvlHeight) (hsz : arrSz < 2 ^ 32) {r' : Run} {out : Option ℕ}
    (h : step cfg arrSz r op = some (r', out)) :
    ∃ T' O', StepSpec cfg arrSz r op r' out T O T' O' := by
  cases op with
  | insert i key =>
    simp only [Avl.step] at h
    split at h
    · rename_i hg
      obtain ⟨rfl, rfl⟩ : _ = r' ∧ _ = out := by simpa using h
      exact hG.insert hcfg hsz hg.1 hg.2
    · cases h
  | delete i =>
    simp only [Avl.step] at h
    split at h
    · rename_i hg
      obtain ⟨rfl, rfl⟩ : _ = r' ∧ _ = out := by simpa using h
      obtain ⟨T', O', hspec⟩ := hG.delete hcfg hg
      exact ⟨T', O', hspec _ _ id⟩
    · cases h
  | popMin =>
    -- the empty tree, or a deletion
    simp only [Avl.step, avlTreePopMin, hG.inv.avlTreeMin] at h
    cases hmin : T.inorder.head? with
    | none =>
      rw [hmin] at h
      obtain ⟨rfl, rfl⟩ : r = r' ∧ none = out := by simpa using h
      exact ⟨T, O, hG.skip ⟨hmin.symm, rfl, rfl⟩⟩
    | some i =>
      rw [hmin] at h
      obtain ⟨rfl, rfl⟩ : _ = r' ∧ some i = out := by simpa using h
      have hi : i ∈ r.live := hG.perm.mem_iff.mp (List.mem_append_left _ (List.mem_of_head? hmin))
      obtain ⟨T', O', hspec⟩ := hG.delete hcfg hi
      exact ⟨T', O', hspec _ _ fun hdel => ⟨hmin.symm, hdel⟩⟩
  | popMax =>
    simp only [Avl.step, avlTreePopMax, hG.inv.avlTreeMax] at h
    cases hmax : T.inorder.getLast? with
    | none =>
      rw [hmax] at h
      obtain ⟨rfl, rfl⟩ : r = r' ∧ none = out := by simpa using h
      exact ⟨T, O, hG.skip ⟨hmax.symm, rfl, rfl⟩⟩
    | some i =>
      rw [hmax] at h
      obtain ⟨rfl, rfl⟩ : _ = r' ∧ some i = out := by simpa using h
      have hi : i ∈ r.live := hG.perm.mem_iff.mp
        (List.mem_append_left _ (List.mem_of_getLast? hmax))
      obtain ⟨T', O', hspec⟩ := hG.delete hcfg hi
      exact ⟨T', O', hspec _ _ fun hdel => ⟨hmax.symm, hdel⟩⟩

end

theorem good_start (cfg : Config) (arrSz : ℕ) (arr : Arr) : Good cfg arrSz (start arr) .nil [] :=
  ⟨inv_init cfg arr, List.Perm.refl _, by simp [start]⟩

end Step

/-! ## Every state of every run -/

section Runs

variable {cfg : Config} {arrSz : ℕ} {arr : Arr} {ops : List Op} {r : Run} {outs : List (Option ℕ)}

theorem run_good (hsz : arrSz < 2 ^ 32) (hcfg : 1 ≤ cfg.maxAvlHeight)
    (h : run cfg arrSz arr ops = some (r, outs)) : ∃ T O, Good cfg arrSz r T O := by
  refine Transition.run_induction (P := fun _ r _ => ∃ T O, Good cfg arrSz r T O)
    ⟨.nil, [], good_start cfg arrSz arr⟩ ?_ h
  rintro as t os a t' o - ⟨T, O, hG⟩ hstep
  obtain ⟨T', O', hspec⟩ := hG.step hcfg hsz hstep
  exact ⟨T', O', hspec.good⟩

/-- After every operation of every run over an array whose ids fit into an
`unsigned int`, the links describe a finite tree with sorted keys, correct
parent ids and balance fields, and bounded height, and no assertion or
impossible early return has been hit. -/
theorem run_tree_ok (hsz : arrSz < 2 ^ 32) (hcfg : 1 ≤ cfg.maxAvlHeight)
    (h : run cfg arrSz arr ops = some (r, outs)) :
    ∃ T, Rep r.state.arr 0 r.state.tree.root T ∧ T.inorder.Nodup ∧
      (∀ i ∈ T.inorder, i < arrSz) ∧ SortedKeys r.state.arr T.inorder ∧
      T.height ≤ cfg.maxAvlHeight ∧ r.state.asserted = false := by
  obtain ⟨T, O, hG⟩ := run_good hsz hcfg h
  refine ⟨T, hG.inv.rep, (List.nodup_append'.mp hG.inv.nodup).1, ?_, hG.inv.sorted,
    hG.inv.height, hG.inv.asserted⟩
  intro i hi
  exact hG.bound i (hG.perm.mem_iff.mp (List.mem_append_left O hi))

/-- In every state of every run a lookup finds a node of the tree with the key if there
is one, and the walk from `avl_tree_min` finds the nodes of the tree in order. With more
iterations than `MAX_AVL_HEIGHT` the results would be the same. -/
theorem run_searches_exact (hsz : arrSz < 2 ^ 32) (hcfg : 1 ≤ cfg.maxAvlHeight)
    (h : run cfg arrSz arr ops = some (r, outs)) :
    ∃ T, Rep r.state.arr 0 r.state.tree.root T ∧ T.height ≤ cfg.maxAvlHeight ∧ T.inorder.Nodup ∧
      (∀ key i, avlTreeLookup cfg r.state key = some i →
        i ∈ T.inorder ∧ (r.state.arr i).key = key) ∧
      (∀ key, (∃ i ∈ T.inorder, (r.state.arr i).key = key) → avlTreeLookup cfg r.state key ≠ none) ∧
      (∀ n, T.inorder.length ≤ n →
        walk (avlNextNode cfg r.state.arr) n (avlTreeMin cfg r.state) = T.inorder) ∧
      (∀ x ∈ T.inorder, ∀ y, avlNextNode cfg r.state.arr x = some y ↔
        y ∈ T.inorder ∧ avlPrevNode cfg r.state.arr y = some x) ∧
      (∀ y ∈ T.inorder, ∀ x, avlPrevNode cfg r.state.arr y = some x ↔
        x ∈ T.inorder ∧ avlNextNode cfg r.state.arr x = some y) ∧
      ∀ m, cfg.maxAvlHeight ≤ m → (∀ key, avlTreeLookup { cfg with maxAvlHeight := m } r.state key =
          avlTreeLookup cfg r.state key) ∧
        avlTreeMin { cfg with maxAvlHeight := m } r.state = avlTreeMin cfg r.state ∧
        ∀ x ∈ T.inorder, avlNextNode { cfg with maxAvlHeight := m } r.state.arr x =
            avlNextNode cfg r.state.arr x ∧
          avlPrevNode { cfg with maxAvlHeight := m } r.state.arr x =
            avlPrevNode cfg r.state.arr x := by
  obtain ⟨T, O, hG⟩ := run_good hsz hcfg h
  have hI := hG.inv
  have hlookup := fun key => lookupLoop_spec key hI.rep hI.sorted hI.height
  refine ⟨T, hI.rep, hI.height, (List.nodup_append'.mp hI.nodup).1, fun key => (hlookup key).1,
    ?_, ?_, ?_, ?_, ?_⟩
  · rintro key ⟨i, hi, hk⟩ hnone
    exact (hlookup key).2 hnone i hi hk
  · intro n hn
    rw [hI.avlTreeMin]
    exact hI.walk_next (List.nil_append _).symm hn
  · intro x hx y
    rw [hI.next_eq_some_iff hx]
    constructor
    · rintro ⟨l₁, l₂, hT⟩
      have hy : y ∈ T.inorder := by simp [hT]
      exact ⟨hy, (hI.prev_eq_some_iff hy).mpr ⟨l₁, l₂, hT⟩⟩
    · rintro ⟨hy, hprev⟩
      exact (hI.prev_eq_some_iff hy).mp hprev
  · intro y hy x
    rw [hI.prev_eq_some_iff hy]
    constructor
    · rintro ⟨l₁, l₂, hT⟩
      have hx : x ∈ T.inorder := by simp [hT]
      exact ⟨hx, (hI.next_eq_some_iff hx).mpr ⟨l₁, l₂, hT⟩⟩
    · rintro ⟨hx, hnext⟩
      exact (hI.next_eq_some_iff hx).mp hnext
  · intro m hm
    have hI' : Inv { cfg with maxAvlHeight := m } r.state T O :=
      { hI with height := hI.height.trans hm }
    refine ⟨fun key => lookupLoop_mono key hI.rep hI.height hm, ?_, ?_⟩
    · rw [hI'.avlTreeMin, hI.avlTreeMin]
    · intro x hx
      obtain ⟨l₁, l₂, hT⟩ := List.mem_iff_append.mp hx
      rw [(hI'.neighbours hT).1, (hI'.neighbours hT).2, (hI.neighbours hT).1, (hI.neighbours hT).2]
      exact ⟨rfl, rfl⟩

end Runs

/-- An array of zeroed elements. -/
def zeroArr : Arr := fun _ => ⟨0, 0, 0, 0, 0, false, 0, 0⟩

theorem run_tree_ok_three :
    ∃ r outs, run ⟨2, true⟩ 3 zeroArr [.insert 0 5, .insert 1 3, .insert 2 4, .popMin] =
        some (r, outs) ∧ outs = [none, none, none, some 1] ∧
      ∃ T, Rep r.state.arr 0 r.state.tree.root T ∧ T.inorder.Nodup ∧
        (∀ i ∈ T.inorder, i < 3) ∧ SortedKeys r.state.arr T.inorder ∧
        T.height ≤ 2 ∧ r.state.asserted = false := by
  refine ⟨_, _, rfl, by decide, ?_⟩
  exact @run_tree_ok ⟨2, true⟩ 3 zeroArr [.insert 0 5, .insert 1 3, .insert 2 4, .popMin] _ _
    (by decide) (by decide) rfl

/-- Two nodes with one key, on both sides of a third one. -/
theorem run_searches_exact_dup :
    ∃ r outs, run ⟨3, true⟩ 3 zeroArr [.insert 0 7, .insert 1 7, .insert 2 7] = some (r, outs) ∧
      avlTreeLookup ⟨3, true⟩ r.state 7 = some 1 ∧ avlTreeMin ⟨3, true⟩ r.state = some 0 ∧
      ∃ T, Rep r.state.arr 0 r.state.tree.root T ∧
        walk (avlNextNode ⟨3, true⟩ r.state.arr) T.inorder.length (some 0) = T.inorder := by
  refine ⟨_, _, rfl, by decide, by decide, ?_⟩
  obtain ⟨T, hT, -, -, -, -, hwalk, -⟩ := @run_searches_exact ⟨3, true⟩ 3 zeroArr
    [.insert 0 7, .insert 1 7, .insert 2 7] _ _ (by decide) (by decide) rfl
  exact ⟨T, hT, hwalk _ le_rfl⟩

/-- With `2 ^ 32` elements the last one gets the null id. When it has the least key, the
walk finds nothing, although the tree has a node, without children, and a lookup finds it. -/
theorem run_walk_misses :
    ∃ r outs, run ⟨23, true⟩ (2 ^ 32) zeroArr [.insert 0 5, .insert (2 ^ 32 - 1) 3] =
        some (r, outs) ∧
      r.state.tree.root = avlNodeToId 0 ∧ (r.state.arr 0).leftId = 0 ∧
      (r.state.arr 0).rightId = 0 ∧ avlTreeLookup ⟨23, true⟩ r.state 5 = some 0 ∧
      walk (avlNextNode ⟨23, true⟩ r.state.arr) 2 (avlTreeMin ⟨23, true⟩ r.state) = [] := by
  refine ⟨_, _, rfl, by decide, by decide, by decide, by decide, by decide⟩

/-- With `2 ^ 32` elements the last one gets the null id, and inserting it
leaves its parent with a balance that no child accounts for. -/
theorem run_tree_id_overflow :
    ∃ r outs, run ⟨23, true⟩ (2 ^ 32) zeroArr [.insert 0 0, .insert (2 ^ 32 - 1) 0] =
        some (r, outs) ∧
      ¬ ∃ T, Rep r.state.arr 0 r.state.tree.root T := by
  refine ⟨_, _, rfl, ?_⟩
  rintro ⟨T, hT⟩
  cases T with
  | nil => exact absurd (rep_nil.mp hT) (by decide)
  | node i l r =>
    obtain ⟨hid, hi, -, hb, -, -, hl, hr⟩ := hT
    obtain rfl : i = 0 := by
      rw [avlNodeToId_of_lt hi] at hid
      have : i + 1 = 1 := hid.symm
      omega
    rw [hl.id_eq_zero.mp (by decide), hr.id_eq_zero.mp (by decide)] at hb
    exact absurd hb (by decide)

/-! ## The tree as a stable sorted list

The tree and the orphan list partition the nodes in use, every operation acts
on the in-order sequence as on a sorted list that keeps equal keys in the
order of their insertion, and so equal keys are popped in that order unless
orphans get in between. -/

/-- No state along the operations has an orphan. -/
def NoOrphans (cfg : Config) (arrSz : ℕ) (arr : Arr) (ops : List Op) : Prop :=
  ∀ pre, pre <+: ops → ∀ r outs, run cfg arrSz arr pre = some (r, outs) →
    r.state.tree.firstOrphanId = 0

/-- The nodes of a sequence that have the key `k`. -/
def withKey (arr : Arr) (k : ℕ) (l : List ℕ) : List ℕ :=
  l.filter fun i => (arr i).key = k

theorem withKey_append (arr : Arr) (k : ℕ) (l m : List ℕ) :
    withKey arr k (l ++ m) = withKey arr k l ++ withKey arr k m :=
  List.filter_append ..

variable {l : List ℕ} {arr arr' : Arr} {k : ℕ}

theorem withKey_congr (h : ∀ j ∈ l, (arr' j).key = (arr j).key) :
    withKey arr' k l = withKey arr k l :=
  List.filter_congr fun j hj => by rw [h j hj]

variable {l' : List ℕ}

/-- Insertion behind the keys that are not larger appends to the nodes with
the same key and leaves the others alone. -/
theorem InsertedAfterLe.withKey {node : ℕ} (h : InsertedAfterLe arr node l l') :
    withKey arr k l' = withKey arr k l ++ withKey arr k [node] := by
  obtain ⟨l₁, l₂, rfl, rfl, h₁, h₂⟩ := h
  simp only [Avl.withKey, List.filter_append, List.filter_cons, List.filter_nil]
  by_cases hk : (arr node).key = k
  · grind [List.filter_eq_nil_iff]
  · simp [hk]

variable {x : ℕ}

/-- Removing the same node from two sequences that agree on a key. -/
theorem RemovedFrom.withKey_eq {m m' : List ℕ} (h : RemovedFrom x l l') (h' : RemovedFrom x m m')
    (hl : l.Nodup) (hm : m.Nodup) (heq : withKey arr k l = withKey arr k m) :
    withKey arr k l' = withKey arr k m' := by
  have herase : ∀ {l l' : List ℕ}, RemovedFrom x l l' → l.Nodup →
      withKey arr k l' = (withKey arr k l).erase x := by
    rintro _ _ ⟨l₁, l₂, rfl, rfl⟩ hnd
    have hx : x ∉ l₁ ++ l₂ := (List.nodup_cons.mp (List.nodup_middle.mp hnd)).1
    rw [List.mem_append, not_or] at hx
    simp only [withKey, List.filter_append, List.filter_cons]
    have hx₁ : x ∉ l₁.filter fun i => (arr i).key = k := fun hj => hx.1 (List.mem_filter.mp hj).1
    grind [List.erase_of_not_mem]
  rw [herase h hl, herase h' hm, heq]

theorem removedFrom_erase (hx : x ∈ l) (hnd : l.Nodup) : RemovedFrom x l (l.erase x) := by
  obtain ⟨l₁, l₂, rfl⟩ := List.append_of_mem hx
  grind [RemovedFrom]

/-- In every key the in-order sequence lists the nodes in use in the order of
their insertion. -/
def Stable (r : Run) (T : BinaryTree ℕ) : Prop :=
  ∀ k, withKey r.state.arr k T.inorder = withKey r.state.arr k r.live

section Stable

variable {cfg : Config} {arrSz : ℕ} {r r' : Run} {T T' : BinaryTree ℕ} {x : ℕ}

/-- A deletion that meets no orphan keeps the order. -/
theorem Stable.delete (hst : Stable r T) (hG : Good cfg arrSz r T []) (hx : x ∈ r.live)
    (hkey : ∀ j ∈ r.live, (arr' j).key = (r.state.arr j).key) {O' : List ℕ}
    (hdel : Deleted cfg arr' x T [] T' O') (k : ℕ) :
    withKey arr' k T'.inorder = withKey arr' k (r.live.erase x) := by
  have hndT : T.inorder.Nodup := (List.nodup_append'.mp hG.inv.nodup).1
  have hmemT : ∀ j, j ∈ T.inorder ↔ j ∈ r.live := by
    intro j
    rw [← hG.perm.mem_iff, List.append_nil]
  have hrem : RemovedFrom x T.inorder T'.inorder := by
    rcases hdel with ⟨-, l₁, l₂, h, -⟩ | ⟨T₁, hrem, ⟨-, rfl, -⟩ | ⟨o, O₁, h, -⟩⟩
    · simp at h
    · exact hrem
    · simp at h
  refine hrem.withKey_eq (removedFrom_erase hx hG.nodup) hndT hG.nodup ?_
  rw [withKey_congr fun j hj => hkey j ((hmemT j).mp hj), withKey_congr hkey]
  exact hst k

/-- An operation without orphans before and after keeps the order. -/
theorem Stable.step {op : Op} {out : Option ℕ} (hst : Stable r T)
    (hG : Good cfg arrSz r T []) (h : step cfg arrSz r op = some (r', out))
    (hspec : StepSpec cfg arrSz r op r' out T [] T' []) : Stable r' T' := by
  have hmemT : ∀ j, j ∈ T.inorder ↔ j ∈ r.live := by
    intro j
    rw [← hG.perm.mem_iff, List.append_nil]
  intro k
  cases op with
  | insert i key =>
    simp only [Avl.step] at h
    split at h
    · obtain ⟨rfl, rfl⟩ : _ = r' ∧ _ = out := by simpa using h
      rcases hspec.effect with ⟨-, hins⟩ | ⟨hO, -⟩
      · rw [hins.withKey, withKey_append, withKey_congr fun j hj => hspec.key j ((hmemT j).mp hj),
          withKey_congr hspec.key, hst k]
      · simp at hO
    · cases h
  | delete i =>
    simp only [Avl.step] at h
    split at h
    · rename_i hi
      obtain ⟨rfl, rfl⟩ : _ = r' ∧ _ = out := by simpa using h
      exact hst.delete hG hi hspec.key hspec.effect k
    · cases h
  | popMin =>
    obtain ⟨hout, hpop⟩ := hspec.effect
    simp only [Avl.step, avlTreePopMin, hG.inv.avlTreeMin, ← hout] at h
    cases out with
    | none =>
      obtain rfl : r = r' := by simpa using h
      rw [hpop.1]
      exact hst k
    | some i =>
      obtain rfl : _ = r' := by simpa using h
      have hi := (hmemT i).mp (List.mem_of_head? hout.symm)
      exact hst.delete hG hi hspec.key hpop k
  | popMax =>
    obtain ⟨hout, hpop⟩ := hspec.effect
    simp only [Avl.step, avlTreePopMax, hG.inv.avlTreeMax, ← hout] at h
    cases out with
    | none =>
      obtain rfl : r = r' := by simpa using h
      rw [hpop.1]
      exact hst k
    | some i =>
      obtain rfl : _ = r' := by simpa using h
      have hi := (hmemT i).mp (List.mem_of_getLast? hout.symm)
      exact hst.delete hG hi hspec.key hpop k

end Stable

section Runs

variable {cfg : Config} {arrSz : ℕ} {arr : Arr} {ops : List Op} {r : Run} {outs : List (Option ℕ)}

/-- The flags of all nodes that were ever inserted, or that were clear at the
start, and the order of equal keys. -/
theorem run_flags_stable (hsz : arrSz < 2 ^ 32) (hcfg : 1 ≤ cfg.maxAvlHeight)
    (h : run cfg arrSz arr ops = some (r, outs)) :
    ∃ T O, Good cfg arrSz r T O ∧ (∀ j, (arr j).isOrphan = false ∨ (∃ k, .insert j k ∈ ops) →
        ((r.state.arr j).isOrphan = true ↔ j ∈ O)) ∧
      (NoOrphans cfg arrSz arr ops → Stable r T) := by
  refine Transition.run_induction (P := fun ops r _ => ∃ T O, Good cfg arrSz r T O ∧
      (∀ j, (arr j).isOrphan = false ∨ (∃ k, .insert j k ∈ ops) →
        ((r.state.arr j).isOrphan = true ↔ j ∈ O)) ∧
      (NoOrphans cfg arrSz arr ops → Stable r T)) ?_ ?_ h
  · refine ⟨.nil, [], good_start cfg arrSz arr, ?_, fun _ _ => rfl⟩
    rintro j (hj | ⟨k, hj⟩)
    · simp [start, hj]
    · simp at hj
  · rintro as t os a t' o hrun ⟨T, O, hG, hflag, hst⟩ hstep
    obtain ⟨T', O', hspec⟩ := hG.step hcfg hsz hstep
    refine ⟨T', O', hspec.good, ?_, ?_⟩
    · intro j hj
      have hI' := hspec.good.inv
      by_cases hj' : j ∈ t'.live
      · -- in use afterwards: the flag tells the tree from the list
        rcases List.mem_append.mp (hspec.good.perm.mem_iff.mpr hj') with hT | hO
        · have hdis := (List.nodup_append'.mp hI'.nodup).2.2
          rw [hI'.inTree j hT]
          simpa using fun hO => hdis hT hO
        · rw [hI'.orphaned j hO]
          simpa using hO
      · have hO' : j ∉ O' := fun hO => hj' (hspec.good.perm.mem_iff.mp (List.mem_append_right _ hO))
        simp only [hO', iff_false, Bool.not_eq_true]
        by_cases hjl : j ∈ t.live
        · exact hspec.cleared j hjl hj'
        · -- not in use before or after
          have hO : j ∉ O := fun hO => hjl (hG.perm.mem_iff.mp (List.mem_append_right _ hO))
          rw [hspec.frame j hjl hj']
          have hj₀ : (arr j).isOrphan = false ∨ ∃ k, .insert j k ∈ as := by
            refine hj.imp id ?_
            rintro ⟨k, hk⟩
            rcases List.mem_append.mp hk with hk | hk
            · exact ⟨k, hk⟩
            · -- inserted by this very operation: it would be in use
              obtain rfl := List.mem_singleton.mp hk
              simp only [Avl.step] at hstep
              split at hstep
              · obtain ⟨rfl, -⟩ : _ = t' ∧ _ = o := by simpa using hstep
                exact absurd (List.mem_append_right _ (by simp)) hj'
              · cases hstep
          have := (hflag j hj₀).not.mpr hO
          simpa using this
    · intro hno
      have hrun' : run cfg arrSz arr (as ++ [a]) = some (t', os ++ [o]) :=
        Transition.run_concat.mpr ⟨t, os, o, hrun, hstep, rfl⟩
      obtain rfl : O = [] := (OrphanSeg.id_eq_zero hG.inv.orphans).mp
        (hno as (List.prefix_append as [a]) t os hrun)
      obtain rfl : O' = [] := (OrphanSeg.id_eq_zero hspec.good.inv.orphans).mp
        (hno _ (List.prefix_refl _) t' _ hrun')
      refine (hst fun pre hpre => hno pre (hpre.trans (List.prefix_append as [a]))).step hG
        hstep hspec

/-- In every state of every run the tree and the orphan list partition the
nodes in use, the flags and the list are consistent, the next operation acts
on the in-order sequence as on a sorted list, and without orphans `pop_min`
takes the earliest inserted among the nodes with its key. -/
theorem run_refines_sorted_list (hsz : arrSz < 2 ^ 32) (hcfg : 1 ≤ cfg.maxAvlHeight)
    (h : run cfg arrSz arr ops = some (r, outs)) :
    ∃ T O, Rep r.state.arr 0 r.state.tree.root T ∧ OrphanList r.state O ∧
      (T.inorder ++ O).Nodup ∧ (T.inorder ++ O).Perm r.live ∧
      (∀ j, (arr j).isOrphan = false ∨ (∃ k, .insert j k ∈ ops) →
        ((r.state.arr j).isOrphan = true ↔ j ∈ O)) ∧
      (∀ op r' out, step cfg arrSz r op = some (r', out) →
        ∃ T' O', Rep r'.state.arr 0 r'.state.tree.root T' ∧ OrphanList r'.state O' ∧
          Effect cfg r'.state.arr op out T O T' O') ∧
      (NoOrphans cfg arrSz arr ops → ∀ r' i, step cfg arrSz r .popMin = some (r', some i) →
        (withKey r.state.arr (r.state.arr i).key r.live).head? = some i) := by
  obtain ⟨T, O, hG, hflag, hst⟩ := run_flags_stable hsz hcfg h
  refine ⟨T, O, hG.inv.rep, hG.inv.orphans, hG.inv.nodup, hG.perm, hflag, ?_, ?_⟩
  · intro op r' out hstep
    obtain ⟨T', O', hspec⟩ := hG.step hcfg hsz hstep
    exact ⟨T', O', hspec.good.inv.rep, hspec.good.inv.orphans, hspec.effect⟩
  · intro hno r' i hstep
    obtain ⟨T', O', hspec⟩ := hG.step hcfg hsz hstep
    obtain ⟨hhead, -⟩ := hspec.effect
    rw [← hst hno]
    cases hl : T.inorder with
    | nil => simp [hl] at hhead
    | cons j l =>
      obtain rfl : i = j := by simpa [hl] using hhead
      simp [withKey]

end Runs

/-- Four equal keys in a tree of height two: the last one is an orphan. -/
theorem run_refines_sorted_list_four :
    ∃ r outs, run ⟨2, false⟩ 4 zeroArr [.insert 0 7, .insert 1 7, .insert 2 7, .insert 3 7] =
        some (r, outs) ∧ r.state.tree.firstOrphanId = 4 ∧
      ∃ T O, Rep r.state.arr 0 r.state.tree.root T ∧ OrphanList r.state O ∧
        (T.inorder ++ O).Perm [0, 1, 2, 3] ∧ ((r.state.arr 3).isOrphan = true ↔ 3 ∈ O) := by
  refine ⟨_, _, rfl, by decide, ?_⟩
  obtain ⟨T, O, hT, hO, -, hperm, hflag, -⟩ := @run_refines_sorted_list ⟨2, false⟩ 4 zeroArr
    [.insert 0 7, .insert 1 7, .insert 2 7, .insert 3 7] _ _ (by decide) (by decide) rfl
  exact ⟨T, O, hT, hO, hperm, hflag 3 (.inl rfl)⟩

/-- With `2 ^ 32` elements the last one gets the null id. Inserting it leaves
it in use, but neither in the tree, whose only node is element 0, nor on the
orphan list, which is empty. -/
theorem run_lost_node :
    ∃ r outs, run ⟨23, true⟩ (2 ^ 32) zeroArr [.insert 0 0, .insert (2 ^ 32 - 1) 0] =
        some (r, outs) ∧
      r.live = [0, 2 ^ 32 - 1] ∧ r.state.tree.root = avlNodeToId 0 ∧
      (r.state.arr 0).leftId = 0 ∧ (r.state.arr 0).rightId = 0 ∧
      r.state.tree.firstOrphanId = 0 ∧
      ¬ ∃ T O, Rep r.state.arr 0 r.state.tree.root T ∧ OrphanList r.state O ∧
        (T.inorder ++ O).Perm r.live := by
  refine ⟨_, _, rfl, by decide, by decide, by decide, by decide, by decide, ?_⟩
  rintro ⟨T, O, hT, hO, hperm⟩
  have hO : O = [] := (OrphanSeg.id_eq_zero hO).mp (by decide)
  have hmem : 2 ^ 32 - 1 ∈ T.inorder ++ O := hperm.mem_iff.mpr (by decide)
  rw [hO, List.append_nil] at hmem
  have := hT.lt_of_mem hmem
  omega

end Avl
