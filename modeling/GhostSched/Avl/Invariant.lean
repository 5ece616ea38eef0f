import GhostSched.Avl.Orphan

/-!
# The invariant of a tree with its orphan list

`Inv cfg s T O` says that the state `s` holds the tree `T` and the orphan list
`O`, and that everything the operations rely on is in place: order, height
bound, separation, orphan flags, and the cached ends of the sequence.
-/

namespace Avl

open BinaryTree

/-- The keys along a sequence of nodes do not decrease. -/
def SortedKeys (arr : Arr) (l : List ℕ) : Prop :=
  l.Pairwise fun i j => (arr i).key ≤ (arr j).key

variable {l : List ℕ}

theorem SortedKeys.congr {arr arr' : Arr} (h : SortedKeys arr l)
    (heq : ∀ j ∈ l, (arr' j).key = (arr j).key) : SortedKeys arr' l := by
  refine List.Pairwise.imp_of_mem ?_ h
  intro i j hi hj hij
  rw [heq i hi, heq j hj]
  exact hij

/-- `min_id`, `min_key`, `max_id` and `max_key` describe the two ends of the
in-order sequence `l`. -/
structure Cached (s : State) (l : List ℕ) : Prop where
  minId : s.tree.minId = avlPtrToId l.head?
  minKey : ∀ i, l.head? = some i → s.tree.minKey = (s.arr i).key
  maxId : s.tree.maxId = avlPtrToId l.getLast?
  maxKey : ∀ i, l.getLast? = some i → s.tree.maxKey = (s.arr i).key

variable {s s' : State}

/-- The caches only depend on the cache fields and on the keys. -/
theorem Cached.congr (h : Cached s l) (htree : s'.tree = { s.tree with
      root := s'.tree.root, firstOrphanId := s'.tree.firstOrphanId })
    (hkey : ∀ j ∈ l, (s'.arr j).key = (s.arr j).key) : Cached s' l where
  minId := by rw [htree]; exact h.minId
  minKey i hi := by
    rw [hkey i (List.mem_of_head? hi), htree]
    exact h.minKey i hi
  maxId := by rw [htree]; exact h.maxId
  maxKey i hi := by
    rw [hkey i (List.mem_of_getLast? hi), htree]
    exact h.maxKey i hi

/-- The state holds the tree `T` and the orphan list `O`. -/
structure Inv (cfg : Config) (s : State) (T : BinaryTree ℕ) (O : List ℕ) : Prop where
  rep : Rep s.arr 0 s.tree.root T
  sorted : SortedKeys s.arr T.inorder
  height : T.height ≤ cfg.maxAvlHeight
  nodup : (T.inorder ++ O).Nodup
  inTree : ∀ j ∈ T.inorder, (s.arr j).isOrphan = false
  orphaned : ∀ j ∈ O, (s.arr j).isOrphan = true
  orphans : OrphanList s O
  cached : cfg.caching = true → Cached s T.inorder
  asserted : s.asserted = false

/-- `s'` differs from `s` at most at `nodes`, and nowhere in a key. -/
structure Touches (s s' : State) (nodes : List ℕ) : Prop where
  frame : ∀ j, j ∉ nodes → s'.arr j = s.arr j
  key : ∀ j, (s'.arr j).key = (s.arr j).key

namespace Touches

variable {s s' s'' : State} {nodes nodes' : List ℕ}

theorem trans (h : Touches s s' nodes) (h' : Touches s' s'' nodes) : Touches s s'' nodes where
  frame j hj := (h'.frame j hj).trans (h.frame j hj)
  key j := (h'.key j).trans (h.key j)

theorem mono (h : Touches s s' nodes) (hsub : ∀ j ∈ nodes, j ∈ nodes') : Touches s s' nodes' where
  frame j hj := h.frame j fun hj' => hj (hsub j hj')
  key := h.key

theorem set (s : State) {i : ℕ} (hi : i ∈ nodes) {f : AvlNode → AvlNode}
    (hf : ∀ n, (f n).key = n.key) : Touches s (s.set i f) nodes where
  frame j hj := by
    apply State.set_arr_of_ne
    rintro rfl
    exact hj hi
  key j := by
    rw [State.set_arr]
    split
    · exact hf _
    · rfl

end Touches

variable {nodes : List ℕ}

section

variable (h : Relinks s s' nodes)
include h

theorem Relinks.key (j : ℕ) : (s'.arr j).key = (s.arr j).key :=
  congrArg Prod.fst (h.payload j)

theorem Relinks.isOrphan (j : ℕ) : (s'.arr j).isOrphan = (s.arr j).isOrphan :=
  congrArg (fun p => p.2.1) (h.payload j)

theorem Relinks.touches : Touches s s' nodes :=
  ⟨h.frame, h.key⟩

variable {O : List ℕ}

theorem Relinks.orphanList (hO : OrphanList s O) : OrphanList s' O := by
  have htree : s'.tree.firstOrphanId = s.tree.firstOrphanId := by rw [h.tree]
  rw [OrphanList, htree]
  refine OrphanSeg.congr hO fun j _ => ⟨?_, ?_⟩
  · exact congrArg (fun p => p.2.2.1) (h.payload j)
  · exact congrArg (fun p => p.2.2.2) (h.payload j)

end

theorem OrphanRelinks.key (h : OrphanRelinks s s' nodes) (j : ℕ) :
    (s'.arr j).key = (s.arr j).key := by
  have := congrArg AvlNode.key (h.body j)
  exact this

theorem OrphanRelinks.isOrphan (h : OrphanRelinks s s' nodes) (j : ℕ) :
    (s'.arr j).isOrphan = (s.arr j).isOrphan := by
  have := congrArg AvlNode.isOrphan (h.body j)
  exact this

theorem OrphanRelinks.touches (h : OrphanRelinks s s' nodes) : Touches s s' nodes :=
  ⟨h.frame, h.key⟩

variable {T : BinaryTree ℕ} {cfg : Config}

/-- The tree part of the invariant survives any change outside the tree. -/
theorem Inv.of_orphans {O' : List ℕ} (hI : Inv cfg s T O)
    (harr : ∀ j ∈ T.inorder, s'.arr j = s.arr j)
    (htree : s'.tree = { s.tree with firstOrphanId := s'.tree.firstOrphanId })
    (hassert : s'.asserted = s.asserted) (hnd : (T.inorder ++ O').Nodup)
    (horph : OrphanList s' O') (hflag : ∀ j ∈ O', (s'.arr j).isOrphan = true) :
    Inv cfg s' T O' where
  rep := by
    have : s'.tree.root = s.tree.root := by rw [htree]
    rw [this]
    exact hI.rep.congr harr
  sorted := hI.sorted.congr fun j hj => by rw [harr j hj]
  height := hI.height
  nodup := hnd
  inTree j hj := by rw [harr j hj]; exact hI.inTree j hj
  orphaned := hflag
  orphans := horph
  cached hc := (hI.cached hc).congr (by rw [htree]) fun j hj => by rw [harr j hj]
  asserted := hassert.trans hI.asserted

/-- A store to a node that is neither in the tree nor an orphan. -/
theorem Inv.set_fresh {node : ℕ} (hI : Inv cfg s T O) (hfresh : node ∉ T.inorder ++ O)
    (f : AvlNode → AvlNode) :
    Inv cfg (s.set node f) T O := by
  have hframe : ∀ j ∈ T.inorder ++ O, (s.set node f).arr j = s.arr j := by
    intro j hj
    apply State.set_arr_of_ne
    rintro rfl
    exact hfresh hj
  refine hI.of_orphans (fun j hj => hframe j (by simp [hj])) rfl rfl hI.nodup ?_ ?_
  · refine OrphanSeg.congr hI.orphans fun j hj => ?_
    rw [hframe j (by simp [hj])]
    exact ⟨rfl, rfl⟩
  · intro j hj
    rw [hframe j (by simp [hj])]
    exact hI.orphaned j hj

/-- The empty tree. -/
theorem inv_init (cfg : Config) (arr : Arr) : Inv cfg ⟨arr, .init, false⟩ .nil [] where
  rep := rfl
  sorted := List.Pairwise.nil
  height := Nat.zero_le _
  nodup := List.nodup_nil
  inTree := by simp
  orphaned := by simp
  orphans := rfl
  cached _ := ⟨rfl, by simp, rfl, by simp⟩
  asserted := rfl

end Avl
