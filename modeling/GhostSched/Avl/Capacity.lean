import GhostSched.Avl.Run

/-!
# The default height is never exceeded

With `MAX_AVL_HEIGHT = 23` an insertion can only be refused in a tree of
height 23. A balanced tree of that height has at least `fib 25 - 1 = 75024`
nodes, more than an array of 65536 elements can hold. So no node is ever
orphaned, and the searches see every node in use.
-/

namespace Avl

open BinaryTree

/-- The default `MAX_AVL_HEIGHT`. -/
def defaultMaxAvlHeight : ℕ := 23

section Capacity

variable {cfg : Config} {arrSz : ℕ} {r : Run} {T : BinaryTree ℕ} {O : List ℕ}

/-- The tree has no more nodes than the array has elements. -/
theorem Good.numNodes_le (hG : Good cfg arrSz r T O) : T.numNodes ≤ arrSz := by
  have hnd : T.inorder.Nodup := (List.nodup_append'.mp hG.inv.nodup).1
  have hsub : T.inorder ⊆ List.range arrSz := by
    intro i hi
    exact List.mem_range.mpr (hG.bound i (hG.perm.mem_iff.mp (List.mem_append_left O hi)))
  have := (hnd.subperm hsub).length_le
  rwa [length_inorder, List.length_range] at this

/-- A tree over at most 65536 elements is lower than the default bound. -/
theorem Good.height_lt (hG : Good cfg arrSz r T O) (hsz : arrSz ≤ 65536) :
    T.height < defaultMaxAvlHeight := by
  by_contra hge
  rw [not_lt] at hge
  have hfib : Nat.fib 25 = 75025 := by decide
  have hmono : Nat.fib 25 ≤ Nat.fib (T.height + 2) := Nat.fib_mono (by
    rw [defaultMaxAvlHeight] at hge
    omega)
  have := hG.inv.rep.balanced.fib_le
  have := hG.numNodes_le
  omega

/-- Without orphans, and with room in the tree, an operation leaves none. -/
theorem Effect.no_orphans {op : Op} {out : Option ℕ} {arr : Arr} {T' : BinaryTree ℕ}
    {O' : List ℕ} (h : Effect cfg arr op out T [] T' O') (hroom : T.height < cfg.maxAvlHeight) :
    O' = [] := by
  have hdel : ∀ i, Deleted cfg arr i T [] T' O' → O' = [] := by
    rintro i (⟨-, l₁, l₂, h, -⟩ | ⟨T₁, -, ⟨-, -, h⟩ | ⟨o, O₁, h, -⟩⟩)
    · simp at h
    · exact h
    · simp at h
  have hpop : ∀ i, Popped cfg arr i T [] T' O' → O' = [] := by
    intro i hi
    cases i with
    | none => exact hi.2
    | some i => exact hdel i hi
  cases op with
  | insert i key =>
    rcases h with ⟨h, -⟩ | ⟨-, -, h⟩
    · exact h
    · omega
  | delete i => exact hdel i h
  | popMin | popMax => exact hpop out h.2

end Capacity

section Runs

variable {c : Bool} {arrSz : ℕ} {arr : Arr} {ops : List Op} {r : Run} {outs : List (Option ℕ)}

theorem run_good_default (hsz : arrSz ≤ 65536)
    (h : run ⟨defaultMaxAvlHeight, c⟩ arrSz arr ops = some (r, outs)) :
    ∃ T, Good ⟨defaultMaxAvlHeight, c⟩ arrSz r T [] := by
  refine Transition.run_induction
    (P := fun _ r _ => ∃ T, Good ⟨defaultMaxAvlHeight, c⟩ arrSz r T [])
    ⟨.nil, good_start _ arrSz arr⟩ ?_ h
  rintro as t os a t' o - ⟨T, hG⟩ hstep
  obtain ⟨T', O', hspec⟩ := hG.step (show 1 ≤ defaultMaxAvlHeight by decide) (by omega) hstep
  obtain rfl := hspec.effect.no_orphans (hG.height_lt hsz)
  exact ⟨T', hspec.good⟩

/-- With the default height and at most 65536 elements there is never an
orphan, and minimum, maximum and lookup are exact over all nodes in use. -/
theorem run_default_exact (hsz : arrSz ≤ 65536)
    (h : run ⟨defaultMaxAvlHeight, c⟩ arrSz arr ops = some (r, outs)) :
    r.state.tree.firstOrphanId = 0 ∧ (∀ i ∈ r.live, (r.state.arr i).isOrphan = false) ∧
      (∀ i, avlTreeMin ⟨defaultMaxAvlHeight, c⟩ r.state = some i →
        i ∈ r.live ∧ ∀ j ∈ r.live, (r.state.arr i).key ≤ (r.state.arr j).key) ∧
      (avlTreeMin ⟨defaultMaxAvlHeight, c⟩ r.state = none → r.live = []) ∧
      (∀ i, avlTreeMax ⟨defaultMaxAvlHeight, c⟩ r.state = some i →
        i ∈ r.live ∧ ∀ j ∈ r.live, (r.state.arr j).key ≤ (r.state.arr i).key) ∧
      (avlTreeMax ⟨defaultMaxAvlHeight, c⟩ r.state = none → r.live = []) ∧
      (∀ key i, avlTreeLookup ⟨defaultMaxAvlHeight, c⟩ r.state key = some i →
        i ∈ r.live ∧ (r.state.arr i).key = key) ∧
      (∀ key, avlTreeLookup ⟨defaultMaxAvlHeight, c⟩ r.state key = none →
        ∀ j ∈ r.live, (r.state.arr j).key ≠ key) := by
  obtain ⟨T, hG⟩ := run_good_default hsz h
  have hmem : ∀ j, j ∈ r.live ↔ j ∈ T.inorder := by
    intro j
    rw [← hG.perm.mem_iff, List.append_nil]
  have hnil : T.inorder = [] → r.live = [] := by
    intro hT
    exact List.eq_nil_iff_forall_not_mem.mpr fun j hj => by simp [hmem, hT] at hj
  have hlookup := fun key => lookupLoop_spec key hG.inv.rep hG.inv.sorted hG.inv.height
  rw [hG.inv.avlTreeMin, hG.inv.avlTreeMax]
  refine ⟨(OrphanSeg.id_eq_zero hG.inv.orphans).mpr rfl,
    fun i hi => hG.inv.inTree i ((hmem i).mp hi), ?_, ?_, ?_, ?_, ?_, ?_⟩
  · -- the leftmost node has the least key
    intro i hi
    refine ⟨(hmem i).mpr (List.mem_of_head? hi), fun j hj => ?_⟩
    have hsort := hG.inv.sorted
    have hj := (hmem j).mp hj
    cases hl : T.inorder with
    | nil => simp [hl] at hi
    | cons a l =>
      obtain rfl : a = i := by simpa [hl] using hi
      rw [hl] at hsort hj
      rcases List.mem_cons.mp hj with rfl | hj
      · exact le_rfl
      · exact List.rel_of_pairwise_cons hsort hj
  · exact fun hi => hnil (List.head?_eq_none_iff.mp hi)
  · intro i hi
    refine ⟨(hmem i).mpr (List.mem_of_getLast? hi), fun j hj => ?_⟩
    have hsort := hG.inv.sorted
    have hj := (hmem j).mp hj
    rcases List.eq_nil_or_concat' T.inorder with hl | ⟨l, a, hl⟩
    · simp [hl] at hi
    · obtain rfl : a = i := by simpa [hl] using hi
      rw [hl] at hsort hj
      rcases List.mem_append.mp hj with hj | hj
      · exact (List.pairwise_append.mp hsort).2.2 j hj a (by simp)
      · rw [List.mem_singleton.mp hj]
  · exact fun hi => hnil (List.getLast?_eq_none_iff.mp hi)
  · intro key i hi
    obtain ⟨hm, hk⟩ := (hlookup key).1 i hi
    exact ⟨(hmem i).mpr hm, hk⟩
  · intro key hi j hj
    exact (hlookup key).2 hi j ((hmem j).mp hj)

theorem run_default_exact_three : ∃ r outs, run ⟨defaultMaxAvlHeight, true⟩ 65536 zeroArr
        [.insert 0 2, .insert 65535 1, .insert 7 2, .delete 0] = some (r, outs) ∧
      r.state.tree.firstOrphanId = 0 ∧
      avlTreeMin ⟨defaultMaxAvlHeight, true⟩ r.state = some 65535 ∧
      avlTreeLookup ⟨defaultMaxAvlHeight, true⟩ r.state 2 = some 7 := by
  refine ⟨_, _, rfl, ?_, by decide, by decide⟩
  exact (@run_default_exact true 65536 zeroArr
    [.insert 0 2, .insert 65535 1, .insert 7 2, .delete 0] _ _ (by decide) rfl).1

end Runs

end Avl
