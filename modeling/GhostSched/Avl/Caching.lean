import GhostSched.Avl.Run

/-!
# The caching build against the plain one

The build with `AVL_CACHING` keeps the ends of the in-order sequence in the
tree header; the `AVL_DISABLE_CACHING` build walks to them. `forget` drops the
cache fields of a state. Every function of the tree commutes with it, so the
two builds run in step and, by the invariant of the caches, return the same
nodes.
-/

namespace Avl

open BinaryTree

/-- The state as the build without caches sees it. -/
def State.forget (s : State) : State :=
  { s with tree := { s.tree with minId := 0, minKey := 0, maxId := 0, maxKey := 0 } }

/-! ## Forgetting commutes with the stores -/

namespace State

variable (s : State)

@[simp] theorem forget_arr : s.forget.arr = s.arr := by cases s; rfl

@[simp] theorem forget_root : s.forget.tree.root = s.tree.root := by cases s; rfl

@[simp] theorem forget_firstOrphanId : s.forget.tree.firstOrphanId = s.tree.firstOrphanId := by
  cases s; rfl

@[simp] theorem forget_set (i : ℕ) (f : AvlNode → AvlNode) :
    s.forget.set i f = (s.set i f).forget := by
  cases s; rfl

@[simp] theorem forget_setPtr (p : Option ℕ) (f : AvlNode → AvlNode) :
    s.forget.setPtr p f = (s.setPtr p f).forget := by
  cases p <;> rfl

@[simp] theorem forget_setBalance (i : ℕ) (b : Int) :
    s.forget.setBalance i b = (s.setBalance i b).forget := by
  cases s; rfl

@[simp] theorem forget_setParent (i id : ℕ) :
    s.forget.setParent i id = (s.setParent i id).forget := by
  cases s; rfl

@[simp] theorem forget_setRoot (id : ℕ) : s.forget.setRoot id = (s.setRoot id).forget := by
  cases s; rfl

@[simp] theorem forget_setFirstOrphan (id : ℕ) :
    s.forget.setFirstOrphan id = (s.setFirstOrphan id).forget := by
  cases s; rfl

@[simp] theorem forget_assert (b : Bool) : s.forget.assert b = (s.assert b).forget := by
  cases s; rfl

end State

/-! ## Forgetting commutes with the functions -/

section Functions

variable (s : State) (x z y node : ℕ)

/-- The list of orphans has no cache. -/
theorem insertOrphan_forget : insertOrphan s.forget node = (insertOrphan s node).forget := by
  simp [insertOrphan]

theorem removeOrphan_forget : removeOrphan s.forget node = (removeOrphan s node).forget := by
  simp only [removeOrphan, State.forget_arr, State.forget_firstOrphanId]
  split <;> simp

theorem popFirstOrphan_forget :
    popFirstOrphan s.forget = ((popFirstOrphan s).1.forget, (popFirstOrphan s).2) := by
  simp only [popFirstOrphan, State.forget_arr, State.forget_firstOrphanId]
  split <;> simp

/-- A rotation does not see the caches. -/
theorem avlRotate_forget (d : Side) :
    avlRotate d s.forget x z = ((avlRotate d s x z).1.forget, (avlRotate d s x z).2) := by
  simp [avlRotate]

theorem avlRotateTwice_forget :
    avlRotateTwice s.forget x z y = (avlRotateTwice s x z y).forget := by
  simp [avlRotateTwice]

theorem rebalance_forget (d : Side) :
    rebalance d s.forget x z = ((rebalance d s x z).1.forget, (rebalance d s x z).2) := by
  cases d with
  | left =>
    simp only [rebalance, avlRotateRight, avlRotateLeftRight, State.forget_arr]
    split
    · exact avlRotate_forget ..
    · split <;> simp [avlRotateTwice_forget]
  | right =>
    simp only [rebalance, avlRotateLeft, avlRotateRightLeft, State.forget_arr]
    split
    · exact avlRotate_forget ..
    · split <;> simp [avlRotateTwice_forget]

/-- Nor does the store that ends it. -/
theorem reconnect_forget (str xId pId : ℕ) :
    reconnect s.forget str xId pId = (reconnect s str xId pId).forget := by
  simp only [reconnect, State.forget_setParent, State.forget_arr]
  split
  · simp
  · split <;> simp

/-- Nor on the way up after an insertion. -/
theorem insertRetrace_forget (n : ℕ) (x : Option ℕ) (xId zId : ℕ) :
    insertRetrace n s.forget x xId z zId = (insertRetrace n s x xId z zId).forget := by
  induction n generalizing s x xId z zId with
  | zero => rfl
  | succ n ih =>
    cases x with
    | none => rfl
    | some x =>
      simp only [insertRetrace, State.forget_arr, State.forget_setBalance, rebalance_forget,
        reconnect_forget, ih]
      split
      · rfl
      · split <;> rfl

/-- Nor does a replacement. -/
theorem avlReplaceNode_forget (id : ℕ) :
    avlReplaceNode s.forget x id = (avlReplaceNode s x id).forget := by
  have hite : ∀ (c : Prop) [Decidable c] (a b : State),
      (if c then a.forget else b.forget) = (if c then a else b).forget := by
    intro c _ a b
    split <;> rfl
  simp only [avlReplaceNode, State.forget_arr]
  cases avlIdToNode (s.arr x).parentId <;>
    simp only [State.forget_set, State.forget_assert, hite, State.forget_arr, State.forget_setPtr,
      State.forget_setRoot]

theorem detachNext_forget :
    detachNext s.forget x y = ((detachNext s x y).1.forget, (detachNext s x y).2) := by
  simp only [detachNext, State.forget_arr, avlReplaceNode_forget, State.forget_set,
    State.forget_setParent, State.forget_assert]
  split
  · split
    · rfl
    · split <;> rfl
  · rfl

theorem takePlace_forget (u : Unlinked) :
    takePlace s.forget x y u = ((takePlace s x y u).1.forget, (takePlace s x y u).2) := by
  simp only [takePlace, State.forget_arr, avlReplaceNode_forget, State.forget_set,
    State.forget_setParent, State.forget_assert]
  split <;> rfl

/-- The walks do not depend on the build: they only use the height bound. -/
theorem avlNextNode_caching (m : ℕ) (arr : Arr) (c c' : Bool) :
    avlNextNode ⟨m, c⟩ arr x = avlNextNode ⟨m, c'⟩ arr x := rfl

/-- The caches are not read while a node is unlinked. -/
theorem unlink_forget (m : ℕ) (c c' : Bool) :
    unlink ⟨m, c⟩ s.forget x = ((unlink ⟨m, c'⟩ s x).1.forget, (unlink ⟨m, c'⟩ s x).2) := by
  simp only [unlink, State.forget_arr, avlReplaceNode_forget, State.forget_setBalance,
    detachNext_forget, State.forget_assert, avlNextNode_caching x m s.arr c c']
  split
  · rfl
  · split
    · rfl
    · split
      · rfl
      · rename_i next _
        rcases detachNext (s.setBalance next (s.arr x).balance) x next with ⟨s₁, _ | u⟩
        · rfl
        · exact takePlace_forget ..

/-- Nor on the way up after a deletion. -/
theorem deleteRetrace_forget (n : ℕ) (x : Option ℕ) (xId : ℕ) (fromTheLeft : Bool) :
    deleteRetrace n s.forget x xId fromTheLeft = ((deleteRetrace n s x xId fromTheLeft).1.forget,
        (deleteRetrace n s x xId fromTheLeft).2) := by
  induction n generalizing s x xId fromTheLeft with
  | zero => rfl
  | succ n ih =>
    cases x with
    | none => rfl
    | some x =>
      simp only [deleteRetrace, State.forget_arr, State.forget_setBalance, rebalance_forget,
        State.forget_setParent, reconnect_forget, ih, State.forget_assert]
      split
      · rfl
      · split
        · split <;> rfl
        · split
          · rfl
          · split
            · rfl
            · split <;> rfl

theorem resetNode_forget : resetNode s.forget node = (resetNode s node).forget := by
  simp [resetNode]

/-- Nor on the way down. -/
theorem findParent_forget (m : ℕ) (c c' : Bool) :
    findParent ⟨m, c⟩ s.forget node = findParent ⟨m, c'⟩ s node := by
  simp [findParent]

/-- An insertion writes the caches last. -/
theorem cacheInsert_forget (cfg : Config) : (cacheInsert cfg s node).forget = s.forget := by
  unfold cacheInsert
  split
  · dsimp only [State.forget]
    split <;> split <;> rfl
  · rfl

/-- A deletion writes the caches first. -/
theorem cacheDelete_forget (cfg : Config) : (cacheDelete cfg s node).forget = s.forget := by
  unfold cacheDelete advanceMax advanceMin
  split
  · split <;> split <;> rfl
  · rfl

/-- The build without caches does the same to the rest of the state. -/
theorem avlTreeInsert_forget (m : ℕ) (c : Bool) :
    avlTreeInsert ⟨m, false⟩ s.forget node = (avlTreeInsert ⟨m, c⟩ s node).forget := by
  have hroot : ∀ (t : State) (id : ℕ),
      (t.setRoot id).forget =
        ((if c = true then { t.setRoot id with tree := { (t.setRoot id).tree with
        minId := id, minKey := (t.arr node).key, maxId := id, maxKey := (t.arr node).key } }
        else t.setRoot id) : State).forget := by
    intro t id
    split <;> rfl
  simp only [avlTreeInsert, resetNode_forget, findParent_forget _ _ m false c, State.forget_assert,
    State.forget_set, State.forget_setParent, State.forget_setRoot]
  split
  · exact insertOrphan_forget ..
  · split
    · exact hroot _ _
    · rw [cacheInsert_forget, cacheInsert]
      simp only [Bool.false_eq_true, if_false]
      split <;> exact insertRetrace_forget ..

/-- A deletion does the same to the tree in both builds. -/
theorem avlTreeDelete_forget (m : ℕ) (c : Bool) :
    avlTreeDelete ⟨m, false⟩ s.forget node = (avlTreeDelete ⟨m, c⟩ s node).forget := by
  have hcache : cacheDelete ⟨m, false⟩ s.forget node = s.forget := by
    simp [cacheDelete]
  have hun := unlink_forget (cacheDelete ⟨m, c⟩ s node) node m false c
  rw [cacheDelete_forget] at hun
  simp only [avlTreeDelete, State.forget_arr, removeOrphan_forget, State.forget_set, hcache, hun]
  split
  · rfl
  · rcases unlink ⟨m, c⟩ (cacheDelete ⟨m, c⟩ s node) node with ⟨s₁, _ | u⟩
    · rfl
    · simp only [deleteRetrace_forget]
      rcases deleteRetrace m s₁ u.x u.xId u.fromTheLeft with ⟨s₂, _ | _⟩
      · rfl
      · simp only [popFirstOrphan_forget]
        rcases popFirstOrphan s₂ with ⟨s₃, _ | o⟩
        · rfl
        · exact avlTreeInsert_forget ..

end Functions

/-! ## The two builds in step -/

/-- The state of the plain build that corresponds to a state of the other. -/
def Run.forget (r : Run) : Run := ⟨r.state.forget, r.live⟩

section Builds

variable {m arrSz : ℕ} {arr : Arr} {ops : List Op} {r : Run} {outs : List (Option ℕ)}

/-- Both builds find the ends of the in-order sequence. -/
theorem Good.forget {T : BinaryTree ℕ} {O : List ℕ} (hG : Good ⟨m, true⟩ arrSz r T O) :
    Inv ⟨m, false⟩ r.state.forget T O where
  rep := hG.inv.rep
  sorted := hG.inv.sorted
  height := hG.inv.height
  nodup := hG.inv.nodup
  inTree := hG.inv.inTree
  orphaned := hG.inv.orphaned
  orphans := hG.inv.orphans
  cached := by simp
  asserted := hG.inv.asserted

/-- One operation of the caching build is one of the plain build, with the
same result. -/
theorem step_forget {T : BinaryTree ℕ} {O : List ℕ} (hG : Good ⟨m, true⟩ arrSz r T O)
    {op : Op} {r' : Run} {out : Option ℕ}
    (h : step ⟨m, true⟩ arrSz r op = some (r', out)) :
    step ⟨m, false⟩ arrSz r.forget op = some (r'.forget, out) := by
  have hmin : avlTreeMin ⟨m, false⟩ r.state.forget = avlTreeMin ⟨m, true⟩ r.state := by
    rw [hG.forget.avlTreeMin, hG.inv.avlTreeMin]
  have hmax : avlTreeMax ⟨m, false⟩ r.state.forget = avlTreeMax ⟨m, true⟩ r.state := by
    rw [hG.forget.avlTreeMax, hG.inv.avlTreeMax]
  cases op with
  | insert i key =>
    simp only [step] at h ⊢
    split at h
    · rename_i hg
      obtain ⟨rfl, rfl⟩ : _ = r' ∧ _ = out := by simpa using h
      have hg' : i < arrSz ∧ i ∉ r.forget.live := hg
      rw [if_pos hg']
      simp only [Run.forget, setKey, State.forget_set, avlTreeInsert_forget _ _ m true]
    · cases h
  | delete i =>
    simp only [step] at h ⊢
    split at h
    · rename_i hg
      obtain ⟨rfl, rfl⟩ : _ = r' ∧ _ = out := by simpa using h
      have hg' : i ∈ r.forget.live := hg
      rw [if_pos hg']
      simp only [Run.forget, avlTreeDelete_forget _ _ m true]
    · cases h
  | popMin =>
    simp only [step, avlTreePopMin, Run.forget, hmin] at h ⊢
    cases hq : avlTreeMin ⟨m, true⟩ r.state with
    | none =>
      rw [hq] at h
      obtain ⟨rfl, rfl⟩ : _ = r' ∧ _ = out := by simpa using h
      rfl
    | some i =>
      rw [hq] at h
      obtain ⟨rfl, rfl⟩ : _ = r' ∧ _ = out := by simpa using h
      simp only [avlTreeDelete_forget _ _ m true]
  | popMax =>
    simp only [step, avlTreePopMax, Run.forget, hmax] at h ⊢
    cases hq : avlTreeMax ⟨m, true⟩ r.state with
    | none =>
      rw [hq] at h
      obtain ⟨rfl, rfl⟩ : _ = r' ∧ _ = out := by simpa using h
      rfl
    | some i =>
      rw [hq] at h
      obtain ⟨rfl, rfl⟩ : _ = r' ∧ _ = out := by simpa using h
      simp only [avlTreeDelete_forget _ _ m true]

/-- In every state of every run of the caching build the caches are exact, and
the plain build goes through the same sequence with the same results and then
agrees on the minimum and the maximum. -/
theorem run_caches_exact (hsz : arrSz < 2 ^ 32) (hm : 1 ≤ m)
    (h : run ⟨m, true⟩ arrSz arr ops = some (r, outs)) :
    ∃ T, Rep r.state.arr 0 r.state.tree.root T ∧
      (r.state.tree.minId = 0 ↔ T = .nil) ∧ (r.state.tree.maxId = 0 ↔ T = .nil) ∧
      Cached r.state T.inorder ∧
      ∃ r', run ⟨m, false⟩ arrSz arr ops = some (r', outs) ∧
        avlTreeMin ⟨m, true⟩ r.state = avlTreeMin ⟨m, false⟩ r'.state ∧
        avlTreeMax ⟨m, true⟩ r.state = avlTreeMax ⟨m, false⟩ r'.state := by
  obtain ⟨T, O, hG⟩ := run_good hsz hm h
  have hc := hG.inv.cached rfl
  have hptr : ∀ q : Option ℕ, (∀ j, q = some j → j ∈ T.inorder) →
      (avlPtrToId q = 0 ↔ q = none) := by
    intro q hq
    cases q with
    | none => simp [avlPtrToId]
    | some j => simpa [avlPtrToId] using avlNodeToId_ne_zero (hG.inv.rep.lt_of_mem (hq j rfl))
  refine ⟨T, hG.inv.rep, ?_, ?_, hc, ?_⟩
  · rw [hc.minId, hptr _ fun j hj => List.mem_of_head? hj, List.head?_eq_none_iff, inorder_eq_nil]
  · rw [hc.maxId, hptr _ fun j hj => List.mem_of_getLast? hj, List.getLast?_eq_none_iff,
      inorder_eq_nil]
  · have hsim : ∀ s t a s' o, (t = s.forget ∧ ∃ T O, Good ⟨m, true⟩ arrSz s T O) →
        step ⟨m, true⟩ arrSz s a = some (s', o) →
        ∃ t', step ⟨m, false⟩ arrSz t a = some (t', o) ∧
          (t' = s'.forget ∧ ∃ T O, Good ⟨m, true⟩ arrSz s' T O) := by
      rintro s _ a s' o ⟨rfl, T, O, hG⟩ hstep
      obtain ⟨T', O', hspec⟩ := hG.step hm hsz hstep
      exact ⟨_, step_forget hG hstep, rfl, T', O', hspec.good⟩
    obtain ⟨r', hr', rfl, -⟩ := Transition.run_simulation hsim
      ⟨rfl, .nil, [], good_start ⟨m, true⟩ arrSz arr⟩ h
    refine ⟨r.forget, hr', ?_, ?_⟩
    · exact hG.inv.avlTreeMin.trans hG.forget.avlTreeMin.symm
    · exact hG.inv.avlTreeMax.trans hG.forget.avlTreeMax.symm

end Builds

/-- A duplicate of the minimum, an orphan promotion and a pop. -/
theorem run_caches_exact_dup :
    ∃ r outs, run ⟨1, true⟩ 3 zeroArr [.insert 0 4, .insert 1 4, .popMin] = some (r, outs) ∧
      ∃ T, Rep r.state.arr 0 r.state.tree.root T ∧ Cached r.state T.inorder ∧
        ∃ r', run ⟨1, false⟩ 3 zeroArr [.insert 0 4, .insert 1 4, .popMin] = some (r', outs) := by
  refine ⟨_, _, rfl, ?_⟩
  obtain ⟨T, hT, -, -, hc, r', hr', -⟩ := @run_caches_exact 1 3 zeroArr
    [.insert 0 4, .insert 1 4, .popMin] _ _ (by decide) (by decide) rfl
  exact ⟨T, hT, hc, r', hr'⟩

/-- With `2 ^ 32` elements the last one gets the null id: inserted as the new
minimum it clears `min_id` although the tree is not empty. -/
theorem run_min_cache_lost :
    ∃ r outs, run ⟨23, true⟩ (2 ^ 32) zeroArr [.insert 0 5, .insert (2 ^ 32 - 1) 3] =
        some (r, outs) ∧
      r.state.tree.minId = 0 ∧ r.state.tree.root = avlNodeToId 0 ∧
      avlTreeMin ⟨23, true⟩ r.state = none ∧
      ∃ r', run ⟨23, false⟩ (2 ^ 32) zeroArr [.insert 0 5, .insert (2 ^ 32 - 1) 3] =
        some (r', outs) ∧ avlTreeMin ⟨23, false⟩ r'.state = some 0 := by
  refine ⟨_, _, rfl, by decide, by decide, by decide, _, rfl, by decide⟩

end Avl
