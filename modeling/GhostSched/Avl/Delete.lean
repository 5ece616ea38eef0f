import GhostSched.Avl.Insert
import GhostSched.Avl.Unlink

/-!
# Deletion

After the node has been unlinked, `avl_tree_delete` climbs back to restore the
balance fields and then tries to insert one orphan.

* `deleteRetrace_spec` is the climb: an induction over the frames above the
  subtree that shrank.
* `cacheDelete_cached` advances the caches before the node leaves.
* `avlTreeDelete_spec` puts everything together.
-/

namespace Avl

open BinaryTree

/-! ## The retrace -/

section Retrace

variable {s : State} {hid hpar h x : ℕ} {t : BinaryTree ℕ} {C : List (Frame ℕ)}

/-- A test on the node above the hole; the root has none above it. -/
def testOn (g : ℕ → Bool) : List (Frame ℕ) → Bool
  | [] => false
  | f :: _ => g f.val

variable {arr : Arr} {n root : ℕ}

/-- Going on with the parent, or stopping at the root. -/
theorem deleteRetrace_parent {g : ℕ → Bool} (hC : CtxRep arr root 0 C hid hpar h) :
    (match avlIdToNode hpar with
      | none => (s, true)
      | some p => deleteRetrace n s (some p) hpar (g p)) =
    deleteRetrace n s (C.head?.map Frame.val) (avlPtrToId (C.head?.map Frame.val))
      (testOn g C) := by
  rw [hC.idToNode]
  cases C with
  | nil => cases n <;> rfl
  | cons f C =>
    obtain ⟨rfl, -⟩ := hC
    rfl

/-- `parent->left_id == x_id` tells the next iteration which side lost. -/
theorem lostOn_testOn (hC : CtxRep arr root 0 C (avlNodeToId x) hpar h) (hx : x + 1 < 2 ^ 32)
    (hxC : x ∉ ctxNodes C) :
    LostOn (testOn (fun p => (arr p).leftId == avlNodeToId x) C) C := by
  rintro f C' rfl
  rw [ctxNodes_cons, List.mem_cons, List.mem_append, not_or, not_or] at hxC
  simpa [testOn] using hC.left_iff hx hxC.2.1

/-- Climbing from a subtree of height `h` below frames whose balance fields
still say `h + 1`. -/
theorem deleteRetrace_spec {fromTheLeft : Bool}
    (hC : CtxRep s.arr s.tree.root 0 C hid hpar (h + 1)) (ht : Rep s.arr hpar hid t)
    (hh : t.height = h) (hnd : (t.inorder ++ ctxNodes C).Nodup) (hside : LostOn fromTheLeft C)
    (hn : C.length ≤ n) :
    ∃ s' T, deleteRetrace n s (C.head?.map Frame.val) (avlPtrToId (C.head?.map Frame.val))
        fromTheLeft = (s', true) ∧
      Rep s'.arr 0 s'.tree.root T ∧ T.inorder = (plug C t).inorder ∧
      T.height ≤ ctxHeight C (h + 1) ∧ Relinks s s' (t.inorder ++ ctxNodes C) := by
  induction C generalizing n s h t hid hpar fromTheLeft with
  | nil =>
    obtain ⟨rfl, rfl⟩ := hC
    refine ⟨s, t, ?_, ht, rfl, by rw [ctxHeight_nil]; omega, Relinks.refl _ _⟩
    cases n <;> rfl
  | cons f C ih =>
    obtain ⟨n, rfl⟩ : ∃ m, n = m + 1 := Nat.exists_eq_succ_of_ne_zero (by simp at hn; omega)
    have hnd' := nodup_frame hnd
    obtain ⟨hndx, hndC, hdisC⟩ := List.nodup_append'.mp hnd'
    obtain ⟨hndt, hnds, hxt, hxs, hts⟩ := nodup_nodeOn.mp hndx
    have hxC : f.val ∉ ctxNodes C := fun hj => hdisC (by simp) hj
    have hftl := hside f C rfl
    obtain ⟨rfl, hx, hch, hbal, h1, h2, hs, hC⟩ := hC
    rw [← hch] at ht
    have hsgn : fromTheLeft = true ∧ f.side = .left ∨ fromTheLeft = false ∧ f.side = .right := by
      cases hd : f.side <;> cases fromTheLeft <;> simp_all
    simp only [List.head?_cons, Option.map_some, avlPtrToId, deleteRetrace]
    split
    case isTrue h0 =>
      -- case 1: x was balanced and absorbs the loss
      have hsib : h + 1 = f.sib.height := by
        rcases hsgn with ⟨-, hd⟩ | ⟨-, hd⟩ <;> rw [hbal, hd] at h0 <;> simp at h0 <;> omega
      have hx' := rep_nodeOn_setBalance (b := if fromTheLeft then 1 else -1) hx ht hs hxt hxs
        (by rcases hsgn with ⟨hl, hd⟩ | ⟨hl, hd⟩ <;> simp [hl, hd, hh] <;> omega)
        (by omega) (by omega)
      refine ⟨_, plug C (nodeOn f.side t f.val f.sib), rfl, ?_, rfl, ?_, ?_⟩
      · refine rep_plug.mpr ⟨_, _, ?_, hx'⟩
        rw [height_nodeOn, hh, show max h f.sib.height = max (h + 1) f.sib.height by omega]
        exact hC.setBalance hxC
      · rw [height_plug, height_nodeOn, hh, ctxHeight_cons]
        exact ctxHeight_mono C (by omega)
      · exact (Relinks.refl _ _).setBalance (by simp)
    case isFalse h0 =>
      split
      case isTrue hheavy =>
        -- x was heavy on the side that lost: its subtree loses a level
        have hsib : h = f.sib.height := by
          rcases hsgn with ⟨hl, hd⟩ | ⟨hl, hd⟩ <;> rw [hbal, hl, hd] at hheavy <;>
            simp at hheavy <;> omega
        have hx' := rep_nodeOn_setBalance (b := 0) hx ht hs hxt hxs
          (by rw [hh, hsib]; simp) (by omega) (by omega)
        have hC' := hC.setBalance (b := 0) hxC
        obtain ⟨s', T, heq, hT, hin, hTh, hrel⟩ := ih (n := n) (h := h + 1)
          (by rw [show h + 1 + 1 = max (h + 1) f.sib.height + 1 by omega]; exact hC') hx'
          (by rw [height_nodeOn]; omega) hnd' (lostOn_testOn hC' hx hxC) (by simpa using hn)
        refine ⟨s', T, ?_, hT, hin, hTh.trans ?_, ?_⟩
        · grind [deleteRetrace_parent]
        · rw [ctxHeight_cons]
          exact ctxHeight_mono C (by omega)
        · exact Relinks.trans ((Relinks.refl _ _).setBalance (by simp)) (hrel.mono mem_frame)
      case isFalse hheavy =>
        -- the sibling is now two levels deeper: rotate it up
        have hsib : f.sib.height = h + 2 := by
          rcases hsgn with ⟨hl, hd⟩ | ⟨hl, hd⟩ <;> rw [hbal, hd] at h0 <;>
            rw [hbal, hl, hd] at hheavy <;> simp at h0 hheavy <;> omega
        obtain ⟨o, z, i, hsz⟩ := exists_nodeOn f.side.other (t := f.sib)
          (by intro h; rw [h] at hsib; simp at hsib)
        have hzid : avlIdToNode (if fromTheLeft then (s.arr f.val).rightId
            else (s.arr f.val).leftId) = some z := by
          have := hs.idToNode
          rw [hsz, rootVal_nodeOn] at this
          rw [← this]
          rcases hsgn with ⟨hl, hd⟩ | ⟨hl, hd⟩ <;> simp [hl, hd]
        have hrot : (if fromTheLeft then Side.right else Side.left) = f.side.other := by
          rcases hsgn with ⟨hl, hd⟩ | ⟨hl, hd⟩ <;> simp [hl, hd]
        rw [hzid]
        rw [hrot]
        have hnd₂ : ((nodeOn f.side.other (nodeOn f.side.other o z i) f.val t).inorder ++
            ctxNodes C).Nodup := by
          rw [← hsz, nodeOn_other]
          exact hnd'
        rw [hsz] at hs
        rw [hsz, height_nodeOn] at hsib
        obtain ⟨t', hC', ht', hroot, hin, hht, hrel⟩ :=
          rotate_reconnect hx hs (by rw [Side.other_other]; exact ht) hC hnd₂ (by omega) rfl rfl
        rw [← hsz, nodeOn_other] at hin hrel
        have hz0 : (s.arr z).balance = 0 ↔ o.height = i.height := by
          obtain ⟨-, -, -, hzb, -⟩ := rep_nodeOn.mp hs
          rw [hzb]
          rcases hsgn with ⟨-, hd⟩ | ⟨-, hd⟩ <;> simp [hd] <;> omega
        simp only [hz0]
        by_cases hoi : o.height = i.height
        · -- absorbed: the rotated subtree kept its height
          rw [if_pos hoi] at hht
          refine ⟨_, plug C t', ?_, ?_, ?_, ?_, hrel.mono mem_frame⟩
          rotate_left
          · grind [rep_plug, height_nodeOn]
          · rw [inorder_plug, hin, plug_cons, inorder_plug]
          · rw [height_plug, ctxHeight_cons, hsz, height_nodeOn]
            exact ctxHeight_mono C (by omega)
          · simp only [if_pos hoi]
            split <;> rfl
        · -- the rotated subtree is one level lower: pass the loss on
          rw [if_neg hoi] at hht
          obtain ⟨-, -, -, -, -, -, -, hrot'⟩ := rebalance_spec hx hs
            (by rw [Side.other_other]; exact ht) (List.nodup_append'.mp hnd₂).1 (by omega)
          set y := (rebalance f.side.other s f.val z).2
          set s₁ := (rebalance f.side.other s f.val z).1
          have htest : LostOn (testOn (fun p =>
              ((s₁.setParent y (s.arr f.val).parentId).arr p).leftId == avlNodeToId f.val)
                C) C := by
            -- the rotation does not touch the nodes above x
            have : ∀ j ∈ ctxNodes C, ((s₁.setParent y (s.arr f.val).parentId).arr j).leftId =
                (s.arr j).leftId := by
              intro j hj
              grind [hrot'.frame, State.setParent_arr]
            have hlost := lostOn_testOn hC hx hxC
            cases C with
            | nil => exact hlost
            | cons g C => simpa only [testOn, this g.val (by simp)] using hlost
          obtain ⟨s', T, heq, hT, hTin, hTh, hrel'⟩ := ih (n := n) (h := h + 2) (t := t') (by
              rw [show h + 2 + 1 = max (h + 1) f.sib.height + 1 by
                rw [hsz, height_nodeOn]; omega]
              exact hC')
            ht' (by omega) (by rw [hin]; exact hnd') htest (by simpa using hn)
          refine ⟨s', T, ?_, hT, ?_, hTh.trans ?_, ?_⟩
          · rw [← heq, ← deleteRetrace_parent hC']
            simp only [if_neg hoi]
            cases avlIdToNode (s.arr f.val).parentId <;> rfl
          · rw [hTin, inorder_plug, hin, plug_cons, inorder_plug]
          · rw [ctxHeight_cons, hsz, height_nodeOn]
            exact ctxHeight_mono C (by omega)
          · grind [Relinks, mem_frame]

end Retrace

/-! ## The caches -/

variable {l l' : List ℕ} {x : ℕ}

theorem RemovedFrom.sublist (h : RemovedFrom x l l') : l'.Sublist l := by
  obtain ⟨l₁, l₂, rfl, rfl⟩ := h
  exact List.Sublist.append_left (List.sublist_cons_self x l₂) l₁

theorem RemovedFrom.perm (h : RemovedFrom x l l') : l.Perm (x :: l') := by
  obtain ⟨l₁, l₂, rfl, rfl⟩ := h
  exact List.perm_middle

/-- In a sequence without repetitions there is only one way to remove `x`. -/
theorem RemovedFrom.unique {l'' : List ℕ} (h : RemovedFrom x l l') (h' : RemovedFrom x l l'')
    (hnd : l.Nodup) : l' = l'' := by
  have herase : ∀ {m}, RemovedFrom x l m → m = l.erase x := by
    rintro m ⟨l₁, l₂, rfl, rfl⟩
    have hx : x ∉ l₁ := fun hj => (List.nodup_append'.mp hnd).2.2 hj (by simp)
    rw [List.erase_append_right _ hx, List.erase_cons_head]
  rw [herase h, herase h']

/-- `cacheDelete` writes nothing but the four cache fields. -/
theorem cacheDelete_fields (cfg : Config) (s : State) (node : ℕ) :
    (cacheDelete cfg s node).arr = s.arr ∧ (cacheDelete cfg s node).asserted = s.asserted ∧
      (cacheDelete cfg s node).tree.root = s.tree.root ∧
      (cacheDelete cfg s node).tree.firstOrphanId = s.tree.firstOrphanId := by
  unfold cacheDelete
  split
  · unfold advanceMax advanceMin
    split <;> split <;> exact ⟨rfl, rfl, rfl, rfl⟩
  · exact ⟨rfl, rfl, rfl, rfl⟩

variable {cfg : Config} {s : State} {l₁ l₂ : List ℕ}

/-- The `min` cache after the first half: it describes what is left. -/
theorem advanceMin_spec (hx : x + 1 < 2 ^ 32) (h32 : ∀ j ∈ l₁, j + 1 < 2 ^ 32) (hxl : x ∉ l₁)
    (hnext : avlNextNode cfg s.arr x = l₂.head?)
    (hid : s.tree.minId = avlPtrToId (l₁ ++ x :: l₂).head?)
    (hkey : ∀ i, (l₁ ++ x :: l₂).head? = some i → s.tree.minKey = (s.arr i).key) :
    (advanceMin cfg s x).tree.minId = avlPtrToId (l₁ ++ l₂).head? ∧
      ∀ i, (l₁ ++ l₂).head? = some i → (advanceMin cfg s x).tree.minKey = (s.arr i).key := by
  unfold advanceMin
  cases l₁ with
  | nil =>
    rw [if_pos (by rw [hid]; rfl), hnext]
    refine ⟨rfl, fun i hi => ?_⟩
    rw [List.nil_append] at hi
    simp [hi]
  | cons y l₁ =>
    have hne : avlNodeToId x ≠ s.tree.minId := by
      rw [hid]
      intro heq
      exact hxl (by simp [avlNodeToId_inj hx (h32 y (by simp)) heq])
    rw [if_neg hne]
    exact ⟨hid, hkey⟩

/-- The `max` cache after the second half. -/
theorem advanceMax_spec (hx : x + 1 < 2 ^ 32) (h32 : ∀ j ∈ l₂, j + 1 < 2 ^ 32) (hxl : x ∉ l₂)
    (hprev : avlPrevNode cfg s.arr x = l₁.getLast?)
    (hid : s.tree.maxId = avlPtrToId (l₁ ++ x :: l₂).getLast?)
    (hkey : ∀ i, (l₁ ++ x :: l₂).getLast? = some i → s.tree.maxKey = (s.arr i).key) :
    (advanceMax cfg s x).tree.maxId = avlPtrToId (l₁ ++ l₂).getLast? ∧
      ∀ i, (l₁ ++ l₂).getLast? = some i → (advanceMax cfg s x).tree.maxKey = (s.arr i).key := by
  unfold advanceMax
  by_cases hl₂ : l₂ = []
  · subst hl₂
    rw [if_pos (by rw [hid]; simp [avlPtrToId]), hprev, List.append_nil]
    refine ⟨rfl, fun i hi => ?_⟩
    simp [hi]
  · rw [getLast?_insert x hl₂] at hid hkey
    have hne : avlNodeToId x ≠ s.tree.maxId := by
      rw [hid]
      rcases List.eq_nil_or_concat' l₂ with rfl | ⟨l, y, rfl⟩
      · exact absurd rfl hl₂
      · rw [← List.append_assoc, List.getLast?_concat]
        intro heq
        exact hxl (by simp [avlNodeToId_inj hx (h32 y (by simp)) heq])
    rw [if_neg hne]
    exact ⟨hid, hkey⟩

/-- Before the node leaves, the caches already describe what will be left. -/
theorem cacheDelete_cached {C : List (Frame ℕ)} {l r : BinaryTree ℕ} (hc : cfg.caching = true)
    (hrep : Rep s.arr 0 s.tree.root (plug C (.node x l r)))
    (hnd : (plug C (.node x l r)).inorder.Nodup)
    (hh : (plug C (.node x l r)).height ≤ cfg.maxAvlHeight)
    (hcached : Cached s (plug C (.node x l r)).inorder) :
    Cached (cacheDelete cfg s x) ((before C ++ l.inorder) ++ (r.inorder ++ after C)) := by
  have hnext := avlNextNode_spec hrep hnd hh
  have hprev := avlPrevNode_spec hrep hnd hh
  have hin : (plug C (.node x l r)).inorder =
      (before C ++ l.inorder) ++ x :: (r.inorder ++ after C) := by
    simp [inorder_plug]
  have h32 : ∀ j ∈ (plug C (.node x l r)).inorder, j + 1 < 2 ^ 32 := fun j => hrep.lt_of_mem
  rw [hin] at hcached hnd h32
  obtain ⟨hxl, -⟩ := List.nodup_cons.mp (List.nodup_middle.mp hnd)
  rw [List.mem_append, not_or] at hxl
  have hx := h32 x (by simp)
  obtain ⟨hmin, hminKey⟩ := advanceMin_spec hx (fun j hj => h32 j (List.mem_append_left _ hj))
    hxl.1 hnext hcached.minId hcached.minKey
  have harr : (advanceMin cfg s x).arr = s.arr := by
    unfold advanceMin
    split <;> rfl
  have hmaxTree : (advanceMin cfg s x).tree.maxId = s.tree.maxId ∧
      (advanceMin cfg s x).tree.maxKey = s.tree.maxKey := by
    unfold advanceMin
    split <;> exact ⟨rfl, rfl⟩
  rw [← harr] at hprev
  obtain ⟨hmax, hmaxKey⟩ := advanceMax_spec hx (fun j hj => h32 j (by simp [hj])) hxl.2 hprev
    (by rw [hmaxTree.1]; exact hcached.maxId)
    (by rw [hmaxTree.2, harr]; exact hcached.maxKey)
  have hminTree : (advanceMax cfg (advanceMin cfg s x) x).tree.minId =
        (advanceMin cfg s x).tree.minId ∧
      (advanceMax cfg (advanceMin cfg s x) x).tree.minKey = (advanceMin cfg s x).tree.minKey ∧
      (advanceMax cfg (advanceMin cfg s x) x).arr = s.arr := by
    rw [← harr]
    unfold advanceMax
    split <;> exact ⟨rfl, rfl, rfl⟩
  rw [cacheDelete, if_pos hc]
  refine ⟨hminTree.1.trans hmin, ?_, hmax, ?_⟩
  · intro i hi
    rw [hminTree.2.1, hminTree.2.2]
    exact hminKey i hi
  · intro i hi
    rw [hmaxKey i hi, harr, hminTree.2.2]

/-! ## The whole deletion -/

/-- What one deletion does. An orphan leaves the orphan list. A tree node
leaves the in-order sequence, and then the first orphan, if there is one, is
inserted, which may orphan it again. -/
def Deleted (cfg : Config) (arr : Arr) (x : ℕ) (T : BinaryTree ℕ) (O : List ℕ)
    (T' : BinaryTree ℕ) (O' : List ℕ) : Prop :=
  T' = T ∧ RemovedFrom x O O' ∨ ∃ T₁, RemovedFrom x T.inorder T₁.inorder ∧
      (O = [] ∧ T' = T₁ ∧ O' = [] ∨ ∃ o O₁, O = o :: O₁ ∧ Inserted cfg arr o T₁ O₁ T' O')

variable {T T' : BinaryTree ℕ} {O O' : List ℕ}

theorem Deleted.congr {arr arr' : Arr} (h : Deleted cfg arr x T O T' O')
    (hkey : ∀ j, (arr' j).key = (arr j).key) : Deleted cfg arr' x T O T' O' := by
  rcases h with h | ⟨T₁, hrem, h | ⟨o, O₁, hO, hins⟩⟩
  · exact .inl h
  · exact .inr ⟨T₁, hrem, .inl h⟩
  · exact .inr ⟨T₁, hrem, .inr ⟨o, O₁, hO, hins.congr hkey⟩⟩

theorem Deleted.perm {arr : Arr} (h : Deleted cfg arr x T O T' O') :
    (T.inorder ++ O).Perm (x :: (T'.inorder ++ O')) := by
  rcases h with ⟨rfl, hrem⟩ | ⟨T₁, hrem, ⟨rfl, rfl, rfl⟩ | ⟨o, O₁, rfl, hins⟩⟩
  · exact (hrem.perm.append_left _).trans List.perm_middle
  · exact hrem.perm.append_right []
  · grind [hrem.perm, hins.perm]

section Delete

variable {cfg : Config} {s : State} {T : BinaryTree ℕ} {O : List ℕ} {x : ℕ}

/-- Deleting an orphan. -/
theorem Inv.deleteOrphan (hI : Inv cfg s T O) (hx : x ∈ O) {s' : State}
    (hs' : (removeOrphan s x).set x (fun n => { n with isOrphan := false }) = s') :
    ∃ O', RemovedFrom x O O' ∧ Inv cfg s' T O' ∧ (s'.arr x).isOrphan = false ∧
      Touches s s' (T.inorder ++ O) := by
  obtain ⟨A, B, rfl⟩ := List.append_of_mem hx
  obtain ⟨-, hndO, hdis⟩ := List.nodup_append'.mp hI.nodup
  obtain ⟨hO', hrel⟩ := removeOrphan_spec hI.orphans hndO
  have hxAB := (List.nodup_cons.mp (List.nodup_middle.mp hndO)).1
  have hsub : ∀ j ∈ A ++ B, j ∈ A ++ x :: B := fun j hj =>
    (RemovedFrom.sublist ⟨A, B, rfl, rfl⟩).mem hj
  have hframe : ∀ j, j ≠ x → s'.arr j = (removeOrphan s x).arr j := by
    intro j hj
    rw [← hs', State.set_arr_of_ne _ _ hj]
  have hne : ∀ j ∈ A ++ B, j ≠ x := by
    rintro j hj rfl
    exact hxAB hj
  have hxs : s'.tree = (removeOrphan s x).tree ∧ s'.asserted = (removeOrphan s x).asserted := by
    rw [← hs']
    exact ⟨rfl, rfl⟩
  refine ⟨A ++ B, ⟨A, B, rfl, rfl⟩, ?_, by rw [← hs']; simp, ?_⟩
  · refine hI.of_orphans ?_ ?_ (hxs.2.trans hrel.asserted) ?_ ?_ ?_
    · intro j hj
      have hjO : j ∉ A ++ x :: B := fun hj' => hdis hj hj'
      rw [hframe j, hrel.frame j hjO]
      rintro rfl
      exact hjO hx
    · rw [hxs.1]
      exact hrel.tree
    · grind [hI.nodup]
    · grind [OrphanList, OrphanSeg.congr]
    · grind [hrel.isOrphan, hI.orphaned]
  · have hT : Touches (removeOrphan s x) s' (T.inorder ++ (A ++ x :: B)) := by
      rw [← hs']
      exact Touches.set _ (by simp) fun _ => rfl
    exact (hrel.touches.mono fun j hj => List.mem_append_right _ hj).trans hT

/-- Unlinking a tree node and retracing. -/
theorem Inv.deleteNode (hI : Inv cfg s T O) (hx : x ∈ T.inorder) :
    ∃ s₁ u s₂ T₁, unlink cfg (cacheDelete cfg s x) x = (s₁, some u) ∧
      deleteRetrace cfg.maxAvlHeight s₁ u.x u.xId u.fromTheLeft = (s₂, true) ∧
      RemovedFrom x T.inorder T₁.inorder ∧ Inv cfg s₂ T₁ O ∧ Relinks (cacheDelete cfg s x)
        s₂ T.inorder := by
  obtain ⟨harr, hasserted, hroot, hfirst⟩ := cacheDelete_fields cfg s x
  obtain ⟨hndT, hndO, hdis⟩ := List.nodup_append'.mp hI.nodup
  have hrep : Rep (cacheDelete cfg s x).arr 0 (cacheDelete cfg s x).tree.root T := by
    rw [harr, hroot]
    exact hI.rep
  obtain ⟨s₁, u, D, t, hid, hpar, hun, hD, ht, hu, hrem, hht, hrel₁⟩ :=
    unlink_spec hrep hndT hI.height hx
  have hndD : (t.inorder ++ ctxNodes D).Nodup := nodup_plug.mp (hndT.sublist hrem.sublist)
  have hlen := length_add_le_ctxHeight D (t.height + 1)
  have hheight := hI.height
  obtain ⟨s₂, T₁, hre, hT₁, hin, hh₁, hrel₂⟩ :=
    deleteRetrace_spec (n := cfg.maxAvlHeight) hD ht rfl hndD hu.lost (by omega)
  rw [← hin] at hrem
  have hsub : ∀ j ∈ t.inorder ++ ctxNodes D, j ∈ T.inorder := by
    intro j hj
    apply hrem.sublist.mem
    rw [hin]
    exact (perm_inorder_plug D t).mem_iff.mpr hj
  have hrel := hrel₁.trans (hrel₂.mono hsub)
  have hkey : ∀ j, (s₂.arr j).key = (s.arr j).key := by
    intro j
    rw [hrel.key, harr]
  have hflag : ∀ j, (s₂.arr j).isOrphan = (s.arr j).isOrphan := by
    intro j
    rw [hrel.isOrphan, harr]
  refine ⟨s₁, u, s₂, T₁, hun, by rw [hu.xId, hu.x]; exact hre, hrem, ?_, hrel⟩
  constructor
  · exact hT₁
  · exact (List.Pairwise.sublist hrem.sublist hI.sorted).imp fun {i j} hij => by
      rw [hkey, hkey]
      exact hij
  · omega
  · exact hI.nodup.sublist (hrem.sublist.append_right O)
  · intro j hj
    rw [hflag]
    exact hI.inTree j (hrem.sublist.mem hj)
  · intro j hj
    rw [hflag]
    exact hI.orphaned j hj
  · refine hrel.orphanList ?_
    rw [OrphanList, harr, hfirst]
    exact hI.orphans
  · intro hc
    obtain ⟨C, l, r, hT⟩ := exists_plug_of_mem hx
    have hcached := hI.cached hc
    rw [hT] at hcached
    have hc' := cacheDelete_cached hc (hT ▸ hI.rep) (hT ▸ hndT) (hT ▸ hI.height) hcached
    have hrem' : RemovedFrom x T.inorder ((before C ++ l.inorder) ++ (r.inorder ++ after C)) := by
      refine ⟨before C ++ l.inorder, r.inorder ++ after C, ?_, rfl⟩
      rw [hT, inorder_plug]
      simp
    rw [hrem.unique hrem' hndT]
    exact hc'.congr (by rw [hrel.tree]) fun j _ => hrel.key j
  · rw [hrel.asserted, hasserted]
    exact hI.asserted

/-- Deletion of any inserted node keeps the invariant and acts as `Deleted`
says. -/
theorem avlTreeDelete_spec (hI : Inv cfg s T O) (hcfg : 1 ≤ cfg.maxAvlHeight)
    (hx : x ∈ T.inorder ++ O) :
    ∃ T' O', Inv cfg (avlTreeDelete cfg s x) T' O' ∧ Deleted cfg s.arr x T O T' O' ∧
      ((avlTreeDelete cfg s x).arr x).isOrphan = false ∧
      Touches s (avlTreeDelete cfg s x) (T.inorder ++ O) := by
  rcases List.mem_append.mp hx with hx | hx
  · -- a tree node
    obtain ⟨harr, -⟩ := cacheDelete_fields cfg s x
    obtain ⟨s₁, u, s₂, T₁, hun, hre, hrem, hI₂, hrel⟩ := hI.deleteNode hx
    have hT₂ : Touches s s₂ (T.inorder ++ O) := by
      constructor
      · intro j hj
        rw [hrel.frame j fun hj' => hj (by simp [hj']), harr]
      · intro j
        rw [hrel.key, harr]
    have hflag : (s₂.arr x).isOrphan = false := by
      rw [hrel.isOrphan, harr]
      exact hI.inTree x hx
    have hdel : ∀ s₃ q, popFirstOrphan s₂ = (s₃, q) →
        avlTreeDelete cfg s x = q.elim s₃ (avlTreeInsert cfg s₃) := by
      intro s₃ q hpop
      simp only [avlTreeDelete, hI.inTree x hx, hun, hre, hpop, Bool.false_eq_true, if_false]
      cases q <;> rfl
    cases O with
    | nil =>
      rw [hdel _ _ (popFirstOrphan_nil hI₂.orphans), Option.elim_none]
      exact ⟨T₁, [], hI₂, .inr ⟨T₁, hrem, .inl ⟨rfl, rfl, rfl⟩⟩, hflag, hT₂⟩
    | cons o O =>
      obtain ⟨-, hndO, hdis⟩ := List.nodup_append'.mp hI₂.nodup
      obtain ⟨s₃, hpop, hO₃, hrel₃⟩ := popFirstOrphan_cons hI₂.orphans hndO
      have hnd₃ := List.nodup_cons.mp (List.nodup_middle.mp hI₂.nodup)
      have hI₃ : Inv cfg s₃ T₁ O := by
        refine hI₂.of_orphans ?_ hrel₃.tree hrel₃.asserted hnd₃.2 hO₃ ?_
        · exact fun j hj => hrel₃.frame j fun hj' => hdis hj hj'
        · intro j hj
          rw [hrel₃.isOrphan]
          exact hI₂.orphaned j (by simp [hj])
      have ho : o + 1 < 2 ^ 32 := OrphanSeg.lt_of_mem hI₂.orphans (by simp)
      obtain ⟨T', O', hI', hins, htouch⟩ := avlTreeInsert_spec hI₃ hcfg ho hnd₃.1
      have hkey₃ : ∀ j, (s₃.arr j).key = (s.arr j).key := fun j => (hrel₃.key j).trans (hT₂.key j)
      rw [hdel _ _ hpop, Option.elim_some]
      have hsub : ∀ j ∈ o :: (T₁.inorder ++ O), j ∈ T.inorder ++ o :: O := by
        intro j hj
        rw [List.mem_cons, List.mem_append] at hj
        rw [List.mem_append, List.mem_cons]
        rcases hj with hj | hj | hj
        · exact .inr (.inl hj)
        · exact .inl (hrem.sublist.mem hj)
        · exact .inr (.inr hj)
      -- x itself is not touched any more
      have hxo : x ∉ o :: (T₁.inorder ++ O) := by
        have hnd := hI.nodup
        rw [(hrem.perm.append_right (o :: O)).nodup_iff] at hnd
        have hx' : x ∉ T₁.inorder ++ o :: O := (List.nodup_cons.mp hnd).1
        simp only [List.mem_append, List.mem_cons, not_or] at hx' ⊢
        exact ⟨hx'.2.1, hx'.1, hx'.2.2⟩
      refine ⟨T', O', hI', .inr ⟨T₁, hrem, .inr ⟨o, O, rfl, ?_⟩⟩, ?_, ?_⟩
      · exact hins.congr fun j => (hkey₃ j).symm
      · rw [htouch.frame x hxo, hrel₃.isOrphan]
        exact hflag
      · refine (hT₂.trans (hrel₃.touches.mono ?_)).trans (htouch.mono hsub)
        exact fun j hj => List.mem_append_right _ hj
  · -- an orphan
    obtain ⟨O', hrem, hI', hflag, hT'⟩ := hI.deleteOrphan hx rfl
    have hdel : avlTreeDelete cfg s x =
        (removeOrphan s x).set x (fun n => { n with isOrphan := false }) := by
      simp only [avlTreeDelete, hI.orphaned x hx, if_true]
    rw [hdel]
    exact ⟨T, O', hI', .inl ⟨rfl, hrem⟩, hflag, hT'⟩

end Delete

end Avl
