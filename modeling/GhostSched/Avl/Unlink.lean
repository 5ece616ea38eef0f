import GhostSched.Avl.Walk

/-!
# Taking a node out of the tree

The part of `avl_tree_delete` before the retrace. A node with at most one
child is replaced by that child. A node with two children is replaced by its
in-order successor, which is first detached from its own place (`detachNext`)
and then put into the place of the node (`takePlace`).

In every case what is left is a context whose balance fields are those of a
hole one level higher than the subtree in it: this is `unlink_spec`.
-/

namespace Avl

open BinaryTree

/-- The side of the innermost frame of `C` is what `from_the_left` says. -/
def LostOn (fromTheLeft : Bool) (C : List (Frame ℕ)) : Prop :=
  ∀ f C', C = f :: C' → (fromTheLeft = true ↔ f.side = .left)

/-- The locals that are handed to the retrace describe the hole of `C`. -/
structure Unlinked.At (u : Unlinked) (C : List (Frame ℕ)) : Prop where
  x : u.x = C.head?.map Frame.val
  xId : u.xId = avlPtrToId u.x
  lost : LostOn u.fromTheLeft C

variable {s : State} {x n : ℕ} {l nr : BinaryTree ℕ} {C C₂ : List (Frame ℕ)}

/-! ## Detaching the successor -/

/-- The successor `n` of `x` sits at the end of the frames `C₂` below the
right child link of `x`. Detaching it leaves `x`, its left subtree and
everything above alone, and `n` ends up with the right subtree. -/
theorem detachNext_spec {h : ℕ} (hn : n + 1 < 2 ^ 32)
    (hD : CtxRep s.arr s.tree.root 0 (C₂ ++ ⟨.right, x, l⟩ :: C) (avlNodeToId n)
      (s.arr n).parentId h)
    (hr : Rep s.arr (avlNodeToId n) (s.arr n).rightId nr)
    (hnd : (n :: (nr.inorder ++ ctxNodes (C₂ ++ ⟨.right, x, l⟩ :: C))).Nodup) :
    ∃ s' u hid hpar, detachNext s x n = (s', some u) ∧
      CtxRep s'.arr (s'.arr n).rightId (avlNodeToId n) C₂ hid hpar h ∧
      Rep s'.arr hpar hid nr ∧ (s'.arr n).balance = (s.arr n).balance ∧
      (∀ j ∈ ctxNodes (⟨.right, x, l⟩ :: C), s'.arr j = s.arr j) ∧ s'.tree = s.tree ∧
      Relinks s s' (n :: (nr.inorder ++ ctxNodes (C₂ ++ ⟨.right, x, l⟩ :: C))) ∧
        u.At (C₂ ++ ⟨.right, n, l⟩ :: C) := by
  obtain ⟨hnD, hndD⟩ := List.nodup_cons.mp hnd
  rw [List.mem_append, not_or] at hnD
  obtain ⟨hndr, hndC, hdis⟩ := List.nodup_append'.mp hndD
  rcases List.eq_nil_or_concat' C₂ with rfl | ⟨C₂, g, rfl⟩
  · -- the immediate child next case
    have hp : (s.arr n).parentId = avlNodeToId x := hD.1
    refine ⟨s, ⟨some n, avlNodeToId n, false⟩, _, _, ?_, ⟨rfl, rfl⟩, hr, rfl, fun _ _ => rfl, rfl,
      Relinks.refl _ _, rfl, rfl, ?_⟩
    · simp [detachNext, hp]
    · rintro f C' ⟨⟩
      simp
  · -- the deep next case: n hangs below the innermost frame f, not below x
    obtain ⟨f, C₃, hf⟩ : ∃ f C₃, C₂ ++ [g] = f :: C₃ := by
      cases C₂ with
      | nil => exact ⟨g, [], rfl⟩
      | cons f C₂ => exact ⟨f, C₂ ++ [g], rfl⟩
    have hfx : f.val ≠ x := by
      rintro rfl
      rw [hf] at hndC
      simp [ctxNodes_append] at hndC
    have hD' := hD
    rw [hf] at hD'
    have hp : (s.arr n).parentId = avlNodeToId f.val := hD'.1
    have hf32 : f.val + 1 < 2 ^ 32 := hD'.2.1
    have hx32 : x + 1 < 2 ^ 32 := by
      obtain ⟨_, _, -, -, hx, -⟩ := ctxRep_append.mp hD
      exact hx
    have hlost : LostOn ((s.arr f.val).leftId == avlNodeToId n)
      ((C₂ ++ [g]) ++ ⟨.right, n, l⟩ :: C) := by
      rw [hf]
      rintro f' C' ⟨⟩
      have hns : n ∉ f.sib.inorder := by
        intro hj
        apply hnD.2
        rw [hf]
        simp [hj]
      simpa using hD'.left_iff hn hns
    have hmemr : ∀ j, avlIdToNode (s.arr n).rightId = some j → j ∈ nr.inorder := by
      intro j hj
      rw [hr.idToNode] at hj
      exact mem_inorder_of_rootVal hj
    -- first n is replaced by its right subtree
    obtain ⟨hD₁, hr₁, hrel₁⟩ := hang_spec hD hr hndD rfl
    have hrepl := avlReplaceNode_eq hD hn hnD.2 fun j hj => hdis (hmemr j hj)
    set s₁ := hang s ((C₂ ++ [g]) ++ ⟨.right, x, l⟩ :: C) (s.arr n).rightId with hs₁
    have htree : s₁.tree = s.tree := by rw [hs₁, hang_root]; simp
    have hsame : ∀ j, j ∉ nr.inorder → j ≠ f.val → s₁.arr j = s.arr j := by
      intro j hj hjf
      refine hang_arr_of_ne (fun hj' => hj (hmemr j hj')) ?_
      rw [hf]
      simpa using Ne.symm hjf
    obtain ⟨mid, mpar, hA, rfl, -, hmid, -⟩ := ctxRep_append.mp hD₁
    obtain ⟨rfl, hg32⟩ := hA.top_concat
    have hmid : (s₁.arr x).rightId = avlNodeToId g.val := hmid
    -- then n takes over the right child g of x
    have hng : n ≠ g.val := by
      rintro rfl
      exact hnD.2 (by simp [ctxNodes_append])
    have hnx : n ≠ x := by
      rintro rfl
      exact hnD.2 (by simp [ctxNodes_append])
    set s₂ := (s₁.set n fun m => { m with rightId := (s₁.arr x).rightId }).setParent g.val
      (avlNodeToId n) with hs₂
    have hs₂n : s₂.arr n = { s₁.arr n with rightId := avlNodeToId g.val } := by
      simp [hs₂, State.setParent_arr, hng, hmid]
    have hs₂g : s₂.arr g.val = { s₁.arr g.val with parentId := avlNodeToId n } := by
      simp [hs₂, State.setParent_arr, State.set_arr_of_ne _ _ (Ne.symm hng)]
    have hs₂j : ∀ j, j ≠ n → j ≠ g.val → s₂.arr j = s₁.arr j := by
      intro j hjn hjg
      simp [hs₂, State.setParent_arr, hjg, State.set_arr_of_ne _ _ hjn]
    have hnr : ∀ j ∈ nr.inorder, j ≠ n ∧ j ≠ g.val := by
      intro j hj
      refine ⟨?_, ?_⟩
      · rintro rfl
        exact hnD.1 hj
      · rintro rfl
        exact hdis hj (by simp [ctxNodes_append])
    rw [ctxNodes_append] at hndC
    obtain ⟨hndC₂, -, hdisC⟩ := List.nodup_append'.mp hndC
    refine ⟨s₂, ⟨some f.val, avlNodeToId f.val, _⟩, (s.arr n).rightId, (s.arr n).parentId,
      ?_, ?_, ?_, ?_, ?_, ?_, ?_, ?_, rfl, hlost⟩
    · have hne : avlNodeToId f.val ≠ avlNodeToId x := fun h => hfx (avlNodeToId_inj hf32 hx32 h)
      simp [detachNext, hp, hne, avlIdToNode_nodeToId hf32, hrepl,
        State.set_arr_of_ne _ _ (Ne.symm hnx), hmid, avlIdToNode_nodeToId hg32, hs₂]
    · rw [hs₂n]
      refine hA.retop hndC₂ hs₂g ?_
      intro j hj hjg
      refine hs₂j j ?_ hjg
      rintro rfl
      exact hnD.2 (by rw [ctxNodes_append]; exact List.mem_append_left _ hj)
    · exact hr₁.congr fun j hj => hs₂j j (hnr j hj).1 (hnr j hj).2
    · rw [hs₂n, hsame n hnD.1]
      rintro rfl
      exact hnD.2 (by rw [hf]; simp)
    · intro j hj
      have hjC : ∀ k ∈ ctxNodes (C₂ ++ [g]), j ≠ k := by
        rintro k hk rfl
        exact hdisC hk hj
      rw [hs₂j j, hsame j]
      · exact fun hj' => hdis hj' (by rw [ctxNodes_append]; exact List.mem_append_right _ hj)
      · exact hjC f.val (by rw [hf]; simp)
      · rintro rfl
        exact hnD.2 (by rw [ctxNodes_append]; exact List.mem_append_right _ hj)
      · exact hjC g.val (by simp [ctxNodes_append])
    · rw [← htree]
      simp [hs₂]
    · refine Relinks.setParent (Relinks.setRight (hrel₁.mono fun j hj => ?_) (by simp)) ?_
      · exact List.mem_cons_of_mem _ hj
      · simp [ctxNodes_append]
    · rw [hf]
      rfl

/-! ## Taking the place of the node -/

/-- The detached successor `n`, with the frames `C₂` as its right subtree,
replaces `x` and takes over its left subtree `l`. -/
theorem takePlace_spec {h hid hpar : ℕ} {u : Unlinked} (hn : n + 1 < 2 ^ 32)
    (hC₂ : CtxRep s.arr (s.arr n).rightId (avlNodeToId n) C₂ hid hpar h)
    (hr : Rep s.arr hpar hid nr) (hb : (s.arr n).balance = (s.arr x).balance)
    {mid mpar : ℕ}
    (hx : CtxRep s.arr s.tree.root 0 (⟨.right, x, l⟩ :: C) mid mpar (ctxHeight C₂ h))
    (hl : l ≠ .nil)
    (hnd : (n :: (nr.inorder ++ ctxNodes (C₂ ++ ⟨.right, x, l⟩ :: C))).Nodup) :
    ∃ s', takePlace s x n u = (s', some u) ∧
      CtxRep s'.arr s'.tree.root 0 (C₂ ++ ⟨.right, n, l⟩ :: C) hid hpar h ∧
      Rep s'.arr hpar hid nr ∧
      Relinks s s' (n :: (nr.inorder ++ ctxNodes (C₂ ++ ⟨.right, x, l⟩ :: C))) := by
  -- separation
  simp only [ctxNodes_append, ctxNodes_cons] at hnd
  obtain ⟨hnD, hndD⟩ := List.nodup_cons.mp hnd
  simp only [List.mem_append, List.mem_cons, not_or] at hnD
  obtain ⟨hnr, hnC₂, hnx, hnl, hnC⟩ := hnD
  obtain ⟨-, hndC, hdisr⟩ := List.nodup_append'.mp hndD
  obtain ⟨-, hndx, hdis₂⟩ := List.nodup_append'.mp hndC
  obtain ⟨hxlC, hndlC⟩ := List.nodup_cons.mp hndx
  obtain ⟨hndl, hndC', hdisl⟩ := List.nodup_append'.mp hndlC
  rw [List.mem_append, not_or] at hxlC
  obtain ⟨-, hx32, -, hxb, h1, h2, hxl, hxC⟩ := hx
  -- n goes where x was
  have hidn : ∀ j, avlIdToNode (avlNodeToId n) = some j → j = n := by
    intro j hj
    rw [avlIdToNode_nodeToId hn, Option.some.injEq] at hj
    exact hj.symm
  have hidC : ∀ j, avlIdToNode (avlNodeToId n) = some j → j ∉ ctxNodes C := by
    intro j hj
    rw [hidn j hj]
    exact hnC
  have hrepl := avlReplaceNode_eq hxC hx32 hxlC.2 hidC
  have hC₁ := hxC.hang hndC' hidC
  set s₁ := hang s C (avlNodeToId n) with hs₁
  have hs₁n : s₁.arr n = { s.arr n with parentId := (s.arr x).parentId } := by
    rw [hs₁, hang_arr_root (avlIdToNode_nodeToId hn) fun hj => hnC (mem_ctxNodes_of_head hj),
      hxC.hpar_eq]
  have hs₁j : ∀ j, j ≠ n → j ∉ ctxNodes C → s₁.arr j = s.arr j := by
    intro j hjn hjC
    exact hang_arr_of_ne (fun hj => hjn (hidn j hj)) fun hj => hjC (mem_ctxNodes_of_head hj)
  have hs₁x : s₁.arr x = s.arr x := hs₁j x (Ne.symm hnx) hxlC.2
  -- and gets the left subtree of x
  obtain ⟨v, hv⟩ : ∃ v, l.rootVal = some v := by
    cases l with
    | nil => exact absurd rfl hl
    | node v _ _ => exact ⟨v, rfl⟩
  have hvl := mem_inorder_of_rootVal hv
  have hvn : v ≠ n := by
    rintro rfl
    exact hnl hvl
  set s₂ := (s₁.set n fun m => { m with leftId := (s₁.arr x).leftId }).setParent v
    (avlNodeToId n) with hs₂
  have hs₂n : s₂.arr n = { s.arr n with
      parentId := (s.arr x).parentId, leftId := (s.arr x).leftId } := by
    simp [hs₂, State.setParent_arr, Ne.symm hvn, hs₁n, hs₁x]
  have hs₂v : s₂.arr v = { s₁.arr v with parentId := avlNodeToId n } := by
    simp [hs₂, State.setParent_arr, State.set_arr_of_ne _ _ hvn]
  have hs₂j : ∀ j, j ≠ n → j ≠ v → s₂.arr j = s₁.arr j := by
    intro j hjn hjv
    simp [hs₂, State.setParent_arr, hjv, State.set_arr_of_ne _ _ hjn]
  have hother : ∀ j, j ≠ n → j ∉ l.inorder → j ∉ ctxNodes C → s₂.arr j = s.arr j := by
    intro j hjn hjl hjC
    rw [hs₂j j hjn, hs₁j j hjn hjC]
    rintro rfl
    exact hjl hvl
  refine ⟨s₂, ?_, ?_, ?_, ?_⟩
  · have hlv : avlIdToNode (s.arr x).leftId = some v := hxl.idToNode.trans hv
    simp [takePlace, hrepl, hs₁x, State.set_arr_of_ne _ _ (Ne.symm hnx), hlv, hs₂]
  · refine ctxRep_append.mpr ⟨(s.arr n).rightId, avlNodeToId n, ?_, rfl, hn, ?_, ?_, h1, h2, ?_, ?_⟩
    · refine hC₂.congr fun j hj => hother j ?_ ?_ ?_
      · rintro rfl
        exact hnC₂ hj
      · exact fun hj' => hdis₂ hj (by simp [hj'])
      · exact fun hj' => hdis₂ hj (by simp [hj'])
    · rw [hs₂n]
      rfl
    · rw [hs₂n]
      exact hb.trans hxb
    · rw [hs₂n]
      refine hxl.reparent hndl ?_ ?_
      · intro j hj
        obtain rfl : v = j := by simpa [hv] using hj
        rw [hs₂v, hs₁j v hvn fun hj' => hdisl hvl hj']
      · intro j hj hjr
        have hjn : j ≠ n := by
          rintro rfl
          exact hnl hj
        rw [hs₂j j hjn, hs₁j j hjn fun hj' => hdisl hj hj']
        rintro rfl
        exact hjr hv
    · rw [hs₂n]
      refine hC₁.congr fun j hj => hs₂j j ?_ ?_
      · rintro rfl
        exact hnC hj
      · rintro rfl
        exact hdisl hvl hj
  · refine hr.congr fun j hj => hother j ?_ ?_ ?_
    · rintro rfl
      exact hnr hj
    · exact fun hj' => hdisr hj (by simp [hj'])
    · exact fun hj' => hdisr hj (by simp [hj'])
  · refine Relinks.setParent (Relinks.setLeft ?_ (by simp)) (by simp [ctxNodes_append, hvl])
    rw [hs₁]
    have hrel : Relinks s (s.setPtr (avlIdToNode (avlNodeToId n)) fun m =>
        { m with parentId := avlPtrToId (C.head?.map Frame.val) })
        (n :: (nr.inorder ++ ctxNodes (C₂ ++ ⟨.right, x, l⟩ :: C))) :=
      (Relinks.refl s _).setPtrParent (by intro j hj; rw [hidn j hj]; simp)
    cases C with
    | nil => exact hrel.setRoot
    | cons f C => exact hrel.setChild (by simp [ctxNodes_append])

/-! ## The whole unlinking -/

/-- `x` was removed from the sequence `l`. -/
def RemovedFrom (x : ℕ) (l l' : List ℕ) : Prop :=
  ∃ l₁ l₂, l = l₁ ++ x :: l₂ ∧ l' = l₁ ++ l₂

/-- A node with at most one child: the remaining subtree `t` takes its
place. -/
theorem unlink_replace (cfg : Config) {h : ℕ} {t : BinaryTree ℕ} {id : ℕ} (hx : x + 1 < 2 ^ 32)
    (hC : CtxRep s.arr s.tree.root 0 C (avlNodeToId x) (s.arr x).parentId h)
    (ht : Rep s.arr (avlNodeToId x) id t) (hnd : (x :: (t.inorder ++ ctxNodes C)).Nodup)
    (hun : unlink cfg s x = (avlReplaceNode s x id, some ⟨avlIdToNode (s.arr x).parentId,
      (s.arr x).parentId, match avlIdToNode (s.arr x).parentId with
        | none => false
        | some p => (s.arr p).leftId == avlNodeToId x⟩)) :
    ∃ s' u, unlink cfg s x = (s', some u) ∧ CtxRep s'.arr s'.tree.root 0 C id (s.arr x).parentId h ∧
      Rep s'.arr (s.arr x).parentId id t ∧ Relinks s s' (t.inorder ++ ctxNodes C) ∧ u.At C := by
  obtain ⟨hxD, hndD⟩ := List.nodup_cons.mp hnd
  rw [List.mem_append, not_or] at hxD
  obtain ⟨-, -, hdis⟩ := List.nodup_append'.mp hndD
  obtain ⟨hC', ht', hrel⟩ := hang_spec hC ht hndD rfl
  have hrepl : avlReplaceNode s x id = hang s C id := by
    refine avlReplaceNode_eq hC hx hxD.2 fun j hj => ?_
    rw [ht.idToNode] at hj
    exact hdis (mem_inorder_of_rootVal hj)
  refine ⟨_, _, hun, ?_⟩
  rw [hrepl]
  refine ⟨hC', ht', hrel, hC.idToNode, ?_, ?_⟩
  · rw [hC.idToNode]
    exact hC.hpar_eq
  · rintro f C' rfl
    have hxs : x ∉ f.sib.inorder := fun hj => hxD.2 (by simp [hj])
    simpa [hC.idToNode] using hC.left_iff hx hxs

/-- Unlinking any node `x` of a represented tree. -/
theorem unlink_spec {cfg : Config} {T : BinaryTree ℕ} (hrep : Rep s.arr 0 s.tree.root T)
    (hnd : T.inorder.Nodup) (hh : T.height ≤ cfg.maxAvlHeight) (hx : x ∈ T.inorder) :
    ∃ s' u D t hid hpar, unlink cfg s x = (s', some u) ∧
      CtxRep s'.arr s'.tree.root 0 D hid hpar (t.height + 1) ∧ Rep s'.arr hpar hid t ∧
      u.At D ∧ RemovedFrom x T.inorder (plug D t).inorder ∧
      ctxHeight D (t.height + 1) = T.height ∧ Relinks s s' T.inorder := by
  obtain ⟨C, l, r, rfl⟩ := exists_plug_of_mem hx
  obtain ⟨_, _, hC, rfl, hx32, rfl, hxb, h1, h2, hl, hr⟩ := rep_plug.mp hrep
  have hnd' := nodup_plug.mp hnd
  have hperm := perm_inorder_plug C (BinaryTree.node x l r)
  have hmem : ∀ j, j ∈ (BinaryTree.node x l r).inorder ++ ctxNodes C →
      j ∈ (plug C (.node x l r)).inorder := fun j hj => hperm.mem_iff.mpr hj
  by_cases hl0 : l = .nil
  · -- no left child
    subst hl0
    have hlid : (s.arr x).leftId = 0 := hl
    obtain ⟨s', u, hun, hC', hr', hrel, hu⟩ := unlink_replace cfg hx32 hC hr
      (by simpa using hnd') (by unfold unlink; exact if_pos hlid)
    refine ⟨s', u, C, r, _, _, hun, ?_, hr', hu, ⟨before C, r.inorder ++ after C, ?_, ?_⟩, ?_,
      hrel.mono fun j hj => hmem j ?_⟩
    · simpa using hC'
    · simp [inorder_plug]
    · simp [inorder_plug]
    · simp [height_plug]
    · simp only [inorder_node, inorder_nil, List.nil_append, List.cons_append, List.mem_cons]
      exact .inr hj
  have hlid : (s.arr x).leftId ≠ 0 := fun h => hl0 (hl.id_eq_zero.mp h)
  by_cases hr0 : r = .nil
  · -- no right child
    subst hr0
    have hrid : (s.arr x).rightId = 0 := hr
    obtain ⟨s', u, hun, hC', hl', hrel, hu⟩ := unlink_replace cfg hx32 hC hl (by
        rw [← List.nodup_middle]
        simpa using hnd')
      (by unfold unlink; exact (if_neg hlid).trans (if_pos hrid))
    refine ⟨s', u, C, l, _, _, hun, ?_, hl', hu, ⟨before C ++ l.inorder, after C, ?_, ?_⟩, ?_,
      hrel.mono fun j hj => hmem j ?_⟩
    · simpa using hC'
    · simp [inorder_plug]
    · simp [inorder_plug]
    · simp [height_plug]
    · simp only [inorder_node, inorder_nil, List.mem_append, List.mem_cons] at hj ⊢
      tauto
  -- two children: the successor n is the leftmost node of the right subtree
  have hrid : (s.arr x).rightId ≠ 0 := fun h => hr0 (hr.id_eq_zero.mp h)
  obtain ⟨C₂, n, nr, rfl, hside⟩ := exists_plug_leftmost hr0
  have hT : plug C (.node x l (plug C₂ (.node n .nil nr))) =
      plug (C₂ ++ ⟨.right, x, l⟩ :: C) (.node n .nil nr) := by
    simp [plug_append]
  have hnext : avlNextNode cfg s.arr x = some n := by
    rw [avlNextNode_spec hrep hnd hh, inorder_plug, before_eq_nil_of_left hside]
    simp
  rw [hT] at hrep
  obtain ⟨_, _, hD, rfl, hn, rfl, -, -, -, -, hnr⟩ := rep_plug.mp hrep
  have hndD : (n :: (nr.inorder ++ ctxNodes (C₂ ++ ⟨.right, x, l⟩ :: C))).Nodup := by
    rw [hT] at hnd
    simpa using nodup_plug.mp hnd
  have hmemD : ∀ j, j ∈ n :: (nr.inorder ++ ctxNodes (C₂ ++ ⟨.right, x, l⟩ :: C)) →
      j ∈ (plug C (.node x l (plug C₂ (.node n .nil nr)))).inorder := by
    intro j hj
    rw [hT, mem_inorder_plug]
    simpa [or_assoc] using hj
  obtain ⟨hnD, -⟩ := List.nodup_cons.mp hndD
  rw [List.mem_append, not_or] at hnD
  -- n gets the balance of x
  set s₀ := s.setBalance n (s.arr x).balance with hs₀
  have hs₀n : s₀.arr n = { s.arr n with balance := (s.arr x).balance } := by
    simp [hs₀, State.setBalance_arr]
  have hs₀j : ∀ j, j ≠ n → s₀.arr j = s.arr j := by
    intro j hj
    rw [hs₀, State.setBalance_arr, if_neg hj]
  have hD₀ : CtxRep s₀.arr s₀.tree.root 0 (C₂ ++ ⟨.right, x, l⟩ :: C) (avlNodeToId n)
      (s₀.arr n).parentId (nr.height + 1) := by
    rw [hs₀n]
    have := hD.setBalance (b := (s.arr x).balance) hnD.2
    exact this
  have hnr₀ : Rep s₀.arr (avlNodeToId n) (s₀.arr n).rightId nr := by
    rw [hs₀n]
    refine hnr.congr fun j hj => hs₀j j ?_
    rintro rfl
    exact hnD.1 hj
  -- it leaves its own place and takes that of x
  obtain ⟨s₁, u, hid, hpar, heq₁, hC₂, hnr₁, hb₁, hsame, htree, hrel₁, hu⟩ :=
    detachNext_spec hn hD₀ hnr₀ hndD
  obtain ⟨mid, mpar, -, hx₀⟩ := ctxRep_append.mp hD₀
  have hx₁ := hx₀.congr hsame
  rw [← htree] at hx₁
  have hxn : x ≠ n := by
    rintro rfl
    exact hnD.2 (by simp [ctxNodes_append])
  have hb : (s₁.arr n).balance = (s₁.arr x).balance := by
    rw [hb₁, hs₀n, hsame x (by simp), hs₀j x hxn]
  obtain ⟨s₂, heq₂, hD₂, hnr₂, hrel₂⟩ :=
    takePlace_spec (u := u) hn hC₂ hnr₁ hb hx₁ hl0 hndD
  refine ⟨s₂, u, C₂ ++ ⟨.right, n, l⟩ :: C, nr, hid, hpar, ?_, hD₂, hnr₂, hu, ?_, ?_, ?_⟩
  · unfold unlink
    rw [if_neg hlid, if_neg hrid, hnext]
    simp only [← hs₀, heq₁, heq₂]
  · refine ⟨before C ++ l.inorder, n :: (nr.inorder ++ after C₂ ++ after C), ?_, ?_⟩
    · simp [inorder_plug, before_eq_nil_of_left hside]
    · simp [inorder_plug, before_append, after_append, before_eq_nil_of_left hside]
  · rw [hT, height_plug, ctxHeight_append, ctxHeight_append]
    simp
  · have hrel₀ : Relinks s s₀ _ := (Relinks.refl s _).setBalance (hmemD n (by simp))
    exact hrel₀.trans ((hrel₁.trans hrel₂).mono hmemD)

end Avl
