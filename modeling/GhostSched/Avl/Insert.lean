import GhostSched.Avl.Invariant

/-!
# Insertion

`avl_tree_insert` walks down to a free child slot, links the node there and
climbs back to restore the balance fields.

* `insertRetrace_spec` is the climb: an induction over the frames above the
  subtree that grew.
* `insertDescend_spec` is the walk: it either stops at a hole of the tree that
  splits the keys into `≤ key` and `> key`, or runs out of iterations in a
  tree that already has the full height.
* `avlTreeInsert_spec` puts the two together.
-/

namespace Avl

open BinaryTree

/-! ## The retrace -/

section Retrace

variable {s : State} {x z hpar h : ℕ} {t : BinaryTree ℕ} {f : Frame ℕ} {C : List (Frame ℕ)}

variable {n : ℕ}

/-- One iteration at `x`, whose subtree on side `f.side` is rooted at `z`. -/
theorem insertRetrace_step (hleft : (s.arr x).leftId = avlNodeToId z ↔ f.side = .left) :
    insertRetrace (n + 1) s (some x) (avlNodeToId x) z (avlNodeToId z) =
      if (s.arr x).balance = 0 then
        insertRetrace n (s.setBalance x f.side.sgn)
          (avlIdToNode (s.arr x).parentId) (s.arr x).parentId x (avlNodeToId x)
      else if 0 < (s.arr x).balance * f.side.other.sgn then s.setBalance x 0
      else reconnect (rebalance f.side s x z).1 (rebalance f.side s x z).2
        (avlNodeToId x) (s.arr x).parentId := by
  obtain ⟨d, v, sib⟩ := f
  cases d with
  | left =>
    have hl : (s.arr x).leftId = avlNodeToId z := hleft.mpr rfl
    simp [insertRetrace, hl, State.setBalance_arr]
  | right =>
    have hl : (s.arr x).leftId ≠ avlNodeToId z := by
      rw [ne_eq, hleft]
      simp
    simp [insertRetrace, hl, State.setBalance_arr]

/-- Climbing from a subtree that grew from height `h` to `h + 1` below frames
whose balance fields still say `h`. -/
theorem insertRetrace_spec (hC : CtxRep s.arr s.tree.root 0 C (avlNodeToId z) hpar h)
    (ht : Rep s.arr hpar (avlNodeToId z) t) (hz : t.rootVal = some z) (hh : t.height = h + 1)
    (hb : (s.arr z).balance = 0 → h = 0) (hnd : (t.inorder ++ ctxNodes C).Nodup)
    (hn : C.length ≤ n) :
    ∃ T, Rep (insertRetrace n s (avlIdToNode hpar) hpar z (avlNodeToId z)).arr 0
        (insertRetrace n s (avlIdToNode hpar) hpar z (avlNodeToId z)).tree.root T ∧
      T.inorder = (plug C t).inorder ∧ T.height ≤ ctxHeight C (h + 1) ∧
      Relinks s (insertRetrace n s (avlIdToNode hpar) hpar z (avlNodeToId z))
        (t.inorder ++ ctxNodes C) := by
  induction C generalizing n s h t z hpar with
  | nil =>
    obtain ⟨hr, rfl⟩ := hC
    have hs : insertRetrace n s (avlIdToNode 0) 0 z (avlNodeToId z) = s := by
      cases n <;> rfl
    rw [hs, hr]
    exact ⟨t, ht, rfl, hh.le, Relinks.refl _ _⟩
  | cons f C ih =>
    obtain ⟨n, rfl⟩ : ∃ m, n = m + 1 := Nat.exists_eq_succ_of_ne_zero (by simp at hn; omega)
    have hzt := mem_inorder_of_rootVal hz
    have hz32 := ht.lt_of_mem hzt
    have hnd' := nodup_frame hnd
    obtain ⟨hndx, hndC, hdisC⟩ := List.nodup_append'.mp hnd'
    obtain ⟨hndt, hnds, hxt, hxs, hts⟩ := nodup_nodeOn.mp hndx
    have hxC : f.val ∉ ctxNodes C := fun hj => hdisC (by simp) hj
    have hleft := hC.left_iff hz32 (fun hj => hts hzt hj)
    obtain ⟨rfl, hx, hch, hbal, h1, h2, hs, hC⟩ := hC
    rw [← hch] at ht
    rw [avlIdToNode_nodeToId hx, insertRetrace_step hleft, hbal]
    have hsgn : f.side.sgn = 1 ∧ f.side.other.sgn = -1 ∨
        f.side.sgn = -1 ∧ f.side.other.sgn = 1 := by
      cases f.side <;> simp
    split
    case isTrue h0 =>
      -- x was balanced: pass the growth on
      have hh' : h = f.sib.height := by
        rcases hsgn with ⟨hd, -⟩ | ⟨hd, -⟩ <;> rw [hd] at h0 <;> omega
      have hb0 : ((s.setBalance f.val f.side.sgn).arr f.val).balance = 0 →
          max h f.sib.height + 1 = 0 := by
        rw [State.setBalance_arr, if_pos rfl]
        rcases hsgn with ⟨hd, -⟩ | ⟨hd, -⟩ <;> simp [hd]
      have hx' := rep_nodeOn_setBalance (b := f.side.sgn) hx ht hs hxt hxs
        (by rw [hh, hh']; push_cast; ring) (by omega) (by omega)
      obtain ⟨T, hT, hTi, hTh, hrel⟩ := ih (n := n) (hC.setBalance hxC) hx' (rootVal_nodeOn ..)
        (by rw [height_nodeOn]; omega) hb0 hnd' (by simpa using hn)
      refine ⟨T, hT, hTi, hTh.trans ?_, ?_⟩
      · exact ctxHeight_mono C (by omega)
      · exact Relinks.trans ((Relinks.refl _ _).setBalance (by simp)) (hrel.mono mem_frame)
    case isFalse h0 =>
      split
      case isTrue hpos =>
        -- x was heavy on the other side: it absorbs the growth
        have hh' : h + 1 = f.sib.height := by
          rcases hsgn with ⟨hd, hd'⟩ | ⟨hd, hd'⟩ <;> rw [hd, hd'] at hpos <;> omega
        have hx' := rep_nodeOn_setBalance (b := 0) hx ht hs hxt hxs
          (by rw [hh, hh']; simp) (by omega) (by omega)
        refine ⟨plug C (nodeOn f.side t f.val f.sib), ?_, rfl, ?_, ?_⟩
        · refine rep_plug.mpr ⟨_, _, ?_, hx'⟩
          rw [height_nodeOn, hh, show max (h + 1) f.sib.height = max h f.sib.height by omega]
          exact hC.setBalance hxC
        · rw [height_plug, height_nodeOn, hh, ctxHeight_cons]
        · exact (Relinks.refl _ _).setBalance (by simp)
      case isFalse hpos =>
        -- x is now two levels out of balance: rotate
        have hh' : h = f.sib.height + 1 := by
          rcases hsgn with ⟨hd, hd'⟩ | ⟨hd, hd'⟩ <;> rw [hd] at h0 hpos <;>
            rw [hd'] at hpos <;> omega
        obtain ⟨o, z', i, rfl⟩ := exists_nodeOn f.side (t := t) (by rintro rfl; simp at hh)
        obtain rfl : z' = z := by simpa using hz
        rw [height_nodeOn] at hh
        have hoi : o.height ≠ i.height := by
          grind [rep_nodeOn]
        obtain ⟨t', hC', ht', -, hin, hht, hrel⟩ :=
          rotate_reconnect hx ht hs hC hnd' (by omega) rfl rfl
        rw [if_neg hoi] at hht
        refine ⟨plug C t', ?_, ?_, ?_, hrel.mono mem_frame⟩
        · grind [rep_plug]
        · rw [inorder_plug, hin, plug_cons, inorder_plug]
        · rw [height_plug, ctxHeight_cons]
          exact ctxHeight_mono C (by omega)

end Retrace

/-! ## The descent -/

/-- The locals of the descent agree with the innermost frame of `C`. -/
structure Descent.At (d : Descent) (C : List (Frame ℕ)) : Prop where
  x : d.x = C.head?.map Frame.val
  xId : d.xId = avlPtrToId d.x
  left : ∀ f C', C = f :: C' → (d.left = true ↔ f.side = .left)
  asserted : d.asserted = false

/-- The hole of `C` is where `key` belongs: behind every key that is not
larger and before every key that is. -/
structure Splits (arr : Arr) (key : ℕ) (C : List (Frame ℕ)) : Prop where
  before : ∀ j ∈ before C, (arr j).key ≤ key
  after : ∀ j ∈ after C, key < (arr j).key

section Descent

variable {arr : Arr} {key : ℕ} {t : BinaryTree ℕ} {C : List (Frame ℕ)}

variable {l r : BinaryTree ℕ} {x : ℕ}

theorem Splits.left (hC : Splits arr key C) (hsort : SortedKeys arr (node x l r).inorder)
    (hlt : key < (arr x).key) :
    Splits arr key (⟨.left, x, r⟩ :: C) := by
  refine ⟨hC.before, ?_⟩
  intro j hj
  rw [after_left, List.cons_append, List.mem_cons, List.mem_append] at hj
  rcases hj with rfl | hj | hj
  · exact hlt
  · have := (List.pairwise_append.mp hsort).2.1
    exact hlt.trans_le (List.rel_of_pairwise_cons this hj)
  · exact hC.after j hj

theorem Splits.right (hC : Splits arr key C) (hsort : SortedKeys arr (node x l r).inorder)
    (hle : (arr x).key ≤ key) :
    Splits arr key (⟨.right, x, l⟩ :: C) := by
  refine ⟨?_, hC.after⟩
  intro j hj
  rw [before_right, List.mem_append, List.mem_append, List.mem_singleton] at hj
  rcases hj with (hj | hj) | rfl
  · exact hC.before j hj
  · have := (List.pairwise_append.mp hsort).2.2 j hj x (by simp)
    exact this.trans hle
  · exact hle

/-- The descent from a subtree `t` below `C`. -/
theorem insertDescend_spec {n : ℕ} {d : Descent} {p : ℕ} (hd : d.At C)
    (ht : Rep arr p d.nextId t) (hsort : SortedKeys arr t.inorder) (hC : Splits arr key C) :
    (insertDescend arr key n d).asserted = false ∧
      ((insertDescend arr key n d).nextId ≠ 0 ∧ n < t.height ∨
        ∃ D, (insertDescend arr key n d).nextId = 0 ∧ plug D .nil = plug C t ∧
          D.length ≤ C.length + n ∧ (insertDescend arr key n d).At D ∧ Splits arr key D) := by
  induction t generalizing n d p C with
  | nil =>
    have h0 : d.nextId = 0 := ht
    have hd' : insertDescend arr key n d = d := by
      cases n with
      | zero => rfl
      | succ n => simp [insertDescend, h0]
    rw [hd']
    exact ⟨hd.asserted, .inr ⟨C, h0, rfl, by omega, hd, hC⟩⟩
  | node x l r ihl ihr =>
    have hid := ht.idToNode
    rw [rootVal_node] at hid
    obtain ⟨hx, hx32, -, -, -, -, hl, hr⟩ := ht
    have hne : d.nextId ≠ 0 := by
      rw [hx]
      exact avlNodeToId_ne_zero hx32
    cases n with
    | zero => exact ⟨hd.asserted, .inl ⟨hne, by simp⟩⟩
    | succ n =>
      rw [insertDescend, if_neg hne, hid]
      dsimp only
      have hsplit := List.pairwise_append.mp hsort
      by_cases hlt : key < (arr x).key
      · -- go left
        rw [if_pos hlt]
        obtain ⟨hok, hres⟩ := ihl (n := n) (C := ⟨.left, x, r⟩ :: C)
          (d := { d with x := some x, xId := d.nextId, nextId := (arr x).leftId, left := true })
          ⟨rfl, hx, by simp, hd.asserted⟩ hl hsplit.1 (hC.left hsort hlt)
        refine ⟨hok, hres.imp ?_ ?_⟩
        · rintro ⟨h0, hn⟩
          exact ⟨h0, by rw [height]; omega⟩
        · rintro ⟨D, h0, hplug, hlen, hat, hs⟩
          exact ⟨D, h0, hplug, by rw [List.length_cons] at hlen; omega, hat, hs⟩
      · -- go right, ties included
        rw [if_neg hlt]
        obtain ⟨hok, hres⟩ := ihr (n := n) (C := ⟨.right, x, l⟩ :: C)
          (d := { d with x := some x, xId := d.nextId, nextId := (arr x).rightId, left := false })
          ⟨rfl, hx, by simp, hd.asserted⟩ hr (List.Pairwise.of_cons hsplit.2.1)
          (hC.right hsort (not_lt.mp hlt))
        refine ⟨hok, hres.imp ?_ ?_⟩
        · rintro ⟨h0, hn⟩
          exact ⟨h0, by rw [height]; omega⟩
        · rintro ⟨D, h0, hplug, hlen, hat, hs⟩
          exact ⟨D, h0, hplug, by rw [List.length_cons] at hlen; omega, hat, hs⟩

end Descent

/-! ## Linking the node -/

variable {D : List (Frame ℕ)} {s s' : State} {node : ℕ}

/-- Hanging a reset node into the hole of `D` and retracing: the tree grows by
`node`, in the place of the hole. -/
theorem hang_retrace {n : ℕ} (hrep : Rep s.arr 0 s.tree.root (plug D .nil))
    (hnode : node + 1 < 2 ^ 32) (hfresh : node ∉ ctxNodes D) (hnd : (ctxNodes D).Nodup)
    (hl : (s.arr node).leftId = 0) (hr : (s.arr node).rightId = 0) (hb : (s.arr node).balance = 0)
    (hn : D.length ≤ n)
    (hs' : insertRetrace n (hang s D (avlNodeToId node)) (D.head?.map Frame.val)
      (avlPtrToId (D.head?.map Frame.val)) node (avlNodeToId node) = s') :
    ∃ T, Rep s'.arr 0 s'.tree.root T ∧ T.inorder = before D ++ node :: after D ∧
      T.height ≤ max (plug D .nil).height (D.length + 1) ∧
      Relinks s s' (node :: ctxNodes D) := by
  obtain ⟨hid, hpar, hC, -⟩ := rep_plug.mp hrep
  have hleaf : Rep s.arr (s.arr node).parentId (avlNodeToId node) (.node node .nil .nil) :=
    ⟨rfl, hnode, rfl, by simpa using hb, by simp, by simp, hl, hr⟩
  have hnd' : ((BinaryTree.node node .nil .nil).inorder ++ ctxNodes D).Nodup := by
    simpa using ⟨hfresh, hnd⟩
  obtain ⟨hC', hleaf', hrel⟩ := hang_spec hC hleaf hnd' rfl
  -- the balance fields above the leaf are still those of an empty hole
  have hbal : ((hang s D (avlNodeToId node)).arr node).balance = 0 → 0 = 0 := fun _ => rfl
  obtain ⟨T, hT, hin, hh, hrel'⟩ := insertRetrace_spec (n := n) hC' hleaf' rfl rfl hbal hnd' hn
  rw [hC.idToNode, hC.hpar_eq, hs'] at hT hrel'
  refine ⟨T, hT, ?_, ?_, hrel.trans hrel'⟩
  · rw [hin, inorder_plug]
    simp
  · refine hh.trans ((ctxHeight_le_max D 0 (0 + 1)).trans ?_)
    rw [height_plug]
    simp

/-! ## The caches -/

variable {l₁ l₂ : List ℕ}

theorem head?_insert (node : ℕ) (h : l₁ ≠ []) : (l₁ ++ node :: l₂).head? = (l₁ ++ l₂).head? := by
  cases l₁ with
  | nil => exact absurd rfl h
  | cons i l => rfl

theorem getLast?_insert (node : ℕ) (h : l₂ ≠ []) :
    (l₁ ++ node :: l₂).getLast? = (l₁ ++ l₂).getLast? := by
  rcases List.eq_nil_or_concat' l₂ with rfl | ⟨l, i, rfl⟩
  · exact absurd rfl h
  · rw [show l₁ ++ node :: (l ++ [i]) = (l₁ ++ node :: l) ++ [i] by simp,
      ← List.append_assoc, List.getLast?_concat, List.getLast?_concat]

variable {cfg : Config}

/-- The tie-breaking of the cache update, `<` for the minimum and `>=` for the
maximum, is that of the descent. -/
theorem cacheInsert_cached (hcfg : cfg.caching = true) (h32 : ∀ j ∈ l₁ ++ l₂, j + 1 < 2 ^ 32)
    (hc : Cached s (l₁ ++ l₂)) (h₁ : ∀ j ∈ l₁, (s.arr j).key ≤ (s.arr node).key)
    (h₂ : ∀ j ∈ l₂, (s.arr node).key < (s.arr j).key) :
    Cached (cacheInsert cfg s node) (l₁ ++ node :: l₂) := by
  have hptr : ∀ q : Option ℕ, (∀ j, q = some j → j ∈ l₁ ++ l₂) → (avlPtrToId q = 0 ↔ q = none) := by
    intro q hq
    cases q with
    | none => simp [avlPtrToId]
    | some j => simpa [avlPtrToId] using avlNodeToId_ne_zero (h32 j (hq j rfl))
  have hmin0 := hptr (l₁ ++ l₂).head? fun j hj => List.mem_of_head? hj
  have hmax0 := hptr (l₁ ++ l₂).getLast? fun j hj => List.mem_of_getLast? hj
  -- the new node becomes the minimum iff nothing precedes it
  have hmin : (s.tree.minId = 0 ∨ (s.arr node).key < s.tree.minKey) ↔ l₁ = [] := by
    rw [hc.minId, hmin0]
    cases l₁ with
    | nil =>
      cases l₂ with
      | nil => simp
      | cons i l =>
        have := hc.minKey i rfl
        simpa [this] using h₂ i (by simp)
    | cons i l =>
      have := hc.minKey i rfl
      simpa [this] using h₁ i (by simp)
  -- and the maximum iff nothing follows it
  have hmax : (s.tree.maxId = 0 ∨ s.tree.maxKey ≤ (s.arr node).key) ↔ l₂ = [] := by
    rw [hc.maxId, hmax0]
    rcases List.eq_nil_or_concat' l₂ with rfl | ⟨l, i, rfl⟩
    · grind [cases Cached]
    · have := hc.maxKey i (by simp [← List.append_assoc])
      simpa [this] using h₂ i (by simp)
  have htree : (cacheInsert cfg s node).tree = { s.tree with
      minId := if l₁ = [] then avlNodeToId node else s.tree.minId
      minKey := if l₁ = [] then (s.arr node).key else s.tree.minKey
      maxId := if l₂ = [] then avlNodeToId node else s.tree.maxId
      maxKey := if l₂ = [] then (s.arr node).key else s.tree.maxKey } := by
    simp only [cacheInsert, hcfg, if_true, hmin]
    by_cases hl₁ : l₁ = []
    · simp only [if_pos hl₁, hmax]
      split <;> rfl
    · simp only [if_neg hl₁, hmax]
      split <;> rfl
  have harr : (cacheInsert cfg s node).arr = s.arr := by
    simp [cacheInsert, hcfg]
  constructor
  · rw [htree]
    by_cases hl₁ : l₁ = []
    · simp [hl₁, avlPtrToId]
    · simpa [hl₁, head?_insert node hl₁] using hc.minId
  · intro i hi
    rw [htree, harr]
    by_cases hl₁ : l₁ = []
    · simp only [hl₁, List.nil_append, List.head?_cons, Option.some.injEq] at hi
      simp [hl₁, hi]
    · rw [head?_insert node hl₁] at hi
      simpa [hl₁] using hc.minKey i hi
  · rw [htree]
    by_cases hl₂ : l₂ = []
    · simp [hl₂, avlPtrToId]
    · rw [getLast?_insert node hl₂]
      simpa [hl₂] using hc.maxId
  · intro i hi
    rw [htree, harr]
    by_cases hl₂ : l₂ = []
    · simp only [hl₂, List.getLast?_concat, Option.some.injEq] at hi
      simp [hl₂, hi]
    · rw [getLast?_insert node hl₂] at hi
      simpa [hl₂] using hc.maxKey i hi

/-! ## The whole insertion -/

/-- `node` was inserted into the sequence `l` behind every key that is not
larger than its own. -/
def InsertedAfterLe (arr : Arr) (node : ℕ) (l l' : List ℕ) : Prop :=
  ∃ l₁ l₂, l = l₁ ++ l₂ ∧ l' = l₁ ++ node :: l₂ ∧
    (∀ j ∈ l₁, (arr j).key ≤ (arr node).key) ∧ ∀ j ∈ l₂, (arr node).key < (arr j).key

variable {l' : List ℕ} {arr : Arr}

theorem InsertedAfterLe.sorted {l : List ℕ} (h : InsertedAfterLe arr node l l')
    (hs : SortedKeys arr l) : SortedKeys arr l' := by
  obtain ⟨l₁, l₂, rfl, rfl, h₁, h₂⟩ := h
  grind [List.pairwise_cons, Avl.SortedKeys]

theorem InsertedAfterLe.perm {l : List ℕ} (h : InsertedAfterLe arr node l l') :
    l'.Perm (node :: l) := by
  obtain ⟨l₁, l₂, rfl, rfl, -⟩ := h
  exact List.perm_middle

variable {arr' : Arr}

theorem InsertedAfterLe.congr {l : List ℕ} (h : InsertedAfterLe arr node l l')
    (hkey : ∀ j, (arr' j).key = (arr j).key) :
    InsertedAfterLe arr' node l l' := by
  simpa only [InsertedAfterLe, hkey] using h

/-- What one insertion does: `node` enters the tree, or a tree of full height
has no room on its path and `node` becomes the first orphan. -/
def Inserted (cfg : Config) (arr : Arr) (node : ℕ) (T : BinaryTree ℕ) (O : List ℕ)
    (T' : BinaryTree ℕ) (O' : List ℕ) : Prop :=
  O' = O ∧ InsertedAfterLe arr node T.inorder T'.inorder ∨
    O' = node :: O ∧ T' = T ∧ cfg.maxAvlHeight ≤ T.height

variable {T T' : BinaryTree ℕ} {O O' : List ℕ}

theorem Inserted.congr (h : Inserted cfg arr node T O T' O')
    (hkey : ∀ j, (arr' j).key = (arr j).key) : Inserted cfg arr' node T O T' O' :=
  h.imp (fun ⟨hO, hT⟩ => ⟨hO, hT.congr hkey⟩) id

theorem Inserted.perm (h : Inserted cfg arr node T O T' O') :
    (T'.inorder ++ O').Perm (node :: (T.inorder ++ O)) := by
  rcases h with ⟨rfl, h⟩ | ⟨rfl, rfl, -⟩
  · exact h.perm.append_right O'
  · exact List.perm_middle

section Insert

variable {cfg : Config} {s : State} {T : BinaryTree ℕ} {O : List ℕ} {node : ℕ}

@[simp] theorem resetNode_tree (s : State) (node : ℕ) : (resetNode s node).tree = s.tree := rfl

theorem resetNode_key (s : State) (node j : ℕ) :
    ((resetNode s node).arr j).key = (s.arr j).key := by
  rw [resetNode, State.set_arr]
  split <;> rfl

theorem resetNode_touches (s : State) (node : ℕ) : Touches s (resetNode s node) [node] :=
  Touches.set s (by simp) fun _ => rfl

/-- The path is longer than the descent may be. -/
theorem avlTreeInsert_orphan (hd : (findParent cfg (resetNode s node) node).asserted = false)
    (h0 : (findParent cfg (resetNode s node) node).nextId ≠ 0) :
    avlTreeInsert cfg s node =
      insertOrphan ((resetNode s node).set node fun n => { n with isOrphan := true }) node := by
  simp only [avlTreeInsert, hd, Bool.not_false, State.assert_true]
  rw [if_pos h0]

/-- The descent found the hole of `D`. -/
theorem avlTreeInsert_hole (h0 : (findParent cfg (resetNode s node) node).nextId = 0)
    (hat : (findParent cfg (resetNode s node) node).At D) (hnode : node + 1 < 2 ^ 32)
    (hcache : cfg.caching = true → D = [] → s.tree.minId = 0 ∧ s.tree.maxId = 0) :
    avlTreeInsert cfg s node =
      cacheInsert cfg (insertRetrace cfg.maxAvlHeight (hang (resetNode s node) D (avlNodeToId node))
        (D.head?.map Frame.val) (avlPtrToId (D.head?.map Frame.val)) node (avlNodeToId node))
        node := by
  have hx := hat.x
  have hxId := hat.xId
  rw [hx] at hxId
  have hleft := hat.left
  have hd := hat.asserted
  simp only [avlTreeInsert, hd, Bool.not_false, State.assert_true, h0, ne_eq, not_true_eq_false,
    if_false, hx, hxId]
  cases D with
  | nil =>
    -- the first node of the tree: the source sets the four cache fields directly
    have hre : ∀ n s', insertRetrace n s' none 0 node (avlNodeToId node) = s' := by
      intro n s'
      cases n <;> rfl
    simp only [List.head?_nil, Option.map_none, avlPtrToId, hre]
    cases hc : cfg.caching with
    | false => simp [cacheInsert, hc, hang, avlIdToNode_nodeToId hnode, avlPtrToId, State.setPtr,
        State.setParent]
    | true =>
      obtain ⟨hmin, hmax⟩ := hcache hc rfl
      simp [cacheInsert, hc, hang, avlIdToNode_nodeToId hnode, avlPtrToId, State.setPtr,
        State.setParent, hmin, hmax]
  | cons f C =>
    have hf := hleft f C rfl
    obtain ⟨d, v, sib⟩ := f
    cases d with
    | left =>
      simp only [hf.mpr rfl, if_true, List.head?_cons, Option.map_some, avlPtrToId, hang,
        avlIdToNode_nodeToId hnode]
      rfl
    | right =>
      have hfalse : ¬ (findParent cfg (resetNode s node) node).left = true := by
        rw [hf]
        simp
      simp only [hfalse, List.head?_cons, Option.map_some, avlPtrToId, hang,
        avlIdToNode_nodeToId hnode]
      rfl

/-- `cacheInsert` writes nothing but the four cache fields. -/
theorem cacheInsert_fields (cfg : Config) (s : State) (node : ℕ) :
    (cacheInsert cfg s node).arr = s.arr ∧ (cacheInsert cfg s node).asserted = s.asserted ∧
      (cacheInsert cfg s node).tree.root = s.tree.root ∧
      (cacheInsert cfg s node).tree.firstOrphanId = s.tree.firstOrphanId := by
  unfold cacheInsert
  split
  · refine ⟨rfl, rfl, ?_, ?_⟩ <;> dsimp only <;> split <;> split <;> rfl
  · exact ⟨rfl, rfl, rfl, rfl⟩

/-- Putting a node that is nowhere on the orphan list. -/
theorem Inv.orphan (hI : Inv cfg s T O) (hnode : node + 1 < 2 ^ 32) (hfresh : node ∉ T.inorder ++ O)
    (hs' : insertOrphan (s.set node fun n => { n with isOrphan := true }) node = s') :
    Inv cfg s' T (node :: O) ∧ Touches s s' (node :: (T.inorder ++ O)) := by
  set s₁ := s.set node fun n => { n with isOrphan := true } with hs₁
  have hframe : ∀ j ∈ T.inorder ++ O, s₁.arr j = s.arr j := by
    intro j hj
    apply State.set_arr_of_ne
    rintro rfl
    exact hfresh hj
  have hO₁ : OrphanList s₁ O := by
    refine OrphanSeg.congr hI.orphans fun j hj => ?_
    rw [hframe j (by simp [hj])]
    exact ⟨rfl, rfl⟩
  obtain ⟨-, hndO, hdis⟩ := List.nodup_append'.mp hI.nodup
  have hfresh' := hfresh
  rw [List.mem_append, not_or] at hfresh'
  obtain ⟨hO', hrel⟩ := insertOrphan_spec hO₁ hnode (List.nodup_cons.mpr ⟨hfresh'.2, hndO⟩)
  rw [hs'] at hO' hrel
  have htouch : Touches s s₁ (node :: (T.inorder ++ O)) := Touches.set s (by simp) fun _ => rfl
  refine ⟨hI.of_orphans ?_ hrel.tree hrel.asserted ?_ hO' ?_, htouch.trans (hrel.touches.mono ?_)⟩
  · intro j hj
    rw [hrel.frame j, hframe j (by simp [hj])]
    rw [List.mem_cons, not_or]
    refine ⟨?_, fun hj' => hdis hj hj'⟩
    rintro rfl
    exact hfresh'.1 hj
  · exact List.nodup_middle.mpr (List.nodup_cons.mpr ⟨hfresh, hI.nodup⟩)
  · intro j hj
    rw [hrel.isOrphan]
    rcases List.mem_cons.mp hj with rfl | hj
    · simp [hs₁]
    · rw [hframe j (by simp [hj])]
      exact hI.orphaned j hj
  · exact List.cons_subset_cons node (List.subset_append_right _ _)

/-- Hanging a reset node into a hole that splits the keys. -/
theorem Inv.link (hI : Inv cfg s T O) (hnode : node + 1 < 2 ^ 32) (hfresh : node ∉ T.inorder ++ O)
    (hl : (s.arr node).leftId = 0) (hr : (s.arr node).rightId = 0) (hb : (s.arr node).balance = 0)
    (hflag : (s.arr node).isOrphan = false) (hplug : plug D .nil = T)
    (hlen : D.length + 1 ≤ cfg.maxAvlHeight) (hsplit : Splits s.arr (s.arr node).key D)
    (hs' : insertRetrace cfg.maxAvlHeight (hang s D (avlNodeToId node)) (D.head?.map Frame.val)
      (avlPtrToId (D.head?.map Frame.val)) node (avlNodeToId node) = s') :
    ∃ T', Inv cfg (cacheInsert cfg s' node) T' O ∧ InsertedAfterLe s.arr node T.inorder T'.inorder ∧
      Touches s (cacheInsert cfg s' node) (node :: (T.inorder ++ O)) := by
  have hperm := perm_inorder_plug D (.nil : BinaryTree ℕ)
  rw [hplug, inorder_nil, List.nil_append] at hperm
  have hmem : ∀ j, j ∈ ctxNodes D ↔ j ∈ T.inorder := fun j => hperm.mem_iff.symm
  have hinD : T.inorder = before D ++ after D := by
    rw [← hplug, inorder_plug]
    simp
  have hnT : node ∉ T.inorder := fun hj => hfresh (by simp [hj])
  obtain ⟨T', hrep, hin, hh, hrel⟩ := hang_retrace (n := cfg.maxAvlHeight) (D := D)
    (hplug ▸ hI.rep) hnode (by rw [hmem]; exact hnT)
    (hperm.nodup_iff.mp (List.nodup_append'.mp hI.nodup).1) hl hr hb (by omega) hs'
  obtain ⟨harr, hasserted, hroot, hfirst⟩ := cacheInsert_fields cfg s' node
  have hins : InsertedAfterLe s.arr node T.inorder T'.inorder :=
    ⟨before D, after D, hinD, hin, hsplit.before, hsplit.after⟩
  refine ⟨T', ⟨?_, ?_, ?_, ?_, ?_, ?_, ?_, ?_, ?_⟩, hins, ?_⟩
  · rw [harr, hroot]
    exact hrep
  · rw [harr]
    exact (hins.sorted hI.sorted).congr fun j _ => hrel.key j
  · rw [hplug] at hh
    have := hI.height
    omega
  · grind [hI.nodup]
  · intro j hj
    rw [harr, hrel.isOrphan]
    grind [hI.inTree]
  · intro j hj
    rw [harr, hrel.isOrphan]
    exact hI.orphaned j hj
  · rw [OrphanList, harr, hfirst]
    exact hrel.orphanList hI.orphans
  · intro hc
    rw [hin]
    have hc' : Cached s' T.inorder :=
      (hI.cached hc).congr (by rw [hrel.tree]) fun j _ => hrel.key j
    rw [hinD] at hc'
    refine cacheInsert_cached hc ?_ hc' ?_ ?_
    · rw [← hinD]
      exact fun j hj => hI.rep.lt_of_mem hj
    · intro j hj
      rw [hrel.key, hrel.key]
      exact hsplit.before j hj
    · intro j hj
      rw [hrel.key, hrel.key]
      exact hsplit.after j hj
  · rw [hasserted, hrel.asserted]
    exact hI.asserted
  · constructor <;> grind [hrel.touches, cases Avl.Touches]

/-- Insertion keeps the invariant and acts on the sequence as `Inserted`
says. -/
theorem avlTreeInsert_spec (hI : Inv cfg s T O) (hcfg : 1 ≤ cfg.maxAvlHeight)
    (hnode : node + 1 < 2 ^ 32) (hfresh : node ∉ T.inorder ++ O) :
    ∃ T' O', Inv cfg (avlTreeInsert cfg s node) T' O' ∧ Inserted cfg s.arr node T O T' O' ∧
      Touches s (avlTreeInsert cfg s node) (node :: (T.inorder ++ O)) := by
  have hI₁ : Inv cfg (resetNode s node) T O := hI.set_fresh hfresh _
  have hself : (resetNode s node).arr node = { s.arr node with
      leftId := 0, rightId := 0, balance := 0, isOrphan := false } := by
    simp [resetNode]
  have hT₁ : Touches s (resetNode s node) (node :: (T.inorder ++ O)) :=
    (resetNode_touches s node).mono (by simp)
  have hsplit₀ : Splits (resetNode s node).arr ((resetNode s node).arr node).key [] :=
    ⟨by simp, by simp⟩
  obtain ⟨hasrt, ⟨h0, hn⟩ | ⟨D, h0, hplug, hlen, hat, hsplit⟩⟩ :=
    insertDescend_spec (C := []) (n := cfg.maxAvlHeight - 1)
      (d := ⟨none, 0, (resetNode s node).tree.root, false, false⟩)
      ⟨rfl, rfl, by simp, rfl⟩ hI₁.rep hI₁.sorted hsplit₀
  · -- no room: the node becomes the first orphan
    rw [avlTreeInsert_orphan hasrt h0]
    obtain ⟨hI', hT'⟩ := hI₁.orphan hnode hfresh rfl
    exact ⟨T, node :: O, hI', .inr ⟨rfl, rfl, by omega⟩, hT₁.trans hT'⟩
  · -- a hole that splits the keys
    rw [List.length_nil] at hlen
    rw [avlTreeInsert_hole h0 hat hnode (by
      rintro hc rfl
      have := hI.cached hc
      rw [← show BinaryTree.nil = T from hplug] at this
      exact ⟨this.minId, this.maxId⟩)]
    obtain ⟨T', hI', hins, hT'⟩ := hI₁.link hnode hfresh (by rw [hself]) (by rw [hself])
      (by rw [hself]) (by rw [hself]) hplug (by omega) hsplit rfl
    exact ⟨T', O, hI', .inl ⟨rfl, hins.congr fun j => (resetNode_key s node j).symm⟩, hT₁.trans hT'⟩

end Insert

end Avl
