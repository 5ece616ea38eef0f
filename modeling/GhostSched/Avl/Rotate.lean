import GhostSched.Avl.Shape

/-!
# Rotations

Each rotation is first described store by store (`avlRotate_arr`,
`avlRotateTwice_arr`), under the separation a represented tree guarantees.
From that the represented subtree after the rotation follows, with its
balance fields (`avlRotate_rep`, `avlRotateTwice_rep`). `Relinks` records
what a rotation leaves alone.
-/

namespace Avl

open BinaryTree

/-- `s'` differs from `s` at most in the links and balances of `nodes` and in
the root of the tree. -/
structure Relinks (s s' : State) (nodes : List ℕ) : Prop where
  frame : ∀ j, j ∉ nodes → s'.arr j = s.arr j
  payload : ∀ j, (s'.arr j).payload = (s.arr j).payload
  tree : s'.tree = { s.tree with root := s'.tree.root }
  asserted : s'.asserted = s.asserted

namespace Relinks

variable {s s' s'' : State} {nodes nodes' : List ℕ}

theorem refl (s : State) (nodes : List ℕ) : Relinks s s nodes :=
  ⟨fun _ _ => rfl, fun _ => rfl, rfl, rfl⟩

section

variable (h : Relinks s s' nodes)
include h

/-- One store after the other. -/
theorem trans (h' : Relinks s' s'' nodes) : Relinks s s'' nodes where
  frame j hj := (h'.frame j hj).trans (h.frame j hj)
  payload j := (h'.payload j).trans (h.payload j)
  tree := by rw [h'.tree, h.tree]
  asserted := h'.asserted.trans h.asserted

/-- More nodes may be written. -/
theorem mono (hsub : ∀ j ∈ nodes, j ∈ nodes') : Relinks s s' nodes' where
  frame j hj := h.frame j fun hj' => hj (hsub j hj')
  payload := h.payload
  tree := h.tree
  asserted := h.asserted

/-- A store that keeps the payload of one of the nodes. -/
theorem set {i : ℕ} (hi : i ∈ nodes) {f : AvlNode → AvlNode} (hf : ∀ n, (f n).payload = n.payload) :
    Relinks s (s'.set i f) nodes where
  frame j hj := by
    rw [State.set_arr_of_ne, h.frame j hj]
    rintro rfl
    exact hj hi
  payload j := by
    rw [State.set_arr, ← h.payload j]
    split
    · exact hf _
    · rfl
  tree := h.tree
  asserted := h.asserted

variable {id : ℕ}

theorem setChild {i : ℕ} (hi : i ∈ nodes) {d : Side} :
    Relinks s (s'.set i fun n => n.setChild d id) nodes :=
  h.set hi fun n => n.payload_setChild d id

theorem setLeft {i : ℕ} (hi : i ∈ nodes) :
    Relinks s (s'.set i fun n => { n with leftId := id }) nodes :=
  h.setChild (d := .left) hi

theorem setRight {i : ℕ} (hi : i ∈ nodes) :
    Relinks s (s'.set i fun n => { n with rightId := id }) nodes :=
  h.setChild (d := .right) hi

theorem setBalance {i : ℕ} (hi : i ∈ nodes) {b : Int} : Relinks s (s'.setBalance i b) nodes :=
  h.set hi fun _ => rfl

theorem setParent {i : ℕ} (hi : i ∈ nodes) : Relinks s (s'.setParent i id) nodes :=
  h.set hi fun _ => rfl

theorem setPtrParent {q : Option ℕ} (hq : ∀ i, q = some i → i ∈ nodes) :
    Relinks s (s'.setPtr q fun n => { n with parentId := id }) nodes := by
  cases q with
  | none => exact h
  | some i => exact h.setParent (hq i rfl)

theorem setRoot : Relinks s (s'.setRoot id) nodes :=
  ⟨h.frame, h.payload, by rw [State.setRoot_tree, h.tree], h.asserted⟩

end

end Relinks

/-! ## Single rotations -/

variable {s : State} {d : Side} {x z : ℕ}

/-- The stores of a single rotation, one node at a time. -/
theorem avlRotate_arr (hxz : x ≠ z) (hx : avlIdToNode ((s.arr z).child d) ≠ some x)
    (hz : avlIdToNode ((s.arr z).child d) ≠ some z) :
    (avlRotate d s x z).1.arr x = { (s.arr x).setChild d.other ((s.arr z).child d) with
          parentId := avlNodeToId z
          balance := if (s.arr z).balance = 0 then d.other.sgn else 0 } ∧
    (avlRotate d s x z).1.arr z = { (s.arr z).setChild d (avlNodeToId x) with
          balance := if (s.arr z).balance = 0 then d.sgn else 0 } ∧
    (∀ j, avlIdToNode ((s.arr z).child d) = some j →
      (avlRotate d s x z).1.arr j = { s.arr j with parentId := avlNodeToId x }) ∧
    (∀ j, j ≠ x → j ≠ z → avlIdToNode ((s.arr z).child d) ≠ some j →
      (avlRotate d s x z).1.arr j = s.arr j) := by
  refine ⟨?_, ?_, ?_, ?_⟩
  · simp [avlRotate, State.setBalance_arr, State.setParent_arr, State.set_arr,
      State.setPtr_arr, hxz, hxz.symm, hx, hz]
  · simp [avlRotate, State.setBalance_arr, State.setParent_arr, State.set_arr,
      State.setPtr_arr, hxz.symm, hz]
  · intro j hj
    have hjx : j ≠ x := fun h => hx (h ▸ hj)
    have hjz : j ≠ z := fun h => hz (h ▸ hj)
    simp [avlRotate, State.setBalance_arr, State.setParent_arr, State.set_arr,
      State.setPtr_arr, hjx, hjz, hj]
  · intro j hjx hjz hj
    simp [avlRotate, State.setBalance_arr, State.setParent_arr, State.set_arr,
      State.setPtr_arr, hjx, hjz, hj]

variable {nodes : List ℕ}

/-- A rotation writes its two nodes and the subtree that moves. -/
theorem avlRotate_relinks (hx : x ∈ nodes) (hz : z ∈ nodes)
    (ht : ∀ j, avlIdToNode ((s.arr z).child d) = some j → j ∈ nodes) :
    Relinks s (avlRotate d s x z).1 nodes := by
  refine Relinks.setBalance (Relinks.setBalance ?_ hx) hz
  refine Relinks.setParent (Relinks.setChild ?_ hz) hx
  exact ((Relinks.refl s nodes).setChild hx).setPtrParent ht

variable {i o sib : BinaryTree ℕ}

/-- A single rotation at `x`, whose subtree on side `d` is two levels deeper
than the other one and not inner heavy. The rotated subtree keeps the parent
field that `z` had. -/
theorem avlRotate_rep (hx : x + 1 < 2 ^ 32)
    (ht : Rep s.arr (avlNodeToId x) ((s.arr x).child d) (nodeOn d o z i))
    (hs : Rep s.arr (avlNodeToId x) ((s.arr x).child d.other) sib)
    (hnd : (nodeOn d (nodeOn d o z i) x sib).inorder.Nodup)
    (hh : max o.height i.height = sib.height + 1) (hle : i.height ≤ o.height) :
    Rep (avlRotate d.other s x z).1.arr (s.arr z).parentId (avlNodeToId z)
      (nodeOn d o z (nodeOn d i x sib)) := by
  obtain ⟨hndt, hnds, hxt, hxs, hdis⟩ := nodup_nodeOn.mp hnd
  obtain ⟨hndo, hndi, hzo, hzi, hoi⟩ := nodup_nodeOn.mp hndt
  obtain ⟨hid, hz, hzp, hzb, hb1, hb2, ho, hi⟩ := rep_nodeOn.mp ht
  have hxz : x ≠ z := by
    rintro rfl
    exact hxt (by simp)
  have hroot := hi.idToNode
  have hxi : x ∉ i.inorder := fun h => hxt (by simp [h])
  have hxo : x ∉ o.inorder := fun h => hxt (by simp [h])
  have hzs : z ∉ sib.inorder := fun h => hdis (by simp) h
  obtain ⟨hax, haz, hat, hao⟩ := avlRotate_arr (d := d.other) (s := s) hxz
    (by rw [hroot]; exact fun h => hxi (mem_inorder_of_rootVal h))
    (by rw [hroot]; exact fun h => hzi (mem_inorder_of_rootVal h))
  rw [Side.other_other] at hax
  -- the three untouched subtrees
  have hane : ∀ j, j ≠ x → j ≠ z → i.rootVal ≠ some j →
      (avlRotate d.other s x z).1.arr j = s.arr j := by
    intro j hjx hjz hj
    exact hao j hjx hjz (by rw [hroot]; exact hj)
  have ho' : Rep (avlRotate d.other s x z).1.arr (avlNodeToId z) ((s.arr z).child d) o := by
    refine ho.congr fun j hj => hane j ?_ ?_ ?_
    · rintro rfl; exact hxo hj
    · rintro rfl; exact hzo hj
    · exact fun h => hoi hj (mem_inorder_of_rootVal h)
  have hs' : Rep (avlRotate d.other s x z).1.arr (avlNodeToId x) ((s.arr x).child d.other) sib := by
    refine hs.congr fun j hj => hane j ?_ ?_ ?_
    · rintro rfl; exact hxs hj
    · rintro rfl; exact hzs hj
    · exact fun h => hdis (by simp [mem_inorder_of_rootVal h]) hj
  have hi' : Rep (avlRotate d.other s x z).1.arr (avlNodeToId x) ((s.arr z).child d.other) i := by
    refine hi.reparent hndi (fun j hj => hat j (by rw [hroot]; exact hj)) ?_
    intro j hj hjr
    refine hane j ?_ ?_ hjr
    · rintro rfl; exact hxi hj
    · rintro rfl; exact hzi hj
  have hstar : (s.arr z).balance = 0 ↔ i.height = o.height := by
    rw [hzb]
    cases d <;> simp <;> omega
  refine rep_nodeOn.mpr ⟨rfl, hz, by rw [haz]; simp, ?_, ?_, ?_, ?_, ?_⟩
  · -- the balance of z, which ends up on top
    rw [haz, height_nodeOn]
    simp only [hstar]
    split_ifs <;> cases d <;> simp <;> omega
  · rw [height_nodeOn]; omega
  · rw [height_nodeOn]; omega
  · rw [haz]
    cases d <;> simpa [AvlNode.child, AvlNode.setChild] using ho'
  · -- x, which went down on the other side
    rw [haz]
    refine rep_nodeOn.mpr ⟨by cases d <;> rfl, hx, by rw [hax], ?_, ?_, ?_, ?_, ?_⟩
    · rw [hax]
      simp only [hstar]
      split_ifs <;> cases d <;> simp <;> omega
    · omega
    · omega
    · rw [hax]
      cases d <;> simpa [AvlNode.child, AvlNode.setChild] using hi'
    · rw [hax]
      cases d <;> simpa [AvlNode.child, AvlNode.setChild] using hs'

/-! ## Double rotations -/

variable {a y : ℕ}

/-- The stores of a double rotation, one node at a time. `q2` and `q3` are the
roots of the two subtrees that change their parent. -/
theorem avlRotateTwice_arr {b : ℕ} {q2 q3 : Option ℕ} (hq2 : avlIdToNode (s.arr y).leftId = q2)
    (hq3 : avlIdToNode (s.arr y).rightId = q3) (hab : a ≠ b) (hay : a ≠ y) (hby : b ≠ y)
    (h2 : ∀ j, q2 = some j → j ≠ a ∧ j ≠ b ∧ j ≠ y ∧ q3 ≠ some j)
    (h3 : ∀ j, q3 = some j → j ≠ a ∧ j ≠ b ∧ j ≠ y) (j : ℕ) :
    (avlRotateTwice s a b y).arr j = if j = y then
        { s.arr y with leftId := avlNodeToId a, rightId := avlNodeToId b, balance := 0 }
      else if j = a then
        { s.arr a with
          parentId := avlNodeToId y
          rightId := (s.arr y).leftId
          balance := if (s.arr y).balance > 0 then -1 else 0 }
      else if j = b then
        { s.arr b with
          parentId := avlNodeToId y
          leftId := (s.arr y).rightId
          balance := if (s.arr y).balance < 0 then 1 else 0 }
      else if q2 = some j then { s.arr j with parentId := avlNodeToId a }
      else if q3 = some j then { s.arr j with parentId := avlNodeToId b }
      else s.arr j := by
  have h2a : q2 ≠ some a := fun h => (h2 a h).1 rfl
  have h2b : q2 ≠ some b := fun h => (h2 b h).2.1 rfl
  have h2y : q2 ≠ some y := fun h => (h2 y h).2.2.1 rfl
  have h3a : q3 ≠ some a := fun h => (h3 a h).1 rfl
  have h3b : q3 ≠ some b := fun h => (h3 b h).2.1 rfl
  have h3y : q3 ≠ some y := fun h => (h3 y h).2.2 rfl
  have hba := hab.symm
  have hya := hay.symm
  have hyb := hby.symm
  simp only [avlRotateTwice, State.setBalance_arr, State.setParent_arr, State.set_arr,
    State.setPtr_arr, hq2, hq3]
  by_cases hy : j = y
  · subst hy
    simp [*]
  by_cases ha : j = a
  · subst ha
    simp [*]
  by_cases hb : j = b
  · subst hb
    simp [*]
  by_cases hj2 : q2 = some j
  · simp [*, (h2 j hj2).2.2.2]
  · simp [*]

/-- A double rotation writes three nodes and two subtrees. -/
theorem avlRotateTwice_relinks {b : ℕ} (ha : a ∈ nodes) (hb : b ∈ nodes) (hy : y ∈ nodes)
    (h2 : ∀ j, avlIdToNode (s.arr y).leftId = some j → j ∈ nodes)
    (h3 : ∀ j, avlIdToNode (s.arr y).rightId = some j → j ∈ nodes) :
    Relinks s (avlRotateTwice s a b y) nodes := by
  refine Relinks.setBalance (Relinks.setBalance (Relinks.setBalance ?_ ha) hy) hb
  refine Relinks.setPtrParent (Relinks.setLeft (Relinks.setParent ?_ hb) hb) h3
  refine Relinks.setRight (Relinks.setPtrParent ?_ h2) hy
  exact (((Relinks.refl s nodes).setLeft hy).setParent ha).setRight ha

@[simp] theorem avlRotateTwice_tree (s : State) (a b y : ℕ) :
    (avlRotateTwice s a b y).tree = s.tree := by
  simp [avlRotateTwice]

variable {p : ℕ}

/-- A double rotation: `y` goes to the top, `a` becomes its left and `b` its
right child, and the subtrees `t2`, `t3` of `y` are handed to them. -/
theorem avlRotateTwice_rep {b : ℕ} {t1 t2 t3 t4 : BinaryTree ℕ} (ha : a + 1 < 2 ^ 32)
    (hb : b + 1 < 2 ^ 32) (hy : Rep s.arr p (avlNodeToId y) (node y t2 t3))
    (h1 : Rep s.arr (avlNodeToId a) (s.arr a).leftId t1)
    (h4 : Rep s.arr (avlNodeToId b) (s.arr b).rightId t4)
    (hnd : (node y (node a t1 t2) (node b t3 t4)).inorder.Nodup)
    (hh1 : max t2.height t3.height = t1.height) (hh4 : max t2.height t3.height = t4.height) :
    Rep (avlRotateTwice s a b y).arr p (avlNodeToId y) (node y (node a t1 t2) (node b t3 t4)) := by
  obtain ⟨-, hy', hyp, hyb, hb1, hb2, h2, h3⟩ := hy
  obtain ⟨hnda, hndb, hya, hyb', hdis⟩ := nodup_nodeOn (d := .left).mp hnd
  obtain ⟨hnd1, hnd2, ha1, ha2, h12⟩ := nodup_nodeOn (d := .left).mp hnda
  obtain ⟨hnd3, hnd4, hb3, hb4, h34⟩ := nodup_nodeOn (d := .left).mp hndb
  -- separation of the three nodes and the four subtrees
  simp only [inorder_node, List.mem_append, List.mem_cons, not_or] at hya hyb'
  obtain ⟨hy1, hya, hy2⟩ := hya
  obtain ⟨hy3, hyb', hy4⟩ := hyb'
  have hleft : ∀ j, j ∈ t1.inorder ∨ j = a ∨ j ∈ t2.inorder →
      j ∉ t3.inorder ∧ j ≠ b ∧ j ∉ t4.inorder := by
    intro j hj
    have : j ∉ (node b t3 t4).inorder := hdis (by simpa using hj)
    simpa only [inorder_node, List.mem_append, List.mem_cons, not_or] using this
  obtain ⟨ha3, hab, ha4⟩ := hleft a (by simp)
  have harr := avlRotateTwice_arr h2.idToNode h3.idToNode hab (Ne.symm hya) (Ne.symm hyb') (by
      intro j hj
      have hj := mem_inorder_of_rootVal hj
      refine ⟨?_, (hleft j (by simp [hj])).2.1, ?_, ?_⟩
      · rintro rfl; exact ha2 hj
      · rintro rfl; exact hy2 hj
      · exact fun h => (hleft j (by simp [hj])).1 (mem_inorder_of_rootVal h))
    (by
      intro j hj
      have hj := mem_inorder_of_rootVal hj
      refine ⟨?_, ?_, ?_⟩
      · rintro rfl; exact ha3 hj
      · rintro rfl; exact hb3 hj
      · rintro rfl; exact hy3 hj)
  have hy0 := harr y
  rw [if_pos rfl] at hy0
  have ha0 := harr a
  rw [if_neg (Ne.symm hya), if_pos rfl] at ha0
  have hb0 := harr b
  rw [if_neg (Ne.symm hyb'), if_neg (Ne.symm hab), if_pos rfl] at hb0
  -- a node that is neither of the three nor a root of the moved subtrees
  have hother : ∀ j, j ≠ y → j ≠ a → j ≠ b → t2.rootVal ≠ some j → t3.rootVal ≠ some j →
      (avlRotateTwice s a b y).arr j = s.arr j := by
    intro j hjy hja hjb hj2 hj3
    rw [harr, if_neg hjy, if_neg hja, if_neg hjb, if_neg hj2, if_neg hj3]
  have h1' : Rep (avlRotateTwice s a b y).arr (avlNodeToId a) (s.arr a).leftId t1 := by
    refine h1.congr fun j hj => hother j ?_ ?_ ?_ ?_ ?_
    · rintro rfl; exact hy1 hj
    · rintro rfl; exact ha1 hj
    · exact (hleft j (by simp [hj])).2.1
    · exact fun h => h12 hj (mem_inorder_of_rootVal h)
    · exact fun h => (hleft j (by simp [hj])).1 (mem_inorder_of_rootVal h)
  have h4' : Rep (avlRotateTwice s a b y).arr (avlNodeToId b) (s.arr b).rightId t4 := by
    refine h4.congr fun j hj => hother j ?_ ?_ ?_ ?_ ?_
    · rintro rfl; exact hy4 hj
    · rintro rfl; exact ha4 hj
    · rintro rfl; exact hb4 hj
    · exact fun h => (hleft j (by simp [mem_inorder_of_rootVal h])).2.2 hj
    · exact fun h => h34 (mem_inorder_of_rootVal h) hj
  have h2' : Rep (avlRotateTwice s a b y).arr (avlNodeToId a) (s.arr y).leftId t2 := by
    grind [h2.reparent, mem_inorder_of_rootVal]
  have h3' : Rep (avlRotateTwice s a b y).arr (avlNodeToId b) (s.arr y).rightId t3 := by
    have hj2 : ∀ j ∈ t3.inorder, t2.rootVal ≠ some j :=
      fun j hj h => (hleft j (by simp [mem_inorder_of_rootVal h])).1 hj
    refine h3.reparent hnd3 ?_ ?_
    · grind [mem_inorder_of_rootVal]
    · intro j hj hjr
      refine hother j ?_ ?_ ?_ (hj2 j hj) hjr
      · rintro rfl; exact hy3 hj
      · rintro rfl; exact ha3 hj
      · rintro rfl; exact hb3 hj
  refine ⟨rfl, hy', by rw [hy0]; exact hyp, ?_, ?_, ?_, ?_, ?_⟩
  · rw [hy0]
    simp only [height]
    omega
  · simp only [height]; omega
  · simp only [height]; omega
  · grind [Rep]
  · grind [Rep]

/-! ## Rebalancing a node

Both retrace loops rotate the same way: `z`, the root of the subtree on side
`d` of `x`, is two levels too deep. -/

section Rebalance

variable {d : Side} {s : State} {x z : ℕ} {o i sib : BinaryTree ℕ}

variable {id : ℕ}

/-- The outer grandchild is at least as deep as the inner one: one rotation. -/
theorem rebalance_single (ht : Rep s.arr p id (nodeOn d o z i)) (hle : i.height ≤ o.height) :
    rebalance d s x z = avlRotate d.other s x z := by
  obtain ⟨-, -, -, hb, -⟩ := rep_nodeOn.mp ht
  cases d with
  | left =>
    rw [Side.sgn_left] at hb
    simp only [rebalance, avlRotateRight, Side.other_left]
    rw [if_pos (by omega)]
  | right =>
    rw [Side.sgn_right] at hb
    simp only [rebalance, avlRotateLeft, Side.other_right]
    rw [if_pos (by omega)]

/-- The inner grandchild `y` is the deeper one: a double rotation. -/
theorem rebalance_double {a b : BinaryTree ℕ} (ht : Rep s.arr p id (nodeOn d o z (nodeOn d a y b)))
    (hlt : o.height < (nodeOn d a y b).height) :
    rebalance d s x z = (match d with
        | .left => avlRotateTwice s z x y
        | .right => avlRotateTwice s x z y, y) := by
  obtain ⟨-, -, -, hb, -, -, -, hy⟩ := rep_nodeOn.mp ht
  have hid := hy.idToNode
  rw [rootVal_nodeOn] at hid
  cases d with
  | left =>
    rw [Side.sgn_left] at hb
    simp only [Side.other_left, AvlNode.child_right] at hid
    simp only [rebalance, avlRotateLeftRight, hid]
    rw [if_neg (by omega)]
  | right =>
    rw [Side.sgn_right] at hb
    simp only [Side.other_right, AvlNode.child_left] at hid
    simp only [rebalance, avlRotateRightLeft, hid]
    rw [if_neg (by omega)]

/-- What rebalancing achieves: a represented subtree with the same in-order
sequence, one level lower unless both grandchildren were equally deep. -/
theorem rebalance_spec (hx : x + 1 < 2 ^ 32)
    (ht : Rep s.arr (avlNodeToId x) ((s.arr x).child d) (nodeOn d o z i))
    (hs : Rep s.arr (avlNodeToId x) ((s.arr x).child d.other) sib)
    (hnd : (nodeOn d (nodeOn d o z i) x sib).inorder.Nodup)
    (hh : max o.height i.height = sib.height + 1) :
    ∃ t p, Rep (rebalance d s x z).1.arr p (avlNodeToId (rebalance d s x z).2) t ∧
      t.rootVal = some (rebalance d s x z).2 ∧
      t.inorder = (nodeOn d (nodeOn d o z i) x sib).inorder ∧
      t.height = sib.height + (if o.height = i.height then 3 else 2) ∧
      (rebalance d s x z).1.tree = s.tree ∧
      Relinks s (rebalance d s x z).1 (nodeOn d (nodeOn d o z i) x sib).inorder := by
  obtain ⟨-, hz, -, -, hb1, hb2, ho, hi⟩ := rep_nodeOn.mp ht
  rcases Nat.lt_or_ge o.height i.height with hlt | hle
  · -- the inner grandchild has a root y, which goes to the top
    have hne : i ≠ .nil := by
      rintro rfl
      simp at hlt
    obtain ⟨a, y, b, rfl⟩ := exists_nodeOn d hne
    have hbal := (rep_nodeOn.mp hi)
    obtain ⟨hyid, hy, -, -, hc1, hc2, ha, hb⟩ := hbal
    rw [height_nodeOn] at hlt hb1 hb2 hh
    rw [rebalance_double ht (by rw [height_nodeOn]; exact hlt),
      if_neg (by rw [height_nodeOn]; omega)]
    rw [← inorder_rotateTwice] at hnd ⊢
    refine ⟨nodeOn d (nodeOn d o z a) y (nodeOn d b x sib), avlNodeToId z, ?_,
      rootVal_nodeOn .., rfl, ?_, ?_, ?_⟩
    · cases d with
      | left =>
        refine avlRotateTwice_rep hz hx (hyid ▸ hi) ho hs hnd ?_ ?_ <;> omega
      | right =>
        refine avlRotateTwice_rep hx hz (hyid ▸ hi) hs ho hnd ?_ ?_ <;> omega
    · simp only [height_nodeOn]
      omega
    · cases d <;> simp
    · have hsub : ∀ q : BinaryTree ℕ, ∀ j, q.rootVal = some j →
          (∀ k ∈ q.inorder, k ∈ a.inorder ∨ k ∈ b.inorder) →
          j ∈ (nodeOn d (nodeOn d o z a) y (nodeOn d b x sib)).inorder := by
        intro q j hj hq
        have := hq j (mem_inorder_of_rootVal hj)
        simp only [mem_inorder_nodeOn]
        tauto
      cases d with
      | left =>
        refine avlRotateTwice_relinks (by simp) (by simp) (by simp) ?_ ?_
        · intro j hj
          exact hsub a j (ha.idToNode ▸ hj) (by tauto)
        · intro j hj
          exact hsub b j (hb.idToNode ▸ hj) (by tauto)
      | right =>
        refine avlRotateTwice_relinks (by simp) (by simp) (by simp) ?_ ?_
        · intro j hj
          exact hsub b j (hb.idToNode ▸ hj) (by tauto)
        · intro j hj
          exact hsub a j (ha.idToNode ▸ hj) (by tauto)
  · rw [rebalance_single ht hle]
    refine ⟨nodeOn d o z (nodeOn d i x sib), _, avlRotate_rep hx ht hs hnd hh hle,
      rootVal_nodeOn .., inorder_rotate .., ?_, ?_, ?_⟩
    · simp only [height_nodeOn]
      split <;> omega
    · simp [avlRotate]
    · refine avlRotate_relinks (by simp) (by simp) ?_
      intro j hj
      rw [hi.idToNode] at hj
      simp [mem_inorder_of_rootVal hj]

end Rebalance

/-! ## Hanging a subtree into a hole

Three pieces of the source store both links between a subtree and the place
where it goes: the end of the retrace loops, `avl_replace_node` and the
linking of a new node. `hang` is what they have in common. -/

/-- Hang the subtree with the root id `id` into the hole of `C`. -/
def hang (s : State) (C : List (Frame ℕ)) (id : ℕ) : State :=
  let s := s.setPtr (avlIdToNode id) fun n =>
    { n with parentId := avlPtrToId (C.head?.map Frame.val) }
  match C with
  | [] => s.setRoot id
  | f :: _ => s.set f.val fun n => n.setChild f.side id

section Hang

variable {arr : Arr} {top tpar hpar hid h p id : ℕ} {C : List (Frame ℕ)} {f : Frame ℕ} {x : ℕ}
  {s : State} {t : BinaryTree ℕ}

variable {j : ℕ}

/-- The root of the subtree gets its parent. -/
theorem hang_arr_root (hj : avlIdToNode id = some j) (hne : C.head?.map Frame.val ≠ some j) :
    (hang s C id).arr j = { s.arr j with parentId := avlPtrToId (C.head?.map Frame.val) } := by
  cases C with
  | nil => simp [hang, State.setPtr_arr, hj]
  | cons f C =>
    have hjf : j ≠ f.val := by
      rintro rfl
      exact hne rfl
    simp [hang, State.set_arr_of_ne _ _ hjf, State.setPtr_arr, hj]

/-- The parent gets its child. -/
theorem hang_arr_head (hne : avlIdToNode id ≠ some f.val) :
    (hang s (f :: C) id).arr f.val = (s.arr f.val).setChild f.side id := by
  simp [hang, State.setPtr_arr, hne]

/-- No other node is written. -/
theorem hang_arr_of_ne (hj : avlIdToNode id ≠ some j) (hne : C.head?.map Frame.val ≠ some j) :
    (hang s C id).arr j = s.arr j := by
  cases C with
  | nil => simp [hang, State.setPtr_arr, hj]
  | cons f C =>
    have hjf : j ≠ f.val := by
      rintro rfl
      exact hne rfl
    simp [hang, State.set_arr_of_ne _ _ hjf, State.setPtr_arr, hj]

theorem hang_root (s : State) (C : List (Frame ℕ)) (id : ℕ) :
    (hang s C id).tree = { s.tree with root := if C = [] then id else s.tree.root } := by
  cases C <;> simp [hang]

/-- The parent of the hole is in the context. -/
theorem mem_ctxNodes_of_head (hj : C.head?.map Frame.val = some j) : j ∈ ctxNodes C := by
  cases C with
  | nil => simp at hj
  | cons f C =>
    obtain rfl : f.val = j := by simpa using hj
    simp

/-- `hang` refills the hole of a represented context. -/
theorem CtxRep.hang (hC : CtxRep s.arr s.tree.root 0 C hid hpar h) (hnd : (ctxNodes C).Nodup)
    (hid' : ∀ j, avlIdToNode id = some j → j ∉ ctxNodes C) :
    CtxRep (hang s C id).arr (hang s C id).tree.root 0 C id hpar h := by
  refine hC.relink hnd (by rw [hang_root]) ?_ ?_
  · rintro f C' rfl
    exact hang_arr_head fun hj => hid' _ hj (by simp)
  · intro j hj hjf
    exact hang_arr_of_ne (fun hj' => hid' j hj' hj) hjf

variable {s' : State}

/-- `hang` fills the hole of a represented context with a represented subtree,
whatever its parent id was. -/
theorem hang_spec (hC : CtxRep s.arr s.tree.root 0 C hid hpar h) (ht : Rep s.arr p id t)
    (hnd : (t.inorder ++ ctxNodes C).Nodup) (hs' : hang s C id = s') :
    CtxRep s'.arr s'.tree.root 0 C id hpar h ∧ Rep s'.arr hpar id t ∧
      Relinks s s' (t.inorder ++ ctxNodes C) := by
  subst hs'
  obtain ⟨hndt, hndC, hdis⟩ := List.nodup_append'.mp hnd
  have hid := ht.idToNode
  have hmemt : ∀ j, avlIdToNode id = some j → j ∈ t.inorder := by
    intro j hj
    rw [hid] at hj
    exact mem_inorder_of_rootVal hj
  refine ⟨hC.hang hndC fun j hj => hdis (hmemt j hj), ?_, ?_⟩
  · rw [hC.hpar_eq]
    have hne : ∀ j ∈ t.inorder, C.head?.map Frame.val ≠ some j :=
      fun j hj hj' => hdis hj (mem_ctxNodes_of_head hj')
    refine ht.reparent hndt ?_ ?_
    · intro j hj
      rw [← hid] at hj
      exact hang_arr_root hj (hne j (hmemt j hj))
    · intro j hj hjr
      rw [← hid] at hjr
      exact hang_arr_of_ne hjr (hne j hj)
  · have hrel : Relinks s (s.setPtr (avlIdToNode id) fun n =>
        { n with parentId := avlPtrToId (C.head?.map Frame.val) }) (t.inorder ++ ctxNodes C) :=
      (Relinks.refl s _).setPtrParent fun j hj => List.mem_append_left _ (hmemt j hj)
    cases C with
    | nil => exact hrel.setRoot
    | cons f C => exact hrel.setChild (by simp)

/-- The test `parent->left_id == x_id` decides on which side `x` hangs. -/
theorem CtxRep.left_iff (hC : CtxRep arr top tpar (f :: C) (avlNodeToId x) hpar h)
    (hx : x + 1 < 2 ^ 32) (hxs : x ∉ f.sib.inorder) :
    (arr f.val).leftId = avlNodeToId x ↔ f.side = .left := by
  obtain ⟨-, -, hch, -, -, -, hs, -⟩ := hC
  obtain ⟨d, v, sib⟩ := f
  cases d with
  | left => simpa using hch
  | right =>
    simp only [reduceCtorEq, iff_false]
    exact hs.id_ne hx hxs

/-- Both branches of that test store to the child link on the side of the
hole. -/
theorem CtxRep.set_child (hC : CtxRep arr top tpar (f :: C) (avlNodeToId x) hpar h)
    (hx : x + 1 < 2 ^ 32) (hxC : x ∉ ctxNodes (f :: C)) (s : State) (id : ℕ) :
    (if (arr f.val).leftId = avlNodeToId x then s.set f.val fun n => { n with leftId := id }
      else s.set f.val fun n => { n with rightId := id }) =
    s.set f.val fun n => n.setChild f.side id := by
  rw [ctxNodes_cons, List.mem_cons, List.mem_append, not_or, not_or] at hxC
  have hleft := hC.left_iff hx hxC.2.1
  obtain ⟨d, v, sib⟩ := f
  cases d with
  | left => rw [if_pos (hleft.mpr rfl)]; rfl
  | right =>
    rw [if_neg (by rw [hleft]; simp)]
    rfl

/-- The end of both retrace loops. -/
theorem reconnect_eq (hC : CtxRep s.arr s.tree.root 0 C (avlNodeToId x) hpar h)
    (hx : x + 1 < 2 ^ 32) (hxC : x ∉ ctxNodes C) (hy : y + 1 < 2 ^ 32) (hyC : y ∉ ctxNodes C) :
    reconnect s y (avlNodeToId x) hpar = hang s C (avlNodeToId y) := by
  simp only [reconnect, hang, avlIdToNode_nodeToId hy]
  cases C with
  | nil =>
    obtain ⟨-, rfl⟩ := hC
    rfl
  | cons f C =>
    have hchild := hC.set_child hx hxC
    obtain ⟨rfl, hf, -⟩ := hC
    have hfy : f.val ≠ y := by
      rintro rfl
      exact hyC (by simp)
    simp only [avlIdToNode_nodeToId hf, State.setParent_arr, hfy, if_false]
    exact hchild _ _

/-- `avl_replace_node` -/
theorem avlReplaceNode_eq (hC : CtxRep s.arr s.tree.root 0 C (avlNodeToId x) (s.arr x).parentId h)
    (hx : x + 1 < 2 ^ 32) (hxC : x ∉ ctxNodes C)
    (hid : ∀ j, avlIdToNode id = some j → j ∉ ctxNodes C) :
    avlReplaceNode s x id = hang s C id := by
  cases C with
  | nil =>
    obtain ⟨-, hp⟩ := hC
    simp [avlReplaceNode, hang, hp, avlPtrToId]
  | cons f C =>
    have hchild := hC.set_child hx hxC
    obtain ⟨hp, hf, -⟩ := hC
    have hxf : x ≠ f.val := by
      rintro rfl
      exact hxC (by simp)
    have hne : avlIdToNode id ≠ some f.val := fun hj => hid _ hj (by simp)
    simp only [avlReplaceNode, hp, avlIdToNode_nodeToId hf, hchild, avlNodeToId_ne_zero hf,
      if_false, State.set_arr_of_ne _ _ hxf]
    rw [State.setPtr_set_comm _ _ _ hne]
    rfl

/-- Rotating at `x` and reconnecting, the tail of an iteration of either
retrace loop. The context keeps the height `h` it is balanced for. -/
theorem rotate_reconnect {d : Side} (hx : x + 1 < 2 ^ 32)
    (ht : Rep s.arr (avlNodeToId x) ((s.arr x).child d) (nodeOn d o z i))
    (hs : Rep s.arr (avlNodeToId x) ((s.arr x).child d.other) sib)
    (hC : CtxRep s.arr s.tree.root 0 C (avlNodeToId x) (s.arr x).parentId h)
    (hnd : ((nodeOn d (nodeOn d o z i) x sib).inorder ++ ctxNodes C).Nodup)
    (hh : max o.height i.height = sib.height + 1) (hy : (rebalance d s x z).2 = y)
    (hs' : reconnect (rebalance d s x z).1 y (avlNodeToId x) (s.arr x).parentId = s') :
    ∃ t, CtxRep s'.arr s'.tree.root 0 C (avlNodeToId y) (s.arr x).parentId h ∧
      Rep s'.arr (s.arr x).parentId (avlNodeToId y) t ∧ t.rootVal = some y ∧
      t.inorder = (nodeOn d (nodeOn d o z i) x sib).inorder ∧
      t.height = sib.height + (if o.height = i.height then 3 else 2) ∧
      Relinks s s' ((nodeOn d (nodeOn d o z i) x sib).inorder ++ ctxNodes C) := by
  subst hy hs'
  obtain ⟨hndx, -, hdis⟩ := List.nodup_append'.mp hnd
  have hxC : x ∉ ctxNodes C := fun hj => hdis (by simp) hj
  obtain ⟨t, p, hrep, hroot, hin, hht, htree, hrel⟩ := rebalance_spec hx ht hs hndx hh
  have hCr : CtxRep (rebalance d s x z).1.arr (rebalance d s x z).1.tree.root 0 C
      (avlNodeToId x) (s.arr x).parentId h := by
    rw [htree]
    exact hC.congr fun j hj => hrel.frame j fun hj' => hdis hj' hj
  have hy := mem_inorder_of_rootVal hroot
  rw [reconnect_eq hCr hx hxC (hrep.lt_of_mem hy) fun hj => hdis (hin ▸ hy) hj]
  obtain ⟨hC', ht', hrel'⟩ := hang_spec hCr hrep (by rw [hin]; exact hnd) rfl
  grind [Relinks]

end Hang

/-! ## Storing a balance -/

variable {t : BinaryTree ℕ} {b : Int}

/-- A node with a new balance field on top of two represented subtrees. -/
theorem rep_nodeOn_setBalance (hx : x + 1 < 2 ^ 32)
    (ht : Rep s.arr (avlNodeToId x) ((s.arr x).child d) t)
    (hs : Rep s.arr (avlNodeToId x) ((s.arr x).child d.other) sib) (hxt : x ∉ t.inorder)
    (hxs : x ∉ sib.inorder) (hb : b = d.sgn * ((t.height : Int) - sib.height))
    (h1 : t.height ≤ sib.height + 1) (h2 : sib.height ≤ t.height + 1) :
    Rep (s.setBalance x b).arr (s.arr x).parentId (avlNodeToId x) (nodeOn d t x sib) := by
  have hself : (s.setBalance x b).arr x = { s.arr x with balance := b } := by
    simp [State.setBalance_arr]
  have hother : ∀ j, j ≠ x → (s.setBalance x b).arr j = s.arr j := by
    intro j hj
    rw [State.setBalance_arr, if_neg hj]
  have ht' : Rep (s.setBalance x b).arr (avlNodeToId x) ((s.arr x).child d) t :=
    ht.congr fun j hj => hother j (by rintro rfl; exact hxt hj)
  have hs' : Rep (s.setBalance x b).arr (avlNodeToId x) ((s.arr x).child d.other) sib :=
    hs.congr fun j hj => hother j (by rintro rfl; exact hxs hj)
  refine rep_nodeOn.mpr ⟨rfl, hx, by rw [hself], by rw [hself]; exact hb, h1, h2, ?_, ?_⟩
  · rw [hself]
    cases d <;> exact ht'
  · rw [hself]
    cases d <;> exact hs'

variable {C : List (Frame ℕ)}

/-- A balance outside of the context. -/
theorem CtxRep.setBalance {top tpar hid hpar h : ℕ} (hC : CtxRep s.arr top tpar C hid hpar h)
    (hx : x ∉ ctxNodes C) :
    CtxRep (s.setBalance x b).arr top tpar C hid hpar h := by
  refine hC.congr fun j hj => ?_
  rw [State.setBalance_arr, if_neg]
  rintro rfl
  exact hx hj

variable {f : Frame ℕ}

/-- The nodes of a frame and of what it holds, seen from below and from above. -/
theorem nodup_frame (hnd : (t.inorder ++ ctxNodes (f :: C)).Nodup) :
    ((nodeOn f.side t f.val f.sib).inorder ++ ctxNodes C).Nodup := by
  have hp := (perm_inorder_nodeOn f.side t f.sib f.val).append_right (ctxNodes C)
  rw [hp.nodup_iff]
  simpa using hnd

theorem mem_frame (j : ℕ) (hj : j ∈ (nodeOn f.side t f.val f.sib).inorder ++ ctxNodes C) :
    j ∈ t.inorder ++ ctxNodes (f :: C) := by
  simp only [List.mem_append, mem_inorder_nodeOn, ctxNodes_cons, List.mem_cons] at hj ⊢
  tauto

end Avl
