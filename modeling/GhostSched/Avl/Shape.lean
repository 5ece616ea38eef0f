import GhostSched.Avl.Model

/-!
# What the array represents

`Rep arr p id t` says that the id `id`, hanging under the parent id `p`, is
the root of a linked tree in the array whose shape is `t`: child ids, parent
ids and balance fields are all as `t` demands. `CtxRep` says the same of a
tree with a hole, and `rep_plug` takes a represented tree apart at any of its
nodes and puts it together again.

A loop that climbs through parent ids is then an induction over the frames of
a context, and a store to one node is local: `Rep.congr` and `CtxRep.congr`
are the frame rules.
-/

namespace Avl

open BinaryTree Function

/-! ## Stores -/

namespace AvlNode

@[simp] theorem child_left (n : AvlNode) : n.child .left = n.leftId := rfl
@[simp] theorem child_right (n : AvlNode) : n.child .right = n.rightId := rfl

@[simp] theorem child_setChild_self (n : AvlNode) (d : Side) (id : ℕ) :
    (n.setChild d id).child d = id := by
  cases d <;> rfl

/-- The other child stays. -/
@[simp] theorem child_setChild_other (n : AvlNode) (d : Side) (id : ℕ) :
    (n.setChild d id).child d.other = n.child d.other := by
  cases d <;> rfl

@[simp] theorem child_setChild_of_other (n : AvlNode) (d : Side) (id : ℕ) :
    (n.setChild d.other id).child d = n.child d := by
  cases d <;> rfl

@[simp] theorem parentId_setChild (n : AvlNode) (d : Side) (id : ℕ) :
    (n.setChild d id).parentId = n.parentId := by
  cases d <;> rfl

@[simp] theorem balance_setChild (n : AvlNode) (d : Side) (id : ℕ) :
    (n.setChild d id).balance = n.balance := by
  cases d <;> rfl

/-- The fields no tree operation writes: the key and the orphan links. -/
def payload (n : AvlNode) : ℕ × Bool × ℕ × ℕ :=
  (n.key, n.isOrphan, n.prevOrphanId, n.nextOrphanId)

/-- Links are no payload. -/
@[simp] theorem payload_setChild (n : AvlNode) (d : Side) (id : ℕ) :
    (n.setChild d id).payload = n.payload := by
  cases d <;> rfl

end AvlNode

namespace State

@[simp] theorem set_tree (s : State) (i : ℕ) (f : AvlNode → AvlNode) :
    (s.set i f).tree = s.tree := rfl

@[simp] theorem set_asserted (s : State) (i : ℕ) (f : AvlNode → AvlNode) :
    (s.set i f).asserted = s.asserted := rfl

@[simp] theorem set_arr_self (s : State) (i : ℕ) (f : AvlNode → AvlNode) :
    (s.set i f).arr i = f (s.arr i) := by
  simp [set]

/-- The other nodes stay. -/
theorem set_arr_of_ne (s : State) {i j : ℕ} (f : AvlNode → AvlNode) (h : j ≠ i) :
    (s.set i f).arr j = s.arr j := by
  simp [set, h]

/-- A store to one node. -/
theorem set_arr (s : State) (i j : ℕ) (f : AvlNode → AvlNode) :
    (s.set i f).arr j = if j = i then f (s.arr j) else s.arr j := by
  by_cases h : j = i
  · subst h; simp
  · simp [set_arr_of_ne, h]

@[simp] theorem setPtr_tree (s : State) (p : Option ℕ) (f : AvlNode → AvlNode) :
    (s.setPtr p f).tree = s.tree := by
  cases p <;> rfl

@[simp] theorem setPtr_asserted (s : State) (p : Option ℕ) (f : AvlNode → AvlNode) :
    (s.setPtr p f).asserted = s.asserted := by
  cases p <;> rfl

/-- A store through a pointer, which may be null. -/
theorem setPtr_arr (s : State) (p : Option ℕ) (j : ℕ) (f : AvlNode → AvlNode) :
    (s.setPtr p f).arr j = if p = some j then f (s.arr j) else s.arr j := by
  cases p with
  | none => simp [setPtr]
  | some i =>
    simp only [setPtr, set_arr, Option.some.injEq]
    by_cases h : j = i
    · simp [h]
    · simp [h, Ne.symm h]

@[simp] theorem setBalance_tree (s : State) (i : ℕ) (b : Int) :
    (s.setBalance i b).tree = s.tree := rfl

@[simp] theorem setBalance_asserted (s : State) (i : ℕ) (b : Int) :
    (s.setBalance i b).asserted = s.asserted := rfl

/-- A store of a balance. -/
theorem setBalance_arr (s : State) (i j : ℕ) (b : Int) : (s.setBalance i b).arr j =
      if j = i then { s.arr j with balance := b } else s.arr j :=
  s.set_arr i j _

@[simp] theorem setParent_tree (s : State) (i id : ℕ) : (s.setParent i id).tree = s.tree := rfl

@[simp] theorem setParent_asserted (s : State) (i id : ℕ) :
    (s.setParent i id).asserted = s.asserted := rfl

/-- A store of a parent id. -/
theorem setParent_arr (s : State) (i j id : ℕ) : (s.setParent i id).arr j =
      if j = i then { s.arr j with parentId := id } else s.arr j :=
  s.set_arr i j _

@[simp] theorem setRoot_arr (s : State) (id : ℕ) : (s.setRoot id).arr = s.arr := rfl

@[simp] theorem setRoot_tree (s : State) (id : ℕ) :
    (s.setRoot id).tree = { s.tree with root := id } := rfl

@[simp] theorem setFirstOrphan_arr (s : State) (id : ℕ) : (s.setFirstOrphan id).arr = s.arr := rfl

@[simp] theorem setFirstOrphan_tree (s : State) (id : ℕ) :
    (s.setFirstOrphan id).tree = { s.tree with firstOrphanId := id } := rfl

@[simp] theorem setFirstOrphan_asserted (s : State) (id : ℕ) :
    (s.setFirstOrphan id).asserted = s.asserted := rfl

@[simp] theorem setRoot_asserted (s : State) (id : ℕ) : (s.setRoot id).asserted = s.asserted := rfl

/-- Stores to different nodes commute. -/
theorem setPtr_set_comm (s : State) {p : Option ℕ} {i : ℕ} (f g : AvlNode → AvlNode)
    (h : p ≠ some i) : (s.set i f).setPtr p g = (s.setPtr p g).set i f := by
  cases p with
  | none => rfl
  | some j =>
    have hji : j ≠ i := by simpa using h
    simp only [setPtr, set, update_of_ne hji, update_of_ne hji.symm]
    rw [update_comm hji]

@[simp] theorem assert_true (s : State) : s.assert true = s := by
  simp [assert]

end State

/-! ## Ids -/

@[simp] theorem avlIdToNode_zero : avlIdToNode 0 = none := rfl

/-- The id of a node, in arrays whose ids do not wrap. -/
theorem avlNodeToId_of_lt {i : ℕ} (h : i + 1 < 2 ^ 32) : avlNodeToId i = i + 1 :=
  Nat.mod_eq_of_lt h

@[simp] theorem avlIdToNode_succ (i : ℕ) : avlIdToNode (i + 1) = some i := by
  simp [avlIdToNode]

/-- Within the id range the two mappings are inverse to each other. -/
theorem avlIdToNode_nodeToId {i : ℕ} (h : i + 1 < 2 ^ 32) :
    avlIdToNode (avlNodeToId i) = some i := by
  rw [avlNodeToId_of_lt h, avlIdToNode_succ]

/-- Only null has the id zero. -/
theorem avlNodeToId_ne_zero {i : ℕ} (h : i + 1 < 2 ^ 32) : avlNodeToId i ≠ 0 := by
  rw [avlNodeToId_of_lt h]
  omega

/-- Different nodes have different ids. -/
theorem avlNodeToId_inj {i j : ℕ} (hi : i + 1 < 2 ^ 32) (hj : j + 1 < 2 ^ 32)
    (h : avlNodeToId i = avlNodeToId j) : i = j := by
  rw [avlNodeToId_of_lt hi, avlNodeToId_of_lt hj] at h
  omega

/-! ## Represented trees -/

/-- The id `id` is the root of a linked tree of shape `t` whose parent id is
`p`: every child's `parent_id` is its actual parent, and every balance field
is the height difference and lies in `{-1, 0, 1}`. -/
def Rep (arr : Arr) : ℕ → ℕ → BinaryTree ℕ → Prop
  | _, id, .nil => id = 0
  | p, id, .node i l r =>
    id = avlNodeToId i ∧ i + 1 < 2 ^ 32 ∧ (arr i).parentId = p ∧
    (arr i).balance = (r.height : Int) - l.height ∧
    l.height ≤ r.height + 1 ∧ r.height ≤ l.height + 1 ∧
    Rep arr (avlNodeToId i) (arr i).leftId l ∧ Rep arr (avlNodeToId i) (arr i).rightId r

variable {arr arr' : Arr} {p id : ℕ} {t s : BinaryTree ℕ} {d : Side} {i : ℕ}

@[simp] theorem rep_nil : Rep arr p id .nil ↔ id = 0 := Iff.rfl

/-- `Rep` at a node, with the children named by side. -/
theorem rep_nodeOn : Rep arr p id (nodeOn d t i s) ↔
      id = avlNodeToId i ∧ i + 1 < 2 ^ 32 ∧ (arr i).parentId = p ∧
      (arr i).balance = d.sgn * ((t.height : Int) - s.height) ∧
      t.height ≤ s.height + 1 ∧ s.height ≤ t.height + 1 ∧
      Rep arr (avlNodeToId i) ((arr i).child d) t ∧
      Rep arr (avlNodeToId i) ((arr i).child d.other) s := by
  cases d with
  | left =>
    have h : (-1 : Int) * ((t.height : Int) - s.height) = s.height - t.height := by omega
    simp only [nodeOn_left, Rep, Side.sgn_left, h, AvlNode.child_left, Side.other_left,
      AvlNode.child_right]
  | right =>
    have h : (1 : Int) * ((t.height : Int) - s.height) = t.height - s.height := by omega
    simp only [nodeOn_right, Rep, Side.sgn_right, h, AvlNode.child_right, Side.other_right,
      AvlNode.child_left]
    tauto

section

variable (h : Rep arr p id t)
include h

/-- The balance fields are the differences of the heights. -/
theorem Rep.balanced : t.Balanced := by
  induction t generalizing p id with
  | nil => trivial
  | node i l r ihl ihr =>
    obtain ⟨-, -, -, -, hlr, hrl, hl, hr⟩ := h
    exact ⟨hlr, hrl, ihl hl, ihr hr⟩

/-- The ids of the nodes do not wrap. -/
theorem Rep.lt_of_mem {j : ℕ} (hj : j ∈ t.inorder) : j + 1 < 2 ^ 32 := by
  induction t generalizing p id with
  | nil => simp at hj
  | node i l r ihl ihr =>
    obtain ⟨-, hi, -, -, -, -, hl, hr⟩ := h
    rw [inorder_node, List.mem_append, List.mem_cons] at hj
    rcases hj with hj | rfl | hj
    · exact ihl hl hj
    · exact hi
    · exact ihr hr hj

/-- The id of a represented tree points to its root. -/
theorem Rep.idToNode : avlIdToNode id = t.rootVal := by
  cases t with
  | nil => rw [rep_nil.mp h]; rfl
  | node i l r =>
    obtain ⟨rfl, hi, -⟩ := h
    simpa using avlIdToNode_nodeToId hi

/-- Only the empty tree has the id zero. -/
theorem Rep.id_eq_zero : id = 0 ↔ t = .nil := by
  cases t with
  | nil => simpa using h
  | node i l r =>
    obtain ⟨rfl, hi, -⟩ := h
    simpa using avlNodeToId_ne_zero hi

/-- Frame rule: a represented tree only depends on its own nodes. -/
theorem Rep.congr (heq : ∀ j ∈ t.inorder, arr' j = arr j) : Rep arr' p id t := by
  induction t generalizing p id with
  | nil => exact h
  | node i l r ihl ihr =>
    obtain ⟨hid, hi, hp, hb, hlr, hrl, hl, hr⟩ := h
    have hi' : arr' i = arr i := heq i (by simp)
    refine ⟨hid, hi, by rw [hi']; exact hp, by rw [hi']; exact hb, hlr, hrl, ?_, ?_⟩
    · rw [hi']
      exact ihl hl fun j hj => heq j (by simp [hj])
    · rw [hi']
      exact ihr hr fun j hj => heq j (by simp [hj])

/-- Rewriting the `parent_id` of the root moves the tree under another
parent. -/
theorem Rep.reparent {p' : ℕ} (hnd : t.inorder.Nodup)
    (hroot : ∀ j, t.rootVal = some j → arr' j = { arr j with parentId := p' })
    (heq : ∀ j ∈ t.inorder, t.rootVal ≠ some j → arr' j = arr j) : Rep arr' p' id t := by
  cases t with
  | nil => exact h
  | node i l r =>
    obtain ⟨hid, hi, hp, hb, hlr, hrl, hl, hr⟩ := h
    obtain ⟨-, -, hil, hir, -⟩ := nodup_nodeOn (d := .left).mp hnd
    have hi' := hroot i rfl
    refine ⟨hid, hi, by rw [hi'], by rw [hi']; exact hb, hlr, hrl, ?_, ?_⟩
    · rw [hi']
      refine hl.congr fun j hj => heq j (by simp [hj]) ?_
      simp only [rootVal_node, ne_eq, Option.some.injEq]
      rintro rfl
      exact hil hj
    · rw [hi']
      refine hr.congr fun j hj => heq j (by simp [hj]) ?_
      simp only [rootVal_node, ne_eq, Option.some.injEq]
      rintro rfl
      exact hir hj

/-- The id of another node is not the id of a represented tree. -/
theorem Rep.id_ne {x : ℕ} (hx : x + 1 < 2 ^ 32) (hxt : x ∉ t.inorder) : id ≠ avlNodeToId x := by
  intro hid
  have := h.idToNode
  rw [hid, avlIdToNode_nodeToId hx] at this
  exact hxt (mem_inorder_of_rootVal this.symm)

end

/-! ## Represented contexts -/

/-- The frames `C` are linked above a hole of height `h` that is filled by
the id `hid` and whose parent id is `hpar`. The outermost node has the id
`top` and the parent id `tpar`. The balance fields of the frames are those of
a hole of height `h`. -/
def CtxRep (arr : Arr) (top tpar : ℕ) : List (Frame ℕ) → ℕ → ℕ → ℕ → Prop
  | [], hid, hpar, _ => top = hid ∧ hpar = tpar
  | f :: C, hid, hpar, h =>
    hpar = avlNodeToId f.val ∧ f.val + 1 < 2 ^ 32 ∧
    (arr f.val).child f.side = hid ∧
    (arr f.val).balance = f.side.sgn * ((h : Int) - f.sib.height) ∧
    h ≤ f.sib.height + 1 ∧ f.sib.height ≤ h + 1 ∧
    Rep arr (avlNodeToId f.val) ((arr f.val).child f.side.other) f.sib ∧
    CtxRep arr top tpar C (avlNodeToId f.val) (arr f.val).parentId (max h f.sib.height + 1)

variable {top tpar hid hpar h : ℕ} {C D : List (Frame ℕ)} {f : Frame ℕ}

/-- Take a represented tree apart at a hole, or put it together. -/
theorem rep_plug : Rep arr tpar top (plug C t) ↔
      ∃ hid hpar, CtxRep arr top tpar C hid hpar t.height ∧ Rep arr hpar hid t := by
  induction C generalizing t with
  | nil =>
    constructor
    · intro h
      exact ⟨top, tpar, ⟨rfl, rfl⟩, h⟩
    · rintro ⟨hid, hpar, ⟨rfl, rfl⟩, h⟩
      exact h
  | cons f C ih =>
    rw [plug_cons, ih, height_nodeOn]
    constructor
    · rintro ⟨hid, hpar, hC, hn⟩
      obtain ⟨rfl, hi, rfl, hb, h1, h2, ht, hs⟩ := rep_nodeOn.mp hn
      exact ⟨_, _, ⟨rfl, hi, rfl, hb, h1, h2, hs, hC⟩, ht⟩
    · rintro ⟨hid, hpar, ⟨rfl, hi, rfl, hb, h1, h2, hs, hC⟩, ht⟩
      exact ⟨_, _, hC, rep_nodeOn.mpr ⟨rfl, hi, rfl, hb, h1, h2, ht, hs⟩⟩

/-- Take a represented context apart, or put it together. -/
theorem ctxRep_append : CtxRep arr top tpar (C ++ D) hid hpar h ↔
      ∃ mid mpar, CtxRep arr mid mpar C hid hpar h ∧
        CtxRep arr top tpar D mid mpar (ctxHeight C h) := by
  induction C generalizing hid hpar h with
  | nil =>
    constructor
    · intro hD
      exact ⟨hid, hpar, ⟨rfl, rfl⟩, hD⟩
    · rintro ⟨mid, mpar, ⟨rfl, rfl⟩, hD⟩
      exact hD
  | cons f C ih =>
    simp only [List.cons_append, CtxRep, ih, ctxHeight_cons]
    constructor
    · rintro ⟨hp, hi, hch, hb, h1, h2, hs, mid, mpar, hC, hD⟩
      exact ⟨mid, mpar, ⟨hp, hi, hch, hb, h1, h2, hs, hC⟩, hD⟩
    · rintro ⟨mid, mpar, ⟨hp, hi, hch, hb, h1, h2, hs, hC⟩, hD⟩
      exact ⟨hp, hi, hch, hb, h1, h2, hs, mid, mpar, hC, hD⟩

/-- Frame rule for contexts. -/
theorem CtxRep.congr (hC : CtxRep arr top tpar C hid hpar h)
    (heq : ∀ j ∈ ctxNodes C, arr' j = arr j) : CtxRep arr' top tpar C hid hpar h := by
  induction C generalizing hid hpar h with
  | nil => exact hC
  | cons f C ih =>
    obtain ⟨hp, hi, hch, hb, h1, h2, hs, hC⟩ := hC
    have hf : arr' f.val = arr f.val := heq f.val (by simp)
    refine ⟨hp, hi, by rw [hf]; exact hch, by rw [hf]; exact hb, h1, h2, ?_, ?_⟩
    · rw [hf]
      exact hs.congr fun j hj => heq j (by simp [hj])
    · rw [hf]
      exact ih hC fun j hj => heq j (by simp [hj])

/-- Refill the hole: only the child link of the innermost frame, or the top
of an empty context, changes. -/
theorem CtxRep.relink {hid' top' : ℕ} (hC : CtxRep arr top tpar C hid hpar h)
    (hnd : (ctxNodes C).Nodup)
    (htop : top' = if C = [] then hid' else top)
    (hhead : ∀ f C', C = f :: C' → arr' f.val = (arr f.val).setChild f.side hid')
    (heq : ∀ j ∈ ctxNodes C, C.head?.map Frame.val ≠ some j → arr' j = arr j) :
    CtxRep arr' top' tpar C hid' hpar h := by
  cases C with
  | nil =>
    obtain ⟨rfl, rfl⟩ := hC
    simpa using ⟨htop, rfl⟩
  | cons f C =>
    obtain ⟨hp, hi, hch, hb, h1, h2, hs, hC⟩ := hC
    have hf : arr' f.val = (arr f.val).setChild f.side hid' := hhead f C rfl
    rw [ctxNodes_cons, List.nodup_cons, List.mem_append] at hnd
    have hrest : ∀ j ∈ f.sib.inorder ++ ctxNodes C, arr' j = arr j := by
      intro j hj
      apply heq j (by simp_all)
      simp only [List.head?_cons, Option.map_some, ne_eq, Option.some.injEq]
      rintro rfl
      exact hnd.1 (List.mem_append.mp hj)
    subst htop
    refine ⟨hp, hi, by rw [hf]; simp, by rw [hf]; simpa using hb, h1, h2, ?_, ?_⟩
    · rw [hf]
      simpa using hs.congr fun j hj => hrest j (List.mem_append_left _ hj)
    · rw [hf]
      simpa using hC.congr fun j hj => hrest j (List.mem_append_right _ hj)

/-- The pointer above the hole is the innermost frame. -/
theorem CtxRep.idToNode (hC : CtxRep arr top 0 C hid hpar h) :
    avlIdToNode hpar = C.head?.map Frame.val := by
  cases C with
  | nil => obtain ⟨-, rfl⟩ := hC; rfl
  | cons f C =>
    obtain ⟨rfl, hi, -⟩ := hC
    simpa using avlIdToNode_nodeToId hi

/-- The top of a nonempty context is its outermost frame. -/
theorem CtxRep.top_concat (hC : CtxRep arr top tpar (C ++ [f]) hid hpar h) :
    top = avlNodeToId f.val ∧ f.val + 1 < 2 ^ 32 := by
  obtain ⟨_, _, -, -, hf, -, -, -, -, -, htop, -⟩ := ctxRep_append.mp hC
  exact ⟨htop, hf⟩

/-- Move a nonempty context below another parent: only the parent link of the
outermost frame `f` changes. -/
theorem CtxRep.retop {tpar' : ℕ} (hC : CtxRep arr top tpar (C ++ [f]) hid hpar h)
    (hnd : (ctxNodes (C ++ [f])).Nodup)
    (hf : arr' f.val = { arr f.val with parentId := tpar' })
    (heq : ∀ j ∈ ctxNodes (C ++ [f]), j ≠ f.val → arr' j = arr j) :
    CtxRep arr' top tpar' (C ++ [f]) hid hpar h := by
  simp only [ctxNodes_append, ctxNodes_cons, ctxNodes_nil, List.append_nil] at hnd heq
  obtain ⟨hndC, hndf, hdis⟩ := List.nodup_append'.mp hnd
  obtain ⟨mid, mpar, hC, rfl, hi, hch, hb, h1, h2, hs, htop, -⟩ := ctxRep_append.mp hC
  have hcongr : ∀ j ∈ ctxNodes C, arr' j = arr j := by
    intro j hj
    apply heq j (by simp [hj])
    rintro rfl
    exact hdis hj (by simp)
  refine ctxRep_append.mpr ⟨mid, _, hC.congr hcongr, rfl, hi, ?_, ?_, h1, h2, ?_, htop, ?_⟩
  · rw [hf]
    cases hd : f.side <;> simpa [hd] using hch
  · rw [hf]
    exact hb
  · have hs' : Rep arr' (avlNodeToId f.val) ((arr f.val).child f.side.other) f.sib := by
      refine hs.congr fun j hj => heq j (by simp [hj]) ?_
      rintro rfl
      exact (List.nodup_cons.mp hndf).1 hj
    rw [hf]
    cases hd : f.side <;> simpa [hd] using hs'
  · rw [hf]

/-- The parent of the hole is the first node of the context. -/
theorem CtxRep.hpar_eq (hC : CtxRep arr top 0 C hid hpar h) :
    hpar = avlPtrToId (C.head?.map Frame.val) := by
  cases C with
  | nil => exact hC.2
  | cons f C => exact hC.1

end Avl
