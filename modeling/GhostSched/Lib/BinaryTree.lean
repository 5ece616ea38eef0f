import Mathlib.Data.Tree.Basic
import Mathlib.Data.Nat.Fib.Basic
import Mathlib.Data.List.Sort
import Mathlib.Tactic.Ring

/-!
# Binary trees: in-order sequences, zippers and height balance

General facts about `BinaryTree` that a verification of an in-place balanced
tree needs and that do not depend on how the tree is stored:

* `inorder`: the in-order sequence of a tree;
* `Frame`, `plug`: a tree with a hole, given as the list of frames between
  the hole and the root, and the tree obtained by filling the hole. Filling
  the hole puts the in-order sequence of the subtree between `before` and
  `after` (`inorder_plug`);
* `Balanced`: the AVL condition on heights, with the Fibonacci lower bound on
  the number of nodes (`Balanced.fib_le`).

The left and the right child are treated uniformly through `Side` and
`nodeOn`, so a mirrored pair of arguments is made once.
-/

namespace BinaryTree

variable {α : Type*}

/-! ## In-order sequences -/

/-- The values of a tree from left to right. -/
def inorder : BinaryTree α → List α
  | nil => []
  | node a l r => inorder l ++ a :: inorder r

@[simp] theorem inorder_nil : (nil : BinaryTree α).inorder = [] := rfl

@[simp] theorem inorder_node (a : α) (l r : BinaryTree α) :
    (node a l r).inorder = l.inorder ++ a :: r.inorder := rfl

/-- Every node is visited once. -/
theorem length_inorder (t : BinaryTree α) : t.inorder.length = t.numNodes := by
  induction t with
  | nil => rfl
  | node a l r ihl ihr => simp [ihl, ihr]; omega

variable {t : BinaryTree α}

/-- Only the empty tree has no nodes. -/
theorem inorder_eq_nil : t.inorder = [] ↔ t = nil := by
  cases t <;> simp

/-! ## Sides -/

/-- Which of the two children a node is. -/
inductive Side where
  | left
  | right
deriving DecidableEq, Repr

/-- The opposite side. -/
def Side.other : Side → Side
  | .left => .right
  | .right => .left

@[simp] theorem Side.other_left : Side.left.other = .right := rfl
@[simp] theorem Side.other_right : Side.right.other = .left := rfl

@[simp] theorem Side.other_other (d : Side) : d.other.other = d := by
  cases d <;> rfl

/-- The sign of a side in a balance factor `height right - height left`. -/
def Side.sgn : Side → Int
  | .left => -1
  | .right => 1

@[simp] theorem Side.sgn_left : Side.left.sgn = -1 := rfl
@[simp] theorem Side.sgn_right : Side.right.sgn = 1 := rfl

/-- The node with value `a` that has `t` on side `d` and `s` on the other. -/
def nodeOn (d : Side) (t : BinaryTree α) (a : α) (s : BinaryTree α) : BinaryTree α :=
  match d with
  | .left => node a t s
  | .right => node a s t

@[simp] theorem nodeOn_left (t s : BinaryTree α) (a : α) : nodeOn .left t a s = node a t s := rfl

@[simp] theorem nodeOn_right (t s : BinaryTree α) (a : α) : nodeOn .right t a s = node a s t := rfl

/-- Both sides are exchanged. -/
theorem nodeOn_other (d : Side) (t s : BinaryTree α) (a : α) :
    nodeOn d.other t a s = nodeOn d s a t := by
  cases d <;> rfl

/-- The height of a node does not depend on the side. -/
@[simp] theorem height_nodeOn (d : Side) (t s : BinaryTree α) (a : α) :
    (nodeOn d t a s).height = max t.height s.height + 1 := by
  cases d <;> simp [max_comm]

variable {s : BinaryTree α} {d : Side} {a : α}

/-- The nodes of a node, on either side. -/
@[simp] theorem mem_inorder_nodeOn {b : α} :
    b ∈ (nodeOn d t a s).inorder ↔ b ∈ t.inorder ∨ b = a ∨ b ∈ s.inorder := by
  cases d
  · simp
  · simp only [nodeOn_right, inorder_node, List.mem_append, List.mem_cons]
    tauto

/-- The nodes of a node, in some order. -/
theorem perm_inorder_nodeOn (d : Side) (t s : BinaryTree α) (a : α) :
    (nodeOn d t a s).inorder.Perm (t.inorder ++ a :: s.inorder) := by
  cases d with
  | left => exact List.Perm.refl _
  | right =>
    calc s.inorder ++ a :: t.inorder
      _ |>.Perm (a :: (s.inorder ++ t.inorder)) := List.perm_middle
      _ |>.Perm (a :: (t.inorder ++ s.inorder)) := List.perm_append_comm.cons a
      _ |>.Perm (t.inorder ++ a :: s.inorder) := List.perm_middle.symm

/-- The separation facts of a node without repeated values. -/
theorem nodup_nodeOn : (nodeOn d t a s).inorder.Nodup ↔
      t.inorder.Nodup ∧ s.inorder.Nodup ∧ a ∉ t.inorder ∧ a ∉ s.inorder ∧
        List.Disjoint t.inorder s.inorder := by
  rw [(perm_inorder_nodeOn d t s a).nodup_iff, List.nodup_middle, List.nodup_cons,
    List.mem_append, List.nodup_append']
  tauto

/-- The value at the root. -/
def rootVal : BinaryTree α → Option α
  | nil => none
  | node a _ _ => some a

@[simp] theorem rootVal_nil : (nil : BinaryTree α).rootVal = none := rfl

@[simp] theorem rootVal_node (a : α) (l r : BinaryTree α) : (node a l r).rootVal = some a := rfl

/-- The root of a node, on either side. -/
@[simp] theorem rootVal_nodeOn (d : Side) (t s : BinaryTree α) (a : α) :
    (nodeOn d t a s).rootVal = some a := by
  cases d <;> rfl

/-- The root is a node. -/
theorem mem_inorder_of_rootVal (h : t.rootVal = some a) : a ∈ t.inorder := by
  cases t with
  | nil => simp at h
  | node b l r => simp_all

/-- Every nonempty tree is a `nodeOn` for either side. -/
theorem exists_nodeOn (d : Side) (h : t ≠ nil) : ∃ o a i, t = nodeOn d o a i := by
  cases t with
  | nil => exact absurd rfl h
  | node a l r =>
    cases d with
    | left => exact ⟨l, a, r, rfl⟩
    | right => exact ⟨r, a, l, rfl⟩

/-- A single rotation keeps the in-order sequence. -/
theorem inorder_rotate (d : Side) (o i s : BinaryTree α) (z x : α) :
    (nodeOn d o z (nodeOn d i x s)).inorder = (nodeOn d (nodeOn d o z i) x s).inorder := by
  cases d <;> simp

/-- A double rotation keeps the in-order sequence. -/
theorem inorder_rotateTwice (d : Side) (o a b s : BinaryTree α) (z y x : α) :
    (nodeOn d (nodeOn d o z a) y (nodeOn d b x s)).inorder =
      (nodeOn d (nodeOn d o z (nodeOn d a y b)) x s).inorder := by
  cases d <;> simp

/-! ## Zippers -/

/-- One ancestor of a hole: the side on which the hole hangs, the ancestor's
value and its subtree on the other side. -/
structure Frame (α : Type*) where
  side : Side
  val : α
  sib : BinaryTree α

/-- Fill the hole of a context; the innermost frame comes first. -/
def plug : List (Frame α) → BinaryTree α → BinaryTree α
  | [], t => t
  | f :: C, t => plug C (nodeOn f.side t f.val f.sib)

@[simp] theorem plug_nil (t : BinaryTree α) : plug [] t = t := rfl

@[simp] theorem plug_cons (f : Frame α) (C : List (Frame α)) (t : BinaryTree α) :
    plug (f :: C) t = plug C (nodeOn f.side t f.val f.sib) := rfl

/-- Contexts compose. -/
theorem plug_append (C D : List (Frame α)) (t : BinaryTree α) :
    plug (C ++ D) t = plug D (plug C t) := by
  induction C generalizing t with
  | nil => rfl
  | cons f C ih => simp [ih]

/-- The values left of the hole. -/
def before : List (Frame α) → List α
  | [] => []
  | f :: C =>
    match f.side with
    | .left => before C
    | .right => before C ++ f.sib.inorder ++ [f.val]

/-- The values right of the hole. -/
def after : List (Frame α) → List α
  | [] => []
  | f :: C =>
    match f.side with
    | .left => f.val :: f.sib.inorder ++ after C
    | .right => after C

@[simp] theorem before_nil : before ([] : List (Frame α)) = [] := rfl
@[simp] theorem after_nil : after ([] : List (Frame α)) = [] := rfl

@[simp] theorem before_left (a : α) (s : BinaryTree α) (C : List (Frame α)) :
    before (⟨.left, a, s⟩ :: C) = before C := rfl

@[simp] theorem before_right (a : α) (s : BinaryTree α) (C : List (Frame α)) :
    before (⟨.right, a, s⟩ :: C) = before C ++ s.inorder ++ [a] := rfl

@[simp] theorem after_left (a : α) (s : BinaryTree α) (C : List (Frame α)) :
    after (⟨.left, a, s⟩ :: C) = a :: s.inorder ++ after C := rfl

@[simp] theorem after_right (a : α) (s : BinaryTree α) (C : List (Frame α)) :
    after (⟨.right, a, s⟩ :: C) = after C := rfl

/-- What comes before the hole, for a context in a context. -/
theorem before_append (C D : List (Frame α)) : before (C ++ D) = before D ++ before C := by
  induction C with
  | nil => simp
  | cons f C ih =>
    obtain ⟨d, a, s⟩ := f
    cases d <;> simp [ih]

/-- What comes after the hole, for a context in a context. -/
theorem after_append (C D : List (Frame α)) : after (C ++ D) = after C ++ after D := by
  induction C with
  | nil => simp
  | cons f C ih =>
    obtain ⟨d, a, s⟩ := f
    cases d <;> simp [ih]

/-- The in-order sequence around a hole. -/
theorem inorder_plug (C : List (Frame α)) (t : BinaryTree α) :
    (plug C t).inorder = before C ++ t.inorder ++ after C := by
  induction C generalizing t with
  | nil => simp
  | cons f C ih =>
    obtain ⟨d, a, s⟩ := f
    cases d <;> simp [ih]

/-- The values of a context, without their order. -/
def ctxNodes : List (Frame α) → List α
  | [] => []
  | f :: C => f.val :: (f.sib.inorder ++ ctxNodes C)

@[simp] theorem ctxNodes_nil : ctxNodes ([] : List (Frame α)) = [] := rfl

@[simp] theorem ctxNodes_cons (f : Frame α) (C : List (Frame α)) :
    ctxNodes (f :: C) = f.val :: (f.sib.inorder ++ ctxNodes C) := rfl

/-- The nodes of a context in a context. -/
theorem ctxNodes_append (C D : List (Frame α)) : ctxNodes (C ++ D) = ctxNodes C ++ ctxNodes D := by
  induction C with
  | nil => rfl
  | cons f C ih => simp [ih]

/-- The nodes of a tree are those of a subtree and those around it. -/
theorem perm_inorder_plug (C : List (Frame α)) (t : BinaryTree α) :
    (plug C t).inorder.Perm (t.inorder ++ ctxNodes C) := by
  induction C generalizing t with
  | nil => simp
  | cons f C ih =>
    have h := (perm_inorder_nodeOn f.side t f.sib f.val).append_right (ctxNodes C)
    simpa using (ih (nodeOn f.side t f.val f.sib)).trans h

variable {C : List (Frame α)}

/-- No node is both in the subtree and around it. -/
theorem nodup_plug : (plug C t).inorder.Nodup ↔ (t.inorder ++ ctxNodes C).Nodup :=
  (perm_inorder_plug C t).nodup_iff

/-- A node is in the subtree or around it. -/
theorem mem_inorder_plug : a ∈ (plug C t).inorder ↔ a ∈ t.inorder ∨ a ∈ ctxNodes C := by
  rw [(perm_inorder_plug C t).mem_iff, List.mem_append]

/-- A value of a tree sits at the root of some subtree of it. -/
theorem exists_plug_of_mem (h : a ∈ t.inorder) : ∃ C l r, t = plug C (node a l r) := by
  induction t with
  | nil => simp at h
  | node b l r ihl ihr =>
    rw [inorder_node, List.mem_append, List.mem_cons] at h
    rcases h with h | rfl | h
    · obtain ⟨C, l', r', hC⟩ := ihl h
      refine ⟨C ++ [⟨.left, b, r⟩], l', r', ?_⟩
      simp [plug_append, ← hC]
    · exact ⟨[], l, r, rfl⟩
    · obtain ⟨C, l', r', hC⟩ := ihr h
      refine ⟨C ++ [⟨.right, b, l⟩], l', r', ?_⟩
      simp [plug_append, ← hC]

/-- The leftmost node of a nonempty tree: a chain of left frames. -/
theorem exists_plug_leftmost (h : t ≠ nil) :
    ∃ C a r, t = plug C (node a nil r) ∧ ∀ f ∈ C, f.side = .left := by
  induction t with
  | nil => exact absurd rfl h
  | node b l r ihl _ =>
    by_cases hl : l = nil
    · exact ⟨[], b, r, by simp [hl], by simp⟩
    · obtain ⟨C, a, r', hC, hside⟩ := ihl hl
      refine ⟨C ++ [⟨.left, b, r⟩], a, r', ?_, ?_⟩
      · simp [plug_append, ← hC]
      · intro f hf
        rw [List.mem_append, List.mem_singleton] at hf
        rcases hf with hf | rfl
        · exact hside f hf
        · rfl

/-- Nothing comes before the leftmost hole. -/
theorem before_eq_nil_of_left (h : ∀ f ∈ C, f.side = .left) : before C = [] := by
  induction C with
  | nil => rfl
  | cons f C ih =>
    obtain ⟨d, a, s⟩ := f
    have hd : d = .left := h ⟨d, a, s⟩ (by simp)
    subst hd
    exact ih fun g hg => h g (by simp [hg])

/-! ## Heights of contexts -/

/-- The height of a context whose hole is filled by a tree of height `h`. -/
def ctxHeight : List (Frame α) → ℕ → ℕ
  | [], h => h
  | f :: C, h => ctxHeight C (max h f.sib.height + 1)

@[simp] theorem ctxHeight_nil (h : ℕ) : ctxHeight ([] : List (Frame α)) h = h := rfl

@[simp] theorem ctxHeight_cons (f : Frame α) (C : List (Frame α)) (h : ℕ) :
    ctxHeight (f :: C) h = ctxHeight C (max h f.sib.height + 1) := rfl

/-- The height of a context in a context. -/
theorem ctxHeight_append (C D : List (Frame α)) (h : ℕ) :
    ctxHeight (C ++ D) h = ctxHeight D (ctxHeight C h) := by
  induction C generalizing h with
  | nil => rfl
  | cons f C ih => exact ih _

/-- The height of a tree, from the height of a subtree. -/
theorem height_plug (C : List (Frame α)) (t : BinaryTree α) :
    (plug C t).height = ctxHeight C t.height := by
  induction C generalizing t with
  | nil => rfl
  | cons f C ih => simp [ih]

/-- A higher subtree does not make the tree lower. -/
theorem ctxHeight_mono (C : List (Frame α)) {h k : ℕ} (hk : h ≤ k) :
    ctxHeight C h ≤ ctxHeight C k := by
  induction C generalizing h k with
  | nil => exact hk
  | cons f C ih =>
    apply ih
    omega

/-- Each frame adds to the height. -/
theorem length_add_le_ctxHeight (C : List (Frame α)) (h : ℕ) : C.length + h ≤ ctxHeight C h := by
  induction C generalizing h with
  | nil => simp
  | cons f C ih =>
    have := ih (max h f.sib.height + 1)
    simp only [List.length_cons, ctxHeight_cons]
    omega

/-- Growing the hole from `h` to `k` cannot push the tree beyond its old
height or the depth of the hole. -/
theorem ctxHeight_le_max (C : List (Frame α)) (h k : ℕ) :
    ctxHeight C k ≤ max (ctxHeight C h) (C.length + k) := by
  induction C generalizing h k with
  | nil => simp
  | cons f C ih =>
    simp only [List.length_cons, ctxHeight_cons]
    rcases Nat.le_total k f.sib.height with hk | hk
    · rw [max_eq_right hk]
      have := ctxHeight_mono C (h := f.sib.height + 1) (k := max h f.sib.height + 1) (by omega)
      omega
    · have := ih (max h f.sib.height + 1) (max k f.sib.height + 1)
      omega

/-! ## Height balance -/

/-- The AVL condition: at every node the heights of the two subtrees differ
by at most one. -/
def Balanced : BinaryTree α → Prop
  | nil => True
  | node _ l r =>
    l.height ≤ r.height + 1 ∧ r.height ≤ l.height + 1 ∧ Balanced l ∧ Balanced r

/-- A balanced tree of height `h` has at least `fib (h + 2) - 1` nodes. -/
theorem Balanced.fib_le (ht : t.Balanced) : Nat.fib (t.height + 2) ≤ t.numNodes + 1 := by
  induction t with
  | nil => simp
  | node a l r ihl ihr =>
    obtain ⟨hlr, hrl, hl, hr⟩ := ht
    have ihl := ihl hl
    have ihr := ihr hr
    simp only [height, numNodes]
    rcases Nat.le_total l.height r.height with h | h
    · -- the right subtree is the deeper one
      rw [max_eq_right h, show r.height + 1 + 2 = (r.height + 1) + 2 from rfl, Nat.fib_add_two]
      have hmono : Nat.fib (r.height + 1) ≤ Nat.fib (l.height + 2) :=
        Nat.fib_mono (by omega)
      rw [show r.height + 1 + 1 = r.height + 2 from rfl]
      omega
    · rw [max_eq_left h, show l.height + 1 + 2 = (l.height + 1) + 2 from rfl, Nat.fib_add_two]
      have hmono : Nat.fib (l.height + 1) ≤ Nat.fib (r.height + 2) :=
        Nat.fib_mono (by omega)
      rw [show l.height + 1 + 1 = l.height + 2 from rfl]
      omega

end BinaryTree
