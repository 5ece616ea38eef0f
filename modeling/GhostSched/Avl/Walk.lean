import GhostSched.Avl.Invariant

/-!
# Lookup, minimum, maximum and neighbours

The read-only loops of the tree, each with `MAX_AVL_HEIGHT` iterations. On a
represented tree of at most that height they find the ends of the in-order
sequence (`edgeLoop_spec`), the neighbours of a node in it
(`avlNextNode_spec`, `avlPrevNode_spec`) and a node with a given key
(`lookupLoop_spec`).
-/

namespace Avl

open BinaryTree

/-- The end of a sequence on one side. -/
def endOf : Side → List ℕ → Option ℕ
  | .left, l => l.head?
  | .right, l => l.getLast?

@[simp] theorem endOf_left (l : List ℕ) : endOf .left l = l.head? := rfl
@[simp] theorem endOf_right (l : List ℕ) : endOf .right l = l.getLast? := rfl

theorem endOf_nodeOn (d : Side) (t s : BinaryTree ℕ) (x : ℕ) :
    endOf d (nodeOn d t x s).inorder = (endOf d t.inorder).or (some x) := by
  cases d with
  | left => simp
  | right => cases h : t.inorder.getLast? <;> simp [List.getLast?_append, List.getLast?_cons, h]

/-- What lies beyond a hole on the side that is reached by climbing to an
ancestor that has the hole on its side `d`. -/
def beyond : Side → List (Frame ℕ) → List ℕ
  | .left, C => after C
  | .right, C => before C

theorem endOf_beyond_cons (d : Side) (f : Frame ℕ) (C : List (Frame ℕ)) :
    endOf d (beyond d (f :: C)) = if f.side = d then some f.val else endOf d (beyond d C) := by
  obtain ⟨e, v, s⟩ := f
  cases d <;> cases e <;> simp [beyond]

variable {arr : Arr} {root p id x n : ℕ} {t : BinaryTree ℕ} {C : List (Frame ℕ)} {d : Side}

/-- `avl_min_node` and `avl_max_node`. -/
theorem edgeLoop_spec (h : Rep arr p id t) (hn : t.height ≤ n) :
    edgeLoop d arr n (avlIdToNode id) = endOf d t.inorder := by
  induction n generalizing p id t with
  | zero =>
    cases t with
    | nil => cases d <;> rfl
    | node x l r => simp at hn
  | succ n ih =>
    rw [h.idToNode]
    by_cases ht : t = .nil
    · subst ht
      cases d <;> rfl
    · obtain ⟨c, x, s, rfl⟩ := exists_nodeOn d ht
      obtain ⟨-, -, -, -, -, -, hc, -⟩ := rep_nodeOn.mp h
      rw [height_nodeOn] at hn
      rw [rootVal_nodeOn, edgeLoop, endOf_nodeOn]
      by_cases h0 : (arr x).child d = 0
      · have hnil := hc.id_eq_zero.mp h0
        rw [if_pos h0, hnil]
        cases d <;> rfl
      · have hne : c ≠ .nil := fun hc' => h0 (hc.id_eq_zero.mpr hc')
        rw [if_neg h0, ih hc (by omega)]
        have hsome : endOf d c.inorder ≠ none := by
          have hne' : c.inorder ≠ [] := fun h => hne (inorder_eq_nil.mp h)
          cases d <;> simpa using hne'
        obtain ⟨y, hy⟩ := Option.ne_none_iff_exists'.mp hsome
        rw [hy, Option.some_or]

/-- The climb of `__avl_next_node` and `__avl_prev_node`. -/
theorem climbLoop_spec {h : ℕ} (hC : CtxRep arr root 0 C (avlNodeToId x) (arr x).parentId h)
    (hx : x + 1 < 2 ^ 32) (hxC : x ∉ ctxNodes C) (hnd : (ctxNodes C).Nodup)
    (hn : C.length ≤ n) :
    climbLoop d arr n x (avlNodeToId x) = endOf d (beyond d C) := by
  induction C generalizing n x h with
  | nil =>
    obtain ⟨-, hp⟩ := hC
    have : endOf d (beyond d ([] : List (Frame ℕ))) = none := by cases d <;> rfl
    rw [this]
    cases n with
    | zero => rfl
    | succ n => simp [climbLoop, hp]
  | cons f C ih =>
    obtain ⟨n, rfl⟩ : ∃ m, n = m + 1 := Nat.exists_eq_succ_of_ne_zero (by simp at hn; omega)
    simp only [ctxNodes_cons, List.mem_cons, List.mem_append, not_or] at hxC
    simp only [ctxNodes_cons, List.nodup_cons, List.mem_append, not_or] at hnd
    obtain ⟨hp, hf, hch, -, -, -, hs, hC⟩ := hC
    -- the child test decides on which side we hang
    have htest : avlNodeToId x = (arr f.val).child d ↔ f.side = d := by
      constructor
      · intro heq
        by_contra hne
        have hd : d = f.side.other := by
          revert hne
          cases d <;> cases f.side <;> simp
        rw [hd] at heq
        exact hs.id_ne hx hxC.2.1 heq.symm
      · rintro rfl
        exact hch.symm
    rw [climbLoop, hp, avlIdToNode_nodeToId hf, endOf_beyond_cons]
    simp only [htest]
    split
    · rfl
    · exact ih hC hf hnd.1.2 (List.nodup_append'.mp hnd.2).2.1 (by simpa using hn)

section Neighbours

variable {cfg : Config} {l r : BinaryTree ℕ}

/-- The common text of `__avl_next_node` and `__avl_prev_node`: the near end of the
subtree on one side or, without one, the first ancestor on that side. -/
theorem neighbour_spec {u : BinaryTree ℕ} (hrep : Rep arr 0 root (plug C (nodeOn d.other t x u)))
    (hnd : (plug C (nodeOn d.other t x u)).inorder.Nodup)
    (hh : (plug C (nodeOn d.other t x u)).height ≤ n) :
    (if (arr x).child d.other ≠ 0 then edgeLoop d arr n (avlIdToNode ((arr x).child d.other))
      else climbLoop d arr n x (avlNodeToId x)) =
        (endOf d t.inorder).or (endOf d (beyond d C)) := by
  obtain ⟨hid, hpar, hC, hx⟩ := rep_plug.mp hrep
  obtain ⟨rfl, hx32, hpx, -, -, -, ht, -⟩ := rep_nodeOn.mp hx
  rw [height_plug, height_nodeOn] at hh
  have hlen := length_add_le_ctxHeight C (max t.height u.height + 1)
  obtain ⟨-, hndC, hdis⟩ := List.nodup_append'.mp (nodup_plug.mp hnd)
  by_cases h0 : (arr x).child d.other = 0
  · have hnone : endOf d (.nil : BinaryTree ℕ).inorder = none := by cases d <;> rfl
    rw [if_neg (by simpa using h0), ht.id_eq_zero.mp h0, hnone, Option.none_or]
    exact climbLoop_spec (hpx ▸ hC) hx32 (fun hj => hdis (by simp) hj) hndC (by omega)
  · have hne : t.inorder ≠ [] := fun h => h0 (ht.id_eq_zero.mpr (inorder_eq_nil.mp h))
    rw [if_pos h0, edgeLoop_spec ht (by omega)]
    cases hend : endOf d t.inorder with
    | none => cases d <;> exact absurd (by simpa using hend) hne
    | some y => rfl

/-- `avl_next_node` finds the successor of `x` in the in-order sequence. -/
theorem avlNextNode_spec (hrep : Rep arr 0 root (plug C (.node x l r)))
    (hnd : (plug C (.node x l r)).inorder.Nodup)
    (hh : (plug C (.node x l r)).height ≤ cfg.maxAvlHeight) :
    avlNextNode cfg arr x = (r.inorder ++ after C).head? := by
  rw [List.head?_append]
  exact neighbour_spec (d := .left) hrep hnd hh

/-- `avl_prev_node` finds the predecessor of `x` in the in-order sequence. -/
theorem avlPrevNode_spec (hrep : Rep arr 0 root (plug C (.node x l r)))
    (hnd : (plug C (.node x l r)).inorder.Nodup)
    (hh : (plug C (.node x l r)).height ≤ cfg.maxAvlHeight) :
    avlPrevNode cfg arr x = (before C ++ l.inorder).getLast? := by
  rw [List.getLast?_append]
  exact neighbour_spec (d := .right) hrep hnd hh

end Neighbours

/-- `avl_tree_lookup` finds a node with the key, if there is one. -/
theorem lookupLoop_spec (key : ℕ) (h : Rep arr p id t) (hsort : SortedKeys arr t.inorder)
    (hn : t.height ≤ n) :
    (∀ x, lookupLoop arr key n (avlIdToNode id) = some x → x ∈ t.inorder ∧ (arr x).key = key) ∧
      (lookupLoop arr key n (avlIdToNode id) = none → ∀ x ∈ t.inorder, (arr x).key ≠ key) := by
  induction t generalizing n p id with
  | nil =>
    have hnone : lookupLoop arr key n (avlIdToNode id) = none := by
      rw [h.idToNode]
      cases n <;> rfl
    rw [hnone]
    simp
  | node x l r ihl ihr =>
    obtain ⟨n, rfl⟩ : ∃ m, n = m + 1 := Nat.exists_eq_succ_of_ne_zero (by simp at hn; omega)
    rw [height] at hn
    rw [h.idToNode, rootVal_node, lookupLoop]
    obtain ⟨-, -, -, -, -, -, hl, hr⟩ := h
    obtain ⟨hsl, hsr, hlr⟩ := List.pairwise_append.mp hsort
    obtain ⟨hxr, hsr⟩ := List.pairwise_cons.mp hsr
    by_cases heq : (arr x).key = key
    · rw [if_pos heq]
      simp [heq]
    · rw [if_neg heq]
      by_cases hlt : key < (arr x).key
      · -- the key can only be on the left
        rw [if_pos hlt]
        obtain ⟨hsome, hnone⟩ := ihl (n := n) hl hsl (by omega)
        refine ⟨fun y hy => ?_, fun hy j hj => ?_⟩
        · obtain ⟨hm, hk⟩ := hsome y hy
          exact ⟨by simp [hm], hk⟩
        · rw [inorder_node, List.mem_append, List.mem_cons] at hj
          rcases hj with hj | rfl | hj
          · exact hnone hy j hj
          · exact heq
          · have := hxr j hj
            omega
      · rw [if_neg hlt]
        obtain ⟨hsome, hnone⟩ := ihr (n := n) hr hsr (by omega)
        refine ⟨fun y hy => ?_, fun hy j hj => ?_⟩
        · obtain ⟨hm, hk⟩ := hsome y hy
          exact ⟨by simp [hm], hk⟩
        · rw [inorder_node, List.mem_append, List.mem_cons] at hj
          rcases hj with hj | rfl | hj
          · have := hlr j hj x (by simp)
            omega
          · exact heq
          · exact hnone hy j hj

/-- A lookup does not get further with more iterations than the tree is high. -/
theorem lookupLoop_mono {m : ℕ} (key : ℕ) (h : Rep arr p id t) (hn : t.height ≤ n) (hm : n ≤ m) :
    lookupLoop arr key m (avlIdToNode id) = lookupLoop arr key n (avlIdToNode id) := by
  induction t generalizing n m p id with
  | nil =>
    rw [h.idToNode]
    cases n <;> cases m <;> rfl
  | node x l r ihl ihr =>
    rw [height] at hn
    obtain ⟨n, rfl⟩ : ∃ k, n = k + 1 := Nat.exists_eq_succ_of_ne_zero (by omega)
    obtain ⟨m, rfl⟩ : ∃ k, m = k + 1 := Nat.exists_eq_succ_of_ne_zero (by omega)
    rw [h.idToNode, rootVal_node]
    obtain ⟨-, -, -, -, -, -, hl, hr⟩ := h
    simp only [lookupLoop, ihl hl (n := n) (m := m) (by omega) (by omega),
      ihr hr (n := n) (m := m) (by omega) (by omega)]

/-! ## On a state with the invariant -/

/-- The nodes that repeated calls find, one after the other. -/
def walk (next : ℕ → Option ℕ) : ℕ → Option ℕ → List ℕ
  | 0, _ => []
  | _ + 1, none => []
  | n + 1, some x => x :: walk next n (next x)

section Inv

variable {cfg : Config} {s : State} {T : BinaryTree ℕ} {O l₁ l₂ : List ℕ} {y : ℕ}

theorem avlIdToNode_ptrToId {q : Option ℕ} (h : ∀ j, q = some j → j + 1 < 2 ^ 32) :
    avlIdToNode (avlPtrToId q) = q := by
  cases q with
  | none => rfl
  | some j => exact avlIdToNode_nodeToId (h j rfl)

section

variable (hI : Inv cfg s T O)
include hI

/-- `avl_tree_min`, with or without the cache, is the first node. -/
theorem Inv.avlTreeMin : avlTreeMin cfg s = T.inorder.head? := by
  unfold Avl.avlTreeMin
  split
  · rename_i hc
    rw [(hI.cached hc).minId, avlIdToNode_ptrToId]
    exact fun j hj => hI.rep.lt_of_mem (List.mem_of_head? hj)
  · exact edgeLoop_spec hI.rep hI.height

/-- `avl_tree_max`, with or without the cache, is the last node. -/
theorem Inv.avlTreeMax : avlTreeMax cfg s = T.inorder.getLast? := by
  unfold Avl.avlTreeMax
  split
  · rename_i hc
    rw [(hI.cached hc).maxId, avlIdToNode_ptrToId]
    exact fun j hj => hI.rep.lt_of_mem (List.mem_of_getLast? hj)
  · exact edgeLoop_spec hI.rep hI.height

/-- The neighbours of a node are those in the in-order sequence. -/
theorem Inv.neighbours (hT : T.inorder = l₁ ++ x :: l₂) :
    avlNextNode cfg s.arr x = l₂.head? ∧ avlPrevNode cfg s.arr x = l₁.getLast? := by
  have hnd := (List.nodup_append'.mp hI.nodup).1
  obtain ⟨C, l, r, rfl⟩ := exists_plug_of_mem (show x ∈ T.inorder by simp [hT])
  have hin : (plug C (.node x l r)).inorder =
      (before C ++ l.inorder) ++ x :: (r.inorder ++ after C) := by
    simp [inorder_plug]
  -- a node is in the sequence once
  rw [hin] at hT
  have hnd' := hnd
  rw [hin, List.nodup_middle, List.nodup_cons, List.mem_append, not_or] at hnd'
  obtain ⟨h₁, -, h₂⟩ := (List.append_cons_inj_of_notMem hnd'.1.1 hnd'.1.2).mp hT
  rw [avlNextNode_spec hI.rep hnd hI.height, avlPrevNode_spec hI.rep hnd hI.height, h₁, h₂]
  exact ⟨rfl, rfl⟩

theorem Inv.next_eq_some_iff (hx : x ∈ T.inorder) :
    avlNextNode cfg s.arr x = some y ↔ ∃ l₁ l₂, T.inorder = l₁ ++ x :: y :: l₂ := by
  constructor
  · intro h
    obtain ⟨l₁, l₂, hT⟩ := List.mem_iff_append.mp hx
    rw [(hI.neighbours hT).1, List.head?_eq_some_iff] at h
    obtain ⟨l, rfl⟩ := h
    exact ⟨l₁, l, hT⟩
  · rintro ⟨l₁, l₂, hT⟩
    rw [(hI.neighbours hT).1, List.head?_cons]

theorem Inv.prev_eq_some_iff (hy : y ∈ T.inorder) :
    avlPrevNode cfg s.arr y = some x ↔ ∃ l₁ l₂, T.inorder = l₁ ++ x :: y :: l₂ := by
  constructor
  · intro h
    obtain ⟨l₁, l₂, hT⟩ := List.mem_iff_append.mp hy
    rw [(hI.neighbours hT).2, List.getLast?_eq_some_iff] at h
    obtain ⟨l, rfl⟩ := h
    exact ⟨l, l₂, by simpa using hT⟩
  · rintro ⟨l₁, l₂, hT⟩
    have hT' : T.inorder = (l₁ ++ [x]) ++ y :: l₂ := by simpa using hT
    rw [(hI.neighbours hT').2, List.getLast?_concat]

/-- A walk from a node finds the rest of the sequence, and then nothing. -/
theorem Inv.walk_next {n : ℕ} (hT : T.inorder = l₁ ++ l₂) (hn : l₂.length ≤ n) :
    walk (avlNextNode cfg s.arr) n l₂.head? = l₂ := by
  induction l₂ generalizing l₁ n with
  | nil => cases n <;> rfl
  | cons x l₂ ih =>
    obtain ⟨n, rfl⟩ : ∃ k, n = k + 1 := Nat.exists_eq_succ_of_ne_zero (by simp at hn; omega)
    have hT' : T.inorder = (l₁ ++ [x]) ++ l₂ := by simpa using hT
    rw [List.head?_cons, walk, (hI.neighbours hT).1, ih hT' (by simpa using hn)]

end

end Inv

end Avl
