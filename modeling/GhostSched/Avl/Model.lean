import Mathlib.Logic.Function.Basic
import GhostSched.Lib.BinaryTree

/-!
# The array AVL tree of `lib/avl.bpf.h`

A shallow embedding of the AVL tree whose nodes live in one array and point to
each other by array index plus one (`0` is the null id).

* A pointer to a node is the index of its array element; a pointer that may
  be null is an `Option ℕ`. The array itself is the function `Arr` from
  element indices to the embedded `avl_node`.
* Ids are `unsigned int`: `avlNodeToId` truncates to 32 bits, and the non-BPF
  `avlIdToNode` does no bounds check, as in the source.
* `State` collects what the functions write: the array, the tree header and
  `asserted`, a ghost flag that records that an `AVL_ASSERT` failed or that
  one of the early returns the source marks as impossible was taken.
* Every bounded `for` loop is a recursion on the iterations that are left.
  `Config` holds the two build-time choices, `MAX_AVL_HEIGHT` and
  `AVL_CACHING`.
-/

namespace Avl

open Function

open BinaryTree (Side)

/-! ## Data -/

/-- `struct avl_tree`. The four cache fields exist under `AVL_CACHING`; the
build without it never reads or writes them. -/
structure AvlTree where
  root : ℕ
  minId : ℕ
  minKey : ℕ
  maxId : ℕ
  maxKey : ℕ
  firstOrphanId : ℕ
deriving DecidableEq, Repr

/-- `avl_tree_init` / `AVL_TREE_INITIALIZER`. -/
def AvlTree.init : AvlTree := ⟨0, 0, 0, 0, 0, 0⟩

/-- `struct avl_node`. Keys are `uint64_t` and only ever compared. -/
structure AvlNode where
  key : ℕ
  leftId : ℕ
  rightId : ℕ
  parentId : ℕ
  balance : Int
  isOrphan : Bool
  prevOrphanId : ℕ
  nextOrphanId : ℕ
deriving DecidableEq, Repr

/-- The array, seen through the `avl_node` field of its elements. -/
abbrev Arr := ℕ → AvlNode

/-- The build: `MAX_AVL_HEIGHT` and whether `AVL_CACHING` is defined. -/
structure Config where
  maxAvlHeight : ℕ
  caching : Bool

/-- Everything the functions below write. -/
structure State where
  arr : Arr
  tree : AvlTree
  asserted : Bool

/-- `__avl_id_to_node`, non-BPF: no bounds check. -/
def avlIdToNode (id : ℕ) : Option ℕ :=
  if id = 0 then none else some (id - 1)

/-- `__avl_node_to_id` of a non-null pointer: an `unsigned int`. -/
def avlNodeToId (node : ℕ) : ℕ := (node + 1) % 2 ^ 32

/-- `__avl_node_to_id` of a pointer that may be null. -/
def avlPtrToId : Option ℕ → ℕ
  | none => 0
  | some node => avlNodeToId node

namespace AvlNode

/-- The child id on one side: `left_id` or `right_id`. -/
def child (n : AvlNode) : Side → ℕ
  | .left => n.leftId
  | .right => n.rightId

/-- Write the child id on one side. -/
def setChild (n : AvlNode) : Side → ℕ → AvlNode
  | .left, id => { n with leftId := id }
  | .right, id => { n with rightId := id }

end AvlNode

namespace State

/-- A store through a non-null node pointer. -/
def set (s : State) (node : ℕ) (f : AvlNode → AvlNode) : State :=
  { s with arr := update s.arr node (f (s.arr node)) }

/-- A store guarded by `if (node)`. -/
def setPtr (s : State) (node : Option ℕ) (f : AvlNode → AvlNode) : State :=
  match node with
  | none => s
  | some i => s.set i f

def setBalance (s : State) (node : ℕ) (b : Int) : State :=
  s.set node fun n => { n with balance := b }

def setParent (s : State) (node : ℕ) (id : ℕ) : State :=
  s.set node fun n => { n with parentId := id }

def setRoot (s : State) (id : ℕ) : State :=
  { s with tree := { s.tree with root := id } }

def setFirstOrphan (s : State) (id : ℕ) : State :=
  { s with tree := { s.tree with firstOrphanId := id } }

/-- `AVL_ASSERT(ok)`. -/
def assert (s : State) (ok : Bool) : State :=
  { s with asserted := s.asserted || !ok }

end State

/-! ## The orphan list -/

/-- `__insert_orphan` -/
def insertOrphan (s : State) (node : ℕ) : State :=
  let nodeId := avlNodeToId node
  let nextId := s.tree.firstOrphanId
  let next := avlIdToNode nextId
  let s := s.setFirstOrphan nodeId
  let s := s.setPtr next fun n => { n with prevOrphanId := nodeId }
  let s := s.set node fun n => { n with nextOrphanId := nextId }
  s.set node fun n => { n with prevOrphanId := 0 }

/-- `__remove_orphan` -/
def removeOrphan (s : State) (node : ℕ) : State :=
  let nodeId := avlNodeToId node
  let prevId := (s.arr node).prevOrphanId
  let prev := avlIdToNode prevId
  let nextId := (s.arr node).nextOrphanId
  let next := avlIdToNode nextId
  let s := if s.tree.firstOrphanId = nodeId then s.setFirstOrphan nextId else s
  let s := s.setPtr prev fun n => { n with nextOrphanId := nextId }
  let s := s.setPtr next fun n => { n with prevOrphanId := prevId }
  let s := s.set node fun n => { n with nextOrphanId := 0 }
  s.set node fun n => { n with prevOrphanId := 0 }

/-- `__pop_first_orphan` -/
def popFirstOrphan (s : State) : State × Option ℕ :=
  match avlIdToNode s.tree.firstOrphanId with
  | none => (s, none)
  | some first =>
    let nextId := (s.arr first).nextOrphanId
    let next := avlIdToNode nextId
    let s := s.setFirstOrphan nextId
    let s := s.setPtr next fun n => { n with prevOrphanId := 0 }
    let s := s.set first fun n => { n with nextOrphanId := 0 }
    let s := s.set first fun n => { n with prevOrphanId := 0 }
    (s, some first)

/-! ## Searching and walking -/

/-- The loop of `avl_tree_lookup`. -/
def lookupLoop (arr : Arr) (key : ℕ) : ℕ → Option ℕ → Option ℕ
  | 0, _ => none
  | _ + 1, none => none
  | n + 1, some x =>
    if (arr x).key = key then some x
    else if key < (arr x).key then lookupLoop arr key n (avlIdToNode (arr x).leftId)
    else lookupLoop arr key n (avlIdToNode (arr x).rightId)

/-- `avl_tree_lookup` -/
def avlTreeLookup (cfg : Config) (s : State) (key : ℕ) : Option ℕ :=
  lookupLoop s.arr key cfg.maxAvlHeight (avlIdToNode s.tree.root)

/-- The loop of `avl_min_node` (`d = left`) and `avl_max_node` (`d = right`). -/
def edgeLoop (d : Side) (arr : Arr) : ℕ → Option ℕ → Option ℕ
  | 0, _ => none
  | _ + 1, none => none
  | n + 1, some x =>
    if (arr x).child d = 0 then some x
    else edgeLoop d arr n (avlIdToNode ((arr x).child d))

/-- `avl_min_node` -/
def avlMinNode (cfg : Config) (arr : Arr) (x : Option ℕ) : Option ℕ :=
  edgeLoop .left arr cfg.maxAvlHeight x

/-- `avl_max_node` -/
def avlMaxNode (cfg : Config) (arr : Arr) (x : Option ℕ) : Option ℕ :=
  edgeLoop .right arr cfg.maxAvlHeight x

/-- `avl_tree_min` -/
def avlTreeMin (cfg : Config) (s : State) : Option ℕ :=
  if cfg.caching then avlIdToNode s.tree.minId
  else avlMinNode cfg s.arr (avlIdToNode s.tree.root)

/-- `avl_tree_max` -/
def avlTreeMax (cfg : Config) (s : State) : Option ℕ :=
  if cfg.caching then avlIdToNode s.tree.maxId
  else avlMaxNode cfg s.arr (avlIdToNode s.tree.root)

/-- The climb of `__avl_next_node` (`d = left`) and `__avl_prev_node`
(`d = right`): up to the first ancestor that has us on its side `d`. -/
def climbLoop (d : Side) (arr : Arr) : ℕ → ℕ → ℕ → Option ℕ
  | 0, _, _ => none
  | n + 1, x, xId =>
    match avlIdToNode (arr x).parentId with
    | none => none
    | some parent =>
      if xId = (arr parent).child d then some parent
      else climbLoop d arr n parent (arr x).parentId

/-- `__avl_next_node` -/
def avlNextNode (cfg : Config) (arr : Arr) (x : ℕ) : Option ℕ :=
  if (arr x).rightId ≠ 0 then avlMinNode cfg arr (avlIdToNode (arr x).rightId)
  else climbLoop .left arr cfg.maxAvlHeight x (avlNodeToId x)

/-- `__avl_prev_node` -/
def avlPrevNode (cfg : Config) (arr : Arr) (x : ℕ) : Option ℕ :=
  if (arr x).leftId ≠ 0 then avlMaxNode cfg arr (avlIdToNode (arr x).leftId)
  else climbLoop .right arr cfg.maxAvlHeight x (avlNodeToId x)

/-! ## Rotations

The source writes the two single rotations as mirror images of each other, so
they are one definition in the side `d` to which `X` goes down. The two double
rotations agree once the node that ends up left of `Y` is called `a` and the
one that ends up right of it is called `b`. Each returns the root of the
rotated subtree; the caller reconnects it. -/

/-- The common text of `__avl_rotate_left` and `__avl_rotate_right`. -/
def avlRotate (d : Side) (s : State) (x z : ℕ) : State × ℕ :=
  let xId := avlNodeToId x
  let zId := avlNodeToId z
  let t23Id := (s.arr z).child d
  let t23 := avlIdToNode t23Id
  let s := s.set x fun n => n.setChild d.other t23Id
  let s := s.setPtr t23 fun n => { n with parentId := xId }
  let s := s.set z fun n => n.setChild d xId
  let s := s.setParent x zId
  -- the `*` case, where t23 was the same height as t4
  let star := (s.arr z).balance = 0
  let s := s.setBalance x (if star then d.other.sgn else 0)
  let s := s.setBalance z (if star then d.sgn else 0)
  (s, z)

/-- `__avl_rotate_left` -/
def avlRotateLeft : State → ℕ → ℕ → State × ℕ := avlRotate .left

/-- `__avl_rotate_right` -/
def avlRotateRight : State → ℕ → ℕ → State × ℕ := avlRotate .right

/-- The common text of `__avl_rotate_right_left` and
`__avl_rotate_left_right` once `y` is known to exist: `a` becomes the left
and `b` the right child of `y`. -/
def avlRotateTwice (s : State) (a b y : ℕ) : State :=
  let aId := avlNodeToId a
  let bId := avlNodeToId b
  let yId := avlNodeToId y
  let t2Id := (s.arr y).leftId
  let t3Id := (s.arr y).rightId
  let t2 := avlIdToNode t2Id
  let t3 := avlIdToNode t3Id
  let s := s.set y fun n => { n with leftId := aId }
  let s := s.setParent a yId
  let s := s.set a fun n => { n with rightId := t2Id }
  let s := s.setPtr t2 fun n => { n with parentId := aId }
  let s := s.set y fun n => { n with rightId := bId }
  let s := s.setParent b yId
  let s := s.set b fun n => { n with leftId := t3Id }
  let s := s.setPtr t3 fun n => { n with parentId := bId }
  let bal := (s.arr y).balance
  let s := s.setBalance a (if bal > 0 then -1 else 0)
  let s := s.setBalance y 0
  s.setBalance b (if bal < 0 then 1 else 0)

/-- `__avl_rotate_right_left` -/
def avlRotateRightLeft (s : State) (x z : ℕ) : State × ℕ :=
  match avlIdToNode (s.arr z).leftId with
  | none => (s.assert false, x)  -- Z is left heavy so Y must exist
  | some y => (avlRotateTwice s x z y, y)

/-- `__avl_rotate_left_right` -/
def avlRotateLeftRight (s : State) (x z : ℕ) : State × ℕ :=
  match avlIdToNode (s.arr z).rightId with
  | none => (s.assert false, x)  -- Z is right heavy so Y must exist
  | some y => (avlRotateTwice s z x y, y)

/-- The rotation that both retrace loops choose at `x` when its child `z` on
side `d` is two levels too deep. -/
def rebalance : Side → State → ℕ → ℕ → State × ℕ
  | .left, s, x, z =>
    if (s.arr z).balance ≤ 0 then avlRotateRight s x z else avlRotateLeftRight s x z
  | .right, s, x, z =>
    if (s.arr z).balance ≥ 0 then avlRotateLeft s x z else avlRotateRightLeft s x z

/-- The tail of both retrace loops: hang the rotated subtree `str` where `x`
was. -/
def reconnect (s : State) (str : ℕ) (xId xParentId : ℕ) : State :=
  let strId := avlNodeToId str
  let s := s.setParent str xParentId
  match avlIdToNode xParentId with
  | none => s.setRoot strId
  | some xParent =>
    if (s.arr xParent).leftId = xId then s.set xParent fun n => { n with leftId := strId }
    else s.set xParent fun n => { n with rightId := strId }

/-! ## Insertion -/

/-- The locals of the descent in `avl_tree_insert`. -/
structure Descent where
  x : Option ℕ
  xId : ℕ
  nextId : ℕ
  left : Bool
  asserted : Bool

/-- The descent of `avl_tree_insert`: find the future parent of the node. -/
def insertDescend (arr : Arr) (key : ℕ) : ℕ → Descent → Descent
  | 0, d => d
  | n + 1, d =>
    if d.nextId = 0 then d
    else
      match avlIdToNode d.nextId with
      | none => { d with x := none, xId := d.nextId, asserted := true }
      | some x =>
        if key < (arr x).key then
          insertDescend arr key n
            { d with x := some x, xId := d.nextId, nextId := (arr x).leftId, left := true }
        else
          insertDescend arr key n
            { d with x := some x, xId := d.nextId, nextId := (arr x).rightId, left := false }

/-- The retrace of `avl_tree_insert`: `z`, a child of `x`, grew by one. -/
def insertRetrace : ℕ → State → Option ℕ → ℕ → ℕ → ℕ → State
  | 0, s, _, _, _, _ => s
  | _ + 1, s, none, _, _, _ => s
  | n + 1, s, some x, xId, z, zId =>
    let left := (s.arr x).leftId == zId
    if (s.arr x).balance = 0 then
      -- case 3: can't absorb, pass it up the tree
      let s := s.setBalance x (if left then -1 else 1)
      insertRetrace n s (avlIdToNode (s.arr x).parentId) (s.arr x).parentId x xId
    else if (left && 0 < (s.arr x).balance) || (!left && (s.arr x).balance < 0) then
      -- absorbed by a heavy x (case 1)
      s.setBalance x 0
    else
      -- case 2: rotate to absorb height
      let xParentId := (s.arr x).parentId
      let rot := rebalance (if left then .left else .right) s x z
      reconnect rot.1 rot.2 xId xParentId

/-- The cache update at the end of `avl_tree_insert`. -/
def cacheInsert (cfg : Config) (s : State) (node : ℕ) : State :=
  if cfg.caching then
    let nodeId := avlNodeToId node
    let key := (s.arr node).key
    let t := s.tree
    let t := if t.minId = 0 ∨ key < t.minKey then
        { t with minId := nodeId, minKey := key } else t
    let t := if t.maxId = 0 ∨ t.maxKey ≤ key then
        { t with maxId := nodeId, maxKey := key } else t
    { s with tree := t }
  else s

/-- The first stores of `avl_tree_insert`. -/
def resetNode (s : State) (node : ℕ) : State :=
  s.set node fun n => { n with leftId := 0, rightId := 0, balance := 0, isOrphan := false }

/-- The descent of `avl_tree_insert` from the root, `MAX_AVL_HEIGHT - 1`
iterations at most. -/
def findParent (cfg : Config) (s : State) (node : ℕ) : Descent :=
  insertDescend s.arr (s.arr node).key (cfg.maxAvlHeight - 1) ⟨none, 0, s.tree.root, false, false⟩

/-- `avl_tree_insert`; the caller has set the key of `node`. -/
def avlTreeInsert (cfg : Config) (s : State) (node : ℕ) : State :=
  let s := resetNode s node
  let nodeId := avlNodeToId node
  let d := findParent cfg s node
  let s := s.assert (!d.asserted)
  if d.nextId ≠ 0 then
    -- the child slot of x is taken and we ran out of loop iterations
    let s := s.set node fun n => { n with isOrphan := true }
    insertOrphan s node
  else
    let s := s.setParent node d.xId
    match d.x with
    | none =>
      let s := s.setRoot nodeId
      if cfg.caching then
        { s with tree := { s.tree with
            minId := nodeId, minKey := (s.arr node).key,
            maxId := nodeId, maxKey := (s.arr node).key } }
      else s
    | some x =>
      let s := if d.left then s.set x fun n => { n with leftId := nodeId }
        else s.set x fun n => { n with rightId := nodeId }
      let s := insertRetrace cfg.maxAvlHeight s (some x) d.xId node nodeId
      cacheInsert cfg s node

/-! ## Deletion -/

/-- `avl_replace_node`: put `withId` in the place of `x`. -/
def avlReplaceNode (s : State) (x withId : ℕ) : State :=
  let xWasRoot := (s.arr x).parentId = 0
  let s :=
    match avlIdToNode (s.arr x).parentId with
    | some xParent =>
      if (s.arr xParent).leftId = avlNodeToId x then
        s.set xParent fun n => { n with leftId := withId }
      else s.set xParent fun n => { n with rightId := withId }
    | none => s.assert xWasRoot
  let s := s.setPtr (avlIdToNode withId) fun n => { n with parentId := (s.arr x).parentId }
  if xWasRoot then s.setRoot withId else s

/-- The `min` half of the cache update in `avl_tree_delete`. -/
def advanceMin (cfg : Config) (s : State) (node : ℕ) : State :=
  if avlNodeToId node = s.tree.minId then
    let next := avlNextNode cfg s.arr node
    { s with tree := { s.tree with
        minId := avlPtrToId next
        minKey := match next with
          | none => s.tree.minKey
          | some i => (s.arr i).key } }
  else s

/-- The `max` half of the cache update in `avl_tree_delete`. -/
def advanceMax (cfg : Config) (s : State) (node : ℕ) : State :=
  if avlNodeToId node = s.tree.maxId then
    let prev := avlPrevNode cfg s.arr node
    { s with tree := { s.tree with
        maxId := avlPtrToId prev
        maxKey := match prev with
          | none => s.tree.maxKey
          | some i => (s.arr i).key } }
  else s

/-- The cache update at the start of `avl_tree_delete`. -/
def cacheDelete (cfg : Config) (s : State) (node : ℕ) : State :=
  if cfg.caching then advanceMax cfg (advanceMin cfg s node) node else s

/-- What the unlinking part of `avl_tree_delete` hands to the retrace: `X`,
whose balance must be restored, and the side that lost height. `none` is an
early return. -/
structure Unlinked where
  x : Option ℕ
  xId : ℕ
  fromTheLeft : Bool

/-- In the "deep next" case `next` leaves its place below the right child of
`node` and takes over that child; in the "immediate child next" case it is the
right child of `node` and nothing moves. -/
def detachNext (s : State) (node next : ℕ) : State × Option Unlinked :=
  let nodeId := avlNodeToId node
  let nextId := avlNodeToId next
  if (s.arr next).parentId ≠ nodeId then
    let xId := (s.arr next).parentId
    match avlIdToNode xId with
    | none => (s.assert false, none)  -- next must have a parent
    | some x =>
      let fromTheLeft := (s.arr x).leftId == nextId
      let s := avlReplaceNode s next (s.arr next).rightId
      let s := s.set next fun n => { n with rightId := (s.arr node).rightId }
      match avlIdToNode (s.arr node).rightId with
      | none => (s.assert false, none)
      | some nodeRight => (s.setParent nodeRight nextId, some ⟨some x, xId, fromTheLeft⟩)
  else (s, some ⟨some next, nextId, false⟩)

/-- `next` takes the place of `node` and its left child. -/
def takePlace (s : State) (node next : ℕ) (u : Unlinked) : State × Option Unlinked :=
  let nextId := avlNodeToId next
  let s := avlReplaceNode s node nextId
  let s := s.set next fun n => { n with leftId := (s.arr node).leftId }
  match avlIdToNode (s.arr node).leftId with
  | none => (s.assert false, none)
  | some nodeLeft => (s.setParent nodeLeft nextId, some u)

/-- The part of `avl_tree_delete` that takes `node` out of the tree. -/
def unlink (cfg : Config) (s : State) (node : ℕ) : State × Option Unlinked :=
  let nodeId := avlNodeToId node
  let xId := (s.arr node).parentId
  let x := avlIdToNode xId
  let fromTheLeft :=
    match x with
    | none => false
    | some x => (s.arr x).leftId == nodeId
  if (s.arr node).leftId = 0 then
    (avlReplaceNode s node (s.arr node).rightId, some ⟨x, xId, fromTheLeft⟩)
  else if (s.arr node).rightId = 0 then
    (avlReplaceNode s node (s.arr node).leftId, some ⟨x, xId, fromTheLeft⟩)
  else
    match avlNextNode cfg s.arr node with
    | none => (s.assert false, none)  -- node has a right child, should always have next
    | some next =>
      -- next takes the slot of node, so it gets its balance
      let s := s.setBalance next (s.arr node).balance
      match detachNext s node next with
      | (s, none) => (s, none)
      | (s, some u) => takePlace s node next u

/-- The retrace of `avl_tree_delete`; `none` is an early return. -/
def deleteRetrace : ℕ → State → Option ℕ → ℕ → Bool → State × Bool
  | 0, s, _, _, _ => (s, true)
  | _ + 1, s, none, _, _ => (s, true)
  | n + 1, s, some x, xId, fromTheLeft =>
    if (s.arr x).balance = 0 then
      -- case 1: absorb the height loss
      (s.setBalance x (if fromTheLeft then 1 else -1), true)
    else
      let xParentId := (s.arr x).parentId
      let xParent := avlIdToNode xParentId
      if (fromTheLeft && (s.arr x).balance < 0) || (!fromTheLeft && 0 < (s.arr x).balance) then
        -- X lost height in the direction it was already heavy
        let s := s.setBalance x 0
        match xParent with
        | none => (s, true)
        | some p => deleteRetrace n s (some p) xParentId ((s.arr p).leftId == xId)
      else
        -- lost height and now we're +/- 2 imbalanced
        let zId := if fromTheLeft then (s.arr x).rightId else (s.arr x).leftId
        match avlIdToNode zId with
        | none => (s.assert false, false)
        | some z =>
          let absorbed := (s.arr z).balance = 0
          let rot := rebalance (if fromTheLeft then .right else .left) s x z
          let left :=
            match xParent with
            | none => false
            | some p => ((rot.1.setParent rot.2 xParentId).arr p).leftId == xId
          let s := reconnect rot.1 rot.2 xId xParentId
          match xParent with
          | none => (s, true)
          | some p => if absorbed then (s, true) else deleteRetrace n s (some p) xParentId left

/-- `avl_tree_delete` -/
def avlTreeDelete (cfg : Config) (s : State) (node : ℕ) : State :=
  if (s.arr node).isOrphan then
    let s := removeOrphan s node
    s.set node fun n => { n with isOrphan := false }
  else
    let s := cacheDelete cfg s node
    match unlink cfg s node with
    | (s, none) => s
    | (s, some u) =>
      match deleteRetrace cfg.maxAvlHeight s u.x u.xId u.fromTheLeft with
      | (s, false) => s
      | (s, true) =>
        match popFirstOrphan s with
        | (s, none) => s
        | (s, some o) => avlTreeInsert cfg s o

/-- `avl_tree_pop_min` -/
def avlTreePopMin (cfg : Config) (s : State) : State × Option ℕ :=
  match avlTreeMin cfg s with
  | none => (s, none)
  | some min => (avlTreeDelete cfg s min, some min)

/-- `avl_tree_pop_max` -/
def avlTreePopMax (cfg : Config) (s : State) : State × Option ℕ :=
  match avlTreeMax cfg s with
  | none => (s, none)
  | some max => (avlTreeDelete cfg s max, some max)

end Avl
