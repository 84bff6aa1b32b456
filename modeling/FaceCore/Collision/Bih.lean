import Mathlib.Order.BoundedOrder.Basic
import Mathlib.Order.Lattice
import FaceCore.Lib.Rearrange

/-!
# The bounding interval hierarchy

`BIH::build` arranges boxes in a tree for the collision queries: models on a map, the groups of a
model, the triangles of a group. A node of the tree is three 32-bit words, and floats are kept as
their bits.

* `Arith`: what `build` computes with floats. They are ordered, with both infinities; a NaN is the
  absence of a value;
* `partition`: one pass over the indices, which moves the objects on the far side to the right;
* `turn`, `cut`: the loop that looks for a plane between objects;
* `subdivide`, `build`: the recursion;
* `intersectPoint`: the walk over the words, with a stack of 64 nodes.

The loops of the source have no bound of their own, so `cut`, `subdivide` and `intersectPoint` take
the rounds they may go through. `lost` is a record that only the proofs read.
-/

namespace FaceCore.Collision

/-- `G3D::Vector3`. -/
abbrev Vector3 (F : Type*) := Fin 3 → F

def Vector3.x {F : Type*} (p : Vector3 F) : F := p 0

def Vector3.y {F : Type*} (p : Vector3 F) : F := p 1

/-- `G3D::AABox`, and `AABound`. -/
structure AABox (F : Type*) where
  lo : Vector3 F
  hi : Vector3 F

/-- The box with another upper bound along one axis. -/
def AABox.setHi {F : Type*} (b : AABox F) (axis : Fin 3) (x : F) : AABox F :=
  { b with hi := Function.update b.hi axis x }

def AABox.setLo {F : Type*} (b : AABox F) (axis : Fin 3) (x : F) : AABox F :=
  { b with lo := Function.update b.lo axis x }

@[simp] theorem AABox.setHi_lo {F : Type*} (b : AABox F) (axis : Fin 3) (x : F) :
    (b.setHi axis x).lo = b.lo := rfl

@[simp] theorem AABox.setLo_hi {F : Type*} (b : AABox F) (axis : Fin 3) (x : F) :
    (b.setLo axis x).hi = b.hi := rfl

theorem AABox.setHi_hi {F : Type*} (b : AABox F) (axis i : Fin 3) (x : F) :
    (b.setHi axis x).hi i = if i = axis then x else b.hi i :=
  Function.update_apply _ _ _ _

theorem AABox.setLo_lo {F : Type*} (b : AABox F) (axis i : Fin 3) (x : F) :
    (b.setLo axis x).lo i = if i = axis then x else b.lo i :=
  Function.update_apply _ _ _ _

/-- The arithmetic on floats. -/
structure Arith (F : Type*) where
  zero : F
  sub : F → F → F
  abs : F → F
  /-- `0.5f * (a + b)` -/
  mid : F → F → F
  /-- `1.3f * a` -/
  widened : F → F
  fuzzyEq : F → F → Bool
  floatToRawIntBits : F → UInt32
  intBitsToFloat : UInt32 → F

/-- `MAX_STACK_SIZE` -/
def MAX_STACK_SIZE : ℕ := 64

/-! ### Nodes -/

/-- A node with two children. -/
def nodeWord (axis : Fin 3) (offset : ℕ) : UInt32 :=
  (UInt32.ofNat axis.val <<< 30) ||| UInt32.ofNat offset

/-- A node that cuts off empty space on both sides. -/
def bvh2Word (axis : Fin 3) (offset : ℕ) : UInt32 :=
  (UInt32.ofNat axis.val <<< 30) ||| ((1 : UInt32) <<< 29) ||| UInt32.ofNat offset

def leafWord (left : ℕ) : UInt32 := ((3 : UInt32) <<< 30) ||| UInt32.ofNat left

/-- A new node is three zeros at the end. -/
def allocated (tree : List UInt32) : List UInt32 := tree ++ [0, 0, 0]

/-- The words of an interior node are written. -/
def writeNode (tree : List UInt32) (nodeIndex : ℕ) (word clipL clipR : UInt32) : List UInt32 :=
  ((tree.set nodeIndex word).set (nodeIndex + 1) clipL).set (nodeIndex + 2) clipR

/-- `createNode`, for the positions from `left` to before `stop`. -/
def createNode (tree : List UInt32) (nodeIndex left stop : ℕ) : List UInt32 :=
  (tree.set nodeIndex (leafWord left)).set (nodeIndex + 1) (UInt32.ofNat (stop - left))

/-! ### One pass over the objects -/

section

variable {F : Type*} [LinearOrder F] [BoundedOrder F]

/-- The variables of the pass. The positions not yet looked at end before `stop`. -/
structure Sides (F : Type*) where
  indices : ℕ → ℕ
  stop : ℕ
  clipL : F
  clipR : F
  nodeL : F
  nodeR : F

/-- `(minb + maxb) * 0.5f` -/
def AABox.center (arith : Arith F) (b : AABox F) (axis : Fin 3) : F :=
  arith.mid (b.lo axis) (b.hi axis)

/-- An object on the near side stays left. -/
def Sides.stay (s : Sides F) (minb maxb : F) : Sides F :=
  { s with
    clipL := if s.clipL < maxb then maxb else s.clipL
    nodeL := min s.nodeL minb, nodeR := max s.nodeR maxb }

/-- The object at `i` is moved to the right most. -/
def Sides.move (s : Sides F) (i : ℕ) (minb maxb : F) : Sides F :=
  { indices := swapped s.indices i (s.stop - 1)
    stop := s.stop - 1
    clipL := s.clipL
    clipR := if s.clipR > minb then minb else s.clipR
    nodeL := min s.nodeL minb, nodeR := max s.nodeR maxb }

/-- The loop over the positions from `i`; its first argument is how many are left. -/
def partition (arith : Arith F) (primBound : ℕ → AABox F) (axis : Fin 3) (split : F) :
    ℕ → ℕ → Sides F → Sides F
  | 0, _, s => s
  | n + 1, i, s =>
    let b := primBound (s.indices i)
    if b.center arith axis ≤ split then
      partition arith primBound axis split n (i + 1) (s.stay (b.lo axis) (b.hi axis))
    else partition arith primBound axis split n i (s.move i (b.lo axis) (b.hi axis))

/-- What the pass starts with. -/
def Sides.start (indices : ℕ → ℕ) (stop : ℕ) : Sides F :=
  { indices := indices, stop := stop, clipL := ⊥, clipR := ⊤, nodeL := ⊤, nodeR := ⊥ }

/-! ### The search for a plane -/

/-- The exceptions that `subdivide` throws, and a loop that was not given enough rounds. -/
inductive Fault
  | negativeExtents
  | nodeOverlap
  | outOfRounds
  deriving DecidableEq

/-- The variables that the loop in `subdivide` carries from one round to the next. -/
structure Cut (F : Type*) where
  gridBox : AABox F
  indices : ℕ → ℕ
  /-- `none` is `-1` -/
  axis : Option (Fin 3)
  split : Option F
  prevClip : Option F
  wasLeft : Bool

/-- How a round ends. -/
inductive Turn (F : Type*)
  /-- The objects cannot be told apart. The leaf takes those before `stop`. -/
  | leaf (stop : ℕ) (indices : ℕ → ℕ)
  /-- There is empty space on both sides of the objects. -/
  | clip (axis : Fin 3) (nodeL nodeR : F) (gridBox : AABox F) (indices : ℕ → ℕ)
  /-- All objects are on one side. -/
  | again (c : Cut F)
  /-- The objects from `left` to before `stop` are on the left. `prev` is the plane of the round
  before, if it cut off empty space. -/
  | apart (axis : Fin 3) (split : F) (s : Sides F) (gridBox : AABox F)
      (prev : Option (Fin 3 × F × Bool))

/-- `Vector3::primaryAxis` -/
def primaryAxis (arith : Arith F) (d : Vector3 F) : Fin 3 :=
  let nx := arith.abs (d 0)
  let ny := arith.abs (d 1)
  let nz := arith.abs (d 2)
  if nx > ny then
    if nx > nz then 0 else 2
  else
    if ny > nz then 1 else 2

/-- `gridBox.hi - gridBox.lo` -/
def AABox.extent (arith : Arith F) (b : AABox F) : Vector3 F :=
  fun i => arith.sub (b.hi i) (b.lo i)

/-- The longest axis of the grid box. -/
def Cut.look (arith : Arith F) (c : Cut F) : Fin 3 := primaryAxis arith (c.gridBox.extent arith)

/-- The middle of the grid box along that axis. -/
def Cut.middle (arith : Arith F) (c : Cut F) : F :=
  arith.mid (c.gridBox.lo (c.look arith)) (c.gridBox.hi (c.look arith))

/-- The objects are moved to the sides of the middle. -/
def Cut.pass (arith : Arith F) (primBound : ℕ → AABox F) (left rightOrig : ℕ) (c : Cut F) :
    Sides F :=
  partition arith primBound (c.look arith) (c.middle arith) (rightOrig - left) left
    (Sides.start c.indices rightOrig)

/-- The node box is too big compared to the space occupied by primitives. -/
def hasEmptySpace (arith : Arith F) (nodeBox : AABox F) (axis : Fin 3) (s : Sides F) : Bool :=
  decide (s.nodeL > nodeBox.lo axis) && decide (s.nodeR < nodeBox.hi axis) &&
    decide (arith.widened (arith.sub s.nodeR s.nodeL) <
      arith.sub (nodeBox.hi axis) (nodeBox.lo axis))

/-- A round that looks along the same axis at the same place as the one before is stuck. -/
def Cut.stuck (arith : Arith F) (c : Cut F) (axis : Fin 3) (split : F) : Bool :=
  decide (c.axis = some axis) && c.split.any fun prevSplit => arith.fuzzyEq prevSplit split

/-- What follows the pass over the objects, when it does not find empty space. -/
def turnSides (arith : Arith F) (left rightOrig : ℕ) (c : Cut F) (axis : Fin 3) (split : F)
    (s : Sides F) : Turn F :=
  if s.stop = rightOrig then
    -- all left
    if c.stuck arith axis split then .leaf s.stop s.indices
    else
      .again { gridBox := c.gridBox.setHi axis split, indices := s.indices, axis := some axis,
               split := some split,
               prevClip := if s.clipL ≤ split then some s.clipL else none,
               wasLeft := if s.clipL ≤ split then true else c.wasLeft }
  else if s.stop ≤ left then
    -- all right: `right` is still before `left`, so the leaf takes no object
    if c.stuck arith axis split then .leaf s.stop s.indices
    else
      .again { gridBox := c.gridBox.setLo axis split, indices := s.indices, axis := some axis,
               split := some split,
               prevClip := if s.clipR ≥ split then some s.clipR else none,
               wasLeft := if s.clipR ≥ split then false else c.wasLeft }
  else
    -- we are actually splitting stuff
    .apart axis split s c.gridBox
      (match c.axis, c.prevClip with
        | some prevAxis, some prevClip => some (prevAxis, prevClip, c.wasLeft)
        | _, _ => none)

/-- One round. -/
def turn (arith : Arith F) (primBound : ℕ → AABox F) (left rightOrig : ℕ) (nodeBox : AABox F)
    (c : Cut F) : Except Fault (Turn F) :=
  let d := c.gridBox.extent arith
  if d 0 < arith.zero ∨ d 1 < arith.zero ∨ d 2 < arith.zero then .error .negativeExtents
  else if ∃ i : Fin 3, nodeBox.hi i < c.gridBox.lo i ∨ nodeBox.lo i > c.gridBox.hi i then
    .error .nodeOverlap
  else
    let s := c.pass arith primBound left rightOrig
    if hasEmptySpace arith nodeBox (c.look arith) s then
      .ok (.clip (c.look arith) s.nodeL s.nodeR c.gridBox s.indices)
    else .ok (turnSides arith left rightOrig c (c.look arith) (c.middle arith) s)

/-- The loop, with the rounds it may go through. -/
def cut (arith : Arith F) (primBound : ℕ → AABox F) (left rightOrig : ℕ) (nodeBox : AABox F) :
    ℕ → Cut F → Except Fault (Turn F)
  | 0, _ => .error .outOfRounds
  | rounds + 1, c =>
    match turn arith primBound left rightOrig nodeBox c with
    | .error e => .error e
    | .ok (.again c) => cut arith primBound left rightOrig nodeBox rounds c
    | .ok t => .ok t

/-! ### The recursion -/

/-- `tempTree` and `dat.indices`. -/
structure Build where
  tree : List UInt32
  indices : ℕ → ℕ
  /-- The positions that were given to a leaf which did not take them. -/
  lost : List ℕ

/-- The node for the plane of the round before, of which one child stays empty; the words, and the
node for what follows. -/
def writePrev (arith : Arith F) (tree : List UInt32) (nodeIndex : ℕ) :
    Option (Fin 3 × F × Bool) → List UInt32 × ℕ
  | none => (tree, nodeIndex)
  | some (prevAxis, prevClip, wasLeft) =>
    let nextIndex := tree.length
    if wasLeft then
      (writeNode (allocated tree) nodeIndex (nodeWord prevAxis nextIndex)
        (arith.floatToRawIntBits prevClip) (arith.floatToRawIntBits ⊤), nextIndex)
    else
      (writeNode (allocated tree) nodeIndex (nodeWord prevAxis (nextIndex - 3))
        (arith.floatToRawIntBits ⊥) (arith.floatToRawIntBits prevClip), nextIndex)

/-- `subdivide`, for the positions from `left` to before `stop`. -/
def subdivide (arith : Arith F) (primBound : ℕ → AABox F) (maxPrims rounds : ℕ) :
    ℕ → ℕ → ℕ → Build → AABox F → AABox F → ℕ → ℕ → Except Fault Build
  | 0, _, _, _, _, _, _, _ => .error .outOfRounds
  | levels + 1, left, stop, b, gridBox, nodeBox, nodeIndex, depth =>
    if stop - left ≤ maxPrims ∨ depth ≥ MAX_STACK_SIZE then
      .ok { b with tree := createNode b.tree nodeIndex left stop }
    else
      match cut arith primBound left stop nodeBox rounds
        { gridBox := gridBox, indices := b.indices, axis := none, split := none,
          prevClip := none, wasLeft := true } with
      | .error e => .error e
      | .ok (.again _) => .error .outOfRounds
      | .ok (.leaf taken indices) =>
        .ok { tree := createNode b.tree nodeIndex left taken, indices := indices,
              lost := b.lost ++ List.range' taken (stop - taken) }
      | .ok (.clip axis nodeL nodeR gridBox indices) =>
        let nextIndex := b.tree.length
        let tree := writeNode (allocated b.tree) nodeIndex (bvh2Word axis nextIndex)
          (arith.floatToRawIntBits nodeL) (arith.floatToRawIntBits nodeR)
        subdivide arith primBound maxPrims rounds levels left stop
          { b with tree := tree, indices := indices } gridBox
          ((nodeBox.setLo axis nodeL).setHi axis nodeR) nextIndex (depth + 1)
      | .ok (.apart axis split s gridBox prev) =>
        let (tree, nodeIndex) := writePrev arith b.tree nodeIndex prev
        let depth := if prev.isSome then depth + 1 else depth
        let nl := s.stop - left
        let nr := stop - s.stop
        -- an empty child takes no words
        let nextIndex := if nl > 0 then tree.length else tree.length - 3
        let tree := if nl > 0 then allocated tree else tree
        let tree := if nr > 0 then allocated tree else tree
        let tree := writeNode tree nodeIndex (nodeWord axis nextIndex)
          (arith.floatToRawIntBits s.clipL) (arith.floatToRawIntBits s.clipR)
        let b : Build := { b with tree := tree, indices := s.indices }
        match (if nl > 0 then
            subdivide arith primBound maxPrims rounds levels left s.stop b
              (gridBox.setHi axis split) (nodeBox.setHi axis s.clipL) nextIndex (depth + 1)
          else .ok b) with
        | .error e => .error e
        | .ok b =>
          if nr > 0 then
            subdivide arith primBound maxPrims rounds levels s.stop stop b
              (gridBox.setLo axis split) (nodeBox.setLo axis s.clipR) (nextIndex + 3) (depth + 1)
          else .ok b

/-- `BIH`: the words of the tree, the objects at the positions, and the box around all of them. -/
structure BIH (F : Type*) where
  tree : List UInt32
  objects : List ℕ
  bounds : AABox F
  /-- The objects that no leaf took. -/
  lost : List ℕ

/-- The words that `init_empty` and `buildHierarchy` start with: a leaf without objects. -/
def dummyLeaf : List UInt32 := [(3 : UInt32) <<< 30, 0, 0]

/-- `AABox::merge` -/
def AABox.merge (a b : AABox F) : AABox F :=
  { lo := fun i => min (a.lo i) (b.lo i), hi := fun i => max (a.hi i) (b.hi i) }

/-- `build`, for the boxes of the primitives. -/
def build (arith : Arith F) (rounds levels : ℕ) (primitives : List (AABox F)) (leafSize : ℕ)
    (old : BIH F) : Except Fault (BIH F) :=
  match primitives with
  | [] => .ok { old with tree := dummyLeaf, objects := [], lost := [] }
  | first :: rest =>
    let bounds := (first :: rest).foldl AABox.merge first
    let primBound := fun i => (first :: rest).getD i first
    let numPrims := (first :: rest).length
    match subdivide arith primBound leafSize rounds levels 0 numPrims
        { tree := dummyLeaf, indices := id, lost := [] } bounds bounds 0 1 with
    | .error e => .error e
    | .ok b => .ok { tree := b.tree, objects := (List.range numPrims).map b.indices,
                     bounds := bounds, lost := b.lost.map b.indices }

/-! ### Queries -/

/-- What must not happen in a walk over the words. -/
inductive Crash
  | outsideTree
  | outsideObjects
  | stackOverflow
  | outOfRounds
  deriving DecidableEq

/-- The node the walk is at, the stack with its top first, and the objects the callback was called
with. -/
structure Walk where
  node : ℕ
  stack : List ℕ
  calls : List ℕ

/-- How a round of the walk goes on. -/
inductive Move
  | to (node : ℕ)
  /-- Push a node, and go on to another one. -/
  | both (left right : ℕ)
  /-- Take a node from the stack, after calls of the callback. -/
  | back (calls : List ℕ)
  /-- An axis that does not exist. -/
  | quit

def axisOf (tn : UInt32) : ℕ := ((tn &&& ((3 : UInt32) <<< 30)) >>> 30).toNat

def isBvh2 (tn : UInt32) : Bool := decide (tn &&& ((1 : UInt32) <<< 29) ≠ 0)

def offsetOf (tn : UInt32) : ℕ := (tn &&& ~~~((7 : UInt32) <<< 29)).toNat

/-- The objects of a leaf. The word is read as an `int`. -/
def leafObjects (objects : List ℕ) (offset : ℕ) (n : UInt32) : Option (List ℕ) :=
  (List.range' offset n.toInt32.toInt.toNat).mapM fun i => objects[i]?

/-- The body of the inner loop of `intersectPoint`. -/
def look (arith : Arith F) (bih : BIH F) (p : Vector3 F) (node : ℕ) : Except Crash Move :=
  match bih.tree[node]? with
  | none => .error .outsideTree
  | some tn =>
    let offset := offsetOf tn
    if h : axisOf tn < 3 then
      match bih.tree[node + 1]?, bih.tree[node + 2]? with
      | some w1, some w2 =>
        let x := p ⟨axisOf tn, h⟩
        let tl := arith.intBitsToFloat w1
        let tr := arith.intBitsToFloat w2
        if isBvh2 tn then
          if tl > x ∨ tr < x then .ok (.back []) else .ok (.to offset)
        else if tl < x ∧ tr > x then .ok (.back [])
        else if tl < x then .ok (.to (offset + 3))
        else if tr > x then .ok (.to offset)
        else .ok (.both offset (offset + 3))
      | _, _ => .error .outsideTree
    else if isBvh2 tn then .ok .quit
    else
      match bih.tree[node + 1]? with
      | none => .error .outsideTree
      | some n =>
        match leafObjects bih.objects offset n with
        | some calls => .ok (.back calls)
        | none => .error .outsideObjects

/-- The loops of `intersectPoint`: the walk goes on until the stack is empty. -/
def walk (arith : Arith F) (bih : BIH F) (p : Vector3 F) :
    ℕ → Walk → Except Crash (List ℕ)
  | 0, _ => .error .outOfRounds
  | rounds + 1, w =>
    match look arith bih p w.node with
    | .error e => .error e
    | .ok (.to node) => walk arith bih p rounds { w with node := node }
    | .ok (.both left right) =>
      if w.stack.length < MAX_STACK_SIZE then
        walk arith bih p rounds { w with node := left, stack := right :: w.stack }
      else .error .stackOverflow
    | .ok (.back calls) =>
      match w.stack with
      | [] => .ok (w.calls ++ calls)
      | node :: stack =>
        walk arith bih p rounds { node := node, stack := stack, calls := w.calls ++ calls }
    | .ok .quit => .ok w.calls

/-- `AABox::contains` -/
def AABox.contains (b : AABox F) (p : Vector3 F) : Bool :=
  decide (∀ i, b.lo i ≤ p i) && decide (∀ i, p i ≤ b.hi i)

/-- `intersectPoint`: the objects that the callback is called with, in order. -/
def intersectPoint (arith : Arith F) (bih : BIH F) (rounds : ℕ) (p : Vector3 F) :
    Except Crash (List ℕ) :=
  if bih.bounds.contains p then walk arith bih p rounds { node := 0, stack := [], calls := [] }
  else .ok []

end

end FaceCore.Collision
