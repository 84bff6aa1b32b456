import FaceCore.Collision.Bih
import FaceCore.Lib.Table

/-!
# The dynamic map tree

The models of the game objects on a map stand in a grid of 64 by 64 cells. A cell has a bounding
interval hierarchy, which is built again before a query if models came or went since it was built.

* `BIHWrap`: the hierarchy of one cell, with the set of its models;
* `Grid`: the cells, and the table of all models; `exec` answers a request of the map;
* `live`: which models are on the map; `Grid.lostAt`: those of a cell that its hierarchy has lost.

The sets of models are hash tables; the list of their members is one of the possible orders.
-/

namespace FaceCore.Collision

variable {α F : Type*} [DecidableEq α] [LinearOrder F] [BoundedOrder F]

/-- What does not change: the models, and the arithmetic. -/
structure Setting (α F : Type*) where
  arith : Arith F
  getBounds : α → AABox F
  getPosition : α → Vector3 F
  /-- `int(f * (1.f/CELL_SIZE) + (CELL_NUMBER/2))` -/
  computeCell : F → ℤ
  /-- A box that was not initialised. -/
  noBounds : AABox F
  rounds : ℕ
  levels : ℕ

/-- How a request can fail. -/
inductive Failure
  | build (e : Fault)
  | query (e : Crash)
  | outsideGrid
  | noNode
  deriving DecidableEq

/-! ### One cell -/

structure BIHWrap (α F : Type*) where
  m_tree : BIH F
  m_objects : List (Option α)
  m_obj2Idx : List (α × ℕ)
  m_objects_to_push : List α
  unbalanced_times : ℕ

def BIHWrap.new (st : Setting α F) : BIHWrap α F :=
  { m_tree := { tree := dummyLeaf, objects := [], bounds := st.noBounds, lost := [] }
    m_objects := []
    m_obj2Idx := []
    m_objects_to_push := []
    unbalanced_times := 0 }

def BIHWrap.insert (w : BIHWrap α F) (obj : α) : BIHWrap α F :=
  { w with
    unbalanced_times := w.unbalanced_times + 1
    m_objects_to_push := w.m_objects_to_push.insert obj }

def BIHWrap.remove (w : BIHWrap α F) (obj : α) : BIHWrap α F :=
  match w.m_obj2Idx.lookup obj with
  | some idx =>
    { w with
      unbalanced_times := w.unbalanced_times + 1
      m_obj2Idx := w.m_obj2Idx.filter fun e => e.1 ≠ obj
      m_objects := w.m_objects.set idx none }
  | none =>
    { w with
      unbalanced_times := w.unbalanced_times + 1
      m_objects_to_push := w.m_objects_to_push.erase obj }

/-- `balance`: `getMembers` clears the array that `getKeys` has filled. -/
def BIHWrap.balance (st : Setting α F) (w : BIHWrap α F) : Except Failure (BIHWrap α F) :=
  if w.unbalanced_times = 0 then .ok w
  else
    match build st.arith st.rounds st.levels (w.m_objects_to_push.map st.getBounds) 3 w.m_tree with
    | .error e => .error (.build e)
    | .ok tree =>
      .ok { w with unbalanced_times := 0, m_objects := w.m_objects_to_push.map some, m_tree := tree }

/-- `intersectPoint`, with as many rounds as the tree has words. The callback gets the objects that
are still there. -/
def BIHWrap.intersectPoint (st : Setting α F) (w : BIHWrap α F) (p : Vector3 F) :
    Except Failure (BIHWrap α F × List α) :=
  match w.balance st with
  | .error e => .error e
  | .ok w =>
    match Collision.intersectPoint st.arith w.m_tree w.m_tree.tree.length p with
    | .error e => .error (.query e)
    | .ok calls => .ok (w, calls.filterMap fun idx => (w.m_objects[idx]?).join)

/-- The models that the hierarchy has lost. -/
def BIHWrap.lost (w : BIHWrap α F) : List α :=
  w.m_tree.lost.filterMap fun idx => (w.m_objects[idx]?).join

/-! ### The grid -/

/-- `DynTreeImpl`. A node is named by its cell. -/
structure Grid (α F : Type*) where
  memberTable : Table (Prod.fst : α × ℤ × ℤ → α)
  nodes : ℤ × ℤ → Option (BIHWrap α F)
  rebalance_timer : ℤ
  unbalanced_times : ℕ

def CHECK_TREE_PERIOD : ℤ := 200

def CELL_NUMBER : ℤ := 64

def Grid.new : Grid α F :=
  { memberTable := .empty _, nodes := fun _ => none, rebalance_timer := CHECK_TREE_PERIOD,
    unbalanced_times := 0 }

/-- `Cell::ComputeCell` -/
def Setting.cellAt (st : Setting α F) (p : Vector3 F) : ℤ × ℤ :=
  (st.computeCell p.x, st.computeCell p.y)

def Setting.cell (st : Setting α F) (obj : α) : ℤ × ℤ := st.cellAt (st.getPosition obj)

def isValid (c : ℤ × ℤ) : Bool :=
  decide (0 ≤ c.1) && decide (c.1 < CELL_NUMBER) && decide (0 ≤ c.2) && decide (c.2 < CELL_NUMBER)

def Grid.setNode (g : Grid α F) (c : ℤ × ℤ) (w : BIHWrap α F) : Grid α F :=
  { g with nodes := fun d => if d = c then some w else g.nodes d }

def Grid.insert (st : Setting α F) (g : Grid α F) (obj : α) : Except Failure (Grid α F) :=
  let c := st.cell obj
  if isValid c then
    let g := g.setNode c (((g.nodes c).getD (BIHWrap.new st)).insert obj)
    .ok { g with
      memberTable := g.memberTable.insert (obj, c)
      unbalanced_times := g.unbalanced_times + 1 }
  else .error .outsideGrid

def Grid.contains (g : Grid α F) (obj : α) : Bool := (g.memberTable.find obj).isSome

def Grid.remove (g : Grid α F) (obj : α) : Except Failure (Grid α F) :=
  match g.memberTable.find obj with
  | none => .error .noNode
  | some (_, c) =>
    match g.nodes c with
    | none => .error .noNode
    | some w =>
      let g := g.setNode c (w.remove obj)
      .ok { g with
        memberTable := g.memberTable.erase obj
        unbalanced_times := g.unbalanced_times + 1 }

/-- All cells, in the order of `balance`. -/
def cells : List (ℤ × ℤ) :=
  (List.range 64).flatMap fun x => (List.range 64).map fun y => ((x : ℤ), (y : ℤ))

def Grid.balanceAt (st : Setting α F) (g : Grid α F) (c : ℤ × ℤ) : Except Failure (Grid α F) :=
  match g.nodes c with
  | none => .ok g
  | some w =>
    match w.balance st with
    | .error e => .error e
    | .ok w => .ok (g.setNode c w)

def Grid.balanceAll (st : Setting α F) : List (ℤ × ℤ) → Grid α F → Except Failure (Grid α F)
  | [], g => .ok g
  | c :: cs, g =>
    match g.balanceAt st c with
    | .error e => .error e
    | .ok g => Grid.balanceAll st cs g

def Grid.update (st : Setting α F) (g : Grid α F) (difftime : ℤ) : Except Failure (Grid α F) :=
  if g.memberTable.toList.isEmpty then .ok g
  else if 0 < g.rebalance_timer - difftime then
    .ok { g with rebalance_timer := g.rebalance_timer - difftime }
  else if g.unbalanced_times > 0 then
    match Grid.balanceAll st cells { g with rebalance_timer := CHECK_TREE_PERIOD } with
    | .error e => .error e
    | .ok g => .ok { g with unbalanced_times := 0 }
  else .ok { g with rebalance_timer := CHECK_TREE_PERIOD }

def Grid.intersectPoint (st : Setting α F) (g : Grid α F) (p : Vector3 F) :
    Except Failure (Grid α F × List α) :=
  let c := st.cellAt p
  if isValid c then
    match g.nodes c with
    | none => .ok (g, [])
    | some w =>
      match w.intersectPoint st p with
      | .error e => .error e
      | .ok (w, calls) => .ok (g.setNode c w, calls)
  else .ok (g, [])

def Grid.lostAt (g : Grid α F) (c : ℤ × ℤ) : List α := ((g.nodes c).map BIHWrap.lost).getD []

/-- What a map asks for. A model is removed only when the tree contains it. -/
inductive Request (α F : Type*)
  | insert (obj : α)
  | remove (obj : α)
  | update (difftime : ℤ)
  | query (p : Vector3 F)

def exec (st : Setting α F) (g : Grid α F) :
    Request α F → Except Failure (Grid α F × List α)
  | .insert obj => (g.insert st obj).map fun g => (g, [])
  | .remove obj =>
    if g.contains obj then (g.remove obj).map fun g => (g, []) else .ok (g, [])
  | .update difftime => (g.update st difftime).map fun g => (g, [])
  | .query p => g.intersectPoint st p

/-- The grid after some requests. -/
def run (st : Setting α F) : List (Request α F) → Grid α F → Except Failure (Grid α F)
  | [], g => .ok g
  | r :: rs, g =>
    match exec st g r with
    | .error e => .error e
    | .ok (g, _) => run st rs g

/-- The models on the map after a request. -/
def liveAfter (l : List α) : Request α F → List α
  | .insert obj => l.insert obj
  | .remove obj => l.erase obj
  | _ => l

/-- The models on the map after some requests. -/
def live (rs : List (Request α F)) : List α := rs.foldl liveAfter []

end FaceCore.Collision
