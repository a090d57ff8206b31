import Diorama.Fault
import Std.Data.ExtTreeMap

namespace Diorama

abbrev Registry := Std.ExtTreeMap String Shape

namespace Registry

def find (r : Registry) (id : String) : Except Fault Shape :=
  match r[id]? with
  | some shape => .ok shape
  | none => .error (.unknownShape id)

def parent? (r : Registry) (id : String) : Option String := r[id]?.bind (·.links.parent)

def rootSteps (r : Registry) (start : String) : (steps : Nat) → (id : String) → Except Fault String
  | 0, _ => .error (.invalidBinding (.cyclicChain start))
  | steps + 1, id => do
    match (← r.find id).links.parent with
    | some p => r.rootSteps start steps p
    | none => .ok id

-- The topmost ancestor of a shape, or the shape itself. A chain with more links than there are
-- shapes has no end.
def rootOf (r : Registry) (id : String) : Except Fault String := r.rootSteps id (r.size + 1) id

def ancestorSteps (r : Registry) (ancestor : String) : (steps : Nat) → Option String → Bool
  | 0, _ => false
  | _, none => false
  | steps + 1, some id => id == ancestor || r.ancestorSteps ancestor steps (r.parent? id)

def isAncestor (r : Registry) (ancestor id : String) : Bool :=
  r.ancestorSteps ancestor (r.size + 1) (some id)

def checkParent (r : Registry) (id : String) : Option String → Except Fault Unit
  | none => .ok ()
  | some p =>
    match r[p]? with
    | none => .error (.invalidBinding (.missingParent id p))
    | some parent =>
      if parent.links.children.contains id then .ok ()
      else .error (.invalidBinding (.unlistedChild p id))

-- The children of a shape are listed once, registered, and point back. `seen` came before.
def checkChildren (r : Registry) (id : String) (seen : List String) : List String → Except Fault Unit
  | [] => .ok ()
  | c :: rest =>
    if seen.contains c then .error (.invalidBinding (.repeatedChild id c))
    else match r[c]? with
      | none => .error (.invalidBinding (.missingChild id c))
      | some child =>
        if child.links.parent = some id then r.checkChildren id (seen ++ [c]) rest
        else .error (.invalidBinding (.strayChild c id))

def checkShape (r : Registry) (id : String) (shape : Shape) : Except Fault Unit := do
  r.checkParent id shape.links.parent
  r.checkChildren id [] shape.links.children
  let _ ← r.rootOf id

def checkGraph (r : Registry) : Except Fault Unit :=
  r.toList.forM fun (id, shape) => r.checkShape id shape

-- Whether the edge from `parent` to `child` is there already. Fails when it may not be added.
def checkBinding (r : Registry) (parent child : String) : Except Fault Bool := do
  let _ ← r.find parent
  let shape ← r.find child
  if parent = child then .error (.invalidBinding (.ownParent child))
  match shape.links.parent with
  | some p =>
    if p = parent then .ok true else .error (.invalidBinding (.alreadyBound child p))
  | none =>
    if r.isAncestor child parent then .error (.invalidBinding (.wouldCycle child parent))
    else .ok false

def put (id : String) (shape : Shape) (r : Registry) : Registry := r.insert id shape

def link (parent child : String) (r : Registry) : Registry :=
  (r.modify parent fun s => { s with links.children := s.links.children ++ [child] }).modify child
    fun s => { s with links.parent := some parent }

-- Takes out the shape `id`, whose record is `removed`. Its parent no longer lists it; its children
-- lose their parent and stay where they are drawn.
def cutOut (id : String) (removed : Shape) (r : Registry) : Registry :=
  let r := r.erase id
  let r := match removed.links.parent with
    | some p => r.modify p fun s =>
        { s with links.children := s.links.children.filter (· != id) }
    | none => r
  removed.links.children.foldl
    (fun r c => r.modify c fun s =>
      { s.moveBy removed.position with links.parent := none })
    r

structure Placement where
  kind : Kind
  attributes : List Attribute
  container : String

-- A position is kept relative to the parent. Only here is the parent's own position added.
def placement (r : Registry) (id : String) : Except Fault Placement := do
  let shape ← r.find id
  match shape.links.parent with
  | some p =>
    let parent ← r.find p
    .ok ⟨shape.kind, shape.nodeAttributes (shape.geometry.moveBy parent.position), groupId p id⟩
  | none => .ok ⟨shape.kind, shape.nodeAttributes shape.geometry, rootId⟩

end Registry
end Diorama
