import Diorama.Surface
import Std.Data.ExtTreeMap

namespace Diorama

structure Node where
  kind : NodeKind
  -- in the order in which they were first set
  attributes : List Attribute
  children : List String
  parent : Option String
  deriving BEq, Repr

namespace Node

def new (kind : NodeKind) : Node := ⟨kind, [], [], none⟩

def attribute? (n : Node) (name : String) : Option AttributeValue :=
  (n.attributes.find? (·.name == name)).map (·.value)

def number? (n : Node) (name : String) : Option Float :=
  match n.attribute? name with
  | some (.number x) => some x
  | _ => none

def putAttribute (a : Attribute) : List Attribute → List Attribute
  | [] => [a]
  | old :: rest => if old.name == a.name then a :: rest else old :: putAttribute a rest

def setAttributes (attributes : List Attribute) (n : Node) : Node :=
  { n with attributes := attributes.foldl (fun all a => putAttribute a all) n.attributes }

end Node

structure Scene where
  nodes : Std.ExtTreeMap String Node

namespace Scene

def initial : Scene := ⟨(∅ : Std.ExtTreeMap String Node).insert rootId (.new .group)⟩

def kindOf? (s : Scene) (id : String) : Option NodeKind := s.nodes[id]?.map (·.kind)

def container? (s : Scene) (id : String) : Option String := s.nodes[id]?.bind (·.parent)

def children (s : Scene) (id : String) : List String := (s.nodes[id]?.map (·.children)).getD []

def size (s : Scene) : Nat := s.nodes.size

def isEmpty (s : Scene) : Bool := s.size == 1

def withinSteps (s : Scene) (ancestor : String) : (steps : Nat) → (id : String) → Bool
  | 0, _ => false
  | steps + 1, id =>
    id == ancestor ||
      match s.container? id with
      | some p => s.withinSteps ancestor steps p
      | none => false

-- Whether `ancestor` is `id` or contains it, at any depth. No chain of containers is longer than
-- the number of nodes.
def isWithin (s : Scene) (id ancestor : String) : Bool := s.withinSteps ancestor (s.size + 1) id

def detach (id : String) (s : Scene) : Scene :=
  match s.container? id with
  | none => s
  | some p =>
    ⟨(s.nodes.modify id fun n => { n with parent := none }).modify p fun n =>
      { n with children := n.children.filter (· != id) }⟩

def createNode (kind : Kind) (id : String) (s : Scene) : Scene :=
  if id = rootId then s
  else match s.nodes[id]? with
    | some n => ⟨s.nodes.insert id { n with kind := .shape kind, attributes := [] }⟩
    | none => ⟨s.nodes.insert id (.new (.shape kind))⟩

def createGroup (id : String) (s : Scene) : Scene := ⟨s.nodes.insertIfNew id (.new .group)⟩

def setAttributes (id : String) (attributes : List Attribute) (s : Scene) : Scene :=
  ⟨s.nodes.modify id (.setAttributes attributes)⟩

def accepts (s : Scene) (container id : String) : Bool :=
  id != rootId && s.nodes.contains id && s.kindOf? container == some .group &&
    !s.isWithin container id

def appendChild (container id : String) (s : Scene) : Scene :=
  if s.accepts container id then
    let s := s.detach id
    ⟨(s.nodes.modify container fun n => { n with children := n.children ++ [id] }).modify id fun n =>
      { n with parent := some container }⟩
  else s

def removeChild (container id : String) (s : Scene) : Scene :=
  if s.container? id = some container then s.detach id else s

-- Deletes a node. Its children move to the root in their order.
def deleteNode (id : String) (s : Scene) : Scene :=
  if id = rootId then s
  else
    let s := s.detach id
    match s.nodes[id]? with
    | none => s
    | some n =>
      n.children.foldl
        (fun s child =>
          appendChild rootId child ⟨s.nodes.modify child fun c => { c with parent := none }⟩)
        ⟨s.nodes.erase id⟩

def apply : Edit → Scene → Scene
  | .createNode kind id => createNode kind id
  | .createGroup id => createGroup id
  | .setAttributes id attributes => setAttributes id attributes
  | .appendChild container id => appendChild container id
  | .removeChild container id => removeChild container id
  | .deleteNode id => deleteNode id

end Scene

instance : Surface Scene where
  kindOf? := Scene.kindOf?
  apply := Scene.apply

end Diorama
