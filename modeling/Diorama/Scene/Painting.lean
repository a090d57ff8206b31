import Diorama.Colour
import Diorama.Outline
import Diorama.Scene

namespace Diorama

inductive PaintMode where
  | fill
  | outline (width : Float32)
  deriving BEq, Repr

structure DrawItem where
  id : String
  kind : Kind
  points : List Outline.Point
  mode : PaintMode
  colour : Colour
  deriving BEq, Repr

def outlineWidth : Float32 := 2

namespace Node

def corners? (n : Node) : Kind → Option (List Outline.Point)
  | .circle => do pure (Outline.circle (← n.number? "cx") (← n.number? "cy") (← n.number? "r"))
  | .rect =>
    do pure (Outline.rect (← n.number? "x") (← n.number? "y") (← n.number? "width")
      (← n.number? "height"))

def turned (n : Node) (points : List Outline.Point) : List Outline.Point :=
  match n.attribute? "transform" with
  | some (.rotate angle cx cy) => Outline.rotate angle cx cy points
  | _ => points

-- The fill of a node. Black stands in for a colour that is missing or unknown.
def colour (n : Node) : Colour :=
  match n.attribute? "fill" with
  | some (.text fill) => (Colour.parse? fill).getD .black
  | _ => .black

def drawItem? (n : Node) (id : String) (kind : Kind) : Option DrawItem :=
  (n.corners? kind).map fun points =>
    { id
      kind
      points := n.turned points
      mode := match kind with
        | .circle => .outline outlineWidth
        | .rect => .fill
      colour := n.colour }

end Node

namespace Scene

-- Paints the nodes that are pending, `steps` of them at most; a group makes way for its children.
def drawSteps (s : Scene) : (steps : Nat) → (pending : List String) → List DrawItem
  | 0, _ => []
  | _, [] => []
  | steps + 1, id :: pending =>
    match s.nodes[id]? with
    | none => s.drawSteps steps pending
    | some n =>
      match n.kind with
      | .group => s.drawSteps steps (n.children ++ pending)
      | .shape kind => (n.drawItem? id kind).toList ++ s.drawSteps steps pending

def drawList (s : Scene) : List DrawItem := s.drawSteps s.size (s.children rootId)

end Scene
end Diorama
