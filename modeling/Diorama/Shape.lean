import Diorama.Surface.Node

namespace Diorama

inductive Geometry where
  | circle (cx cy r : Float)
  | rect (x y width height : Float)
  deriving BEq, Repr

namespace Geometry

def kind : Geometry → Kind
  | .circle .. => .circle
  | .rect .. => .rect

def ofValues? : Kind → List Float → Option Geometry
  | .circle, [cx, cy, r] => some (.circle cx cy r)
  | .rect, [x, y, width, height] => some (.rect x y width height)
  | _, _ => none

def values : Geometry → List Float
  | .circle cx cy r => [cx, cy, r]
  | .rect x y width height => [x, y, width, height]

def position : Geometry → Float × Float
  | .circle cx cy _ => (cx, cy)
  | .rect x y _ _ => (x, y)

def moveTo (g : Geometry) (p : Float × Float) : Geometry :=
  match g with
  | .circle _ _ r => .circle p.1 p.2 r
  | .rect _ _ width height => .rect p.1 p.2 width height

def moveBy (g : Geometry) (d : Float × Float) : Geometry :=
  g.moveTo (g.position.1 + d.1, g.position.2 + d.2)

def center : Geometry → Float × Float
  | .circle cx cy _ => (cx, cy)
  | .rect x y width height => (x + width / 2, y + height / 2)

def attributes (g : Geometry) : List Attribute :=
  List.zipWith (fun name x => ⟨name, .number x⟩) g.kind.attributeNames g.values

end Geometry

structure Links where
  parent : Option String
  children : List String
  deriving DecidableEq, Repr

def Links.none : Links := ⟨.none, []⟩

structure MotionTasks where
  x : Option Nat
  y : Option Nat
  deriving DecidableEq, Repr

structure Handles where
  rotation : Option Nat
  motion : Option MotionTasks
  deriving DecidableEq, Repr

def Handles.none : Handles := ⟨.none, .none⟩

structure Shape where
  geometry : Geometry
  fill : String
  -- degrees, accumulated
  rotation : Float
  links : Links
  handles : Handles
  deriving BEq, Repr

namespace Shape

def ofGeometry (g : Geometry) : Shape := ⟨g, "black", 0, .none, .none⟩

def kind (s : Shape) : Kind := s.geometry.kind

def position (s : Shape) : Float × Float := s.geometry.position

def moveTo (s : Shape) (p : Float × Float) : Shape := { s with geometry := s.geometry.moveTo p }

def moveBy (s : Shape) (d : Float × Float) : Shape := { s with geometry := s.geometry.moveBy d }

-- The looks of `s` with the edges and tasks of `previous`, to which other records still refer.
def replacing (s previous : Shape) : Shape :=
  { s with links := previous.links, handles := previous.handles }

-- A value looked up from a record carries that record's edges and tasks; a new id takes none of them.
def detached (s : Shape) : Shape := { s with links := .none, handles := .none }

def nodeAttributes (s : Shape) (absolute : Geometry) : List Attribute :=
  absolute.attributes ++
    [⟨"fill", .text s.fill⟩, ⟨"transform", .rotate s.rotation absolute.center.1 absolute.center.2⟩]

end Shape
end Diorama
