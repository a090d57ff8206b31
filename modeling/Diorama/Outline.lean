import Diorama.Shape.Kind

namespace Diorama.Outline

abbrev Point := Float × Float

def turn : Float := 6.283185307179586

def radiansPerDegree : Float := 3.141592653589793 / 180

def circleSegments : Nat := 64

def circle (cx cy r : Float) : List Point :=
  (List.range circleSegments).map fun i =>
    let t := i.toFloat / circleSegments.toFloat * turn
    (cx + r * t.cos, cy + r * t.sin)

-- The corners, clockwise from the top left.
def rect (x y width height : Float) : List Point :=
  [(x, y), (x + width, y), (x + width, y + height), (x, y + height)]

def rotate (angle cx cy : Float) (points : List Point) : List Point :=
  if angle == 0 then points
  else
    let radians := angle * radiansPerDegree
    points.map fun (x, y) =>
      let dx := x - cx
      let dy := y - cy
      (cx + dx * radians.cos - dy * radians.sin, cy + dx * radians.sin + dy * radians.cos)

end Diorama.Outline
