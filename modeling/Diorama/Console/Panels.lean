import Diorama.Console
import Diorama.Scene.Painting

namespace Diorama

structure Label where
  text : String
  colour : Option Colour
  deriving DecidableEq, Repr

inductive Painted where
  | background (width height : Float32) (colour : Colour)
  | polygon (points : List (Float32 × Float32)) (colour : Colour)
  | line (points : List (Float32 × Float32)) (colour : Colour) (width : Float32)
  deriving Repr

def LogKind.colour : LogKind → Colour
  | .command => .rgb 140 140 140
  | .output => .rgb 180 255 180
  | .error => .rgb 220 80 80

namespace Console

def gray : Colour := .rgb 160 160 160

def valueColour : Colour := .rgb 210 210 170

def twoPlaces (n : Nat) : String := if n < 10 then " " ++ toString n else toString n

def stackLabels (c : Console) : List Label :=
  [⟨"Stack", none⟩] ++
    (if c.stack.isEmpty then [⟨"empty", some gray⟩] else []) ++
    (c.stack.zipIdx.flatMap fun (text, i) =>
      [⟨twoPlaces i, some gray⟩, ⟨text, some valueColour⟩]) ++
    [⟨"tasks: " ++ toString c.session.timeline.tasks.size, some gray⟩]

def logLabels (c : Console) : List Label :=
  c.log.map fun line => ⟨line.text, some line.kind.colour⟩

def paintItem (origin : Float32 × Float32) (item : DrawItem) : Painted :=
  let points := item.points.map fun (x, y) => (origin.1 + x.toFloat32, origin.2 + y.toFloat32)
  match item.mode with
  | .fill => .polygon points item.colour
  | .outline width => .line points item.colour width

-- The canvas: its background, white where the colour is unknown, and the scene on it.
def paint (origin : Float32 × Float32) (c : Console) : List Painted :=
  let background := (Colour.parse? c.canvas.background).getD .white
  .background c.canvas.width c.canvas.height background ::
    (c.session.surface.drawList.filter (!·.points.isEmpty)).map (paintItem origin)

end Console
end Diorama
