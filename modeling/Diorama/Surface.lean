import Diorama.Surface.Node

namespace Diorama

class Surface (σ : Type) where
  kindOf? : σ → String → Option NodeKind
  apply : Edit → σ → σ

namespace Surface

variable {σ : Type} [Surface σ]

def applyAll (edits : List Edit) (s : σ) : σ := edits.foldl (fun s e => apply e s) s

-- Makes the node `id` a shape node of this kind. A node of another kind is deleted first.
def ensureNode (kind : Kind) (id : String) (s : σ) : σ :=
  match kindOf? s id with
  | some found =>
    if found = .shape kind then s else applyAll [.deleteNode id, .createNode kind id] s
  | none => apply (.createNode kind id) s

def place (kind : Kind) (id : String) (attributes : List Attribute) (container : String) (s : σ) : σ :=
  let s := if (kindOf? s id).isNone then apply (.createNode kind id) s else s
  applyAll [.setAttributes id attributes, .appendChild container id] s

end Surface

inductive Blank where
  | blank
  deriving DecidableEq, Repr

instance : Surface Blank where
  kindOf? _ _ := none
  apply _ s := s

structure Recorded (σ : Type) where
  surface : σ
  edits : List Edit

instance {σ : Type} [Surface σ] : Surface (Recorded σ) where
  kindOf? s := Surface.kindOf? s.surface
  apply e s := ⟨Surface.apply e s.surface, e :: s.edits⟩

end Diorama
