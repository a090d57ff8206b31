namespace Diorama

inductive Kind where
  | circle
  | rect
  deriving DecidableEq, Repr

namespace Kind

def name : Kind → String
  | .circle => "circle"
  | .rect => "rect"

def ofName? (s : String) : Option Kind :=
  if s = "circle" then some .circle else if s = "rect" then some .rect else none

def attributeNames : Kind → List String
  | .circle => ["cx", "cy", "r"]
  | .rect => ["x", "y", "width", "height"]

def arity (k : Kind) : Nat := k.attributeNames.length

end Kind
end Diorama
