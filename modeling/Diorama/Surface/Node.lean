import Diorama.Shape.Kind

namespace Diorama

inductive NodeKind where
  | shape (kind : Kind)
  | group
  deriving DecidableEq, Repr

inductive AttributeValue where
  | number (x : Float)
  | text (s : String)
  | rotate (angle cx cy : Float)
  deriving BEq, Repr

structure Attribute where
  name : String
  value : AttributeValue
  deriving BEq, Repr

def rootId : String := "root"

def groupId (parent child : String) : String := parent ++ "+" ++ child

-- A change to a surface. Ids that name no node are ignored by the surface.
inductive Edit where
  | createNode (kind : Kind) (id : String)
  | createGroup (id : String)
  | setAttributes (id : String) (attributes : List Attribute)
  -- a node is in one container at a time: this moves it there, behind the others
  | appendChild (container id : String)
  | removeChild (container id : String)
  | deleteNode (id : String)
  deriving BEq, Repr

end Diorama
