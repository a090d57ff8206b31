import Diorama.Decimal.Plain
import Diorama.Shape
import Diorama.Text.Quoted

namespace Diorama

inductive Primitive where
  | plus
  | minus
  | times
  | over
  | sqrt
  | dup
  | drop
  | swap
  | define
  | display
  | add
  | bind
  | render
  | pin
  | modify
  | remove
  | rotate
  | move
  | stop
  | host (name : String) (operation : Float → Float → Float)

namespace Primitive

def name : Primitive → String
  | .plus => "+"
  | .minus => "-"
  | .times => "*"
  | .over => "/"
  | .sqrt => "sqrt"
  | .dup => "dup"
  | .drop => "drop"
  | .swap => "swap"
  | .define => "def"
  | .display => "show"
  | .add => "add"
  | .bind => "bind"
  | .render => "render"
  | .pin => "pin"
  | .modify => "modify"
  | .remove => "remove"
  | .rotate => "rotate"
  | .move => "move"
  | .stop => "stop"
  | .host name _ => name

def isHost : Primitive → Bool
  | .host .. => true
  | _ => false

-- Library primitives have distinct names; operations of the host are told apart by name alone.
instance : BEq Primitive where
  beq p q := p.name == q.name && p.isHost == q.isHost

end Primitive

inductive Value where
  | number (x : Float)
  | string (s : String)
  -- looked up when it is executed
  | word (name : String)
  -- a name that is never looked up
  | symbol (name : String)
  | primitive (p : Primitive)
  | shape (s : Shape)
  deriving BEq

inductive ValueType where
  | number
  | string
  | word
  | symbol
  | primitive
  | shape
  deriving DecidableEq, Repr

def ValueType.name : ValueType → String
  | .number => "number"
  | .string => "string"
  | .word => "word"
  | .symbol => "symbol"
  | .primitive => "primitive"
  | .shape => "shape"

abbrev Program := List Value

namespace Value

def type : Value → ValueType
  | .number _ => .number
  | .string _ => .string
  | .word _ => .word
  | .symbol _ => .symbol
  | .primitive _ => .primitive
  | .shape _ => .shape

def text : Value → String
  | .number x => "number(" ++ Decimal.text x ++ ")"
  | .string s => "string(" ++ Text.quoted s ++ ")"
  | .word w => "word(" ++ w ++ ")"
  | .symbol s => "symbol(" ++ s ++ ")"
  | .primitive p => "primitive(" ++ p.name ++ ")"
  | .shape s =>
    s.kind.name ++ "(" ++ ", ".intercalate (s.geometry.values.map Decimal.text) ++ ")"

def shownText : Value → String
  | .string s => s
  | v => v.text

end Value
end Diorama
