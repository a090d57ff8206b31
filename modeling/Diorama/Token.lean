import Diorama.Mistake

namespace Diorama

inductive TokenKind where
  | number (x : Float)
  | string (s : String)
  | symbol (s : String)
  -- anything else: verbs, ids, operators, colours
  | word (s : String)
  | finish
  deriving Repr

def TokenKind.description : TokenKind → String
  | .number _ => "number"
  | .string _ => "string"
  | .symbol _ => "symbol"
  | .word _ => "word"
  | .finish => "end of line"

structure Token where
  kind : TokenKind
  lexeme : String
  position : Position
  deriving Repr

namespace Token

def name? (t : Token) : Option String :=
  match t.kind with
  | .word s => some s
  | .string s => some s
  | .symbol s => some s
  | .number _ => some t.lexeme
  | .finish => none

def name (t : Token) : String := t.name?.getD ""

def number (t : Token) : Except Mistake Float :=
  match t.kind with
  | .number x => .ok x
  | kind => .error ⟨.notANumber kind.description t.lexeme, t.position⟩

end Token
end Diorama
