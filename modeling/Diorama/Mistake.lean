namespace Diorama

-- A place in a text. Columns count bytes from one.
structure Position where
  line : Nat
  column : Nat
  deriving DecidableEq, Repr

inductive Mistake.Cause where
  | unknownKind (lexeme : String)
  | argumentCount (found : Nat) (usage : String)
  | notANumber (description lexeme : String)
  | invalidNumber (chunk : String)
  | openString
  | emptySymbol
  deriving DecidableEq, Repr

structure Mistake where
  cause : Mistake.Cause
  position : Position
  deriving DecidableEq, Repr

namespace Mistake

def Cause.code : Cause → String
  | .unknownKind _ => "C001"
  | .argumentCount .. => "C002"
  | .notANumber .. => "C003"
  | .invalidNumber _ => "C003"
  | .openString => "C004"
  | .emptySymbol => "C005"

def Cause.wording : Cause → String
  | .unknownKind lexeme => s!"unknown shape kind `{lexeme}`, expected circle or rect"
  | .argumentCount found usage => s!"wrong number of arguments ({found}), usage: {usage}"
  | .notANumber description lexeme => s!"expected a number, found {description} `{lexeme}`"
  | .invalidNumber chunk => s!"invalid number `{chunk}`"
  | .openString => "unterminated string literal"
  | .emptySymbol => "`'` must be followed by a name"

def code (m : Mistake) : String := m.cause.code

def message (m : Mistake) : String :=
  s!"[{m.code}] {m.position.line}:{m.position.column}: " ++ m.cause.wording

end Mistake
end Diorama
