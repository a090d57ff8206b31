namespace Diorama.Toml

abbrev Reader := StateT (List Char) Option

namespace Reader

variable {α : Type}

def one (p : Char → Bool) : Reader Char
  | [] => none
  | c :: cs => if p c then some (c, cs) else none

def char (c : Char) : Reader Unit := do
  let _ ← one (· == c)

def chars (text : List Char) : Reader Unit := text.forM char

def run (p : Char → Bool) : Reader (List Char) := fun cs => some (cs.takeWhile p, cs.dropWhile p)

def finish : Reader Unit
  | [] => some ((), [])
  | _ => none

def option (p : Reader α) : Reader (Option α) := some <$> p <|> pure none

def skipOption (p : Reader α) : Reader Unit := do
  let _ ← option p

def manySteps (p : Reader α) : (steps : Nat) → Reader (List α)
  | 0, cs => some ([], cs)
  | steps + 1, cs =>
    match p cs with
    | none => some ([], cs)
    | some (a, rest) =>
      if rest.length < cs.length then
        (manySteps p steps rest).map fun (as, rest) => (a :: as, rest)
      else some ([], cs)

def many (p : Reader α) : Reader (List α) := fun cs => manySteps p cs.length cs

def skipMany (p : Reader α) : Reader Unit := do
  let _ ← many p

def separated (separator : Reader Unit) (p : Reader α) : Reader (List α) := do
  let first ← p
  let rest ← many (separator *> p)
  pure (first :: rest)

def taken (p : Reader α) : Reader (List Char) := fun cs =>
  (p cs).map fun (_, rest) => (cs.take (cs.length - rest.length), rest)

def ahead (p : Reader α) : Reader Unit := fun cs => (p cs).map fun _ => ((), cs)

def need : Option α → Reader α
  | some a => pure a
  | none => failure

def blanks : Reader Unit := do
  let _ ← run fun c => c == ' ' || c == '\t'

def newline : Reader Unit := char '\n' <|> chars ['\r', '\n']

-- Characters that may stand in a comment or between quotes, quotes and escapes aside.
def isPlain (c : Char) : Bool :=
  c == '\t' || (0x20 ≤ c.toNat && c.toNat ≤ 0x7e) || 0x80 ≤ c.toNat

def comment : Reader Unit := do
  char '#'
  let _ ← run isPlain

def lineEnd : Reader Unit := do
  blanks
  skipOption comment
  newline <|> finish

def gap : Reader Unit := do
  skipMany (char ' ' <|> char '\t' <|> newline <|> comment *> newline)

end Reader
end Diorama.Toml
