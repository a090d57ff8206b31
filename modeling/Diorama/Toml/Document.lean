import Diorama.Toml.Scalar
import Diorama.Toml.Table

namespace Diorama.Toml

structure Pair where
  path : List String
  key : String
  value : Toml

inductive Statement where
  | pair (p : Pair)
  | header (path : List String) (key : String)
  | rowHeader (path : List String) (key : String)

namespace Reader

def isBareKey (c : Char) : Bool := c.isAlphanum || c == '_' || c == '-'

def simpleKey : Reader String :=
  (do
    let c ← one isBareKey
    let cs ← run isBareKey
    pure (String.ofList (c :: cs))) <|> basicString <|> literalString

-- How deep arrays and inline tables may be nested, and how many parts a key may have.
def depthLimit : Nat := 79

def key : Reader (List String × String) := do
  let parts ← separated (char '.') (blanks *> simpleKey <* blanks)
  if depthLimit < parts.length then failure
  pure (parts.dropLast, ← need parts.getLast?)

def pair (value : Reader Toml) : Reader Pair := do
  let (path, key) ← key
  char '='
  blanks
  pure ⟨path, key, ← value⟩

def array (value : Reader Toml) : Reader Toml := do
  char '['
  let items ← option (separated (gap *> char ',' *> gap) (gap *> value))
  gap
  if items.isSome then skipOption (char ',')
  gap
  char ']'
  pure (.array (items.getD []))

def inlineTable (value : Reader Toml) : Reader Toml := do
  char '\x7b'
  blanks
  let pairs ← option (separated (blanks *> char ',' *> blanks) (pair value))
  blanks
  char '\x7d'
  let entries ← need ((pairs.getD []).foldlM
    (fun (entries : Entries) p => entries.addPair p.path p.key p.value .opened) [])
  pure (.table (fieldsOf entries))

def valueWithin : (depth : Nat) → Reader Toml
  | 0 => scalar
  | depth + 1 => fun cs =>
    (scalar <|> array (valueWithin depth) <|> inlineTable (valueWithin depth)) cs

def statement : Reader Statement :=
  (do
    chars ['[', '[']
    let (path, key) ← key
    chars [']', ']']
    pure (.rowHeader path key)) <|>
  (do
    char '['
    let (path, key) ← key
    char ']'
    pure (.header path key)) <|>
  .pair <$> pair (valueWithin depthLimit)

def line : Reader (Option Statement) := do
  blanks
  let s ← option statement
  lineEnd
  pure s

def statements : Reader (List Statement) := do
  skipOption (char '\ufeff')
  let found ← many line
  finish
  pure (found.filterMap id)

end Reader

-- A table in the making: its entries and the path of the header that is open.
structure Draft where
  entries : Entries
  header : List String

def Draft.add (d : Draft) : Statement → Option Draft
  | .pair p => do
    let entries ← d.entries.update false (Entries.addPair p.path p.key p.value) d.header .opened
    pure { d with entries }
  | .header path key => do pure ⟨← d.entries.openTable path key, path ++ [key]⟩
  | .rowHeader path key => do pure ⟨← d.entries.addTable path key, path ++ [key]⟩

def parse? (text : String) : Option (List (String × Toml)) := do
  let (found, _) ← Reader.statements text.toList
  let draft ← found.foldlM Draft.add ⟨[], []⟩
  pure (fieldsOf draft.entries)

end Diorama.Toml
