import Diorama.Decimal.Reading
import Diorama.Toml
import Diorama.Toml.Reading

namespace Diorama.Toml.Reader

def isHex (c : Char) : Bool :=
  c.isDigit || ('a' ≤ c && c ≤ 'f') || ('A' ≤ c && c ≤ 'F')

def digitIn (c : Char) : Nat :=
  if c.isDigit then c.toNat - '0'.toNat else c.toLower.toNat - 'a'.toNat + 10

def inBase (base : Nat) (cs : List Char) : Nat := cs.foldl (fun n c => base * n + digitIn c) 0

def times (n : Nat) (p : Char → Bool) : Reader (List Char) := (List.replicate n p).mapM one

def codePoint (n : Nat) : Reader Char := do
  let code := inBase 16 (← times n isHex)
  if code.isValidChar then pure (Char.ofNat code) else failure

def escaped : Reader Char := do
  match ← one fun _ => true with
  | 'b' => pure '\x08'
  | 't' => pure '\t'
  | 'n' => pure '\n'
  | 'f' => pure '\x0c'
  | 'r' => pure '\r'
  | '\x22' => pure '\x22'
  | '\\' => pure '\\'
  | 'u' => codePoint 4
  | 'U' => codePoint 8
  | _ => failure

def escapeSequence : Reader Char := char '\\' *> escaped

def isBasic (c : Char) : Bool := isPlain c && c != '\x22' && c != '\\'

def isLiteral (c : Char) : Bool := isPlain c && c != '\x27'

def basicString : Reader String := do
  char '\x22'
  let cs ← many (one isBasic <|> escapeSequence)
  char '\x22'
  pure (String.ofList cs)

def literalString : Reader String := do
  char '\x27'
  let cs ← run isLiteral
  char '\x27'
  pure (String.ofList cs)

def tripled (quote : Char) : Reader Unit := chars [quote, quote, quote]

-- Fewer quotes than close a long string are part of it.
def innerQuotes (quote : Char) : Reader (List Char) := do
  let quotes ← run (· == quote)
  if quotes.length < 3 then pure quotes else failure

-- Three quotes that close a long string. Up to two more in front are part of it.
def closingQuotes (quote : Char) : Reader (List Char) := do
  let extra ← many (one (· == quote) <* ahead (tripled quote))
  tripled quote
  if extra.length ≤ 2 then pure extra else failure

def continuation : Reader Unit := do
  char '\\'
  blanks
  newline
  skipMany (char ' ' <|> char '\t' <|> newline)

def innerNewline : Reader (List Char) := newline *> pure ['\n']

def longBasicString : Reader String := do
  tripled '\x22'
  skipOption newline
  let parts ← many (List.singleton <$> one isBasic <|> innerNewline <|>
    List.singleton <$> escapeSequence <|> continuation *> pure [] <|> innerQuotes '\x22')
  let extra ← closingQuotes '\x22'
  pure (String.ofList (parts.flatten ++ extra))

def longLiteralString : Reader String := do
  tripled '\x27'
  skipOption newline
  let parts ← many (List.singleton <$> one isLiteral <|> innerNewline <|> innerQuotes '\x27')
  let extra ← closingQuotes '\x27'
  pure (String.ofList (parts.flatten ++ extra))

def anyString : Reader String :=
  longBasicString <|> basicString <|> longLiteralString <|> literalString

def digitRun (p : Char → Bool) : Reader Unit := do
  let _ ← one p
  skipMany (skipOption (char '_') *> one p)

def isSign (c : Char) : Bool := c == '+' || c == '-'

def wholePart : Reader Unit := do
  skipOption (one isSign)
  (do
    let _ ← one fun c => '1' ≤ c && c ≤ '9'
    skipMany (skipOption (char '_') *> one Char.isDigit)) <|> char '0'

def fraction : Reader Unit := char '.' *> digitRun Char.isDigit

def exponent : Reader Unit := do
  let _ ← one fun c => c == 'e' || c == 'E'
  skipOption (one isSign)
  digitRun Char.isDigit

def withoutUnderscores (cs : List Char) : List Char := cs.filter (· != '_')

-- A number with a fraction or an exponent. One that overflows upwards is refused.
def finiteFloat : Reader Float := do
  let cs ← taken (wholePart *> (exponent <|> fraction *> skipOption exponent))
  let x ← need (Decimal.read? (String.ofList (withoutUnderscores cs)))
  if x == 1 / 0 then failure else pure x

def specialFloat : Reader Float := do
  let cs ← taken (skipOption (one isSign) *> (chars ['i', 'n', 'f'] <|> chars ['n', 'a', 'n']))
  need (Decimal.read? (String.ofList cs))

def fitsInteger (n : Int) : Bool := -9223372036854775808 ≤ n && n ≤ 9223372036854775807

def decimalInteger : Reader Int := do
  let cs := withoutUnderscores (← taken wholePart)
  let n : Int := Decimal.digitsValue 0 (cs.filter Char.isDigit)
  pure (if cs.head? == some '-' then -n else n)

def basedInteger (mark : Char) (base : Nat) (p : Char → Bool) : Reader Int := do
  chars ['0', mark]
  let cs ← taken (digitRun p)
  pure (inBase base (withoutUnderscores cs))

def integer : Reader Int := do
  let n ← basedInteger 'x' 16 isHex <|> basedInteger 'o' 8 (fun c => '0' ≤ c && c ≤ '7') <|>
    basedInteger 'b' 2 (fun c => c == '0' || c == '1') <|> decimalInteger
  if fitsInteger n then pure n else failure

def boolean : Reader Bool :=
  chars ['t', 'r', 'u', 'e'] *> pure true <|> chars ['f', 'a', 'l', 's', 'e'] *> pure false

def bounded (n low high : Nat) : Reader Nat := do
  let k := Decimal.digitsValue 0 (← times n Char.isDigit)
  if low ≤ k && k ≤ high then pure k else failure

def isLeap (year : Nat) : Bool := year % 4 == 0 && (year % 100 != 0 || year % 400 == 0)

def daysIn (year month : Nat) : Nat :=
  if month == 2 then if isLeap year then 29 else 28
  else if [4, 6, 9, 11].contains month then 30 else 31

def date : Reader Unit := do
  let year ← bounded 4 0 9999
  char '-'
  let month ← bounded 2 1 12
  char '-'
  let _ ← bounded 2 1 (daysIn year month)

def time : Reader Unit := do
  let _ ← bounded 2 0 23
  char ':'
  let _ ← bounded 2 0 59
  char ':'
  let _ ← bounded 2 0 60
  skipOption (char '.' *> one Char.isDigit *> run Char.isDigit)

def offset : Reader Unit :=
  char 'Z' <|> char 'z' <|> do
    let _ ← one isSign
    let _ ← bounded 2 0 23
    char ':'
    let _ ← bounded 2 0 59

def dateAndTime : Reader Unit := do
  date
  skipOption (one (fun c => c == 'T' || c == 't' || c == ' ') *> time *> skipOption offset)

def moment : Reader String := String.ofList <$> taken (dateAndTime <|> time)

def scalar : Reader Toml :=
  .string <$> anyString <|> .boolean <$> boolean <|> .moment <$> moment <|>
    .float <$> finiteFloat <|> .float <$> specialFloat <|> .integer <$> integer

end Diorama.Toml.Reader
