import Diorama.Decimal.Reading
import Diorama.Text.Blank
import Diorama.Text.Utf8
import Diorama.Token

namespace Diorama

namespace Position

def step (p : Position) (b : UInt8) : Position :=
  if b = 0x0a then ⟨p.line + 1, 1⟩ else ⟨p.line, p.column + 1⟩

def after (p : Position) (bs : List UInt8) : Position := bs.foldl step p

end Position

namespace Token

def isDigitByte (b : UInt8) : Bool := 0x30 ≤ b && b ≤ 0x39

def isHexByte (b : UInt8) : Bool :=
  isDigitByte b || (0x41 ≤ b && b ≤ 0x46) || (0x61 ≤ b && b ≤ 0x66)

def startsNumber : List UInt8 → Bool
  | b :: bs => isDigitByte b || (b == 0x2e && (bs.head?.map isDigitByte).getD false)
  | [] => false

def looksNumeric (bs : List UInt8) : Bool :=
  match bs with
  | b :: rest => startsNumber bs || ((b == 0x2d || b == 0x2b) && startsNumber rest)
  | [] => false

def chunk (bs : List UInt8) : List UInt8 := bs.takeWhile (!Text.isBlankByte ·)

def afterChunk (bs : List UInt8) : List UInt8 := bs.dropWhile (!Text.isBlankByte ·)

-- Whether six hexadecimal digits follow, which make a number sign a colour and not a comment.
def isColour (bs : List UInt8) : Bool := (bs.take 6).length == 6 && (bs.take 6).all isHexByte

def unescape (b : UInt8) : UInt8 :=
  if b = 0x6e then 0x0a else if b = 0x74 then 0x09 else b

-- The content of a string behind its opening quote, and what follows it. There is no content when
-- the line or the text ends before the closing quote; an escaped newline ends no line.
def stringBody : List UInt8 → Option (List UInt8) × List UInt8
  | [] => (none, [])
  | b :: bs =>
    if b = 0x0a then (none, b :: bs)
    else if b = 0x22 then (some [], bs)
    else if b = 0x5c then
      match bs with
      | [] => (none, [])
      | c :: cs =>
        let found := stringBody cs
        (found.1.map (unescape c :: ·), found.2)
    else
      let found := stringBody bs
      (found.1.map (b :: ·), found.2)

inductive Item where
  | token (kind : TokenKind)
  | comment
  | mistake (cause : Mistake.Cause)

def Item.ofChunk (bs : List UInt8) : Item :=
  let text := Text.decode bs
  if looksNumeric bs then
    match Decimal.read? text with
    | some x => .token (.number x)
    | none => .mistake (.invalidNumber text)
  else .token (.word text)

def item (b : UInt8) (bs : List UInt8) : Item × List UInt8 :=
  if b = 0x22 then
    match stringBody bs with
    | (some body, rest) => (.token (.string (Text.decode body)), rest)
    | (none, rest) => (.mistake .openString, rest)
  else if b = 0x27 then
    if (chunk bs).isEmpty then (.mistake .emptySymbol, bs)
    else (.token (.symbol (Text.decode (chunk bs))), afterChunk bs)
  else if b = 0x23 then
    if isColour bs then (.token (.word (Text.decode (b :: chunk bs))), afterChunk bs)
    else (.comment, bs.dropWhile (· != 0x0a))
  else (.ofChunk (b :: chunk bs), afterChunk bs)

theorem stringBody_suffix (bs : List UInt8) : (stringBody bs).2 <:+ bs := by
  fun_induction stringBody bs with
  | case1 => exact List.suffix_rfl
  | case2 => exact List.suffix_rfl
  | case3 => exact List.suffix_cons _ _
  | case4 => exact List.suffix_cons _ _
  | case5 c cs found _ _ ih =>
    exact ih.trans ((List.suffix_cons c cs).trans (List.suffix_cons _ _))
  | case6 b bs _ _ _ found ih => exact ih.trans (List.suffix_cons b bs)

-- What follows an item is a suffix of the text, so an item takes at least its first byte.
theorem item_suffix (b : UInt8) (bs : List UInt8) : (item b bs).2 <:+ bs := by
  have body := stringBody_suffix bs
  unfold item
  split
  · split <;> simp_all
  · split
    · split
      · exact List.suffix_rfl
      · exact List.dropWhile_suffix _
    · split
      · split
        · exact List.dropWhile_suffix _
        · exact List.dropWhile_suffix _
      · exact List.dropWhile_suffix _

abbrev Entry := Except Mistake Token

def Item.entry (item : Item) (taken : List UInt8) (p : Position) : Option Entry :=
  match item with
  | .token kind => some (.ok ⟨kind, Text.decode taken, p⟩)
  | .comment => none
  | .mistake cause => some (.error ⟨cause, p⟩)

def entries (p : Position) : List UInt8 → List Entry
  | [] => [.ok ⟨.finish, "", p⟩]
  | b :: bs =>
    if Text.isBlankByte b then entries (p.step b) bs
    else
      let found := item b bs
      let taken := b :: bs.take (bs.length - found.2.length)
      (found.1.entry taken p).toList ++ entries (p.after taken) found.2
termination_by bs => bs.length
decreasing_by
  · simp
  · have shorter := (item_suffix b bs).length_le
    simp only [List.length_cons]
    omega

def scan (line : Nat) (text : String) : List Entry := entries ⟨line, 1⟩ (Text.bytes text)

end Token

def collect {ε α : Type} (results : List (Except ε α)) : Except (List ε) (List α) :=
  let errors := results.filterMap fun
    | .error e => some e
    | .ok _ => none
  if errors.isEmpty then .ok (results.filterMap Except.toOption) else .error errors

def tokenize (line : Nat) (text : String) : Except (List Mistake) (List Token) :=
  collect (Token.scan line text)

end Diorama
