import Diorama.Text.Lines
import Diorama.Token.Scanner
import Diorama.Value

namespace Diorama

inductive Verb where
  | add
  | remove
  | stop
  | pin
  | rotate
  | move
  | modify
  | bind
  | display
  deriving DecidableEq, Repr

namespace Verb

def ofWord? : String → Option Verb
  | "add" => some .add
  | "remove" => some .remove
  | "stop" => some .stop
  | "pin" => some .pin
  | "rotate" => some .rotate
  | "move" => some .move
  | "modify" => some .modify
  | "bind" => some .bind
  | "show" => some .display
  | _ => none

def usage : Verb → String
  | .add => "add circle|rect <id> ..."
  | .remove => "remove <id>"
  | .stop => "stop <id>"
  | .pin => "pin <id> <x> <y>"
  | .rotate => "rotate <id> <angle> [<rate>]"
  | .move => "move <id> <vx> <vy>"
  | .modify => "modify <id> <v1> <v2> <v3> [<v4>]"
  | .bind => "bind <parent> <child> <x> <y>"
  | .display => "show <text>"

def addUsage : Kind → String
  | .circle => "add circle <id> <cx> <cy> <r> [fill]"
  | .rect => "add rect <id> <x> <y> <width> <height> [fill]"

end Verb

namespace Command

-- The count mistake of a verb, at the last argument or else at the end of the line.
def wrongCount (args : List Token) (finish : Token) (usage : String) : Mistake :=
  ⟨.argumentCount args.length usage, (args.getLast?.getD finish).position⟩

def idValue (t : Token) : Value := .string t.name

def numberValues (ts : List Token) : Except Mistake Program := do
  let xs ← ts.mapM Token.number
  pure (xs.map Value.number)

def addition (id : Token) (geometry : Geometry) (fill : Option Token) : Program :=
  let shape := Shape.ofGeometry geometry
  let shape := match fill with
    | some t => { shape with fill := t.name }
    | none => shape
  [.shape shape, idValue id, .word "add"]

-- `add` behind its kind. The numbers are checked in reading order.
def encodeAdd (kind : Kind) (args : List Token) (wrong : Mistake) : Except Mistake Program :=
  let circle (id cx cy r : Token) (fill : Option Token) := do
    let cx ← cx.number
    let cy ← cy.number
    let r ← r.number
    pure (addition id (.circle cx cy r) fill)
  let rect (id x y width height : Token) (fill : Option Token) := do
    let x ← x.number
    let y ← y.number
    let width ← width.number
    let height ← height.number
    pure (addition id (.rect x y width height) fill)
  match kind, args with
  | .circle, [id, cx, cy, r] => circle id cx cy r none
  | .circle, [id, cx, cy, r, fill] => circle id cx cy r (some fill)
  | .rect, [id, x, y, width, height] => rect id x y width height none
  | .rect, [id, x, y, width, height, fill] => rect id x y width height (some fill)
  | _, _ => .error wrong

-- The program of a verb with its arguments. Its numbers are checked last to first.
def encode (verb : Verb) (args : List Token) (finish : Token) : Except Mistake Program :=
  match verb, args with
  | .add, kindToken :: rest =>
    match Kind.ofName? kindToken.name with
    | some kind => encodeAdd kind rest (wrongCount args finish (Verb.addUsage kind))
    | none => .error ⟨.unknownKind kindToken.lexeme, kindToken.position⟩
  | .remove, [id] => .ok [idValue id, .word "remove"]
  | .stop, [id] => .ok [idValue id, .word "stop"]
  | .pin, [id, x, y] => do pure ((← numberValues [y, x]) ++ [idValue id, .word "pin"])
  | .rotate, [id, angle] => do pure ((← numberValues [angle]) ++ [idValue id, .word "rotate"])
  | .rotate, [id, angle, rate] =>
    do pure ((← numberValues [rate, angle]) ++ [idValue id, .word "rotate"])
  | .move, [id, vx, vy] => do pure ((← numberValues [vy, vx]) ++ [idValue id, .word "move"])
  | .modify, [id, a, b, c] => do pure ((← numberValues [c, b, a]) ++ [idValue id, .word "modify"])
  | .modify, [id, a, b, c, d] =>
    do pure ((← numberValues [d, c, b, a]) ++ [idValue id, .word "modify"])
  | .bind, [parent, child, x, y] =>
    do pure ((← numberValues [y, x]) ++ [idValue child, idValue parent, .word "bind"])
  | .display, t :: ts =>
    .ok [.string (" ".intercalate ((t :: ts).map Token.lexeme)), .word "show"]
  | verb, args => .error (wrongCount args finish verb.usage)

def literal? (t : Token) : Option Value :=
  match t.kind with
  | .number x => some (.number x)
  | .string s => some (.string s)
  | .symbol s => some (.symbol s)
  | .word s => some (.word s)
  | .finish => none

def verb? (t : Token) : Option Verb :=
  match t.kind with
  | .word w => Verb.ofWord? w
  | _ => none

def ofTokens (tokens : List Token) (finish : Token) : Except Mistake Program :=
  match tokens with
  | [] => .ok []
  | head :: args =>
    match verb? head with
    | some verb => encode verb args finish
    | none => .ok ((head :: args).filterMap literal?)

end Command

def parseLine (line : Nat) (text : String) : Except Mistake Program := do
  let tokens ← (Token.scan line text).mapM id
  match tokens.getLast? with
  | some finish => Command.ofTokens tokens.dropLast finish
  | none => pure []

-- The programs of a script, one a line, without the empty ones; or every line's mistake.
def parseScript (text : String) : Except (List Mistake) (List Program) := do
  let programs ← collect (((Text.lines text).zipIdx 1).map fun (line, n) => parseLine n line)
  pure (programs.filter (!·.isEmpty))

end Diorama
