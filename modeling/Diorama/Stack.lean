import Diorama.Fault

namespace Diorama

abbrev Stack := List Value

namespace Stack

def shownDepth : Nat := 20

def topTexts (n : Nat) (s : Stack) : List String := (s.take n).map Value.text

def peek (s : Stack) (i : Nat) : Except Fault Value :=
  match s[i]? with
  | some v => .ok v
  | none => .error (.stackUnderflow (i + 1) s.length)

-- Takes values off a stack. A failure leaves the stack as it is then.
abbrev Taking := EStateM Fault Stack

def push (v : Value) : Taking Unit := modify (v :: ·)

def pop : Taking Value := fun
  | [] => .error (.stackUnderflow 1 0) []
  | v :: s => .ok v s

def top : Taking Value := fun s =>
  match s.peek 0 with
  | .ok v => .ok v s
  | .error e => .error e s

def popNumber : Taking Float := do
  match ← pop with
  | .number x => pure x
  | v => throw (.typeMismatch .number v.type)

def popId : Taking String := do
  match ← pop with
  | .string s => pure s
  | .symbol s => pure s
  | v => throw (.typeMismatch .string v.type)

def popSymbol : Taking String := do
  match ← pop with
  | .symbol s => pure s
  | v => throw (.typeMismatch .symbol v.type)

def popShape : Taking Shape := do
  match ← pop with
  | .shape s => pure s
  | v => throw (.typeMismatch .shape v.type)

-- Takes the top if it is a number, and leaves it otherwise.
def popNumber? : Taking (Option Float) := fun
  | .number x :: s => .ok (some x) s
  | s => .ok none s

def popGeometry : Kind → Taking Geometry
  | .circle => do
    let cx ← popNumber
    let cy ← popNumber
    let r ← popNumber
    pure (.circle cx cy r)
  | .rect => do
    let x ← popNumber
    let y ← popNumber
    let width ← popNumber
    let height ← popNumber
    pure (.rect x y width height)

end Stack
end Diorama
