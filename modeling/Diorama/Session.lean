import Diorama.Registry
import Diorama.Surface
import Diorama.Timeline

namespace Diorama

abbrev Dictionary := Std.ExtTreeMap String Value

inductive Display where
  | kept (texts : List String)
  | discarded
  deriving DecidableEq, Repr

def Display.push (text : String) : Display → Display
  | .kept texts => .kept (texts ++ [text])
  | .discarded => .discarded

structure Session (σ : Type) where
  words : Dictionary
  shapes : Registry
  timeline : Timeline
  surface : σ
  display : Display

abbrev Action (σ : Type) := EStateM Fault (Session σ)

namespace Session

variable {σ : Type}

-- The meaning of a word: a definition, or else the shape of that name.
def lookup (s : Session σ) (word : String) : Except Fault Value :=
  match s.words[word]? with
  | some v => .ok v
  | none =>
    match s.shapes[word]? with
    | some shape => .ok (.shape shape)
    | none => .error (.undefinedWord word)

def isDefined (s : Session σ) (word : String) : Bool :=
  s.words.contains word || s.shapes.contains word

def define (name : String) (v : Value) (s : Session σ) : Session σ :=
  { s with words := s.words.insert name v }

def tell (text : String) (s : Session σ) : Session σ :=
  { s with display := s.display.push text }

def takeShown (s : Session σ) : List String × Session σ :=
  match s.display with
  | .kept texts => (texts, { s with display := .kept [] })
  | .discarded => ([], s)

def setCatchUp (n : Nat) (s : Session σ) : Session σ :=
  { s with timeline := { s.timeline with maxCatchUp := n } }

def halt (id : String) (s : Session σ) : Session σ :=
  { s with
    timeline := Channel.all.foldl (fun t channel => t.cancelSlot ⟨id, channel⟩) s.timeline
    shapes := s.shapes.modify id fun shape => { shape with handles := .none } }

end Session
end Diorama
