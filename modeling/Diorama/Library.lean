import Diorama.Session

namespace Diorama

structure Layer where
  name : String
  install : Dictionary → Dictionary

def Layer.ofPrimitives (name : String) (primitives : List Primitive) : Layer where
  name
  install words := primitives.foldl (fun words p => words.insert p.name (.primitive p)) words

abbrev Library := List Layer

namespace Library

def core : Layer :=
  .ofPrimitives "core" [.plus, .minus, .times, .over, .sqrt, .dup, .drop, .swap, .define, .display]

def scene : Layer := .ofPrimitives "scene" [.add, .bind, .render, .pin, .modify, .remove]

def motion : Layer := .ofPrimitives "motion" [.rotate, .move, .stop]

def standard : Library := [core, scene, motion]

def load (l : Library) : Dictionary := l.foldl (fun words layer => layer.install words) ∅

def find? (l : Library) (name : String) : Option Layer := List.find? (·.name == name) l

end Library

def Session.new {σ : Type} (library : Library) (surface : σ) (display : Display) : Session σ :=
  ⟨library.load, ∅, .initial, surface, display⟩

end Diorama
