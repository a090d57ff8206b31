import Diorama.Session.Motion
import Diorama.Stack

namespace Diorama

structure Machine (σ : Type) where
  stack : Stack
  session : Session σ

abbrev Step (σ : Type) := EStateM Fault (Machine σ)

namespace Machine

variable {σ : Type}

def onStack {α : Type} (take : Stack.Taking α) : Step σ α := fun m =>
  match take m.stack with
  | .ok a stack => .ok a { m with stack }
  | .error e stack => .error e { m with stack }

def onSession {α : Type} (action : Action σ α) : Step σ α := fun m =>
  match action m.session with
  | .ok a session => .ok a { m with session }
  | .error e session => .error e { m with session }

instance : MonadLift Stack.Taking (Step σ) := ⟨onStack⟩

instance : MonadLift (Action σ) (Step σ) := ⟨onSession⟩

-- Replaces the two topmost numbers, the second one being the left operand.
def binary (operation : Float → Float → Float) : Step σ Unit := do
  let y ← Stack.popNumber
  let x ← Stack.popNumber
  Stack.push (.number (operation x y))

variable [Surface σ]

open Stack in
def perform (redraw : String → Action σ Unit) : Primitive → Step σ Unit
  | .plus => binary (· + ·)
  | .minus => binary (· - ·)
  | .times => binary (· * ·)
  | .over => binary (· / ·)
  | .host _ operation => binary operation
  | .sqrt => do
    let x ← popNumber
    push (.number x.sqrt)
  | .dup => do
    let v ← top
    push v
  | .drop => do
    let _ ← pop
  | .swap => do
    let y ← pop
    let x ← pop
    push y
    push x
  | .define => do
    let name ← popSymbol
    let v ← pop
    onSession (modify (Session.define name v))
  | .display => do
    let v ← pop
    onSession (modify (Session.tell v.shownText))
  | .add => do
    let id ← popId
    let shape ← popShape
    onSession (Session.register id shape)
  | .bind => do
    let parent ← popId
    let child ← popId
    let x ← popNumber
    let y ← popNumber
    onSession (Session.bindTo redraw parent child (x, y))
  | .render => do
    let id ← popId
    onSession (Session.render id)
  | .pin => do
    let id ← popId
    let x ← popNumber
    let y ← popNumber
    onSession (Session.pin redraw id (x, y))
  | .modify => do
    let id ← popId
    let record ← onSession (Session.shape id)
    let geometry ← popGeometry record.kind
    onSession (Session.reshape redraw id geometry)
  | .remove => do
    let id ← popId
    onSession (Session.remove id)
  | .rotate => do
    let id ← popId
    let angle ← popNumber
    let rate ← popNumber?
    onSession (Session.rotate id angle (rate.getD 0))
  | .move => do
    let id ← popId
    let vx ← popNumber
    let vy ← popNumber
    onSession (Session.move id vx vy)
  | .stop => do
    let id ← popId
    onSession (Session.stop id)

def resolve (s : Session σ) : Value → Except Fault Value
  | .word w => s.lookup w
  | v => .ok v

def instruct (redraw : String → Action σ Unit) (v : Value) : Step σ Unit := do
  match ← MonadExcept.ofExcept (resolve (← get).session v) with
  | .primitive p => perform redraw p
  | literal => Stack.push literal

def execute (redraw : String → Action σ Unit) (program : Program) : Step σ Unit :=
  program.forM (instruct redraw)

def subprogram (redraw : String → Action σ Unit) (id : String) : Action σ Unit := fun s =>
  match execute redraw [.string id, .word "render"] ⟨[], s⟩ with
  | .ok _ m => .ok () m.session
  | .error e m => .error e m.session

-- Whatever `render` means, a stack that holds one id is too short for every primitive that has
-- anything redrawn. So what a subprogram would do to redraw does not matter.
def redraw (id : String) : Action σ Unit := subprogram (fun _ => pure ()) id

end Machine

namespace Session

variable {σ : Type} [Surface σ]

def run (program : Program) (start : Nat) (stack : Stack) (s : Session σ) :
    Except Fault Stack × Session σ :=
  match Machine.execute Machine.redraw (program.drop start) ⟨stack, s⟩ with
  | .ok _ m => (.ok m.stack, m.session)
  | .error e m => (.error e, m.session)

def exec (program : Program) (s : Session σ) : Except Fault Stack × Session σ := s.run program 0 []

end Session
end Diorama
