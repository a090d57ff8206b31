import Diorama.Session.Stage

namespace Diorama.Session

variable {σ : Type} [Surface σ]

def rotateBy (id : String) (step : Float) : Action σ Unit := do
  update id fun s => { s with rotation := s.rotation + step }
  render id

def translateBy (redraw : String → Action σ Unit) (id : String) (offset : Float × Float) :
    Action σ Unit := do
  update id (·.moveBy offset)
  render id
  redrawChildren redraw id

def act (redraw : String → Action σ Unit) (id : String) : TaskAction → Action σ Unit
  | .rotate step => rotateBy id step
  | .translate dx dy => translateBy redraw id (dx, dy)

def changeTimeline (f : Timeline → Timeline) : Action σ Unit :=
  modify fun s => { s with timeline := f s.timeline }

def startTask (slot : Slot) (action : TaskAction) (rate : Float) : Action σ Nat := do
  let (id, timeline) := (← get).timeline.start slot action rate
  changeTimeline fun _ => timeline
  pure id

def isMoving (rate : Float) : Bool := rate != 0 && !rate.isNaN

def direction (rate : Float) : Float := if rate < 0 then -1 else 1

-- Without a rate the angle is applied once. With one, the shape turns by it `rate` times a second,
-- backwards if the rate is negative.
def rotate (id : String) (angle rate : Float) : Action σ Unit := do
  let _ ← shape id
  changeTimeline (.cancelSlot ⟨id, .rotation⟩)
  update id fun s => { s with handles.rotation := none }
  if isMoving rate then
    let task ← startTask ⟨id, .rotation⟩ (.rotate (angle * direction rate)) rate
    update id fun s => { s with handles.rotation := some task }
  else rotateBy id angle

def startAxis (slot : Slot) (action : TaskAction) (rate : Float) : Action σ (Option Nat) :=
  if isMoving rate then some <$> startTask slot action rate else pure none

-- Each axis with a velocity gets a task that moves the shape by one unit, as often a second as the
-- velocity says. Whatever moved the shape before is replaced.
def move (id : String) (vx vy : Float) : Action σ Unit := do
  let _ ← shape id
  changeTimeline (.cancelSlot ⟨id, .x⟩)
  changeTimeline (.cancelSlot ⟨id, .y⟩)
  let x ← startAxis ⟨id, .x⟩ (.translate (direction vx) 0) vx
  let y ← startAxis ⟨id, .y⟩ (.translate 0 (direction vy)) vy
  let still := x.isNone && y.isNone
  update id fun s => { s with handles.motion := if still then none else some ⟨x, y⟩ }
  if still then render id

-- Halts the parent of a shape, or the shape itself when it has none.
def stop (id : String) : Action σ Unit := do
  let record ← shape id
  modify (halt (record.links.parent.getD id))

def clearHandle (slot : Slot) (s : Session σ) : Session σ :=
  { s with
    shapes := s.shapes.modify slot.shape fun shape =>
      match slot.channel with
      | .rotation => { shape with handles.rotation := none }
      | .x => { shape with handles.motion := shape.handles.motion.bind fun m =>
          if m.y.isNone then none else some { m with x := none } }
      | .y => { shape with handles.motion := shape.handles.motion.bind fun m =>
          if m.x.isNone then none else some { m with y := none } } }

end Diorama.Session
