import Diorama.Session

namespace Diorama.Session

variable {σ : Type} [Surface σ]

def shape (id : String) : Action σ Shape := do
  MonadExcept.ofExcept ((← get).shapes.find id)

def changeShapes (f : Registry → Registry) : Action σ Unit :=
  modify fun s => { s with shapes := f s.shapes }

def update (id : String) (f : Shape → Shape) : Action σ Unit := do
  let record ← shape id
  changeShapes (.put id (f record))

def draw (f : σ → σ) : Action σ Unit := modify fun s => { s with surface := f s.surface }

def render (id : String) : Action σ Unit := do
  let p ← MonadExcept.ofExcept ((← get).shapes.placement id)
  draw (Surface.place p.kind id p.attributes p.container)

-- Other shapes are redrawn by running the word `render`. How that is done is a parameter here, `redraw`.
def redrawChildren (redraw : String → Action σ Unit) (id : String) : Action σ Unit := do
  (← shape id).links.children.forM redraw

-- A record that is replaced keeps its edges and tasks. A new one has none, and tasks left over from
-- a removed shape of the same id are cancelled.
def register (id : String) (value : Shape) : Action σ Unit := do
  match (← get).shapes[id]? with
  | some previous => changeShapes (.put id (value.replacing previous))
  | none =>
    modify (halt id)
    changeShapes (.put id value.detached)
  draw (Surface.ensureNode value.kind id)
  render id

def bindTo (redraw : String → Action σ Unit) (parent child : String) (position : Float × Float) :
    Action σ Unit := do
  let linked ← MonadExcept.ofExcept ((← get).shapes.checkBinding parent child)
  update child (·.moveTo position)
  unless linked do
    changeShapes (.link parent child)
    let group := groupId parent child
    draw (Surface.applyAll [.createGroup group, .appendChild rootId group,
      .appendChild group parent, .appendChild group child])
  redraw child
  redrawChildren redraw child

def pin (redraw : String → Action σ Unit) (id : String) (position : Float × Float) :
    Action σ Unit := do
  let top ← MonadExcept.ofExcept ((← get).shapes.rootOf id)
  update top (·.moveTo position)
  render top
  redrawChildren redraw top

def reshape (redraw : String → Action σ Unit) (id : String) (geometry : Geometry) :
    Action σ Unit := do
  let record ← shape id
  register id { record with geometry }
  redrawChildren redraw id

-- Removes a shape. Whoever was in a group with it is moved out before the group is deleted.
def remove (id : String) : Action σ Unit := do
  let removed ← shape id
  changeShapes (.cutOut id removed)
  let survivors := removed.links.children ++ removed.links.parent.toList
  survivors.forM fun other => do
    if (← get).shapes.contains other then render other
  let groups := removed.links.parent.toList.map (groupId · id) ++
    removed.links.children.map (groupId id)
  draw (Surface.applyAll ((groups ++ [id]).map Edit.deleteNode))

end Diorama.Session
