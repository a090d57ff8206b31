import Diorama.Library
import Diorama.Proofs.Forest
import Diorama.Session.Clock

namespace Diorama

section Running

variable {ε τ α β : Type} {x : EStateM ε τ α} {f : α → EStateM ε τ β} {s s' : τ} {a : α} {e : ε}

theorem Action.bind_ok (ran : x s = .ok a s') : (x >>= f) s = f a s' := by
  simp only [bind, EStateM.bind, ran]

theorem Action.bind_error (ran : x s = .error e s') : (x >>= f) s = .error e s' := by
  simp only [bind, EStateM.bind, ran]

theorem Action.of_bind_ok {b : β} (ran : (x >>= f) s = .ok b s') :
    ∃ a between, x s = .ok a between ∧ f a between = .ok b s' := by
  cases first : x s with
  | ok a between => exact ⟨a, between, rfl, (bind_ok first).symm.trans ran⟩
  | error e between => cases (bind_error first).symm.trans ran

end Running

namespace Registry

variable {r : Registry} {id x : String} {shape : Shape} {f : Shape → Shape}

-- Where a shape is drawn: from its parent's stored position, if it has a parent.
def absolute (r : Registry) (shape : Shape) : Geometry :=
  match shape.links.parent.bind (r[·]?) with
  | some parent => shape.geometry.moveBy parent.position
  | none => shape.geometry

theorem placement_found (found : r[id]? = some shape) (above : ∀ p, shape.links.parent = some p → p ∈ r) :
    r.placement id = .ok ⟨shape.kind, shape.nodeAttributes (r.absolute shape),
      (shape.links.parent.map (groupId · id)).getD rootId⟩ := by
  unfold placement absolute
  rw [find_ok found]
  cases bound : shape.links.parent with
  | none => simp [bind, Except.bind, bound]
  | some p =>
    obtain ⟨parent, above⟩ := found_of_mem (above p bound)
    simp [bind, Except.bind, bound, find_ok above, above]

theorem Forest.placement_ok (forest : r.Forest) (found : r[id]? = some shape) :
    r.placement id = .ok ⟨shape.kind, shape.nodeAttributes (r.absolute shape),
      (shape.links.parent.map (groupId · id)).getD rootId⟩ :=
  placement_found found fun _ bound => forest.parent_mem ((parent?_eq found).trans bound)

def display {σ : Type} [Surface σ] (r : Registry) (id : String) (surface : σ) : σ :=
  match r[id]? with
  | some shape => Surface.place shape.kind id (shape.nodeAttributes (r.absolute shape))
      ((shape.links.parent.map (groupId · id)).getD rootId) surface
  | none => surface

theorem put_eq_modify (found : r[id]? = some shape) : r.put id (f shape) = r.modify id f := by
  refine Std.ExtTreeMap.ext_getElem? ?_
  intro x
  rw [getElem?_modify, found]
  exact getElem?_put

end Registry

theorem Geometry.kind_moveTo (g : Geometry) (p : Float × Float) : (g.moveTo p).kind = g.kind := by
  cases g <;> rfl

def MotionTasks.still (tasks : MotionTasks) : Bool := tasks.x.isNone && tasks.y.isNone

namespace Shape

def turnBy (step : Float) (s : Shape) : Shape := { s with rotation := s.rotation + step }

def withTurning (task : Option Nat) (s : Shape) : Shape := { s with handles.rotation := task }

def withMotion (tasks : Option MotionTasks) (s : Shape) : Shape := { s with handles.motion := tasks }

end Shape

-- What a program can leave on the stack or define: no words and no primitives.
def Value.IsData : Value → Prop
  | .number _ | .string _ | .symbol _ | .shape _ => True
  | .word _ | .primitive _ => False

namespace Session

variable {σ : Type} {s s' : Session σ} {id : String} {ids more : List String} {record : Shape}
  {f : Shape → Shape}

def Renders (s : Session σ) : Prop := s.words["render"]? = some (.primitive .render)

structure Sound (s : Session σ) : Prop where
  forest : s.shapes.Forest
  words : ∀ (w : String) (v : Value), s.words[w]? = some v → v.IsData ∨ Library.standard.load[w]? = some v
  renders : "render" ∈ s.words

theorem Sound.congr (sound : s.Sound) (words : s'.words = s.words) (forest : s'.shapes.Forest) :
    s'.Sound :=
  ⟨forest, words ▸ sound.words, words ▸ sound.renders⟩

def changed (id : String) (f : Shape → Shape) (s : Session σ) : Session σ :=
  { s with shapes := s.shapes.modify id f }

theorem Sound.changed (sound : s.Sound) (kept : ∀ s, (f s).links = s.links) : (s.changed id f).Sound :=
  sound.congr rfl (sound.forest.modify kept)

theorem shape_ok (found : s.shapes[id]? = some record) : shape id s = .ok record s := by
  refine (Action.bind_ok (s := s) rfl).trans ?_
  rw [Registry.find_ok found]
  rfl

theorem shape_missing (absent : s.shapes[id]? = none) : shape id s = .error (.unknownShape id) s := by
  refine (Action.bind_ok (s := s) rfl).trans ?_
  rw [Registry.find_missing absent]
  rfl

def timed (timeline : Timeline) (s : Session σ) : Session σ := { s with timeline }

theorem changeTimeline_ok {f : Timeline → Timeline} :
    changeTimeline f s = .ok () (s.timed (f s.timeline)) := rfl

theorem startTask_ok {slot : Slot} {action : TaskAction} {rate : Float} :
    startTask slot action rate s = .ok (s.timeline.start slot action rate).1
      (s.timed (s.timeline.start slot action rate).2) := rfl

theorem changeShapes_ok {f : Registry → Registry} :
    changeShapes f s = .ok () { s with shapes := f s.shapes } := rfl

theorem update_ok (present : id ∈ s.shapes) : update id f s = .ok () (s.changed id f) := by
  obtain ⟨record, found⟩ := Registry.found_of_mem present
  refine (Action.bind_ok (shape_ok found)).trans (changeShapes_ok.trans ?_)
  rw [Registry.put_eq_modify found]
  rfl

theorem Sound.halt (sound : s.Sound) (id : String) : (s.halt id).Sound :=
  sound.congr rfl (sound.forest.modify fun _ => rfl)

def recorded (id : String) (value : Shape) (s : Session σ) : Session σ :=
  match s.shapes[id]? with
  | some _ => s.changed id value.replacing
  | none => { s.halt id with shapes := (s.halt id).shapes.put id value.detached }

theorem recorded_surface {value : Shape} : (s.recorded id value).surface = s.surface := by
  unfold recorded
  split <;> rfl

theorem recorded_mem {x : String} {value : Shape} :
    x ∈ (s.recorded id value).shapes ↔ x = id ∨ x ∈ s.shapes := by
  unfold recorded
  split
  · rename_i found
    have present := Registry.mem_of_found found
    simp only [changed, Std.ExtTreeMap.mem_modify]
    grind
  · simp only [halt, Registry.put, Std.ExtTreeMap.mem_insert, Std.compare_eq_iff_eq,
      Std.ExtTreeMap.mem_modify]
    grind

theorem Sound.recorded (sound : s.Sound) (id : String) (value : Shape) : (s.recorded id value).Sound := by
  unfold Session.recorded
  split
  · exact sound.changed fun _ => rfl
  · rename_i absent
    have halted := sound.halt id
    refine halted.congr rfl (halted.forest.put (Registry.links_none ?_))
    rw [Session.halt, Registry.getElem?_modify, if_pos rfl, absent]
    rfl

def unturned (id : String) (s : Session σ) : Session σ :=
  (s.timed (s.timeline.cancelSlot ⟨id, .rotation⟩)).changed id (.withTurning none)

theorem Sound.unturned (sound : s.Sound) (id : String) : (s.unturned id).Sound :=
  sound.congr rfl (sound.forest.modify fun _ => rfl)

def onAxis (slot : Slot) (action : TaskAction) (rate : Float) (t : Timeline) : Option Nat × Timeline :=
  if isMoving rate then (some (t.start slot action rate).1, (t.start slot action rate).2) else (none, t)

theorem startAxis_ok {slot : Slot} {action : TaskAction} {rate : Float} :
    startAxis slot action rate s = .ok (onAxis slot action rate s.timeline).1
      (s.timed (onAxis slot action rate s.timeline).2) := by
  unfold startAxis onAxis
  split <;> rfl

def onAxes (id : String) (vx vy : Float) (t : Timeline) : MotionTasks × Timeline :=
  let x := onAxis ⟨id, .x⟩ (.translate (direction vx) 0) vx
    ((t.cancelSlot ⟨id, .x⟩).cancelSlot ⟨id, .y⟩)
  let y := onAxis ⟨id, .y⟩ (.translate 0 (direction vy)) vy x.2
  (⟨x.1, y.1⟩, y.2)

def redirected (id : String) (vx vy : Float) (s : Session σ) : Session σ :=
  let tasks := onAxes id vx vy s.timeline
  (s.timed tasks.2).changed id (.withMotion (if tasks.1.still then none else some tasks.1))

theorem stop_ok (found : s.shapes[id]? = some record) :
    stop id s = .ok () (s.halt (record.links.parent.getD id)) :=
  (Action.bind_ok (shape_ok found)).trans rfl

variable [Surface σ]

def drawnAll (ids : List String) (s : Session σ) : Session σ :=
  { s with surface := ids.foldl (fun surface id => s.shapes.display id surface) s.surface }

def drawn (id : String) (s : Session σ) : Session σ := s.drawnAll [id]

-- The ids that are drawn when the word `render` is run on some: none, if it means something else.
def heard (ids : List String) (s : Session σ) : List String :=
  match s.words["render"]? with
  | some (.primitive .render) => ids
  | _ => []

instance (s : Session σ) : Decidable s.Renders :=
  decidable_of_iff (s.heard [""] ≠ []) (by unfold heard Renders; split <;> simp_all)

def redrawn (ids : List String) (s : Session σ) : Session σ := s.drawnAll (s.heard ids)

theorem drawnAll_append : s.drawnAll (ids ++ more) = (s.drawnAll ids).drawnAll more := by
  simp only [drawnAll, List.foldl_append]

theorem redrawn_append : s.redrawn (ids ++ more) = (s.redrawn ids).redrawn more := by
  unfold redrawn
  rw [← drawnAll_append]
  congr 1
  unfold heard drawnAll
  dsimp only
  split <;> rfl

theorem Renders.redrawn (renders : s.Renders) : s.redrawn ids = s.drawnAll ids := by
  unfold Session.redrawn heard
  rw [renders]

theorem Sound.drawnAll (sound : s.Sound) : (s.drawnAll ids).Sound := sound.congr rfl sound.forest

theorem render_placed {p : Registry.Placement} (placed : s.shapes.placement id = .ok p) :
    render id s = .ok () { s with surface := Surface.place p.kind id p.attributes p.container s.surface } := by
  refine (Action.bind_ok (s := s) rfl).trans ?_
  rw [placed]
  rfl

theorem render_refused {fault : Fault} (refused : s.shapes.placement id = .error fault) :
    render id s = .error fault s := by
  refine (Action.bind_ok (s := s) rfl).trans ?_
  rw [refused]
  rfl

theorem render_ok (forest : s.shapes.Forest) (present : id ∈ s.shapes) : render id s = .ok () (s.drawn id) := by
  obtain ⟨record, found⟩ := Registry.found_of_mem present
  rw [render_placed (forest.placement_ok found)]
  simp only [drawn, drawnAll, List.foldl, Registry.display, found]

theorem render_missing (absent : s.shapes[id]? = none) : render id s = .error (.unknownShape id) s := by
  refine render_refused ?_
  unfold Registry.placement
  rw [Registry.find_missing absent]
  rfl

theorem load_render : Library.standard.load["render"]? = some (.primitive .render) := rfl

omit [Surface σ] in
theorem Sound.render_cases (sound : s.Sound) :
    s.Renders ∨ ∃ v : Value, s.words["render"]? = some v ∧ v.IsData := by
  have found := Std.ExtTreeMap.getElem?_eq_some_getElem sound.renders
  rcases sound.words _ _ found with data | library
  · exact .inr ⟨_, found, data⟩
  · rw [load_render] at library
    exact .inl (found.trans library.symm)

end Session

namespace Machine

variable {σ : Type} [Surface σ] {redraw : String → Action σ Unit} {v : Value} {rest : Program}
  {m : Machine σ} {s : Session σ} {id : String}

theorem instruct_eq : instruct redraw v m = match resolve m.session v with
    | .ok (.primitive p) => perform redraw p m
    | .ok literal => .ok () { m with stack := literal :: m.stack }
    | .error e => .error e m := by
  refine (Action.bind_ok (s := m) rfl).trans ?_
  cases resolve m.session v with
  | error e => rfl
  | ok v => cases v <;> rfl

theorem execute_cons : execute redraw (v :: rest) m = match instruct redraw v m with
    | .ok _ m => execute redraw rest m
    | .error e m => .error e m := by
  unfold execute
  simp only [List.forM, bind, EStateM.bind]
  cases instruct redraw v m <;> rfl

theorem redraw_resolve : Machine.redraw id s = match resolve s (.word "render") with
    | .ok (.primitive p) => match perform (fun _ => pure ()) p ⟨[.string id], s⟩ with
      | .ok _ m => .ok () m.session
      | .error e m => .error e m.session
    | .ok _ => .ok () s
    | .error e => .error e s := by
  unfold Machine.redraw subprogram
  rw [execute_cons, instruct_eq]
  simp only [resolve]
  rw [execute_cons, instruct_eq]
  simp only [resolve]
  cases s.lookup "render" with
  | error e => rfl
  | ok v =>
    cases v with
    | primitive p =>
      dsimp only
      cases perform (fun _ => pure ()) p ⟨[.string id], s⟩ <;> rfl
    | _ => rfl

theorem redraw_eq (means : s.words["render"]? = some v) : Machine.redraw id s = match v with
    | .primitive p => match perform (fun _ => pure ()) p ⟨[.string id], s⟩ with
      | .ok _ m => .ok () m.session
      | .error e m => .error e m.session
    | _ => .ok () s := by
  have resolved : resolve s (.word "render") = .ok v := by
    simp [resolve, Session.lookup, means]
  rw [redraw_resolve, resolved]
  cases v <;> rfl

end Machine

namespace Session

variable {σ : Type} [Surface σ] {s s' : Session σ} {id : String} {ids : List String} {record : Shape}
  {f : Shape → Shape}

theorem redraw_ok (sound : s.Sound) (present : id ∈ s.shapes) :
    Machine.redraw id s = .ok () (s.redrawn [id]) := by
  rcases sound.render_cases with renders | ⟨v, means, data⟩
  · have shown : Machine.perform (fun _ => pure ()) .render ⟨[.string id], s⟩ =
        Machine.onSession (render id) ⟨[], s⟩ := rfl
    rw [Machine.redraw_eq renders, renders.redrawn]
    simp only [shown, Machine.onSession, render_ok sound.forest present]
    rfl
  · have unchanged : s.redrawn [id] = s := by
      unfold redrawn heard
      rw [means]
      cases v <;> first | rfl | cases data
    rw [Machine.redraw_eq means, unchanged]
    cases v <;> first | rfl | cases data

theorem redraw_forM (sound : s.Sound) (present : ∀ id ∈ ids, id ∈ s.shapes) :
    ids.forM Machine.redraw s = .ok () (s.redrawn ids) := by
  induction ids generalizing s with
  | nil =>
    have unchanged : s.redrawn [] = s := by
      unfold redrawn heard
      split <;> rfl
    rw [unchanged]
    rfl
  | cons id ids ih =>
    have first := redraw_ok sound (present id (by simp))
    have later := ih (s := s.redrawn [id]) sound.drawnAll fun x member => present x (by simp [member])
    rw [← redrawn_append] at later
    exact (Action.bind_ok first).trans later

theorem redrawChildren_ok (sound : s.Sound) (present : id ∈ s.shapes) :
    redrawChildren Machine.redraw id s = .ok () (s.redrawn (s.shapes.children id)) := by
  obtain ⟨record, found⟩ := Registry.found_of_mem present
  refine (Action.bind_ok (shape_ok found)).trans ?_
  rw [← Registry.children_eq found]
  exact redraw_forM sound fun c listed => sound.forest.child_mem listed

def fitted (kind : Kind) (id : String) (s : Session σ) : Session σ :=
  { s with surface := Surface.ensureNode kind id s.surface }

def registered (id : String) (value : Shape) (s : Session σ) : Session σ :=
  ((s.recorded id value).fitted value.kind id).drawn id

theorem register_ok (sound : s.Sound) (id : String) (value : Shape) :
    register id value s = .ok () (s.registered id value) := by
  let ready := (s.recorded id value).fitted value.kind id
  have present : id ∈ ready.shapes := recorded_mem.mpr (.inl rfl)
  have forest : ready.shapes.Forest := (sound.recorded id value).forest
  have stored : register id value s = render id ready := by
    unfold register
    refine (Action.bind_ok (s := s) rfl).trans ?_
    simp only [ready, recorded]
    cases found : s.shapes[id]? with
    | none => rfl
    | some previous =>
      have same := Registry.put_eq_modify (f := value.replacing) found
      simp only [changed, ← same]
      rfl
  exact stored.trans (render_ok forest present)

def grouped (parent child : String) (s : Session σ) : Session σ :=
  { s with
    shapes := s.shapes.link parent child
    surface := Surface.applyAll [.createGroup (groupId parent child),
      .appendChild rootId (groupId parent child), .appendChild (groupId parent child) parent,
      .appendChild (groupId parent child) child] s.surface }

-- `linked` tells that the link is there already.
def attached (parent child : String) (position : Float × Float) (linked : Bool) (s : Session σ) :
    Session σ :=
  let s := s.changed child (·.moveTo position)
  if linked then s else s.grouped parent child

def bound (parent child : String) (position : Float × Float) (linked : Bool) (s : Session σ) :
    Session σ :=
  let s := s.attached parent child position linked
  s.redrawn (child :: s.shapes.children child)

theorem bindTo_refused {redraw : String → Action σ Unit} {parent child : String}
    {position : Float × Float} {e : Fault} (refused : s.shapes.checkBinding parent child = .error e) :
    bindTo redraw parent child position s = .error e s := by
  unfold bindTo
  refine (Action.bind_ok (s := s) rfl).trans ?_
  rw [refused]
  rfl

theorem attached_mem {parent child x : String} {position : Float × Float} {linked : Bool} :
    x ∈ (s.attached parent child position linked).shapes ↔ x ∈ s.shapes := by
  unfold attached
  cases linked <;> simp [grouped, changed, Registry.link, Std.ExtTreeMap.mem_modify]

theorem Sound.attached {parent child : String} {linked : Bool} (sound : s.Sound)
    (granted : s.shapes.checkBinding parent child = .ok linked) (position : Float × Float) :
    (s.attached parent child position linked).Sound := by
  -- moving the child leaves every chain as it was, so what was checked before still holds
  have kept : ∀ s : Shape, (s.moveTo position).links = s.links := fun _ => rfl
  have moved : (s.changed child (·.moveTo position)).Sound := sound.changed kept
  obtain ⟨above, below, ⟨rfl, _⟩ | ⟨rfl, free, apart⟩⟩ := Registry.checkBinding_cases granted
  · exact moved
  · refine moved.congr rfl (moved.forest.link ?_ ?_ ?_ ?_)
    · exact Std.ExtTreeMap.mem_modify.mpr above
    · exact Std.ExtTreeMap.mem_modify.mpr below
    · exact (Registry.parent?_modify kept).trans free
    · rintro ⟨path, climb⟩
      exact apart ⟨path, climb.congr fun _ => (Registry.parent?_modify kept).symm⟩

theorem bindTo_granted {redraw : String → Action σ Unit} {parent child : String} {linked : Bool}
    {position : Float × Float} (granted : s.shapes.checkBinding parent child = .ok linked) :
    bindTo redraw parent child position s =
      (do redraw child; redrawChildren redraw child : Action σ Unit) (s.attached parent child position linked) := by
  have below := (Registry.checkBinding_cases granted).2.1
  unfold bindTo
  refine (Action.bind_ok (s := s) rfl).trans ?_
  rw [granted]
  refine (Action.bind_ok (s := s) rfl).trans ?_
  refine (Action.bind_ok (update_ok below)).trans ?_
  cases linked with
  | true => rfl
  | false => rfl

theorem bindTo_ok {parent child : String} {linked : Bool} {position : Float × Float} (sound : s.Sound)
    (granted : s.shapes.checkBinding parent child = .ok linked) :
    bindTo Machine.redraw parent child position s = .ok () (s.bound parent child position linked) := by
  have below := (Registry.checkBinding_cases granted).2.1
  have ready := sound.attached granted position
  have present : child ∈ (s.attached parent child position linked).shapes := attached_mem.mpr below
  have first := redraw_ok ready present
  have later := redrawChildren_ok (s := (s.attached parent child position linked).redrawn [child])
    ready.drawnAll present
  refine (bindTo_granted granted).trans ((Action.bind_ok first).trans (later.trans ?_))
  exact congrArg _ redrawn_append.symm

theorem pin_ok {top : String} {position : Float × Float} (sound : s.Sound)
    (root : s.shapes.rootOf id = .ok top) :
    pin Machine.redraw id position s =
      .ok () (((s.changed top (·.moveTo position)).drawn top).redrawn (s.shapes.children top)) := by
  have kept : ∀ s : Shape, (s.moveTo position).links = s.links := fun _ => rfl
  have present := Registry.rootSteps_mem root
  have moved : (s.changed top (·.moveTo position)).Sound := sound.changed kept
  have still : top ∈ (s.changed top (·.moveTo position)).shapes := Std.ExtTreeMap.mem_modify.mpr present
  have same : (s.changed top (·.moveTo position)).shapes.children top = s.shapes.children top :=
    Registry.children_modify kept
  unfold pin
  refine (Action.bind_ok (s := s) rfl).trans ?_
  rw [root]
  refine (Action.bind_ok (s := s) rfl).trans ?_
  refine (Action.bind_ok (update_ok present)).trans ?_
  refine (Action.bind_ok (render_ok moved.forest still)).trans ?_
  rw [← same]
  exact redrawChildren_ok moved.drawnAll still

theorem pin_refused {redraw : String → Action σ Unit} {position : Float × Float} {e : Fault}
    (refused : s.shapes.rootOf id = .error e) : pin redraw id position s = .error e s := by
  unfold pin
  refine (Action.bind_ok (s := s) rfl).trans ?_
  rw [refused]
  rfl

theorem Sound.registered (sound : s.Sound) (id : String) (value : Shape) :
    (s.registered id value).Sound :=
  (sound.recorded id value).congr rfl (sound.recorded id value).forest

theorem reshape_ok {geometry : Geometry} (sound : s.Sound) (found : s.shapes[id]? = some record) :
    reshape Machine.redraw id geometry s =
      .ok () ((s.registered id { record with geometry }).redrawn (s.shapes.children id)) := by
  have same : (s.registered id { record with geometry }).shapes.children id = s.shapes.children id := by
    change (s.recorded id { record with geometry }).shapes.children id = _
    unfold recorded
    rw [found]
    exact Registry.children_modify fun _ => rfl
  refine (Action.bind_ok (shape_ok found)).trans ?_
  refine (Action.bind_ok (register_ok sound id { record with geometry })).trans ?_
  rw [← same]
  exact redrawChildren_ok (sound.registered id _) (recorded_mem.mpr (.inl rfl))

def cleared (id : String) (record : Shape) (s : Session σ) : Session σ :=
  { s with
    surface := Surface.applyAll ((record.links.parent.toList.map (groupId · id) ++
      record.links.children.map (groupId id) ++ [id]).map Edit.deleteNode) s.surface }

def removed (id : String) (record : Shape) (s : Session σ) : Session σ :=
  let s := { s with shapes := s.shapes.cutOut id record }
  (s.drawnAll (record.links.children ++ record.links.parent.toList)).cleared id record

theorem render_forM (forest : s.shapes.Forest) (present : ∀ x ∈ ids, x ∈ s.shapes) :
    ids.forM (fun x => do if (← get).shapes.contains x then render x : String → Action σ Unit) s =
      .ok () (s.drawnAll ids) := by
  induction ids generalizing s with
  | nil => rfl
  | cons id ids ih =>
    have here : s.shapes.contains id = true := present id (by simp)
    have first : (do if (← get).shapes.contains id then render id : Action σ Unit) s =
        .ok () (s.drawn id) := by
      refine (Action.bind_ok (s := s) rfl).trans ?_
      rw [if_pos here]
      exact render_ok forest here
    have later := ih (s := s.drawn id) forest fun x member => present x (by simp [member])
    rw [drawn, ← drawnAll_append] at later
    exact (Action.bind_ok first).trans later

theorem remove_ok (sound : s.Sound) (found : s.shapes[id]? = some record) :
    remove id s = .ok () (s.removed id record) := by
  refine (Action.bind_ok (shape_ok found)).trans ?_
  refine (Action.bind_ok changeShapes_ok).trans ?_
  refine (Action.bind_ok (render_forM (sound.forest.cutOut found) ?_)).trans rfl
  intro x linked
  exact sound.forest.survivor_mem found linked

theorem Sound.removed (sound : s.Sound) (found : s.shapes[id]? = some record) :
    (s.removed id record).Sound :=
  sound.congr rfl (sound.forest.cutOut found)

theorem rotateBy_ok {step : Float} (sound : s.Sound) (present : id ∈ s.shapes) :
    rotateBy id step s = .ok () ((s.changed id (.turnBy step)).drawn id) := by
  refine (Action.bind_ok (update_ok present)).trans ?_
  exact render_ok (sound.forest.modify fun _ => rfl) (Std.ExtTreeMap.mem_modify.mpr present)

theorem translateBy_ok {offset : Float × Float} (sound : s.Sound) (present : id ∈ s.shapes) :
    translateBy Machine.redraw id offset s =
      .ok () (((s.changed id (·.moveBy offset)).drawn id).redrawn (s.shapes.children id)) := by
  have kept : ∀ s : Shape, (s.moveBy offset).links = s.links := fun _ => rfl
  have moved : (s.changed id (·.moveBy offset)).Sound := sound.changed kept
  have still : id ∈ (s.changed id (·.moveBy offset)).shapes := Std.ExtTreeMap.mem_modify.mpr present
  have same : (s.changed id (·.moveBy offset)).shapes.children id = s.shapes.children id :=
    Registry.children_modify kept
  refine (Action.bind_ok (update_ok present)).trans ?_
  refine (Action.bind_ok (render_ok moved.forest still)).trans ?_
  rw [← same]
  exact redrawChildren_ok moved.drawnAll still

def rotated (id : String) (angle rate : Float) (s : Session σ) : Session σ :=
  let s := s.unturned id
  if isMoving rate then
    let started := s.timeline.start ⟨id, .rotation⟩ (.rotate (angle * direction rate)) rate
    (s.timed started.2).changed id (.withTurning (some started.1))
  else (s.changed id (.turnBy angle)).drawn id

theorem Sound.rotated (sound : s.Sound) (id : String) (angle rate : Float) :
    (s.rotated id angle rate).Sound := by
  have freed := sound.unturned id
  unfold Session.rotated
  dsimp only
  split
  · exact freed.congr rfl (freed.forest.modify fun _ => rfl)
  · exact freed.congr rfl (freed.forest.modify fun _ => rfl)

theorem rotate_ok {angle rate : Float} (sound : s.Sound) (found : s.shapes[id]? = some record) :
    rotate id angle rate s = .ok () (s.rotated id angle rate) := by
  have present := Registry.mem_of_found found
  have still : id ∈ (s.unturned id).shapes := Std.ExtTreeMap.mem_modify.mpr present
  refine (Action.bind_ok (shape_ok found)).trans ?_
  refine (Action.bind_ok changeTimeline_ok).trans ?_
  refine (Action.bind_ok (update_ok (by exact present))).trans ?_
  unfold rotated
  by_cases moving : isMoving rate = true
  · simp only [moving, if_true]
    exact (Action.bind_ok startTask_ok).trans (update_ok still)
  · simp only [moving]
    exact rotateBy_ok (sound.unturned id) still

def moved (id : String) (vx vy : Float) (s : Session σ) : Session σ :=
  if (onAxes id vx vy s.timeline).1.still then (s.redirected id vx vy).drawn id
  else s.redirected id vx vy

theorem Sound.moved (sound : s.Sound) (id : String) (vx vy : Float) : (s.moved id vx vy).Sound := by
  have redirected : (s.redirected id vx vy).Sound := sound.congr rfl (sound.forest.modify fun _ => rfl)
  unfold Session.moved
  split
  · exact redirected.drawnAll
  · exact redirected

theorem move_ok {vx vy : Float} (sound : s.Sound) (found : s.shapes[id]? = some record) :
    move id vx vy s = .ok () (s.moved id vx vy) := by
  have present := Registry.mem_of_found found
  have forest : (s.redirected id vx vy).shapes.Forest := sound.forest.modify fun _ => rfl
  have here : id ∈ (s.redirected id vx vy).shapes := Std.ExtTreeMap.mem_modify.mpr present
  refine (Action.bind_ok (shape_ok found)).trans ?_
  refine (Action.bind_ok changeTimeline_ok).trans ?_
  refine (Action.bind_ok changeTimeline_ok).trans ?_
  refine (Action.bind_ok startAxis_ok).trans ?_
  refine (Action.bind_ok startAxis_ok).trans ?_
  refine (Action.bind_ok (update_ok (by exact present))).trans ?_
  change (if (onAxes id vx vy s.timeline).1.still = true then render id else pure () : Action σ Unit)
    (s.redirected id vx vy) = _
  unfold moved
  split
  · exact render_ok forest here
  · rfl

end Session
end Diorama
