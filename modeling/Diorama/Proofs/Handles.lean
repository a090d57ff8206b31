import Diorama.Proofs.Reachable
import Diorama.Proofs.Timeline

namespace Diorama

def Handles.on (handles : Handles) : Channel → Option Nat
  | .rotation => handles.rotation
  | .x => handles.motion.bind (·.x)
  | .y => handles.motion.bind (·.y)

namespace Timeline

variable {t t' : Timeline} {id : String} {x : Slot} {task : Option Nat} {tasks : MotionTasks}

-- The tasks that are live on the slots of a shape, in the form in which a record holds them.
def handles (t : Timeline) (id : String) : Handles :=
  let tasks : MotionTasks := ⟨t.active? ⟨id, .x⟩, t.active? ⟨id, .y⟩⟩
  ⟨t.active? ⟨id, .rotation⟩, if tasks.still then none else some tasks⟩

theorem handles_congr (same : ∀ channel, t'.active? ⟨id, channel⟩ = t.active? ⟨id, channel⟩) :
    t'.handles id = t.handles id := by
  simp only [handles, same]

theorem handles_free (free : ∀ channel, t.active? ⟨id, channel⟩ = none) : t.handles id = .none := by
  simp [handles, free, MotionTasks.still, Handles.none]

theorem handles_turning (active : ∀ x, t'.active? x = if ⟨id, .rotation⟩ = x then task else t.active? x) :
    t'.handles id = { t.handles id with rotation := task } := by
  simp [handles, active]

theorem handles_moving (active : ∀ x, t'.active? x =
      if ⟨id, .x⟩ = x then tasks.x else if ⟨id, .y⟩ = x then tasks.y else t.active? x) :
    t'.handles id = { t.handles id with motion := if tasks.still then none else some tasks } := by
  simp [handles, active]

theorem handles_on {channel : Channel} : (t.handles id).on channel = t.active? ⟨id, channel⟩ := by
  cases channel with
  | rotation => rfl
  | x =>
    simp only [handles, Handles.on]
    split <;> simp_all [MotionTasks.still]
  | y =>
    simp only [handles, Handles.on]
    split <;> simp_all [MotionTasks.still]

end Timeline

namespace Registry

variable {r : Registry} {id x parent child : String} {shape removed : Shape} {f : Shape → Shape} {handles : Handles}

def handles? (r : Registry) (id : String) : Option Handles := r[id]?.map (·.handles)

theorem handles?_put : (r.put id shape).handles? x = if id = x then some shape.handles else r.handles? x := by
  unfold handles?
  rw [getElem?_put]
  split <;> rfl

theorem handles?_modify :
    handles? (r.modify id f) x = if id = x then r[id]?.map fun s => (f s).handles else r.handles? x := by
  unfold handles?
  rw [getElem?_modify]
  split
  · simp [Function.comp_def]
  · rfl

theorem handles?_modify_kept (kept : ∀ s, (f s).handles = s.handles) :
    handles? (r.modify id f) x = r.handles? x := by
  rw [handles?_modify]
  split
  · subst x
    simp only [kept]
    rfl
  · rfl

theorem handles?_link : (r.link parent child).handles? x = r.handles? x :=
  (handles?_modify_kept (by exact fun _ => rfl)).trans (handles?_modify_kept (by exact fun _ => rfl))

theorem severed_handles : (severed id removed x shape).handles = shape.handles := by
  unfold severed
  dsimp only
  split <;> split <;> rfl

theorem Forest.handles?_cutOut (forest : r.Forest) (found : r[id]? = some removed)
    (held : (r.cutOut id removed).handles? x = some handles) : r.handles? x = some handles := by
  unfold handles? at held ⊢
  rw [forest.getElem?_cutOut found] at held
  split at held
  · cases held
  · simpa [Function.comp_def, severed_handles] using held

end Registry

namespace Session

variable {σ : Type} {s s' : Session σ} {id : String} {f : Shape → Shape} {timeline : Timeline}

def Mirrored (s : Session σ) : Prop :=
  ∀ id handles, s.shapes.handles? id = some handles → handles = s.timeline.handles id

theorem Mirrored.congr (mirrored : s.Mirrored) (same : s'.timeline = s.timeline)
    (records : ∀ x handles, s'.shapes.handles? x = some handles → s.shapes.handles? x = some handles) :
    s'.Mirrored := by
  intro x handles held
  rw [same]
  exact mirrored x handles (records x handles held)

theorem Mirrored.changed (mirrored : s.Mirrored) (kept : ∀ s, (f s).handles = s.handles) :
    (s.changed id f).Mirrored :=
  mirrored.congr rfl fun _ _ held => (Registry.handles?_modify_kept kept).symm.trans held

theorem Mirrored.retimed (mirrored : s.Mirrored) (timeline : Timeline)
    (apart : ∀ x : Slot, x.shape ≠ id → timeline.active? x = s.timeline.active? x)
    (own : ∀ record : Shape, record.handles = s.timeline.handles id → (f record).handles = timeline.handles id) :
    ((s.timed timeline).changed id f).Mirrored := by
  intro x handles held
  have found : (if id = x then s.shapes[id]?.map fun s => (f s).handles else s.shapes.handles? x) = some handles :=
    Registry.handles?_modify.symm.trans held
  split at found
  · subst x
    obtain ⟨record, there, rfl⟩ := Option.map_eq_some_iff.mp found
    exact own record (mirrored id _ (congrArg (Option.map _) there))
  · rename_i other
    rw [mirrored x handles found]
    exact (Timeline.handles_congr fun _ => apart _ (Ne.symm other)).symm

theorem active?_halt {x : Slot} (consistent : s.timeline.Consistent) :
    (s.halt id).timeline.active? x = if x.shape = id then none else s.timeline.active? x := by
  have turning := consistent.cancelSlot ⟨id, .rotation⟩
  have first := turning.cancelSlot ⟨id, .x⟩
  change (((s.timeline.cancelSlot ⟨id, .rotation⟩).cancelSlot ⟨id, .x⟩).cancelSlot ⟨id, .y⟩).active? x = _
  rw [first.active?_cancelSlot, turning.active?_cancelSlot, consistent.active?_cancelSlot]
  obtain ⟨shape, channel⟩ := x
  by_cases same : shape = id
  · cases channel <;> simp [same]
  · simp [same, Ne.symm same]

theorem Mirrored.halt (mirrored : s.Mirrored) (consistent : s.timeline.Consistent) (id : String) :
    (s.halt id).Mirrored := by
  refine mirrored.retimed (s.halt id).timeline (fun x other => ?_) fun record _ => ?_
  · exact (active?_halt consistent).trans (if_neg other)
  · exact (Timeline.handles_free fun _ => (active?_halt consistent).trans (if_pos rfl)).symm

theorem Mirrored.recorded (mirrored : s.Mirrored) (consistent : s.timeline.Consistent) (id : String)
    (value : Shape) : (s.recorded id value).Mirrored := by
  unfold Session.recorded
  split
  · rename_i previous found
    refine mirrored.congr rfl fun x handles held => ?_
    have kept := held
    rw [show (s.changed id value.replacing).shapes = s.shapes.modify id value.replacing from rfl,
      Registry.handles?_modify] at kept
    split at kept
    · subst x
      exact kept
    · exact kept
  · intro x handles held
    rw [Registry.handles?_put] at held
    split at held
    · subst x
      cases held
      exact (Timeline.handles_free fun _ => (active?_halt consistent).trans (if_pos rfl)).symm
    · exact mirrored.halt consistent id x handles held

theorem Mirrored.turning {task : Option Nat} (mirrored : s.Mirrored)
    (active : ∀ x, timeline.active? x = if ⟨id, .rotation⟩ = x then task else s.timeline.active? x) :
    ((s.timed timeline).changed id (.withTurning task)).Mirrored := by
  refine mirrored.retimed timeline (fun x other => ?_) fun record held => ?_
  · rw [active, if_neg]
    rintro rfl
    exact other rfl
  · rw [Timeline.handles_turning active, ← held]
    rfl

section Axes

variable {t : Timeline} {slot x : Slot} {action : TaskAction} {rate vx vy : Float}

theorem onAxis_edited {t' : Timeline} (slot : Slot) (action : TaskAction) (rate : Float) (edited : t'.Edited t) :
    t'.Edited (onAxis slot action rate t).2 := by
  unfold onAxis
  split
  · exact edited.start _ _ _
  · exact edited

theorem active?_onAxis (consistent : t.Consistent) (free : t.active? slot = none) :
    (onAxis slot action rate t).2.active? x =
      if slot = x then (onAxis slot action rate t).1 else t.active? x := by
  unfold onAxis
  split
  · rw [Timeline.active?_start, consistent.active?_cancelSlot]
    split <;> simp
  · split
    · subst x
      exact free
    · rfl

theorem onAxes_edited : t.Edited (onAxes id vx vy t).2 :=
  onAxis_edited _ _ _ (onAxis_edited _ _ _ (.cancelSlot (.cancelSlot .same _) _))

theorem active?_onAxes (consistent : t.Consistent) : (onAxes id vx vy t).2.active? x =
    if ⟨id, .x⟩ = x then (onAxes id vx vy t).1.x else
      if ⟨id, .y⟩ = x then (onAxes id vx vy t).1.y else t.active? x := by
  have first := consistent.cancelSlot ⟨id, .x⟩
  have freed := first.cancelSlot ⟨id, .y⟩
  have free (x : Slot) : ((t.cancelSlot ⟨id, .x⟩).cancelSlot ⟨id, .y⟩).active? x =
      if ⟨id, .y⟩ = x then none else if ⟨id, .x⟩ = x then none else t.active? x := by
    rw [first.active?_cancelSlot, consistent.active?_cancelSlot]
  have moved := (onAxis_edited ⟨id, .x⟩ (.translate (direction vx) 0) vx .same).consistent freed
  have still : (onAxis ⟨id, .x⟩ (.translate (direction vx) 0) vx
      ((t.cancelSlot ⟨id, .x⟩).cancelSlot ⟨id, .y⟩)).2.active? ⟨id, .y⟩ = none := by
    rw [active?_onAxis freed (by simp [free]), free]
    simp
  unfold onAxes
  dsimp only
  rw [active?_onAxis moved still, active?_onAxis freed (by simp [free]), free]
  by_cases across : ⟨id, .x⟩ = x
  · subst x
    simp
  · by_cases down : ⟨id, .y⟩ = x <;> simp [across, down]

end Axes

theorem halt_edited : s.timeline.Edited (s.halt id).timeline :=
  .cancelSlot (.cancelSlot (.cancelSlot .same _) _) _

theorem recorded_edited {value : Shape} : s.timeline.Edited (s.recorded id value).timeline := by
  unfold recorded
  split
  · exact .same
  · exact halt_edited

variable [Surface σ] {D : Value → Prop} {p : Primitive} {surface : σ} {shape : Shape}

theorem Deed.edited (deed : s.Deed D p s') : s.timeline.Edited s'.timeline := by
  cases deed with
  | add => exact recorded_edited
  | @bind parent child position linked => cases linked <;> exact .same
  | modify => exact recorded_edited
  | rotate =>
    unfold rotated
    dsimp only
    split
    · exact .start _ _ _ (.cancelSlot .same _)
    · exact .cancelSlot .same _
  | move =>
    unfold moved
    split <;> exact onAxes_edited
  | stop => exact halt_edited
  | _ => exact .same

theorem Mirrored.drawnAll {ids : List String} (mirrored : s.Mirrored) : (s.drawnAll ids).Mirrored := mirrored

theorem Mirrored.attached {parent child : String} {position : Float × Float} {linked : Bool}
    (mirrored : s.Mirrored) : (s.attached parent child position linked).Mirrored := by
  have moved : (s.changed child (·.moveTo position)).Mirrored := mirrored.changed fun _ => rfl
  cases linked with
  | true => exact moved
  | false => exact moved.congr rfl fun _ _ held => Registry.handles?_link.symm.trans held

theorem Mirrored.rotated (mirrored : s.Mirrored) (consistent : s.timeline.Consistent) (id : String)
    (angle rate : Float) : (s.rotated id angle rate).Mirrored := by
  have freed := consistent.cancelSlot ⟨id, .rotation⟩
  have unturned : (s.unturned id).Mirrored := mirrored.turning fun _ => consistent.active?_cancelSlot
  unfold Session.rotated
  dsimp only
  split
  · refine unturned.turning fun x => ?_
    rw [Timeline.active?_start, Timeline.Consistent.active?_cancelSlot (by exact freed)]
    split <;> rfl
  · exact unturned.changed fun _ => rfl

theorem Mirrored.moved (mirrored : s.Mirrored) (consistent : s.timeline.Consistent) (id : String)
    (vx vy : Float) : (s.moved id vx vy).Mirrored := by
  have redirected : (s.redirected id vx vy).Mirrored := by
    refine mirrored.retimed _ (fun x other => ?_) fun record held => ?_
    · rw [active?_onAxes consistent, if_neg, if_neg]
      · rintro rfl
        exact other rfl
      · rintro rfl
        exact other rfl
    · rw [Timeline.handles_moving fun _ => active?_onAxes consistent, ← held]
      rfl
  unfold Session.moved
  split
  · exact redirected.drawnAll
  · exact redirected

theorem Mirrored.deed (sound : s.Sound) (consistent : s.timeline.Consistent) (mirrored : s.Mirrored)
    (deed : s.Deed D p s') : s'.Mirrored := by
  cases deed with
  | quiet => exact mirrored
  | define => exact mirrored
  | display => exact mirrored
  | add => exact mirrored.recorded consistent _ _
  | bind => exact mirrored.attached.drawnAll
  | render => exact mirrored.drawnAll
  | pin => exact mirrored.changed fun _ => rfl
  | modify => exact mirrored.recorded consistent _ _
  | remove found => exact mirrored.congr rfl fun _ _ held => sound.forest.handles?_cutOut found held
  | rotate => exact mirrored.rotated consistent _ _ _
  | move => exact mirrored.moved consistent _ _ _
  | stop => exact mirrored.halt consistent _

theorem Mirrored.acted (mirrored : s.Mirrored) (id : String) (action : TaskAction) :
    (s.acted id action).Mirrored := by
  cases action with
  | rotate step => exact mirrored.changed fun _ => rfl
  | translate dx dy => exact mirrored.changed fun _ => rfl

theorem Mirrored.fire (sound : s.Sound) (consistent : s.timeline.Consistent) (mirrored : s.Mirrored)
    (f : Firing) : (s.fire f).Mirrored := by
  -- a task is cancelled here only if its shape is gone
  obtain ⟨_, same⟩ | ⟨task, live, ⟨absent, same⟩ | ⟨_, same⟩⟩ := fire_cases sound f
  · rw [same]
    exact mirrored
  · rw [same]
    intro id handles held
    have present : id ∈ s.shapes := by
      obtain ⟨record, found, _⟩ := Option.map_eq_some_iff.mp held
      exact Registry.mem_of_found found
    rw [mirrored id handles held]
    refine (Timeline.handles_congr fun channel => ?_).symm
    refine (consistent.slots_cancel live).trans (if_neg ?_)
    intro own
    exact absent (own ▸ present)
  · rw [same]
    exact mirrored.acted _ _

theorem consistent_happens (sound : s.Sound) (consistent : s.timeline.Consistent) (happens : s.Happens s') :
    s'.timeline.Consistent := by
  cases happens with
  | deed deed => exact deed.edited.consistent consistent
  | pass limit => exact consistent.advance limit
  | fire f =>
    obtain ⟨_, same⟩ | ⟨_, _, ⟨_, same⟩ | ⟨_, same⟩⟩ := fire_cases sound f
    · rw [same]
      exact consistent
    · rw [same]
      exact consistent.cancel _
    · rw [same, acted_timeline]
      exact consistent

theorem Mirrored.happens (sound : s.Sound) (consistent : s.timeline.Consistent) (mirrored : s.Mirrored)
    (happens : s.Happens s') : s'.Mirrored := by
  cases happens with
  | deed deed => exact mirrored.deed sound consistent deed
  | pass limit =>
    intro id handles held
    rw [mirrored id handles held]
    exact Timeline.handles_congr fun _ => rfl
  | fire f => exact mirrored.fire sound consistent f

theorem Reachable.mirrored (reached : Reachable surface s) : s.timeline.Consistent ∧ s.Mirrored := by
  refine reached.invariant (I := fun s => s.timeline.Consistent ∧ s.Mirrored) (fun display catchUp => ?_) ?_
  · refine ⟨Timeline.consistent_initial catchUp, fun id handles held => ?_⟩
    simp [Registry.handles?, Session.opening, setCatchUp, Session.new] at held
  · rintro s s' sound ⟨consistent, mirrored⟩ happens
    exact ⟨consistent_happens sound consistent happens, mirrored.happens sound consistent happens⟩

theorem reachable_handles (reached : Reachable surface s) (found : s.shapes[id]? = some shape) :
    shape.handles.rotation = s.timeline.active? ⟨id, .rotation⟩ ∧
    (s.timeline.active? ⟨id, .x⟩ = none ∧ s.timeline.active? ⟨id, .y⟩ = none → shape.handles.motion = none) ∧
    (¬ (s.timeline.active? ⟨id, .x⟩ = none ∧ s.timeline.active? ⟨id, .y⟩ = none) →
      shape.handles.motion = some ⟨s.timeline.active? ⟨id, .x⟩, s.timeline.active? ⟨id, .y⟩⟩) ∧
    ∀ channel n, shape.handles.on channel = some n →
      ∃ task, s.timeline.tasks[n]? = some task ∧ task.id = n ∧ task.slot = ⟨id, channel⟩ := by
  obtain ⟨consistent, mirrored⟩ := reached.mirrored
  have held := mirrored id shape.handles (congrArg (Option.map _) found)
  have motion : shape.handles.motion = (s.timeline.handles id).motion := congrArg Handles.motion held
  refine ⟨congrArg Handles.rotation held, ?_, ?_, ?_⟩
  · rintro ⟨across, down⟩
    simp [motion, Timeline.handles, MotionTasks.still, across, down]
  · intro moving
    simp only [motion, Timeline.handles, MotionTasks.still, Bool.and_eq_true, Option.isNone_iff_eq_none,
      if_neg moving]
  · intro channel n listed
    rw [held, Timeline.handles_on] at listed
    obtain ⟨task, live, slot⟩ := (consistent.slotted _ _).mp listed
    exact ⟨task, live, consistent.keyed n task live, slot⟩

-- The shape `a` is removed while it turns and moves. It is added again and turns once more, and `b`
-- is removed while it turns.
def Sample.orphan : Program := [.shape (dot 0), .string "a", .word "add", .shape (dot 0), .string "b", .word "add",
  .number 2, .number 10, .string "a", .word "rotate", .number 0, .number 3, .string "a", .word "move",
  .string "a", .word "remove", .shape (dot 1), .string "a", .word "add",
  .number 4, .number 10, .string "a", .word "rotate", .number 5, .number 0, .string "a", .word "move",
  .number 1, .number 10, .string "b", .word "rotate", .string "b", .word "remove"]

def Sample.orphanSession : Session Scene := (opening Scene.initial .discarded 5).after (.exec orphan)

theorem reachable_handles_orphan : Reachable Scene.initial Sample.orphanSession ∧
    Sample.orphanSession.timeline.tasks.size = 3 ∧
    ∃ shape, Sample.orphanSession.shapes["a"]? = some shape ∧
    shape.handles.rotation = Sample.orphanSession.timeline.active? ⟨"a", .rotation⟩ ∧
    (Sample.orphanSession.timeline.active? ⟨"a", .x⟩ = none ∧
      Sample.orphanSession.timeline.active? ⟨"a", .y⟩ = none → shape.handles.motion = none) ∧
    (¬ (Sample.orphanSession.timeline.active? ⟨"a", .x⟩ = none ∧
      Sample.orphanSession.timeline.active? ⟨"a", .y⟩ = none) → shape.handles.motion =
        some ⟨Sample.orphanSession.timeline.active? ⟨"a", .x⟩, Sample.orphanSession.timeline.active? ⟨"a", .y⟩⟩) ∧
    ∀ channel n, shape.handles.on channel = some n → ∃ task,
      Sample.orphanSession.timeline.tasks[n]? = some task ∧ task.id = n ∧ task.slot = ⟨"a", channel⟩ := by
  have reached : Reachable Scene.initial Sample.orphanSession :=
    .call (c := .exec Sample.orphan) (.opening .discarded 5)
      (by simp [Call.Plain, Program.Plain, Sample.orphan, Value.type])
  have present : "a" ∈ Sample.orphanSession.shapes := by decide +kernel
  obtain ⟨shape, found⟩ := Registry.found_of_mem present
  exact ⟨reached, by decide +kernel, shape, found, reachable_handles reached found⟩

end Session
end Diorama
