import Diorama.Proofs.Firings
import Diorama.Proofs.Handles

namespace Diorama

theorem Geometry.moveTo_position (g : Geometry) : g.moveTo g.position = g := by
  cases g <;> rfl

theorem Geometry.position_moveTo (g : Geometry) (p : Float × Float) : (g.moveTo p).position = p := by
  cases g <;> rfl

theorem Geometry.moveTo_moveTo (g : Geometry) (p q : Float × Float) : (g.moveTo p).moveTo q = g.moveTo q := by
  cases g <;> rfl

namespace TaskAction

def turned (rotation : Float) : TaskAction → Float
  | .rotate step => rotation + step
  | .translate .. => rotation

def shifted (position : Float × Float) : TaskAction → Float × Float
  | .rotate _ => position
  | .translate dx dy => (position.1 + dx, position.2 + dy)

end TaskAction

-- A shape after some actions. All but its rotation and its position is as it was.
def Shape.after (s : Shape) (actions : List TaskAction) : Shape :=
  { s with
    rotation := actions.foldl TaskAction.turned s.rotation
    geometry := s.geometry.moveTo (actions.foldl TaskAction.shifted s.position) }

namespace Shape

variable {s : Shape} {actions more : List TaskAction}

theorem after_nil : s.after [] = s := by
  simp [after, position, Geometry.moveTo_position]

theorem after_append : (s.after actions).after more = s.after (actions ++ more) := by
  simp [after, position, Geometry.position_moveTo, Geometry.moveTo_moveTo]

theorem after_rotate {step : Float} : s.after [.rotate step] = s.turnBy step := by
  simp [after, position, turnBy, TaskAction.turned, TaskAction.shifted, Geometry.moveTo_position]

end Shape

namespace Timeline

variable {t t' : Timeline} {id : String} {f : Firing} {fs : List Firing} {task : Task}

-- What some firings do to one shape: the actions of those whose task is a task of the shape.
def actionsOn (t : Timeline) (id : String) (fs : List Firing) : List TaskAction :=
  fs.filterMap fun f => (t.tasks[f.task]?.filter (·.slot.shape = id)).map (·.action)

theorem actionsOn_cons : t.actionsOn id (f :: fs) = t.actionsOn id [f] ++ t.actionsOn id fs := by
  unfold actionsOn
  rw [← List.filterMap_append]
  rfl

theorem actionsOn_dead (dead : t.tasks[f.task]? = none) : t.actionsOn id [f] = [] := by
  simp [actionsOn, dead]

theorem actionsOn_own (live : t.tasks[f.task]? = some task) (own : task.slot.shape = id) :
    t.actionsOn id [f] = [task.action] := by
  simp [actionsOn, live, own]

theorem actionsOn_apart (live : t.tasks[f.task]? = some task) (apart : task.slot.shape ≠ id) :
    t.actionsOn id [f] = [] := by
  simp [actionsOn, live, apart]

theorem actionsOn_congr (same : ∀ (n : Nat) (action : TaskAction),
      (∃ task : Task, t'.tasks[n]? = some task ∧ task.slot.shape = id ∧ task.action = action) ↔
        ∃ task : Task, t.tasks[n]? = some task ∧ task.slot.shape = id ∧ task.action = action) :
    t'.actionsOn id fs = t.actionsOn id fs := by
  apply List.filterMap_congr
  intro f _
  apply Option.ext
  intro action
  have here := same f.task action
  simpa [Option.filter_eq_some_iff, and_assoc] using here

theorem actionsOn_advance {limit : Duration} : (t.advance limit).2.actionsOn id fs = t.actionsOn id fs := by
  apply actionsOn_congr
  intro n action
  constructor
  · rintro ⟨task, live, own, does⟩
    obtain ⟨before, there, rfl⟩ := live_of_advance live
    exact ⟨before, there, own, does⟩
  · rintro ⟨task, live, own, does⟩
    exact ⟨_, live_advance live, own, does⟩

end Timeline

namespace Session

variable {σ : Type} [Surface σ] {surface : σ} {s s' : Session σ} {id : String} {n : Nat} {f : Firing}
  {fs : List Firing} {task : Task}

def passed (limit : Duration) (s : Session σ) : Session σ := s.timed (s.timeline.advance limit).2

theorem advance_eq {d : Duration} : s.advance d =
    (s.passed (s.timeline.now.plus d)).fired (s.timeline.advance (s.timeline.now.plus d)).1 := rfl

structure Standing (s : Session σ) : Prop where
  sound : s.Sound
  consistent : s.timeline.Consistent

theorem Standing.happens (standing : s.Standing) (happens : s.Happens s') : s'.Standing :=
  ⟨standing.sound.happens happens, consistent_happens standing.sound standing.consistent happens⟩

theorem Standing.passed (standing : s.Standing) (limit : Duration) : (s.passed limit).Standing :=
  standing.happens (.pass limit)

theorem Standing.fired (standing : s.Standing) (fs : List Firing) : (s.fired fs).Standing :=
  fired_keeps (fun _ f standing => standing.happens (.fire f)) standing fs

theorem Standing.fired_keeps {I : Session σ → Prop} (standing : s.Standing)
    (fires : ∀ s f, s.Standing → I s → I (s.fire f)) (holds : I s) (fs : List Firing) : I (s.fired fs) := by
  have kept : (s.fired fs).Standing ∧ I (s.fired fs) := by
    refine Session.fired_keeps (I := fun s => s.Standing ∧ I s) (fun s f both => ?_) ⟨standing, holds⟩ fs
    exact ⟨both.1.happens (.fire f), fires s f both.1 both.2⟩
  exact kept.2

theorem fire_pruned {t : Timeline} (sound : s.Sound) (pruned : t.Pruned s.timeline) (f : Firing) :
    t.Pruned (s.fire f).timeline := by
  obtain ⟨_, same⟩ | ⟨_, _, ⟨_, same⟩ | ⟨_, same⟩⟩ := fire_cases sound f
  · rw [same]
    exact pruned
  · rw [same]
    exact pruned.cancel _
  · rw [same, acted_timeline]
    exact pruned

theorem Standing.fired_pruned (standing : s.Standing) (fs : List Firing) : s.timeline.Pruned (s.fired fs).timeline :=
  standing.fired_keeps (fun _ f standing pruned => fire_pruned standing.sound pruned f) (.refl _) fs

theorem fire_shapes (sound : s.Sound) (f : Firing) : id ∈ (s.fire f).shapes ↔ id ∈ s.shapes := by
  obtain ⟨_, same⟩ | ⟨task, _, ⟨_, same⟩ | ⟨_, same⟩⟩ := fire_cases sound f
  · rw [same]
  · rw [same]
    rfl
  · rw [same]
    cases task.action <;> exact Std.ExtTreeMap.mem_modify

theorem fire_live (sound : s.Sound) (live : s.timeline.tasks[n]? = some task) (present : task.slot.shape ∈ s.shapes)
    (f : Firing) : (s.fire f).timeline.tasks[n]? = some task := by
  obtain ⟨_, same⟩ | ⟨other, found, ⟨absent, same⟩ | ⟨_, same⟩⟩ := fire_cases sound f
  · rw [same]
    exact live
  · have apart : f.task ≠ n := by
      rintro rfl
      cases live.symm.trans found
      exact absent present
    rw [same]
    exact Timeline.tasks_cancel.trans ((if_neg apart).trans live)
  · rw [same, acted_timeline]
    exact live

theorem acted_shapes {action : TaskAction} :
    (s.acted id action).shapes = s.shapes.modify id fun shape => shape.after [action] := by
  cases action with
  | rotate step =>
    simp only [Shape.after_rotate]
    rfl
  | translate dx dy => rfl

theorem fire_record (sound : s.Sound) (f : Firing) :
    (s.fire f).shapes[id]? = s.shapes[id]?.map fun shape => shape.after (s.timeline.actionsOn id [f]) := by
  obtain ⟨dead, same⟩ | ⟨task, live, ⟨absent, same⟩ | ⟨present, same⟩⟩ := fire_cases sound f
  · rw [same, Timeline.actionsOn_dead dead]
    simp [Shape.after_nil]
  · rw [same]
    change s.shapes[id]? = _
    by_cases own : task.slot.shape = id
    · subst own
      simp [absent]
    · rw [Timeline.actionsOn_apart live own]
      simp [Shape.after_nil]
  · rw [same, acted_shapes, Registry.getElem?_modify]
    by_cases own : task.slot.shape = id
    · rw [if_pos own, Timeline.actionsOn_own live own, own]
    · rw [if_neg own, Timeline.actionsOn_apart live own]
      simp [Shape.after_nil]

theorem fire_words (sound : s.Sound) (f : Firing) : (s.fire f).words = s.words := by
  obtain ⟨_, same⟩ | ⟨task, _, ⟨_, same⟩ | ⟨_, same⟩⟩ := fire_cases sound f
  · rw [same]
  · rw [same]
    rfl
  · rw [same]
    cases task.action <;> rfl

theorem fire_tasks (sound : s.Sound) (f : Firing) : (s.fire f).timeline.tasks[n]? = some task ↔
    s.timeline.tasks[n]? = some task ∧ (task.slot.shape ∈ s.shapes ∨ f.task ≠ n) := by
  obtain ⟨dead, same⟩ | ⟨other, live, ⟨absent, same⟩ | ⟨present, same⟩⟩ := fire_cases sound f
  · rw [same]
    grind
  · rw [same]
    change (s.timeline.cancel f.task).tasks[n]? = some task ↔ _
    rw [Timeline.tasks_cancel]
    grind
  · rw [same, acted_timeline]
    grind

theorem fire_actionsOn (sound : s.Sound) (present : id ∈ s.shapes) (f : Firing) :
    (s.fire f).timeline.actionsOn id fs = s.timeline.actionsOn id fs := by
  apply Timeline.actionsOn_congr
  intro n action
  constructor
  · rintro ⟨task, live, own, does⟩
    exact ⟨task, ((fire_tasks sound f).mp live).1, own, does⟩
  · rintro ⟨task, live, own, does⟩
    exact ⟨task, fire_live sound live (own ▸ present) f, own, does⟩

theorem Standing.fired_words (standing : s.Standing) (fs : List Firing) : (s.fired fs).words = s.words := by
  apply standing.fired_keeps (I := fun s' => s'.words = s.words)
  · intro s' f standing' same
    exact (fire_words standing'.sound f).trans same
  · rfl

theorem Standing.fired_shapes (standing : s.Standing) (fs : List Firing) :
    id ∈ (s.fired fs).shapes ↔ id ∈ s.shapes := by
  apply standing.fired_keeps (I := fun s' => id ∈ s'.shapes ↔ id ∈ s.shapes)
  · intro s' f standing' same
    exact (fire_shapes standing'.sound f).trans same
  · rfl

theorem record_fire (sound : s.Sound) (rest : s'.shapes[id]? = (s.fire f).shapes[id]?.map fun shape =>
      shape.after ((s.fire f).timeline.actionsOn id fs)) :
    s'.shapes[id]? = s.shapes[id]?.map fun shape => shape.after (s.timeline.actionsOn id (f :: fs)) := by
  -- what comes after a firing may be read off the timeline before it: no firing takes a task from a shape that is
  -- there
  rw [rest, fire_record sound, Option.map_map]
  apply Option.map_congr
  intro shape found
  have kept : (s.fire f).timeline.actionsOn id fs = s.timeline.actionsOn id fs :=
    fire_actionsOn sound (Registry.mem_of_found found) f
  simp only [Function.comp_apply, kept, Shape.after_append]
  rw [← Timeline.actionsOn_cons]

theorem Standing.fired_record (standing : s.Standing) :
    (s.fired fs).shapes[id]? = s.shapes[id]?.map fun shape => shape.after (s.timeline.actionsOn id fs) := by
  induction fs generalizing s with
  | nil =>
    change s.shapes[id]? = _
    simp [Timeline.actionsOn, Shape.after_nil]
  | cons f fs ih => exact record_fire standing.sound (ih (standing.happens (.fire f)))

theorem Standing.fired_tasks (standing : s.Standing) : (s.fired fs).timeline.tasks[n]? = some task ↔
    s.timeline.tasks[n]? = some task ∧ (task.slot.shape ∈ s.shapes ∨ ∀ f ∈ fs, f.task ≠ n) := by
  induction fs generalizing s with
  | nil => exact ⟨fun live => ⟨live, .inr (by simp)⟩, And.left⟩
  | cons f fs ih =>
    have rest := ih (standing.happens (.fire f))
    rw [fire_tasks standing.sound, fire_shapes standing.sound] at rest
    refine rest.trans ?_
    simp only [List.mem_cons, forall_eq_or_imp]
    tauto

structure Ticked (limit : Duration) (s s' : Session σ) : Prop where
  words : s'.words = s.words
  shapes : ∀ id, s'.shapes[id]? = s.shapes[id]?.map fun shape : Shape =>
    { shape with
      rotation := (s.timeline.actionsOn id (s.timeline.advance limit).1).foldl TaskAction.turned shape.rotation
      geometry := shape.geometry.moveTo
        ((s.timeline.actionsOn id (s.timeline.advance limit).1).foldl TaskAction.shifted shape.position) }
  tasks : ∀ (n : Nat) (task : Task), s'.timeline.tasks[n]? = some task ↔
    ∃ before : Task, s.timeline.tasks[n]? = some before ∧ task = before.after limit s.timeline.maxCatchUp ∧
      ¬ (before.slot.shape ∉ s.shapes ∧ ∃ f ∈ (s.timeline.advance limit).1, f.task = n)
  -- a firing fails only for want of its shape
  failures : ∀ earlier f later, (s.timeline.advance limit).1 = earlier ++ f :: later →
    ∀ task, ((s.passed limit).fired earlier).timeline.tasks[f.task]? = some task → ∀ e left,
      act Machine.redraw task.slot.shape task.action ((s.passed limit).fired earlier) = .error e left →
        e = .unknownShape task.slot.shape ∧ task.slot.shape ∉ s.shapes

theorem Standing.act_failing {action : TaskAction} {e : Fault} (standing : s.Standing)
    (failed : act Machine.redraw id action s = .error e s') : e = .unknownShape id ∧ id ∉ s.shapes := by
  by_cases present : id ∈ s.shapes
  · rw [act_ok standing.sound present] at failed
    cases failed
  · rw [act_missing (Std.ExtTreeMap.getElem?_eq_none present)] at failed
    cases failed
    exact ⟨rfl, present⟩

theorem ticked_tick (reached : Reachable surface s) (seconds : Float) :
    s.Ticked (s.timeline.now.plus ((Duration.ofSeconds? seconds).getD 0)) (s.tick seconds) := by
  have standing : s.Standing := ⟨reached.sound, reached.mirrored.1⟩
  unfold tick
  rw [advance_eq]
  generalize s.timeline.now.plus ((Duration.ofSeconds? seconds).getD 0) = limit
  have start := standing.passed limit
  constructor
  · exact start.fired_words _
  · intro id
    have kept : (s.passed limit).timeline.actionsOn id (s.timeline.advance limit).1 =
        s.timeline.actionsOn id (s.timeline.advance limit).1 := Timeline.actionsOn_advance
    rw [start.fired_record, kept]
    rfl
  · intro n task
    rw [start.fired_tasks]
    constructor
    · rintro ⟨live, kept⟩
      obtain ⟨before, there, rfl⟩ := Timeline.live_of_advance live
      refine ⟨before, there, rfl, ?_⟩
      rintro ⟨absent, f, fires, own⟩
      rcases kept with present | silent
      · exact absent present
      · exact silent f fires own
    · rintro ⟨before, there, rfl, kept⟩
      refine ⟨Timeline.live_advance there, ?_⟩
      by_cases present : before.slot.shape ∈ s.shapes
      · exact .inl present
      · exact .inr fun f fires own => kept ⟨present, f, fires, own⟩
  · intro earlier f later split task live e left failed
    obtain ⟨unknown, absent⟩ := (start.fired earlier).act_failing failed
    rw [start.fired_shapes] at absent
    exact ⟨unknown, absent⟩

-- The shape `a` turns and moves, `b` is removed while it turns. All three tasks are due after a second.
def Sample.beat : Program := [.shape (dot 0), .string "a", .word "add", .shape (dot 0), .string "b", .word "add",
  .number 4, .number 10, .string "a", .word "rotate", .number 5, .number 0, .string "a", .word "move",
  .number 8, .number 10, .string "b", .word "rotate", .string "b", .word "remove"]

def Sample.beatSession : Session Scene := (opening Scene.initial .discarded 8).after (.exec beat)

theorem Sample.beat_reachable : Reachable Scene.initial Sample.beatSession :=
  .call (c := .exec Sample.beat) (.opening .discarded 8)
    (by simp [Call.Plain, Program.Plain, Sample.beat, Value.type])

theorem ticked_tick_beat : Reachable Scene.initial Sample.beatSession ∧
    Sample.beatSession.Ticked (Sample.beatSession.timeline.now.plus ((Duration.ofSeconds? 0.5).getD 0))
      (Sample.beatSession.tick 0.5) :=
  ⟨Sample.beat_reachable, ticked_tick Sample.beat_reachable 0.5⟩

end Session
end Diorama
