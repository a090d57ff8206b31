import Diorama.Proofs.Sync
import Diorama.Proofs.Ticking

namespace Diorama

def Primitive.animates : Primitive → Bool
  | .rotate | .move => true
  | _ => false

def Stack.id? (stack : Stack) : Option String :=
  match Stack.popId stack with
  | .ok id _ => some id
  | .error _ _ => none

theorem Stack.id?_eq {stack rest : Stack} {id : String} (taken : Stack.popId stack = .ok id rest) :
    stack.id? = some id := by
  simp [Stack.id?, taken]

namespace Timeline

variable {t t' : Timeline} {id other : String} {limit : Duration} {fs : List Firing}

def Rests (t : Timeline) (id : String) : Prop :=
  ∀ (n : Nat) (task : Task), t.tasks[n]? = some task → task.slot.shape ≠ id

def Gains (id : String) (t t' : Timeline) : Prop :=
  ∀ (n : Nat) (task : Task), t'.tasks[n]? = some task → t.tasks[n]? = some task ∨ task.slot.shape = id

theorem Pruned.cancelSlot (pruned : t.Pruned t') (slot : Slot) : t.Pruned (t'.cancelSlot slot) := by
  unfold Timeline.cancelSlot
  split
  · exact pruned
  · exact pruned.cancel _

theorem Pruned.gains (pruned : t.Pruned t') (id : String) : Gains id t t' :=
  fun n task live => .inl (pruned.fewer n task live)

theorem Gains.cancelSlot (gains : Gains id t t') (slot : Slot) : Gains id t (t'.cancelSlot slot) := by
  intro n task live
  exact gains n task (((Pruned.refl t').cancelSlot slot).fewer n task live)

theorem Gains.start (gains : Gains id t t') (channel : Channel) (action : TaskAction) (rate : Float) :
    Gains id t (t'.start ⟨id, channel⟩ action rate).2 := by
  intro n task live
  rw [tasks_start] at live
  split at live
  · cases live
    exact .inr rfl
  · exact gains.cancelSlot _ n task live

theorem Gains.onAxis (gains : Gains id t t') (channel : Channel) (action : TaskAction) (rate : Float) :
    Gains id t (Session.onAxis ⟨id, channel⟩ action rate t').2 := by
  unfold Session.onAxis
  split
  · exact gains.start channel action rate
  · exact gains

theorem Rests.pruned (rests : t.Rests id) (pruned : t.Pruned t') : t'.Rests id := by
  intro n task live
  exact rests n task (pruned.fewer n task live)

theorem Rests.gains (rests : t.Rests id) (gains : Gains other t t') (apart : other ≠ id) : t'.Rests id := by
  intro n task live
  rcases gains n task live with old | new
  · exact rests n task old
  · rw [new]
    exact apart

theorem Rests.advance (rests : t.Rests id) (limit : Duration) : (t.advance limit).2.Rests id := by
  intro n task live
  obtain ⟨before, there, rfl⟩ := live_of_advance live
  exact rests n before there

theorem Rests.actionsOn (rests : t.Rests id) : t.actionsOn id fs = [] := by
  apply List.filterMap_eq_nil_iff.mpr
  intro f _
  cases live : t.tasks[f.task]? with
  | none => rfl
  | some task => simp [rests f.task task live]

end Timeline

namespace Session

variable {σ : Type} {s s' : Session σ} {id : String} {angle rate vx vy : Float}

theorem halt_pruned : s.timeline.Pruned (s.halt id).timeline :=
  .cancelSlot (.cancelSlot (.cancelSlot (.refl _) _) _) _

theorem halt_rests (consistent : s.timeline.Consistent) : (s.halt id).timeline.Rests id := by
  -- every live task is found on its slot, and the slots of the shape are empty
  have halted : (s.halt id).timeline.Consistent := halt_edited.consistent consistent
  intro n task live own
  have named : (s.halt id).timeline.active? task.slot = some n := (halted.slotted _ _).mpr ⟨task, live, rfl⟩
  rw [active?_halt consistent, if_pos own] at named
  cases named

theorem recorded_pruned {value : Shape} : s.timeline.Pruned (s.recorded id value).timeline := by
  unfold recorded
  split
  · exact .refl _
  · exact halt_pruned

variable [Surface σ] {D : Value → Prop} {p : Primitive}

theorem rotated_gains : Timeline.Gains id s.timeline (s.rotated id angle rate).timeline := by
  have freed : Timeline.Gains id s.timeline (s.unturned id).timeline :=
    (Timeline.Pruned.cancelSlot (.refl _) _).gains id
  unfold rotated
  dsimp only
  split
  · exact freed.start _ _ _
  · exact freed

theorem moved_gains : Timeline.Gains id s.timeline (s.moved id vx vy).timeline := by
  have freed : Timeline.Gains id s.timeline ((s.timeline.cancelSlot ⟨id, .x⟩).cancelSlot ⟨id, .y⟩) :=
    (Timeline.Pruned.cancelSlot (.cancelSlot (.refl _) _) _).gains id
  have redirected : Timeline.Gains id s.timeline (s.redirected id vx vy).timeline :=
    (freed.onAxis _ _ _).onAxis _ _ _
  unfold moved
  split <;> exact redirected

theorem Deed.pruned (deed : s.Deed D p s') (calm : p.animates = false) : s.timeline.Pruned s'.timeline := by
  cases deed with
  | add => exact recorded_pruned
  | @bind parent child position linked => cases linked <;> exact .refl _
  | modify => exact recorded_pruned
  | rotate => cases calm
  | move => cases calm
  | stop => exact halt_pruned
  | _ => exact .refl _

theorem rotate_gains {u : Unit} (sound : s.Sound) (ran : rotate id angle rate s = .ok u s') :
    Timeline.Gains id s.timeline s'.timeline := by
  cases found : s.shapes[id]? with
  | none => cases (Action.bind_error (shape_missing found)).symm.trans ran
  | some record =>
    cases (rotate_ok sound found).symm.trans ran
    exact rotated_gains

theorem move_gains {u : Unit} (sound : s.Sound) (ran : move id vx vy s = .ok u s') :
    Timeline.Gains id s.timeline s'.timeline := by
  cases found : s.shapes[id]? with
  | none => cases (Action.bind_error (shape_missing found)).symm.trans ran
  | some record =>
    cases (move_ok sound found).symm.trans ran
    exact moved_gains

end Session

namespace Machine

variable {σ : Type} [Surface σ] {s : Session σ} {m : Machine σ} {stack : Stack} {p : Primitive} {v : Value}
  {program : Program} {id : String} {u : Unit}

theorem perform_gains (sound : s.Sound) (animates : p.animates = true)
    (ran : perform redraw p ⟨stack, s⟩ = .ok u m) :
    ∃ id, stack.id? = some id ∧ Timeline.Gains id s.timeline m.session.timeline := by
  cases p with
  | rotate =>
    obtain ⟨id, rest, taken, ran⟩ := take_ok ran
    obtain ⟨angle, rest, _, ran⟩ := take_ok ran
    obtain ⟨rate, rest, _, ran⟩ := take_ok ran
    exact ⟨id, Stack.id?_eq taken, Session.rotate_gains sound (session_ok ran).1⟩
  | move =>
    obtain ⟨id, rest, taken, ran⟩ := take_ok ran
    obtain ⟨vx, rest, _, ran⟩ := take_ok ran
    obtain ⟨vy, rest, _, ran⟩ := take_ok ran
    exact ⟨id, Stack.id?_eq taken, Session.move_gains sound (session_ok ran).1⟩
  | _ => cases animates

def animated? (v : Value) (m : Machine σ) : Option String :=
  match resolve m.session v with
  | .ok (.primitive p) => if p.animates then m.stack.id? else none
  | _ => none

-- The shapes that a program turns or moves, instruction by instruction. One that fails does neither.
def animates : Program → Machine σ → List String
  | [], _ => []
  | v :: rest, m =>
    match instruct redraw v m with
    | .ok _ m' => (animated? v m).toList ++ animates rest m'
    | .error _ _ => []

theorem instruct_rests (sound : s.Sound) (data : ∀ v ∈ stack, v.IsData) (rests : s.timeline.Rests id)
    (ran : instruct redraw v ⟨stack, s⟩ = .ok u m) (spared : animated? v ⟨stack, s⟩ ≠ some id) :
    m.session.timeline.Rests id := by
  rw [instruct_eq] at ran
  cases meaning : resolve s v with
  | error e =>
    simp only [meaning] at ran
    cases ran
  | ok value =>
    simp only [animated?, meaning] at ran spared
    cases value with
    | primitive p =>
      by_cases animates : p.animates = true
      · obtain ⟨other, top, gains⟩ := perform_gains sound animates ran
        simp only [animates, if_true, top] at spared
        exact rests.gains gains fun same => spared (congrArg some same)
      · have settled := perform_settles (D := Value.IsData) (fun _ => trivial) sound p stack data
        simp only [ran] at settled
        exact rests.pruned (settled.2.pruned (Bool.eq_false_of_not_eq_true animates))
    | _ =>
      cases ran
      exact rests

theorem visits_rest (sound : s.Sound) (data : ∀ v ∈ stack, v.IsData) (plain : program.Plain)
    (rests : s.timeline.Rests id) (spared : id ∉ animates program ⟨stack, s⟩) :
    ∀ between ∈ visits program ⟨stack, s⟩, between.timeline.Rests id := by
  induction program generalizing s stack with
  | nil => simp [visits]
  | cons v rest ih =>
    have settled := instruct_settles sound (plain v (by simp)) stack data
    cases ran : instruct redraw v ⟨stack, s⟩ with
    | error e m => simp [visits, ran]
    | ok u m =>
      simp only [animates, visits, ran, List.mem_append, Option.mem_toList, not_or] at settled spared ⊢
      have first := instruct_rests sound data rests ran spared.1
      have still : m.session.Sound := by
        cases settled.2 with
        | refl => exact sound
        | single happens => exact sound.happens happens
      have later := ih still settled.1 (fun u member => plain u (by simp [member])) first spared.2
      exact List.forall_mem_cons.mpr ⟨first, later⟩

end Machine

def Call.programs : Call → List Program
  | .exec program => [program]
  | .line text =>
    match parseLine 1 text with
    | .ok program => [program]
    | .error _ => []
  | .script text =>
    match parseScript text with
    | .ok programs => programs
    | .error _ => []
  | .tick _ => []

theorem Call.programs_plain {c : Call} (plain : c.Plain) : ∀ program ∈ c.programs, program.Plain := by
  cases c with
  | exec program =>
    simp only [programs, List.forall_mem_singleton]
    exact plain
  | line text =>
    simp only [programs]
    cases read : parseLine 1 text with
    | ok program => simpa using parseLine_plain program read
    | error m => exact List.forall_mem_nil _
  | script text =>
    simp only [programs]
    cases read : parseScript text with
    | ok programs => exact parseScript_plain read
    | error mistakes => exact List.forall_mem_nil _
  | tick seconds => simp [programs]

namespace Session

variable {σ : Type} [Surface σ] {surface : σ} {s s' : Session σ} {P : Session σ → Prop} {id : String} {c : Call}

def execAnimates : List Program → Session σ → List String
  | [], _ => []
  | program :: rest, s =>
    Machine.animates program ⟨[], s⟩ ++ match s.exec program with
      | (.ok _, s) => execAnimates rest s
      | (.error _, _) => []

def animates (s : Session σ) (c : Call) : List String := s.execAnimates c.programs

theorem Path.holds (path : Path P s s') (start : P s) : P s' := by
  cases path with
  | refl => exact start
  | tail _ last => exact last.2

theorem Standing.leads (standing : s.Standing) (path : Path P s s') : s'.Standing := by
  induction path with
  | refl => exact standing
  | tail _ last ih => exact ih.happens last.1

theorem execVisits_rest {programs : List Program} (sound : s.Sound) (plain : ∀ program ∈ programs, program.Plain)
    (rests : s.timeline.Rests id) (spared : id ∉ s.execAnimates programs) :
    ∀ between ∈ s.execVisits programs, between.timeline.Rests id := by
  induction programs generalizing s with
  | nil => simp [execVisits]
  | cons program rest ih =>
    simp only [execAnimates, List.mem_append, not_or] at spared
    have own := plain program (by simp)
    have first := Machine.visits_rest sound (List.forall_mem_nil _) own rests spared.1
    have through : ∀ between ∈ s.execVisits [program], between.timeline.Rests id := by
      simp only [execVisits, List.forall_mem_append]
      refine ⟨first, ?_⟩
      split <;> simp
    have path := exec_leads sound own through
    simp only [execVisits, List.forall_mem_append]
    refine ⟨first, ?_⟩
    split
    · rename_i left after ran
      rw [ran] at path spared
      exact ih (sound.leads path) (fun p member => plain p (by simp [member])) (path.holds rests) spared.2
    · simp

theorem firedVisits_rest {firings : List Firing} (sound : s.Sound) (rests : s.timeline.Rests id) :
    ∀ between ∈ s.firedVisits firings, between.timeline.Rests id := by
  induction firings generalizing s with
  | nil => simp [firedVisits]
  | cons f rest ih =>
    have first : (s.fire f).timeline.Rests id := rests.pruned (fire_pruned sound (.refl _) f)
    exact List.forall_mem_cons.mpr ⟨first, ih (sound.happens (.fire f)) first⟩

theorem visited_rest (sound : s.Sound) (plain : c.Plain) (rests : s.timeline.Rests id) (spared : id ∉ s.animates c) :
    ∀ between ∈ s.visited c, between.timeline.Rests id := by
  have run := execVisits_rest sound (Call.programs_plain plain) rests spared
  cases c with
  | exec program => exact run
  | line text =>
    simp only [visited, Call.programs] at run ⊢
    cases read : parseLine 1 text with
    | ok program => simpa only [read] using run
    | error m => exact List.forall_mem_nil _
  | script text =>
    simp only [visited, Call.programs] at run ⊢
    cases read : parseScript text with
    | ok programs => simpa only [read] using run
    | error mistakes => exact List.forall_mem_nil _
  | tick seconds =>
    have passed := rests.advance (s.timeline.now.plus ((Duration.ofSeconds? seconds).getD 0))
    exact List.forall_mem_cons.mpr ⟨passed, firedVisits_rest (sound.happens (.pass _)) passed⟩

-- What follows on a session if no call turns or moves the shape.
inductive Spared (id : String) (s : Session σ) : Session σ → Prop where
  | here : Spared id s s
  | call {s' : Session σ} {c : Call} : Spared id s s' → c.Plain → id ∉ s'.animates c → Spared id s (s'.after c)

theorem Spared.rests (spared : Spared id s s') (standing : s.Standing) (rests : s.timeline.Rests id) :
    s'.Standing ∧ s'.timeline.Rests id := by
  induction spared with
  | here => exact ⟨standing, rests⟩
  | call _ plain apart ih =>
    obtain ⟨standing', rests'⟩ := ih
    have path := after_leads standing'.sound plain (visited_rest standing'.sound plain rests' apart)
    exact ⟨standing'.leads path, path.holds rests'⟩

theorem Standing.tick_rests (standing : s.Standing) (rests : s.timeline.Rests id) (seconds : Float) :
    (s.tick seconds).shapes[id]? = s.shapes[id]? := by
  unfold tick
  rw [advance_eq, (standing.passed _).fired_record]
  have idle (limit : Duration) : (s.passed limit).timeline.Rests id := rests.advance limit
  simp only [(idle _).actionsOn, Shape.after_nil]
  exact Option.map_id'

-- The shape has no task, neither now nor on the way through a call that does not turn or move it, and
-- the passing of time leaves its record as it is.
structure AtRest (id : String) (s : Session σ) : Prop where
  tasks : s.timeline.Rests id
  between : ∀ c : Call, c.Plain → id ∉ s.animates c → ∀ between ∈ s.visited c, between.timeline.Rests id
  record : ∀ seconds, (s.tick seconds).shapes[id]? = s.shapes[id]?

theorem Standing.atRest (standing : s.Standing) (rests : s.timeline.Rests id) : s.AtRest id :=
  ⟨rests, fun _ plain apart => visited_rest standing.sound plain rests apart, standing.tick_rests rests⟩

theorem run_stop {record : Shape} {operands stack : Stack} (found : s.shapes[id]? = some record)
    (taken : Stack.popId operands = .ok id stack) :
    s.run [.primitive .stop] 0 operands = (.ok stack, s.halt (record.links.parent.getD id)) := by
  have took : Machine.onStack Stack.popId ⟨operands, s⟩ = .ok id ⟨stack, s⟩ := by
    simp [Machine.onStack, taken]
  have ran : Machine.perform Machine.redraw .stop ⟨operands, s⟩ =
      .ok () ⟨stack, s.halt (record.links.parent.getD id)⟩ := by
    refine (Action.bind_ok took).trans ?_
    simp only [Machine.onSession, stop_ok found]
  rw [run_primitive, ran]

-- Stopping a shape halts its parent, or the shape itself if it has none. The one that is halted is at
-- rest from then on, until it is turned or moved again.
theorem stop_atRest {record : Shape} {operands stack : Stack} {target : String} (reached : Reachable surface s)
    (found : s.shapes[id]? = some record) (taken : Stack.popId operands = .ok id stack)
    (owner : record.links.parent.getD id = target) :
    s.run [.primitive .stop] 0 operands = (.ok stack, s.halt target) ∧
      ∀ s', Spared target (s.halt target) s' → s'.AtRest target := by
  have consistent := reached.mirrored.1
  have standing : (s.halt target).Standing :=
    ⟨reached.sound.halt target, halt_edited.consistent consistent⟩
  constructor
  · rw [← owner]
    exact run_stop found taken
  · intro s' spared
    obtain ⟨standing', rests⟩ := spared.rests standing (halt_rests consistent)
    exact standing'.atRest rests

def Sample.orbit : Program := [.shape (dot 0), .string "p", .word "add", .shape (dot 1), .string "c", .word "add",
  .number 1, .number 1, .string "c", .string "p", .word "bind", .number 4, .number 10, .string "p", .word "rotate",
  .number 5, .number 3, .string "p", .word "move"]

def Sample.orbitSession : Session Scene := (opening Scene.initial .discarded 5).after (.exec orbit)

-- `p` is removed and added again, and is bound to `c`, which turns and moves.
def Sample.swapped : Program := [.string "p", .word "remove", .shape (dot 5), .string "p", .word "add",
  .number 2, .number 2, .string "p", .string "c", .word "bind", .number 4, .number 10, .string "c", .word "rotate",
  .number 5, .number 3, .string "c", .word "move"]

def Sample.swappedSession : Session Scene := ((orbitSession.halt "p").after (.exec swapped)).after (.tick 0.5)

theorem stop_atRest_orbit : Reachable Scene.initial Sample.orbitSession ∧
    Sample.orbitSession.timeline.tasks.size = 3 ∧
    Sample.orbitSession.run [.primitive .stop] 0 [.string "c"] = (.ok [], Sample.orbitSession.halt "p") ∧
    Spared "p" (Sample.orbitSession.halt "p") Sample.swappedSession ∧ Sample.swappedSession.AtRest "p" := by
  have reached : Reachable Scene.initial Sample.orbitSession :=
    .call (c := .exec Sample.orbit) (.opening .discarded 5)
      (by simp [Call.Plain, Program.Plain, Sample.orbit, Value.type])
  have bound : Sample.orbitSession.shapes["c"]?.map (fun record => record.links.parent.getD "c") = some "p" := by
    decide +kernel
  obtain ⟨record, found, owner⟩ := Option.map_eq_some_iff.mp bound
  have taken : Stack.popId [.string "c"] = .ok "c" [] := rfl
  have first : Spared "p" (Sample.orbitSession.halt "p") ((Sample.orbitSession.halt "p").after (.exec Sample.swapped)) :=
    .call .here (by simp [Call.Plain, Program.Plain, Sample.swapped, Value.type]) (by decide +kernel)
  have spared : Spared "p" (Sample.orbitSession.halt "p") Sample.swappedSession :=
    .call (c := .tick 0.5) first trivial (List.not_mem_nil)
  obtain ⟨ran, rests⟩ := stop_atRest reached found taken owner
  exact ⟨reached, by decide +kernel, ran, spared, rests _ spared⟩

end Session
end Diorama
