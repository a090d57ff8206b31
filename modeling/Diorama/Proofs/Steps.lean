import Diorama.Proofs.Actions
import Mathlib.Logic.Relation

namespace Diorama

namespace Stack

variable {α β : Type} {D : Value → Prop} {R : α → Prop} {Q : β → Prop} {v : Value}

-- What comes off a stack of such values, and that what is left is again such a stack.
def Takes (D : Value → Prop) (take : Taking α) (R : α → Prop) : Prop :=
  ∀ stack a rest, (∀ v ∈ stack, D v) → take stack = .ok a rest → R a ∧ ∀ v ∈ rest, D v

theorem Takes.bind {take : Taking α} {next : α → Taking β} (first : Takes D take R)
    (then' : ∀ a, R a → Takes D (next a) Q) : Takes D (take >>= next) Q := by
  intro stack b rest all taken
  cases result : take stack with
  | error e left => cases (Action.bind_error result).symm.trans taken
  | ok a left =>
    obtain ⟨got, all⟩ := first stack a left all result
    exact then' a got left b rest all ((Action.bind_ok result).symm.trans taken)

theorem takes_pure {a : α} (got : R a) : Takes D (pure a) R := by
  intro stack b rest all taken
  cases taken
  exact ⟨got, all⟩

theorem takes_throw {e : Fault} : Takes D (throw e : Taking α) R := by
  intro stack b rest all taken
  cases taken

theorem takes_pop : Takes D pop D := by
  intro stack v rest all taken
  cases stack with
  | nil => cases taken
  | cons head tail =>
    cases taken
    exact ⟨all v (by simp), fun x member => all x (by simp [member])⟩

theorem takes_push (good : D v) : Takes D (push v) fun _ => True := by
  intro stack a rest all taken
  cases taken
  exact ⟨trivial, by simpa [good] using all⟩

theorem takes_top : Takes D top D := by
  intro stack v rest all taken
  cases stack with
  | nil => cases taken
  | cons head tail =>
    cases taken
    exact ⟨all v (by simp), all⟩

theorem takes_sorted {next : Value → Taking α} (each : ∀ v, (∃ a, next v = pure a) ∨ ∃ e, next v = throw e) :
    Takes D (pop >>= next) fun _ => True := by
  refine takes_pop.bind fun v _ => ?_
  rcases each v with ⟨a, kept⟩ | ⟨e, refused⟩
  · rw [kept]
    exact takes_pure trivial
  · rw [refused]
    exact takes_throw

theorem takes_popNumber : Takes D popNumber fun _ => True :=
  takes_sorted fun v => by cases v <;> first | exact .inl ⟨_, rfl⟩ | exact .inr ⟨_, rfl⟩

theorem takes_popId : Takes D popId fun _ => True :=
  takes_sorted fun v => by cases v <;> first | exact .inl ⟨_, rfl⟩ | exact .inr ⟨_, rfl⟩

theorem popId_ok {stack rest : Stack} {id : String} (taken : popId stack = .ok id rest) :
    stack = .string id :: rest ∨ stack = .symbol id :: rest := by
  cases stack with
  | nil => cases taken
  | cons v stack =>
    cases v with
    | string =>
      cases taken
      exact .inl rfl
    | symbol =>
      cases taken
      exact .inr rfl
    | _ => cases taken

theorem takes_popSymbol : Takes D popSymbol fun _ => True :=
  takes_sorted fun v => by cases v <;> first | exact .inl ⟨_, rfl⟩ | exact .inr ⟨_, rfl⟩

theorem takes_popShape : Takes D popShape fun _ => True :=
  takes_sorted fun v => by cases v <;> first | exact .inl ⟨_, rfl⟩ | exact .inr ⟨_, rfl⟩

theorem takes_popNumber? : Takes D popNumber? fun _ => True := by
  intro stack a rest all taken
  unfold popNumber? at taken
  split at taken
  · cases taken
    exact ⟨trivial, fun x member => all x (by simp [member])⟩
  · cases taken
    exact ⟨trivial, all⟩

theorem takes_popGeometry {kind : Kind} : Takes D (popGeometry kind) fun g => g.kind = kind := by
  cases kind with
  | circle =>
    refine takes_popNumber.bind fun cx _ => takes_popNumber.bind fun cy _ => ?_
    exact takes_popNumber.bind fun r _ => takes_pure rfl
  | rect =>
    refine takes_popNumber.bind fun x _ => takes_popNumber.bind fun y _ => ?_
    exact takes_popNumber.bind fun width _ => takes_popNumber.bind fun height _ => takes_pure rfl

end Stack

def Primitive.isQuiet : Primitive → Bool
  | .plus | .minus | .times | .over | .sqrt | .dup | .drop | .swap | .host .. => true
  | _ => false

-- What a primitive has done to a session when it succeeds. Values that it stores satisfy `D`.
inductive Session.Deed {σ : Type} [Surface σ] (D : Value → Prop) (s : Session σ) :
    Primitive → Session σ → Prop where
  | quiet {p : Primitive} : p.isQuiet = true → Deed D s p s
  | define {name : String} {v : Value} : D v → Deed D s .define (s.define name v)
  | display {text : String} : Deed D s .display (s.tell text)
  | add {id : String} {value : Shape} : Deed D s .add (s.registered id value)
  | bind {parent child : String} {position : Float × Float} {linked : Bool} :
      s.shapes.checkBinding parent child = .ok linked →
      Deed D s .bind (s.bound parent child position linked)
  | render {id : String} : id ∈ s.shapes → Deed D s .render (s.drawn id)
  | pin {id top : String} {position : Float × Float} : s.shapes.rootOf id = .ok top →
      Deed D s .pin (((s.changed top (·.moveTo position)).drawn top).redrawn (s.shapes.children top))
  | modify {id : String} {record : Shape} {geometry : Geometry} :
      s.shapes[id]? = some record → geometry.kind = record.kind →
      Deed D s .modify ((s.registered id { record with geometry }).redrawn (s.shapes.children id))
  | remove {id : String} {record : Shape} : s.shapes[id]? = some record →
      Deed D s .remove (s.removed id record)
  | rotate {id : String} {angle rate : Float} : id ∈ s.shapes → Deed D s .rotate (s.rotated id angle rate)
  | move {id : String} {vx vy : Float} : id ∈ s.shapes → Deed D s .move (s.moved id vx vy)
  | stop {id : String} {record : Shape} : s.shapes[id]? = some record →
      Deed D s .stop (s.halt (record.links.parent.getD id))

namespace Machine

variable {σ α β : Type} {D : Value → Prop} {R : α → Prop} {s : Session σ} {step : Step σ α}
  {next : α → Step σ β} {Q : β → Session σ → Prop}

-- A step that fails leaves the session as it was. One that succeeds ends as `Q` says.
def Settles (D : Value → Prop) (s : Session σ) (step : Step σ β) (Q : β → Session σ → Prop) : Prop :=
  ∀ stack, (∀ v ∈ stack, D v) → match step ⟨stack, s⟩ with
    | .ok b m => (∀ v ∈ m.stack, D v) ∧ Q b m.session
    | .error _ m => m.session = s

theorem Settles.weaken {step : Step σ β} {P : β → Session σ → Prop} (settles : Settles D s step P)
    (weaker : ∀ b s', P b s' → Q b s') : Settles D s step Q := by
  intro stack all
  have settled := settles stack all
  split at settled
  · exact ⟨settled.1, weaker _ _ settled.2⟩
  · exact settled

theorem settles_take {take : Stack.Taking α} (takes : Stack.Takes D take R)
    (later : ∀ a, R a → Settles D s (next a) Q) : Settles D s (onStack take >>= next) Q := by
  intro stack all
  cases taken : take stack with
  | error e rest =>
    have failed : onStack take ⟨stack, s⟩ = .error e ⟨rest, s⟩ := by simp [onStack, taken]
    rw [Action.bind_error failed]
  | ok a rest =>
    have took : onStack take ⟨stack, s⟩ = .ok a ⟨rest, s⟩ := by simp [onStack, taken]
    obtain ⟨got, all⟩ := takes stack a rest all taken
    rw [Action.bind_ok took]
    exact later a got rest all

theorem take_ok {take : Stack.Taking α} {stack : Stack} {b : β} {m : Machine σ}
    (ran : (onStack take >>= next) ⟨stack, s⟩ = .ok b m) :
    ∃ a rest, take stack = .ok a rest ∧ next a ⟨rest, s⟩ = .ok b m := by
  obtain ⟨a, between, took, later⟩ := Action.of_bind_ok ran
  unfold onStack at took
  cases taken : take stack with
  | ok c rest =>
    rw [taken] at took
    cases took
    exact ⟨a, rest, rfl, later⟩
  | error e rest =>
    rw [taken] at took
    cases took

theorem session_ok {action : Action σ β} {stack : Stack} {b : β} {m : Machine σ}
    (ran : onSession action ⟨stack, s⟩ = .ok b m) : action s = .ok b m.session ∧ m.stack = stack := by
  unfold onSession at ran
  cases result : action s with
  | ok c s' =>
    rw [result] at ran
    cases ran
    exact ⟨rfl, rfl⟩
  | error e s' =>
    rw [result] at ran
    cases ran

theorem settles_last {take : Stack.Taking β} {R : β → Prop} (takes : Stack.Takes D take R)
    (done : ∀ b, Q b s) : Settles D s (onStack take) Q := by
  intro stack all
  unfold onStack
  cases taken : take stack with
  | error e rest => rfl
  | ok b rest => exact ⟨(takes stack b rest all taken).2, done b⟩

theorem settles_pure {b : β} (done : Q b s) : Settles D s (pure b) Q :=
  fun _ all => ⟨all, done⟩

theorem settles_action {action : Action σ β}
    (ends : (∃ e, action s = .error e s) ∨ ∃ b s', action s = .ok b s' ∧ Q b s') :
    Settles D s (onSession action) Q := by
  intro stack all
  unfold onSession
  rcases ends with ⟨e, failed⟩ | ⟨b, s', ran, done⟩
  · simp only [failed]
  · simp only [ran]
    exact ⟨all, done⟩

theorem settles_look {id : String} {next : Shape → Step σ β}
    (later : ∀ record, s.shapes[id]? = some record → Settles D s (next record) Q) :
    Settles D s (onSession (Session.shape id) >>= next) Q := by
  intro stack all
  cases found : s.shapes[id]? with
  | none =>
    have failed : onSession (Session.shape id) ⟨stack, s⟩ = .error (.unknownShape id) ⟨stack, s⟩ := by
      simp [onSession, Session.shape_missing found]
    rw [Action.bind_error failed]
  | some record =>
    have looked : onSession (Session.shape id) ⟨stack, s⟩ = .ok record ⟨stack, s⟩ := by
      simp [onSession, Session.shape_ok found]
    rw [Action.bind_ok looked]
    exact later record found stack all

theorem settles_binary {operation : Float → Float → Float} {Q : Unit → Session σ → Prop}
    (numbers : ∀ x, D (.number x)) (done : Q () s) : Settles D s (binary operation) Q :=
  settles_take Stack.takes_popNumber fun _ _ => settles_take Stack.takes_popNumber fun _ _ =>
    settles_last (Stack.takes_push (numbers _)) fun _ => done

theorem settles_found {action : Action σ β} (id : String)
    (missing : s.shapes[id]? = none → ∃ e, action s = .error e s)
    (found : ∀ record, s.shapes[id]? = some record → ∃ b s', action s = .ok b s' ∧ Q b s') :
    Settles D s (onSession action) Q := by
  refine settles_action ?_
  cases lookup : s.shapes[id]? with
  | none => exact .inl (missing lookup)
  | some record => exact .inr (found record lookup)

variable [Surface σ]

theorem perform_settles (numbers : ∀ x, D (.number x)) (sound : s.Sound) (p : Primitive) :
    Settles D s (perform redraw p) fun _ s' => s.Deed D p s' := by
  cases p with
  | plus => exact settles_binary numbers (.quiet rfl)
  | minus => exact settles_binary numbers (.quiet rfl)
  | times => exact settles_binary numbers (.quiet rfl)
  | «over» => exact settles_binary numbers (.quiet rfl)
  | host name operation => exact settles_binary numbers (.quiet rfl)
  | sqrt =>
    exact settles_take Stack.takes_popNumber fun _ _ =>
      settles_last (Stack.takes_push (numbers _)) fun _ => .quiet rfl
  | dup =>
    exact settles_take Stack.takes_top fun _ good =>
      settles_last (Stack.takes_push good) fun _ => .quiet rfl
  | drop => exact settles_take Stack.takes_pop fun _ _ => settles_pure (.quiet rfl)
  | swap =>
    refine settles_take Stack.takes_pop fun y goodY => settles_take Stack.takes_pop fun x goodX => ?_
    exact settles_take (Stack.takes_push goodY) fun _ _ =>
      settles_last (Stack.takes_push goodX) fun _ => .quiet rfl
  | define =>
    refine settles_take Stack.takes_popSymbol fun name _ => settles_take Stack.takes_pop fun v good => ?_
    exact settles_action (.inr ⟨(), s.define name v, rfl, .define good⟩)
  | display =>
    refine settles_take Stack.takes_pop fun v _ => ?_
    exact settles_action (.inr ⟨(), s.tell v.shownText, rfl, .display⟩)
  | add =>
    refine settles_take Stack.takes_popId fun id _ => settles_take Stack.takes_popShape fun value _ => ?_
    exact settles_action (.inr ⟨(), _, Session.register_ok sound id value, .add⟩)
  | bind =>
    refine settles_take Stack.takes_popId fun parent _ => settles_take Stack.takes_popId fun child _ => ?_
    refine settles_take Stack.takes_popNumber fun x _ => settles_take Stack.takes_popNumber fun y _ => ?_
    refine settles_action ?_
    cases checked : s.shapes.checkBinding parent child with
    | error e => exact .inl ⟨e, Session.bindTo_refused checked⟩
    | ok linked => exact .inr ⟨(), _, Session.bindTo_ok sound checked, .bind checked⟩
  | render =>
    refine settles_take Stack.takes_popId fun id _ => settles_found id ?_ ?_
    · exact fun absent => ⟨_, Session.render_missing absent⟩
    · intro record found
      have present := Registry.mem_of_found found
      exact ⟨(), _, Session.render_ok sound.forest present, .render present⟩
  | pin =>
    refine settles_take Stack.takes_popId fun id _ => ?_
    refine settles_take Stack.takes_popNumber fun x _ => settles_take Stack.takes_popNumber fun y _ => ?_
    refine settles_action ?_
    cases root : s.shapes.rootOf id with
    | error e => exact .inl ⟨e, Session.pin_refused root⟩
    | ok top => exact .inr ⟨(), _, Session.pin_ok sound root, .pin root⟩
  | modify =>
    refine settles_take Stack.takes_popId fun id _ => settles_look fun record found => ?_
    refine settles_take Stack.takes_popGeometry fun geometry fits => ?_
    exact settles_action (.inr ⟨(), _, Session.reshape_ok sound found, .modify found fits⟩)
  | remove =>
    refine settles_take Stack.takes_popId fun id _ => settles_found id ?_ ?_
    · exact fun absent => ⟨_, Action.bind_error (Session.shape_missing absent)⟩
    · exact fun record found => ⟨(), _, Session.remove_ok sound found, .remove found⟩
  | rotate =>
    refine settles_take Stack.takes_popId fun id _ => settles_take Stack.takes_popNumber fun angle _ => ?_
    refine settles_take Stack.takes_popNumber? fun rate _ => settles_found id ?_ ?_
    · exact fun absent => ⟨_, Action.bind_error (Session.shape_missing absent)⟩
    · intro record found
      exact ⟨(), _, Session.rotate_ok sound found, .rotate (Registry.mem_of_found found)⟩
  | move =>
    refine settles_take Stack.takes_popId fun id _ => ?_
    refine settles_take Stack.takes_popNumber fun vx _ => settles_take Stack.takes_popNumber fun vy _ => ?_
    refine settles_found id ?_ ?_
    · exact fun absent => ⟨_, Action.bind_error (Session.shape_missing absent)⟩
    · intro record found
      exact ⟨(), _, Session.move_ok sound found, .move (Registry.mem_of_found found)⟩
  | stop =>
    refine settles_take Stack.takes_popId fun id _ => settles_found id ?_ ?_
    · exact fun absent => ⟨_, Action.bind_error (Session.shape_missing absent)⟩
    · exact fun record found => ⟨(), _, Session.stop_ok found, .stop found⟩

end Machine

-- A program that can be written down holds words for primitives, never primitives.
def Program.Plain (program : Program) : Prop := ∀ v ∈ program, v.type ≠ .primitive

namespace Session

variable {σ : Type} [Surface σ] {s s' : Session σ} {D : Value → Prop} {p : Primitive} {id : String}

omit [Surface σ] in
theorem Sound.define {v : Value} (sound : s.Sound) (name : String) (data : v.IsData) :
    (s.define name v).Sound := by
  refine ⟨sound.forest, ?_, ?_⟩
  · intro w u found
    simp only [Session.define, Std.ExtTreeMap.getElem?_insert, Std.compare_eq_iff_eq] at found
    split at found
    · cases found
      exact .inl data
    · exact sound.words w u found
  · simp [Session.define, sound.renders]

theorem Sound.deed (sound : s.Sound) (data : ∀ v, D v → v.IsData) (deed : s.Deed D p s') : s'.Sound := by
  cases deed with
  | quiet => exact sound
  | define stored => exact sound.define _ (data _ stored)
  | display => exact sound.congr rfl sound.forest
  | add => exact sound.registered _ _
  | bind checked => exact (sound.attached checked _).drawnAll
  | render => exact sound.drawnAll
  | pin => exact sound.congr rfl (sound.forest.modify fun _ => rfl)
  | modify => exact (sound.registered _ _).drawnAll
  | remove found => exact sound.removed found
  | rotate => exact sound.rotated _ _ _
  | move => exact sound.moved _ _ _
  | stop => exact sound.halt _

def acted (id : String) (action : TaskAction) (s : Session σ) : Session σ :=
  match action with
  | .rotate step => (s.changed id (.turnBy step)).drawn id
  | .translate dx dy => ((s.changed id (·.moveBy (dx, dy))).drawn id).redrawn (s.shapes.children id)

theorem acted_timeline {action : TaskAction} : (s.acted id action).timeline = s.timeline := by
  cases action <;> rfl

theorem act_ok {action : TaskAction} (sound : s.Sound) (present : id ∈ s.shapes) :
    act Machine.redraw id action s = .ok () (s.acted id action) := by
  cases action with
  | rotate step => exact rotateBy_ok sound present
  | translate dx dy => exact translateBy_ok sound present

theorem act_missing {redraw : String → Action σ Unit} {action : TaskAction} (absent : s.shapes[id]? = none) :
    act redraw id action s = .error (.unknownShape id) s := by
  cases action with
  | rotate step => exact Action.bind_error (Action.bind_error (shape_missing absent))
  | translate dx dy => exact Action.bind_error (Action.bind_error (shape_missing absent))

theorem Sound.acted (sound : s.Sound) (id : String) (action : TaskAction) : (s.acted id action).Sound := by
  cases action with
  | rotate step => exact sound.congr rfl (sound.forest.modify fun _ => rfl)
  | translate dx dy => exact sound.congr rfl (sound.forest.modify fun _ => rfl)

theorem fire_dead {f : Firing} (dead : s.timeline.tasks[f.task]? = none) : s.fire f = s := by
  unfold fire
  rw [dead]

theorem fire_orphan {f : Firing} {task : Task} (live : s.timeline.tasks[f.task]? = some task)
    (absent : task.slot.shape ∉ s.shapes) : s.fire f = s.cancelTask f.task := by
  simp only [fire, live, act_missing (Std.ExtTreeMap.getElem?_eq_none absent)]

theorem fire_acted {f : Firing} {task : Task} (sound : s.Sound) (live : s.timeline.tasks[f.task]? = some task)
    (present : task.slot.shape ∈ s.shapes) : s.fire f = s.acted task.slot.shape task.action := by
  simp only [fire, live, act_ok sound present]

theorem fire_cases (sound : s.Sound) (f : Firing) :
    s.timeline.tasks[f.task]? = none ∧ s.fire f = s ∨
    ∃ task, s.timeline.tasks[f.task]? = some task ∧
      (task.slot.shape ∉ s.shapes ∧ s.fire f = s.cancelTask f.task ∨
        task.slot.shape ∈ s.shapes ∧ s.fire f = s.acted task.slot.shape task.action) := by
  cases live : s.timeline.tasks[f.task]? with
  | none => exact .inl ⟨rfl, fire_dead live⟩
  | some task =>
    refine .inr ⟨task, rfl, ?_⟩
    by_cases present : task.slot.shape ∈ s.shapes
    · exact .inr ⟨present, fire_acted sound live present⟩
    · exact .inl ⟨present, fire_orphan live present⟩

inductive Happens (s : Session σ) : Session σ → Prop where
  | deed {p : Primitive} {s' : Session σ} : s.Deed Value.IsData p s' → Happens s s'
  | pass (limit : Duration) : Happens s (s.timed (s.timeline.advance limit).2)
  | fire (f : Firing) : Happens s (s.fire f)

theorem Sound.happens (sound : s.Sound) (happens : s.Happens s') : s'.Sound := by
  cases happens with
  | deed deed => exact sound.deed (fun _ data => data) deed
  | pass limit => exact sound.congr rfl sound.forest
  | fire f =>
    obtain ⟨_, same⟩ | ⟨task, _, ⟨_, same⟩ | ⟨_, same⟩⟩ := fire_cases sound f
    · rw [same]
      exact sound
    · rw [same]
      exact sound.congr rfl sound.forest
    · rw [same]
      exact sound.acted _ _

-- What keeps a property of the records and the surface. Shapes are added only where `P` admits it.
structure Staging (P : Registry → Prop) (I : Session σ → Prop) : Prop where
  same {s s' : Session σ} : I s → s'.shapes = s.shapes → s'.surface = s.surface → I s'
  changed {s : Session σ} {f : Shape → Shape} (id : String) : I s → (∀ record, (f record).kind = record.kind) →
    (∀ record, (f record).links = record.links) → I (s.changed id f)
  drawn {s : Session σ} (ids : List String) : I s → I (s.drawnAll ids)
  added {s : Session σ} (id : String) (value : Shape) : s.Sound → I s →
    P (s.registered id value).shapes → I (s.registered id value)
  bound {s : Session σ} {parent child : String} {linked : Bool} (position : Float × Float) : s.Sound → I s →
    s.shapes.checkBinding parent child = .ok linked → I (s.attached parent child position linked)
  removed {s : Session σ} {id : String} {record : Shape} : s.Sound → I s → s.shapes[id]? = some record →
    I (s.removed id record)

section Staging

variable {P : Registry → Prop} {I : Session σ → Prop} (staging : Staging P I)

include staging

theorem Staging.timed (holds : I s) (timeline : Timeline) : I (s.timed timeline) := staging.same holds rfl rfl

theorem Staging.deed (sound : s.Sound) (holds : I s) (deed : s.Deed D p s') (admitted : P s'.shapes) : I s' := by
  cases deed with
  | quiet => exact holds
  | define => exact staging.same holds rfl rfl
  | display => exact staging.same holds rfl rfl
  | add => exact staging.added _ _ sound holds admitted
  | bind granted => exact staging.drawn _ (staging.bound _ sound holds granted)
  | render => exact staging.drawn _ holds
  | pin =>
    refine staging.drawn _ (staging.drawn _ (staging.changed _ holds ?_ fun _ => rfl))
    exact fun record => record.geometry.kind_moveTo _
  | modify => exact staging.drawn _ (staging.added _ _ sound holds admitted)
  | remove found => exact staging.removed sound holds found
  | @rotate id angle rate =>
    have freed : I (s.unturned id) := staging.changed id (staging.timed holds _) (fun _ => rfl) fun _ => rfl
    unfold Session.rotated
    dsimp only
    split
    · exact staging.changed id (staging.timed freed _) (fun _ => rfl) fun _ => rfl
    · exact staging.drawn _ (staging.changed id freed (fun _ => rfl) fun _ => rfl)
  | @move id vx vy =>
    have redirected : I (s.redirected id vx vy) :=
      staging.changed id (staging.timed holds _) (fun _ => rfl) fun _ => rfl
    unfold Session.moved
    split
    · exact staging.drawn _ redirected
    · exact redirected
  | @stop id record =>
    have rested : I (s.changed (record.links.parent.getD id) fun a => { a with handles := .none }) :=
      staging.changed _ holds (fun _ => rfl) fun _ => rfl
    exact staging.same rested rfl rfl

theorem Staging.happens (sound : s.Sound) (holds : I s) (happens : s.Happens s') (admitted : P s'.shapes) : I s' := by
  cases happens with
  | deed deed => exact staging.deed sound holds deed admitted
  | pass limit => exact staging.same holds rfl rfl
  | fire f =>
    obtain ⟨_, same⟩ | ⟨task, _, ⟨_, same⟩ | ⟨_, same⟩⟩ := fire_cases sound f
    · rw [same]
      exact holds
    · rw [same]
      exact staging.same holds rfl rfl
    · rw [same]
      cases task.action with
      | rotate step => exact staging.drawn _ (staging.changed _ holds (fun _ => rfl) fun _ => rfl)
      | translate dx dy =>
        refine staging.drawn _ (staging.drawn _ (staging.changed _ holds ?_ fun _ => rfl))
        exact fun record => record.geometry.kind_moveTo _

end Staging

abbrev Path (P : Session σ → Prop) : Session σ → Session σ → Prop :=
  Relation.ReflTransGen fun s s' => s.Happens s' ∧ P s'

variable {P : Session σ → Prop}

theorem Sound.leads (sound : s.Sound) (path : Path P s s') : s'.Sound := by
  induction path with
  | refl => exact sound
  | tail _ last ih => exact ih.happens last.1

theorem Sound.keeps {I : Session σ → Prop} (sound : s.Sound)
    (keeps : ∀ s s', s.Sound → I s → s.Happens s' → P s' → I s') (holds : I s) (path : Path P s s') : I s' := by
  induction path with
  | refl => exact holds
  | tail before last ih => exact keeps _ _ (sound.leads before) ih last.1 last.2

end Session

namespace Library

variable {words : Dictionary} {w : String} {v : Value}

theorem ofPrimitives_install {name : String} {ps : List Primitive}
    (found : ((Layer.ofPrimitives name ps).install words)[w]? = some v) :
    (∃ p, v = .primitive p ∧ p.name = w) ∨ words[w]? = some v := by
  induction ps generalizing words with
  | nil => exact .inr found
  | cons p ps ih =>
    rcases ih found with primitive | earlier
    · exact .inl primitive
    · rw [Std.ExtTreeMap.getElem?_insert] at earlier
      split at earlier
      · rename_i own
        cases earlier
        exact .inl ⟨p, rfl, Std.compare_eq_iff_eq.mp own⟩
      · exact .inr earlier

theorem load_primitive (found : standard.load[w]? = some v) : ∃ p, v = .primitive p ∧ p.name = w := by
  rcases ofPrimitives_install found with primitive | found
  · exact primitive
  rcases ofPrimitives_install found with primitive | found
  · exact primitive
  rcases ofPrimitives_install found with primitive | found
  · exact primitive
  simp at found

end Library

namespace Machine

variable {σ : Type} {s : Session σ} {v : Value} {program : Program} {stack : Stack}
  {m : Machine σ} {e : Fault}

theorem resolve_cases
    (words : ∀ (w : String) (u : Value), s.words[w]? = some u → u.IsData ∨ Library.standard.load[w]? = some u)
    (plain : v.type ≠ .primitive) :
    (∃ e, resolve s v = .error e) ∨ (∃ u, resolve s v = .ok u ∧ u.IsData) ∨
      ∃ p, resolve s v = .ok (.primitive p) := by
  cases v with
  | primitive p => exact absurd rfl plain
  | word w =>
    simp only [resolve, Session.lookup]
    cases meaning : s.words[w]? with
    | some u =>
      rcases words w u meaning with data | library
      · exact .inr (.inl ⟨u, rfl, data⟩)
      · obtain ⟨p, rfl, _⟩ := Library.load_primitive library
        exact .inr (.inr ⟨p, rfl⟩)
    | none =>
      cases s.shapes[w]? with
      | some shape => exact .inr (.inl ⟨_, rfl, trivial⟩)
      | none => exact .inl ⟨_, rfl⟩
  | _ => exact .inr (.inl ⟨_, rfl, trivial⟩)

variable [Surface σ]

theorem instruct_settles (sound : s.Sound) (plain : v.type ≠ .primitive) :
    Settles Value.IsData s (instruct redraw v) fun _ s' => Relation.ReflGen Session.Happens s s' := by
  intro stack all
  rw [instruct_eq]
  obtain ⟨e, missing⟩ | ⟨u, meaning, data⟩ | ⟨p, meaning⟩ := resolve_cases sound.words plain
  · simp only [missing]
  · simp only [meaning]
    cases u with
    | word | primitive => cases data
    | _ => exact ⟨by simpa [Value.IsData] using all, .refl⟩
  · have settles : Settles Value.IsData s (perform redraw p) fun _ s' =>
        Relation.ReflGen Session.Happens s s' :=
      (perform_settles (fun _ => trivial) sound p).weaken fun _ _ deed => .single (.deed deed)
    simpa only [meaning] using settles stack all

def visits : Program → Machine σ → List (Session σ)
  | [], _ => []
  | v :: rest, m =>
    match instruct redraw v m with
    | .ok _ m => m.session :: visits rest m
    | .error _ _ => []

variable {P : Session σ → Prop}

theorem execute_leads (sound : s.Sound) (data : ∀ v ∈ stack, v.IsData) (plain : program.Plain)
    (through : ∀ s' ∈ visits program ⟨stack, s⟩, P s') :
    match execute redraw program ⟨stack, s⟩ with
    | .ok _ m => (∀ v ∈ m.stack, v.IsData) ∧ Session.Path P s m.session
    | .error _ m => Session.Path P s m.session := by
  induction program generalizing s stack with
  | nil => exact ⟨data, .refl⟩
  | cons v rest ih =>
    have settled := instruct_settles sound (plain v (by simp)) stack data
    rw [execute_cons]
    cases ran : instruct redraw v ⟨stack, s⟩ with
    | error e m =>
      simp only [ran] at settled ⊢
      rw [settled]
    | ok u m =>
      simp only [visits, ran, List.forall_mem_cons] at settled through ⊢
      have first : Session.Path P s m.session := by
        cases settled.2 with
        | refl => exact .refl
        | single happens => exact .single ⟨happens, through.1⟩
      have later := ih (sound.leads first) settled.1 (fun u member => plain u (by simp [member])) through.2
      cases rest : execute redraw rest m with
      | error e m' =>
        simp only [rest] at later
        exact first.trans later
      | ok u m' =>
        simp only [rest] at later
        exact ⟨later.1, first.trans later.2⟩

theorem execute_failing (sound : s.Sound) (data : ∀ v ∈ stack, v.IsData) (plain : program.Plain)
    (failed : execute redraw program ⟨stack, s⟩ = .error e m) :
    ∃ k left, ∃ short : k < program.length,
      execute redraw (program.take k) ⟨stack, s⟩ = .ok () ⟨left, m.session⟩ ∧
      instruct redraw program[k] ⟨left, m.session⟩ = .error e m := by
  induction program generalizing s stack with
  | nil => cases failed
  | cons v rest ih =>
    have settled := instruct_settles sound (plain v (by simp)) stack data
    rw [execute_cons] at failed
    cases ran : instruct redraw v ⟨stack, s⟩ with
    | error e' m' =>
      simp only [ran] at settled failed
      cases failed
      subst settled
      exact ⟨0, stack, by simp, rfl, ran⟩
    | ok u m' =>
      simp only [ran] at settled failed
      have still : m'.session.Sound := by
        cases settled.2 with
        | refl => exact sound
        | single happens => exact sound.happens happens
      obtain ⟨k, left, short, before, failing⟩ :=
        ih still settled.1 (fun u member => plain u (by simp [member])) failed
      refine ⟨k + 1, left, by simpa using short, ?_, failing⟩
      rw [List.take_succ_cons, execute_cons, ran]
      exact before

end Machine
end Diorama
