import Diorama.Proofs.Removing

namespace Diorama

theorem Geometry.position_moveBy (g : Geometry) (d : Float × Float) :
    (g.moveBy d).position = (g.position.1 + d.1, g.position.2 + d.2) := by
  cases g <;> rfl

def Node.position? (n : Node) : Option (Float × Float) :=
  match n.kind with
  | .shape .circle => do return (← n.number? "cx", ← n.number? "cy")
  | .shape .rect => do return (← n.number? "x", ← n.number? "y")
  | .group => none

theorem Node.position?_eq {n : Node} {shape : Shape} {g : Geometry} (kind : n.kind = .shape g.kind)
    (attributes : n.attributes = shape.nodeAttributes g) : n.position? = some g.position := by
  unfold position? number? attribute?
  rw [kind, attributes]
  cases g <;> rfl

theorem Library.load_name {p : Primitive} (own : p.isHost = false) :
    standard.load[p.name]? = some (.primitive p) := by
  cases p with
  | host => cases own
  | _ => exact rfl

namespace Machine

variable {σ : Type} [Surface σ] {redraw : String → Action σ Unit} {s : Session σ} {stack : Stack}
  {operands rest : Program}

theorem execute_operands (data : ∀ v ∈ operands, v.IsData) :
    execute redraw (operands ++ rest) ⟨stack, s⟩ = execute redraw rest ⟨operands.reverse ++ stack, s⟩ := by
  induction operands generalizing stack with
  | nil => rfl
  | cons v operands ih =>
    have pushed : instruct redraw v ⟨stack, s⟩ = .ok () ⟨v :: stack, s⟩ := by
      have literal := data v (by simp)
      rw [instruct_eq]
      cases v with
      | word | primitive => cases literal
      | _ => rfl
    rw [List.cons_append, execute_cons, pushed]
    simpa using ih fun u member => data u (by simp [member])

end Machine

namespace Session

variable {σ : Type} [Surface σ] {s s' : Session σ} {D : Value → Prop} {p : Primitive}

theorem exec_operands {operands : Program} (data : ∀ v ∈ operands, v.IsData)
    (means : s.words[p.name]? = some (.primitive p)) :
    s.exec (operands ++ [.word p.name]) = s.run [.primitive p] 0 operands.reverse := by
  have resolved : Machine.resolve s (.word p.name) = Machine.resolve s (.primitive p) := by
    simp [Machine.resolve, lookup, means]
  unfold exec run
  rw [List.drop_zero, List.drop_zero, Machine.execute_operands data, List.append_nil,
    Machine.execute_cons, Machine.execute_cons, Machine.instruct_eq, Machine.instruct_eq, resolved]

theorem run_cases (sound : s.Sound) (p : Primitive) (stack : Stack) :
    (s.run [.primitive p] 0 stack).2 = s ∨ s.Deed (fun _ => True) p (s.run [.primitive p] 0 stack).2 := by
  have settled := Machine.perform_settles (D := fun _ => True) (fun _ => trivial) sound p stack
    fun _ _ => trivial
  rw [run_primitive]
  split at settled
  · rename_i ran
    rw [ran]
    exact .inr settled.2
  · rename_i ran
    rw [ran]
    exact .inl settled

theorem Deed.words (deed : s.Deed D p s') (defines : p ≠ .define) : s'.words = s.words := by
  cases deed with
  | define => exact absurd rfl defines
  | @add id value =>
    change (s.recorded id value).words = _
    unfold recorded
    split <;> rfl
  | @bind parent child position linked => cases linked <;> rfl
  | @modify id record geometry =>
    change (s.recorded id { record with geometry }).words = _
    unfold recorded
    split <;> rfl
  | rotate =>
    unfold rotated
    dsimp only
    split <;> rfl
  | move =>
    unfold moved
    split <;> rfl
  | _ => rfl

end Session

inductive Placing where
  | add (id : String) (value : Shape)
  | bind (parent child : String) (x y : Float)
  | pin (id : String) (x y : Float)

namespace Placing

def verb : Placing → Primitive
  | .add .. => .add
  | .bind .. => .bind
  | .pin .. => .pin

def operands : Placing → Program
  | .add id value => [.shape value, .string id]
  | .bind parent child x y => [.number y, .number x, .string child, .string parent]
  | .pin id x y => [.number y, .number x, .string id]

def program (c : Placing) : Program := c.operands ++ [.word c.verb.name]

-- What is added has a new id, and one that is no group's and not the root's.
def Allowed (s : Session Scene) : Placing → Prop
  | .add id _ => OrdinaryId id ∧ id ∉ s.shapes
  | .bind .. | .pin .. => True

theorem operands_data (c : Placing) : ∀ v ∈ c.operands, v.IsData := by
  cases c <;> simp [operands, Value.IsData]

end Placing

namespace Session

variable {s : Session Scene} {c p : String} {child : Shape}

inductive Arranged : Session Scene → Prop where
  | opening (display : Display) (catchUp : Nat) : Arranged (opening Scene.initial display catchUp)
  | place {s : Session Scene} {c : Placing} : Arranged s → c.Allowed s → Arranged (s.after (.exec c.program))

theorem Arranged.reachable (arranged : Arranged s) : Reachable Scene.initial s := by
  induction arranged with
  | opening display catchUp => exact .opening display catchUp
  | @place s c _ _ reached =>
    refine .call reached ?_
    cases c <;> simp [Call.Plain, Program.Plain, Placing.program, Placing.operands, Value.type]

theorem InSync.place {c : Placing} (reached : Reachable Scene.initial s)
    (words : s.words = Library.standard.load) (synced : s.InSync) (allowed : c.Allowed s) :
    (s.after (.exec c.program)).words = s.words ∧ (s.after (.exec c.program)).InSync := by
  have renders : s.Renders := by
    rw [Renders, words]
    exact Library.load_name (p := .render) rfl
  have means : s.words[c.verb.name]? = some (.primitive c.verb) := by
    rw [words]
    exact Library.load_name (by cases c <;> rfl)
  have ran : s.after (.exec c.program) = (s.run [.primitive c.verb] 0 c.operands.reverse).2 :=
    congrArg Prod.snd (exec_operands c.operands_data means)
  rw [ran]
  rcases run_cases reached.sound c.verb c.operands.reverse with same | deed
  · rw [same]
    exact ⟨rfl, synced⟩
  · refine ⟨deed.words (by cases c <;> nofun), ?_⟩
    cases c with
    | add id value =>
      obtain ⟨ordinary, new⟩ := allowed
      have free : s.shapes.KeepsPlaces id value := by
        intro previous child c found
        exact absurd (Registry.mem_of_found found) new
      have added : s.run [.primitive .add] 0 [.string id, .shape value] = (.ok [], s.registered id value) :=
        run_add reached.sound (.inl rfl)
      change (s.run [.primitive .add] 0 [.string id, .shape value]).2.InSync
      rw [added]
      exact synced.registered reached.sound.forest reached.staged ordinary.2 free
    | bind => exact synced.deed reached.sound renders deed nofun nofun
    | pin => exact synced.deed reached.sound renders deed nofun nofun

theorem Arranged.inSync (arranged : Arranged s) : s.words = Library.standard.load ∧ s.InSync := by
  induction arranged with
  | opening display catchUp =>
    refine ⟨rfl, fun id shape found => ?_⟩
    simp [Session.opening, setCatchUp, Session.new] at found
  | place earlier allowed ih =>
    obtain ⟨words, synced⟩ := ih
    obtain ⟨kept, placed⟩ := synced.place earlier.reachable words allowed
    exact ⟨kept.trans words, placed⟩

def drawnAt? (s : Session Scene) (id : String) : Option (Float × Float) :=
  s.surface.nodes[id]?.bind Node.position?

theorem InSync.drawnAt?_eq {id : String} {shape : Shape} (synced : s.InSync) (found : s.shapes[id]? = some shape) :
    s.drawnAt? id = some (s.shapes.absolute shape).position := by
  obtain ⟨node, there, kind, attributes⟩ := synced id shape found
  rw [← Registry.absolute_kind (r := s.shapes)] at kind
  simp [drawnAt?, there, Node.position?_eq kind attributes]

-- A bound shape is drawn at its stored position, taken from the stored position of its parent. That is
-- where the parent is drawn if the parent is bound to nothing.
theorem arranged_drawnAt (arranged : Arranged s) (found : s.shapes[c]? = some child)
    (bound : child.links.parent = some p) : ∃ parent, s.shapes[p]? = some parent ∧
      s.drawnAt? c = some (child.position.1 + parent.position.1, child.position.2 + parent.position.2) ∧
      (parent.links.parent = none → s.drawnAt? p = some parent.position) := by
  obtain ⟨_, synced⟩ := arranged.inSync
  have forest := arranged.reachable.sound.forest
  obtain ⟨parent, above⟩ := Registry.found_of_mem (forest.parent_mem ((Registry.parent?_eq found).trans bound))
  refine ⟨parent, above, ?_, fun free => ?_⟩
  · have moved : s.shapes.absolute child = child.geometry.moveBy parent.position := by
      simp [Registry.absolute, bound, above]
    rw [synced.drawnAt?_eq found, moved, Geometry.position_moveBy]
    rfl
  · have still : s.shapes.absolute parent = parent.geometry := by
      simp [Registry.absolute, free]
    rw [synced.drawnAt?_eq above, still]
    rfl

def Sample.solar : List Placing := [.add "sun" (.ofGeometry (.circle 400 300 40)),
  .add "planet" (.ofGeometry (.rect 0 0 24 24)), .add "moon" (.ofGeometry (.circle 0 0 5)),
  .bind "sun" "planet" 120 (-12), .bind "planet" "moon" 30 0]

def Sample.solarSession : Session Scene :=
  solar.foldl (fun s c => s.after (.exec c.program)) (opening Scene.initial .discarded 5)

theorem Sample.solar_arranged : Arranged solarSession := by
  refine .place (.place (.place (.place (.place (.opening .discarded 5) ?_) ?_) ?_) trivial) trivial
  all_goals exact ⟨by decide +kernel, by decide +kernel⟩

theorem arranged_drawnAt_solar : Arranged Sample.solarSession ∧
    ∃ moon, Sample.solarSession.shapes["moon"]? = some moon ∧ moon.links.parent = some "planet" ∧
    ∃ planet, Sample.solarSession.shapes["planet"]? = some planet ∧
      Sample.solarSession.drawnAt? "moon" =
        some (moon.position.1 + planet.position.1, moon.position.2 + planet.position.2) ∧
      (planet.links.parent = none → Sample.solarSession.drawnAt? "planet" = some planet.position) := by
  have bound : Sample.solarSession.shapes.parent? "moon" = some "planet" := by decide +kernel
  obtain ⟨moon, found⟩ := Registry.found_of_mem (Registry.mem_of_parent bound)
  rw [Registry.parent?_eq found] at bound
  exact ⟨Sample.solar_arranged, moon, found, bound, arranged_drawnAt Sample.solar_arranged found bound⟩

-- The planet is drawn at (520, 288). The moon, 30 to the right of it, would be at (550, 288).
theorem moon_apart_from_planet : Arranged Sample.solarSession ∧
    Sample.solarSession.shapes.parent? "moon" = some "planet" ∧
    Sample.solarSession.shapes["moon"]?.map (·.position) = some (30, 0) ∧
    Sample.solarSession.drawnAt? "planet" = some (520, 288) ∧
    Sample.solarSession.drawnAt? "moon" ≠ some (30 + 520, 0 + 288) :=
  ⟨Sample.solar_arranged, by decide +kernel, by decide +kernel, by decide +kernel, by decide +kernel⟩

end Session
end Diorama
