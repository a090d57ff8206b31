import Diorama.Proofs.Orders

namespace Diorama

theorem Stack.popGeometry_rest {kind : Kind} {values : List Float} {geometry : Geometry} {rest : Stack}
    (taken : popGeometry kind (values.map .number) = .ok geometry rest) :
    kind.arity ≤ values.length ∧ rest = (values.drop kind.arity).map .number := by
  cases kind with
  | circle =>
    rcases values with _ | ⟨cx, _ | ⟨cy, _ | ⟨r, values⟩⟩⟩
    case cons.cons.cons =>
      cases taken
      exact ⟨by simp, rfl⟩
    all_goals cases taken
  | rect =>
    rcases values with _ | ⟨x, _ | ⟨y, _ | ⟨width, _ | ⟨height, values⟩⟩⟩⟩
    case cons.cons.cons.cons =>
      cases taken
      exact ⟨by simp, rfl⟩
    all_goals cases taken

namespace Command

variable {r : Registry} {verb : Verb} {args : List Token} {program : Program} {stack : Stack}

-- The argument that no one takes: a fourth value for a circle.
inductive Surplus (r : Registry) : Verb → List Token → Value → Prop where
  | fourth {id t u v w : Token} {x : Float} {record : Shape} : r[id.name]? = some record → record.kind = .circle →
      w.kind = .number x → Surplus r .modify [id, t, u, v, w] (.number x)

def Spent (r : Registry) (verb : Verb) (args : List Token) (stack : Stack) : Prop :=
  (∀ v, Surplus r verb args v → stack = [v]) ∧ ((∀ v, ¬ Surplus r verb args v) → stack = [])

theorem spent_empty (other : verb ≠ .modify) (empty : stack = []) : Spent r verb args stack := by
  refine ⟨?_, fun _ => empty⟩
  intro v surplus
  cases surplus
  exact absurd rfl other

section Performing

open Machine

variable {σ : Type} [Surface σ] {s : Session σ} {m : Machine σ} {id t u v w : Token} {a b c d : Float}

theorem modify_spent (ran : perform redraw .modify ⟨.string id.name :: [a, b, c].map .number, s⟩ = .ok () m) :
    Spent s.shapes .modify [id, t, u, v] m.stack := by
  obtain ⟨record, geometry, _, taken, _⟩ := modify_ok ran
  obtain ⟨enough, left⟩ := Stack.popGeometry_rest taken
  refine ⟨nofun, fun _ => ?_⟩
  cases kind : record.kind with
  | circle => exact left.trans (by rw [kind]; rfl)
  | rect =>
    rw [kind] at enough
    exact absurd enough (by simp)

theorem modifyFour_spent (fourth : w.kind = .number d)
    (ran : perform redraw .modify ⟨.string id.name :: [a, b, c, d].map .number, s⟩ = .ok () m) :
    Spent s.shapes .modify [id, t, u, v, w] m.stack := by
  obtain ⟨record, geometry, found, taken, _⟩ := modify_ok ran
  obtain ⟨_, left⟩ := Stack.popGeometry_rest taken
  constructor
  · intro value surplus
    cases surplus with
    | fourth found' circle number =>
      cases found.symm.trans found'
      cases fourth.symm.trans number
      exact left.trans (by rw [circle]; rfl)
  · intro none
    cases kind : record.kind with
    | circle => exact absurd (.fourth found kind fourth) (none (.number d))
    | rect => exact left.trans (by rw [kind]; rfl)

def Spends (σ : Type) [Surface σ] (verb : Verb) (args : List Token) (program : Program) : Prop :=
  ∃ operands, program = operands ++ [.word verb.word] ∧ (∀ v ∈ operands, v.IsData) ∧
    ∀ (s : Session σ) (m : Machine σ), perform redraw verb.primitive ⟨operands.reverse, s⟩ = .ok () m →
      Spent s.shapes verb args m.stack

theorem spends_acting (operands : Program) (action : Action σ Unit) (other : verb ≠ .modify)
    (data : ∀ v ∈ operands, v.IsData)
    (takes : ∀ s : Session σ, perform redraw verb.primitive ⟨operands.reverse, s⟩ = onSession action ⟨[], s⟩) :
    Spends σ verb args (operands ++ [.word verb.word]) := by
  refine ⟨operands, rfl, data, ?_⟩
  intro s m ran
  rw [takes s] at ran
  exact spent_empty other (session_ok ran).2

theorem encoded_spends (encoded : Encoded verb args program) : Spends σ verb args program := by
  cases encoded with
  | @circle _ id _ _ _ fill a b c =>
    let shape := { Shape.ofGeometry (.circle a b c) with fill := (fill.map Token.name).getD "black" }
    exact spends_acting [.shape shape, .string id.name] (Session.register id.name shape) (by decide)
      (by simp [Value.IsData]) fun _ => rfl
  | @rect _ id _ _ _ _ fill a b c d =>
    let shape := { Shape.ofGeometry (.rect a b c d) with fill := (fill.map Token.name).getD "black" }
    exact spends_acting [.shape shape, .string id.name] (Session.register id.name shape) (by decide)
      (by simp [Value.IsData]) fun _ => rfl
  | @remove id =>
    exact spends_acting [.string id.name] (Session.remove id.name) (by decide) (by simp [Value.IsData]) fun _ => rfl
  | @stop id =>
    exact spends_acting [.string id.name] (Session.stop id.name) (by decide) (by simp [Value.IsData]) fun _ => rfl
  | @pin id _ _ a b =>
    exact spends_acting [.number b, .number a, .string id.name] (Session.pin redraw id.name (a, b)) (by decide)
      (by simp [Value.IsData]) fun _ => rfl
  | @turn id _ a =>
    exact spends_acting [.number a, .string id.name] (Session.rotate id.name a 0) (by decide)
      (by simp [Value.IsData]) fun _ => rfl
  | @rotate id _ _ a b =>
    exact spends_acting [.number b, .number a, .string id.name] (Session.rotate id.name a b) (by decide)
      (by simp [Value.IsData]) fun _ => rfl
  | @move id _ _ a b =>
    exact spends_acting [.number b, .number a, .string id.name] (Session.move id.name a b) (by decide)
      (by simp [Value.IsData]) fun _ => rfl
  | @modify id _ _ _ a b c =>
    exact ⟨[.number c, .number b, .number a, .string id.name], rfl, by simp [Value.IsData],
      fun s m ran => modify_spent ran⟩
  | @modifyFour id _ _ _ _ a b c d _ _ _ fourth =>
    exact ⟨[.number d, .number c, .number b, .number a, .string id.name], rfl, by simp [Value.IsData],
      fun s m ran => modifyFour_spent fourth ran⟩
  | @bind parent child _ _ a b =>
    exact spends_acting [.number b, .number a, .string child.name, .string parent.name]
      (Session.bindTo redraw parent.name child.name (a, b)) (by decide) (by simp [Value.IsData]) fun _ => rfl
  | @display t ts =>
    let shown := " ".intercalate ((t :: ts).map Token.lexeme)
    exact spends_acting [.string shown] (modify (Session.tell shown)) (by decide) (by simp [Value.IsData])
      fun _ => rfl

end Performing

end Command

namespace Session

variable {σ : Type} [Surface σ] {s s' : Session σ} {verb : Verb} {head finish : Token} {args : List Token}
  {text : String} {stack : Stack}

theorem execLine_spends (kept : s.words[verb.word]? = Library.standard.load[verb.word]?)
    (read : tokenize 1 text = .ok (head :: args ++ [finish])) (word : head.kind = .word verb.word)
    (ran : s.execLine text = (.ok stack, s')) : Command.Spent s.shapes verb args stack := by
  obtain ⟨program, encoded, executed⟩ := execLine_encoded read word ran
  obtain ⟨operands, rfl, data, spends⟩ : Command.Spends σ verb args program := Command.encoded_spends encoded
  rw [← verb.primitive_word] at executed
  exact spends s ⟨stack, s'⟩ (exec_operands_ok data (verb_means kept) executed)

def Sample.fourfold (id : String) : String := "modify " ++ id ++ " 1 2 3 4"

def Sample.fourfoldArgs (id : String) (column : Nat) : List Token := [⟨.word id, id, ⟨1, 8⟩⟩, ⟨.number 1, "1", ⟨1, column⟩⟩,
  ⟨.number 2, "2", ⟨1, column + 2⟩⟩, ⟨.number 3, "3", ⟨1, column + 4⟩⟩, ⟨.number 4, "4", ⟨1, column + 6⟩⟩]

theorem execLine_spends_planet : Sample.solarSession.words = Library.standard.load ∧
    tokenize 1 (Sample.fourfold "planet") = .ok (⟨.word "modify", "modify", ⟨1, 1⟩⟩ ::
      Sample.fourfoldArgs "planet" 15 ++ [⟨.finish, "", ⟨1, 22⟩⟩]) ∧
    ∃ stack s', Sample.solarSession.execLine (Sample.fourfold "planet") = (.ok stack, s') ∧
      Command.Spent Sample.solarSession.shapes .modify (Sample.fourfoldArgs "planet" 15) stack := by
  have words := Sample.solar_arranged.inSync.1
  have read : tokenize 1 (Sample.fourfold "planet") = .ok (⟨.word "modify", "modify", ⟨1, 1⟩⟩ ::
      Sample.fourfoldArgs "planet" 15 ++ [⟨.finish, "", ⟨1, 22⟩⟩]) := by
    decide +kernel
  have succeeds : (Sample.solarSession.execLine (Sample.fourfold "planet")).1.toBool = true := by decide +kernel
  cases ran : Sample.solarSession.execLine (Sample.fourfold "planet") with
  | mk result s' =>
    rw [ran] at succeeds
    cases result with
    | error e => cases succeeds
    | ok stack => exact ⟨words, read, stack, s', rfl, execLine_spends (by rw [words]) read rfl ran⟩

-- The sun is a circle. It takes three values, and the fourth stays on the stack.
theorem modify_leaves_fourth : Arranged Sample.solarSession ∧ Reachable Scene.initial Sample.solarSession ∧
    Sample.solarSession.words = Library.standard.load ∧
    tokenize 1 (Sample.fourfold "sun") = .ok (⟨.word "modify", "modify", ⟨1, 1⟩⟩ ::
      Sample.fourfoldArgs "sun" 12 ++ [⟨.finish, "", ⟨1, 19⟩⟩]) ∧
    ∃ stack s', Sample.solarSession.execLine (Sample.fourfold "sun") = (.ok stack, s') ∧ stack ≠ [] := by
  have left : (Sample.solarSession.execLine (Sample.fourfold "sun")).1.toOption.map List.length = some 1 := by
    decide +kernel
  refine ⟨Sample.solar_arranged, Sample.solar_arranged.reachable, Sample.solar_arranged.inSync.1,
    by decide +kernel, ?_⟩
  cases ran : Sample.solarSession.execLine (Sample.fourfold "sun") with
  | mk result s' =>
    rw [ran] at left
    cases result with
    | error e => cases left
    | ok stack =>
      refine ⟨stack, s', rfl, ?_⟩
      rintro rfl
      cases left

end Session
end Diorama
