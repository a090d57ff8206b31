import Diorama.Proofs.Reachable

namespace Diorama

section Lifting

variable {ε τ α β : Type} {f : τ → τ} {x : EStateM ε τ α} {next : α → EStateM ε τ β}

def Lifts (f : τ → τ) (x : EStateM ε τ α) : Prop := ∀ s a s', x s = .ok a s' → x (f s) = .ok a (f s')

theorem lifts_pure (a : α) : Lifts f (pure a : EStateM ε τ α) := by
  intro s b s' ran
  cases ran
  rfl

theorem lifts_throw (e : ε) : Lifts f (throw e : EStateM ε τ α) := by
  intro s a s' ran
  cases ran

theorem Lifts.bind (first : Lifts f x) (later : ∀ a, Lifts f (next a)) : Lifts f (x >>= next) := by
  intro s b s' ran
  obtain ⟨a, between, left, right⟩ := Action.of_bind_ok ran
  rw [Action.bind_ok (first s a between left)]
  exact later a between b s' right

end Lifting

namespace Stack

variable {base : Stack}

theorem lifts_pop : Lifts (· ++ base) pop := by
  intro stack v rest taken
  cases stack with
  | nil => cases taken
  | cons head tail =>
    cases taken
    rfl

theorem lifts_push (v : Value) : Lifts (· ++ base) (push v) := by
  intro stack u rest pushed
  cases pushed
  rfl

theorem lifts_top : Lifts (· ++ base) top := by
  intro stack v rest taken
  cases stack with
  | nil => cases taken
  | cons head tail =>
    cases taken
    rfl

theorem lifts_popNumber : Lifts (· ++ base) popNumber := by
  refine lifts_pop.bind fun v => ?_
  cases v with
  | number x => exact lifts_pure x
  | _ => exact lifts_throw _

theorem lifts_popId : Lifts (· ++ base) popId := by
  refine lifts_pop.bind fun v => ?_
  cases v with
  | string id => exact lifts_pure id
  | symbol id => exact lifts_pure id
  | _ => exact lifts_throw _

theorem lifts_popSymbol : Lifts (· ++ base) popSymbol := by
  refine lifts_pop.bind fun v => ?_
  cases v with
  | symbol name => exact lifts_pure name
  | _ => exact lifts_throw _

theorem lifts_popShape : Lifts (· ++ base) popShape := by
  refine lifts_pop.bind fun v => ?_
  cases v with
  | shape shape => exact lifts_pure shape
  | _ => exact lifts_throw _

theorem lifts_popGeometry (kind : Kind) : Lifts (· ++ base) (popGeometry kind) := by
  cases kind with
  | circle =>
    refine lifts_popNumber.bind fun cx => lifts_popNumber.bind fun cy => ?_
    exact lifts_popNumber.bind fun r => lifts_pure _
  | rect =>
    refine lifts_popNumber.bind fun x => lifts_popNumber.bind fun y => ?_
    exact lifts_popNumber.bind fun width => lifts_popNumber.bind fun height => lifts_pure _

end Stack

namespace Machine

variable {σ α β : Type} {base : Stack}

def upon (base : Stack) (m : Machine σ) : Machine σ := { m with stack := m.stack ++ base }

theorem lifts_onStack {take : Stack.Taking α} (lifts : Lifts (· ++ base) take) :
    Lifts (upon base) (onStack take : Step σ α) := by
  intro m a m' ran
  unfold onStack at ran
  cases taken : take m.stack with
  | error e rest =>
    rw [taken] at ran
    cases ran
  | ok b rest =>
    rw [taken] at ran
    cases ran
    unfold onStack upon
    rw [lifts _ _ _ taken]

theorem lifts_onSession (action : Action σ α) : Lifts (upon base) (onSession action) := by
  intro m a m' ran
  unfold onSession at ran ⊢
  dsimp only [upon]
  cases result : action m.session with
  | error e s =>
    rw [result] at ran
    cases ran
  | ok b s =>
    rw [result] at ran
    cases ran
    rfl

theorem lifts_take {take : Stack.Taking α} {next : α → Step σ β} (first : Lifts (· ++ base) take)
    (later : ∀ a, Lifts (upon base) (next a)) : Lifts (upon base) (onStack take >>= next) :=
  (lifts_onStack first).bind later

theorem lifts_binary (operation : Float → Float → Float) : Lifts (upon base) (binary operation : Step σ Unit) := by
  refine lifts_take Stack.lifts_popNumber fun y => lifts_take Stack.lifts_popNumber fun x => ?_
  exact lifts_onStack (Stack.lifts_push _)

variable [Surface σ] {redraw : String → Action σ Unit} {program : Program} {m m' : Machine σ} {v : Value}

open Stack in
theorem lifts_perform {p : Primitive} (steady : p ≠ .rotate) : Lifts (upon base) (perform redraw p) := by
  cases p with
  | plus => exact lifts_binary _
  | minus => exact lifts_binary _
  | times => exact lifts_binary _
  | «over» => exact lifts_binary _
  | host name operation => exact lifts_binary operation
  | sqrt => exact lifts_take lifts_popNumber fun x => lifts_onStack (lifts_push _)
  | dup => exact lifts_take lifts_top fun v => lifts_onStack (lifts_push v)
  | drop => exact lifts_take lifts_pop fun _ => lifts_pure _
  | swap =>
    refine lifts_take lifts_pop fun y => lifts_take lifts_pop fun x => ?_
    exact lifts_take (lifts_push y) fun _ => lifts_onStack (lifts_push x)
  | define => exact lifts_take lifts_popSymbol fun name => lifts_take lifts_pop fun v => lifts_onSession _
  | display => exact lifts_take lifts_pop fun v => lifts_onSession _
  | add => exact lifts_take lifts_popId fun id => lifts_take lifts_popShape fun shape => lifts_onSession _
  | bind =>
    refine lifts_take lifts_popId fun parent => lifts_take lifts_popId fun child => ?_
    exact lifts_take lifts_popNumber fun x => lifts_take lifts_popNumber fun y => lifts_onSession _
  | render => exact lifts_take lifts_popId fun id => lifts_onSession _
  | pin =>
    refine lifts_take lifts_popId fun id => ?_
    exact lifts_take lifts_popNumber fun x => lifts_take lifts_popNumber fun y => lifts_onSession _
  | modify =>
    -- the record is looked up before it is known how many values are taken
    refine lifts_take lifts_popId fun id => (lifts_onSession _).bind fun record => ?_
    exact lifts_take (lifts_popGeometry record.kind) fun geometry => lifts_onSession _
  | remove => exact lifts_take lifts_popId fun id => lifts_onSession _
  | rotate => exact absurd rfl steady
  | move =>
    refine lifts_take lifts_popId fun id => ?_
    exact lifts_take lifts_popNumber fun vx => lifts_take lifts_popNumber fun vy => lifts_onSession _
  | stop => exact lifts_take lifts_popId fun id => lifts_onSession _

-- What the instructions of a run mean when it comes to them, each with the stack that it finds.
def encounters : Program → Machine σ → List (Value × Stack)
  | [], _ => []
  | v :: rest, m =>
    match resolve m.session v with
    | .error _ => []
    | .ok meaning => (meaning, m.stack) :: match instruct Machine.redraw v m with
      | .ok _ m => encounters rest m
      | .error _ _ => []

theorem encounters_first {rest : Program} {u : Value} (meaning : resolve m.session v = .ok u) :
    (u, m.stack) ∈ encounters (v :: rest) m := by
  unfold encounters
  rw [meaning]
  exact List.mem_cons_self

theorem encounters_later {rest : Program} {e : Value × Stack} (ran : instruct Machine.redraw v m = .ok () m')
    (later : e ∈ encounters rest m') : e ∈ encounters (v :: rest) m := by
  unfold encounters
  cases meaning : resolve m.session v with
  | error fault =>
    rw [instruct_eq, meaning] at ran
    cases ran
  | ok u =>
    rw [ran]
    exact List.mem_cons_of_mem _ later

theorem instruct_upon (ran : instruct redraw v m = .ok () m')
    (steady : resolve m.session v ≠ .ok (.primitive .rotate)) :
    instruct redraw v (m.upon base) = .ok () (m'.upon base) := by
  rw [instruct_eq] at ran ⊢
  have same : resolve (m.upon base).session v = resolve m.session v := rfl
  rw [same]
  cases meaning : resolve m.session v with
  | error e =>
    rw [meaning] at ran
    cases ran
  | ok u =>
    rw [meaning] at ran steady
    cases u with
    | primitive p =>
      have other : p ≠ .rotate := fun turns => steady (by rw [turns])
      exact lifts_perform other m () m' ran
    | _ =>
      cases ran
      rfl

theorem execute_upon (steady : ∀ e ∈ encounters program m, e.1 ≠ .primitive .rotate)
    (ran : execute Machine.redraw program m = .ok () m') :
    execute Machine.redraw program (m.upon base) = .ok () (m'.upon base) := by
  induction program generalizing m with
  | nil =>
    cases ran
    rfl
  | cons v rest ih =>
    rw [execute_cons] at ran ⊢
    cases first : instruct Machine.redraw v m with
    | error e between =>
      rw [first] at ran
      cases ran
    | ok u between =>
      rw [first] at ran
      have turnless : resolve m.session v ≠ .ok (.primitive .rotate) :=
        fun turns => steady _ (encounters_first turns) rfl
      rw [instruct_upon first turnless]
      exact ih (fun e met => steady e (encounters_later first met)) ran

end Machine

namespace Session

variable {σ : Type} [Surface σ] {s s' : Session σ} {program : Program} {stack final : Stack}

-- The session may be any. What its primitives run in turn has a stack of its own and is not asked about.
theorem run_upon (steady : ∀ e ∈ Machine.encounters program ⟨stack, s⟩, e.1 ≠ .primitive .rotate)
    (ran : s.run program 0 stack = (.ok final, s')) (base : Stack) :
    s.run program 0 (stack ++ base) = (.ok (final ++ base), s') := by
  unfold run at ran ⊢
  rw [List.drop_zero] at ran ⊢
  cases ended : Machine.execute Machine.redraw program ⟨stack, s⟩ with
  | error e m =>
    rw [ended] at ran
    cases ran
  | ok u m =>
    rw [ended] at ran
    cases ran
    have deeper : Machine.execute Machine.redraw program ⟨stack ++ base, s⟩ = .ok () (m.upon base) :=
      Machine.execute_upon steady ended
    rw [deeper]
    rfl

-- Adds two shapes and binds them at a position that lies on the stack, gives the second one other values, and keeps
-- a sum under a name.
def Sample.errand : Program := [.shape (dot 0), .string "a", .word "add", .shape (dot 1), .string "b", .word "add",
  .string "b", .string "a", .word "bind", .number 3, .number 2, .number 1, .string "b", .word "modify",
  .word "dup", .word "+", .symbol "sum", .word "def", .word "sum"]

theorem run_upon_errand :
    let s := opening Scene.initial .discarded 5
    let stack : Stack := [.number 1, .number 2, .number 4]
    let base : Stack := [.number 7, .string "c"]
    (∀ e ∈ Machine.encounters Sample.errand ⟨stack, s⟩, e.1 ≠ .primitive .rotate) ∧
    ∃ final s', s.run Sample.errand 0 stack = (.ok final, s') ∧
      s.run Sample.errand 0 (stack ++ base) = (.ok (final ++ base), s') := by
  intro s stack base
  have texts : "primitive(rotate)" ∉ (Machine.encounters Sample.errand ⟨stack, s⟩).map (·.1.text) := by decide +kernel
  have steady : ∀ e ∈ Machine.encounters Sample.errand ⟨stack, s⟩, e.1 ≠ .primitive .rotate := by
    intro e met turns
    have text : e.1.text = "primitive(rotate)" := by rw [turns]; rfl
    exact texts (text ▸ List.mem_map_of_mem met)
  have succeeds : (s.run Sample.errand 0 stack).1.toBool = true := by decide +kernel
  refine ⟨steady, ?_⟩
  cases ran : s.run Sample.errand 0 stack with
  | mk result s' =>
    rw [ran] at succeeds
    cases result with
    | error e => cases succeeds
    | ok final => exact ⟨final, s', rfl, run_upon steady ran base⟩

-- A turn by 90 degrees, with nothing below the angle and with a number there.
example :
    let s := (opening Scene.initial .discarded 5).after (.exec [.shape (Sample.dot 0), .string "a", .word "add"])
    let turn : Program := [.string "a", .word "rotate"]
    (s.run turn 0 [.number 90]).1.toOption.map List.length = some 0 ∧
      (s.run turn 0 ([.number 90] ++ [.number 5])).1.toOption.map List.length = some 0 := by
  decide +kernel

end Session
end Diorama
