import Diorama.Proofs.Grammar
import Diorama.Proofs.Placing
import Diorama.Proofs.Ticking

namespace Diorama

deriving instance DecidableEq for TokenKind, Token

namespace Verb

def primitive : Verb → Primitive
  | .add => .add
  | .remove => .remove
  | .stop => .stop
  | .pin => .pin
  | .rotate => .rotate
  | .move => .move
  | .modify => .modify
  | .bind => .bind
  | .display => .display

theorem primitive_word (verb : Verb) : verb.primitive.name = verb.word := by
  cases verb <;> rfl

theorem primitive_own (verb : Verb) : verb.primitive.isHost = false := by
  cases verb <;> rfl

end Verb

inductive Argument where
  | name (s : String)
  | number (x : Float)

def Token.Gives (t : Token) : Argument → Prop
  | .name s => t.name = s
  | .number x => t.kind = .number x

inductive Order where
  | add (id : String) (geometry : Geometry) (fill : Option String)
  | modify (id : String) (values : List Float)
  | pin (id : String) (x y : Float)
  | bind (parent child : String) (x y : Float)
  | move (id : String) (vx vy : Float)
  | rotate (id : String) (angle : Float) (rate : Option Float)

namespace Order

def verb : Order → Verb
  | .add .. => .add
  | .modify .. => .modify
  | .pin .. => .pin
  | .bind .. => .bind
  | .move .. => .move
  | .rotate .. => .rotate

def arguments : Order → List Argument
  | .add id geometry fill =>
    .name geometry.kind.name :: .name id :: geometry.values.map .number ++ fill.toList.map .name
  | .modify id values => .name id :: values.map .number
  | .pin id x y => [.name id, .number x, .number y]
  | .bind parent child x y => [.name parent, .name child, .number x, .number y]
  | .move id vx vy => [.name id, .number vx, .number vy]
  | .rotate id angle rate => .name id :: .number angle :: rate.toList.map .number

def Typed (order : Order) (text : String) : Prop :=
  ∃ head args finish, tokenize 1 text = .ok (head :: args ++ [finish]) ∧ head.kind = .word order.verb.word ∧
    List.Forall₂ Token.Gives args order.arguments

-- The arguments in the order in which they are pushed.
def operands : Order → Program
  | .add id geometry fill => [.shape { Shape.ofGeometry geometry with fill := fill.getD "black" }, .string id]
  | .modify id values => values.reverse.map .number ++ [.string id]
  | .pin id x y => [.number y, .number x, .string id]
  | .bind parent child x y => [.number y, .number x, .string child, .string parent]
  | .move id vx vy => [.number vy, .number vx, .string id]
  | .rotate id angle rate => rate.toList.map .number ++ [.number angle, .string id]

theorem operands_plain (order : Order) : ∀ v ∈ order.operands, v.IsData := by
  cases order with
  | rotate id angle rate => cases rate <;> simp [operands, Value.IsData]
  | modify id values =>
    intro v member
    simp only [operands, List.mem_append, List.mem_map, List.mem_singleton] at member
    rcases member with ⟨x, _, rfl⟩ | rfl <;> trivial
  | _ => simp [operands, Value.IsData]

theorem given_fill {t : Option Token} {fill : Option String}
    (given : List.Forall₂ Token.Gives t.toList (fill.toList.map .name)) : t.map Token.name = fill := by
  cases t <;> cases fill <;> simp_all [Token.Gives]

theorem encoded_operands {order : Order} {args : List Token} {program : Program}
    (encoded : Command.Encoded order.verb args program) (given : List.Forall₂ Token.Gives args order.arguments) :
    program = order.operands ++ [.word order.verb.word] := by
  cases order with
  | add id geometry fill =>
    cases encoded with
    | circle named first second third =>
      cases geometry with
      | circle =>
        obtain _ | ⟨_, _ | ⟨rfl, _ | ⟨across, _ | ⟨down, _ | ⟨wide, rest⟩⟩⟩⟩⟩ := given
        cases first.symm.trans across
        cases second.symm.trans down
        cases third.symm.trans wide
        rw [given_fill rest]
        rfl
      | rect =>
        obtain _ | ⟨other, _⟩ := given
        have clash : Kind.name .circle = Kind.name .rect := named.symm.trans other
        cases Kind.name_inj clash
    | rect named first second third fourth =>
      cases geometry with
      | circle =>
        obtain _ | ⟨other, _⟩ := given
        have clash : Kind.name .rect = Kind.name .circle := named.symm.trans other
        cases Kind.name_inj clash
      | rect =>
        obtain _ | ⟨_, _ | ⟨rfl, _ | ⟨across, _ | ⟨down, _ | ⟨wide, _ | ⟨high, rest⟩⟩⟩⟩⟩⟩ := given
        cases first.symm.trans across
        cases second.symm.trans down
        cases third.symm.trans wide
        cases fourth.symm.trans high
        rw [given_fill rest]
        rfl
  | modify id values =>
    cases encoded with
    | modify first second third =>
      obtain ⟨rfl, numbers⟩ := List.forall₂_cons.mp given
      obtain _ | ⟨x, _ | ⟨y, _ | ⟨z, _ | _⟩⟩⟩ := List.forall₂_map_right_iff.mp numbers
      cases first.symm.trans x
      cases second.symm.trans y
      cases third.symm.trans z
      rfl
    | modifyFour first second third fourth =>
      obtain ⟨rfl, numbers⟩ := List.forall₂_cons.mp given
      obtain _ | ⟨x, _ | ⟨y, _ | ⟨z, _ | ⟨w, _ | _⟩⟩⟩⟩ := List.forall₂_map_right_iff.mp numbers
      cases first.symm.trans x
      cases second.symm.trans y
      cases third.symm.trans z
      cases fourth.symm.trans w
      rfl
  | pin id x y =>
    cases encoded with
    | pin first second =>
      obtain _ | ⟨rfl, _ | ⟨across, _ | ⟨down, _⟩⟩⟩ := given
      cases first.symm.trans across
      cases second.symm.trans down
      rfl
  | bind parent child x y =>
    cases encoded with
    | bind first second =>
      obtain _ | ⟨rfl, _ | ⟨rfl, _ | ⟨across, _ | ⟨down, _⟩⟩⟩⟩ := given
      cases first.symm.trans across
      cases second.symm.trans down
      rfl
  | move id vx vy =>
    cases encoded with
    | move first second =>
      obtain _ | ⟨rfl, _ | ⟨across, _ | ⟨down, _⟩⟩⟩ := given
      cases first.symm.trans across
      cases second.symm.trans down
      rfl
  | rotate id angle rate =>
    cases encoded with
    | turn first =>
      cases rate with
      | none =>
        obtain _ | ⟨rfl, _ | ⟨turn, _⟩⟩ := given
        cases first.symm.trans turn
        rfl
      | some rate => obtain _ | ⟨_, _ | ⟨_, _ | _⟩⟩ := given
    | rotate first second =>
      cases rate with
      | none => obtain _ | ⟨_, _ | ⟨_, _ | _⟩⟩ := given
      | some rate =>
        obtain _ | ⟨rfl, _ | ⟨turn, _ | ⟨often, _⟩⟩⟩ := given
        cases first.symm.trans turn
        cases second.symm.trans often
        rfl

end Order

def Moving (rate : Float) : Prop := (rate == 0) = false ∧ rate.isNaN = false

instance (rate : Float) : Decidable (Moving rate) := inferInstanceAs (Decidable (_ ∧ _))

example : ¬ Moving 0 ∧ ¬ Moving (-0) ∧ ¬ Moving (0 / 0) ∧ Moving (-1 / 0) := by decide +kernel

def sign (rate : Float) : Float := if rate < 0 then -1 else 1

theorem isMoving_iff {rate : Float} : Session.isMoving rate = true ↔ Moving rate := by
  simp [Session.isMoving, Moving, bne]

namespace Timeline

variable {t : Timeline} {slot other : Slot} {action action' : TaskAction} {rate rate' : Float}

def Runs (t : Timeline) (slot : Slot) (action : TaskAction) (rate : Float) : Prop :=
  ∃ (n : Nat) (task : Task), t.tasks[n]? = some task ∧ task.slot = slot ∧ task.action = action ∧
    task.interval = Task.intervalAt rate

def Free (t : Timeline) (slot : Slot) : Prop := ∀ (n : Nat) (task : Task), t.tasks[n]? = some task → task.slot ≠ slot

def Follows (t : Timeline) (slot : Slot) (action : TaskAction) (rate : Float) : Prop :=
  (Moving rate → t.Runs slot action rate) ∧ (¬ Moving rate → t.Free slot)

theorem Consistent.free_iff (consistent : t.Consistent) : t.Free slot ↔ t.active? slot = none := by
  constructor
  · intro free
    cases named : t.active? slot with
    | none => rfl
    | some n =>
      obtain ⟨task, live, own⟩ := (consistent.slotted slot n).mp named
      exact absurd own (free n task live)
  · intro none n task live own
    have named : t.active? slot = some n := (consistent.slotted slot n).mpr ⟨task, live, own⟩
    cases none.symm.trans named

theorem Consistent.free_cancelSlot (consistent : t.Consistent) (slot : Slot) : (t.cancelSlot slot).Free slot :=
  (consistent.cancelSlot slot).free_iff.mpr (consistent.active?_cancelSlot.trans (if_pos rfl))

theorem Consistent.free_kept (consistent : t.Consistent) (free : t.Free slot) (other : Slot) :
    (t.cancelSlot other).Free slot := by
  refine (consistent.cancelSlot other).free_iff.mpr ?_
  rw [consistent.active?_cancelSlot, consistent.free_iff.mp free]
  exact ite_self none

theorem runs_start : (t.start slot action rate).2.Runs slot action rate :=
  ⟨_, _, tasks_start.trans (if_pos rfl), rfl, rfl, rfl⟩

theorem Consistent.tasks_start_free (consistent : t.Consistent) (free : t.Free slot) {n : Nat} :
    (t.start slot action rate).2.tasks[n]? = if t.nextId = n then
      some ⟨n, slot, action, Task.intervalAt rate, t.now.plus (Task.intervalAt rate)⟩ else t.tasks[n]? := by
  have same : t.cancelSlot slot = t := by
    unfold Timeline.cancelSlot
    rw [consistent.free_iff.mp free]
  rw [tasks_start, same]

theorem Consistent.runs_onAxis (consistent : t.Consistent) (free : t.Free slot) (runs : t.Runs other action rate) :
    (Session.onAxis slot action' rate' t).2.Runs other action rate := by
  unfold Session.onAxis
  split
  · obtain ⟨n, task, live, rest⟩ := runs
    have old : t.nextId ≠ n := fun same => Nat.lt_irrefl _ (same ▸ consistent.earlier n task live)
    exact ⟨n, task, (consistent.tasks_start_free free).trans ((if_neg old).trans live), rest⟩
  · exact runs

theorem Consistent.free_onAxis (consistent : t.Consistent) (free : t.Free slot) (apart : slot ≠ other)
    (still : t.Free other) (action : TaskAction) (rate : Float) :
    (Session.onAxis slot action rate t).2.Free other := by
  unfold Session.onAxis
  split
  · intro n task live
    rw [consistent.tasks_start_free free] at live
    split at live
    · cases live
      exact apart
    · exact still n task live
  · exact still

theorem follows_onAxis (free : t.Free slot) (action : TaskAction) (rate : Float) :
    (Session.onAxis slot action rate t).2.Follows slot action rate := by
  unfold Session.onAxis
  split
  · rename_i moving
    exact ⟨fun _ => runs_start, fun still => absurd (isMoving_iff.mp moving) still⟩
  · rename_i still
    exact ⟨fun moving => absurd (isMoving_iff.mpr moving) still, fun _ => free⟩

theorem Consistent.follows_onAxes (consistent : t.Consistent) (id : String) (vx vy : Float) :
    (Session.onAxes id vx vy t).2.Follows ⟨id, .x⟩ (.translate (sign vx) 0) vx ∧
    (Session.onAxes id vx vy t).2.Follows ⟨id, .y⟩ (.translate 0 (sign vy)) vy := by
  have first := consistent.cancelSlot ⟨id, .x⟩
  have freed := first.cancelSlot ⟨id, .y⟩
  have freeX := first.free_kept (consistent.free_cancelSlot ⟨id, .x⟩) ⟨id, .y⟩
  have freeY := first.free_cancelSlot ⟨id, .y⟩
  have moved := (Session.onAxis_edited ⟨id, .x⟩ (.translate (sign vx) 0) vx .same).consistent freed
  have onX := follows_onAxis freeX (.translate (sign vx) 0) vx
  have stillY := freed.free_onAxis freeX (by simp) freeY (.translate (sign vx) 0) vx
  refine ⟨⟨fun moving => ?_, fun still => ?_⟩, follows_onAxis stillY _ vy⟩
  · exact moved.runs_onAxis stillY (onX.1 moving)
  · exact moved.free_onAxis stillY (by simp) (onX.2 still) _ vy

end Timeline

namespace Registry

variable {r : Registry}

theorem link_child {parent child : String} {shape : Shape} (found : r[child]? = some shape) (apart : parent ≠ child) :
    (r.link parent child)[child]? = some { shape with links.parent := some parent } := by
  unfold link
  rw [getElem?_modify, if_pos rfl, getElem?_modify, if_neg apart, found]
  rfl

end Registry

namespace Session

variable {σ : Type} {s s' : Session σ} {id : String} {P : Shape → Prop}

def Holds (s : Session σ) (id : String) (P : Shape → Prop) : Prop := ∃ record, s.shapes[id]? = some record ∧ P record

theorem holds_changed {f : Shape → Shape} (held : s.Holds id fun record => P (f record)) :
    (s.changed id f).Holds id P := by
  obtain ⟨record, found, holds⟩ := held
  refine ⟨f record, ?_, holds⟩
  refine Registry.getElem?_modify.trans ?_
  rw [if_pos rfl, found]
  rfl

end Session

namespace Order

variable {σ : Type}

-- What an order leaves behind. A rate that is not given counts as zero.
def Effect (s s' : Session σ) : Order → Prop
  | .add id geometry fill =>
    s'.Holds id fun record => record.geometry = geometry ∧ record.fill = fill.getD "black"
  | .modify id values =>
    s.Holds id fun old => values.length = old.kind.arity → s'.Holds id fun record =>
      record.kind = old.kind ∧ record.geometry.values = values ∧ record.fill = old.fill ∧
        record.rotation = old.rotation
  | .pin id x y =>
    ∃ path top, s.shapes.Climb id path top ∧ s.shapes.parent? top = none ∧
      s'.Holds top fun record => record.position = (x, y)
  | .bind parent child x y =>
    s'.Holds child fun record => record.links.parent = some parent ∧ record.position = (x, y)
  | .move id vx vy =>
    s'.timeline.Follows ⟨id, .x⟩ (.translate (sign vx) 0) vx ∧
      s'.timeline.Follows ⟨id, .y⟩ (.translate 0 (sign vy)) vy
  | .rotate id angle rate =>
    let r := rate.getD 0
    (Moving r → s'.timeline.Runs ⟨id, .rotation⟩ (.rotate (angle * sign r)) r) ∧
      (¬ Moving r → s.Holds id fun old => s'.Holds id fun record => record.rotation = old.rotation + angle)

end Order

namespace Session

variable {σ : Type} [Surface σ] {s s' : Session σ} {id : String}

theorem register_effect (sound : s.Sound) {geometry : Geometry} {fill : Option String}
    (ran : register id { Shape.ofGeometry geometry with fill := fill.getD "black" } s = .ok () s') :
    (Order.add id geometry fill).Effect s s' := by
  cases (register_ok sound id _).symm.trans ran
  obtain ⟨stored, found, placed, filled, _⟩ := recorded_self s id
    { Shape.ofGeometry geometry with fill := fill.getD "black" }
  exact ⟨stored, found, placed, filled⟩

theorem reshape_holds (sound : s.Sound) {old : Shape} {geometry : Geometry} (found : s.shapes[id]? = some old)
    (ran : reshape Machine.redraw id geometry s = .ok () s') :
    s'.Holds id fun record => record.geometry = geometry ∧ record.fill = old.fill ∧ record.rotation = old.rotation := by
  cases (reshape_ok sound found).symm.trans ran
  exact recorded_self s id { old with geometry }

theorem pin_effect (sound : s.Sound) {x y : Float} (ran : pin Machine.redraw id (x, y) s = .ok () s') :
    (Order.pin id x y).Effect s s' := by
  cases root : s.shapes.rootOf id with
  | error e => cases (pin_refused root).symm.trans ran
  | ok top =>
    obtain ⟨path, climb, free⟩ := Registry.rootSteps_top root
    obtain ⟨record, found⟩ := Registry.found_of_mem (Registry.rootSteps_mem root)
    cases (pin_ok sound root).symm.trans ran
    exact ⟨path, top, climb, free, holds_changed ⟨record, found, Geometry.position_moveTo _ _⟩⟩

theorem bindTo_effect (sound : s.Sound) {parent child : String} {x y : Float}
    (ran : bindTo Machine.redraw parent child (x, y) s = .ok () s') : (Order.bind parent child x y).Effect s s' := by
  cases granted : s.shapes.checkBinding parent child with
  | error e => cases (bindTo_refused granted).symm.trans ran
  | ok linked =>
    cases (bindTo_ok sound granted).symm.trans ran
    obtain ⟨_, below, ⟨rfl, bound⟩ | ⟨rfl, _, apart⟩⟩ := Registry.checkBinding_cases granted
    all_goals obtain ⟨record, found⟩ := Registry.found_of_mem below
    · have parents : record.links.parent = some parent := (Registry.parent?_eq found).symm.trans bound
      exact holds_changed ⟨record, found, parents, Geometry.position_moveTo _ _⟩
    · have other : parent ≠ child := fun same => apart ⟨[], same ▸ .here⟩
      have moved : (s.shapes.modify child (·.moveTo (x, y)))[child]? = some (record.moveTo (x, y)) := by
        rw [Registry.getElem?_modify, if_pos rfl, found]
        rfl
      exact ⟨_, Registry.link_child moved other, rfl, Geometry.position_moveTo _ _⟩

theorem move_effect (sound : s.Sound) (consistent : s.timeline.Consistent) {vx vy : Float}
    (ran : move id vx vy s = .ok () s') : (Order.move id vx vy).Effect s s' := by
  cases found : s.shapes[id]? with
  | none => cases (Action.bind_error (shape_missing found)).symm.trans ran
  | some record =>
    cases (move_ok sound found).symm.trans ran
    have timeline : (s.moved id vx vy).timeline = (onAxes id vx vy s.timeline).2 := by
      unfold moved
      split <;> rfl
    unfold Order.Effect
    rw [timeline]
    exact consistent.follows_onAxes id vx vy

theorem rotate_effect (sound : s.Sound) {angle : Float} {rate : Option Float}
    (ran : rotate id angle (rate.getD 0) s = .ok () s') : (Order.rotate id angle rate).Effect s s' := by
  cases found : s.shapes[id]? with
  | none => cases (Action.bind_error (shape_missing found)).symm.trans ran
  | some record =>
    cases (rotate_ok sound found).symm.trans ran
    unfold rotated
    by_cases moving : isMoving (rate.getD 0) = true
    · simp only [moving, if_true]
      exact ⟨fun _ => Timeline.runs_start, fun still => absurd (isMoving_iff.mp moving) still⟩
    · simp only [moving]
      refine ⟨fun called => absurd (isMoving_iff.mpr called) moving, fun _ => ⟨record, found, ?_⟩⟩
      refine holds_changed (holds_changed ⟨record, found, ?_⟩)
      rfl

end Session

theorem Stack.popGeometry_values {kind : Kind} {values : List Float} {geometry : Geometry} {rest : Stack}
    (taken : popGeometry kind (values.map .number) = .ok geometry rest) (enough : values.length = kind.arity) :
    geometry.kind = kind ∧ geometry.values = values := by
  cases kind with
  | circle =>
    obtain ⟨x, y, r, rfl⟩ := List.length_eq_three.mp enough
    cases taken
    exact ⟨rfl, rfl⟩
  | rect =>
    rcases values with _ | ⟨x, _ | ⟨y, _ | ⟨width, _ | ⟨height, _ | _⟩⟩⟩⟩
    case cons.cons.cons.cons.nil =>
      cases taken
      exact ⟨rfl, rfl⟩
    all_goals simp at enough

namespace Machine

variable {σ : Type} [Surface σ] {s : Session σ} {m : Machine σ}

theorem modify_ok {id : String} {stack : Stack} (ran : perform redraw .modify ⟨.string id :: stack, s⟩ = .ok () m) :
    ∃ record geometry, s.shapes[id]? = some record ∧ Stack.popGeometry record.kind stack = .ok geometry m.stack ∧
      Session.reshape redraw id geometry s = .ok () m.session := by
  obtain ⟨_, _, named, looking⟩ := take_ok ran
  cases named
  obtain ⟨old, ⟨stack', between⟩, looked, taking⟩ := Action.of_bind_ok looking
  obtain ⟨looked, same⟩ := session_ok looked
  cases found : s.shapes[id]? with
  | none => cases (Session.shape_missing found).symm.trans looked
  | some record =>
    cases (Session.shape_ok found).symm.trans looked
    cases same
    obtain ⟨geometry, rest, taken, acting⟩ := take_ok taking
    obtain ⟨acted, left⟩ := session_ok acting
    exact ⟨_, geometry, rfl, left ▸ taken, acted⟩

theorem modify_effect (sound : s.Sound) {id : String} {values : List Float}
    (ran : perform redraw .modify ⟨.string id :: values.map .number, s⟩ = .ok () m) :
    (Order.modify id values).Effect s m.session := by
  obtain ⟨record, geometry, found, taken, acted⟩ := modify_ok ran
  refine ⟨record, found, fun enough => ?_⟩
  obtain ⟨kind, values⟩ := Stack.popGeometry_values taken enough
  obtain ⟨stored, found, placed, fill, rotation⟩ := Session.reshape_holds sound found acted
  exact ⟨stored, found, (congrArg Geometry.kind placed).trans kind,
    (congrArg Geometry.values placed).trans values, fill, rotation⟩

theorem perform_effect (sound : s.Sound) (consistent : s.timeline.Consistent) (order : Order)
    (ran : perform redraw order.verb.primitive ⟨order.operands.reverse, s⟩ = .ok () m) : order.Effect s m.session := by
  cases order with
  | add id geometry fill =>
    have acted : onSession (Session.register id _) ⟨[], s⟩ = .ok () m := ran
    exact Session.register_effect sound (session_ok acted).1
  | modify id values =>
    have reversed : (Order.modify id values).operands.reverse = .string id :: values.map .number := by
      simp [Order.operands]
    rw [reversed] at ran
    exact modify_effect sound ran
  | pin id x y =>
    have acted : onSession (Session.pin redraw id (x, y)) ⟨[], s⟩ = .ok () m := ran
    exact Session.pin_effect sound (session_ok acted).1
  | bind parent child x y =>
    have acted : onSession (Session.bindTo redraw parent child (x, y)) ⟨[], s⟩ = .ok () m := ran
    exact Session.bindTo_effect sound (session_ok acted).1
  | move id vx vy =>
    have acted : onSession (Session.move id vx vy) ⟨[], s⟩ = .ok () m := ran
    exact Session.move_effect sound consistent (session_ok acted).1
  | rotate id angle rate =>
    have acted : onSession (Session.rotate id angle (rate.getD 0)) ⟨[], s⟩ = .ok () m := by
      cases rate <;> exact ran
    exact Session.rotate_effect sound (session_ok acted).1

end Machine

namespace Session

variable {σ : Type} [Surface σ] {surface : σ} {s s' : Session σ} {order : Order} {text : String} {stack : Stack}

theorem execLine_encoded {verb : Verb} {head finish : Token} {args : List Token}
    (read : tokenize 1 text = .ok (head :: args ++ [finish])) (word : head.kind = .word verb.word)
    (ran : s.execLine text = (.ok stack, s')) :
    ∃ program, Command.Encoded verb args program ∧ s.exec program = (.ok stack, s') := by
  have parsed : parseLine 1 text = Command.encode verb args finish :=
    (parseLine_tokens read).trans (Command.ofTokens_verb word)
  unfold execLine at ran
  rw [parsed] at ran
  cases made : Command.encode verb args finish with
  | error m =>
    rw [made] at ran
    cases ran
  | ok program =>
    have judged : Command.Judged verb args finish (.ok program) := made ▸ Command.encode_judged
    rw [made] at ran
    refine ⟨program, judged.encodes, ?_⟩
    cases done : s.exec program with
    | mk result after =>
      simp only [done] at ran
      cases result with
      | error e => cases ran
      | ok rest =>
        cases ran
        rfl

theorem exec_operands_ok {operands : Program} {p : Primitive} (data : ∀ v ∈ operands, v.IsData)
    (means : s.words[p.name]? = some (.primitive p)) (ran : s.exec (operands ++ [.word p.name]) = (.ok stack, s')) :
    Machine.perform Machine.redraw p ⟨operands.reverse, s⟩ = .ok () ⟨stack, s'⟩ := by
  rw [exec_operands data means, run_primitive] at ran
  cases done : Machine.perform Machine.redraw p ⟨operands.reverse, s⟩ with
  | ok u m =>
    rw [done] at ran
    cases ran
    rfl
  | error e m =>
    rw [done] at ran
    cases ran

omit [Surface σ] in
theorem verb_means {verb : Verb} (kept : s.words[verb.word]? = Library.standard.load[verb.word]?) :
    s.words[verb.primitive.name]? = some (.primitive verb.primitive) := by
  rw [← Library.load_name verb.primitive_own, verb.primitive_word]
  exact kept

theorem execLine_order (typed : order.Typed text)
    (kept : s.words[order.verb.word]? = Library.standard.load[order.verb.word]?)
    (ran : s.execLine text = (.ok stack, s')) :
    Machine.perform Machine.redraw order.verb.primitive ⟨order.operands.reverse, s⟩ = .ok () ⟨stack, s'⟩ := by
  obtain ⟨head, args, finish, read, word, given⟩ := typed
  obtain ⟨program, encoded, executed⟩ := execLine_encoded read word ran
  rw [Order.encoded_operands encoded given, ← order.verb.primitive_word] at executed
  exact exec_operands_ok order.operands_plain (verb_means kept) executed

-- What `render` means does not matter here: the record and the tasks are there before anything is redrawn.
theorem execLine_effect (reached : Reachable surface s)
    (kept : s.words[order.verb.word]? = Library.standard.load[order.verb.word]?) (typed : order.Typed text)
    (ran : s.execLine text = (.ok stack, s')) : order.Effect s s' :=
  Machine.perform_effect reached.sound reached.mirrored.1 order (execLine_order typed kept ran)

theorem execLine_effect_solar : Reachable Scene.initial Sample.solarSession ∧
    Sample.solarSession.words = Library.standard.load ∧ (Order.pin "moon" 3 (-4.5)).Typed "pin moon 3 -4.5" ∧
    ∃ stack s', Sample.solarSession.execLine "pin moon 3 -4.5" = (.ok stack, s') ∧
      (Order.pin "moon" 3 (-4.5)).Effect Sample.solarSession s' := by
  have reached := Sample.solar_arranged.reachable
  have words := Sample.solar_arranged.inSync.1
  have typed : (Order.pin "moon" 3 (-4.5)).Typed "pin moon 3 -4.5" := by
    refine ⟨⟨.word "pin", "pin", ⟨1, 1⟩⟩, [⟨.word "moon", "moon", ⟨1, 5⟩⟩, ⟨.number 3, "3", ⟨1, 10⟩⟩,
      ⟨.number (-4.5), "-4.5", ⟨1, 12⟩⟩], ⟨.finish, "", ⟨1, 16⟩⟩, by decide +kernel, rfl, ?_⟩
    exact .cons rfl (.cons rfl (.cons rfl .nil))
  have succeeds : (Sample.solarSession.execLine "pin moon 3 -4.5").1.toBool = true := by decide +kernel
  cases ran : Sample.solarSession.execLine "pin moon 3 -4.5" with
  | mk result s' =>
    rw [ran] at succeeds
    cases result with
    | error e => cases succeeds
    | ok stack =>
      exact ⟨reached, words, typed, stack, s', rfl, execLine_effect reached (by rw [words]) typed ran⟩

end Session
end Diorama
