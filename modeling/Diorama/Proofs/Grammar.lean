import Diorama.Command
import Mathlib.Data.List.Forall2

namespace Diorama

theorem Kind.ofName?_iff {s : String} {kind : Kind} : ofName? s = some kind ↔ s = kind.name := by
  unfold ofName?
  split
  · subst s
    cases kind <;> simp [name]
  · split
    · subst s
      cases kind <;> simp [name]
    · cases kind <;> simp_all [name]

@[simp] theorem Kind.arity_circle : arity .circle = 3 := rfl

@[simp] theorem Kind.arity_rect : arity .rect = 4 := rfl

theorem Kind.name_inj {kind kind' : Kind} (same : kind.name = kind'.name) : kind = kind' := by
  cases kind <;> cases kind' <;> simp [name] at same ⊢

theorem Kind.ofName?_none {s : String} : ofName? s = none ↔ ∀ kind, s ≠ name kind := by
  simp only [Option.eq_none_iff_forall_ne_some, ne_eq, ofName?_iff]

namespace Verb

def word : Verb → String
  | .add => "add"
  | .remove => "remove"
  | .stop => "stop"
  | .pin => "pin"
  | .rotate => "rotate"
  | .move => "move"
  | .modify => "modify"
  | .bind => "bind"
  | .display => "show"

theorem ofWord?_iff {w : String} {verb : Verb} : ofWord? w = some verb ↔ w = verb.word := by
  constructor
  · intro found
    unfold ofWord? at found
    split at found <;> cases found <;> rfl
  · rintro rfl
    cases verb <;> rfl

-- The argument counts of a verb. The kind that `add` names is one of its arguments.
def Admits (kind : Kind) (count : Nat) : Verb → Prop
  | .add => kind.arity + 2 ≤ count ∧ count ≤ kind.arity + 3
  | .remove | .stop => count = 1
  | .pin | .move => count = 3
  | .rotate => 2 ≤ count ∧ count ≤ 3
  | .modify => 4 ≤ count ∧ count ≤ 5
  | .bind => count = 4
  | .display => 1 ≤ count

def numbers (kind : Kind) (args : List Token) : Verb → List Token
  | .add => (args.drop 2).take kind.arity
  | .remove | .stop | .display => []
  | .pin | .rotate | .move | .modify => args.drop 1
  | .bind => args.drop 2

end Verb

namespace Command

-- The kind is the one that `add` names. The other verbs name none, and any kind does for them.
def Suits (verb : Verb) (args : List Token) (kind : Kind) : Prop :=
  verb = .add → ∃ t, args.head? = some t ∧ t.name = kind.name

def Misnamed (verb : Verb) (args : List Token) : Prop :=
  verb = .add ∧ ∃ t, args.head? = some t ∧ ∀ kind, t.name ≠ Kind.name kind

def Counted (verb : Verb) (args : List Token) : Prop :=
  ∃ kind, Suits verb args kind ∧ verb.Admits kind args.length

def WellFormed (verb : Verb) (args : List Token) : Prop :=
  ∃ kind, Suits verb args kind ∧ verb.Admits kind args.length ∧
    ∀ t ∈ verb.numbers kind args, ∃ x, t.kind = .number x

inductive Encoded : Verb → List Token → Program → Prop where
  | circle {kind id cx cy r : Token} {fill : Option Token} {a b c : Float} :
      kind.name = "circle" → cx.kind = .number a → cy.kind = .number b → r.kind = .number c →
      Encoded .add ([kind, id, cx, cy, r] ++ fill.toList)
        [.shape { Shape.ofGeometry (.circle a b c) with fill := (fill.map Token.name).getD "black" },
          .string id.name, .word "add"]
  | rect {kind id x y width height : Token} {fill : Option Token} {a b c d : Float} :
      kind.name = "rect" → x.kind = .number a → y.kind = .number b → width.kind = .number c →
      height.kind = .number d →
      Encoded .add ([kind, id, x, y, width, height] ++ fill.toList)
        [.shape { Shape.ofGeometry (.rect a b c d) with fill := (fill.map Token.name).getD "black" },
          .string id.name, .word "add"]
  | remove {id : Token} : Encoded .remove [id] [.string id.name, .word "remove"]
  | stop {id : Token} : Encoded .stop [id] [.string id.name, .word "stop"]
  | pin {id x y : Token} {a b : Float} : x.kind = .number a → y.kind = .number b →
      Encoded .pin [id, x, y] [.number b, .number a, .string id.name, .word "pin"]
  | turn {id angle : Token} {a : Float} : angle.kind = .number a →
      Encoded .rotate [id, angle] [.number a, .string id.name, .word "rotate"]
  | rotate {id angle rate : Token} {a b : Float} : angle.kind = .number a → rate.kind = .number b →
      Encoded .rotate [id, angle, rate] [.number b, .number a, .string id.name, .word "rotate"]
  | move {id vx vy : Token} {a b : Float} : vx.kind = .number a → vy.kind = .number b →
      Encoded .move [id, vx, vy] [.number b, .number a, .string id.name, .word "move"]
  | modify {id t u v : Token} {a b c : Float} : t.kind = .number a → u.kind = .number b →
      v.kind = .number c →
      Encoded .modify [id, t, u, v] [.number c, .number b, .number a, .string id.name, .word "modify"]
  | modifyFour {id t u v w : Token} {a b c d : Float} : t.kind = .number a → u.kind = .number b →
      v.kind = .number c → w.kind = .number d →
      Encoded .modify [id, t, u, v, w]
        [.number d, .number c, .number b, .number a, .string id.name, .word "modify"]
  | bind {parent child x y : Token} {a b : Float} : x.kind = .number a → y.kind = .number b →
      Encoded .bind [parent, child, x, y]
        [.number b, .number a, .string child.name, .string parent.name, .word "bind"]
  | display {t : Token} {ts : List Token} :
      Encoded .display (t :: ts) [.string (" ".intercalate ((t :: ts).map Token.lexeme)), .word "show"]

variable {verb : Verb} {args ts : List Token} {finish t : Token} {program : Program} {m : Mistake} {kind : Kind}

theorem suits_named (named : t.name = kind.name) : Suits verb (t :: ts) kind := fun _ => ⟨t, rfl, named⟩

theorem Encoded.wellFormed (encoded : Encoded verb args program) : WellFormed verb args := by
  cases encoded with
  | @circle _ _ _ _ _ fill _ _ _ named first second third =>
    refine ⟨.circle, suits_named named, ?_, ?_⟩
    · cases fill <;> simp [Verb.Admits]
    · simp [Verb.numbers, first, second, third]
  | @rect _ _ _ _ _ _ fill _ _ _ _ named first second third fourth =>
    refine ⟨.rect, suits_named named, ?_, ?_⟩
    · cases fill <;> simp [Verb.Admits]
    · simp [Verb.numbers, first, second, third, fourth]
  | remove => exact ⟨.circle, nofun, rfl, by simp [Verb.numbers]⟩
  | stop => exact ⟨.circle, nofun, rfl, by simp [Verb.numbers]⟩
  | pin first second => exact ⟨.circle, nofun, rfl, by simp [Verb.numbers, first, second]⟩
  | turn first => exact ⟨.circle, nofun, by simp [Verb.Admits], by simp [Verb.numbers, first]⟩
  | rotate first second => exact ⟨.circle, nofun, by simp [Verb.Admits], by simp [Verb.numbers, first, second]⟩
  | move first second => exact ⟨.circle, nofun, rfl, by simp [Verb.numbers, first, second]⟩
  | modify first second third =>
    exact ⟨.circle, nofun, by simp [Verb.Admits], by simp [Verb.numbers, first, second, third]⟩
  | modifyFour first second third fourth =>
    exact ⟨.circle, nofun, by simp [Verb.Admits], by simp [Verb.numbers, first, second, third, fourth]⟩
  | bind first second => exact ⟨.circle, nofun, rfl, by simp [Verb.numbers, first, second]⟩
  | display => exact ⟨.circle, nofun, by simp [Verb.Admits], by simp [Verb.numbers]⟩

inductive Judged (verb : Verb) (args : List Token) (finish : Token) : Except Mistake Program → Prop where
  | encoded {program : Program} : Encoded verb args program → Judged verb args finish (.ok program)
  | misnamed {t : Token} : verb = .add → args.head? = some t → (∀ kind, t.name ≠ Kind.name kind) →
      Judged verb args finish (.error ⟨.unknownKind t.lexeme, t.position⟩)
  | miscounted {usage : String} : ¬ Misnamed verb args → ¬ Counted verb args →
      Judged verb args finish (.error (wrongCount args finish usage))
  | mistyped {kind : Kind} {t : Token} : Suits verb args kind → verb.Admits kind args.length →
      t ∈ verb.numbers kind args → (∀ x, t.kind ≠ .number x) →
      Judged verb args finish (.error ⟨.notANumber t.kind.description t.lexeme, t.position⟩)

theorem Judged.number {next : Float → Except Mistake Program} (suits : Suits verb args kind)
    (admits : verb.Admits kind args.length) (among : t ∈ verb.numbers kind args)
    (later : ∀ x, t.kind = .number x → Judged verb args finish (next x)) :
    Judged verb args finish (t.number >>= next) := by
  unfold Token.number
  split
  · rename_i x number
    exact later x number
  · rename_i other
    exact .mistyped suits admits among other

theorem numberValues_cons (t : Token) (ts : List Token) : numberValues (t :: ts) =
    t.number >>= fun x => numberValues ts >>= fun values => pure (.number x :: values) := by
  simp only [numberValues, List.mapM_cons, bind_assoc, pure_bind, List.map_cons]

theorem Judged.numbers {next : Program → Except Mistake Program} (kind : Kind) (suits : Suits verb args kind)
    (admits : verb.Admits kind args.length) (among : ∀ t ∈ ts, t ∈ verb.numbers kind args)
    (later : ∀ xs, List.Forall₂ (fun t x => t.kind = .number x) ts xs →
      Judged verb args finish (next (xs.map .number))) :
    Judged verb args finish (numberValues ts >>= next) := by
  induction ts generalizing next with
  | nil => exact later [] .nil
  | cons t ts ih =>
    simp only [numberValues_cons, bind_assoc, pure_bind]
    refine .number suits admits (among t (by simp)) fun x number => ?_
    refine ih (fun u member => among u (by simp [member])) fun xs rest => ?_
    exact later (x :: xs) (.cons number rest)

theorem judged_miscounted {usage : String} (other : verb ≠ .add) (wrong : ∀ kind, ¬ verb.Admits kind args.length) :
    Judged verb args finish (.error (wrongCount args finish usage)) :=
  .miscounted (fun misnamed => other misnamed.1) fun ⟨kind, _, admits⟩ => wrong kind admits

theorem judged_add_miscounted {usage : String} (named : t.name = kind.name)
    (wrong : ¬ Verb.Admits kind (t :: ts).length .add) :
    Judged .add (t :: ts) finish (.error (wrongCount (t :: ts) finish usage)) := by
  refine .miscounted ?_ ?_
  · rintro ⟨_, first, head, nameless⟩
    cases head
    exact nameless kind named
  · rintro ⟨kind', suits, admits⟩
    obtain ⟨first, head, named'⟩ := suits rfl
    cases head
    have same : kind' = kind := Kind.name_inj (named'.symm.trans named)
    subst same
    exact wrong admits

theorem judged_circle {id cx cy r : Token} (named : t.name = "circle") (fill : Option Token) :
    Judged .add ([t, id, cx, cy, r] ++ fill.toList) finish (do
      pure (addition id (.circle (← cx.number) (← cy.number) (← r.number)) fill)) := by
  have suits : Suits .add ([t, id, cx, cy, r] ++ fill.toList) .circle := suits_named named
  have admits : Verb.Admits .circle ([t, id, cx, cy, r] ++ fill.toList).length .add := by
    cases fill <;> simp [Verb.Admits]
  refine .number suits admits (by simp [Verb.numbers]) fun a first => ?_
  refine .number suits admits (by simp [Verb.numbers]) fun b second => ?_
  refine .number suits admits (by simp [Verb.numbers]) fun c third => ?_
  have encoded : Encoded .add ([t, id, cx, cy, r] ++ fill.toList) _ := .circle named first second third
  cases fill with
  | none => exact .encoded encoded
  | some fill => exact .encoded encoded

theorem judged_rect {id x y width height : Token} (named : t.name = "rect") (fill : Option Token) :
    Judged .add ([t, id, x, y, width, height] ++ fill.toList) finish (do
      pure (addition id (.rect (← x.number) (← y.number) (← width.number) (← height.number)) fill)) := by
  have suits : Suits .add ([t, id, x, y, width, height] ++ fill.toList) .rect := suits_named named
  have admits : Verb.Admits .rect ([t, id, x, y, width, height] ++ fill.toList).length .add := by
    cases fill <;> simp [Verb.Admits]
  refine .number suits admits (by simp [Verb.numbers]) fun a first => ?_
  refine .number suits admits (by simp [Verb.numbers]) fun b second => ?_
  refine .number suits admits (by simp [Verb.numbers]) fun c third => ?_
  refine .number suits admits (by simp [Verb.numbers]) fun d fourth => ?_
  have encoded : Encoded .add ([t, id, x, y, width, height] ++ fill.toList) _ := .rect named first second third fourth
  cases fill with
  | none => exact .encoded encoded
  | some fill => exact .encoded encoded

theorem judged_add : Judged .add args finish (encode .add args finish) := by
  cases args with
  | nil =>
    refine .miscounted ?_ ?_
    · rintro ⟨_, first, head, _⟩
      cases head
    · rintro ⟨kind, suits, _⟩
      obtain ⟨first, head, _⟩ := suits rfl
      cases head
  | cons t rest =>
    simp only [encode]
    cases found : Kind.ofName? t.name with
    | none => exact .misnamed rfl rfl (Kind.ofName?_none.mp found)
    | some kind =>
      have named := Kind.ofName?_iff.mp found
      cases kind with
      | circle =>
        rcases rest with _ | ⟨id, _ | ⟨cx, _ | ⟨cy, _ | ⟨r, _ | ⟨fill, _ | _⟩⟩⟩⟩⟩
        case cons.cons.cons.cons.nil => exact judged_circle named none
        case cons.cons.cons.cons.cons.nil => exact judged_circle named (some fill)
        all_goals exact judged_add_miscounted named (by simp [Verb.Admits])
      | rect =>
        rcases rest with _ | ⟨id, _ | ⟨x, _ | ⟨y, _ | ⟨width, _ | ⟨height, _ | ⟨fill, _ | _⟩⟩⟩⟩⟩⟩
        case cons.cons.cons.cons.cons.nil => exact judged_rect named none
        case cons.cons.cons.cons.cons.cons.nil => exact judged_rect named (some fill)
        all_goals exact judged_add_miscounted named (by simp [Verb.Admits])

theorem encode_judged : Judged verb args finish (encode verb args finish) := by
  -- every number that a verb takes is checked, and only behind that the program is made
  cases verb with
  | add => exact judged_add
  | remove =>
    rcases args with _ | ⟨id, _ | _⟩
    case cons.nil => exact .encoded .remove
    all_goals exact judged_miscounted nofun (by simp [Verb.Admits])
  | stop =>
    rcases args with _ | ⟨id, _ | _⟩
    case cons.nil => exact .encoded .stop
    all_goals exact judged_miscounted nofun (by simp [Verb.Admits])
  | pin =>
    rcases args with _ | ⟨id, _ | ⟨x, _ | ⟨y, _ | _⟩⟩⟩
    case cons.cons.cons.nil =>
      refine .numbers .circle nofun rfl (by simp [Verb.numbers]) fun xs read => ?_
      obtain _ | ⟨second, _ | ⟨first, _ | _⟩⟩ := read
      exact .encoded (.pin first second)
    all_goals exact judged_miscounted nofun (by simp [Verb.Admits])
  | rotate =>
    rcases args with _ | ⟨id, _ | ⟨angle, _ | ⟨rate, _ | _⟩⟩⟩
    case cons.cons.nil =>
      refine .numbers .circle nofun (by simp [Verb.Admits]) (by simp [Verb.numbers]) fun xs read => ?_
      obtain _ | ⟨first, _ | _⟩ := read
      exact .encoded (.turn first)
    case cons.cons.cons.nil =>
      refine .numbers .circle nofun (by simp [Verb.Admits]) (by simp [Verb.numbers]) fun xs read => ?_
      obtain _ | ⟨second, _ | ⟨first, _ | _⟩⟩ := read
      exact .encoded (.rotate first second)
    all_goals exact judged_miscounted nofun (by simp [Verb.Admits])
  | move =>
    rcases args with _ | ⟨id, _ | ⟨vx, _ | ⟨vy, _ | _⟩⟩⟩
    case cons.cons.cons.nil =>
      refine .numbers .circle nofun rfl (by simp [Verb.numbers]) fun xs read => ?_
      obtain _ | ⟨second, _ | ⟨first, _ | _⟩⟩ := read
      exact .encoded (.move first second)
    all_goals exact judged_miscounted nofun (by simp [Verb.Admits])
  | modify =>
    rcases args with _ | ⟨id, _ | ⟨t, _ | ⟨u, _ | ⟨v, _ | ⟨w, _ | _⟩⟩⟩⟩⟩
    case cons.cons.cons.cons.nil =>
      refine .numbers .circle nofun (by simp [Verb.Admits]) (by simp [Verb.numbers]) fun xs read => ?_
      obtain _ | ⟨third, _ | ⟨second, _ | ⟨first, _ | _⟩⟩⟩ := read
      exact .encoded (.modify first second third)
    case cons.cons.cons.cons.cons.nil =>
      refine .numbers .circle nofun (by simp [Verb.Admits]) (by simp [Verb.numbers]) fun xs read => ?_
      obtain _ | ⟨fourth, _ | ⟨third, _ | ⟨second, _ | ⟨first, _ | _⟩⟩⟩⟩ := read
      exact .encoded (.modifyFour first second third fourth)
    all_goals exact judged_miscounted nofun (by simp [Verb.Admits])
  | bind =>
    rcases args with _ | ⟨parent, _ | ⟨child, _ | ⟨x, _ | ⟨y, _ | _⟩⟩⟩⟩
    case cons.cons.cons.cons.nil =>
      refine .numbers .circle nofun rfl (by simp [Verb.numbers]) fun xs read => ?_
      obtain _ | ⟨second, _ | ⟨first, _ | _⟩⟩ := read
      exact .encoded (.bind first second)
    all_goals exact judged_miscounted nofun (by simp [Verb.Admits])
  | display =>
    cases args with
    | nil => exact judged_miscounted nofun (by simp [Verb.Admits])
    | cons t ts => exact .encoded .display

-- What the mistake in a verb's arguments tells. Of the three codes one applies, and it tells where to look.
structure Blames (verb : Verb) (args : List Token) (finish : Token) (m : Mistake) : Prop where
  kind : m.code = "C001" ↔ Misnamed verb args
  count : m.code = "C002" ↔ ¬ Misnamed verb args ∧ ¬ Counted verb args
  number : m.code = "C003" ↔ ¬ Misnamed verb args ∧ Counted verb args
  atKind : m.code = "C001" → args.head?.map Token.position = some m.position
  atLast : m.code = "C002" → m.position = (args.getLast?.getD finish).position
  atNumber : m.code = "C003" → ∃ kind, Suits verb args kind ∧
    ∃ t ∈ verb.numbers kind args, (∀ x, t.kind ≠ .number x) ∧ m.position = t.position

theorem Suits.not_misnamed (suits : Suits verb args kind) : ¬ Misnamed verb args := by
  rintro ⟨adds, t, head, nameless⟩
  obtain ⟨t', head', named⟩ := suits adds
  cases head.symm.trans head'
  exact nameless kind named

theorem Suits.numbers_eq {kind' : Kind} (suits : Suits verb args kind) (suits' : Suits verb args kind') :
    verb.numbers kind args = verb.numbers kind' args := by
  cases verb with
  | add =>
    obtain ⟨t, head, named⟩ := suits rfl
    obtain ⟨t', head', named'⟩ := suits' rfl
    cases head.symm.trans head'
    rw [Kind.name_inj (named.symm.trans named')]
  | _ => rfl

theorem Judged.blames (judged : Judged verb args finish (.error m)) : Blames verb args finish m := by
  cases judged with
  | @misnamed t adds head nameless =>
    have misnamed : Misnamed verb args := ⟨adds, t, head, nameless⟩
    constructor <;> simp [Mistake.code, Mistake.Cause.code, misnamed, head]
  | miscounted named wrong =>
    constructor <;> simp [Mistake.code, Mistake.Cause.code, wrongCount, named, wrong]
  | @mistyped kind t suits admits among other =>
    have named := suits.not_misnamed
    have counted : Counted verb args := ⟨kind, suits, admits⟩
    have place : ∃ kind, Suits verb args kind ∧ ∃ u ∈ verb.numbers kind args,
        (∀ x, u.kind ≠ .number x) ∧ t.position = u.position := ⟨kind, suits, t, among, other, rfl⟩
    constructor <;> simp [Mistake.code, Mistake.Cause.code, named, counted, place]

theorem Judged.encodes (judged : Judged verb args finish (.ok program)) : Encoded verb args program := by
  cases judged with
  | encoded encoded => exact encoded

theorem Judged.accepts {result : Except Mistake Program} (judged : Judged verb args finish result) :
    (∃ program, result = .ok program) ↔ WellFormed verb args := by
  constructor
  · rintro ⟨program, rfl⟩
    exact judged.encodes.wellFormed
  · rintro ⟨kind, suits, admits, numbers⟩
    cases judged with
    | encoded => exact ⟨_, rfl⟩
    | misnamed adds head nameless => exact absurd ⟨adds, _, head, nameless⟩ suits.not_misnamed
    | miscounted _ wrong => exact absurd ⟨kind, suits, admits⟩ wrong
    | mistyped suits' _ among other =>
      rw [suits'.numbers_eq suits] at among
      obtain ⟨x, number⟩ := numbers _ among
      exact absurd number (other x)

end Command

section Collecting

variable {ε α : Type} {results : List (Except ε α)}

theorem collect_ok_cons (a : α) : collect (.ok a :: results) = (a :: ·) <$> collect results := by
  simp only [collect, List.filterMap_cons, Except.toOption]
  split <;> rename_i none <;> simp only [none] <;> rfl

theorem collect_ok (all : List α) : collect (all.map (Except.ok (ε := ε))) = .ok all := by
  induction all with
  | nil => rfl
  | cons a all ih =>
    rw [List.map_cons, collect_ok_cons, ih]
    rfl

theorem mem_collect_error {errors : List ε} (collected : collect results = .error errors) {e : ε} (member : e ∈ errors) :
    .error e ∈ results := by
  unfold collect at collected
  dsimp only at collected
  split at collected
  · cases collected
  · cases collected
    obtain ⟨result, among, own⟩ := List.mem_filterMap.mp member
    cases result with
    | error e' =>
      cases own
      exact among
    | ok a => cases own

theorem collect_cases (results : List (Except ε α)) : match collect results with
    | .ok all => results = all.map .ok ∧ results.mapM id = .ok all
    | .error errors => ∃ first rest, errors = first :: rest ∧ results.mapM id = .error first := by
  induction results with
  | nil => exact ⟨rfl, rfl⟩
  | cons result results ih =>
    cases result with
    | error e => exact ⟨e, _, rfl, rfl⟩
    | ok a =>
      rw [collect_ok_cons]
      cases collected : collect results with
      | ok all =>
        rw [collected] at ih
        obtain ⟨same, mapped⟩ := ih
        refine ⟨congrArg (List.cons _) same, ?_⟩
        rw [List.mapM_cons, mapped]
        rfl
      | error errors =>
        rw [collected] at ih
        obtain ⟨first, rest, same, mapped⟩ := ih
        refine ⟨first, rest, same, ?_⟩
        rw [List.mapM_cons, mapped]
        rfl

end Collecting

namespace Token

theorem item_token {b : UInt8} {bs : List UInt8} {kind : TokenKind} (found : (item b bs).1 = .token kind) :
    kind ≠ .finish := by
  unfold item Item.ofChunk at found
  rintro rfl
  split at found
  · split at found <;> cases found
  · split at found
    · split at found <;> cases found
    · split at found
      · split at found <;> cases found
      · dsimp only at found
        split at found
        · split at found <;> cases found
        · cases found

theorem entry_token {item : Item} {taken : List UInt8} {p : Position} {t : Token}
    (made : .ok t ∈ (item.entry taken p).toList) : item = .token t.kind := by
  cases item with
  | token kind =>
    simp only [Item.entry, Option.toList_some, List.mem_singleton, Except.ok.injEq] at made
    subst made
    rfl
  | comment => simp [Item.entry] at made
  | mistake cause => simp [Item.entry] at made

theorem entries_row (p : Position) (bs : List UInt8) : ∃ init finish, entries p bs = init ++ [.ok finish] ∧
    finish.kind = .finish ∧ ∀ t, .ok t ∈ init → t.kind ≠ .finish := by
  fun_induction entries p bs with
  | case1 p => exact ⟨[], _, rfl, rfl, by simp⟩
  | case2 p b bs blank ih => exact ih
  | case3 p b bs solid found taken ih =>
    obtain ⟨init, finish, same, last, inner⟩ := ih
    refine ⟨(found.1.entry taken p).toList ++ init, finish, by rw [same, List.append_assoc], last, ?_⟩
    intro t member
    rcases List.mem_append.mp member with first | later
    · exact item_token (entry_token first)
    · exact inner t later

end Token

section Lines

variable {line : Nat} {text : String} {tokens row : List Token} {finish : Token} {mistakes : List Mistake}

theorem scan_ok (read : tokenize line text = .ok tokens) :
    Token.scan line text = tokens.map .ok ∧ (Token.scan line text).mapM id = .ok tokens := by
  have cases := collect_cases (Token.scan line text)
  rwa [show collect (Token.scan line text) = .ok tokens from read] at cases

theorem tokenize_row (read : tokenize line text = .ok tokens) : ∃ row finish, tokens = row ++ [finish] ∧
    finish.kind = .finish ∧ ∀ t ∈ row, t.kind ≠ .finish := by
  obtain ⟨init, finish, same, last, inner⟩ := Token.entries_row ⟨line, 1⟩ (Text.bytes text)
  have joined : tokens.map Except.ok = init ++ [.ok finish] := (scan_ok read).1.symm.trans same
  obtain ⟨row, rest, rfl, rfl, ended⟩ := List.map_eq_append_iff.mp joined
  obtain ⟨_, rfl, own⟩ := List.map_eq_singleton_iff.mp ended
  cases own
  exact ⟨row, finish, rfl, last, fun t member => inner t (List.mem_map_of_mem member)⟩

theorem parseLine_tokens (read : tokenize line text = .ok (row ++ [finish])) :
    parseLine line text = Command.ofTokens row finish := by
  unfold parseLine
  rw [(scan_ok read).2]
  simp [bind, Except.bind]

theorem parseLine_mistakes (read : tokenize line text = .error mistakes) :
    ∃ first rest, mistakes = first :: rest ∧ parseLine line text = .error first := by
  have cases := collect_cases (Token.scan line text)
  rw [show collect (Token.scan line text) = .error mistakes from read] at cases
  obtain ⟨first, rest, same, stopped⟩ := cases
  refine ⟨first, rest, same, ?_⟩
  unfold parseLine
  rw [stopped]
  rfl

end Lines

namespace Command

variable {row args : List Token} {head finish : Token}

theorem verb?_iff {verb : Verb} : verb? head = some verb ↔ head.kind = .word verb.word := by
  unfold verb?
  split
  · rename_i w kind
    rw [Verb.ofWord?_iff, kind, TokenKind.word.injEq]
  · rename_i other
    simp only [reduceCtorEq, false_iff]
    exact other _

theorem literals (inner : ∀ t ∈ row, t.kind ≠ .finish) :
    List.Forall₂ (fun t v => literal? t = some v) row (row.filterMap literal?) := by
  induction row with
  | nil => exact .nil
  | cons t row ih =>
    have later := ih fun u member => inner u (by simp [member])
    have own : ∃ v, literal? t = some v := by
      have here := inner t (by simp)
      unfold literal?
      split <;> simp_all
    obtain ⟨v, value⟩ := own
    rw [List.filterMap_cons_some value]
    exact .cons value later

inductive Reads : List Token → Token → Except Mistake Program → Prop where
  | blank {finish : Token} : Reads [] finish (.ok [])
  | verb {head finish : Token} {args : List Token} {result : Except Mistake Program} {verb : Verb} :
      head.kind = .word verb.word → ((∃ program, result = .ok program) ↔ WellFormed verb args) →
      (∀ program, result = .ok program → Encoded verb args program) →
      (∀ m, result = .error m → Blames verb args finish m) → Reads (head :: args) finish result
  | raw {head finish : Token} {args : List Token} {program : Program} :
      (∀ verb : Verb, head.kind ≠ .word verb.word) →
      List.Forall₂ (fun t v => literal? t = some v) (head :: args) program →
      Reads (head :: args) finish (.ok program)

theorem ofTokens_verb {verb : Verb} (word : head.kind = .word verb.word) :
    ofTokens (head :: args) finish = encode verb args finish := by
  simp only [ofTokens, verb?_iff.mpr word]

theorem ofTokens_raw (other : ∀ verb : Verb, head.kind ≠ .word verb.word) :
    ofTokens (head :: args) finish = .ok ((head :: args).filterMap literal?) := by
  have none : verb? head = none := by
    rw [Option.eq_none_iff_forall_ne_some]
    exact fun verb found => other verb (verb?_iff.mp found)
  simp only [ofTokens, none]

theorem ofTokens_reads (inner : ∀ t ∈ row, t.kind ≠ .finish) : Reads row finish (ofTokens row finish) := by
  cases row with
  | nil => exact .blank
  | cons head args =>
    by_cases verbal : ∃ verb : Verb, head.kind = .word verb.word
    · obtain ⟨verb, word⟩ := verbal
      rw [ofTokens_verb word]
      exact .verb word encode_judged.accepts (fun _ made => (made ▸ encode_judged).encodes)
        fun _ made => (made ▸ encode_judged).blames
    · have other : ∀ verb : Verb, head.kind ≠ .word verb.word := fun verb word => verbal ⟨verb, word⟩
      rw [ofTokens_raw other]
      exact .raw other (literals inner)

end Command

-- A line with lexical mistakes has the first of them. Any other line is a row of tokens, and reads as that.
theorem parseLine_reads (line : Nat) (text : String) : match tokenize line text with
    | .error mistakes => ∃ first rest, mistakes = first :: rest ∧ parseLine line text = .error first
    | .ok tokens => ∃ row finish, tokens = row ++ [finish] ∧ finish.kind = .finish ∧
        Command.Reads row finish (parseLine line text) := by
  cases read : tokenize line text with
  | error mistakes => exact parseLine_mistakes read
  | ok tokens =>
    obtain ⟨row, finish, rfl, last, inner⟩ := tokenize_row read
    refine ⟨row, finish, rfl, last, ?_⟩
    rw [parseLine_tokens read]
    exact Command.ofTokens_reads inner

end Diorama
