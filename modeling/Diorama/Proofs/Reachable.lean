import Diorama.Proofs.Steps
import Diorama.Scene
import Diorama.Session.Text

namespace Diorama

namespace Command

variable {α : Type} {program : Program}

def ReadsPlain (read : Except Mistake Program) : Prop := ∀ program, read = .ok program → program.Plain

theorem readsPlain_ok (plain : program.Plain) : ReadsPlain (.ok program) := by
  intro program same
  cases same
  exact plain

theorem readsPlain_error {m : Mistake} : ReadsPlain (.error m) := by
  intro program read
  cases read

theorem readsPlain_bind {first : Except Mistake α} {next : α → Except Mistake Program}
    (later : ∀ a, first = .ok a → ReadsPlain (next a)) : ReadsPlain (first >>= next) := by
  intro program read
  cases result : first with
  | error m =>
    rw [result] at read
    cases read
  | ok a =>
    rw [result] at read
    exact later a result program read

theorem addition_plain {id : Token} {geometry : Geometry} {fill : Option Token} :
    (addition id geometry fill).Plain := by
  simp [addition, Program.Plain, idValue, Value.type]

theorem encodeAdd_plain {kind : Kind} {args : List Token} {wrong : Mistake} :
    ReadsPlain (encodeAdd kind args wrong) := by
  have circle (id : Token) (fill : Option Token) (cx cy r : Token) : ReadsPlain (do
      pure (addition id (.circle (← cx.number) (← cy.number) (← r.number)) fill)) :=
    readsPlain_bind fun _ _ => readsPlain_bind fun _ _ => readsPlain_bind fun _ _ =>
      readsPlain_ok addition_plain
  have rect (id : Token) (fill : Option Token) (x y width height : Token) : ReadsPlain (do
      pure (addition id (.rect (← x.number) (← y.number) (← width.number) (← height.number)) fill)) :=
    readsPlain_bind fun _ _ => readsPlain_bind fun _ _ => readsPlain_bind fun _ _ =>
      readsPlain_bind fun _ _ => readsPlain_ok addition_plain
  unfold encodeAdd
  dsimp only
  split
  · exact circle _ _ _ _ _
  · exact circle _ _ _ _ _
  · exact rect _ _ _ _ _ _
  · exact rect _ _ _ _ _ _
  · exact readsPlain_error

theorem numberValues_plain {ts : List Token} {rest : Program} (plain : rest.Plain) :
    ReadsPlain (do pure ((← numberValues ts) ++ rest)) := by
  refine readsPlain_bind fun values read => readsPlain_ok ?_
  intro v member
  rcases List.mem_append.mp member with number | later
  · unfold numberValues at read
    cases numbers : ts.mapM Token.number with
    | error m =>
      rw [numbers] at read
      cases read
    | ok xs =>
      rw [numbers] at read
      cases read
      obtain ⟨x, _, rfl⟩ := List.mem_map.mp number
      simp [Value.type]
  · exact plain v later

theorem encode_plain {verb : Verb} {args : List Token} {finish : Token} :
    ReadsPlain (encode verb args finish) := by
  unfold encode
  split
  · split
    · exact encodeAdd_plain
    · exact readsPlain_error
  all_goals first
    | exact readsPlain_error
    | exact readsPlain_ok (by simp [Program.Plain, idValue, Value.type])
    | exact numberValues_plain (by simp [Program.Plain, idValue, Value.type])

theorem ofTokens_plain {tokens : List Token} {finish : Token} : ReadsPlain (ofTokens tokens finish) := by
  unfold ofTokens
  split
  · exact readsPlain_ok (by simp [Program.Plain])
  · split
    · exact encode_plain
    · refine readsPlain_ok ?_
      intro v member
      obtain ⟨t, _, read⟩ := List.mem_filterMap.mp member
      unfold literal? at read
      split at read <;> cases read <;> simp [Value.type]

end Command

theorem parseLine_plain {line : Nat} {text : String} : Command.ReadsPlain (parseLine line text) := by
  refine Command.readsPlain_bind fun tokens _ => ?_
  split
  · exact Command.ofTokens_plain
  · exact Command.readsPlain_ok (by simp [Program.Plain])

theorem collect_mem {ε α : Type} {results : List (Except ε α)} {all : List α} {a : α}
    (collected : collect results = .ok all) (member : a ∈ all) : .ok a ∈ results := by
  unfold collect at collected
  dsimp only at collected
  split at collected
  · cases collected
    obtain ⟨result, among, read⟩ := List.mem_filterMap.mp member
    cases result with
    | error e => cases read
    | ok b =>
      cases read
      exact among
  · cases collected

theorem parseScript_plain {text : String} {programs : List Program}
    (read : parseScript text = .ok programs) : ∀ program ∈ programs, program.Plain := by
  intro program member
  simp only [parseScript, bind, Except.bind] at read
  split at read
  · cases read
  · rename_i all collected
    cases read
    have among := collect_mem collected (List.mem_filter.mp member).1
    obtain ⟨entry, _, parsed⟩ := List.mem_map.mp among
    exact parseLine_plain program parsed

inductive Call where
  | exec (program : Program)
  | line (text : String)
  | script (text : String)
  | tick (seconds : Float)

def Call.Plain : Call → Prop
  | .exec program => program.Plain
  | .line _ | .script _ | .tick _ => True

namespace Session

variable {σ : Type}

def opening (surface : σ) (display : Display) (catchUp : Nat) : Session σ :=
  (Session.new .standard surface display).setCatchUp catchUp

theorem opening_sound {surface : σ} {display : Display} {catchUp : Nat} :
    (opening surface display catchUp).Sound :=
  ⟨Registry.forest_empty, fun _ _ found => .inr found, Std.ExtTreeMap.mem_iff_isSome_getElem?.mpr rfl⟩

variable [Surface σ] {s : Session σ} {surface : σ}

def after (s : Session σ) : Call → Session σ
  | .exec program => (s.exec program).2
  | .line text => (s.execLine text).2
  | .script text => (s.execScript text).2
  | .tick seconds => s.tick seconds

inductive Reachable (surface : σ) : Session σ → Prop where
  | opening (display : Display) (catchUp : Nat) : Reachable surface (opening surface display catchUp)
  | call {s : Session σ} {c : Call} : Reachable surface s → c.Plain → Reachable surface (s.after c)

def fired (firings : List Firing) (s : Session σ) : Session σ := firings.foldl (fun s f => s.fire f) s

theorem fired_keeps {I : Session σ → Prop} (fires : ∀ s f, I s → I (s.fire f)) (holds : I s)
    (firings : List Firing) : I (s.fired firings) := by
  induction firings generalizing s with
  | nil => exact holds
  | cons f rest ih => exact ih (fires s f holds)

theorem tick_keeps {I : Session σ → Prop} (seconds : Float)
    (passes : ∀ limit, I (s.timed (s.timeline.advance limit).2)) (fires : ∀ s f, I s → I (s.fire f)) :
    I (s.tick seconds) :=
  fired_keeps fires (passes _) _

def execVisits : List Program → Session σ → List (Session σ)
  | [], _ => []
  | program :: rest, s =>
    Machine.visits program ⟨[], s⟩ ++ match s.exec program with
      | (.ok _, s) => execVisits rest s
      | (.error _, _) => []

def firedVisits : List Firing → Session σ → List (Session σ)
  | [], _ => []
  | f :: rest, s => s.fire f :: firedVisits rest (s.fire f)

-- The sessions that a call goes through: one after each instruction, and while time passes one after
-- each firing.
def visited (s : Session σ) : Call → List (Session σ)
  | .exec program => s.execVisits [program]
  | .line text =>
    match parseLine 1 text with
    | .ok program => s.execVisits [program]
    | .error _ => []
  | .script text =>
    match parseScript text with
    | .ok programs => s.execVisits programs
    | .error _ => []
  | .tick seconds =>
    let (firings, timeline) := s.timeline.advance (s.timeline.now.plus ((Duration.ofSeconds? seconds).getD 0))
    s.timed timeline :: (s.timed timeline).firedVisits firings

inductive ReachableThrough (P : Session σ → Prop) (surface : σ) : Session σ → Prop where
  | opening (display : Display) (catchUp : Nat) : ReachableThrough P surface (opening surface display catchUp)
  | call {s : Session σ} {c : Call} : ReachableThrough P surface s → c.Plain → (∀ s' ∈ s.visited c, P s') →
      ReachableThrough P surface (s.after c)

variable {P : Session σ → Prop}

theorem execAll_leads {programs : List Program} (sound : s.Sound)
    (plain : ∀ program ∈ programs, program.Plain) (through : ∀ s' ∈ s.execVisits programs, P s') :
    Path P s (s.execAll programs).2 := by
  induction programs generalizing s with
  | nil => exact .refl
  | cons program rest ih =>
    simp only [execVisits, List.forall_mem_append] at through
    have first : Path P s (s.exec program).2 := by
      have led := Machine.execute_leads sound (List.forall_mem_nil _) (plain program (by simp)) through.1
      unfold exec run
      rw [List.drop_zero]
      cases ran : Machine.execute Machine.redraw program ⟨[], s⟩ with
      | ok u m =>
        rw [ran] at led
        exact led.2
      | error e m =>
        rw [ran] at led
        exact led
    unfold execAll
    split
    · rename_i ran
      rw [ran] at first through
      exact first.trans (ih (sound.leads first) (fun p member => plain p (by simp [member])) through.2)
    · rename_i ran
      rw [ran] at first
      exact first

theorem exec_leads {program : Program} (sound : s.Sound) (plain : program.Plain)
    (through : ∀ s' ∈ s.execVisits [program], P s') : Path P s (s.exec program).2 := by
  have led := execAll_leads sound (by simpa using plain) through
  unfold execAll at led
  split at led
  · rename_i ran
    rw [ran]
    exact led
  · rename_i ran
    rw [ran]
    exact led

theorem fired_leads {firings : List Firing} (through : ∀ s' ∈ s.firedVisits firings, P s') :
    Path P s (s.fired firings) := by
  induction firings generalizing s with
  | nil => exact .refl
  | cons f rest ih =>
    simp only [firedVisits, List.forall_mem_cons] at through
    exact .head ⟨.fire f, through.1⟩ (ih through.2)

theorem after_leads {c : Call} (sound : s.Sound) (plain : c.Plain) (through : ∀ s' ∈ s.visited c, P s') :
    Path P s (s.after c) := by
  cases c with
  | exec program => exact exec_leads sound plain through
  | line text =>
    simp only [visited, after, execLine] at through ⊢
    cases read : parseLine 1 text with
    | error m => exact .refl
    | ok program =>
      rw [read] at through
      exact exec_leads sound (parseLine_plain program read) through
  | script text =>
    simp only [visited, after, execScript] at through ⊢
    cases read : parseScript text with
    | error ms => cases ms <;> exact .refl
    | ok programs =>
      rw [read] at through
      exact execAll_leads sound (parseScript_plain read) through
  | tick seconds =>
    simp only [visited, List.forall_mem_cons] at through
    exact .head ⟨.pass _, through.1⟩ (fired_leads through.2)

theorem ReachableThrough.sound (reached : ReachableThrough P surface s) : s.Sound := by
  induction reached with
  | opening => exact opening_sound
  | call _ plain through sound => exact sound.leads (after_leads sound plain through)

theorem ReachableThrough.invariant {I : Session σ → Prop} (reached : ReachableThrough P surface s)
    (opens : ∀ display catchUp, I (Session.opening surface display catchUp))
    (keeps : ∀ s s', s.Sound → I s → s.Happens s' → P s' → I s') : I s := by
  induction reached with
  | opening display catchUp => exact opens display catchUp
  | call earlier plain through holds =>
    exact earlier.sound.keeps keeps holds (after_leads earlier.sound plain through)

theorem Reachable.through (reached : Reachable surface s) : ReachableThrough (fun _ => True) surface s := by
  induction reached with
  | opening display catchUp => exact .opening display catchUp
  | call _ plain ih => exact .call ih plain fun _ _ => trivial

theorem Reachable.sound (reached : Reachable surface s) : s.Sound := reached.through.sound

theorem Reachable.invariant {I : Session σ → Prop} (reached : Reachable surface s)
    (opens : ∀ display catchUp, I (Session.opening surface display catchUp))
    (keeps : ∀ s s', s.Sound → I s → s.Happens s' → I s') : I s :=
  reached.through.invariant opens fun s s' sound holds happens _ => keeps s s' sound holds happens

theorem reachable_checkGraph (reached : Reachable surface s) :
    s.shapes.checkGraph = .ok () ∧ s.shapes.Forest :=
  ⟨reached.sound.forest.checkGraph_ok, reached.sound.forest⟩

def Sample.dot (x : Float) : Shape := .ofGeometry (.circle x 0 1)

def Sample.forged : Shape := { dot 0 with links := ⟨some "ghost", ["b", "b", "a"]⟩ }

-- Binds `b` to a shape whose value carried forged links, adds a copy of that record under a new id,
-- and fails when it asks for the opposite link.
def Sample.ring : Program := [.shape forged, .string "a", .word "add", .shape (dot 1), .string "b",
  .word "add", .number 1, .number 1, .string "b", .string "a", .word "bind", .word "a", .string "c",
  .word "add", .number 1, .number 1, .string "a", .string "b", .word "bind"]

theorem Sample.ring_plain : ring.Plain := by simp [Program.Plain, ring, Value.type]

def Sample.ringSession : Session Scene := (opening Scene.initial .discarded 1).after (.exec ring)

theorem reachable_checkGraph_ring : Reachable Scene.initial Sample.ringSession ∧
    (Sample.ringSession.shapes.checkGraph = .ok () ∧ Sample.ringSession.shapes.Forest) :=
  have reached := Reachable.call (c := .exec Sample.ring) (.opening .discarded 1) Sample.ring_plain
  ⟨reached, reachable_checkGraph reached⟩

-- A program that fails leaves the session exactly as its instructions before the failing one leave
-- it, and the failing one changes nothing.
theorem exec_error_eq_take {program : Program} {e : Fault} {s' : Session σ}
    (reached : Reachable surface s) (plain : program.Plain) (failed : s.exec program = (.error e, s')) :
    ∃ k left, ∃ short : k < program.length, s.exec (program.take k) = (.ok left, s') ∧
      s'.run [program[k]] 0 left = (.error e, s') := by
  unfold exec run at failed
  rw [List.drop_zero] at failed
  cases ran : Machine.execute Machine.redraw program ⟨[], s⟩ with
  | ok a m =>
    rw [ran] at failed
    cases failed
  | error e' m =>
    rw [ran] at failed
    cases failed
    obtain ⟨k, left, short, before, failing⟩ :=
      Machine.execute_failing reached.sound (by simp) plain ran
    refine ⟨k, left, short, ?_, ?_⟩
    · unfold exec run
      rw [List.drop_zero, before]
    · unfold run
      rw [List.drop_zero, Machine.execute_cons, failing]

theorem exec_error_eq_take_ring : ∃ e, ∃ s' : Session Scene,
    (opening Scene.initial .discarded 1).exec Sample.ring = (.error e, s') ∧
    ∃ k left, ∃ short : k < Sample.ring.length,
      (opening Scene.initial .discarded 1).exec (Sample.ring.take k) = (.ok left, s') ∧
      s'.run [Sample.ring[k]] 0 left = (.error e, s') := by
  have failing : ((opening Scene.initial .discarded 1).exec Sample.ring).1.isOk = false := by
    decide +kernel
  cases ran : (opening Scene.initial .discarded 1).exec Sample.ring with
  | mk result s' =>
    rw [ran] at failing
    cases result with
    | ok left => cases failing
    | error e =>
      exact ⟨e, s', rfl, exec_error_eq_take (.opening .discarded 1) Sample.ring_plain ran⟩

end Session
end Diorama
