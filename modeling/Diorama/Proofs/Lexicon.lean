import Diorama.Proofs.Naming
import Diorama.Proofs.Reentry
import Diorama.Proofs.Stopping

namespace Diorama

def Dictionary.extended (definitions : List (String × Value)) (words : Dictionary) : Dictionary :=
  definitions.foldl (fun words d => words.insert d.1 d.2) words

theorem Dictionary.extended_append (first later : List (String × Value)) (words : Dictionary) :
    extended (first ++ later) words = extended later (extended first words) := List.foldl_append

theorem Dictionary.extended_found {definitions : List (String × Value)} {words : Dictionary} {w : String} {v : Value}
    (found : (extended definitions words)[w]? = some v) : words[w]? = some v ∨ (w, v) ∈ definitions := by
  induction definitions generalizing words with
  | nil => exact .inl found
  | cons d rest ih =>
    rcases ih found with earlier | later
    · rw [Std.ExtTreeMap.getElem?_insert] at earlier
      split at earlier
      · rename_i own
        cases earlier
        cases Std.compare_eq_iff_eq.mp own
        exact .inr List.mem_cons_self
      · exact .inl earlier
    · exact .inr (List.mem_cons_of_mem d later)

def Session.Lexical {σ : Type} (s : Session σ) : Prop :=
  ∀ (w : String) (v : Value), s.words[w]? = some v → v.IsData ∨ Library.standard.load[w]? = some v

theorem Session.Lexical.congr {σ : Type} {s s' : Session σ} (lexical : s.Lexical) (same : s'.words = s.words) :
    s'.Lexical := by
  unfold Lexical
  rw [same]
  exact lexical

theorem Session.Lexical.define {σ : Type} {s : Session σ} {v : Value} (lexical : s.Lexical) (name : String)
    (data : v.IsData) : (s.define name v).Lexical := by
  intro w u found
  have extended : (Dictionary.extended [(name, v)] s.words)[w]? = some u := found
  rcases Dictionary.extended_found extended with earlier | made
  · exact lexical w u earlier
  · cases List.mem_singleton.mp made
    exact .inl data

namespace Machine

section Definitions

variable {σ : Type} {m : Machine σ} {u v : Value} {stack : Stack} {program : Program}

-- The definition that an instruction carries out, from its meaning and the stack that it finds.
def carried? : Value × Stack → Option (String × Value)
  | (.primitive .define, .symbol name :: v :: _) => some (name, v)
  | _ => none

theorem carried?_other (other : u ≠ .primitive .define) : carried? (u, stack) = none := by
  unfold carried?
  split
  · rename_i same
    cases same
    exact absurd rfl other
  · rfl

theorem carried?_mem {d : String × Value} (carried : carried? (u, stack) = some d) : d.2 ∈ stack := by
  unfold carried? at carried
  split at carried
  · rename_i same
    cases same
    cases carried
    simp
  · cases carried

variable [Surface σ]

def definitions (program : Program) (m : Machine σ) : List (String × Value) :=
  (encounters program m).flatMap fun e => (carried? e).toList

theorem define_extends : (outcome (fun m => m.session.words) (perform Machine.redraw .define m)).2 =
    Dictionary.extended (carried? (.primitive .define, m.stack)).toList m.session.words := by
  obtain ⟨stack, s⟩ := m
  rcases stack with _ | ⟨head, _ | ⟨v, rest⟩⟩
  case nil => rfl
  case cons.nil => cases head <;> rfl
  case cons.cons => cases head <;> rfl

theorem instruct_extends (meaning : resolve m.session v = .ok u) :
    (outcome (fun m => m.session.words) (instruct Machine.redraw v m)).2 =
      Dictionary.extended (carried? (u, m.stack)).toList m.session.words := by
  rw [instruct_eq, meaning]
  by_cases defines : u = .primitive .define
  · subst defines
    exact define_extends
  · rw [carried?_other defines]
    cases u with
    | primitive p => exact perform_words fun same => defines (congrArg Value.primitive same)
    | _ => rfl

theorem execute_extends (program : Program) (m : Machine σ) :
    (outcome (fun m => m.session.words) (execute Machine.redraw program m)).2 =
      Dictionary.extended (definitions program m) m.session.words := by
  induction program generalizing m with
  | nil => rfl
  | cons v rest ih =>
    rw [execute_cons]
    unfold definitions encounters
    cases meaning : resolve m.session v with
    | error e =>
      rw [instruct_eq, meaning]
      rfl
    | ok u =>
      have first := instruct_extends meaning
      dsimp only
      rw [List.flatMap_cons, Dictionary.extended_append, ← first]
      cases instruct Machine.redraw v m with
      | error e m' => rfl
      | ok a m' => exact ih m'

theorem encounters_data {s : Session σ} (sound : s.Sound) (data : ∀ v ∈ stack, v.IsData) (plain : program.Plain) :
    ∀ e ∈ encounters program ⟨stack, s⟩, ∀ v ∈ e.2, v.IsData := by
  induction program generalizing s stack with
  | nil => simp [encounters]
  | cons v rest ih =>
    have settled := instruct_settles sound (plain v (by simp)) stack data
    unfold encounters
    cases resolve s v with
    | error e => simp
    | ok u =>
      refine List.forall_mem_cons.mpr ⟨data, ?_⟩
      cases ran : instruct Machine.redraw v ⟨stack, s⟩ with
      | error e m => simp
      | ok a m =>
        rw [ran] at settled
        have still : m.session.Sound := by
          cases settled.2 with
          | refl => exact sound
          | single happens => exact sound.happens happens
        exact ih still settled.1 fun u member => plain u (by simp [member])

theorem definitions_data {s : Session σ} (sound : s.Sound) (data : ∀ v ∈ stack, v.IsData) (plain : program.Plain) :
    ∀ d ∈ definitions program ⟨stack, s⟩, d.2.IsData := by
  intro d member
  obtain ⟨e, met, carried⟩ := List.mem_flatMap.mp member
  exact encounters_data sound data plain e met d.2 (carried?_mem (Option.mem_toList.mp carried))

end Definitions

end Machine

namespace Session

variable {σ : Type} [Surface σ] {s : Session σ} {surface : σ} {program : Program} {programs : List Program}
  {c : Call} {calls : List Call}

def defined : List Program → Session σ → List (String × Value)
  | [], _ => []
  | program :: rest, s =>
    Machine.definitions program ⟨[], s⟩ ++ match s.exec program with
      | (.ok _, s) => defined rest s
      | (.error _, _) => []

def execReturns : List Program → Session σ → List Stack
  | [], _ => []
  | program :: rest, s =>
    match s.exec program with
    | (.ok stack, s) => stack :: execReturns rest s
    | (.error _, _) => []

-- A run of the call returns this stack. What the lines of a script return is dropped.
def Returns (s : Session σ) (stack : Stack) : Call → Prop
  | .exec program => (s.exec program).1 = .ok stack
  | .line text => (s.execLine text).1 = .ok stack
  | .script text => ∃ programs, parseScript text = .ok programs ∧ stack ∈ s.execReturns programs
  | .tick _ => False

def afterAll (calls : List Call) (s : Session σ) : Session σ := calls.foldl (fun s c => s.after c) s

def definedBy : List Call → Session σ → List (String × Value)
  | [], _ => []
  | c :: rest, s => s.defined c.programs ++ definedBy rest (s.after c)

theorem Sound.exec (sound : s.Sound) (plain : program.Plain) : (s.exec program).2.Sound :=
  sound.leads (exec_leads (P := fun _ => True) sound plain fun _ _ => trivial)

theorem exec_extends :
    (s.exec program).2.words = Dictionary.extended (Machine.definitions program ⟨[], s⟩) s.words := by
  unfold exec run
  rw [List.drop_zero, ← Machine.execute_extends]
  cases Machine.execute Machine.redraw program ⟨[], s⟩ <;> rfl

theorem execAll_extends (programs : List Program) (s : Session σ) :
    (s.execAll programs).2.words = Dictionary.extended (s.defined programs) s.words := by
  induction programs generalizing s with
  | nil => rfl
  | cons program rest ih =>
    have first : (s.exec program).2.words = _ := exec_extends
    unfold execAll defined
    rw [Dictionary.extended_append, ← first]
    cases s.exec program with
    | mk result s' =>
      cases result with
      | ok stack => exact ih s'
      | error e => rfl

theorem exec_eq_execAll : (s.exec program).2 = (s.execAll [program]).2 := by
  unfold execAll
  split <;> simp_all [execAll]

theorem tick_words (sound : s.Sound) (seconds : Float) : (s.tick seconds).words = s.words := by
  have kept : (s.tick seconds).Sound ∧ (s.tick seconds).words = s.words := by
    refine tick_keeps (I := fun s' => s'.Sound ∧ s'.words = s.words) seconds ?_ ?_
    · exact fun limit => ⟨sound.happens (.pass limit), rfl⟩
    · rintro s' f ⟨sound', same⟩
      exact ⟨sound'.happens (.fire f), (fire_words sound' f).trans same⟩
  exact kept.2

theorem after_extends (sound : s.Sound) (c : Call) :
    (s.after c).words = Dictionary.extended (s.defined c.programs) s.words := by
  cases c with
  | exec program =>
    exact (congrArg Session.words exec_eq_execAll).trans (execAll_extends [program] s)
  | line text =>
    simp only [after, execLine, Call.programs]
    cases parseLine 1 text with
    | error m => rfl
    | ok program => exact (congrArg Session.words exec_eq_execAll).trans (execAll_extends [program] s)
  | script text =>
    simp only [after, execScript, Call.programs]
    cases parseScript text with
    | error ms => cases ms <;> rfl
    | ok programs => exact execAll_extends programs s
  | tick seconds => exact tick_words sound seconds

theorem Reachable.afterAll (reached : Reachable surface s) (plain : ∀ c ∈ calls, c.Plain) :
    Reachable surface (s.afterAll calls) := by
  induction calls generalizing s with
  | nil => exact reached
  | cons c rest ih =>
    exact ih (reached.call (plain c (by simp))) fun d member => plain d (by simp [member])

theorem afterAll_extends (reached : Reachable surface s) (plain : ∀ c ∈ calls, c.Plain) :
    (s.afterAll calls).words = Dictionary.extended (s.definedBy calls) s.words := by
  induction calls generalizing s with
  | nil => rfl
  | cons c rest ih =>
    have later := ih (reached.call (plain c (by simp))) fun d member => plain d (by simp [member])
    rw [after_extends reached.sound] at later
    unfold definedBy
    rw [Dictionary.extended_append]
    exact later

theorem defined_data (sound : s.Sound) (plain : ∀ program ∈ programs, program.Plain) :
    ∀ d ∈ s.defined programs, d.2.IsData := by
  induction programs generalizing s with
  | nil => exact List.forall_mem_nil _
  | cons program rest ih =>
    have first := Machine.definitions_data sound (List.forall_mem_nil _) (plain program (by simp))
    have still := sound.exec (plain program (by simp))
    refine List.forall_mem_append.mpr ⟨first, ?_⟩
    cases ran : s.exec program with
    | mk result s' =>
      rw [ran] at still
      cases result with
      | ok stack => exact ih still fun p member => plain p (by simp [member])
      | error e => exact List.forall_mem_nil _

theorem definedBy_data (reached : Reachable surface s) (plain : ∀ c ∈ calls, c.Plain) :
    ∀ d ∈ s.definedBy calls, d.2.IsData := by
  induction calls generalizing s with
  | nil => exact List.forall_mem_nil _
  | cons c rest ih =>
    have first := defined_data reached.sound (Call.programs_plain (plain c (by simp)))
    have later := ih (reached.call (plain c (by simp))) fun d member => plain d (by simp [member])
    exact List.forall_mem_append.mpr ⟨first, later⟩

def KeepsWords {α : Type} (x : Action σ α) : Prop := ∀ s, (outcome Session.words (x s)).2 = s.words

omit [Surface σ] in
theorem keepsWords_of_agree {α : Type} {x : Action σ α}
    (agree : ∀ words, Agree (fun s => (s, s.words)) (fun s : Session σ => (s, words)) x x) : KeepsWords x := by
  intro s
  have kept := agree s.words s s rfl
  generalize x s = result at kept
  cases result with
  | ok a s' => exact (Prod.mk.inj (Prod.mk.inj kept).2).2
  | error e s' => exact (Prod.mk.inj (Prod.mk.inj kept).2).2

theorem attach_keepsWords (parent child : String) (position : Float × Float) :
    KeepsWords (attach parent child position : Action σ Unit) := by
  refine keepsWords_of_agree fun words => agree_get fun s t same => ?_
  rw [(views_framed words).shapes same]
  refine (agree_ofExcept _).bind fun linked => agree_modify fun s t same => ?_
  obtain ⟨rfl, kept⟩ := Prod.mk.inj same
  have still : (s.attached parent child position linked).words = s.words := by cases linked <;> rfl
  exact congrArg (Prod.mk _) (still.trans kept)

theorem pinTop_keepsWords (id : String) (position : Float × Float) :
    KeepsWords (pinTop id position : Action σ String) := by
  refine keepsWords_of_agree fun words => agree_get fun s t same => ?_
  have views := views_framed (σ := σ) words
  rw [views.shapes same]
  refine (agree_ofExcept _).bind fun top => (views.update top _).bind fun _ => ?_
  exact (views.render top).bind fun _ => agree_pure top

theorem refit_keepsWords (id : String) (geometry : Geometry) : KeepsWords (refit id geometry : Action σ Unit) :=
  keepsWords_of_agree fun words =>
    ((views_framed words).shape id).bind fun _ => (views_framed words).register id _

theorem actAlone_keepsWords (id : String) (action : TaskAction) : KeepsWords (actAlone id action : Action σ Unit) := by
  refine keepsWords_of_agree fun words => ?_
  have views := views_framed (σ := σ) words
  cases action with
  | rotate step => exact views.rotateBy id step
  | translate dx dy => exact (views.update id _).bind fun _ => views.render id

end Session

namespace Machine

variable {σ α β : Type}

structure Sober (m : Machine σ) : Prop where
  data : ∀ v ∈ m.stack, v.IsData
  lexical : m.session.Lexical

-- A step that keeps a machine sober. One that fails leaves its session to the next program.
def Steady (step : Step σ α) : Prop := ∀ m, m.Sober → match step m with
  | .ok _ m' => m'.Sober
  | .error _ m' => m'.session.Lexical

section Steadiness

variable {R : α → Prop} {step : Step σ α} {next : α → Step σ β}

theorem Steady.bind (first : Steady step) (later : ∀ a, Steady (next a)) : Steady (step >>= next) := by
  intro m sober
  have between := first m sober
  cases ran : step m with
  | error e m' =>
    rw [ran] at between
    rw [Action.bind_error ran]
    exact between
  | ok a m' =>
    rw [ran] at between
    rw [Action.bind_ok ran]
    exact later a m' between

theorem steady_pure (a : α) : Steady (pure a : Step σ α) := fun _ sober => sober

theorem steady_take {take : Stack.Taking α} (takes : Stack.Takes Value.IsData take R)
    (later : ∀ a, R a → Steady (next a)) : Steady (onStack take >>= next) := by
  intro m sober
  cases taken : take m.stack with
  | error e rest =>
    have failed : onStack take m = .error e { m with stack := rest } := by simp [onStack, taken]
    rw [Action.bind_error failed]
    exact sober.lexical
  | ok a rest =>
    have took : onStack take m = .ok a { m with stack := rest } := by simp [onStack, taken]
    obtain ⟨got, data⟩ := takes m.stack a rest sober.data taken
    rw [Action.bind_ok took]
    exact later a got _ ⟨data, sober.lexical⟩

theorem steady_last {take : Stack.Taking α} (takes : Stack.Takes Value.IsData take R) :
    Steady (onStack take : Step σ α) := by
  have whole : Steady (onStack take >>= pure : Step σ α) := steady_take takes fun a _ => steady_pure a
  rwa [bind_pure] at whole

theorem steady_action {x : Action σ α} (keeps : Session.KeepsWords x) : Steady (onSession x) := by
  intro m sober
  have same := keeps m.session
  unfold onSession
  cases ran : x m.session with
  | ok a s =>
    rw [ran] at same
    exact ⟨sober.data, sober.lexical.congr same⟩
  | error e s =>
    rw [ran] at same
    exact sober.lexical.congr same

theorem steady_binary (operation : Float → Float → Float) : Steady (binary operation : Step σ Unit) :=
  steady_take Stack.takes_popNumber fun _ _ => steady_take Stack.takes_popNumber fun _ _ =>
    steady_last (Stack.takes_push trivial)

end Steadiness

section Running

variable [Surface σ] {s : Session σ} {v : Value} {rest program : Program} {stack : Stack} {waiting : List Frame}
  {c c' : Config σ} {b b' : Beat σ}

open Stack in
theorem prepare_steady (p : Primitive) : Steady (prepare p : Step σ (List Request)) := by
  have alone {step : Step σ Unit} (steady : Steady step) : Steady (do step; pure ([] : List Request)) :=
    steady.bind fun _ => steady_pure []
  have acts {x : Action σ Unit}
      (agree : ∀ words, Session.Views (fun s : Session σ => (s, s.words)) (fun s => (s, words)) →
        Agree (fun s => (s, s.words)) (fun s : Session σ => (s, words)) x x) : Steady (onSession x) :=
    steady_action (Session.keepsWords_of_agree fun words => agree words (Session.views_framed words))
  cases p with
  | plus => exact alone (steady_binary _)
  | minus => exact alone (steady_binary _)
  | times => exact alone (steady_binary _)
  | «over» => exact alone (steady_binary _)
  | host name operation => exact alone (steady_binary operation)
  | sqrt => exact alone (steady_take takes_popNumber fun _ _ => steady_last (takes_push trivial))
  | dup => exact alone (steady_take takes_top fun _ good => steady_last (takes_push good))
  | drop => exact alone (steady_take takes_pop fun _ _ => steady_pure ())
  | swap =>
    refine alone (steady_take takes_pop fun y goodY => steady_take takes_pop fun x goodX => ?_)
    exact steady_take (takes_push goodY) fun _ _ => steady_last (takes_push goodX)
  | define =>
    refine alone (steady_take takes_popSymbol fun name _ => steady_take takes_pop fun v good => ?_)
    exact fun m sober => ⟨sober.data, sober.lexical.define name good⟩
  | display =>
    refine alone (steady_take takes_pop fun v _ => acts fun _ views => ?_)
    exact agree_modify fun _ _ same => views.told v.shownText same
  | add =>
    refine alone (steady_take takes_popId fun id _ => steady_take takes_popShape fun shape _ => ?_)
    exact acts fun _ views => views.register id shape
  | bind =>
    refine steady_take takes_popId fun parent _ => steady_take takes_popId fun child _ => ?_
    refine steady_take takes_popNumber fun x _ => steady_take takes_popNumber fun y _ => ?_
    exact (steady_action (Session.attach_keepsWords parent child (x, y))).bind fun _ => steady_pure _
  | render => exact alone (steady_take takes_popId fun id _ => acts fun _ views => views.render id)
  | pin =>
    refine steady_take takes_popId fun id _ => ?_
    refine steady_take takes_popNumber fun x _ => steady_take takes_popNumber fun y _ => ?_
    exact (steady_action (Session.pinTop_keepsWords id (x, y))).bind fun _ => steady_pure _
  | modify =>
    have looks (id : String) : Steady (onSession (Session.shape id) : Step σ Shape) :=
      steady_action (Session.keepsWords_of_agree fun words => (Session.views_framed words).shape id)
    refine steady_take takes_popId fun id _ => (looks id).bind fun record => ?_
    refine steady_take takes_popGeometry fun geometry _ => ?_
    exact (steady_action (Session.refit_keepsWords id geometry)).bind fun _ => steady_pure _
  | remove => exact alone (steady_take takes_popId fun id _ => acts fun _ views => views.remove id)
  | rotate =>
    refine alone (steady_take takes_popId fun id _ => steady_take takes_popNumber fun angle _ => ?_)
    exact steady_take takes_popNumber? fun rate _ => acts fun _ views => views.rotate id angle (rate.getD 0)
  | move =>
    refine alone (steady_take takes_popId fun id _ => ?_)
    refine steady_take takes_popNumber fun vx _ => steady_take takes_popNumber fun vy _ => ?_
    exact acts fun _ views => views.move id vx vy
  | stop => exact alone (steady_take takes_popId fun id _ => acts fun _ views => views.stop id)

structure Frame.Clean (frame : Frame) : Prop where
  plain : frame.rest.Plain
  data : ∀ v ∈ frame.stack, v.IsData

def Config.Clean : Config σ → Prop
  | .running top waiting s => top.Clean ∧ (∀ frame ∈ waiting, frame.Clean) ∧ s.Lexical
  | .ended stack s => (∀ v ∈ stack, v.IsData) ∧ s.Lexical
  | .failed _ s => s.Lexical

def Config.stacks : Config σ → List Stack
  | .running top waiting _ => (top :: waiting).map Frame.stack
  | .ended stack _ => [stack]
  | .failed .. => []

omit [Surface σ] in
theorem Config.Clean.data (clean : c.Clean) : ∀ stack ∈ c.stacks, ∀ v ∈ stack, v.IsData := by
  intro stack member
  cases c with
  | running top waiting s =>
    obtain ⟨frame, among, rfl⟩ := List.mem_map.mp member
    rcases List.mem_cons.mp among with rfl | below
    · exact clean.1.data
    · exact (clean.2.1 frame below).data
  | ended returned s =>
    rw [List.mem_singleton.mp member]
    exact clean.1
  | failed e s => cases member

omit [Surface σ] in
theorem Config.Clean.lexical (clean : c.Clean) : c.session.Lexical := by
  cases c with
  | running top waiting s => exact clean.2.2
  | ended stack s => exact clean.2
  | failed e s => exact clean

theorem Config.clean_instructed (plain : v.type ≠ .primitive) (later : rest.Plain) (data : ∀ u ∈ stack, u.IsData)
    (below : ∀ frame ∈ waiting, frame.Clean) (lexical : s.Lexical) : (instructed v rest stack waiting s).Clean := by
  unfold instructed
  obtain ⟨e, missing⟩ | ⟨u, meaning, good⟩ | ⟨p, meaning⟩ := resolve_cases lexical plain
  · rw [missing]
    exact lexical
  · rw [meaning]
    cases u with
    | word | primitive => cases good
    | _ => exact ⟨⟨later, List.forall_mem_cons.mpr ⟨good, data⟩⟩, below, lexical⟩
  · rw [meaning]
    have prepared := prepare_steady p ⟨stack, s⟩ ⟨data, lexical⟩
    dsimp only
    cases ran : prepare p ⟨stack, s⟩ with
    | ok requests m =>
      rw [ran] at prepared
      exact ⟨⟨later, prepared.data⟩, below, prepared.lexical⟩
    | error e m =>
      rw [ran] at prepared
      exact prepared

theorem Config.Clean.next (clean : c.Clean) (moved : c.next = some c') : c'.Clean := by
  cases c with
  | ended => cases moved
  | failed => cases moved
  | running top waiting s =>
    obtain ⟨rest, stack, requests⟩ := top
    obtain ⟨top, below, lexical⟩ := clean
    rcases requests with _ | ⟨request, requests⟩
    · rcases rest with _ | ⟨v, rest⟩
      · rcases waiting with _ | ⟨caller, waiting⟩
        · cases moved
          exact ⟨top.data, lexical⟩
        · cases moved
          obtain ⟨first, others⟩ := List.forall_mem_cons.mp below
          exact ⟨first, others, lexical⟩
      · cases moved
        obtain ⟨plain, later⟩ := List.forall_mem_cons.mp top.plain
        exact clean_instructed plain later top.data below lexical
    · have caller : Frame.Clean ⟨rest, stack, requests⟩ := ⟨top.plain, top.data⟩
      cases request with
      | shape id =>
        cases moved
        -- the program that is started holds a string and a word
        have started : Frame.Clean ⟨[.string id, .word "render"], [], []⟩ :=
          ⟨by simp [Program.Plain, Value.type], List.forall_mem_nil _⟩
        exact ⟨started, List.forall_mem_cons.mpr ⟨caller, below⟩, lexical⟩
      | children id =>
        simp only [Config.next] at moved
        split at moved
        · cases moved
          exact ⟨⟨top.plain, top.data⟩, below, lexical⟩
        · cases moved
          exact lexical

omit [Surface σ] in
theorem Config.clean_opening {start : Nat} (lexical : s.Lexical) (plain : program.Plain)
    (data : ∀ v ∈ stack, v.IsData) : (opening program start stack s).Clean :=
  ⟨⟨fun v member => plain v (List.mem_of_mem_drop member), data⟩, List.forall_mem_nil _, lexical⟩

theorem Config.clean_acting {task : Task} (lexical : s.Lexical) : (acting task s).Clean := by
  have same := Session.actAlone_keepsWords task.slot.shape task.action s
  unfold acting
  cases ran : Session.actAlone task.slot.shape task.action s with
  | ok u s' =>
    rw [ran] at same
    exact ⟨⟨List.forall_mem_nil _, List.forall_mem_nil _⟩, List.forall_mem_nil _, lexical.congr same⟩
  | error e s' =>
    rw [ran] at same
    exact lexical.congr same

omit [Surface σ] in
theorem Config.Clean.settled (clean : c.Clean) (f : Firing) (task : Task) : (c.settled f task).Lexical := by
  unfold Config.settled
  split
  · exact clean.congr rfl
  · exact clean.congr rfl
  · exact clean.lexical
  · exact clean.lexical

def Beat.Clean : Beat σ → Prop
  | .between _ s => s.Lexical
  | .during _ _ _ c => c.Clean

def Beat.stacks : Beat σ → List Stack
  | .between .. => []
  | .during _ _ _ c => c.stacks

omit [Surface σ] in
theorem Beat.Clean.data (clean : b.Clean) : ∀ stack ∈ b.stacks, ∀ v ∈ stack, v.IsData := by
  cases b with
  | between firings s => exact List.forall_mem_nil _
  | during f task later c => exact Config.Clean.data clean

theorem Beat.Clean.next (clean : b.Clean) (moved : b.next = some b') : b'.Clean := by
  cases b with
  | between firings s =>
    cases firings with
    | nil => cases moved
    | cons f later =>
      simp only [Beat.next] at moved
      split at moved
      · cases moved
        exact clean
      · cases moved
        exact Config.clean_acting clean
  | during f task later c =>
    simp only [Beat.next] at moved
    split at moved
    · rename_i first
      cases moved
      exact Config.Clean.next clean first
    · cases moved
      exact Config.Clean.settled clean f task

theorem leads_clean {start : Nat} (lexical : s.Lexical) (plain : program.Plain) (data : ∀ v ∈ stack, v.IsData)
    (leads : Leads Config.next (.opening program start stack s) c) : c.Clean :=
  leads.keeps (fun _ _ => Config.Clean.next) (Config.clean_opening lexical plain data)

theorem ticks_clean {seconds : Float} (lexical : s.Lexical) (leads : Leads Beat.next (.opening seconds s) b) :
    b.Clean :=
  leads.keeps (fun _ _ => Beat.Clean.next) lexical

end Running

end Machine

namespace Session

open Machine

variable {σ : Type} [Surface σ] {s : Session σ} {program : Program} {programs : List Program} {c : Call}
  {stack : Stack}

theorem exec_data (sound : s.Sound) (plain : program.Plain) (ran : (s.exec program).1 = .ok stack) :
    ∀ v ∈ stack, v.IsData := by
  have closed : (Config.closing (s.exec program)).Clean :=
    leads_clean sound.words plain (List.forall_mem_nil _) run_leads
  cases result : s.exec program with
  | mk answer s' =>
    rw [result] at ran closed
    cases ran
    exact closed.1

theorem execReturns_data (sound : s.Sound) (plain : ∀ program ∈ programs, program.Plain) :
    ∀ stack ∈ s.execReturns programs, ∀ v ∈ stack, v.IsData := by
  induction programs generalizing s with
  | nil => exact List.forall_mem_nil _
  | cons program rest ih =>
    have written := plain program (by simp)
    have still := sound.exec written
    unfold execReturns
    cases ran : s.exec program with
    | mk result s' =>
      rw [ran] at still
      cases result with
      | error e => exact List.forall_mem_nil _
      | ok stack =>
        have first := exec_data sound written (congrArg Prod.fst ran)
        have later := ih still fun p member => plain p (by simp [member])
        exact List.forall_mem_cons.mpr ⟨first, later⟩

theorem Returns.data (returns : s.Returns stack c) (sound : s.Sound) (plain : c.Plain) : ∀ v ∈ stack, v.IsData := by
  cases c with
  | exec program => exact exec_data sound plain returns
  | line text =>
    simp only [Returns, execLine] at returns
    cases read : parseLine 1 text with
    | error m =>
      rw [read] at returns
      cases returns
    | ok program =>
      rw [read] at returns
      refine exec_data sound (parseLine_plain program read) ?_
      cases answer : (s.exec program).1 with
      | ok left =>
        simp only [answer, Except.mapError, Except.ok.injEq] at returns
        rw [returns]
      | error e => simp [answer, Except.mapError] at returns
  | script text =>
    obtain ⟨programs, read, among⟩ := returns
    exact execReturns_data sound (parseScript_plain read) stack among
  | tick seconds => exact returns.elim

-- Each binding is one of the library, under its own name, or was made by a definition; so no word of the library comes
-- to stand for another primitive. The stacks are also those of the programs that primitives and firings run.
theorem code_apart_from_data (surface : σ) (display : Display) (catchUp : Nat) (calls : List Call)
    (plain : ∀ c ∈ calls, c.Plain) :
    let start := opening surface display catchUp
    let s := start.afterAll calls
    (∀ (c : Call) (stack : Stack), c.Plain → s.Returns stack c → ∀ v ∈ stack, v.IsData) ∧
    (∀ program, Program.Plain program → ∀ c, Leads Config.next (.opening program 0 [] s) c →
      ∀ stack ∈ c.stacks, ∀ v ∈ stack, v.IsData) ∧
    (∀ seconds b, Leads Beat.next (.opening seconds s) b → ∀ stack ∈ b.stacks, ∀ v ∈ stack, v.IsData) ∧
    s.words = Dictionary.extended (start.definedBy calls) Library.standard.load ∧
    ∀ (w : String) (v : Value), s.words[w]? = some v →
      (∃ p, v = .primitive p ∧ p.name = w ∧ Library.standard.load[w]? = some v) ∨
      (v.IsData ∧ (w, v) ∈ start.definedBy calls) := by
  intro start s
  have opened : Reachable surface start := .opening display catchUp
  have sound : s.Sound := (opened.afterAll plain).sound
  have words : s.words = Dictionary.extended (start.definedBy calls) Library.standard.load :=
    afterAll_extends opened plain
  refine ⟨?_, ?_, ?_, words, ?_⟩
  · intro c stack written returns
    exact returns.data sound written
  · intro program written c leads
    exact (leads_clean sound.words written (List.forall_mem_nil _) leads).data
  · intro seconds b leads
    exact (ticks_clean sound.words leads).data
  · intro w v found
    rw [words] at found
    rcases Dictionary.extended_found found with library | made
    · obtain ⟨p, rfl, own⟩ := Library.load_primitive library
      exact .inl ⟨p, rfl, own, library⟩
    · exact .inr ⟨definedBy_data opened plain (w, v) made, made⟩

-- Puts a number in the place of `render`, so that what binding runs leaves it on a stack, and fails to take the
-- primitive of `dup` for a definition.
def Sample.shadowing : List Call := [.exec [.number 5, .symbol "render", .word "def"],
  .exec [.shape (dot 0), .string "a", .word "add", .shape (dot 1), .string "b", .word "add",
    .number 1, .number 1, .string "b", .string "a", .word "bind"],
  .exec [.word "dup", .symbol "twice", .word "def"]]

theorem code_apart_from_data_shadowing :
    let start := opening Scene.initial .discarded 1
    let s := start.afterAll Sample.shadowing
    (∀ c ∈ Sample.shadowing, c.Plain) ∧
    s.words["render"]?.map Value.text = some "number(5)" ∧ s.words["dup"]?.map Value.text = some "primitive(dup)" ∧
    s.words["twice"]?.isSome = false ∧
    (∀ (c : Call) (stack : Stack), c.Plain → s.Returns stack c → ∀ v ∈ stack, v.IsData) ∧
    ∀ (w : String) (v : Value), s.words[w]? = some v →
      (∃ p, v = .primitive p ∧ p.name = w ∧ Library.standard.load[w]? = some v) ∨
      (v.IsData ∧ (w, v) ∈ start.definedBy Sample.shadowing) := by
  intro start s
  have plain : ∀ c ∈ Sample.shadowing, c.Plain := by
    simp [Sample.shadowing, Call.Plain, Program.Plain, Value.type]
  obtain ⟨returned, _, _, _, bound⟩ := code_apart_from_data Scene.initial .discarded 1 Sample.shadowing plain
  exact ⟨plain, by decide +kernel, by decide +kernel, by decide +kernel, returned, bound⟩

end Session
end Diorama
