import Diorama.Proofs.Reachable

namespace Diorama

namespace Session

variable {σ : Type} [Surface σ]

def attach (parent child : String) (position : Float × Float) : Action σ Unit := do
  let linked ← MonadExcept.ofExcept ((← get).shapes.checkBinding parent child)
  modify (attached parent child position linked)

def pinTop (id : String) (position : Float × Float) : Action σ String := do
  let top ← MonadExcept.ofExcept ((← get).shapes.rootOf id)
  update top (·.moveTo position)
  render top
  pure top

def refit (id : String) (geometry : Geometry) : Action σ Unit := do
  let record ← shape id
  register id { record with geometry }

def actAlone (id : String) : TaskAction → Action σ Unit
  | .rotate step => rotateBy id step
  | .translate dx dy => do
    update id (·.moveBy (dx, dy))
    render id

end Session

namespace Machine

-- What is redrawn by a program of its own: a shape, or each child that a shape has by then.
inductive Request where
  | shape (id : String)
  | children (id : String)

section Parts

variable {σ : Type} [Surface σ]

def serve (redraw : String → Action σ Unit) : Request → Action σ Unit
  | .shape id => redraw id
  | .children id => Session.redrawChildren redraw id

def serveAll (redraw : String → Action σ Unit) : List Request → Action σ Unit
  | [] => pure ()
  | request :: requests => do
    serve redraw request
    serveAll redraw requests

open Stack in
def prepare : Primitive → Step σ (List Request)
  | .bind => do
    let parent ← popId
    let child ← popId
    let x ← popNumber
    let y ← popNumber
    onSession (Session.attach parent child (x, y))
    pure [.shape child, .children child]
  | .pin => do
    let id ← popId
    let x ← popNumber
    let y ← popNumber
    let top ← onSession (Session.pinTop id (x, y))
    pure [.children top]
  | .modify => do
    let id ← popId
    let record ← onSession (Session.shape id)
    let geometry ← popGeometry record.kind
    onSession (Session.refit id geometry)
    pure [.children id]
  | p => do
    perform (fun _ => pure ()) p
    pure []

def requests (id : String) : TaskAction → List Request
  | .rotate _ => []
  | .translate .. => [.children id]

end Parts

-- A program under way: the instructions to come, its stack, and what its last primitive still has redrawn.
structure Frame where
  rest : Program
  stack : Stack
  requests : List Request

-- The programs that wait for the one they started, the latest first, are below the one that runs.
inductive Config (σ : Type) where
  | running (top : Frame) (waiting : List Frame) (s : Session σ)
  | ended (stack : Stack) (s : Session σ)
  | failed (e : Fault) (s : Session σ)

namespace Config

variable {σ : Type}

def depth : Config σ → Nat
  | .running _ waiting _ => waiting.length
  | .ended .. | .failed .. => 0

def session : Config σ → Session σ
  | .running _ _ s | .ended _ s | .failed _ s => s

variable [Surface σ]

def instructed (v : Value) (rest : Program) (stack : Stack) (waiting : List Frame) (s : Session σ) : Config σ :=
  match resolve s v with
  | .ok (.primitive p) =>
    match prepare p ⟨stack, s⟩ with
    | .ok requests m => .running ⟨rest, m.stack, requests⟩ waiting m.session
    | .error e m => .failed e m.session
  | .ok literal => .running ⟨rest, literal :: stack, []⟩ waiting s
  | .error e => .failed e s

-- One step. A failure ends all programs at once, and the stack of a program that was started is dropped.
def next : Config σ → Option (Config σ)
  | .running ⟨rest, stack, .shape id :: requests⟩ waiting s =>
    some (.running ⟨[.string id, .word "render"], [], []⟩ (⟨rest, stack, requests⟩ :: waiting) s)
  | .running ⟨rest, stack, .children id :: requests⟩ waiting s =>
    match s.shapes.find id with
    | .ok record => some (.running ⟨rest, stack, record.links.children.map .shape ++ requests⟩ waiting s)
    | .error e => some (.failed e s)
  | .running ⟨v :: rest, stack, []⟩ waiting s => some (instructed v rest stack waiting s)
  | .running ⟨[], _, []⟩ (caller :: waiting) s => some (.running caller waiting s)
  | .running ⟨[], stack, []⟩ [] s => some (.ended stack s)
  | .ended .. | .failed .. => none

def opening (program : Program) (start : Nat) (stack : Stack) (s : Session σ) : Config σ :=
  .running ⟨program.drop start, stack, []⟩ [] s

def closing : Except Fault Stack × Session σ → Config σ
  | (.ok stack, s) => .ended stack s
  | (.error e, s) => .failed e s

def acting (task : Task) (s : Session σ) : Config σ :=
  match Session.actAlone task.slot.shape task.action s with
  | .ok _ s => .running ⟨[], [], requests task.slot.shape task.action⟩ [] s
  | .error e s => .failed e s

def settled (f : Firing) (task : Task) : Config σ → Session σ
  | .failed (.unknownShape _) s => s.cancelTask f.task
  | .failed _ s => (s.cancelTask f.task).clearHandle task.slot
  | .running _ _ s | .ended _ s => s

end Config

inductive Beat (σ : Type) where
  | between (firings : List Firing) (s : Session σ)
  | during (f : Firing) (task : Task) (later : List Firing) (c : Config σ)

namespace Beat

variable {σ : Type}

def depth : Beat σ → Nat
  | .between .. => 0
  | .during _ _ _ c => c.depth

variable [Surface σ]

def next : Beat σ → Option (Beat σ)
  | .between [] _ => none
  | .between (f :: later) s =>
    match s.timeline.tasks[f.task]? with
    | none => some (.between later s)
    | some task => some (.during f task later (.acting task s))
  | .during f task later c =>
    match c.next with
    | some c => some (.during f task later c)
    | none => some (.between later (c.settled f task))

def opening (seconds : Float) (s : Session σ) : Beat σ :=
  let (firings, timeline) := s.timeline.advance (s.timeline.now.plus ((Duration.ofSeconds? seconds).getD 0))
  .between firings (s.timed timeline)

end Beat

section Reaching

variable {α : Type} {next : α → Option α} {a b c : α}

abbrev Leads (next : α → Option α) : α → α → Prop := Relation.ReflTransGen fun a b => next a = some b

theorem Leads.keeps {I : α → Prop} (leads : Leads next a b) (keeps : ∀ a b, I a → next a = some b → I b)
    (holds : I a) : I b := by
  induction leads with
  | refl => exact holds
  | tail _ last ih => exact keeps _ _ ih last

theorem Leads.finite (leads : Leads next a b) (last : next b = none) : Acc (fun b a => next a = some b) a := by
  induction leads using Relation.ReflTransGen.head_induction_on with
  | refl =>
    refine ⟨_, fun c moved => ?_⟩
    rw [last] at moved
    cases moved
  | head first _ ih =>
    refine ⟨_, fun c moved => ?_⟩
    cases first.symm.trans moved
    exact ih

-- There is no endless row of steps, the last one leads to `b`, and on the way no program that was started by
-- another one has started a third.
structure Completes (next : α → Option α) (depth : α → Nat) (a b : α) : Prop where
  finite : Acc (fun b a => next a = some b) a
  leads : Leads next a b
  last : next b = none
  shallow : ∀ c, Leads next a c → depth c ≤ 1

end Reaching

section Performing

variable {σ α β : Type}

theorem onSession_bind (x : Action σ α) (f : α → Action σ β) :
    onSession (x >>= f) = onSession x >>= fun a => onSession (f a) := by
  funext m
  simp only [onSession, bind, EStateM.bind]
  cases x m.session <;> rfl

theorem onSession_pure (a : α) : onSession (pure a : Action σ α) = pure a := rfl

variable [Surface σ] {redraw : String → Action σ Unit} {s : Session σ} {m : Machine σ} {id : String}

theorem bindTo_eq {parent child : String} {position : Float × Float} :
    Session.bindTo redraw parent child position =
      Session.attach parent child position >>= fun _ => serveAll redraw [.shape child, .children child] := by
  funext s
  cases checked : s.shapes.checkBinding parent child with
  | error e =>
    have refused : Session.attach parent child position s = .error e s := by
      refine (Action.bind_ok (s := s) rfl).trans ?_
      rw [checked]
      rfl
    exact (Session.bindTo_refused checked).trans (Action.bind_error refused).symm
  | ok linked =>
    have granted : Session.attach parent child position s = .ok () (s.attached parent child position linked) := by
      refine (Action.bind_ok (s := s) rfl).trans ?_
      rw [checked]
      rfl
    rw [Action.bind_ok granted]
    refine (Session.bindTo_granted checked).trans ?_
    simp only [serveAll, serve, bind_pure_unit]

theorem pin_eq {position : Float × Float} : Session.pin redraw id position =
    Session.pinTop id position >>= fun top => serveAll redraw [.children top] := by
  simp only [Session.pin, Session.pinTop, bind_assoc, pure_bind, bind_pure_unit, serveAll, serve]

theorem reshape_eq {geometry : Geometry} : Session.reshape redraw id geometry =
    Session.refit id geometry >>= fun _ => serveAll redraw [.children id] := by
  simp only [Session.reshape, Session.refit, bind_assoc, bind_pure_unit, serveAll, serve]

theorem act_eq {action : TaskAction} : Session.act redraw id action =
    Session.actAlone id action >>= fun _ => serveAll redraw (requests id action) := by
  cases action with
  | rotate step =>
    simp only [Session.act, Session.actAlone, requests, serveAll, bind_pure_unit]
  | translate dx dy =>
    simp only [Session.act, Session.translateBy, Session.actAlone, requests, bind_assoc, bind_pure_unit,
      serveAll, serve]

theorem perform_eq (p : Primitive) : perform redraw p =
    prepare p >>= fun requests => onSession (serveAll redraw requests) := by
  cases p with
  | bind =>
    simp only [perform, prepare, bind_assoc, pure_bind, bindTo_eq, onSession_bind]
  | pin =>
    simp only [perform, prepare, bind_assoc, pure_bind, pin_eq, onSession_bind]
  | modify =>
    simp only [perform, prepare, bind_assoc, pure_bind, reshape_eq, onSession_bind]
  | _ =>
    simp only [prepare, bind_assoc, pure_bind, serveAll, onSession_pure, bind_pure_unit]
    rfl

theorem prepare_lone {p : Primitive} {v : Value} {requests : List Request}
    (prepared : prepare p ⟨[v], s⟩ = .ok requests m) : requests = [] := by
  -- a stack that holds one value is too short for every primitive that has anything redrawn
  have alone {id : String} {rest : Stack} (taken : Stack.popId [v] = .ok id rest) : rest = [] := by
    rcases Stack.popId_ok taken with same | same <;> simp_all
  cases p with
  | bind =>
    obtain ⟨parent, rest, taken, prepared⟩ := take_ok prepared
    obtain ⟨child, _, short, _⟩ := take_ok prepared
    rw [alone taken] at short
    cases short
  | pin =>
    obtain ⟨id, rest, taken, prepared⟩ := take_ok prepared
    obtain ⟨x, _, short, _⟩ := take_ok prepared
    rw [alone taken] at short
    cases short
  | modify =>
    obtain ⟨id, rest, taken, prepared⟩ := take_ok prepared
    obtain ⟨record, between, looked, prepared⟩ := Action.of_bind_ok prepared
    obtain ⟨geometry, _, short, _⟩ := take_ok prepared
    rw [(session_ok looked).2, alone taken] at short
    cases kind : record.kind with
    | circle =>
      rw [kind] at short
      cases short
    | rect =>
      rw [kind] at short
      cases short
  | _ =>
    obtain ⟨_, _, _, done⟩ := Action.of_bind_ok prepared
    cases done
    rfl

end Performing

section Running

variable {σ : Type} [Surface σ] {s : Session σ} {id : String} {ids : List String} {rest program : Program}
  {stack : Stack} {waiting : List Frame} {caller : Frame} {requests : List Request}

def Config.after (go : Session σ → Config σ) : EStateM.Result Fault (Session σ) Unit → Config σ
  | .ok _ s => go s
  | .error e s => .failed e s

theorem perform_lone {draw : String → Action σ Unit} {v : Value} (p : Primitive) :
    perform draw p ⟨[v], s⟩ = match prepare p ⟨[v], s⟩ with
    | .ok _ m => .ok () m
    | .error e m => .error e m := by
  rw [perform_eq]
  cases prepared : prepare p ⟨[v], s⟩ with
  | ok requests m =>
    rw [Action.bind_ok prepared, prepare_lone prepared]
    rfl
  | error e m => exact Action.bind_error prepared

theorem redraw_leads : Leads Config.next (.running ⟨[.string id, .word "render"], [], []⟩ (caller :: waiting) s)
    (.after (.running caller waiting) (redraw id s)) := by
  have pushed : Config.next (.running ⟨[.string id, .word "render"], [], []⟩ (caller :: waiting) s) =
      some (.running ⟨[.word "render"], [.string id], []⟩ (caller :: waiting) s) := rfl
  have called : Config.next (.running ⟨[.word "render"], [.string id], []⟩ (caller :: waiting) s) =
      some (.instructed (.word "render") [] [.string id] (caller :: waiting) s) := rfl
  refine .head pushed (.head called ?_)
  rw [redraw_resolve]
  unfold Config.instructed
  cases resolve s (.word "render") with
  | error e => exact .refl
  | ok v =>
    cases v with
    | primitive p =>
      simp only [perform_lone]
      cases prepared : prepare p ⟨[.string id], s⟩ with
      | ok requests m =>
        cases prepare_lone prepared
        exact .single rfl
      | error e m => exact .refl
    | _ => exact .single rfl

theorem shapes_leads : Leads Config.next (.running ⟨rest, stack, ids.map .shape ++ requests⟩ waiting s)
    (.after (.running ⟨rest, stack, requests⟩ waiting) (ids.forM redraw s)) := by
  induction ids generalizing s with
  | nil => exact .refl
  | cons id ids ih =>
    have started : Config.next (.running ⟨rest, stack, (id :: ids).map .shape ++ requests⟩ waiting s) =
        some (.running ⟨[.string id, .word "render"], [], []⟩
          (⟨rest, stack, ids.map .shape ++ requests⟩ :: waiting) s) := rfl
    refine .head started (redraw_leads.trans ?_)
    cases drawn : redraw id s with
    | ok u s' =>
      have later : (id :: ids).forM redraw s = ids.forM redraw s' := Action.bind_ok drawn
      rw [later]
      exact ih
    | error e s' =>
      have failed : (id :: ids).forM redraw s = .error e s' := Action.bind_error drawn
      rw [failed]
      exact .refl

theorem request_leads {request : Request} : Leads Config.next (.running ⟨rest, stack, request :: requests⟩ waiting s)
    (.after (.running ⟨rest, stack, requests⟩ waiting) (serve redraw request s)) := by
  cases request with
  | shape id => exact .head rfl redraw_leads
  | children id =>
    cases found : s.shapes[id]? with
    | none =>
      have failed : serve redraw (.children id) s = .error (.unknownShape id) s :=
        Action.bind_error (Session.shape_missing found)
      refine .single ?_
      simp only [Config.next, Registry.find_missing found, failed]
      rfl
    | some record =>
      have spread : Config.next (.running ⟨rest, stack, .children id :: requests⟩ waiting s) =
          some (.running ⟨rest, stack, record.links.children.map .shape ++ requests⟩ waiting s) := by
        simp only [Config.next, Registry.find_ok found]
      have served : serve redraw (.children id) s = record.links.children.forM redraw s :=
        Action.bind_ok (Session.shape_ok found)
      rw [served]
      exact .head spread shapes_leads

theorem requests_leads : Leads Config.next (.running ⟨rest, stack, requests⟩ waiting s)
    (.after (.running ⟨rest, stack, []⟩ waiting) (serveAll redraw requests s)) := by
  induction requests generalizing s with
  | nil => exact .refl
  | cons request requests ih =>
    refine request_leads.trans ?_
    cases served : serve redraw request s with
    | ok u s' =>
      have later : serveAll redraw (request :: requests) s = serveAll redraw requests s' := Action.bind_ok served
      rw [later]
      exact ih
    | error e s' =>
      have failed : serveAll redraw (request :: requests) s = .error e s' := Action.bind_error served
      rw [failed]
      exact .refl

theorem instructed_leads {v : Value} : Leads Config.next (.instructed v rest stack waiting s)
    (match instruct redraw v ⟨stack, s⟩ with
      | .ok _ m => .running ⟨rest, m.stack, []⟩ waiting m.session
      | .error e m => .failed e m.session) := by
  rw [instruct_eq]
  unfold Config.instructed
  dsimp only
  cases resolve s v with
  | error e => exact .refl
  | ok v =>
    cases v with
    | primitive p =>
      dsimp only
      rw [perform_eq]
      cases prepared : prepare p ⟨stack, s⟩ with
      | error e m =>
        rw [Action.bind_error prepared]
      | ok requests m =>
        rw [Action.bind_ok prepared]
        refine requests_leads.trans ?_
        unfold onSession
        cases serveAll redraw requests m.session <;> exact .refl
    | _ => exact .refl

theorem program_leads : Leads Config.next (.running ⟨program, stack, []⟩ waiting s)
    (match execute redraw program ⟨stack, s⟩ with
      | .ok _ m => .running ⟨[], m.stack, []⟩ waiting m.session
      | .error e m => .failed e m.session) := by
  induction program generalizing stack s with
  | nil => exact .refl
  | cons v rest ih =>
    refine .head rfl (instructed_leads.trans ?_)
    rw [execute_cons]
    cases instruct redraw v ⟨stack, s⟩ with
    | ok u m => exact ih
    | error e m => exact .refl

theorem run_leads {start : Nat} : Leads Config.next (.opening program start stack s) (.closing (s.run program start stack)) := by
  refine program_leads.trans ?_
  unfold Session.run
  cases execute redraw (program.drop start) ⟨stack, s⟩ with
  | ok u m => exact .single rfl
  | error e m => exact .refl

theorem acting_leads {task : Task} : Leads Config.next (.acting task s)
    (.after (.ended []) (Session.act redraw task.slot.shape task.action s)) := by
  rw [act_eq]
  unfold Config.acting
  cases alone : Session.actAlone task.slot.shape task.action s with
  | error e s' =>
    rw [Action.bind_error alone]
    exact .refl
  | ok u s' =>
    rw [Action.bind_ok alone]
    refine requests_leads.trans ?_
    cases serveAll redraw (Machine.requests task.slot.shape task.action) s' with
    | ok u s' => exact .single rfl
    | error e s' => exact .refl

theorem during_leads {f : Firing} {task : Task} {later : List Firing} {c c' : Config σ} (leads : Leads Config.next c c') :
    Leads Beat.next (.during f task later c) (.during f task later c') := by
  induction leads with
  | refl => exact .refl
  | tail _ last ih =>
    refine ih.tail ?_
    simp only [Beat.next, last]

theorem fire_leads {f : Firing} {later : List Firing} :
    Leads Beat.next (.between (f :: later) s) (.between later (s.fire f)) := by
  cases live : s.timeline.tasks[f.task]? with
  | none =>
    refine .single ?_
    simp only [Beat.next, live, Session.fire_dead live]
  | some task =>
    have started : Beat.next (.between (f :: later) s) = some (.during f task later (.acting task s)) := by
      simp only [Beat.next, live]
    refine .head started ((during_leads acting_leads).tail ?_)
    unfold Session.fire
    rw [live]
    dsimp only
    cases Session.act redraw task.slot.shape task.action s with
    | ok u s' => rfl
    | error e s' => cases e <;> rfl

theorem fired_leads {firings : List Firing} :
    Leads Beat.next (.between firings s) (.between [] (s.fired firings)) := by
  induction firings generalizing s with
  | nil => exact .refl
  | cons f later ih => exact fire_leads.trans ih

theorem tick_leads {seconds : Float} : Leads Beat.next (.opening seconds s) (.between [] (s.tick seconds)) :=
  fired_leads

end Running

section Nesting

variable {σ : Type} [Surface σ] {c c' : Config σ} {b b' : Beat σ}

inductive Frame.Redraws : Frame → Prop where
  | fresh {id : String} : Redraws ⟨[.string id, .word "render"], [], []⟩
  | loaded {id : String} : Redraws ⟨[.word "render"], [.string id], []⟩
  | spent {stack : Stack} : Redraws ⟨[], stack, []⟩

def Config.Shallow : Config σ → Prop
  | .running _ [] _ => True
  | .running top [_] _ => top.Redraws
  | .running _ (_ :: _ :: _) _ => False
  | .ended .. | .failed .. => True

omit [Surface σ] in
theorem Config.Shallow.depth_le (shallow : c.Shallow) : c.depth ≤ 1 := by
  cases c with
  | running top waiting s =>
    rcases waiting with _ | ⟨caller, _ | _⟩
    · exact Nat.zero_le _
    · exact Nat.le_refl _
    · exact shallow.elim
  | _ => exact Nat.zero_le _

theorem Config.shallow_instructed {v : Value} {rest : Program} {stack : Stack} {s : Session σ} :
    (instructed v rest stack [] s).Shallow := by
  unfold instructed
  split
  · split <;> exact trivial
  · exact trivial
  · exact trivial

theorem Config.shallow_loaded {id : String} {caller : Frame} {s : Session σ} :
    (instructed (.word "render") [] [.string id] [caller] s).Shallow := by
  -- whatever `render` means, it is run on one id here
  unfold instructed
  split
  · split
    · rename_i prepared
      cases prepare_lone prepared
      exact .spent
    · exact trivial
  · exact .spent
  · exact trivial

theorem Config.shallow_alone {top : Frame} {s : Session σ} (moved : (running top [] s).next = some c') :
    c'.Shallow := by
  obtain ⟨rest, stack, requests⟩ := top
  cases requests with
  | nil =>
    cases rest with
    | nil =>
      cases moved
      exact trivial
    | cons v rest =>
      cases moved
      exact shallow_instructed
  | cons request requests =>
    cases request with
    | shape id =>
      cases moved
      exact .fresh
    | children id =>
      simp only [Config.next] at moved
      split at moved <;> cases moved <;> exact trivial

theorem Config.shallow_redraws {top caller : Frame} {s : Session σ} (redraws : top.Redraws)
    (moved : (running top [caller] s).next = some c') : c'.Shallow := by
  cases redraws with
  | fresh =>
    cases moved
    exact .loaded
  | loaded =>
    cases moved
    exact shallow_loaded
  | spent =>
    cases moved
    exact trivial

theorem Config.Shallow.next (shallow : c.Shallow) (moved : c.next = some c') : c'.Shallow := by
  cases c with
  | ended => cases moved
  | failed => cases moved
  | running top waiting s =>
    rcases waiting with _ | ⟨caller, _ | _⟩
    · exact shallow_alone moved
    · exact shallow_redraws shallow moved
    · exact shallow.elim

theorem Config.shallow_acting {task : Task} {s : Session σ} : (acting task s).Shallow := by
  unfold acting
  split <;> exact trivial

def Beat.Shallow : Beat σ → Prop
  | .between .. => True
  | .during _ _ _ c => c.Shallow

theorem Beat.Shallow.next (shallow : b.Shallow) (moved : b.next = some b') : b'.Shallow := by
  cases b with
  | between firings s =>
    cases firings with
    | nil => cases moved
    | cons f later =>
      simp only [Beat.next] at moved
      split at moved <;> cases moved
      · exact trivial
      · exact Config.shallow_acting
  | during f task later c =>
    simp only [Beat.next] at moved
    split at moved <;> cases moved
    · rename_i first
      exact Config.Shallow.next shallow first
    · exact trivial

omit [Surface σ] in
theorem Beat.Shallow.depth_le (shallow : b.Shallow) : b.depth ≤ 1 := by
  cases b with
  | between => exact Nat.zero_le _
  | during f task later c => exact Config.Shallow.depth_le shallow

end Nesting

-- Whatever the words mean and whatever the shapes, tasks and links are: a run ends as `run` says and the passing
-- of time as `tick` says, and no program that a primitive starts starts another one.
theorem runs_complete {σ : Type} [Surface σ] (s : Session σ) :
    (∀ program start stack,
      Completes Config.next Config.depth (.opening program start stack s) (.closing (s.run program start stack))) ∧
    ∀ seconds, Completes Beat.next Beat.depth (.opening seconds s) (.between [] (s.tick seconds)) := by
  constructor
  · intro program start stack
    have last : Config.next (.closing (s.run program start stack)) = none := by
      cases s.run program start stack with
      | mk result s' => cases result <;> rfl
    refine ⟨run_leads.finite last, run_leads, last, fun c leads => ?_⟩
    exact Config.Shallow.depth_le (leads.keeps (fun _ _ => Config.Shallow.next) trivial)
  · intro seconds
    refine ⟨tick_leads.finite rfl, tick_leads, rfl, fun b leads => ?_⟩
    exact Beat.Shallow.depth_le (leads.keeps (fun _ _ => Beat.Shallow.next) trivial)

end Machine
end Diorama
