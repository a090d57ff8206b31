import Diorama.Proofs.Reachable
import Diorama.Proofs.Views

namespace Diorama

structure Insight where
  words : Dictionary
  shapes : Registry
  timeline : Timeline
  display : Display

namespace Session

variable {σ τ : Type} {s : Session σ} {t : Session τ}

def insight (s : Session σ) : Insight := ⟨s.words, s.shapes, s.timeline, s.display⟩

theorem words_eq (same : s.insight = t.insight) : s.words = t.words := congrArg Insight.words same

theorem shapes_eq (same : s.insight = t.insight) : s.shapes = t.shapes := congrArg Insight.shapes same

theorem timeline_eq (same : s.insight = t.insight) : s.timeline = t.timeline := congrArg Insight.timeline same

theorem insight_define (name : String) (v : Value) (s : Session σ) (t : Session τ) (same : s.insight = t.insight) :
    (s.define name v).insight = (t.define name v).insight :=
  congrArg (fun i : Insight => { i with words := i.words.insert name v }) same

variable [Surface σ] [Surface τ]

theorem views_insight : Views (insight : Session σ → Insight) (insight : Session τ → Insight) where
  shapes := shapes_eq
  timeline := timeline_eq
  changed shapes timeline same := congrArg (fun i : Insight => { i with shapes, timeline }) same
  drawn _ same := same
  told text same := congrArg (fun i : Insight => { i with display := i.display.push text }) same

end Session

namespace Machine

variable {σ τ : Type}

theorem resolve_eq {s : Session σ} {t : Session τ} (same : s.insight = t.insight) (v : Value) :
    resolve s v = resolve t v := by
  cases v with
  | word w => simp only [resolve, Session.lookup, Session.words_eq same, Session.shapes_eq same]
  | _ => rfl

variable [Surface σ] [Surface τ]

theorem redraw_insight (id : String) : Agree Session.insight Session.insight
    (Machine.redraw id : Action σ Unit) (Machine.redraw id : Action τ Unit) :=
  agree_redraw Session.views_insight (fun _ _ same => resolve_eq same _) id

theorem execute_insight (program : Program) : Agree (view Session.insight) (view Session.insight)
    (execute Machine.redraw program : Step σ Unit) (execute Machine.redraw program : Step τ Unit) := by
  refine agree_forM fun v _ => ?_
  exact agree_instruct Session.views_insight redraw_insight Session.insight_define fun _ _ same => resolve_eq same v

end Machine

def Call.Answer : Call → Type
  | .exec _ => Except Fault Stack
  | .line _ => Except Failure Stack
  | .script _ => Except Failure Unit
  | .tick _ => Unit

structure Report where
  call : Call
  answer : call.Answer
  insight : Insight

namespace Session

variable {σ τ ρ : Type} {s : Session σ} {t : Session τ}

def told (result : ρ × Session σ) : ρ × Insight := (result.1, result.2.insight)

theorem cancelTask_insight (same : s.insight = t.insight) (n : Nat) :
    (s.cancelTask n).insight = (t.cancelTask n).insight :=
  congrArg (fun i : Insight => { i with timeline := i.timeline.cancel n }) same

theorem clearHandle_insight (same : s.insight = t.insight) (slot : Slot) :
    (s.clearHandle slot).insight = (t.clearHandle slot).insight := by
  unfold clearHandle insight
  rw [words_eq same, shapes_eq same, timeline_eq same, show s.display = t.display from congrArg Insight.display same]

variable [Surface σ] [Surface τ]

def answer (s : Session σ) : (c : Call) → c.Answer
  | .exec program => (s.exec program).1
  | .line text => (s.execLine text).1
  | .script text => (s.execScript text).1
  | .tick _ => ()

def reports : List Call → Session σ → List Report
  | [], _ => []
  | c :: rest, s => ⟨c, s.answer c, (s.after c).insight⟩ :: reports rest (s.after c)

theorem run_told (same : s.insight = t.insight) (program : Program) (start : Nat) (stack : Stack) :
    told (s.run program start stack) = told (t.run program start stack) := by
  have ready : Machine.view insight ⟨stack, s⟩ = Machine.view insight ⟨stack, t⟩ := congrArg (Prod.mk stack) same
  have alike := Machine.execute_insight (program.drop start) _ _ ready
  unfold run
  generalize Machine.execute _ _ ⟨stack, s⟩ = left, Machine.execute _ _ ⟨stack, t⟩ = right at alike
  cases left <;> cases right <;> simp_all [outcome, Machine.view, told]

theorem execAll_told (same : s.insight = t.insight) (programs : List Program) :
    told (s.execAll programs) = told (t.execAll programs) := by
  induction programs generalizing s t with
  | nil => exact congrArg (Prod.mk _) same
  | cons program rest ih =>
    have first : told (s.exec program) = told (t.exec program) := run_told same program 0 []
    unfold execAll
    generalize s.exec program = left, t.exec program = right at first
    obtain ⟨result, s'⟩ := left
    obtain ⟨result', t'⟩ := right
    obtain ⟨rfl, same'⟩ := Prod.mk.inj first
    cases result with
    | error e => exact congrArg (Prod.mk _) same'
    | ok stack => exact ih same'

theorem execLine_told (same : s.insight = t.insight) (text : String) :
    told (s.execLine text) = told (t.execLine text) := by
  unfold execLine
  cases parseLine 1 text with
  | error m => exact congrArg (Prod.mk _) same
  | ok program =>
    obtain ⟨result, same'⟩ := Prod.mk.inj (run_told same program 0 [])
    exact congrArg₂ (fun r i => (Except.mapError Failure.fault r, i)) result same'

theorem execScript_told (same : s.insight = t.insight) (text : String) :
    told (s.execScript text) = told (t.execScript text) := by
  unfold execScript
  cases parseScript text with
  | error mistakes => cases mistakes <;> exact congrArg (Prod.mk _) same
  | ok programs =>
    obtain ⟨result, same'⟩ := Prod.mk.inj (execAll_told same programs)
    exact congrArg₂ (fun r i => (Except.mapError Failure.fault r, i)) result same'

theorem fire_insight (same : s.insight = t.insight) (f : Firing) : (s.fire f).insight = (t.fire f).insight := by
  unfold fire
  rw [timeline_eq same]
  cases t.timeline.tasks[f.task]? with
  | none => exact same
  | some task =>
    have alike := views_insight.act Machine.redraw_insight task.slot.shape task.action s t same
    dsimp only
    generalize act _ _ _ s = left, act _ _ _ t = right at alike
    cases left with
    | ok u s' =>
      cases right with
      | ok u' t' => exact (Prod.mk.inj alike).2
      | error e t' => simp [outcome] at alike
    | error e s' =>
      cases right with
      | ok u t' => simp [outcome] at alike
      | error e' t' =>
        obtain ⟨fault, same'⟩ := Prod.mk.inj alike
        cases fault
        cases e with
        | unknownShape id => exact cancelTask_insight same' f.task
        | _ => exact clearHandle_insight (cancelTask_insight same' f.task) task.slot

theorem fired_insight (same : s.insight = t.insight) (firings : List Firing) :
    (s.fired firings).insight = (t.fired firings).insight := by
  induction firings generalizing s t with
  | nil => exact same
  | cons f rest ih => exact ih (fire_insight same f)

theorem tick_insight (same : s.insight = t.insight) (seconds : Float) :
    (s.tick seconds).insight = (t.tick seconds).insight := by
  have passed (timeline : Timeline) : (s.timed timeline).insight = (t.timed timeline).insight :=
    congrArg (fun i : Insight => { i with timeline }) same
  unfold tick advance
  rw [timeline_eq same]
  exact fired_insight (passed _) _

theorem call_told (same : s.insight = t.insight) (c : Call) :
    s.answer c = t.answer c ∧ (s.after c).insight = (t.after c).insight := by
  cases c with
  | exec program => exact Prod.mk.inj (run_told same program 0 [])
  | line text => exact Prod.mk.inj (execLine_told same text)
  | script text => exact Prod.mk.inj (execScript_told same text)
  | tick seconds => exact ⟨rfl, tick_insight same seconds⟩

theorem reports_eq (same : s.insight = t.insight) (calls : List Call) : s.reports calls = t.reports calls := by
  induction calls generalizing s t with
  | nil => rfl
  | cons c rest ih =>
    obtain ⟨answer, same'⟩ := call_told same c
    simp only [reports, answer, same', ih same']

-- The same session on another surface. One that is opened on `x` and then drawn on `y` is the session
-- opened on `y`.
def drawnOn (s : Session σ) (y : τ) : Session τ := ⟨s.words, s.shapes, s.timeline, y, s.display⟩

theorem reports_surface_independent (s : Session σ) (y : τ) (calls : List Call) :
    (s.drawnOn y).reports calls = s.reports calls := by
  have same : (s.drawnOn y).insight = s.insight := rfl
  exact reports_eq same calls

-- The edits do depend on the surface: one that knows no nodes is told twice to create the node.
example :
    let blank : Session (Recorded Blank) := opening ⟨.blank, []⟩ .discarded 1
    let scene : Session (Recorded Scene) := blank.drawnOn ⟨Scene.initial, []⟩
    (scene.after (.line "add circle a 0 0 1")).surface.edits.length = 3 ∧
      (blank.after (.line "add circle a 0 0 1")).surface.edits.length = 4 := by
  decide +kernel

end Session
end Diorama
