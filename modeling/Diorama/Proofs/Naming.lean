import Diorama.Proofs.Locality
import Diorama.Proofs.Views

namespace Diorama

def Program.Names (program : Program) (word : String) : Prop := word = "render" ∨ Value.word word ∈ program

namespace Session

variable {σ : Type} {N : String → Prop} {s t : Session σ}

structure AlikeOn (N : String → Prop) (s t : Session σ) : Prop where
  words : ∀ word, N word → s.words[word]? = t.words[word]?
  shapes : s.shapes = t.shapes
  timeline : s.timeline = t.timeline
  surface : s.surface = t.surface
  display : s.display = t.display

def glimpse (N : String → Prop) (s : Session σ) :
    ({ word // N word } → Option Value) × Registry × Timeline × σ × Display :=
  (fun word => s.words[word.1]?, s.shapes, s.timeline, s.surface, s.display)

theorem glimpse_iff : s.glimpse N = t.glimpse N ↔ s.AlikeOn N t := by
  constructor
  · intro same
    obtain ⟨words, shapes, timeline, surface, display⟩ :
      _ ∧ s.shapes = t.shapes ∧ s.timeline = t.timeline ∧ s.surface = t.surface ∧ s.display = t.display := by
      simpa only [glimpse, Prod.mk.injEq] using same
    exact ⟨fun word named => congrFun words ⟨word, named⟩, shapes, timeline, surface, display⟩
  · intro alike
    have words : (fun word : { word // N word } => s.words[word.1]?) = fun word => t.words[word.1]? :=
      funext fun word => alike.words word.1 word.2
    simp only [glimpse, words, alike.shapes, alike.timeline, alike.surface, alike.display]

theorem AlikeOn.ready (alike : s.AlikeOn N t) (stack : Stack) :
    Machine.view (glimpse N) ⟨stack, s⟩ = Machine.view (glimpse N) ⟨stack, t⟩ :=
  congrArg (Prod.mk stack) (glimpse_iff.mpr alike)

theorem AlikeOn.define (alike : s.AlikeOn N t) (name : String) (v : Value) :
    (s.define name v).AlikeOn N (t.define name v) := by
  refine { alike with words := ?_ }
  intro word named
  simp only [Session.define, Std.ExtTreeMap.getElem?_insert, alike.words word named]

theorem views_glimpse [Surface σ] : Views (glimpse N : Session σ → _) (glimpse N) where
  shapes same := (glimpse_iff.mp same).shapes
  timeline same := (glimpse_iff.mp same).timeline
  changed _ _ same := glimpse_iff.mpr { glimpse_iff.mp same with shapes := rfl, timeline := rfl }
  drawn drawing same :=
    have alike := glimpse_iff.mp same
    glimpse_iff.mpr { alike with surface := congrArg (drawing σ) alike.surface }
  told text same :=
    have alike := glimpse_iff.mp same
    glimpse_iff.mpr { alike with display := congrArg (Display.push text) alike.display }

theorem views_framed [Surface σ] (words : Dictionary) :
    Views (fun s : Session σ => (s, s.words)) fun s => (s, words) where
  shapes same := congrArg (fun seen => seen.1.shapes) same
  timeline same := congrArg (fun seen => seen.1.timeline) same
  changed shapes timeline same :=
    congrArg (fun seen : Session σ × Dictionary => ({ seen.1 with shapes, timeline }, seen.2)) same
  drawn drawing same := congrArg (fun seen : Session σ × Dictionary =>
    ({ seen.1 with surface := drawing σ seen.1.surface }, seen.2)) same
  told text same := congrArg (fun seen : Session σ × Dictionary => (seen.1.tell text, seen.2)) same

end Session

namespace Machine

variable {σ : Type} {N : String → Prop} {m n : Machine σ} {v : Value} {program : Program} {word : String}

def Defines (word : String) (e : Value × Stack) : Prop :=
  e.1 = .primitive .define ∧ ∃ v rest, e.2 = .symbol word :: v :: rest

theorem resolve_alike {s t : Session σ} (alike : s.AlikeOn N t) (named : ∀ word, v = .word word → N word) :
    resolve s v = resolve t v := by
  cases v with
  | word word => simp only [resolve, Session.lookup, alike.words word (named word rfl), alike.shapes]
  | _ => rfl

variable [Surface σ]

theorem redraw_alike (named : N "render") (id : String) :
    Agree (Session.glimpse N) (Session.glimpse N) (Machine.redraw id : Action σ Unit) (Machine.redraw id) := by
  refine agree_redraw Session.views_glimpse (fun s t same => ?_) id
  exact resolve_alike (Session.glimpse_iff.mp same) fun word is => Value.word.inj is ▸ named

theorem instruct_alike (render : N "render") (named : ∀ word, v = .word word → N word) :
    Agree (view (Session.glimpse N)) (view (Session.glimpse N)) (instruct Machine.redraw v : Step σ Unit)
      (instruct Machine.redraw v) := by
  refine agree_instruct Session.views_glimpse (redraw_alike render) ?_ ?_
  · intro name v s t same
    exact Session.glimpse_iff.mpr ((Session.glimpse_iff.mp same).define name v)
  · intro s t same
    exact resolve_alike (Session.glimpse_iff.mp same) named

theorem execute_alike (named : ∀ word, program.Names word → N word) :
    Agree (view (Session.glimpse N)) (view (Session.glimpse N)) (execute Machine.redraw program : Step σ Unit)
      (execute Machine.redraw program) := by
  refine agree_forM fun v held => instruct_alike (named _ (.inl rfl)) ?_
  rintro word rfl
  exact named word (.inr held)

theorem encounters_alike (named : ∀ word, program.Names word → N word)
    (same : view (Session.glimpse N) m = view (Session.glimpse N) n) : encounters program m = encounters program n := by
  induction program generalizing m n with
  | nil => rfl
  | cons v rest ih =>
    obtain ⟨stack, seen⟩ : m.stack = n.stack ∧ m.session.glimpse N = n.session.glimpse N := Prod.mk.inj same
    have own : ∀ word, v = .word word → N word := fun word is => named word (.inr (by simp [is]))
    have later : ∀ word, Program.Names rest word → N word :=
      fun word held => named word (held.imp_right (List.mem_cons_of_mem v))
    have meaning := resolve_alike (Session.glimpse_iff.mp seen) own
    have alike := instruct_alike (named _ (.inl rfl)) own m n same
    unfold encounters
    rw [meaning, stack]
    generalize instruct Machine.redraw v m = left, instruct Machine.redraw v n = right at alike
    cases left with
    | ok u m' =>
      cases right with
      | ok u' n' =>
        dsimp only
        rw [ih later (Prod.mk.inj alike).2]
      | error e n' => simp [outcome] at alike
    | error e m' =>
      cases right with
      | ok u n' => simp [outcome] at alike
      | error e' n' => rfl

theorem perform_words {primitive : Primitive} (other : primitive ≠ .define) :
    (outcome (fun m => m.session.words) (perform Machine.redraw primitive m)).2 = m.session.words := by
  have views : Session.Views (fun s : Session σ => (s, s.words)) fun s => (s, m.session.words) :=
    Session.views_framed m.session.words
  have redraws (id : String) := agree_redraw views (fun s t same => by rw [(Prod.mk.inj same).1]) id
  have kept := agree_perform views redraws other m m rfl
  generalize perform Machine.redraw primitive m = result at kept
  cases result with
  | ok u m' => exact (Prod.mk.inj (Prod.mk.inj (Prod.mk.inj kept).2).2).2
  | error e m' => exact (Prod.mk.inj (Prod.mk.inj (Prod.mk.inj kept).2).2).2

theorem define_words (absent : ∀ v rest, m.stack ≠ .symbol word :: v :: rest) :
    (outcome (fun m => m.session.words[word]?) (perform Machine.redraw .define m)).2 = m.session.words[word]? := by
  obtain ⟨stack, s⟩ := m
  rcases stack with _ | ⟨head, _ | ⟨v, rest⟩⟩
  case nil => rfl
  case cons.nil => cases head <;> rfl
  case cons.cons =>
    cases head with
    | symbol name =>
      have other : name ≠ word := fun same => absent v rest (by rw [same])
      exact (Std.ExtTreeMap.getElem?_insert).trans (if_neg (by simpa using other))
    | _ => rfl

theorem instruct_words (absent : ∀ u, resolve m.session v = .ok u → ¬ Defines word (u, m.stack)) :
    (outcome (fun m => m.session.words[word]?) (instruct Machine.redraw v m)).2 = m.session.words[word]? := by
  rw [instruct_eq]
  cases meaning : resolve m.session v with
  | error e => rfl
  | ok u =>
    cases u with
    | primitive primitive =>
      by_cases defines : primitive = .define
      · subst defines
        exact define_words fun v rest found => absent _ meaning ⟨rfl, v, rest, found⟩
      · have kept := perform_words (m := m) defines
        dsimp only
        generalize perform Machine.redraw primitive m = result at kept
        cases result with
        | ok u m' => exact congrArg (fun words : Dictionary => words[word]?) kept
        | error e m' => exact congrArg (fun words : Dictionary => words[word]?) kept
    | _ => rfl

theorem execute_words (absent : ∀ e ∈ encounters program m, ¬ Defines word e) :
    (outcome (fun m => m.session.words[word]?) (execute Machine.redraw program m)).2 = m.session.words[word]? := by
  induction program generalizing m with
  | nil => rfl
  | cons v rest ih =>
    have first := instruct_words fun u meaning => absent _ (encounters_first meaning)
    rw [execute_cons]
    cases ran : instruct Machine.redraw v m with
    | error e m' =>
      rw [ran] at first
      exact first
    | ok u m' =>
      rw [ran] at first
      exact (ih fun e met => absent e (encounters_later ran met)).trans first

end Machine

namespace Session

variable {σ : Type} [Surface σ] {s t : Session σ} {program : Program}

-- The run carries out a definition of the word. A definition in a program that a primitive runs would find no symbol.
def Defines (s : Session σ) (program : Program) (stack : Stack) (word : String) : Prop :=
  ∃ e ∈ Machine.encounters program ⟨stack, s⟩, Machine.Defines word e

theorem run_words {stack : Stack} {word : String} (absent : ¬ s.Defines program stack word) :
    (s.run program 0 stack).2.words[word]? = s.words[word]? := by
  have kept := Machine.execute_words fun e met defines => absent ⟨e, met, defines⟩
  unfold run
  rw [List.drop_zero]
  generalize Machine.execute Machine.redraw program ⟨stack, s⟩ = result at kept
  cases result with
  | ok u m => exact kept
  | error e m => exact kept

theorem AlikeOn.run (alike : s.AlikeOn program.Names t) (stack : Stack) :
    (s.run program 0 stack).1 = (t.run program 0 stack).1 ∧
      (s.run program 0 stack).2.AlikeOn program.Names (t.run program 0 stack).2 := by
  have ended := Machine.execute_alike (fun _ held => held) _ _ (alike.ready stack)
  unfold Session.run
  rw [List.drop_zero]
  generalize Machine.execute _ _ ⟨stack, s⟩ = left, Machine.execute _ _ ⟨stack, t⟩ = right at ended
  cases left <;> cases right <;> simp_all [outcome, Machine.view, glimpse_iff]

theorem AlikeOn.defines_iff (alike : s.AlikeOn program.Names t) (stack : Stack) (word : String) :
    s.Defines program stack word ↔ t.Defines program stack word := by
  unfold Defines
  rw [Machine.encounters_alike (fun _ held => held) (alike.ready stack)]

theorem run_depends_on_names (alike : s.AlikeOn program.Names t) (stack : Stack) :
    (s.run program 0 stack).1 = (t.run program 0 stack).1 ∧
    (s.run program 0 stack).2.AlikeOn program.Names (t.run program 0 stack).2 ∧
    ∀ word, ¬ s.Defines program stack word →
      (s.run program 0 stack).2.words[word]? = s.words[word]? ∧
      (t.run program 0 stack).2.words[word]? = t.words[word]? := by
  obtain ⟨result, after⟩ := alike.run stack
  refine ⟨result, after, ?_⟩
  intro word absent
  have absent' : ¬ t.Defines program stack word := by rwa [← alike.defines_iff stack word]
  exact ⟨run_words absent, run_words absent'⟩

theorem run_depends_on_names_errand :
    let s := opening Scene.initial .discarded 5
    let t := s.define "a" (.number 5)
    let stack : Stack := [.number 1, .number 2, .number 4]
    s.isDefined "a" = false ∧ t.isDefined "a" = true ∧ s.AlikeOn Sample.errand.Names t ∧
    (s.run Sample.errand 0 stack).1 = (t.run Sample.errand 0 stack).1 ∧
    (s.run Sample.errand 0 stack).2.AlikeOn Sample.errand.Names (t.run Sample.errand 0 stack).2 ∧
    ∀ word, ¬ s.Defines Sample.errand stack word →
      (s.run Sample.errand 0 stack).2.words[word]? = s.words[word]? ∧
      (t.run Sample.errand 0 stack).2.words[word]? = t.words[word]? := by
  intro s t stack
  have alike : s.AlikeOn Sample.errand.Names t := by
    refine ⟨?_, rfl, rfl, rfl, rfl⟩
    intro word named
    have other : "a" ≠ word := by
      rintro rfl
      simp [Program.Names, Sample.errand] at named
    exact (Std.ExtTreeMap.getElem?_insert.trans (if_neg (by simpa using other))).symm
  exact ⟨by decide +kernel, by decide +kernel, alike, run_depends_on_names alike stack⟩

end Session
end Diorama
