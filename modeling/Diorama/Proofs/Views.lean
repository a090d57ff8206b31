import Diorama.Proofs.Actions

namespace Diorama

section Agreeing

variable {ε σ τ κ α β : Type} {p : σ → κ} {q : τ → κ} {x : EStateM ε σ α} {y : EStateM ε τ α}
  {f : α → EStateM ε σ β} {g : α → EStateM ε τ β}

def outcome (p : σ → κ) : EStateM.Result ε σ α → Except ε α × κ
  | .ok a s => (.ok a, p s)
  | .error e s => (.error e, p s)

-- From states that show the same, both actions have the same result and show the same again.
def Agree (p : σ → κ) (q : τ → κ) (x : EStateM ε σ α) (y : EStateM ε τ α) : Prop :=
  ∀ s t, p s = q t → outcome p (x s) = outcome q (y t)

theorem agree_pure (a : α) : Agree p q (pure a : EStateM ε σ α) (pure a) := by
  intro s t same
  exact congrArg (Prod.mk _) same

theorem agree_ofExcept (r : Except ε α) :
    Agree p q (MonadExcept.ofExcept r : EStateM ε σ α) (MonadExcept.ofExcept r) := by
  intro s t same
  cases r <;> exact congrArg (Prod.mk _) same

theorem agree_get {f : σ → EStateM ε σ β} {g : τ → EStateM ε τ β}
    (each : ∀ s t, p s = q t → Agree p q (f s) (g t)) : Agree p q (get >>= f) (get >>= g) := by
  intro s t same
  exact each s t same s t same

theorem agree_modify {f : σ → σ} {g : τ → τ} (kept : ∀ s t, p s = q t → p (f s) = q (g t)) :
    Agree p q (modify f : EStateM ε σ PUnit) (modify g : EStateM ε τ PUnit) := by
  intro s t same
  exact congrArg (Prod.mk _) (kept s t same)

theorem Agree.bind (first : Agree p q x y) (later : ∀ a, Agree p q (f a) (g a)) :
    Agree p q (x >>= f) (y >>= g) := by
  intro s t same
  have alike := first s t same
  cases left : x s with
  | ok a s' =>
    cases right : y t with
    | ok b t' =>
      simp only [left, right, outcome, Prod.mk.injEq, Except.ok.injEq] at alike
      obtain ⟨rfl, same'⟩ := alike
      rw [Action.bind_ok left, Action.bind_ok right]
      exact later a s' t' same'
    | error e t' => simp [left, right, outcome] at alike
  | error e s' =>
    cases right : y t with
    | ok b t' => simp [left, right, outcome] at alike
    | error e' t' =>
      rw [left, right] at alike
      rw [Action.bind_error left, Action.bind_error right]
      simpa [outcome] using alike

theorem agree_forM {γ : Type} {f : γ → EStateM ε σ PUnit} {g : γ → EStateM ε τ PUnit} {cs : List γ}
    (each : ∀ c ∈ cs, Agree p q (f c) (g c)) : Agree p q (cs.forM f) (cs.forM g) := by
  induction cs with
  | nil => exact agree_pure _
  | cons c cs ih =>
    refine (each c (by simp)).bind fun _ => ih fun d member => ?_
    exact each d (by simp [member])

end Agreeing

namespace Session

def Drawing : Type 1 := (ρ : Type) → [Surface ρ] → ρ → ρ

variable {σ τ κ : Type} [Surface σ] [Surface τ] {p : Session σ → κ} {q : Session τ → κ}

-- Views of sessions that show their shapes and timelines and can follow every change but a definition.
structure Views (p : Session σ → κ) (q : Session τ → κ) : Prop where
  shapes {s : Session σ} {t : Session τ} : p s = q t → s.shapes = t.shapes
  timeline {s : Session σ} {t : Session τ} : p s = q t → s.timeline = t.timeline
  changed {s : Session σ} {t : Session τ} (shapes : Registry) (timeline : Timeline) : p s = q t →
    p { s with shapes, timeline } = q { t with shapes, timeline }
  drawn {s : Session σ} {t : Session τ} (drawing : Drawing) : p s = q t →
    p { s with surface := drawing σ s.surface } = q { t with surface := drawing τ t.surface }
  told {s : Session σ} {t : Session τ} (text : String) : p s = q t → p (s.tell text) = q (t.tell text)

namespace Views

variable (views : Views p q)

include views

theorem change (f : Registry → Registry) (g : Timeline → Timeline) :
    Agree p q (modify fun s => { s with shapes := f s.shapes, timeline := g s.timeline } : Action σ Unit)
      (modify fun t => { t with shapes := f t.shapes, timeline := g t.timeline } : Action τ Unit) := by
  refine agree_modify fun s t same => ?_
  rw [views.shapes same, views.timeline same]
  exact views.changed _ _ same

theorem changeShapes (f : Registry → Registry) : Agree p q (Session.changeShapes f) (Session.changeShapes f) :=
  views.change f fun timeline => timeline

theorem changeTimeline (f : Timeline → Timeline) : Agree p q (Session.changeTimeline f) (Session.changeTimeline f) :=
  views.change (fun shapes => shapes) f

theorem halt (id : String) :
    Agree p q (modify (Session.halt id) : Action σ Unit) (modify (Session.halt id) : Action τ Unit) :=
  views.change (fun shapes => shapes.modify id fun shape => { shape with handles := .none })
    fun timeline => Channel.all.foldl (fun t channel => t.cancelSlot ⟨id, channel⟩) timeline

theorem draw (drawing : Drawing) : Agree p q (Session.draw (drawing σ)) (Session.draw (drawing τ)) :=
  agree_modify fun _ _ same => views.drawn drawing same

theorem shape (id : String) : Agree p q (Session.shape id) (Session.shape id) := by
  refine agree_get fun s t same => ?_
  rw [views.shapes same]
  exact agree_ofExcept _

theorem update (id : String) (f : Shape → Shape) : Agree p q (Session.update id f) (Session.update id f) :=
  (views.shape id).bind fun _ => views.changeShapes _

theorem startTask (slot : Slot) (action : TaskAction) (rate : Float) :
    Agree p q (Session.startTask slot action rate) (Session.startTask slot action rate) := by
  refine agree_get fun s t same => ?_
  rw [views.timeline same]
  exact (views.changeTimeline _).bind fun _ => agree_pure _

theorem startAxis (slot : Slot) (action : TaskAction) (rate : Float) :
    Agree p q (Session.startAxis slot action rate) (Session.startAxis slot action rate) := by
  unfold Session.startAxis
  split
  · exact (views.startTask slot action rate).bind fun _ => agree_pure _
  · exact agree_pure _

theorem stop (id : String) : Agree p q (Session.stop id) (Session.stop id) :=
  (views.shape id).bind fun _ => views.halt _

theorem render (id : String) : Agree p q (Session.render id) (Session.render id) := by
  refine agree_get fun s t same => ?_
  rw [views.shapes same]
  exact (agree_ofExcept _).bind fun _ => views.draw fun _ _ => Surface.place _ _ _ _

theorem register (id : String) (value : Shape) : Agree p q (Session.register id value) (Session.register id value) := by
  have last : Agree p q (do Session.draw (Surface.ensureNode value.kind id); Session.render id)
      (do Session.draw (Surface.ensureNode value.kind id); Session.render id) :=
    (views.draw fun _ _ => Surface.ensureNode value.kind id).bind fun _ => views.render id
  refine agree_get fun s t same => ?_
  rw [views.shapes same]
  cases t.shapes[id]? with
  | some previous => exact (views.changeShapes _).bind fun _ => last
  | none => exact (views.halt id).bind fun _ => (views.changeShapes _).bind fun _ => last

theorem rotateBy (id : String) (step : Float) : Agree p q (Session.rotateBy id step) (Session.rotateBy id step) :=
  (views.update id _).bind fun _ => views.render id

theorem rotate (id : String) (angle rate : Float) :
    Agree p q (Session.rotate id angle rate) (Session.rotate id angle rate) := by
  refine (views.shape id).bind fun _ => (views.changeTimeline _).bind fun _ => ?_
  refine (views.update id _).bind fun _ => ?_
  split
  · exact (views.startTask _ _ _).bind fun _ => views.update id _
  · exact views.rotateBy id angle

theorem move (id : String) (vx vy : Float) : Agree p q (Session.move id vx vy) (Session.move id vx vy) := by
  refine (views.shape id).bind fun _ => (views.changeTimeline _).bind fun _ => ?_
  refine (views.changeTimeline _).bind fun _ => (views.startAxis _ _ _).bind fun x => ?_
  refine (views.startAxis _ _ _).bind fun y => (views.update id _).bind fun _ => ?_
  split
  · exact views.render id
  · exact agree_pure _

theorem remove (id : String) : Agree p q (Session.remove id) (Session.remove id) := by
  refine (views.shape id).bind fun removed => (views.changeShapes _).bind fun _ => ?_
  refine Agree.bind (agree_forM fun other _ => agree_get fun s t same => ?_) fun _ =>
    views.draw fun _ _ => Surface.applyAll _
  rw [views.shapes same]
  split
  · exact views.render other
  · exact agree_pure _

section Redrawing

variable {redraw : String → Action σ Unit} {redraw' : String → Action τ Unit}
  (redraws : ∀ id, Agree p q (redraw id) (redraw' id))

include redraws

theorem redrawChildren (id : String) :
    Agree p q (Session.redrawChildren redraw id) (Session.redrawChildren redraw' id) :=
  (views.shape id).bind fun _ => agree_forM fun c _ => redraws c

theorem bindTo (parent child : String) (position : Float × Float) :
    Agree p q (Session.bindTo redraw parent child position) (Session.bindTo redraw' parent child position) := by
  have last : Agree p q (do redraw child; Session.redrawChildren redraw child)
      (do redraw' child; Session.redrawChildren redraw' child) :=
    (redraws child).bind fun _ => views.redrawChildren redraws child
  refine agree_get fun s t same => ?_
  rw [views.shapes same]
  refine (agree_ofExcept _).bind fun linked => (views.update child _).bind fun _ => ?_
  cases linked with
  | true => exact last
  | false =>
    refine (views.changeShapes _).bind fun _ => ?_
    exact (views.draw fun _ _ => Surface.applyAll _).bind fun _ => last

theorem pin (id : String) (position : Float × Float) :
    Agree p q (Session.pin redraw id position) (Session.pin redraw' id position) := by
  refine agree_get fun s t same => ?_
  rw [views.shapes same]
  refine (agree_ofExcept _).bind fun top => (views.update top _).bind fun _ => ?_
  exact (views.render top).bind fun _ => views.redrawChildren redraws top

theorem reshape (id : String) (geometry : Geometry) :
    Agree p q (Session.reshape redraw id geometry) (Session.reshape redraw' id geometry) :=
  (views.shape id).bind fun _ => (views.register id _).bind fun _ => views.redrawChildren redraws id

theorem act (id : String) (action : TaskAction) :
    Agree p q (Session.act redraw id action) (Session.act redraw' id action) := by
  cases action with
  | rotate step => exact views.rotateBy id step
  | translate dx dy =>
    exact (views.update id _).bind fun _ => (views.render id).bind fun _ => views.redrawChildren redraws id

end Redrawing

end Views
end Session

namespace Machine

variable {σ τ κ α β : Type} {p : Session σ → κ} {q : Session τ → κ}

def view (p : Session σ → κ) (m : Machine σ) : Stack × κ := (m.stack, p m.session)

theorem agree_onStack (take : Stack.Taking α) : Agree (view p) (view q) (onStack take) (onStack take) := by
  intro m n same
  obtain ⟨stack, session⟩ := Prod.mk.inj same
  unfold onStack
  rw [stack]
  cases take n.stack <;> simp [outcome, view, session]

theorem agree_onSession {x : Action σ α} {y : Action τ α} (agree : Agree p q x y) :
    Agree (view p) (view q) (onSession x) (onSession y) := by
  intro m n same
  obtain ⟨stack, session⟩ := Prod.mk.inj same
  have alike := agree m.session n.session session
  unfold onSession
  cases left : x m.session <;> cases right : y n.session <;>
    simp [left, right, outcome, view, stack] at alike ⊢ <;> exact alike

theorem agree_take {take : Stack.Taking α} {next : α → Step σ β} {next' : α → Step τ β}
    (later : ∀ a, Agree (view p) (view q) (next a) (next' a)) :
    Agree (view p) (view q) (onStack take >>= next) (onStack take >>= next') :=
  (agree_onStack take).bind later

theorem agree_binary (operation : Float → Float → Float) :
    Agree (view p) (view q) (binary operation) (binary operation) :=
  agree_take fun _ => agree_take fun _ => agree_onStack _

variable [Surface σ] [Surface τ] {redraw : String → Action σ Unit} {redraw' : String → Action τ Unit}

theorem agree_define
    (defined : ∀ name v s t, p s = q t → p (s.define name v) = q (t.define name v)) :
    Agree (view p) (view q) (perform redraw .define) (perform redraw' .define) := by
  refine agree_take fun name => agree_take fun v => agree_onSession ?_
  exact agree_modify (defined name v)

theorem agree_perform (views : Session.Views p q) (redraws : ∀ id, Agree p q (redraw id) (redraw' id))
    {primitive : Primitive} (other : primitive ≠ .define) :
    Agree (view p) (view q) (perform redraw primitive) (perform redraw' primitive) := by
  cases primitive with
  | plus => exact agree_binary _
  | minus => exact agree_binary _
  | times => exact agree_binary _
  | «over» => exact agree_binary _
  | host name operation => exact agree_binary operation
  | sqrt => exact agree_take fun _ => agree_onStack _
  | dup => exact agree_take fun _ => agree_onStack _
  | drop => exact agree_take fun _ => agree_pure _
  | swap => exact agree_take fun _ => agree_take fun _ => agree_take fun _ => agree_onStack _
  | define => exact absurd rfl other
  | display =>
    refine agree_take fun v => agree_onSession ?_
    exact agree_modify fun _ _ same => views.told v.shownText same
  | add => exact agree_take fun id => agree_take fun shape => agree_onSession (views.register id shape)
  | bind =>
    refine agree_take fun parent => agree_take fun child => agree_take fun x => agree_take fun y => ?_
    exact agree_onSession (views.bindTo redraws parent child (x, y))
  | render => exact agree_take fun id => agree_onSession (views.render id)
  | pin =>
    refine agree_take fun id => agree_take fun x => agree_take fun y => ?_
    exact agree_onSession (views.pin redraws id (x, y))
  | modify =>
    refine agree_take fun id => (agree_onSession (views.shape id)).bind fun record => ?_
    exact agree_take fun geometry => agree_onSession (views.reshape redraws id geometry)
  | remove => exact agree_take fun id => agree_onSession (views.remove id)
  | rotate =>
    refine agree_take fun id => agree_take fun angle => agree_take fun rate => ?_
    exact agree_onSession (views.rotate id angle (rate.getD 0))
  | move =>
    refine agree_take fun id => agree_take fun vx => agree_take fun vy => ?_
    exact agree_onSession (views.move id vx vy)
  | stop => exact agree_take fun id => agree_onSession (views.stop id)

theorem agree_redraw (views : Session.Views p q)
    (heard : ∀ s t, p s = q t → resolve s (.word "render") = resolve t (.word "render")) (id : String) :
    Agree p q (Machine.redraw id) (Machine.redraw id) := by
  -- a definition takes a symbol, and all that a program of its own finds on its stack is a string
  intro s t same
  rw [redraw_resolve, redraw_resolve, heard s t same]
  cases resolve t (.word "render") with
  | error e => exact congrArg (Prod.mk _) same
  | ok v =>
    cases v with
    | primitive primitive =>
      by_cases defines : primitive = .define
      · subst defines
        exact congrArg (Prod.mk _) same
      · have start : view p ⟨[.string id], s⟩ = view q ⟨[.string id], t⟩ := congrArg (Prod.mk _) same
        have alike := agree_perform views (fun _ => agree_pure ()) defines _ _ start
        dsimp only
        generalize perform _ _ ⟨_, s⟩ = left, perform _ _ ⟨_, t⟩ = right at alike
        cases left <;> cases right <;> simp_all [outcome, view]
    | _ => exact congrArg (Prod.mk _) same

theorem agree_instruct (views : Session.Views p q) (redraws : ∀ id, Agree p q (redraw id) (redraw' id))
    (defined : ∀ name v s t, p s = q t → p (s.define name v) = q (t.define name v)) {v : Value}
    (meaning : ∀ s t, p s = q t → resolve s v = resolve t v) :
    Agree (view p) (view q) (instruct redraw v) (instruct redraw' v) := by
  refine agree_get fun m n same => ?_
  rw [meaning _ _ (congrArg Prod.snd same)]
  refine (agree_ofExcept _).bind fun u => ?_
  cases u with
  | primitive primitive =>
    by_cases defines : primitive = .define
    · subst defines
      exact agree_define defined
    · exact agree_perform views redraws defines
  | _ => exact agree_onStack _

end Machine
end Diorama
