import Diorama.Proofs.Looks
import Diorama.Proofs.Reachable

namespace Diorama.Session

variable {s s' : Session Scene} {surface : Scene} {id : String} {ids : List String} {f : Shape → Shape}
  {D : Value → Prop} {p : Primitive}

-- Every registered shape has a node of its kind, with the attributes of its record and no others.
def InSync (s : Session Scene) : Prop :=
  ∀ (id : String) (shape : Shape), s.shapes[id]? = some shape → ∃ node : Node, s.surface.nodes[id]? = some node ∧
    node.kind = .shape shape.kind ∧ node.attributes = shape.nodeAttributes (s.shapes.absolute shape)

theorem inSync_iff :
    s.InSync ↔ ∀ id look, s.shapes.look? id = some look → s.surface.look? id = some look := by
  constructor
  · intro synced id look shown
    obtain ⟨shape, found, rfl⟩ := Option.map_eq_some_iff.mp shown
    obtain ⟨node, there, kind, attributes⟩ := synced id shape found
    simp [Scene.look?, there, Node.look, Shape.look, kind, attributes]
  · intro synced id shape found
    obtain ⟨node, there, same⟩ := Option.map_eq_some_iff.mp (synced id _ (Registry.look?_found found))
    exact ⟨node, there, congrArg Look.kind same, congrArg Look.attributes same⟩

instance (s : Session Scene) : Decidable s.InSync :=
  decidable_of_iff (∀ entry ∈ s.shapes.toList,
      s.surface.look? entry.1 = some (entry.2.look (s.shapes.absolute entry.2))) <| by
    rw [inSync_iff]
    constructor
    · intro all id look shown
      obtain ⟨shape, found, rfl⟩ := Option.map_eq_some_iff.mp shown
      exact all (id, shape) (Std.ExtTreeMap.mem_toList_iff_getElem?_eq_some.mpr found)
    · intro synced entry listed
      have found := Std.ExtTreeMap.mem_toList_iff_getElem?_eq_some.mp listed
      exact synced entry.1 _ (Registry.look?_found found)

theorem InSync.prepared (synced : s.InSync) : s.shapes.Prepared s.surface :=
  fun id look shown => ⟨look, inSync_iff.mp synced id look shown, .refl look⟩

theorem InSync.drawnAll (synced : s.InSync)
    (scene : ∀ x look, s.surface.look? x = some look → s'.surface.look? x = some look)
    (kinds : s.shapes.KeepsKinds s'.shapes)
    (others : ∀ x, x ∉ ids → s'.shapes.look? x = s.shapes.look? x) : (s'.drawnAll ids).InSync := by
  have ready := synced.prepared
  rw [inSync_iff] at synced ⊢
  have prepared : s'.shapes.Prepared s'.surface := by
    intro x look shown
    obtain ⟨old, there, fits⟩ := ready.congr kinds x look shown
    exact ⟨old, scene x old there, fits⟩
  intro x look shown
  refine prepared.look?_drawn shown ?_
  by_cases member : x ∈ ids
  · exact .inl member
  · exact .inr (scene x look (synced x look ((others x member).symm.trans shown)))

theorem InSync.alike (synced : s.InSync) (alike : ∀ s, (f s).Alike s) : (s.changed id f).InSync := by
  rw [inSync_iff] at synced ⊢
  intro x look shown
  exact synced x look ((Registry.look?_modify_alike alike).symm.trans shown)

theorem InSync.turned (synced : s.InSync) (kept : ∀ s, (f s).kind = s.kind)
    (still : ∀ s, (f s).position = s.position) : ((s.changed id f).drawn id).InSync := by
  refine synced.drawnAll (fun _ _ there => there) (Registry.keepsKinds_modify fun _ _ => kept _) ?_
  intro x apart
  exact Registry.look?_modify_apart (by simpa using apart) (.inr still)

theorem InSync.shifted (forest : s.shapes.Forest) (synced : s.InSync)
    (kept : ∀ record : Shape, s.shapes[id]? = some record → (f record).kind = record.kind) :
    ((s.changed id f).drawnAll (id :: s.shapes.children id)).InSync := by
  refine synced.drawnAll (fun _ _ there => there) (Registry.keepsKinds_modify kept) ?_
  intro x apart
  simp only [List.mem_cons, not_or] at apart
  exact Registry.look?_modify_apart apart.1 (.inl fun above => apart.2 ((forest.mirrored id x).mpr above))

section Binding

variable {parent child x : String} {position : Float × Float} {linked : Bool}

theorem attached_parent (below : child ∈ s.shapes) (apart : x ≠ child) :
    (s.attached parent child position linked).shapes.parent? x = s.shapes.parent? x := by
  have moved : (s.changed child (·.moveTo position)).shapes.parent? x = s.shapes.parent? x :=
    Registry.parent?_modify fun _ => rfl
  cases linked with
  | true => exact moved
  | false =>
    refine (Registry.parent?_link (Std.ExtTreeMap.mem_modify.mpr below)).trans ?_
    rw [if_neg apart]
    exact moved

theorem attached_look? (apart : x ≠ child) (above : s.shapes.parent? x ≠ some child) :
    (s.attached parent child position linked).shapes.look? x = s.shapes.look? x := by
  have moved : (s.changed child (·.moveTo position)).shapes.look? x = s.shapes.look? x :=
    Registry.look?_modify_apart apart (.inl above)
  cases linked with
  | true => exact moved
  | false => exact (Registry.look?_link apart).trans moved

theorem attached_keepsKinds :
    s.shapes.KeepsKinds (s.attached parent child position linked).shapes := by
  have moved : s.shapes.KeepsKinds (s.changed child (·.moveTo position)).shapes :=
    Registry.keepsKinds_modify fun _ _ => Geometry.kind_moveTo _ _
  cases linked with
  | true => exact moved
  | false => exact moved.trans Registry.keepsKinds_link

theorem attached_scene {look : Look} (there : s.surface.look? x = some look) :
    (s.attached parent child position linked).surface.look? x = some look := by
  -- The group may bear the id of a registered shape. Then its node is there already and stays as it is.
  cases linked with
  | true => exact there
  | false =>
    refine Scene.look?_appendChild.trans (Scene.look?_appendChild.trans
      (Scene.look?_appendChild.trans (Scene.look?_createGroup.trans ?_)))
    split
    · rename_i same
      subst x
      exact congrArg some (congrArg (Option.getD · _) there)
    · exact there

theorem InSync.bound (sound : s.Sound) (renders : s.Renders) (synced : s.InSync)
    (granted : s.shapes.checkBinding parent child = .ok linked) :
    (s.bound parent child position linked).InSync := by
  have below := (Registry.checkBinding_cases granted).2.1
  have forest := (sound.attached granted position).forest
  have heard : (s.attached parent child position linked).Renders := by
    cases linked <;> exact renders
  unfold Session.bound
  rw [heard.redrawn]
  refine synced.drawnAll (fun _ _ => attached_scene) attached_keepsKinds ?_
  intro x apart
  simp only [List.mem_cons, not_or] at apart
  refine attached_look? apart.1 fun above => apart.2 ((forest.mirrored child x).mpr ?_)
  rw [attached_parent below apart.1]
  exact above

end Binding

theorem Renders.drawn_redrawn (renders : s.Renders) : (s.drawn id).redrawn ids = s.drawnAll (id :: ids) := by
  have heard : (s.drawn id).Renders := renders
  have row : s.drawnAll ([id] ++ ids) = (s.drawn id).drawnAll ids := drawnAll_append
  rw [heard.redrawn]
  exact row.symm

theorem InSync.fitted {record : Shape} (synced : s.InSync) (found : s.shapes[id]? = some record) :
    (s.changed id f).fitted record.kind id = s.changed id f := by
  obtain ⟨node, there, kind, _⟩ := synced id record found
  have known : Surface.kindOf? s.surface id = some (.shape record.kind) := by
    simp [Surface.kindOf?, Scene.kindOf?, there, kind]
  unfold Session.fitted Surface.ensureNode changed
  simp only [known, if_true]

theorem InSync.reshaped {record : Shape} {geometry : Geometry} (forest : s.shapes.Forest)
    (renders : s.Renders) (synced : s.InSync) (found : s.shapes[id]? = some record)
    (fits : geometry.kind = record.kind) :
    ((s.registered id { record with geometry }).redrawn (s.shapes.children id)).InSync := by
  let value : Shape := { record with geometry }
  have stored : s.recorded id value = s.changed id value.replacing := by
    unfold recorded
    rw [found]
  have heard : (s.changed id value.replacing).Renders := renders
  have drawn : s.registered id value = (s.changed id value.replacing).drawn id := by
    have same : value.kind = record.kind := fits
    unfold registered
    rw [stored, same, synced.fitted found]
  rw [drawn, heard.drawn_redrawn]
  refine InSync.shifted forest synced fun old earlier => ?_
  cases found.symm.trans earlier
  exact fits

theorem InSync.rotated (synced : s.InSync) (id : String) (angle rate : Float) :
    (s.rotated id angle rate).InSync := by
  have freed : (s.unturned id).InSync :=
    InSync.alike (s := s.timed _) synced fun _ => ⟨rfl, rfl, rfl, rfl⟩
  unfold Session.rotated
  dsimp only
  split
  · exact InSync.alike (s := (s.unturned id).timed _) freed fun _ => ⟨rfl, rfl, rfl, rfl⟩
  · exact freed.turned (fun _ => rfl) fun _ => rfl

theorem InSync.redrawn_self (synced : s.InSync) : (s.drawnAll ids).InSync :=
  synced.drawnAll (fun _ _ there => there) (fun _ record found => ⟨record, found, rfl⟩) fun _ _ => rfl

theorem InSync.moved (synced : s.InSync) (id : String) (vx vy : Float) : (s.moved id vx vy).InSync := by
  have redirected : (s.redirected id vx vy).InSync :=
    InSync.alike (s := s.timed _) synced fun _ => ⟨rfl, rfl, rfl, rfl⟩
  unfold Session.moved
  split
  · exact redirected.redrawn_self
  · exact redirected

theorem InSync.deed (sound : s.Sound) (renders : s.Renders) (synced : s.InSync) (deed : s.Deed D p s')
    (adds : p ≠ .add) (removes : p ≠ .remove) : s'.InSync := by
  cases deed with
  | quiet => exact synced
  | define => exact synced
  | display => exact synced
  | add => exact absurd rfl adds
  | bind granted => exact synced.bound sound renders granted
  | render => exact synced.redrawn_self
  | @pin id top position =>
    have heard : (s.changed top (·.moveTo position)).Renders := renders
    rw [heard.drawn_redrawn]
    exact synced.shifted sound.forest fun _ _ => Geometry.kind_moveTo _ _
  | modify found fits => exact synced.reshaped sound.forest renders found fits
  | remove => exact absurd rfl removes
  | rotate => exact synced.rotated _ _ _
  | move => exact synced.moved _ _ _
  | stop => exact synced.alike fun _ => ⟨rfl, rfl, rfl, rfl⟩

theorem InSync.acted (sound : s.Sound) (renders : s.Renders) (synced : s.InSync) (id : String)
    (action : TaskAction) : (s.acted id action).InSync := by
  cases action with
  | rotate step => exact synced.turned (fun _ => rfl) fun _ => rfl
  | translate dx dy =>
    have heard : (s.changed id (·.moveBy (dx, dy))).Renders := renders
    unfold Session.acted
    dsimp only
    rw [heard.drawn_redrawn]
    exact synced.shifted sound.forest fun _ _ => Geometry.kind_moveTo _ _

theorem InSync.fire (sound : s.Sound) (renders : s.Renders) (synced : s.InSync) (f : Firing) :
    (s.fire f).InSync ∧ (s.fire f).Renders := by
  obtain ⟨_, same⟩ | ⟨task, _, ⟨_, same⟩ | ⟨_, same⟩⟩ := fire_cases sound f
  · rw [same]
    exact ⟨synced, renders⟩
  · rw [same]
    exact ⟨synced, renders⟩
  · rw [same]
    refine ⟨synced.acted sound renders _ _, ?_⟩
    cases task.action <;> exact renders

theorem InSync.tick (sound : s.Sound) (renders : s.Renders) (synced : s.InSync) (seconds : Float) :
    (s.tick seconds).InSync := by
  have kept : (s.tick seconds).Sound ∧ (s.tick seconds).Renders ∧ (s.tick seconds).InSync := by
    refine tick_keeps (I := fun s => s.Sound ∧ s.Renders ∧ s.InSync) seconds ?_ ?_
    · exact fun limit => ⟨sound.happens (.pass limit), renders, synced⟩
    · rintro s f ⟨sound, renders, synced⟩
      have fired := synced.fire sound renders f
      exact ⟨sound.happens (.fire f), fired.2, fired.1⟩
  exact kept.2.2

theorem run_primitive {σ : Type} [Surface σ] {s : Session σ} {stack : Stack} :
    s.run [.primitive p] 0 stack = match Machine.perform Machine.redraw p ⟨stack, s⟩ with
      | .ok _ m => (.ok m.stack, m.session)
      | .error e m => (.error e, m.session) := by
  unfold run
  rw [List.drop_zero, Machine.execute_cons, Machine.instruct_eq]
  simp only [Machine.resolve]
  cases Machine.perform Machine.redraw p ⟨stack, s⟩ <;> rfl

-- On any stack, whether they succeed or fail, binding, pinning, modifying, turning, moving, stopping
-- and rendering keep a session in sync, and so does the passing of time. It takes adding or removing
-- a shape to bring it out of sync.
theorem restaging_keeps_inSync (reached : Reachable surface s) (renders : s.Renders) (synced : s.InSync) :
    (∀ p, p ≠ .add → p ≠ .remove → ∀ stack, (s.run [.primitive p] 0 stack).2.InSync) ∧
      ∀ seconds, (s.tick seconds).InSync := by
  refine ⟨?_, fun seconds => synced.tick reached.sound renders seconds⟩
  intro p adds removes stack
  have settled := Machine.perform_settles (D := fun _ => True) (fun _ => trivial) reached.sound p stack
    fun _ _ => trivial
  rw [run_primitive]
  split at settled
  · rename_i ran
    rw [ran]
    exact synced.deed reached.sound renders settled.2 adds removes
  · rename_i ran
    rw [ran]
    dsimp only
    rw [settled]
    exact synced

-- A rectangle bound to a circle that moves and turns, and a circle with the id of their group.
def Sample.stage : Program := [.shape (dot 0), .string "p", .word "add",
  .shape (.ofGeometry (.rect 0 0 2 3)), .string "c", .word "add",
  .number 2, .number 1, .string "c", .string "p", .word "bind",
  .shape (dot 5), .string "p+c", .word "add", .number 3, .number 4, .string "p", .word "move",
  .number 2, .number 45, .string "p", .word "rotate"]

def Sample.stageSession : Session Scene := (opening Scene.initial .discarded 5).after (.exec stage)

theorem Sample.stage_reachable : Reachable Scene.initial stageSession :=
  .call (c := .exec stage) (.opening .discarded 5) (by simp [Call.Plain, Program.Plain, stage, Value.type])

theorem Sample.stage_renders : stageSession.Renders := by decide +kernel

theorem Sample.stage_inSync : stageSession.InSync := by decide +kernel

theorem restaging_keeps_inSync_stage : Sample.stageSession.Renders ∧ Sample.stageSession.InSync ∧
    (∀ p, p ≠ .add → p ≠ .remove → ∀ stack, (Sample.stageSession.run [.primitive p] 0 stack).2.InSync) ∧
      ∀ seconds, (Sample.stageSession.tick seconds).InSync :=
  ⟨Sample.stage_renders, Sample.stage_inSync,
    restaging_keeps_inSync Sample.stage_reachable Sample.stage_renders Sample.stage_inSync⟩

end Diorama.Session
