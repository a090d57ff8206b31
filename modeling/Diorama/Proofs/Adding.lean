import Diorama.Proofs.Sync

namespace Diorama

namespace Scene

variable {s : Scene} {id x container : String} {ids : List String} {kind : Kind} {P Q : String → Prop}

structure Within (P : String → Prop) (s : Scene) : Prop where
  root : s.kindOf? rootId = some .group
  shapes : ∀ x kind, s.kindOf? x = some (.shape kind) → P x

theorem within_initial : initial.Within P := by
  have only (x : String) : initial.kindOf? x = if rootId = x then some .group else none := by
    simp only [initial, kindOf?, Std.ExtTreeMap.getElem?_insert, Std.compare_eq_iff_eq]
    split
    · rfl
    · simp
  refine ⟨(only rootId).trans (if_pos rfl), fun x kind shown => ?_⟩
  rw [only] at shown
  split at shown <;> cases shown

theorem Within.mono (within : s.Within P) (weaker : ∀ x, P x → Q x) : s.Within Q :=
  ⟨within.root, fun x kind shown => weaker x (within.shapes x kind shown)⟩

theorem Within.congr {s' : Scene} (within : s.Within P) (same : ∀ x, s'.look? x = s.look? x) : s'.Within P := by
  have kinds (x : String) : s'.kindOf? x = s.kindOf? x := by rw [kindOf?_eq, same, kindOf?_eq]
  exact ⟨(kinds rootId).trans within.root, fun x kind shown => within.shapes x kind ((kinds x).symm.trans shown)⟩

theorem Within.createNode (within : s.Within P) (among : P id) : (s.createNode kind id).Within P := by
  by_cases inner : id = rootId
  · rw [inner, createNode_root]
    exact within
  · constructor
    · rw [kindOf?_eq, look?_createNode inner, if_neg inner, ← kindOf?_eq]
      exact within.root
    · intro x k shown
      rw [kindOf?_eq, look?_createNode inner] at shown
      split at shown
      · subst x
        exact among
      · exact within.shapes x k (kindOf?_eq.trans shown)

theorem Within.createGroup (within : s.Within P) : (s.createGroup id).Within P := by
  have kinds (x : String) : (s.createGroup id).kindOf? x = some .group ∨
      (s.createGroup id).kindOf? x = s.kindOf? x := by
    rw [kindOf?_eq, kindOf?_eq, look?_createGroup]
    split
    · subst x
      cases s.look? id
      · exact .inl rfl
      · exact .inr rfl
    · exact .inr rfl
  refine ⟨(kinds rootId).elim (fun group => group) (·.trans within.root), fun x kind shown => ?_⟩
  rcases kinds x with group | same
  · cases group.symm.trans shown
  · exact within.shapes x kind (same.symm.trans shown)

theorem Within.deleteNode (within : s.Within P) : (s.deleteNode id).Within fun x => P x ∧ x ≠ id := by
  by_cases inner : id = rootId
  · subst inner
    rw [deleteNode_root]
    refine ⟨within.root, fun x kind shown => ⟨within.shapes x kind shown, ?_⟩⟩
    rintro rfl
    cases within.root.symm.trans shown
  · constructor
    · rw [kindOf?_eq, look?_deleteNode inner, if_neg inner, ← kindOf?_eq]
      exact within.root
    · intro x k shown
      rw [kindOf?_eq, look?_deleteNode inner] at shown
      split at shown
      · cases shown
      · rename_i other
        exact ⟨within.shapes x k (kindOf?_eq.trans shown), Ne.symm other⟩

theorem Within.deleteNodes (within : s.Within P) :
    Within (fun x => P x ∧ x ∉ ids) (Surface.applyAll (ids.map Edit.deleteNode) s) := by
  induction ids generalizing s P with
  | nil => exact within.mono fun x among => ⟨among, by simp⟩
  | cons id ids ih =>
    refine (ih within.deleteNode).mono ?_
    rintro x ⟨⟨among, other⟩, later⟩
    exact ⟨among, by simp [other, later]⟩

theorem Within.ensureNode (within : s.Within P) (among : P id) : Within P (Surface.ensureNode kind id s) := by
  unfold Surface.ensureNode
  split
  · split
    · exact within
    · refine Within.createNode (s := s.deleteNode id) (within.deleteNode.mono fun _ kept => kept.1) among
  · exact within.createNode among

theorem look?_ensureNode_apart (apart : x ≠ id) : look? (Surface.ensureNode kind id s) x = s.look? x := by
  unfold Surface.ensureNode
  split
  · split
    · rfl
    · exact (look?_createNode_apart apart).trans (look?_deleteNode_apart apart)
  · exact look?_createNode_apart apart

theorem ensureNode_cases (s : Scene) (kind : Kind) (inner : id ≠ rootId) :
    s.kindOf? id = some (.shape kind) ∧ Surface.ensureNode kind id s = s ∨
      look? (Surface.ensureNode kind id s) id = some ⟨.shape kind, []⟩ := by
  have created (s : Scene) : (s.createNode kind id).look? id = some ⟨.shape kind, []⟩ := by
    rw [look?_createNode inner, if_pos rfl]
  unfold Surface.ensureNode
  split
  · rename_i found known
    split
    · rename_i same
      exact .inl ⟨same ▸ known, rfl⟩
    · exact .inr (created _)
  · exact .inr (created _)

end Scene

theorem Shape.nodeAttributes_inj {shape : Shape} {a b : Geometry} (kind : a.kind = b.kind)
    (same : shape.nodeAttributes a = shape.nodeAttributes b) : a = b := by
  cases a <;> cases b <;> cases kind
  all_goals
    simp only [nodeAttributes, Geometry.attributes, Geometry.kind, Kind.attributeNames, Geometry.values,
      List.zipWith_cons_cons, List.cons_append, List.cons.injEq, Attribute.mk.injEq,
      AttributeValue.number.injEq] at same
    simp [same]

namespace Registry

variable {r : Registry} {scene : Scene} {id : String} {P : String → Prop}

-- A record like `value` in the place of `id` leaves every child of `id` where it is drawn.
def KeepsPlaces (r : Registry) (id : String) (value : Shape) : Prop :=
  ∀ (previous child : Shape) (c : String), r[id]? = some previous → r[c]? = some child →
    child.links.parent = some id →
    child.geometry.moveBy value.position = child.geometry.moveBy previous.position

theorem within_display (within : scene.Within P) (covers : ∀ x ∈ r, P x) : (r.display id scene).Within P := by
  cases shown : r.look? id with
  | none =>
    have absent : r[id]? = none := Option.map_eq_none_iff.mp shown
    unfold display
    rw [absent]
    exact within
  | some look =>
    obtain ⟨shape, found, _⟩ := Option.map_eq_some_iff.mp shown
    constructor
    · by_cases outer : rootId = id
      · subst outer
        have root := within.root
        rw [Scene.kindOf?_eq] at root
        obtain ⟨old, there, group⟩ := Option.map_eq_some_iff.mp root
        rw [Scene.kindOf?_eq, look?_display shown there]
        exact congrArg some group
      · rw [Scene.kindOf?_eq, look?_display_apart outer, ← Scene.kindOf?_eq]
        exact within.root
    · intro x kind drawn
      by_cases same : x = id
      · subst x
        exact covers id (mem_of_found found)
      · rw [Scene.kindOf?_eq, look?_display_apart same] at drawn
        exact within.shapes x kind (Scene.kindOf?_eq.trans drawn)

theorem within_drawn (ids : List String) (within : scene.Within P) (covers : ∀ x ∈ r, P x) :
    (ids.foldl (fun scene id => r.display id scene) scene).Within P := by
  induction ids generalizing scene with
  | nil => exact within
  | cons id ids ih => exact ih (within_display within covers)

end Registry
namespace Session

variable {s s' : Session Scene} {id : String} {ids : List String} {f : Shape → Shape} {D : Value → Prop}
  {p : Primitive}

-- No node shows a shape that is not registered.
def Staged (s : Session Scene) : Prop := s.surface.Within (· ∈ s.shapes)

theorem Staged.drawnAll (staged : s.Staged) : (s.drawnAll ids).Staged :=
  Registry.within_drawn ids staged fun _ present => present

theorem Staged.changed (staged : s.Staged) : (s.changed id f).Staged :=
  Scene.Within.mono staged fun _ => Std.ExtTreeMap.mem_modify.mpr

theorem Staged.registered (staged : s.Staged) (id : String) (value : Shape) : (s.registered id value).Staged := by
  have recorded : (s.recorded id value).surface.Within (· ∈ (s.recorded id value).shapes) := by
    rw [recorded_surface]
    exact Scene.Within.mono staged fun _ present => recorded_mem.mpr (.inr present)
  have fitted : ((s.recorded id value).fitted value.kind id).Staged :=
    recorded.ensureNode (recorded_mem.mpr (.inl rfl))
  exact fitted.drawnAll

theorem Staged.attached {parent child : String} {position : Float × Float} {linked : Bool}
    (staged : s.Staged) : (s.attached parent child position linked).Staged := by
  have covers (x : String) (present : x ∈ s.shapes) :
      x ∈ (s.attached parent child position linked).shapes := attached_mem.mpr present
  cases linked with
  | true => exact staged.mono covers
  | false =>
    have grouped : (s.surface.createGroup (groupId parent child)).Within (· ∈ s.shapes) := staged.createGroup
    refine Scene.Within.mono (grouped.congr fun x => ?_) covers
    exact Scene.look?_appendChild.trans (Scene.look?_appendChild.trans Scene.look?_appendChild)

theorem Staged.removed {record : Shape} (forest : s.shapes.Forest) (staged : s.Staged)
    (found : s.shapes[id]? = some record) : (s.removed id record).Staged := by
  -- the shape that is removed may be drawn up to the very end; its node goes last
  let cut : Session Scene := { s with shapes := s.shapes.cutOut id record }
  have among (x : String) : x ∈ cut.shapes ↔ x ≠ id ∧ x ∈ s.shapes := forest.mem_cutOut found
  have drawn := Registry.within_drawn (r := cut.shapes)
    (record.links.children ++ record.links.parent.toList) staged fun x present => ((among x).mp present).2
  refine drawn.deleteNodes.mono ?_
  rintro x ⟨present, kept⟩
  refine (among x).mpr ⟨?_, present⟩
  rintro rfl
  exact kept (by simp)

theorem staging_staged : Staging (fun _ => True) Staged where
  same staged shapes surface := by
    unfold Staged
    rw [shapes, surface]
    exact staged
  changed _ staged _ _ := staged.changed
  drawn _ staged := staged.drawnAll
  added id value _ staged _ := staged.registered id value
  bound _ _ staged _ := staged.attached
  removed sound staged found := staged.removed sound.forest found

theorem Reachable.staged (reached : Reachable Scene.initial s) : s.Staged :=
  reached.invariant (fun _ _ => Scene.within_initial) fun _ _ sound staged happens =>
    staging_staged.happens sound staged happens trivial

section Recording

variable {value previous child : Shape} {x c : String}

theorem recorded_apart (apart : x ≠ id) : (s.recorded id value).shapes[x]? = s.shapes[x]? := by
  unfold recorded
  split
  · exact Registry.getElem?_modify.trans (if_neg (Ne.symm apart))
  · refine Registry.getElem?_put.trans ((if_neg (Ne.symm apart)).trans ?_)
    exact Registry.getElem?_modify.trans (if_neg (Ne.symm apart))

theorem recorded_self {σ : Type} (s : Session σ) (id : String) (value : Shape) :
    ∃ stored : Shape, (s.recorded id value).shapes[id]? = some stored ∧
      stored.geometry = value.geometry ∧ stored.fill = value.fill ∧ stored.rotation = value.rotation := by
  unfold recorded
  split
  · rename_i previous found
    refine ⟨value.replacing previous, Registry.getElem?_modify.trans ?_, rfl, rfl, rfl⟩
    rw [if_pos rfl, found]
    rfl
  · exact ⟨value.detached, Registry.getElem?_put.trans (if_pos rfl), rfl, rfl, rfl⟩

theorem recorded_look? (apart : x ≠ id) (above : s.shapes.parent? x ≠ some id) :
    (s.recorded id value).shapes.look? x = s.shapes.look? x := by
  unfold recorded
  split
  · exact Registry.look?_modify_apart apart (.inl above)
  · have halted : (s.halt id).shapes.look? x = s.shapes.look? x :=
      Registry.look?_modify_alike fun _ => ⟨rfl, rfl, rfl, rfl⟩
    have free : (s.halt id).shapes.parent? x = s.shapes.parent? x := Registry.parent?_modify fun _ => rfl
    exact (Registry.look?_put_apart apart (free ▸ above)).trans halted

theorem registered_scene (apart : x ≠ id) : (s.registered id value).surface.look? x = s.surface.look? x := by
  refine (Registry.look?_display_apart apart).trans ((Scene.look?_ensureNode_apart apart).trans ?_)
  rw [recorded_surface]

theorem registered_surface : (s.registered id value).surface =
    (s.recorded id value).shapes.display id (Surface.ensureNode value.kind id s.surface) := by
  have kept : (s.recorded id value).surface = s.surface := recorded_surface
  rw [← kept]
  rfl

theorem recorded_prepared (prepared : s.shapes.Prepared s.surface) (inner : id ≠ rootId)
    (covered : ∀ kind, s.surface.kindOf? id = some (.shape kind) → id ∈ s.shapes) :
    (s.recorded id value).shapes.Prepared (Surface.ensureNode value.kind id s.surface) := by
  intro x look shown
  obtain ⟨record, after, rfl⟩ := Option.map_eq_some_iff.mp shown
  by_cases same : x = id
  · subst x
    obtain ⟨stored, found, geometry, _⟩ := recorded_self s id value
    have kind : stored.kind = value.kind := congrArg Geometry.kind geometry
    cases found.symm.trans after
    rcases Scene.ensureNode_cases s.surface value.kind inner with ⟨known, unchanged⟩ | created
    · obtain ⟨old, before⟩ := Registry.found_of_mem (covered _ known)
      obtain ⟨there, drawn, fits⟩ := prepared id _ (Registry.look?_found before)
      rw [Scene.kindOf?_eq, drawn] at known
      have shape : there.kind = .shape value.kind := Option.some.inj known
      have kinds : old.kind = record.kind := (NodeKind.shape.inj (fits.1.symm.trans shape)).trans kind.symm
      rw [unchanged]
      exact ⟨there, drawn, fits.trans (Registry.look_fits kinds)⟩
    · exact ⟨_, created, congrArg NodeKind.shape kind.symm, List.nil_prefix⟩
  · have before : s.shapes[x]? = some record := (recorded_apart same).symm.trans after
    obtain ⟨there, drawn, fits⟩ := prepared x _ (Registry.look?_found before)
    rw [Scene.look?_ensureNode_apart same]
    exact ⟨there, drawn, fits.trans (Registry.look_fits rfl)⟩

theorem InSync.registered_self {look : Look} (staged : s.Staged) (synced : s.InSync) (inner : id ≠ rootId)
    (shown : (s.recorded id value).shapes.look? id = some look) :
    (s.registered id value).surface.look? id = some look := by
  rw [registered_surface]
  exact (recorded_prepared synced.prepared inner (staged.shapes id)).look?_display shown

theorem recorded_child_look? (apart : c ≠ id) (listed : s.shapes[c]? = some child)
    (bound : child.links.parent = some id) : (s.recorded id value).shapes.look? c =
      some (child.look (child.geometry.moveBy value.position)) := by
  obtain ⟨stored, found, geometry, _⟩ := recorded_self s id value
  have position : stored.position = value.position := congrArg Geometry.position geometry
  rw [← position]
  exact Registry.look?_child found ((recorded_apart apart).trans listed) bound

theorem InSync.registered_inner (staged : s.Staged) (after : (s.registered id value).InSync) : id ≠ rootId := by
  rintro rfl
  obtain ⟨stored, found, _⟩ := recorded_self s rootId value
  obtain ⟨node, there, kind, _⟩ := after rootId stored found
  have root := (staged.registered rootId value).root
  simp [Scene.kindOf?, there, kind] at root

theorem InSync.registered_places (forest : s.shapes.Forest) (synced : s.InSync)
    (after : (s.registered id value).InSync) : s.shapes.KeepsPlaces id value := by
  -- The node of a child is as it was. So if it is right for both records, they place the child alike.
  intro previous child c earlier listed bound
  have apart : c ≠ id := by
    rintro rfl
    exact (forest.ends c).parent_ne ((Registry.parent?_eq listed).trans bound) rfl
  have before := inSync_iff.mp synced c _ (Registry.look?_child earlier listed bound)
  have now := inSync_iff.mp after c _ (recorded_child_look? apart listed bound)
  have same := Option.some.inj (now.symm.trans ((registered_scene apart).trans before))
  refine Shape.nodeAttributes_inj ?_ (congrArg Look.attributes same)
  exact (Geometry.kind_moveTo _ _).trans (Geometry.kind_moveTo _ _).symm

theorem InSync.registered (forest : s.shapes.Forest) (staged : s.Staged) (synced : s.InSync)
    (inner : id ≠ rootId) (kept : s.shapes.KeepsPlaces id value) : (s.registered id value).InSync := by
  refine inSync_iff.mpr fun x look shown => ?_
  by_cases apart : x = id
  · subst x
    exact synced.registered_self staged inner shown
  · have same : s.shapes.look? x = (s.recorded id value).shapes.look? x := by
      by_cases above : s.shapes.parent? x = some id
      · obtain ⟨previous, earlier⟩ := Registry.found_of_mem (forest.parent_mem above)
        obtain ⟨child, listed⟩ := Registry.found_of_mem (Registry.mem_of_parent above)
        have bound := (Registry.parent?_eq listed).symm.trans above
        rw [Registry.look?_child earlier listed bound, recorded_child_look? apart listed bound,
          kept previous child x earlier listed bound]
      · exact (recorded_look? apart above).symm
    rw [registered_scene apart]
    exact inSync_iff.mp synced x look (same.trans shown)

end Recording

theorem run_add {value : Shape} {rest : Stack} {top : Value} (sound : s.Sound)
    (names : top = .string id ∨ top = .symbol id) :
    s.run [.primitive .add] 0 (top :: .shape value :: rest) = (.ok rest, s.registered id value) := by
  have popped : Machine.perform Machine.redraw .add ⟨top :: .shape value :: rest, s⟩ =
      Machine.onSession (register id value) ⟨rest, s⟩ := by
    rcases names with rfl | rfl <;> rfl
  rw [run_primitive, popped]
  simp only [Machine.onSession, register_ok sound id value]

-- Adding succeeds under any id. It leaves a session in sync that was so, unless the id is the root's
-- or a child of the shape is now placed elsewhere.
theorem add_inSync_iff (reached : Reachable Scene.initial s) (synced : s.InSync) (id : String)
    (value : Shape) (rest : Stack) :
    ∃ s', (∀ top, top = .string id ∨ top = .symbol id →
        s.run [.primitive .add] 0 (top :: .shape value :: rest) = (.ok rest, s')) ∧
      (s'.InSync ↔ id ≠ rootId ∧ s.shapes.KeepsPlaces id value) := by
  have forest := reached.sound.forest
  have staged := reached.staged
  refine ⟨s.registered id value, fun top names => run_add reached.sound names, ?_, ?_⟩
  · intro after
    exact ⟨after.registered_inner staged, synced.registered_places forest after⟩
  · rintro ⟨inner, kept⟩
    exact synced.registered forest staged inner kept

theorem add_inSync_iff_stage : Sample.stageSession.InSync ∧ ∃ s',
    (∀ top, top = .string "p" ∨ top = .symbol "p" →
        Sample.stageSession.run [.primitive .add] 0 [top, .shape (Sample.dot 0)] = (.ok [], s')) ∧
      (s'.InSync ↔ "p" ≠ rootId ∧ Sample.stageSession.shapes.KeepsPlaces "p" (Sample.dot 0)) :=
  ⟨Sample.stage_inSync, add_inSync_iff Sample.stage_reachable Sample.stage_inSync "p" (Sample.dot 0) []⟩

-- A session in sync, in which `render` means what it always did, is out of sync once `p` is added
-- again at another place: the rectangle that is bound to it stays where it was drawn.
theorem add_leaves_child_stale : Reachable Scene.initial Sample.stageSession ∧
    Sample.stageSession.Renders ∧ Sample.stageSession.InSync ∧
    ¬ (Sample.stageSession.run [.primitive .add] 0 [.string "p", .shape (Sample.dot 7)]).2.InSync :=
  ⟨Sample.stage_reachable, Sample.stage_renders, Sample.stage_inSync, by decide +kernel⟩

end Session
end Diorama
