import Diorama.Proofs.Actions
import Diorama.Scene

namespace Diorama

deriving instance DecidableEq for AttributeValue, Attribute

structure Look where
  kind : NodeKind
  attributes : List Attribute
  deriving DecidableEq

namespace Look

def names (look : Look) : List String := look.attributes.map (·.name)

def given (attributes : List Attribute) (look : Look) : Look :=
  { look with attributes := attributes.foldl (fun all a => Node.putAttribute a all) look.attributes }

-- Setting the attributes of `new` on a node that looks like `old` leaves none but these, in their order.
def Fits (old new : Look) : Prop := old.kind = new.kind ∧ old.names <+: new.names

end Look

namespace Node

def look (n : Node) : Look := ⟨n.kind, n.attributes⟩

theorem putAttribute_append {a : Attribute} {done rest : List Attribute}
    (absent : a.name ∉ done.map (·.name)) : putAttribute a (done ++ rest) = done ++ putAttribute a rest := by
  induction done with
  | nil => rfl
  | cons old done ih =>
    simp only [List.map_cons, List.mem_cons, not_or] at absent
    have other : (old.name == a.name) = false := by simpa using fun same => absent.1 same.symm
    simp only [List.cons_append, putAttribute, other, ih absent.2]
    rfl

theorem putAttributes_eq {done old new : List Attribute} (once : ((done ++ new).map (·.name)).Nodup)
    (names : old.map (·.name) <+: new.map (·.name)) :
    new.foldl (fun all a => putAttribute a all) (done ++ old) = done ++ new := by
  -- `done` is set already. The attributes that are left to set meet old ones of their names, or none.
  induction new generalizing done old with
  | nil =>
    have none : old = [] := by simpa using names
    simp [none]
  | cons a rest ih =>
    have absent : a.name ∉ done.map (·.name) := by
      rw [List.map_append, List.nodup_append] at once
      exact fun earlier => once.2.2 _ earlier _ (by simp) rfl
    have later : (((done ++ [a]) ++ rest).map (·.name)).Nodup := by simpa using once
    rw [List.foldl_cons, putAttribute_append absent]
    cases old with
    | nil =>
      have ended := @ih (done ++ [a]) [] later (by simp)
      simpa [putAttribute] using ended
    | cons o old =>
      simp only [List.map_cons, List.cons_prefix_cons] at names
      have ended := ih later names.2
      simpa [putAttribute, names.1] using ended

end Node

theorem Look.Fits.refl (look : Look) : look.Fits look := ⟨rfl, List.prefix_rfl⟩

theorem Look.Fits.trans {a b c : Look} (first : a.Fits b) (second : b.Fits c) : a.Fits c :=
  ⟨first.1.trans second.1, first.2.trans second.2⟩

theorem Look.Fits.given {old new : Look} (fits : old.Fits new) (once : new.names.Nodup) :
    old.given new.attributes = new := by
  obtain ⟨kind, names⟩ := fits
  have set : new.attributes.foldl (fun all a => Node.putAttribute a all) ([] ++ old.attributes) =
      [] ++ new.attributes := Node.putAttributes_eq once names
  cases new
  simp only [Look.given, kind] at set ⊢
  exact congrArg _ set

namespace Scene

variable {s : Scene} {id x container : String} {kind : Kind} {attributes : List Attribute}

def look? (s : Scene) (id : String) : Option Look := s.nodes[id]?.map (·.look)

theorem mem_iff_look : x ∈ s.nodes ↔ (s.look? x).isSome = true := by
  rw [Std.ExtTreeMap.mem_iff_isSome_getElem?]
  simp [look?]

theorem kindOf?_eq : s.kindOf? id = (s.look? id).map (·.kind) := by
  simp only [kindOf?, look?, Option.map_map]
  rfl

theorem look?_modify {f : Node → Node} :
    look? ⟨s.nodes.modify id f⟩ x = if id = x then s.nodes[id]?.map fun n => (f n).look else s.look? x := by
  simp only [look?, Std.ExtTreeMap.getElem?_modify, Std.compare_eq_iff_eq]
  split <;> simp [Function.comp_def]

theorem look?_modify_kept {f : Node → Node} (kept : ∀ n, (f n).look = n.look) :
    look? ⟨s.nodes.modify id f⟩ x = s.look? x := by
  rw [look?_modify]
  split
  · subst x
    simp only [kept]
    rfl
  · rfl

theorem look?_detach : (s.detach id).look? x = s.look? x := by
  unfold detach
  split
  · rfl
  · let freed : Scene := ⟨s.nodes.modify id fun n => { n with parent := none }⟩
    have free : freed.look? x = s.look? x := look?_modify_kept (by exact fun _ => rfl)
    exact (look?_modify_kept (s := freed) (by exact fun _ => rfl)).trans free

theorem look?_appendChild : (s.appendChild container id).look? x = s.look? x := by
  unfold appendChild
  split
  · let listed : Scene := ⟨(s.detach id).nodes.modify container fun n =>
      { n with children := n.children ++ [id] }⟩
    have kept : listed.look? x = s.look? x :=
      (look?_modify_kept (by exact fun _ => rfl)).trans look?_detach
    exact (look?_modify_kept (s := listed) (by exact fun _ => rfl)).trans kept
  · rfl

theorem look?_setAttributes :
    (s.setAttributes id attributes).look? x = if id = x then (s.look? id).map (.given attributes) else s.look? x := by
  unfold setAttributes
  rw [look?_modify]
  split
  · simp only [look?, Option.map_map]
    rfl
  · rfl

theorem look?_createNode (inner : id ≠ rootId) :
    (s.createNode kind id).look? x = if id = x then some ⟨.shape kind, []⟩ else s.look? x := by
  unfold createNode
  rw [if_neg inner]
  split <;>
  · simp only [look?, Std.ExtTreeMap.getElem?_insert, Std.compare_eq_iff_eq]
    split <;> rfl

theorem createNode_root : s.createNode kind rootId = s := if_pos rfl

theorem look?_createNode_apart (apart : x ≠ id) : (s.createNode kind id).look? x = s.look? x := by
  by_cases inner : id = rootId
  · rw [inner, createNode_root]
  · rw [look?_createNode inner, if_neg (Ne.symm apart)]

theorem look?_createGroup :
    (s.createGroup id).look? x = if id = x then some ((s.look? id).getD ⟨.group, []⟩) else s.look? x := by
  simp only [createGroup, look?, Std.ExtTreeMap.getElem?_insertIfNew, Std.compare_eq_iff_eq]
  by_cases same : id = x
  · subst x
    by_cases present : id ∈ s.nodes
    · simp [present]
    · simp [present, Node.look, Node.new]
  · simp [same]

theorem look?_release {children : List String} :
    (children.foldl (fun s child =>
      appendChild rootId child ⟨s.nodes.modify child fun c => { c with parent := none }⟩) s).look? x =
      s.look? x := by
  induction children generalizing s with
  | nil => rfl
  | cons child rest ih => exact ih.trans (look?_appendChild.trans (look?_modify_kept fun _ => rfl))

theorem look?_deleteNode (inner : id ≠ rootId) :
    (s.deleteNode id).look? x = if id = x then none else s.look? x := by
  unfold deleteNode
  rw [if_neg inner]
  dsimp only
  have kept : (s.detach id).look? x = s.look? x := look?_detach
  rw [← kept]
  split
  · rename_i absent
    split
    · subst x
      rw [look?, absent]
      rfl
    · rfl
  · rw [look?_release]
    simp only [look?, Std.ExtTreeMap.getElem?_erase, Std.compare_eq_iff_eq]
    split <;> rfl

theorem deleteNode_root : s.deleteNode rootId = s := if_pos rfl

theorem look?_deleteNode_apart (apart : x ≠ id) : (s.deleteNode id).look? x = s.look? x := by
  by_cases inner : id = rootId
  · rw [inner, deleteNode_root]
  · rw [look?_deleteNode inner, if_neg (Ne.symm apart)]

theorem look?_deleteNodes {ids : List String} (apart : x ∉ ids) :
    look? (Surface.applyAll (ids.map Edit.deleteNode) s) x = s.look? x := by
  induction ids generalizing s with
  | nil => rfl
  | cons id ids ih =>
    simp only [List.mem_cons, not_or] at apart
    exact (ih apart.2).trans (look?_deleteNode_apart apart.1)

theorem look?_deleteNodes_gone {ids : List String} (inner : x ≠ rootId) (listed : x ∈ ids ∨ s.look? x = none) :
    look? (Surface.applyAll (ids.map Edit.deleteNode) s) x = none := by
  induction ids generalizing s with
  | nil => exact listed.resolve_left List.not_mem_nil
  | cons id ids ih =>
    refine ih (s := s.deleteNode id) ?_
    by_cases same : x = id
    · subst id
      right
      rw [look?_deleteNode inner, if_pos rfl]
    · rw [look?_deleteNode_apart same]
      simpa [same] using listed

end Scene

theorem Geometry.attributes_names (g : Geometry) : g.attributes.map (·.name) = g.kind.attributeNames := by
  cases g <;> rfl

namespace Shape

def look (shape : Shape) (absolute : Geometry) : Look := ⟨.shape shape.kind, shape.nodeAttributes absolute⟩

theorem names_look {shape : Shape} {absolute : Geometry} (same : absolute.kind = shape.kind) :
    (shape.look absolute).names = shape.kind.attributeNames ++ ["fill", "transform"] := by
  have placing := absolute.attributes_names
  rw [same] at placing
  simp [Look.names, look, nodeAttributes, placing]

-- Nothing is different that the shape's own node or the node of a child would show.
structure Alike (a b : Shape) : Prop where
  geometry : a.geometry = b.geometry
  fill : a.fill = b.fill
  rotation : a.rotation = b.rotation
  parent : a.links.parent = b.links.parent

end Shape

namespace Registry

variable {r r' : Registry} {id x parent child : String} {shape : Shape} {f : Shape → Shape} {look : Look}

def look? (r : Registry) (id : String) : Option Look := r[id]?.map fun shape => shape.look (r.absolute shape)

theorem look?_found (found : r[id]? = some shape) : r.look? id = some (shape.look (r.absolute shape)) := by
  simp [look?, found]

theorem look?_child {other : Shape} (found : r[parent]? = some other) (listed : r[x]? = some shape)
    (bound : shape.links.parent = some parent) :
    r.look? x = some (shape.look (shape.geometry.moveBy other.position)) := by
  simp [look?, listed, absolute, bound, found]

theorem absolute_kind : (r.absolute shape).kind = shape.kind := by
  unfold absolute
  split
  · exact Geometry.kind_moveTo _ _
  · rfl

theorem look_names :
    (shape.look (r.absolute shape)).names = shape.kind.attributeNames ++ ["fill", "transform"] :=
  Shape.names_look absolute_kind

theorem look?_once (shown : r.look? id = some look) : look.names.Nodup := by
  obtain ⟨shape, _, rfl⟩ := Option.map_eq_some_iff.mp shown
  rw [look_names]
  cases shape.kind <;> decide

theorem look_fits {other : Shape} (same : other.kind = shape.kind) :
    (other.look (r.absolute other)).Fits (shape.look (r'.absolute shape)) := by
  have names : (other.look (r.absolute other)).names = (shape.look (r'.absolute shape)).names := by
    rw [look_names, look_names, same]
  exact ⟨congrArg NodeKind.shape same, [], (List.append_nil _).trans names⟩

theorem absolute_congr {other : Shape} (geometry : other.geometry = shape.geometry)
    (parent : other.links.parent = shape.links.parent)
    (placed : ∀ p, shape.links.parent = some p → r'[p]?.map (·.position) = r[p]?.map (·.position)) :
    r'.absolute other = r.absolute shape := by
  unfold absolute
  rw [parent, geometry]
  cases bound : shape.links.parent with
  | none => rfl
  | some p =>
    have same := placed p bound
    simp only [Option.bind_some]
    cases above : r[p]? <;> cases above' : r'[p]? <;> simp_all

theorem look?_congr (record : r'[x]? = r[x]?)
    (placed : ∀ p, r.parent? x = some p → r'[p]?.map (·.position) = r[p]?.map (·.position)) :
    r'.look? x = r.look? x := by
  unfold look?
  rw [record]
  cases found : r[x]? with
  | none => rfl
  | some shape =>
    have same : r'.absolute shape = r.absolute shape :=
      absolute_congr rfl rfl fun p bound => placed p ((parent?_eq found).trans bound)
    simp only [Option.map_some, same]

theorem look?_modify_apart (apart : x ≠ id)
    (placed : r.parent? x ≠ some id ∨ ∀ s, (f s).position = s.position) :
    look? (r.modify id f) x = r.look? x := by
  refine look?_congr (by rw [getElem?_modify, if_neg (Ne.symm apart)]) fun p above => ?_
  rw [getElem?_modify]
  split
  · subst p
    have still := placed.resolve_left fun other => other above
    simp [Function.comp_def, still]
  · rfl

theorem look?_put_apart (apart : x ≠ id) (placed : r.parent? x ≠ some id) :
    (r.put id shape).look? x = r.look? x := by
  refine look?_congr (by rw [getElem?_put, if_neg (Ne.symm apart)]) fun p above => ?_
  rw [getElem?_put, if_neg]
  rintro rfl
  exact placed above

theorem look?_modify_alike (alike : ∀ s, (f s).Alike s) : look? (r.modify id f) x = r.look? x := by
  have still (s : Shape) : (f s).position = s.position := congrArg Geometry.position (alike s).geometry
  by_cases apart : x = id
  · subst x
    unfold look?
    rw [getElem?_modify, if_pos rfl]
    cases found : r[id]? with
    | none => rfl
    | some shape =>
      obtain ⟨geometry, fill, rotation, parent⟩ := alike shape
      have placed : absolute (r.modify id f) (f shape) = r.absolute shape := by
        refine absolute_congr geometry parent fun p _ => ?_
        rw [getElem?_modify]
        split
        · subst p
          simp [Function.comp_def, still]
        · rfl
      simp [placed, Shape.look, Shape.kind, Shape.nodeAttributes, geometry, fill, rotation]
  · exact look?_modify_apart apart (.inr still)

theorem look?_link (apart : x ≠ child) : (r.link parent child).look? x = r.look? x := by
  have listed : look? (r.modify parent fun s =>
      { s with links.children := s.links.children ++ [child] }) x = r.look? x :=
    look?_modify_alike fun _ => ⟨rfl, rfl, rfl, rfl⟩
  exact (look?_modify_apart apart (.inr (by exact fun _ => rfl))).trans listed

def KeepsKinds (r r' : Registry) : Prop :=
  ∀ (x : String) (record : Shape), r'[x]? = some record → ∃ old : Shape, r[x]? = some old ∧ old.kind = record.kind

theorem KeepsKinds.trans {r'' : Registry} (first : r.KeepsKinds r') (second : r'.KeepsKinds r'') :
    r.KeepsKinds r'' := by
  intro x record found
  obtain ⟨middle, between, later⟩ := second x record found
  obtain ⟨old, before, earlier⟩ := first x middle between
  exact ⟨old, before, earlier.trans later⟩

theorem keepsKinds_modify (kept : ∀ record : Shape, r[id]? = some record → (f record).kind = record.kind) :
    KeepsKinds r (r.modify id f) := by
  intro x record found
  rw [getElem?_modify] at found
  split at found
  · subst x
    obtain ⟨old, before, rfl⟩ := Option.map_eq_some_iff.mp found
    exact ⟨old, before, (kept old before).symm⟩
  · exact ⟨record, found, rfl⟩

theorem keepsKinds_link : r.KeepsKinds (r.link parent child) := by
  refine KeepsKinds.trans ?_ (keepsKinds_modify (by exact fun _ _ => rfl))
  exact keepsKinds_modify fun _ _ => rfl

theorem look?_display_apart {scene : Scene} (apart : x ≠ id) :
    (r.display id scene).look? x = scene.look? x := by
  unfold display
  split
  · rename_i shape found
    refine Scene.look?_appendChild.trans (Scene.look?_setAttributes.trans ?_)
    rw [if_neg (Ne.symm apart)]
    split
    · exact Scene.look?_createNode_apart apart
    · rfl
  · rfl

theorem look?_display {scene : Scene} {old : Look} (shown : r.look? id = some look)
    (there : scene.look? id = some old) : (r.display id scene).look? id = some (old.given look.attributes) := by
  obtain ⟨shape, found, rfl⟩ := Option.map_eq_some_iff.mp shown
  have kind : (Surface.kindOf? scene id).isNone = false := by
    obtain ⟨node, known, _⟩ := Option.map_eq_some_iff.mp there
    simp [Surface.kindOf?, Scene.kindOf?, known]
  unfold display
  simp only [found, Surface.place, kind]
  refine Scene.look?_appendChild.trans (Scene.look?_setAttributes.trans ?_)
  rw [if_pos rfl]
  exact congrArg _ there

-- Every record has a node to be drawn on: one of its kind, with no attributes in its way.
def Prepared (r : Registry) (scene : Scene) : Prop :=
  ∀ id look, r.look? id = some look → ∃ old, scene.look? id = some old ∧ old.Fits look

theorem Prepared.congr {scene : Scene} (prepared : r.Prepared scene) (kinds : r.KeepsKinds r') : r'.Prepared scene := by
  intro x look shown
  obtain ⟨record, found, rfl⟩ := Option.map_eq_some_iff.mp shown
  obtain ⟨old, before, same⟩ := kinds x record found
  obtain ⟨there, drawn, fits⟩ := prepared x _ (look?_found before)
  exact ⟨there, drawn, fits.trans (look_fits same)⟩

theorem Prepared.look?_display {scene : Scene} (prepared : r.Prepared scene) (shown : r.look? id = some look) :
    (r.display id scene).look? id = some look := by
  obtain ⟨old, there, fits⟩ := prepared id look shown
  rw [Registry.look?_display shown there, fits.given (look?_once shown)]

theorem Prepared.display {scene : Scene} (prepared : r.Prepared scene) : r.Prepared (r.display id scene) := by
  intro x look shown
  by_cases same : x = id
  · subst x
    exact ⟨look, prepared.look?_display shown, .refl look⟩
  · rw [look?_display_apart same]
    exact prepared x look shown

theorem Prepared.look?_drawn {scene : Scene} {ids : List String} (prepared : r.Prepared scene)
    (shown : r.look? x = some look) (right : x ∈ ids ∨ scene.look? x = some look) :
    (ids.foldl (fun scene id => r.display id scene) scene).look? x = some look := by
  induction ids generalizing scene with
  | nil => exact right.resolve_left List.not_mem_nil
  | cons id ids ih =>
    refine ih prepared.display ?_
    by_cases same : x = id
    · subst x
      exact .inr (prepared.look?_display shown)
    · rw [look?_display_apart same]
      simpa [same] using right

end Registry
end Diorama
