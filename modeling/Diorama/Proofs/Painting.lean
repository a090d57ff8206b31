import Diorama.Proofs.Containers
import Diorama.Scene.Painting
import Mathlib.Data.List.Nodup

namespace Diorama.Scene

variable {s s' : Scene} {id x k : String} {pending ids : List String} {kind : Kind} {item : DrawItem} {steps : Nat}

-- The nodes that come up while those that are pending are painted.
inductive Walk (s : Scene) : List String → List String → Prop where
  | done : Walk s [] []
  | group {id : String} {n : Node} {pending ids : List String} : s.nodes[id]? = some n → n.kind = .group →
      Walk s (n.children ++ pending) ids → Walk s (id :: pending) (id :: ids)
  | shape {id : String} {n : Node} {kind : Kind} {pending ids : List String} : s.nodes[id]? = some n →
      n.kind = .shape kind → Walk s pending ids → Walk s (id :: pending) (id :: ids)

def item? (s : Scene) (id : String) : Option DrawItem :=
  match s.nodes[id]? with
  | none => none
  | some n =>
    match n.kind with
    | .group => none
    | .shape kind => n.drawItem? id kind

theorem item?_id (painted : s.item? x = some item) : item.id = x := by
  unfold item? at painted
  split at painted
  · cases painted
  · split at painted
    · cases painted
    · obtain ⟨points, _, rfl⟩ := Option.map_eq_some_iff.mp painted
      rfl

def Depicts (s : Scene) (x : String) (kind : Kind) : Prop :=
  ∃ (shape : Shape) (absolute : Geometry), shape.kind = kind ∧ absolute.kind = shape.kind ∧
    s.look? x = some (shape.look absolute)

theorem Depicts.congr (depicts : s.Depicts x kind) (same : s'.look? x = s.look? x) : s'.Depicts x kind := by
  unfold Depicts
  rw [same]
  exact depicts

theorem Depicts.kindOf?_eq (depicts : s.Depicts x kind) : s.kindOf? x = some (.shape kind) := by
  obtain ⟨shape, absolute, rfl, _, shown⟩ := depicts
  rw [Scene.kindOf?_eq, shown]
  rfl

theorem Depicts.painted (depicts : s.Depicts x kind) : (s.item? x).isSome = true := by
  obtain ⟨shape, absolute, rfl, same, shown⟩ := depicts
  obtain ⟨node, found, look⟩ := Option.map_eq_some_iff.mp shown
  have kind : node.kind = .shape shape.kind := congrArg Look.kind look
  have attributes : node.attributes = shape.nodeAttributes absolute := congrArg Look.attributes look
  simp only [item?, found, kind, Node.drawItem?, Option.isSome_map]
  rw [← same]
  cases absolute <;>
    simp [Node.corners?, Node.number?, Node.attribute?, attributes, Shape.nodeAttributes, Geometry.attributes,
      Geometry.kind, Geometry.values, Kind.attributeNames]

theorem Walk.drawSteps_eq (walk : s.Walk pending ids) (enough : ids.length ≤ steps) :
    s.drawSteps steps pending = ids.filterMap s.item? := by
  induction walk generalizing steps with
  | done => cases steps <;> rfl
  | @group id n pending ids found group _ ih =>
    cases steps with
    | zero => cases enough
    | succ steps =>
      have nothing : s.item? id = none := by simp [item?, found, group]
      simp only [drawSteps, found, group, List.filterMap_cons, nothing]
      exact ih (Nat.le_of_succ_le_succ enough)
  | @shape id n kind pending ids found shape _ ih =>
    cases steps with
    | zero => cases enough
    | succ steps =>
      have own : s.item? id = n.drawItem? id kind := by simp [item?, found, shape]
      simp only [drawSteps, found, shape, List.filterMap_cons, own, ih (Nat.le_of_succ_le_succ enough)]
      cases n.drawItem? id kind <;> rfl

theorem Walk.present (walk : s.Walk pending ids) : ∀ x ∈ ids, x ∈ s.nodes := by
  have there (id : String) (n : Node) (found : s.nodes[id]? = some n) : id ∈ s.nodes := by
    rw [Std.ExtTreeMap.mem_iff_isSome_getElem?, found]
    rfl
  induction walk with
  | done => simp
  | group found _ _ ih =>
    intro x member
    rcases List.mem_cons.mp member with rfl | later
    · exact there _ _ found
    · exact ih x later
  | shape found _ _ ih =>
    intro x member
    rcases List.mem_cons.mp member with rfl | later
    · exact there _ _ found
    · exact ih x later

theorem Walk.drawList_eq (walk : s.Walk (s.children rootId) ids) (distinct : ids.Nodup) :
    s.drawList = ids.filterMap s.item? :=
  walk.drawSteps_eq (length_le_size distinct walk.present)

theorem item_ids (ids : List String) :
    (ids.filterMap s.item?).map (·.id) = ids.filter fun x => (s.item? x).isSome := by
  induction ids with
  | nil => rfl
  | cons x ids ih =>
    cases painted : s.item? x with
    | none => simp [painted, ih]
    | some item => simp [painted, ih, item?_id painted]

def IsShape (s : Scene) (x : String) : Prop := ∃ kind, s.kindOf? x = some (.shape kind)

def within (s : Scene) (x : String) : List String :=
  if s.kindOf? x = some .group then x :: s.children x else [x]

theorem walk_shape (shape : s.IsShape x) (walk : s.Walk pending ids) : s.Walk (x :: pending) (x :: ids) := by
  obtain ⟨kind, known⟩ := shape
  obtain ⟨n, found, same⟩ := Option.map_eq_some_iff.mp known
  exact .shape found same walk

theorem walk_flatMap {f : String → List String} {nodes : List String}
    (each : ∀ x ∈ nodes, ∀ pending ids, s.Walk pending ids → s.Walk (x :: pending) (f x ++ ids))
    (walk : s.Walk pending ids) : s.Walk (nodes ++ pending) (nodes.flatMap f ++ ids) := by
  induction nodes with
  | nil => exact walk
  | cons x rest ih =>
    have later := ih fun y member => each y (List.mem_cons_of_mem x member)
    rw [List.flatMap_cons, List.append_assoc]
    exact each x List.mem_cons_self _ _ later

theorem walk_within (flat : ∀ x ∈ pending, s.IsShape x ∨
      s.kindOf? x = some .group ∧ ∀ y ∈ s.children x, s.IsShape y) :
    s.Walk pending (pending.flatMap s.within) := by
  have each : ∀ x ∈ pending, ∀ later ids, s.Walk later ids → s.Walk (x :: later) (s.within x ++ ids) := by
    intro x listed later ids walk
    rcases flat x listed with shape | ⟨group, inside⟩
    · have alone : s.within x = [x] := by
        obtain ⟨kind, known⟩ := shape
        simp [within, known]
      rw [alone]
      exact walk_shape shape walk
    · obtain ⟨n, found, same⟩ := Option.map_eq_some_iff.mp group
      have listed : s.children x = n.children := by simp [children, found]
      have all : s.within x = x :: n.children := by simp [within, group, listed]
      have below : s.Walk (n.children ++ later) (n.children.flatMap (fun y => [y]) ++ ids) :=
        walk_flatMap (fun y member _ _ => walk_shape (inside y (listed ▸ member))) walk
      rw [List.flatMap_singleton'] at below
      rw [all]
      exact .group found same below
  have walk := walk_flatMap each .done
  rw [List.append_nil, List.append_nil] at walk
  exact walk

theorem mem_within : x ∈ s.within k ↔ x = k ∨ s.kindOf? k = some .group ∧ x ∈ s.children k := by
  unfold within
  split
  · rename_i group
    simp [group]
  · rename_i other
    simp [other]

theorem Linked.nodup_within (linked : s.Linked) : ((s.children rootId).flatMap s.within).Nodup := by
  have inside (k : String) (listed : k ∈ s.children rootId) : s.container? k = some rootId :=
    (linked.mirrored k rootId).mp listed
  have lower (k : String) (listed : k ∈ s.children rootId) : k ≠ rootId := by
    rintro rfl
    have above := inside rootId listed
    rw [linked.root] at above
    cases above
  have outside (k l : String) (here : k ∈ s.children rootId) (there : l ∈ s.children rootId) :
      k ∉ s.children l := by
    intro below
    have above := (linked.mirrored k l).mp below
    rw [inside k here] at above
    exact lower l there (Option.some.inj above).symm
  apply List.nodup_flatMap.mpr
  constructor
  · intro k listed
    unfold within
    split
    · exact List.nodup_cons.mpr ⟨outside k k listed listed, linked.once k⟩
    · simp
  · refine (linked.once rootId).imp_of_mem ?_
    intro k l here there apart x first second
    rcases mem_within.mp first with rfl | ⟨_, below⟩
    · rcases mem_within.mp second with rfl | ⟨_, below⟩
      · exact apart rfl
      · exact outside x l here there below
    · rcases mem_within.mp second with rfl | ⟨_, below'⟩
      · exact outside x k there here below
      · have above := (linked.mirrored x k).mp below
        rw [(linked.mirrored x l).mp below'] at above
        exact apart (Option.some.inj above).symm

-- Groups stand in the root and hold shapes only, and every shape can be painted.
structure Flat (s : Scene) : Prop where
  shallow : ∀ x ∈ s.children rootId,
    s.IsShape x ∨ s.kindOf? x = some .group ∧ ∀ y ∈ s.children x, s.IsShape y
  complete : ∀ x, s.IsShape x → (s.item? x).isSome = true

theorem Flat.drawList_ids (linked : s.Linked) (flat : s.Flat) : (s.drawList.map (·.id)).Nodup ∧
    ∀ x, x ∈ s.drawList.map (·.id) ↔ s.IsShape x ∧ (s.container? x = some rootId ∨
      ∃ k, s.kindOf? k = some .group ∧ s.container? k = some rootId ∧ s.container? x = some k) := by
  have distinct := linked.nodup_within
  rw [(walk_within flat.shallow).drawList_eq distinct, item_ids]
  refine ⟨distinct.filter _, fun x => ?_⟩
  have painted : (s.item? x).isSome = true ↔ s.IsShape x := by
    refine ⟨fun some => ?_, flat.complete x⟩
    unfold item? at some
    cases found : s.nodes[x]? with
    | none => simp [found] at some
    | some n =>
      cases kind : n.kind with
      | group => simp [found, kind] at some
      | shape kind' => exact ⟨kind', by simp [kindOf?, found, kind]⟩
  rw [List.mem_filter, painted, List.mem_flatMap]
  constructor
  · rintro ⟨⟨k, listed, among⟩, shape⟩
    have above := (linked.mirrored k rootId).mp listed
    refine ⟨shape, ?_⟩
    rcases mem_within.mp among with rfl | ⟨group, below⟩
    · exact .inl above
    · exact .inr ⟨k, group, above, (linked.mirrored x k).mp below⟩
  · rintro ⟨shape, above | ⟨k, group, top, above⟩⟩
    · exact ⟨⟨x, (linked.mirrored x rootId).mpr above, mem_within.mpr (.inl rfl)⟩, shape⟩
    · have below := (linked.mirrored x k).mpr above
      exact ⟨⟨k, (linked.mirrored k rootId).mpr top, mem_within.mpr (.inr ⟨group, below⟩)⟩, shape⟩

end Diorama.Scene
