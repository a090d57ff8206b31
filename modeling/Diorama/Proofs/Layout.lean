import Diorama.Proofs.Painting
import Diorama.Proofs.Removing

namespace Diorama

theorem groupId_toList {parent child : String} :
    (groupId parent child).toList = parent.toList ++ '+' :: child.toList := by
  simp [groupId]

theorem groupId_ne_root {parent child : String} : groupId parent child ≠ rootId := by
  intro same
  have plus : '+' ∈ rootId.toList := by
    rw [← same, groupId_toList]
    simp
  exact absurd plus (by decide)

theorem OrdinaryId.groupId_inj {a b c d : String} (first : OrdinaryId a) (second : OrdinaryId b)
    (same : groupId a b = groupId c d) : a = c ∧ b = d := by
  have lists := congrArg String.toList same
  rw [groupId_toList, groupId_toList, List.append_cons_inj_of_notMem first.1 second.1] at lists
  exact ⟨String.toList_inj.mp lists.1, String.toList_inj.mp lists.2.2⟩

namespace Registry

variable {r r' : Registry} {scene scene' : Scene} {id x k : String} {ids undone : List String} {shape : Shape}

def Ordinary (r : Registry) : Prop := ∀ x ∈ r, OrdinaryId x

def IsGroup (r : Registry) (k : String) : Prop := ∃ p c, r.parent? c = some p ∧ k = groupId p c

-- The node of a shape is in the root, or in a group that it belongs to.
def Housed (r : Registry) (scene : Scene) (x : String) : Prop :=
  scene.container? x = some rootId ∨
    ∃ p c, r.parent? c = some p ∧ (x = p ∨ x = c) ∧ scene.container? x = some (groupId p c)

-- Every link has its group and every shape a node. Those that are not among `undone` are where they
-- belong and can be painted.
structure Furnished (r : Registry) (undone : List String) (scene : Scene) : Prop where
  linked : scene.Linked
  prepared : r.Prepared scene
  groups : ∀ p c, r.parent? c = some p → scene.Stands (groupId p c)
  shapes : ∀ x shape, r[x]? = some shape → x ∉ undone → scene.Depicts x shape.kind ∧ r.Housed scene x

structure LaidOut (r : Registry) (scene : Scene) : Prop extends r.Furnished [] scene where
  only : ∀ x ∈ scene.nodes, x = rootId ∨ x ∈ r ∨ r.IsGroup x

theorem Housed.congr (housed : r.Housed scene x) (same : scene'.container? x = scene.container? x) :
    r.Housed scene' x := by
  unfold Housed
  rw [same]
  exact housed

theorem Ordinary.ne_group (ordinary : r.Ordinary) (present : x ∈ r) (group : r.IsGroup k) : x ≠ k := by
  obtain ⟨p, c, _, rfl⟩ := group
  exact (ordinary x present).ne_groupId

theorem LaidOut.shown (laid : r.LaidOut scene) (found : r[x]? = some shape) :
    scene.Depicts x shape.kind ∧ r.Housed scene x :=
  laid.shapes x shape found List.not_mem_nil

theorem Furnished.weaken (furnished : r.Furnished [] scene) : r.Furnished undone scene :=
  ⟨furnished.linked, furnished.prepared, furnished.groups,
    fun x shape found _ => furnished.shapes x shape found List.not_mem_nil⟩

theorem Prepared.present (prepared : r.Prepared scene) (found : r[x]? = some shape) : x ∈ scene.nodes := by
  obtain ⟨old, there, _⟩ := prepared x _ (look?_found found)
  rw [Scene.mem_iff_look, there]
  rfl

theorem LaidOut.congr (laid : r.LaidOut scene) (kinds : r.KeepsKinds r') (members : ∀ x ∈ r, x ∈ r')
    (parents : ∀ x, r'.parent? x = r.parent? x) : r'.LaidOut scene := by
  constructor
  · refine ⟨laid.linked, laid.prepared.congr kinds, ?_, ?_⟩
    · intro p c bound
      exact laid.groups p c ((parents c).symm.trans bound)
    · intro x shape found _
      obtain ⟨old, before, same⟩ := kinds x shape found
      obtain ⟨depicts, housed⟩ := laid.shown before
      refine ⟨same ▸ depicts, ?_⟩
      unfold Housed
      simp only [parents]
      exact housed
  · intro x there
    unfold IsGroup
    simp only [parents]
    exact (laid.only x there).imp_right (.imp_left (members x))

def home (r : Registry) (id : String) : String := ((r.parent? id).map (groupId · id)).getD rootId

theorem housed_home (placed : scene.container? id = some (r.home id)) : r.Housed scene id := by
  unfold home at placed
  cases bound : r.parent? id with
  | none =>
    rw [bound] at placed
    exact .inl placed
  | some p =>
    rw [bound] at placed
    exact .inr ⟨p, id, bound, .inr rfl, placed⟩

theorem display_missing (absent : r[id]? = none) : r.display id scene = scene := by
  simp only [display, absent]

theorem Prepared.display_eq (prepared : r.Prepared scene) (found : r[id]? = some shape) :
    r.display id scene =
      (scene.setAttributes id (shape.nodeAttributes (r.absolute shape))).appendChild (r.home id) id := by
  obtain ⟨old, there, _⟩ := prepared id _ (look?_found found)
  have known : (Surface.kindOf? scene id).isNone = false := by
    change (scene.kindOf? id).isNone = false
    rw [Scene.kindOf?_eq, there]
    rfl
  simp only [Registry.display, found, Surface.place, known, home, parent?_eq found]
  rfl

theorem Prepared.mem_display (prepared : r.Prepared scene) :
    x ∈ (r.display id scene).nodes ↔ x ∈ scene.nodes := by
  cases found : r[id]? with
  | none => rw [display_missing found]
  | some shape =>
    rw [Scene.mem_iff_look, prepared.display_eq found, Scene.look?_appendChild, Scene.look?_setAttributes,
      Scene.mem_iff_look]
    split
    · subst x
      simp
    · rfl

theorem Prepared.mem_drawn (prepared : r.Prepared scene) :
    x ∈ (ids.foldl (fun scene id => r.display id scene) scene).nodes ↔ x ∈ scene.nodes := by
  induction ids generalizing scene with
  | nil => rfl
  | cons id ids ih => exact (ih prepared.display).trans prepared.mem_display

theorem Furnished.container?_display (ordinary : r.Ordinary) (furnished : r.Furnished undone scene)
    (found : r[id]? = some shape) :
    (r.display id scene).container? x = if id = x then some (r.home id) else scene.container? x := by
  let attributes := shape.nodeAttributes (r.absolute shape)
  have linked : (scene.setAttributes id attributes).Linked := furnished.linked.setAttributes id attributes
  have plain := ordinary id (mem_of_found found)
  have present : id ∈ (scene.setAttributes id attributes).nodes :=
    Std.ExtTreeMap.mem_modify.mpr (furnished.prepared.present found)
  have accepted : (scene.setAttributes id attributes).accepts (r.home id) id = true := by
    unfold home
    cases bound : r.parent? id with
    | none => exact Scene.accepts_root linked plain.2 present
    | some p =>
      obtain ⟨group, top⟩ := furnished.groups p id bound
      have stands : (scene.setAttributes id attributes).Stands (groupId p id) :=
        ⟨Scene.kindOf?_setAttributes.trans group, Scene.container?_setAttributes.trans top⟩
      exact stands.accepts linked plain.ne_groupId plain.2 present
  rw [furnished.prepared.display_eq found, Scene.container?_appendChild accepted, Scene.container?_setAttributes]

theorem Furnished.display (ordinary : r.Ordinary) (furnished : r.Furnished (id :: undone) scene) :
    r.Furnished undone (r.display id scene) := by
  cases found : r[id]? with
  | none =>
    rw [display_missing found]
    refine ⟨furnished.linked, furnished.prepared, furnished.groups, fun x shape there later => ?_⟩
    refine furnished.shapes x shape there ?_
    rw [List.mem_cons, not_or]
    refine ⟨?_, later⟩
    rintro rfl
    cases found.symm.trans there
  | some record =>
    have containers (x : String) := furnished.container?_display (x := x) ordinary found
    have present := mem_of_found found
    refine ⟨?_, furnished.prepared.display, ?_, ?_⟩
    · rw [furnished.prepared.display_eq found]
      exact (furnished.linked.setAttributes _ _).appendChild _ _
    · intro p c bound
      obtain ⟨group, top⟩ := furnished.groups p c bound
      have apart : id ≠ groupId p c := ordinary.ne_group present ⟨p, c, bound, rfl⟩
      refine ⟨(Scene.kindOf?_congr (look?_display_apart apart.symm)).trans group, ?_⟩
      rw [containers, if_neg apart]
      exact top
    · intro x shape there later
      by_cases same : x = id
      · subst x
        cases found.symm.trans there
        refine ⟨⟨record, r.absolute record, rfl, absolute_kind, ?_⟩, housed_home ?_⟩
        · exact furnished.prepared.look?_display (look?_found found)
        · rw [containers, if_pos rfl]
      · obtain ⟨depicts, housed⟩ := furnished.shapes x shape there (by simp [same, later])
        refine ⟨depicts.congr (look?_display_apart same), housed.congr ?_⟩
        rw [containers, if_neg (Ne.symm same)]

theorem Furnished.drawn (ordinary : r.Ordinary) (furnished : r.Furnished ids scene) :
    r.Furnished [] (ids.foldl (fun scene id => r.display id scene) scene) := by
  induction ids generalizing scene with
  | nil => exact furnished
  | cons id ids ih => exact ih (furnished.display ordinary)

theorem Furnished.laidOut_drawn (ordinary : r.Ordinary) (furnished : r.Furnished ids scene)
    (only : ∀ x ∈ scene.nodes, x = rootId ∨ x ∈ r ∨ r.IsGroup x) :
    r.LaidOut (ids.foldl (fun scene id => r.display id scene) scene) :=
  ⟨furnished.drawn ordinary, fun x there => only x (furnished.prepared.mem_drawn.mp there)⟩

theorem LaidOut.drawn (ordinary : r.Ordinary) (laid : r.LaidOut scene) :
    r.LaidOut (ids.foldl (fun scene id => r.display id scene) scene) :=
  laid.weaken.laidOut_drawn ordinary laid.only

theorem LaidOut.container_cases (laid : r.LaidOut scene) (inside : scene.container? x = some k) :
    k = rootId ∨ r.IsGroup k ∧ x ∈ r := by
  rcases laid.only x (Scene.mem_of_container inside) with rfl | present | ⟨p, c, bound, rfl⟩
  · cases laid.linked.root.symm.trans inside
  · obtain ⟨shape, found⟩ := found_of_mem present
    rcases (laid.shown found).2 with top | ⟨p, c, bound, _, group⟩
    · exact .inl (Option.some.inj (inside.symm.trans top))
    · exact .inr ⟨⟨p, c, bound, Option.some.inj (inside.symm.trans group)⟩, present⟩
  · exact .inl (Option.some.inj (inside.symm.trans (laid.groups p c bound).2))

theorem LaidOut.childless (laid : r.LaidOut scene) (ordinary : OrdinaryId id) : scene.container? x ≠ some id := by
  intro inside
  rcases laid.container_cases inside with root | ⟨⟨p, c, _, same⟩, _⟩
  · exact ordinary.2 root
  · exact ordinary.ne_groupId same

theorem LaidOut.link {parent child : String} (ordinary : r.Ordinary) (laid : r.LaidOut scene) (above : parent ∈ r)
    (below : child ∈ r) (free : r.parent? child = none) :
    (r.link parent child).LaidOut (scene.joined (groupId parent child) parent child) := by
  let group := groupId parent child
  have apart (x : String) (present : x ∈ r) : x ≠ group := (ordinary x present).ne_groupId
  have vacant : scene.look? group = none ∨ scene.kindOf? group = some .group := by
    cases old : scene.look? group with
    | none => exact .inl rfl
    | some look =>
      have present : group ∈ scene.nodes := Scene.mem_iff_look.mpr (by rw [old]; rfl)
      rcases laid.only group present with root | member | ⟨p, c, bound, same⟩
      · exact absurd root groupId_ne_root
      · exact absurd rfl (apart group member)
      · rw [same]
        exact .inr (laid.groups p c bound).1
  have ends : ∀ x, x = parent ∨ x = child → x ≠ group ∧ x ≠ rootId ∧ x ∈ scene.nodes := by
    intro x own
    have present : x ∈ r := own.elim (· ▸ above) (· ▸ below)
    obtain ⟨record, found⟩ := found_of_mem present
    exact ⟨apart x present, (ordinary x present).2, laid.prepared.present found⟩
  obtain ⟨stands, containers⟩ := laid.linked.joined_links groupId_ne_root vacant ends
  have bound (x : String) : (r.link parent child).parent? x = if x = child then some parent else r.parent? x :=
    parent?_link below
  have kept (p c : String) (old : r.parent? c = some p) : (r.link parent child).parent? c = some p := by
    rw [bound, if_neg]
    · exact old
    · rintro rfl
      cases free.symm.trans old
  constructor
  · refine ⟨laid.linked.applyAll _, ?_, ?_, ?_⟩
    · intro x look shown
      obtain ⟨record, found, _⟩ := Option.map_eq_some_iff.mp shown
      obtain ⟨before, earlier, _⟩ := keepsKinds_link x record found
      rw [Scene.look?_joined (apart x (mem_of_found earlier))]
      exact laid.prepared.congr keepsKinds_link x look shown
    · intro p c edge
      by_cases same : groupId p c = group
      · rw [same]
        exact stands
      · have old : r.parent? c = some p := by
          rw [bound] at edge
          split at edge
          · rename_i own
            subst own
            cases edge
            exact absurd rfl same
          · exact edge
        obtain ⟨kind, top⟩ := laid.groups p c old
        refine ⟨(Scene.kindOf?_congr (Scene.look?_joined same)).trans kind, ?_⟩
        rw [containers _ same, if_neg]
        · exact top
        · have outside (x : String) (present : x ∈ r) := ordinary.ne_group present ⟨p, c, old, rfl⟩
          exact not_or.mpr ⟨outside child below, outside parent above⟩
    · intro x record found _
      obtain ⟨before, earlier, same⟩ := keepsKinds_link x record found
      obtain ⟨depicts, housed⟩ := laid.shown earlier
      have other := apart x (mem_of_found earlier)
      refine ⟨same ▸ depicts.congr (Scene.look?_joined other), ?_⟩
      unfold Housed
      rw [containers x other]
      split
      · rename_i own
        exact .inr ⟨parent, child, by rw [bound, if_pos rfl], own.symm.imp Eq.symm Eq.symm, rfl⟩
      · exact housed.imp_right fun ⟨p, c, old, ends, inside⟩ => ⟨p, c, kept p c old, ends, inside⟩
  · intro x present
    by_cases same : x = group
    · exact .inr (.inr ⟨parent, child, by rw [bound, if_pos rfl], same⟩)
    · rw [Scene.mem_iff_look, Scene.look?_joined same, ← Scene.mem_iff_look] at present
      rcases laid.only x present with root | member | ⟨p, c, old, own⟩
      · exact .inl root
      · exact .inr (.inl (by simpa [Registry.link, Std.ExtTreeMap.mem_modify] using member))
      · exact .inr (.inr ⟨p, c, kept p c old, own⟩)

theorem Furnished.deleteNodes (furnished : r.Furnished [] scene) (inner : rootId ∉ ids)
    (shapes : ∀ x ∈ r, x ∉ ids) (groups : ∀ k, r.IsGroup k → k ∉ ids) :
    r.Furnished [] (Surface.applyAll (ids.map Edit.deleteNode) scene) := by
  refine ⟨furnished.linked.applyAll _, ?_, ?_, ?_⟩
  · intro x look shown
    obtain ⟨record, found, _⟩ := Option.map_eq_some_iff.mp shown
    rw [Scene.look?_deleteNodes (shapes x (mem_of_found found))]
    exact furnished.prepared x look shown
  · intro p c bound
    obtain ⟨kind, top⟩ := furnished.groups p c bound
    have kept := groups _ ⟨p, c, bound, rfl⟩
    refine ⟨(Scene.kindOf?_congr (Scene.look?_deleteNodes kept)).trans kind, ?_⟩
    exact or_self_iff.mp (furnished.linked.container?_deleteNodes inner kept top)
  · intro x shape found undone
    obtain ⟨depicts, housed⟩ := furnished.shapes x shape found undone
    have kept := shapes x (mem_of_found found)
    refine ⟨depicts.congr (Scene.look?_deleteNodes kept), ?_⟩
    rcases housed with top | ⟨p, c, bound, ends, inside⟩
    · exact .inl (or_self_iff.mp (furnished.linked.container?_deleteNodes inner kept top))
    · rcases furnished.linked.container?_deleteNodes inner kept inside with same | top
      · exact .inr ⟨p, c, bound, ends, same⟩
      · exact .inl top

section Removing

variable {removed : Shape} (forest : r.Forest) (found : r[id]? = some removed)

include forest found

theorem Forest.edge_cutOut {p c : String} :
    (r.cutOut id removed).parent? c = some p ↔ r.parent? c = some p ∧ c ≠ id ∧ p ≠ id := by
  rw [forest.parent?_cutOut found]
  grind

theorem LaidOut.furnished_cutOut (laid : r.LaidOut scene) :
    (r.cutOut id removed).Furnished (removed.links.children ++ removed.links.parent.toList) scene := by
  -- whoever is not drawn was in no group of the removed shape
  have kinds := forest.keepsKinds_cutOut found
  refine ⟨laid.linked, laid.prepared.congr kinds, ?_, ?_⟩
  · intro p c bound
    exact laid.groups p c ((forest.edge_cutOut found).mp bound).1
  · intro x shape after unlinked
    obtain ⟨old, before, same⟩ := kinds x shape after
    obtain ⟨depicts, housed⟩ := laid.shown before
    have other := ((forest.mem_cutOut found).mp (mem_of_found after)).1
    rw [List.mem_append, not_or, ← children_eq found, forest.mirrored, Option.mem_toList,
      ← parent?_eq found] at unlinked
    refine ⟨same ▸ depicts, housed.imp_right ?_⟩
    rintro ⟨p, c, bound, ends, inside⟩
    refine ⟨p, c, (forest.edge_cutOut found).mpr ⟨bound, ?_, ?_⟩, ends, inside⟩
    · rintro rfl
      rcases ends with rfl | own
      · exact unlinked.2 bound
      · exact other own
    · rintro rfl
      rcases ends with own | rfl
      · exact other own
      · exact unlinked.1 bound

theorem Forest.mem_deleted : x ∈ removed.groups id ++ [id] ↔
    x = id ∨ ∃ p c, r.parent? c = some p ∧ (p = id ∨ c = id) ∧ x = groupId p c := by
  simp only [Shape.groups, List.mem_append, List.mem_map, List.mem_singleton, Option.mem_toList, ← parent?_eq found,
    ← children_eq found, forest.mirrored]
  grind

theorem LaidOut.cutOut (ordinary : r.Ordinary) (laid : r.LaidOut scene) : (r.cutOut id removed).LaidOut
    (Surface.applyAll ((removed.groups id ++ [id]).map Edit.deleteNode)
      ((removed.links.children ++ removed.links.parent.toList).foldl
        (fun scene x => (r.cutOut id removed).display x scene) scene)) := by
  have among (x : String) : x ∈ r.cutOut id removed ↔ x ≠ id ∧ x ∈ r := forest.mem_cutOut found
  have deleted (x : String) := forest.mem_deleted found (x := x)
  have plain : (r.cutOut id removed).Ordinary := fun x present => ordinary x ((among x).mp present).2
  have own : OrdinaryId id := ordinary id (mem_of_found found)
  have furnished := laid.furnished_cutOut forest found
  have inner : rootId ∉ removed.groups id ++ [id] := by
    rw [deleted]
    rintro (same | ⟨p, c, _, _, same⟩)
    · exact own.2 same.symm
    · exact groupId_ne_root same.symm
  constructor
  · refine (furnished.drawn plain).deleteNodes inner ?_ ?_
    · intro x present
      rw [deleted]
      rintro (same | ⟨p, c, _, _, same⟩)
      · exact ((among x).mp present).1 same
      · exact (plain x present).ne_groupId same
    · rintro k ⟨p, c, edge, rfl⟩
      obtain ⟨bound, lower, upper⟩ := (forest.edge_cutOut found).mp edge
      have first := ordinary p (forest.parent_mem bound)
      have second := ordinary c (mem_of_parent bound)
      rw [deleted]
      rintro (same | ⟨p', c', _, ends, same⟩)
      · exact own.ne_groupId same.symm
      · obtain ⟨rfl, rfl⟩ := first.groupId_inj second same
        exact ends.elim upper lower
  · intro x present
    obtain ⟨there, kept⟩ := (Scene.mem_deleteNodes inner).mp present
    rw [deleted, not_or] at kept
    rcases laid.only x (furnished.prepared.mem_drawn.mp there) with root | member | ⟨p, c, bound, rfl⟩
    · exact .inl root
    · exact .inr (.inl ((among x).mpr ⟨kept.1, member⟩))
    · refine .inr (.inr ⟨p, c, (forest.edge_cutOut found).mpr ⟨bound, ?_, ?_⟩, rfl⟩)
      · exact fun same => kept.2 ⟨p, c, bound, .inr same, rfl⟩
      · exact fun same => kept.2 ⟨p, c, bound, .inl same, rfl⟩

end Removing

theorem LaidOut.isShape_iff (laid : r.LaidOut scene) : scene.IsShape x ↔ x ∈ r := by
  constructor
  · rintro ⟨kind, shape⟩
    rcases laid.only x (Scene.mem_of_kind shape) with rfl | present | ⟨p, c, bound, rfl⟩
    · cases laid.linked.group.symm.trans shape
    · exact present
    · cases (laid.groups p c bound).1.symm.trans shape
  · intro present
    obtain ⟨shape, found⟩ := found_of_mem present
    exact ⟨shape.kind, (laid.shown found).1.kindOf?_eq⟩

theorem LaidOut.flat (laid : r.LaidOut scene) : scene.Flat := by
  constructor
  · intro x listed
    have inside := (laid.linked.mirrored x rootId).mp listed
    rcases laid.only x (Scene.mem_of_container inside) with rfl | present | ⟨p, c, bound, rfl⟩
    · cases laid.linked.root.symm.trans inside
    · exact .inl (laid.isShape_iff.mpr present)
    · refine .inr ⟨(laid.groups p c bound).1, fun y below => laid.isShape_iff.mpr ?_⟩
      rcases laid.container_cases ((laid.linked.mirrored y _).mp below) with root | ⟨_, present⟩
      · exact absurd root groupId_ne_root
      · exact present
  · intro x shape
    obtain ⟨record, found⟩ := found_of_mem (laid.isShape_iff.mp shape)
    exact (laid.shown found).1.painted

theorem LaidOut.drawList_ids (laid : r.LaidOut scene) : (scene.drawList.map (·.id)).Nodup ∧
    ∀ x, x ∈ scene.drawList.map (·.id) ↔ x ∈ r := by
  obtain ⟨once, painted⟩ := laid.flat.drawList_ids laid.linked
  refine ⟨once, fun x => ?_⟩
  rw [painted, laid.isShape_iff]
  refine ⟨fun both => both.1, fun present => ⟨present, ?_⟩⟩
  obtain ⟨shape, found⟩ := found_of_mem present
  refine (laid.shown found).2.imp_right ?_
  rintro ⟨p, c, bound, _, inside⟩
  exact ⟨groupId p c, (laid.groups p c bound).1, (laid.groups p c bound).2, inside⟩

theorem LaidOut.mem_nodes (laid : r.LaidOut scene) : x ∈ scene.nodes ↔ x = rootId ∨ x ∈ r ∨ r.IsGroup x := by
  refine ⟨laid.only x, ?_⟩
  rintro (rfl | present | ⟨p, c, bound, rfl⟩)
  · exact Scene.mem_of_kind laid.linked.group
  · obtain ⟨shape, found⟩ := found_of_mem present
    exact laid.prepared.present found
  · exact Scene.mem_of_kind (laid.groups p c bound).1

theorem laidOut_initial : (∅ : Registry).LaidOut Scene.initial := by
  have empty (x : String) : (∅ : Registry)[x]? = none := by simp
  have free (x : String) : (∅ : Registry).parent? x = none := by simp [parent?]
  constructor
  · refine ⟨Scene.linked_initial, ?_, ?_, ?_⟩
    · intro x look shown
      simp [look?] at shown
    · intro p c bound
      cases (free c).symm.trans bound
    · intro x shape found
      cases (empty x).symm.trans found
  · intro x there
    simp only [Scene.initial, Std.ExtTreeMap.mem_insert, Std.compare_eq_iff_eq, Std.ExtTreeMap.not_mem_empty,
      or_false] at there
    exact .inl there.symm

end Registry

namespace Session

variable {s : Session Scene} {id x : String} {value : Shape}

theorem recorded_parent? : (s.recorded id value).shapes.parent? x = s.shapes.parent? x := by
  unfold recorded
  split
  · exact Registry.parent?_modify fun _ => rfl
  · rename_i absent
    refine Registry.parent?_put.trans ?_
    split
    · subst x
      simp [Registry.parent?, absent, Shape.detached, Links.none]
    · exact Registry.parent?_modify fun _ => rfl

theorem registered_furnished (laid : s.shapes.LaidOut s.surface) (ordinary : (s.recorded id value).shapes.Ordinary) :
    (s.recorded id value).shapes.Furnished [id] (Surface.ensureNode value.kind id s.surface) := by
  -- The node of the shape may be new, or of another kind before. No node is in it that would have to move.
  have own := ordinary id (recorded_mem.mpr (.inl rfl))
  have looks (x : String) (apart : x ≠ id) : Scene.look? (Surface.ensureNode value.kind id s.surface) x =
      s.surface.look? x := Scene.look?_ensureNode_apart apart
  have containers (x : String) (apart : x ≠ id) : Scene.container? (Surface.ensureNode value.kind id s.surface) x =
      s.surface.container? x := laid.linked.container?_ensureNode own.2 (laid.childless own) apart
  refine ⟨laid.linked.ensureNode _ _, ?_, ?_, ?_⟩
  · exact recorded_prepared laid.prepared own.2 fun kind known => laid.isShape_iff.mp ⟨kind, known⟩
  · intro p c bound
    rw [recorded_parent?] at bound
    obtain ⟨group, top⟩ := laid.groups p c bound
    have apart : groupId p c ≠ id := own.ne_groupId.symm
    exact ⟨(Scene.kindOf?_congr (looks _ apart)).trans group, (containers _ apart).trans top⟩
  · intro x record after apart
    rw [List.mem_singleton] at apart
    obtain ⟨depicts, housed⟩ := laid.shown ((recorded_apart apart).symm.trans after)
    refine ⟨depicts.congr (looks x apart), Registry.Housed.congr ?_ (containers x apart)⟩
    unfold Registry.Housed
    simp only [recorded_parent?]
    exact housed

theorem registered_laidOut (laid : s.shapes.LaidOut s.surface) (ordinary : (s.recorded id value).shapes.Ordinary) :
    (s.registered id value).shapes.LaidOut (s.registered id value).surface := by
  have furnished := registered_furnished laid ordinary
  rw [registered_surface]
  refine furnished.laidOut_drawn ordinary fun x there => ?_
  by_cases same : x = id
  · exact .inr (.inl (recorded_mem.mpr (.inl same)))
  · rw [Scene.mem_iff_look, Scene.look?_ensureNode_apart same, ← Scene.mem_iff_look] at there
    rcases laid.only x there with root | present | ⟨p, c, bound, same⟩
    · exact .inl root
    · exact .inr (.inl (recorded_mem.mpr (.inr present)))
    · exact .inr (.inr ⟨p, c, recorded_parent?.trans bound, same⟩)

def Ordinary (s : Session Scene) : Prop := s.shapes.Ordinary

def InPlace (s : Session Scene) : Prop := s.shapes.Ordinary ∧ s.shapes.LaidOut s.surface

theorem InPlace.changed {f : Shape → Shape} (placed : s.InPlace) (kinds : ∀ record, (f record).kind = record.kind)
    (links : ∀ record, (f record).links = record.links) : (s.changed id f).InPlace := by
  constructor
  · exact fun x present => placed.1 x (Std.ExtTreeMap.mem_modify.mp present)
  · refine placed.2.congr (Registry.keepsKinds_modify fun record _ => kinds record) ?_ ?_
    · exact fun x => Std.ExtTreeMap.mem_modify.mpr
    · exact fun x => Registry.parent?_modify links

theorem InPlace.attached {parent child : String} {linked : Bool} (placed : s.InPlace)
    (granted : s.shapes.checkBinding parent child = .ok linked) (position : Float × Float) :
    (s.attached parent child position linked).InPlace := by
  have moved : (s.changed child (·.moveTo position)).InPlace :=
    placed.changed (fun record => record.geometry.kind_moveTo position) fun _ => rfl
  obtain ⟨above, below, ⟨rfl, _⟩ | ⟨rfl, free, _⟩⟩ := Registry.checkBinding_cases granted
  · exact moved
  · refine ⟨fun x present => placed.1 x (attached_mem.mp present), moved.2.link moved.1 ?_ ?_ ?_⟩
    · exact Std.ExtTreeMap.mem_modify.mpr above
    · exact Std.ExtTreeMap.mem_modify.mpr below
    · exact (Registry.parent?_modify (by exact fun _ => rfl)).trans free

theorem staging_inPlace : Staging Registry.Ordinary InPlace where
  same placed shapes surface := by
    unfold InPlace
    rw [shapes, surface]
    exact placed
  changed _ placed kinds links := placed.changed kinds links
  drawn _ placed := ⟨placed.1, placed.2.drawn placed.1⟩
  added _ _ _ placed ordinary := ⟨ordinary, registered_laidOut placed.2 ordinary⟩
  bound position _ placed granted := placed.attached granted position
  removed sound placed found := by
    refine ⟨fun x present => placed.1 x ?_, placed.2.cutOut sound.forest found placed.1⟩
    exact ((sound.forest.mem_cutOut found).mp present).2

theorem opening_inPlace {display : Display} {catchUp : Nat} : (opening Scene.initial display catchUp).InPlace := by
  refine ⟨fun x present => ?_, Registry.laidOut_initial⟩
  exact absurd present Std.ExtTreeMap.not_mem_empty

theorem ReachableThrough.inPlace (reached : ReachableThrough Ordinary Scene.initial s) : s.InPlace :=
  reached.invariant (fun _ _ => opening_inPlace) fun _ _ sound placed happens ordinary =>
    staging_inPlace.happens sound placed happens ordinary

structure Tidy (s : Session Scene) : Prop where
  linked : s.surface.Linked
  nodes : ∀ x, x ∈ s.surface.nodes ↔ x = rootId ∨ x ∈ s.shapes ∨ s.shapes.IsGroup x
  groups : ∀ p c, s.shapes.parent? c = some p → s.surface.Stands (groupId p c)
  shapes : ∀ x shape, s.shapes[x]? = some shape →
    s.surface.kindOf? x = some (.shape shape.kind) ∧ s.shapes.Housed s.surface x
  once : (s.surface.drawList.map (·.id)).Nodup
  painted : ∀ x, x ∈ s.surface.drawList.map (·.id) ↔ x ∈ s.shapes

-- No shape is lost, drawn twice or left behind, whatever a session goes through, as long as none of its
-- ids is the root or could be a group.
theorem reachableThrough_tidy (reached : ReachableThrough Ordinary Scene.initial s) : s.Tidy := by
  obtain ⟨_, laid⟩ := reached.inPlace
  obtain ⟨once, painted⟩ := laid.drawList_ids
  refine ⟨laid.linked, fun _ => laid.mem_nodes, laid.groups, fun x shape found => ?_, once, painted⟩
  obtain ⟨depicts, housed⟩ := laid.shown found
  exact ⟨depicts.kindOf?_eq, housed⟩

instance : DecidablePred Ordinary := fun s =>
  decidable_of_iff (∀ x ∈ s.shapes.keys, OrdinaryId x) (by simp [Ordinary, Registry.Ordinary])

def Sample.shuffle : Program := chain ++ [.shape (.ofGeometry (.rect 0 0 2 3)), .string "b", .word "add",
  .string "a", .word "remove"]

def Sample.shuffleSession : Session Scene := (opening Scene.initial .discarded 5).after (.exec shuffle)

theorem Sample.shuffle_reachable : ReachableThrough Ordinary Scene.initial shuffleSession := by
  refine .call (c := .exec shuffle) (.opening .discarded 5) ?_ ?_
  · simp [Call.Plain, Program.Plain, shuffle, chain, Value.type]
  · decide +kernel

theorem reachableThrough_tidy_shuffle : ReachableThrough Ordinary Scene.initial Sample.shuffleSession ∧
    Sample.shuffleSession.shapes.keys = ["b", "c", "d"] ∧ Sample.shuffleSession.Tidy :=
  ⟨Sample.shuffle_reachable, by decide +kernel, reachableThrough_tidy Sample.shuffle_reachable⟩

end Session
end Diorama
