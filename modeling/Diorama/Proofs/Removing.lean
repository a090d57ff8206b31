import Diorama.Proofs.Adding

namespace Diorama

-- Neither the root nor a group has such an id.
def OrdinaryId (id : String) : Prop := '+' ∉ id.toList ∧ id ≠ rootId

instance (id : String) : Decidable (OrdinaryId id) := inferInstanceAs (Decidable (_ ∧ _))

theorem OrdinaryId.ne_groupId {id parent child : String} (ordinary : OrdinaryId id) : id ≠ groupId parent child := by
  rintro rfl
  exact ordinary.1 (by simp [groupId])

def Shape.groups (id : String) (shape : Shape) : List String :=
  shape.links.parent.toList.map (groupId · id) ++ shape.links.children.map (groupId id)

namespace Registry

variable {r : Registry} {id x a b c : String} {removed child grandchild : Shape}

theorem Ends.parent_ne_grandchild (ends : r.Ends a) (first : r.parent? a = some b)
    (second : r.parent? b = some c) : r.parent? c ≠ some a := by
  intro third
  exact ends.acyclic first (.up second (.up third .here))

theorem severed_geometry : (severed id removed x child).geometry =
    if x ∈ removed.links.children then child.geometry.moveBy removed.position else child.geometry := by
  unfold severed
  dsimp only
  split <;> split <;> rfl

theorem severed_kind : (severed id removed x child).kind = child.kind := by
  unfold Shape.kind
  rw [severed_geometry]
  split
  · exact Geometry.kind_moveTo _ _
  · rfl

theorem severed_look {absolute : Geometry} : (severed id removed x child).look absolute = child.look absolute := by
  have fill : (severed id removed x child).fill = child.fill := by
    unfold severed
    dsimp only
    split <;> split <;> rfl
  have rotation : (severed id removed x child).rotation = child.rotation := by
    unfold severed
    dsimp only
    split <;> split <;> rfl
  simp only [Shape.look, Shape.nodeAttributes, severed_kind, fill, rotation]

theorem Forest.keepsKinds_cutOut (forest : r.Forest) (found : r[id]? = some removed) :
    r.KeepsKinds (r.cutOut id removed) := by
  intro x record after
  rw [forest.getElem?_cutOut found] at after
  split at after
  · cases after
  · obtain ⟨old, before, rfl⟩ := Option.map_eq_some_iff.mp after
    exact ⟨old, before, severed_kind.symm⟩

theorem Forest.getElem?_cutOut_apart (forest : r.Forest) (found : r[id]? = some removed) (apart : x ≠ id)
    (unlinked : x ∉ removed.links.children ++ removed.links.parent.toList) :
    (r.cutOut id removed)[x]? = r[x]? := by
  simp only [List.mem_append, Option.mem_toList, not_or] at unlinked
  have same : severed id removed x = fun s => s := by
    funext s
    simp [severed, unlinked.1, unlinked.2]
  rw [forest.getElem?_cutOut found, if_neg (Ne.symm apart), same]
  exact Option.map_id'

theorem Forest.position_cutOut (forest : r.Forest) (found : r[id]? = some removed) (apart : c ≠ id)
    (free : r.parent? c ≠ some id) :
    (r.cutOut id removed)[c]?.map (·.position) = r[c]?.map (·.position) := by
  have unlisted : c ∉ removed.links.children := by
    rw [← children_eq found, forest.mirrored]
    exact free
  rw [forest.getElem?_cutOut found, if_neg (Ne.symm apart), Option.map_map]
  congr 1
  funext s
  simp only [Function.comp_apply, severed, unlisted, if_false]
  split <;> rfl

theorem Forest.child_cutOut (forest : r.Forest) (found : r[id]? = some removed) (listed : r[c]? = some child)
    (bound : child.links.parent = some id) :
    ∃ after : Shape, (r.cutOut id removed)[c]? = some after ∧
      after.position = (child.moveBy removed.position).position := by
  have above : r.parent? c = some id := (parent?_eq listed).trans bound
  have member : c ∈ removed.links.children := by
    rw [← children_eq found, forest.mirrored]
    exact above
  refine ⟨severed id removed c child, ?_, ?_⟩
  · rw [forest.getElem?_cutOut found, if_neg ((forest.ends c).parent_ne above), listed]
    rfl
  · simp only [severed, member, if_true]
    split <;> rfl

theorem look?_drawn_apart {scene : Scene} {ids : List String} (apart : x ∉ ids) :
    (ids.foldl (fun scene id => r.display id scene) scene).look? x = scene.look? x := by
  induction ids generalizing scene with
  | nil => rfl
  | cons id ids ih =>
    simp only [List.mem_cons, not_or] at apart
    exact (ih apart.2).trans (look?_display_apart apart.1)

-- If two links lead from the shape `x` up to `id`, it is drawn in the same place when its parent takes
-- up the position of `id`.
def StaysPut (r : Registry) (id : String) (removed : Shape) (x : String) : Prop :=
  ∀ (c : String) (child grandchild : Shape), r[x]? = some grandchild → grandchild.links.parent = some c →
    r[c]? = some child → child.links.parent = some id →
    grandchild.geometry.moveBy (child.moveBy removed.position).position =
      grandchild.geometry.moveBy child.position

theorem Forest.staysPut_linked (forest : r.Forest) (found : r[id]? = some removed)
    (linked : x ∈ removed.links.children ++ removed.links.parent.toList) : r.StaysPut id removed x := by
  intro c child grandchild listed bound above top
  have first : r.parent? x = some c := (parent?_eq listed).trans bound
  have second : r.parent? c = some id := (parent?_eq above).trans top
  rcases List.mem_append.mp linked with below | upper
  · rw [← children_eq found, forest.mirrored, first] at below
    exact absurd (Option.some.inj below).symm ((forest.ends c).parent_ne second)
  · rw [Option.mem_toList, ← parent?_eq found] at upper
    exact absurd upper ((forest.ends x).parent_ne_grandchild first second)

theorem Forest.look?_cutOut_linked (forest : r.Forest) (found : r[id]? = some removed)
    (linked : x ∈ removed.links.children ++ removed.links.parent.toList) :
    (r.cutOut id removed).look? x = r.look? x := by
  -- A child takes up the sum that placed it. The parent only lists one child less.
  obtain ⟨apart, present⟩ := (forest.mem_cutOut found).mp (forest.survivor_mem found linked)
  obtain ⟨record, here⟩ := found_of_mem present
  have after : (r.cutOut id removed)[x]? = some (severed id removed x record) := by
    rw [forest.getElem?_cutOut found, if_neg apart.symm, here]
    rfl
  have mine : x ∈ removed.links.children ↔ record.links.parent = some id := by
    rw [← children_eq found, forest.mirrored, parent?_eq here]
  have placed : (r.cutOut id removed).absolute (severed id removed x record) = r.absolute record := by
    by_cases below : x ∈ removed.links.children
    · simp only [absolute, severed_parent, severed_geometry, if_pos below, mine.mp below, Option.bind_none,
        Option.bind_some, found]
    · have upper := (List.mem_append.mp linked).resolve_left below
      rw [Option.mem_toList, ← parent?_eq found] at upper
      refine absolute_congr (severed_geometry.trans (if_neg below)) (severed_parent.trans (if_neg below)) ?_
      intro p bound
      refine forest.position_cutOut found ?_ ?_
      · rintro rfl
        exact below (mine.mpr bound)
      · exact fun second => (forest.ends x).parent_ne_grandchild ((parent?_eq here).trans bound) second upper
  rw [look?_found after, look?_found here, placed, severed_look]

theorem Forest.look?_cutOut_iff (forest : r.Forest) (found : r[id]? = some removed) (apart : x ≠ id)
    (unlinked : x ∉ removed.links.children ++ removed.links.parent.toList) :
    (r.cutOut id removed).look? x = r.look? x ↔ r.StaysPut id removed x := by
  have record := forest.getElem?_cutOut_apart found apart unlinked
  have unbound : r.parent? x ≠ some id := by
    rw [ne_eq, ← forest.mirrored, children_eq found]
    exact fun below => unlinked (List.mem_append.mpr (.inl below))
  constructor
  · intro same c child grandchild listed bound above top
    obtain ⟨after, there, position⟩ := forest.child_cutOut found above top
    rw [look?_child there (record.trans listed) bound, look?_child above listed bound] at same
    rw [← position]
    refine Shape.nodeAttributes_inj ?_ (congrArg Look.attributes (Option.some.inj same))
    exact (Geometry.kind_moveTo _ _).trans (Geometry.kind_moveTo _ _).symm
  · intro stays
    by_cases below : ∃ c, r.parent? x = some c ∧ r.parent? c = some id
    · obtain ⟨c, first, second⟩ := below
      obtain ⟨grandchild, listed⟩ := found_of_mem (mem_of_parent first)
      obtain ⟨child, above⟩ := found_of_mem (mem_of_parent second)
      rw [parent?_eq listed] at first
      rw [parent?_eq above] at second
      obtain ⟨after, there, position⟩ := forest.child_cutOut found above second
      rw [look?_child there (record.trans listed) first, look?_child above listed first, position,
        stays c child grandchild listed first above second]
    · refine look?_congr record fun c first => forest.position_cutOut found ?_ ?_
      · rintro rfl
        exact unbound first
      · exact fun second => below ⟨c, first, second⟩

end Registry

namespace Session

variable {s s' : Session Scene} {id x c : String} {removed child grandchild : Shape} {look : Look}

def Shows (s : Session Scene) (id : String) : Prop :=
  ∀ shape : Shape, s.shapes[id]? = some shape → ∃ node : Node, s.surface.nodes[id]? = some node ∧
    node.kind = .shape shape.kind ∧ node.attributes = shape.nodeAttributes (s.shapes.absolute shape)

theorem inSync_iff_shows : s.InSync ↔ ∀ id, s.Shows id := Iff.rfl

theorem shows_iff (shown : s.shapes.look? id = some look) : s.Shows id ↔ s.surface.look? id = some look := by
  obtain ⟨shape, found, rfl⟩ := Option.map_eq_some_iff.mp shown
  constructor
  · intro shows
    obtain ⟨node, there, kind, attributes⟩ := shows shape found
    simp [Scene.look?, there, Node.look, Shape.look, kind, attributes]
  · intro there other again
    cases found.symm.trans again
    obtain ⟨node, there, same⟩ := Option.map_eq_some_iff.mp there
    exact ⟨node, there, congrArg Look.kind same, congrArg Look.attributes same⟩

theorem InSync.removed_scene (forest : s.shapes.Forest) (synced : s.InSync)
    (found : s.shapes[id]? = some removed) (apart : x ≠ id) (unnamed : x ∉ removed.groups id)
    (shown : (s.shapes.cutOut id removed).look? x = some look) :
    (s.removed id removed).surface.look? x =
      if x ∈ removed.links.children ++ removed.links.parent.toList then some look else s.surface.look? x := by
  -- whoever was linked to the shape is drawn, and no one else is touched who has no group's name
  let cut := s.shapes.cutOut id removed
  have kept : x ∉ removed.groups id ++ [id] := by
    rw [List.mem_append, List.mem_singleton, not_or]
    exact ⟨unnamed, apart⟩
  have prepared : cut.Prepared s.surface := synced.prepared.congr (forest.keepsKinds_cutOut found)
  refine (Scene.look?_deleteNodes kept).trans ?_
  split
  · rename_i linked
    exact prepared.look?_drawn shown (.inl linked)
  · rename_i unlinked
    exact Registry.look?_drawn_apart unlinked

theorem InSync.removed_shows_iff (forest : s.shapes.Forest) (synced : s.InSync)
    (ordinary : ∀ x ∈ s.shapes, OrdinaryId x) (found : s.shapes[id]? = some removed)
    (survives : x ∈ (s.removed id removed).shapes) :
    (s.removed id removed).Shows x ↔ s.shapes.StaysPut id removed x := by
  obtain ⟨apart, present⟩ := (forest.mem_cutOut found).mp survives
  obtain ⟨after, there⟩ := Registry.found_of_mem survives
  obtain ⟨before, here⟩ := Registry.found_of_mem present
  have shown := Registry.look?_found there
  have drawn := inSync_iff.mp synced x _ (Registry.look?_found here)
  have unnamed : x ∉ removed.groups id := by
    have grouped (p c : String) : groupId p c ≠ x := (ordinary x present).ne_groupId.symm
    simp [Shape.groups, grouped]
  rw [shows_iff shown, synced.removed_scene forest found apart unnamed shown]
  split
  · rename_i linked
    exact ⟨fun _ => forest.staysPut_linked found linked, fun _ => rfl⟩
  · rename_i unlinked
    rw [← forest.look?_cutOut_iff found apart unlinked, drawn, Registry.look?_found here, ← shown]
    exact eq_comm

theorem run_remove {σ : Type} [Surface σ] {s : Session σ} {rest : Stack} {top : Value} (sound : s.Sound)
    (found : s.shapes[id]? = some removed) (names : top = .string id ∨ top = .symbol id) :
    s.run [.primitive .remove] 0 (top :: rest) = (.ok rest, s.removed id removed) := by
  have popped : Machine.perform Machine.redraw .remove ⟨top :: rest, s⟩ =
      Machine.onSession (remove id) ⟨rest, s⟩ := by
    rcases names with rfl | rfl <;> rfl
  rw [run_primitive, popped]
  simp only [Machine.onSession, remove_ok sound found]

-- Removing a registered shape succeeds. A survivor is shown as it is, unless two links lead from it up
-- to the removed shape and the new position of its parent would place it elsewhere.
theorem remove_inSync_iff (reached : Reachable Scene.initial s) (synced : s.InSync)
    (ordinary : ∀ x ∈ s.shapes, OrdinaryId x) (found : s.shapes[id]? = some removed) (rest : Stack) :
    ∃ s', (∀ top, top = .string id ∨ top = .symbol id →
        s.run [.primitive .remove] 0 (top :: rest) = (.ok rest, s')) ∧
      (∀ x ∈ s'.shapes, s'.Shows x ↔ s.shapes.StaysPut id removed x) ∧
      (s'.InSync ↔ ∀ x ∈ s'.shapes, s.shapes.StaysPut id removed x) := by
  have forest := reached.sound.forest
  have survivors (x : String) (survives : x ∈ (s.removed id removed).shapes) :=
    synced.removed_shows_iff forest ordinary found survives
  refine ⟨s.removed id removed, fun top names => run_remove reached.sound found names, survivors, ?_⟩
  rw [inSync_iff_shows]
  constructor
  · intro shows x survives
    exact (survivors x survives).mp (shows x)
  · intro stays x shape there
    have survives := Registry.mem_of_found there
    exact (survivors x survives).mpr (stays x survives) shape there

def Sample.chain : Program := [.shape (dot 5), .string "a", .word "add", .shape (dot 0), .string "b",
  .word "add", .shape (dot 0), .string "c", .word "add", .shape (dot 0), .string "d", .word "add",
  .number 1, .number 1, .string "b", .string "a", .word "bind",
  .number 2, .number 2, .string "c", .string "b", .word "bind",
  .number 3, .number 3, .string "d", .string "c", .word "bind"]

def Sample.chainSession : Session Scene := (opening Scene.initial .discarded 5).after (.exec chain)

theorem Sample.chain_reachable : Reachable Scene.initial chainSession :=
  .call (c := .exec chain) (.opening .discarded 5) (by simp [Call.Plain, Program.Plain, chain, Value.type])

theorem Sample.chain_inSync : chainSession.InSync := by decide +kernel

theorem Sample.chain_ordinary (x : String) (present : x ∈ chainSession.shapes) : OrdinaryId x := by
  have all : ∀ x ∈ chainSession.shapes.keys, OrdinaryId x := by decide +kernel
  exact all x (Std.ExtTreeMap.mem_keys.mpr present)

theorem remove_inSync_iff_chain : Sample.chainSession.InSync ∧
    ∃ removed, Sample.chainSession.shapes["a"]? = some removed ∧ ∃ s', (∀ top, top = .string "a" ∨ top = .symbol "a" →
        Sample.chainSession.run [.primitive .remove] 0 [top] = (.ok [], s')) ∧
      (∀ x ∈ s'.shapes, s'.Shows x ↔ Sample.chainSession.shapes.StaysPut "a" removed x) ∧
      (s'.InSync ↔ ∀ x ∈ s'.shapes, Sample.chainSession.shapes.StaysPut "a" removed x) := by
  have present : "a" ∈ Sample.chainSession.shapes := by decide +kernel
  obtain ⟨removed, found⟩ := Registry.found_of_mem present
  exact ⟨Sample.chain_inSync, removed, found,
    remove_inSync_iff Sample.chain_reachable Sample.chain_inSync Sample.chain_ordinary found []⟩

-- Once `a` is removed, `b` stays where it is drawn, but `c` is still drawn where the old position of
-- `b` placed it.
theorem remove_leaves_grandchild_stale : Reachable Scene.initial Sample.chainSession ∧
    Sample.chainSession.Renders ∧ Sample.chainSession.InSync ∧
    (∀ x ∈ Sample.chainSession.shapes, OrdinaryId x) ∧ "a" ∈ Sample.chainSession.shapes ∧
    ¬ (Sample.chainSession.run [.primitive .remove] 0 [.string "a"]).2.InSync :=
  ⟨Sample.chain_reachable, by decide +kernel, Sample.chain_inSync, Sample.chain_ordinary,
    by decide +kernel, by decide +kernel⟩

def KeepsNode (s s' : Session Scene) (x : String) : Prop :=
  ∀ node : Node, s.surface.nodes[x]? = some node → ∃ node' : Node, s'.surface.nodes[x]? = some node' ∧
    node'.kind = node.kind ∧ node'.attributes = node.attributes

theorem keepsNode_iff (there : s.surface.look? x = some look) :
    s.KeepsNode s' x ↔ s'.surface.look? x = some look := by
  obtain ⟨node, here, rfl⟩ := Option.map_eq_some_iff.mp there
  constructor
  · intro keeps
    obtain ⟨node', after, kind, attributes⟩ := keeps node here
    simp [Scene.look?, after, Node.look, kind, attributes]
  · intro after other again
    cases here.symm.trans again
    obtain ⟨node', after, same⟩ := Option.map_eq_some_iff.mp after
    exact ⟨node', after, congrArg Look.kind same, congrArg Look.attributes same⟩

theorem InSync.inner (reached : Reachable Scene.initial s) (synced : s.InSync) (present : x ∈ s.shapes) :
    x ≠ rootId := by
  rintro rfl
  obtain ⟨record, found⟩ := Registry.found_of_mem present
  have drawn := inSync_iff.mp synced rootId _ (Registry.look?_found found)
  have root := reached.staged.root
  rw [Scene.kindOf?_eq, drawn] at root
  cases root

theorem InSync.removed_look (forest : s.shapes.Forest) (synced : s.InSync) (found : s.shapes[id]? = some removed)
    (present : x ∈ s.shapes) (apart : x ≠ id) (unnamed : x ∉ removed.groups id) :
    (s.removed id removed).surface.look? x = s.surface.look? x := by
  obtain ⟨before, here⟩ := Registry.found_of_mem present
  have drawn := inSync_iff.mp synced x _ (Registry.look?_found here)
  obtain ⟨after, there⟩ := Registry.found_of_mem ((forest.mem_cutOut found).mpr ⟨apart, present⟩)
  have shown := Registry.look?_found there
  rw [synced.removed_scene forest found apart unnamed shown]
  split
  · rename_i linked
    rw [drawn, ← shown, forest.look?_cutOut_linked found linked, Registry.look?_found here]
  · rfl

-- Removing a registered shape succeeds. Any other shape stays registered and keeps its node as it was,
-- unless it has the name of one of the groups that are deleted. Then its node is gone.
theorem remove_keepsNode_iff (reached : Reachable Scene.initial s) (synced : s.InSync)
    (found : s.shapes[id]? = some removed) (rest : Stack) :
    ∃ s', (∀ top, top = .string id ∨ top = .symbol id →
        s.run [.primitive .remove] 0 (top :: rest) = (.ok rest, s')) ∧
      ∀ x ∈ s.shapes, x ≠ id → x ∈ s'.shapes ∧ (s.KeepsNode s' x ↔ x ∉ removed.groups id) ∧
        (x ∈ s'.surface.nodes ↔ x ∉ removed.groups id) := by
  have forest := reached.sound.forest
  refine ⟨s.removed id removed, fun top names => run_remove reached.sound found names, fun x present apart => ?_⟩
  obtain ⟨record, here⟩ := Registry.found_of_mem present
  have drawn := inSync_iff.mp synced x _ (Registry.look?_found here)
  refine ⟨(forest.mem_cutOut found).mpr ⟨apart, present⟩, ?_⟩
  rw [keepsNode_iff drawn, Scene.mem_iff_look]
  by_cases named : x ∈ removed.groups id
  · have gone : (s.removed id removed).surface.look? x = none :=
      Scene.look?_deleteNodes_gone (synced.inner reached present) (.inl (List.mem_append.mpr (.inl named)))
    simp [gone, named]
  · have kept := (synced.removed_look forest found present apart named).trans drawn
    simp [kept, named]

-- The circle `a+b` has the name of the group that is made when `b` is bound to `a`.
def Sample.namesake : Program := [.shape (dot 0), .string "a", .word "add", .shape (dot 0), .string "b",
  .word "add", .shape (dot 5), .string "a+b", .word "add",
  .number 2, .number 1, .string "b", .string "a", .word "bind"]

def Sample.namesakeSession : Session Scene := (opening Scene.initial .discarded 5).after (.exec namesake)

theorem Sample.namesake_reachable : Reachable Scene.initial namesakeSession :=
  .call (c := .exec namesake) (.opening .discarded 5)
    (by simp [Call.Plain, Program.Plain, namesake, Value.type])

theorem Sample.namesake_inSync : namesakeSession.InSync := by decide +kernel

theorem remove_keepsNode_iff_namesake : Sample.namesakeSession.InSync ∧
    ∃ removed, Sample.namesakeSession.shapes["a"]? = some removed ∧ ∃ s',
      (∀ top, top = .string "a" ∨ top = .symbol "a" →
        Sample.namesakeSession.run [.primitive .remove] 0 [top] = (.ok [], s')) ∧
      ∀ x ∈ Sample.namesakeSession.shapes, x ≠ "a" → x ∈ s'.shapes ∧
        (Sample.namesakeSession.KeepsNode s' x ↔ x ∉ removed.groups "a") ∧
        (x ∈ s'.surface.nodes ↔ x ∉ removed.groups "a") := by
  have present : "a" ∈ Sample.namesakeSession.shapes := by decide +kernel
  obtain ⟨removed, found⟩ := Registry.found_of_mem present
  exact ⟨Sample.namesake_inSync, removed, found,
    remove_keepsNode_iff Sample.namesake_reachable Sample.namesake_inSync found []⟩

theorem remove_deletes_namesake : Reachable Scene.initial Sample.namesakeSession ∧
    Sample.namesakeSession.Renders ∧ Sample.namesakeSession.InSync ∧ "a" ∈ Sample.namesakeSession.shapes ∧
    "a+b" ∈ Sample.namesakeSession.shapes ∧
    Sample.namesakeSession.surface.kindOf? "a+b" = some (.shape .circle) ∧
    "a+b" ∈ (Sample.namesakeSession.run [.primitive .remove] 0 [.string "a"]).2.shapes ∧
    (Sample.namesakeSession.run [.primitive .remove] 0 [.string "a"]).2.surface.kindOf? "a+b" = none :=
  ⟨Sample.namesake_reachable, by decide +kernel, Sample.namesake_inSync, by decide +kernel, by decide +kernel,
    by decide +kernel, by decide +kernel, by decide +kernel⟩

end Session
end Diorama
