import Diorama.Proofs.Descent
import Mathlib.Data.List.Induction

namespace Diorama

open Relation

-- Makes a shape of a node that has children.
def Edit.Overwrites (e : Edit) (s : Scene) : Prop :=
  ∃ kind id, e = .createNode kind id ∧ id ≠ rootId ∧ s.children id ≠ []

def Edit.Overwritten (edits : List Edit) : Prop :=
  ∃ before e after, edits = before ++ e :: after ∧ e.Overwrites (Surface.applyAll before Scene.initial)

namespace Scene

variable {s s' : Scene} {x y id : String}

def Hidden (s : Scene) (x : String) : Prop := ∃ p, s.IsShape p ∧ TransGen s.Inside x p

def Grouped (s : Scene) : Prop := ∀ k, s.children k ≠ [] → s.kindOf? k = some .group

theorem Hidden.below (inside : s.Inside x y) (hidden : s.Hidden y) : s.Hidden x := by
  obtain ⟨p, shape, above⟩ := hidden
  exact ⟨p, shape, .head inside above⟩

theorem Hidden.cases_up (inside : s.Inside x y) (hidden : s.Hidden x) : s.IsShape y ∨ s.Hidden y := by
  obtain ⟨p, shape, above⟩ := hidden
  obtain ⟨q, up, rest⟩ := TransGen.head'_iff.mp above
  have same : q = y := Option.some.inj (up.symm.trans inside)
  subst q
  rcases reflTransGen_iff_eq_or_transGen.mp rest with rfl | higher
  · exact .inl shape
  · exact .inr ⟨p, shape, higher⟩

theorem IsShape.not_group (shape : s.IsShape x) : s.kindOf? x ≠ some .group := by
  obtain ⟨kind, known⟩ := shape
  rw [known]
  exact fun same => NodeKind.noConfusion (Option.some.inj same)

theorem isShape_of_ne_group (present : x ∈ s.nodes) (other : s.kindOf? x ≠ some .group) : s.IsShape x := by
  cases known : s.kindOf? x with
  | none =>
    have nowhere : s.nodes[x]? = none := Option.map_eq_none_iff.mp known
    simp [Std.ExtTreeMap.mem_iff_isSome_getElem?, nowhere] at present
  | some found =>
    cases found with
    | group => exact absurd known other
    | shape kind => exact ⟨kind, known⟩

theorem Tree.shown_iff (t : Tree) : ReflTransGen t.scene.Shown x rootId ↔
    t.scene.isWithin x rootId = true ∧ ¬ t.scene.Hidden x := by
  -- by induction along the chain to the root: there is a group at every step, or else a shape that hides the node
  rw [t.rooted.isWithin_iff]
  constructor
  · intro chain
    induction chain using ReflTransGen.head_induction_on with
    | refl =>
      refine ⟨.refl, ?_⟩
      rintro ⟨p, _, above⟩
      obtain ⟨q, up, _⟩ := TransGen.head'_iff.mp above
      cases up.symm.trans t.linked.root
    | @head x y shown _ ih =>
      refine ⟨.head shown.1 ih.1, fun hidden => ?_⟩
      rcases hidden.cases_up shown.1 with shape | higher
      · exact shape.not_group shown.2
      · exact ih.2 higher
  · rintro ⟨chain, bare⟩
    induction chain using ReflTransGen.head_induction_on with
    | refl => exact .refl
    | @head x y inside _ ih =>
      refine .head ⟨inside, ?_⟩ (ih fun higher => bare (higher.below inside))
      by_contra other
      have present : y ∈ t.scene.nodes := mem_of_child ((t.linked.mirrored x y).mpr inside)
      exact bare ⟨y, isShape_of_ne_group present other, .single inside⟩

theorem Tree.mem_drawn_iff (t : Tree) : x ∈ t.scene.drawList.map (·.id) ↔
    t.scene.Drawable x ∧ t.scene.isWithin x rootId = true ∧ ¬ t.scene.Hidden x := by
  have inner (drawable : t.scene.Drawable x) : x ≠ rootId := by
    rintro rfl
    obtain ⟨kind, known, _⟩ := drawable
    exact IsShape.not_group ⟨kind, known⟩ t.linked.group
  rw [t.drawList_ids, List.mem_filter, item?_isSome_iff, ← t.shown_iff, ← t.mem_order, t.order_root, List.mem_cons,
    and_comm]
  constructor
  · rintro ⟨drawable, among⟩
    exact ⟨drawable, .inr among⟩
  · rintro ⟨drawable, among⟩
    exact ⟨drawable, among.resolve_left (inner drawable)⟩

theorem Grouped.not_hidden (linked : s.Linked) (grouped : s.Grouped) : ¬ s.Hidden x := by
  rintro ⟨p, shape, above⟩
  obtain ⟨c, _, inside⟩ := TransGen.tail'_iff.mp above
  have listed : c ∈ s.children p := (linked.mirrored c p).mpr inside
  exact shape.not_group (grouped p (List.ne_nil_of_mem listed))

theorem grouped_initial : initial.Grouped := by
  intro k filled
  by_cases same : k = rootId
  · rw [same]
    exact linked_initial.group
  · refine absurd ?_ filled
    simp [children, initial, Ne.symm same]

theorem Grouped.step (grouped : s.Grouped) (kept : ∀ k, s'.children k ≠ [] →
    s'.kindOf? k = some .group ∨ s.children k ≠ [] ∧ s'.kindOf? k = s.kindOf? k) : s'.Grouped := by
  intro k filled
  rcases kept k filled with group | ⟨before, same⟩
  · exact group
  · exact same.trans (grouped k before)

theorem ne_nil_of_filter {ids : List String} {keep : String → Bool} (filled : ids.filter keep ≠ []) : ids ≠ [] := by
  rintro rfl
  exact filled rfl

theorem Grouped.createNode_iff {kind : Kind} (grouped : s.Grouped) :
    (s.createNode kind id).Grouped ↔ (id ≠ rootId → s.children id = []) := by
  constructor
  · intro after inner
    by_contra filled
    have group := after id (children_createNode.trans_ne filled)
    rw [kindOf?_eq, look?_createNode inner, if_pos rfl] at group
    cases group
  · intro empty
    by_cases inner : id = rootId
    · rw [inner, createNode_root]
      exact grouped
    · refine grouped.step fun k filled => .inr ?_
      rw [children_createNode] at filled
      refine ⟨filled, kindOf?_congr (look?_createNode_apart ?_)⟩
      rintro rfl
      exact filled (empty inner)

theorem Grouped.createGroup (grouped : s.Grouped) (id : String) : (s.createGroup id).Grouped := by
  refine grouped.step fun k filled => ?_
  rw [children_createGroup] at filled
  by_cases same : id = k
  · subst k
    exact .inl (kindOf?_createGroup (.inr (grouped id filled)))
  · exact .inr ⟨filled, kindOf?_congr (by rw [look?_createGroup, if_neg same])⟩

theorem Grouped.setAttributes (grouped : s.Grouped) (id : String) (attributes : List Attribute) :
    (s.setAttributes id attributes).Grouped := by
  refine grouped.step fun k filled => .inr ⟨?_, kindOf?_setAttributes⟩
  rw [children_setAttributes] at filled
  exact filled

theorem Grouped.detach (linked : s.Linked) (grouped : s.Grouped) (id : String) : (s.detach id).Grouped := by
  refine grouped.step fun k filled => .inr ⟨?_, kindOf?_congr look?_detach⟩
  rw [linked.children_detach] at filled
  exact ne_nil_of_filter filled

theorem Grouped.appendChild (linked : s.Linked) (grouped : s.Grouped) (container id : String) :
    (s.appendChild container id).Grouped := by
  cases accepted : s.accepts container id with
  | false =>
    rw [appendChild_refused accepted]
    exact grouped
  | true =>
    refine grouped.step fun k filled => ?_
    have kind : (s.appendChild container id).kindOf? k = s.kindOf? k := kindOf?_congr look?_appendChild
    rw [children_appendChild accepted] at filled
    split at filled
    · subst k
      exact .inl (kind.trans (accepts_iff.mp accepted).2.2.1)
    · rw [linked.children_detach] at filled
      exact .inr ⟨ne_nil_of_filter filled, kind⟩

theorem Grouped.deleteNode (linked : s.Linked) (grouped : s.Grouped) (id : String) : (s.deleteNode id).Grouped := by
  by_cases inner : id = rootId
  · rw [inner, deleteNode_root]
    exact grouped
  · refine grouped.step fun k filled => ?_
    rw [(linked.deleteNode_links inner).2] at filled
    split at filled
    · exact absurd rfl filled
    · rename_i apart
      split at filled
      · subst k
        exact .inl (linked.deleteNode id).group
      · exact .inr ⟨ne_nil_of_filter filled, kindOf?_congr (look?_deleteNode_apart (Ne.symm apart))⟩

theorem Grouped.apply_iff (linked : s.Linked) (grouped : s.Grouped) (e : Edit) :
    (s.apply e).Grouped ↔ ¬ e.Overwrites s := by
  have harmless (other : ∀ kind id, e ≠ .createNode kind id) : ¬ e.Overwrites s := by
    rintro ⟨kind, id, same, _⟩
    exact other kind id same
  cases e with
  | createNode kind id =>
    refine grouped.createNode_iff.trans ?_
    constructor
    · rintro empty ⟨_, _, same, inner, filled⟩
      cases same
      exact filled (empty inner)
    · intro spared inner
      by_contra filled
      exact spared ⟨kind, id, rfl, inner, filled⟩
  | createGroup id => exact iff_of_true (grouped.createGroup id) (harmless (by simp))
  | setAttributes id attributes => exact iff_of_true (grouped.setAttributes id attributes) (harmless (by simp))
  | appendChild container id => exact iff_of_true (grouped.appendChild linked container id) (harmless (by simp))
  | removeChild container id =>
    refine iff_of_true ?_ (harmless (by simp))
    change (s.removeChild container id).Grouped
    unfold Scene.removeChild
    split
    · exact grouped.detach linked id
    · exact grouped
  | deleteNode id => exact iff_of_true (grouped.deleteNode linked id) (harmless (by simp))

theorem applyAll_concat (before : List Edit) (e : Edit) (s : Scene) :
    Surface.applyAll (before ++ [e]) s = (Surface.applyAll before s : Scene).apply e :=
  List.foldl_concat ..

theorem grouped_iff (edits : List Edit) :
    (∀ before, before <+: edits → Grouped (Surface.applyAll before initial)) ↔ ¬ Edit.Overwritten edits := by
  constructor
  · rintro grouped ⟨before, e, after, rfl, overwrites⟩
    have earlier := grouped before (List.prefix_append _ _)
    have later := grouped (before ++ [e]) ⟨after, by simp⟩
    rw [applyAll_concat] at later
    exact (earlier.apply_iff (linked_initial.applyAll before) e).mp later overwrites
  · intro spared before
    induction before using List.reverseRecOn with
    | nil => exact fun _ => grouped_initial
    | append_singleton before e ih =>
      rintro ⟨after, rfl⟩
      have earlier := ih ⟨e :: after, by simp⟩
      rw [applyAll_concat]
      refine (earlier.apply_iff (linked_initial.applyAll before) e).mpr fun overwrites => ?_
      exact spared ⟨before, e, after, by simp, overwrites⟩

-- The nodes in the root are painted, and only groups have children at any stage, as long as no edit overwrites a node
-- that has children.
theorem applyAll_drawn_iff (edits : List Edit) :
    let s : Scene := Surface.applyAll edits initial
    let drawn := s.drawList.map (·.id)
    drawn.Nodup ∧ (∀ x, x ∈ drawn ↔ s.Drawable x ∧ s.isWithin x rootId = true ∧ ¬ s.Hidden x) ∧
      ((∀ x, x ∈ drawn ↔ s.Drawable x ∧ s.isWithin x rootId = true) ∧
        (∀ before, before <+: edits → Grouped (Surface.applyAll before initial)) ↔ ¬ Edit.Overwritten edits) := by
  intro s drawn
  let t := Tree.built edits
  refine ⟨t.nodup_drawn, fun x => t.mem_drawn_iff, ?_⟩
  rw [← grouped_iff, and_iff_right_iff_imp]
  intro grouped x
  have bare : ¬ s.Hidden x := (grouped edits List.prefix_rfl).not_hidden t.linked
  exact t.mem_drawn_iff.trans (and_congr_right fun _ => and_iff_left bare)

-- A rectangle in a group, and a circle that is made of the group.
def Sample.buried : List Edit := [.createGroup "g", .appendChild rootId "g", .createNode .rect "a",
  .setAttributes "a" [⟨"x", .number 1⟩, ⟨"y", .number 2⟩, ⟨"width", .number 3⟩, ⟨"height", .number 4⟩],
  .appendChild "g" "a", .createNode .circle "g"]

theorem overwriting_hides_child :
    let s : Scene := Surface.applyAll Sample.buried initial
    (s.Drawable "a" ∧ s.isWithin "a" rootId = true ∧ "a" ∉ s.drawList.map (·.id)) ∧
      s.children "g" ≠ [] ∧ s.kindOf? "g" ≠ some .group := by
  refine ⟨⟨⟨.rect, ?_, ?_⟩, ?_, ?_⟩, ?_, ?_⟩
  · decide +kernel
  · unfold Measured
    decide +kernel
  all_goals decide +kernel

end Scene
end Diorama
