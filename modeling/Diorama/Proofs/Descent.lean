import Diorama.Proofs.Painting
import Diorama.Proofs.Regrouping

namespace Diorama

theorem Node.corners?_isSome_iff (n : Node) (kind : Kind) :
    (n.corners? kind).isSome = true ↔ ∀ name ∈ kind.attributeNames, (n.number? name).isSome = true := by
  have both (x : Option Float) (rest : Bool) : x.any (fun _ => rest) = (x.isSome && rest) := by cases x <;> rfl
  cases kind <;> simp [corners?, Kind.attributeNames, Option.isSome_bind, both]

namespace Scene

open Relation

variable {s : Scene} {x y k c d : String} {pending ids stack : List String} {kind : Kind}
  {items : List DrawItem}

structure Tree where
  scene : Scene
  linked : scene.Linked
  rooted : scene.Rooted

def Tree.built (edits : List Edit) : Tree where
  scene := Surface.applyAll edits initial
  linked := linked_initial.applyAll edits
  rooted := applyAll_rooted linked_initial rooted_initial edits

def Shown (s : Scene) (x k : String) : Prop := s.Inside x k ∧ s.kindOf? k = some .group

def weight (s : Scene) (id : String) : Nat := (s.nodes.keys.filter (s.isWithin · id)).length

theorem item?_missing (absent : s.kindOf? x = none) : s.item? x = none := by
  have nowhere : s.nodes[x]? = none := Option.map_eq_none_iff.mp absent
  simp [item?, nowhere]

theorem item?_group (group : s.kindOf? x = some .group) : s.item? x = none := by
  obtain ⟨n, found, known⟩ := Option.map_eq_some_iff.mp group
  simp [item?, found, known]

namespace Tree

variable {t : Tree}

theorem inside_of_child (listed : c ∈ t.scene.children k) : t.scene.Inside c k := (t.linked.mirrored c k).mp listed

theorem weight_child (t : Tree) (listed : c ∈ t.scene.children k) : t.scene.weight c < t.scene.weight k := by
  have inside := inside_of_child listed
  let keys := t.scene.nodes.keys
  have sub : List.Sublist (keys.filter (t.scene.isWithin · c)) (keys.filter (t.scene.isWithin · k)) := by
    refine keys.monotone_filter_right fun x within => ?_
    exact t.rooted.isWithin_iff.mpr ((t.rooted.isWithin_iff.mp within).tail inside)
  -- the container lies within itself but not within its child
  refine lt_of_le_of_ne sub.length_le fun same => ?_
  have own : k ∈ keys.filter (t.scene.isWithin · k) :=
    List.mem_filter.mpr ⟨Std.ExtTreeMap.mem_keys.mpr (mem_of_child listed), t.rooted.isWithin_iff.mpr .refl⟩
  rw [← sub.eq_of_length same] at own
  have back := t.rooted.isWithin_iff.mp (List.mem_filter.mp own).2
  exact t.rooted.acyclic k (.tail' back inside)

theorem descend {motive : String → Prop} (t : Tree)
    (step : ∀ x, (∀ c ∈ t.scene.children x, motive c) → motive x) (x : String) : motive x :=
  step x fun c _ => t.descend step c
termination_by t.scene.weight x
decreasing_by exact t.weight_child ‹_›

-- The nodes that come up from a node on, itself first. Nothing comes up from below a shape.
def order (t : Tree) (x : String) : List String :=
  x :: if t.scene.kindOf? x = some .group then (t.scene.children x).attach.flatMap fun c => t.order c.1 else []
termination_by t.scene.weight x
decreasing_by exact t.weight_child c.2

def paint (t : Tree) (x : String) : List DrawItem :=
  match t.scene.kindOf? x with
  | none => []
  | some .group => (t.scene.children x).attach.flatMap fun c => t.paint c.1
  | some (.shape _) => (t.scene.item? x).toList
termination_by t.scene.weight x
decreasing_by exact t.weight_child c.2

theorem order_eq (t : Tree) (x : String) : t.order x =
    x :: if t.scene.kindOf? x = some .group then (t.scene.children x).flatMap t.order else [] := by
  rw [order]
  simp

theorem paint_group (group : t.scene.kindOf? x = some .group) : t.paint x = (t.scene.children x).flatMap t.paint := by
  rw [paint, group]
  simp

theorem paint_shape (shape : t.scene.kindOf? x = some (.shape kind)) : t.paint x = (t.scene.item? x).toList := by
  rw [paint, shape]

theorem paint_missing (absent : t.scene.kindOf? x = none) : t.paint x = [] := by
  rw [paint, absent]

theorem paint_eq (t : Tree) (x : String) : t.paint x = (t.order x).filterMap t.scene.item? := by
  induction x using t.descend with
  | step x ih =>
    rw [order_eq]
    cases known : t.scene.kindOf? x with
    | none =>
      have nothing : t.scene.item? x = none := item?_missing known
      rw [paint_missing known]
      simp [nothing]
    | some found =>
      cases found with
      | shape kind =>
        rw [paint_shape known]
        cases item : t.scene.item? x <;> simp [item]
      | group =>
        have nothing : t.scene.item? x = none := item?_group known
        rw [paint_group known, if_pos rfl, List.filterMap_cons, nothing, List.filterMap_flatMap]
        exact List.flatMap_congr fun c listed => ih c listed

theorem walk_order (t : Tree) (x : String) (present : x ∈ t.scene.nodes) (walk : t.scene.Walk pending ids) :
    t.scene.Walk (x :: pending) (t.order x ++ ids) := by
  -- by induction from the children up: whatever is pending behind a node, all that comes up from the node comes
  -- first
  induction x using t.descend generalizing pending ids with
  | step x ih =>
    obtain ⟨n, found⟩ := Option.isSome_iff_exists.mp (Std.ExtTreeMap.mem_iff_isSome_getElem?.mp present)
    have known : t.scene.kindOf? x = some n.kind := by simp [kindOf?, found]
    rw [order_eq, known, List.cons_append]
    cases kind : n.kind with
    | shape kind' => exact .shape found kind walk
    | group =>
      have listed : t.scene.children x = n.children := by simp [children, found]
      rw [if_pos rfl, listed]
      refine .group found kind (walk_flatMap (fun c member pending ids walk => ?_) walk)
      rw [← listed] at member
      exact ih c member (mem_of_container (inside_of_child member)) walk

theorem mem_order (t : Tree) (x : String) : y ∈ t.order x ↔ ReflTransGen t.scene.Shown y x := by
  induction x using t.descend with
  | step x ih =>
    rw [order_eq, ReflTransGen.cases_tail_iff, List.mem_cons, eq_comm]
    refine or_congr_right ?_
    split
    · rename_i group
      rw [List.mem_flatMap]
      constructor
      · rintro ⟨c, listed, below⟩
        exact ⟨c, (ih c listed).mp below, inside_of_child listed, group⟩
      · rintro ⟨c, below, inside, _⟩
        have listed := (t.linked.mirrored c x).mpr inside
        exact ⟨c, listed, (ih c listed).mpr below⟩
    · rename_i other
      constructor
      · exact fun none => absurd none List.not_mem_nil
      · rintro ⟨c, _, _, group⟩
        exact absurd group other

theorem chain_of_order (member : y ∈ t.order x) : ReflTransGen t.scene.Inside y x :=
  ReflTransGen.mono (fun _ _ shown => shown.1) _ _ ((t.mem_order x).mp member)

theorem eq_of_siblings (first : t.scene.Inside c k) (second : t.scene.Inside d k) (below : ReflTransGen t.scene.Inside y c)
    (below' : ReflTransGen t.scene.Inside y d) : c = d := by
  -- a node lies within one child of a container at most: of two, one would lie within the other and so within itself
  have climbs (c d : String) (first : t.scene.Inside c k) (second : t.scene.Inside d k)
      (chain : ReflTransGen t.scene.Inside c d) : c = d := by
    rcases chain.cases_head with same | ⟨p, up, rest⟩
    · exact same
    · have top : p = k := Option.some.inj (up.symm.trans first)
      subst p
      exact absurd (.head' second rest) (t.rooted.acyclic d)
  have unique : Relator.RightUnique t.scene.Inside := fun _ _ _ one other => Option.some.inj (one.symm.trans other)
  rcases ReflTransGen.total_of_right_unique unique below below' with chain | chain
  · exact climbs c d first second chain
  · exact (climbs d c second first chain).symm

theorem nodup_order (t : Tree) (x : String) : (t.order x).Nodup := by
  induction x using t.descend with
  | step x ih =>
    rw [order_eq]
    split
    · refine List.nodup_cons.mpr ⟨fun again => ?_, List.nodup_flatMap.mpr ⟨ih, ?_⟩⟩
      · obtain ⟨c, listed, below⟩ := List.mem_flatMap.mp again
        exact t.rooted.acyclic x (.tail' (chain_of_order below) (inside_of_child listed))
      · refine (t.linked.once x).imp_of_mem ?_
        intro c d first second apart y below below'
        exact apart (eq_of_siblings (inside_of_child first) (inside_of_child second) (chain_of_order below)
          (chain_of_order below'))
    · exact List.nodup_singleton x

def visited (t : Tree) : List String := (t.scene.children rootId).flatMap t.order

theorem order_root (t : Tree) : t.order rootId = rootId :: t.visited := by
  rw [order_eq, if_pos t.linked.group]
  rfl

theorem nodup_visited (t : Tree) : t.visited.Nodup := by
  have all := t.nodup_order rootId
  rw [order_root] at all
  exact (List.nodup_cons.mp all).2

theorem walk_visited (t : Tree) : t.scene.Walk (t.scene.children rootId) t.visited := by
  have each : ∀ x ∈ t.scene.children rootId, ∀ pending ids, t.scene.Walk pending ids →
      t.scene.Walk (x :: pending) (t.order x ++ ids) :=
    fun x listed _ _ walk => t.walk_order x (mem_of_container (inside_of_child listed)) walk
  have walk := walk_flatMap each .done
  rw [List.append_nil, List.append_nil] at walk
  exact walk

theorem drawList_eq (t : Tree) : t.scene.drawList = t.visited.filterMap t.scene.item? :=
  t.walk_visited.drawList_eq t.nodup_visited

theorem drawList_ids (t : Tree) : t.scene.drawList.map (·.id) = t.visited.filter fun x => (t.scene.item? x).isSome := by
  rw [drawList_eq, item_ids]

theorem nodup_drawn (t : Tree) : (t.scene.drawList.map (·.id)).Nodup := by
  rw [drawList_ids]
  exact t.nodup_visited.filter _

theorem drawList_paint (t : Tree) : t.scene.drawList = (t.scene.children rootId).flatMap t.paint := by
  rw [drawList_eq, visited, List.filterMap_flatMap]
  exact List.flatMap_congr fun x _ => (t.paint_eq x).symm

end Tree

-- The loop over a stack of pending nodes, the last of them on top, and what it has painted when none is left. No number
-- of steps is set to it.
inductive Paints (s : Scene) : List String → List DrawItem → Prop where
  | done : Paints s [] []
  | missing {id : String} {stack : List String} {items : List DrawItem} : s.nodes[id]? = none →
      Paints s stack items → Paints s (stack ++ [id]) items
  | group {id : String} {n : Node} {stack : List String} {items : List DrawItem} : s.nodes[id]? = some n →
      n.kind = .group → Paints s (stack ++ n.children.reverse) items → Paints s (stack ++ [id]) items
  | shape {id : String} {n : Node} {kind : Kind} {stack : List String} {items : List DrawItem} :
      s.nodes[id]? = some n → n.kind = .shape kind → Paints s stack items →
      Paints s (stack ++ [id]) ((n.drawItem? id kind).toList ++ items)

theorem Walk.paints (walk : s.Walk pending ids) : s.Paints pending.reverse (ids.filterMap s.item?) := by
  induction walk with
  | done => exact .done
  | @group id n pending ids found group _ ih =>
    have nothing : s.item? id = none := by simp [item?, found, group]
    rw [List.reverse_append] at ih
    rw [List.reverse_cons, List.filterMap_cons, nothing]
    exact .group found group ih
  | @shape id n kind pending ids found shape _ ih =>
    have own : s.item? id = n.drawItem? id kind := by simp [item?, found, shape]
    rw [List.reverse_cons, List.filterMap_cons, own]
    cases painted : n.drawItem? id kind with
    | none => simpa [painted] using ih.shape found shape
    | some item => simpa [painted] using ih.shape found shape

theorem eventually_succ {p q : Nat → Prop} (ends : ∃ enough, ∀ steps, enough ≤ steps → p steps)
    (next : ∀ steps, p steps → q (steps + 1)) : ∃ enough, ∀ steps, enough ≤ steps → q steps := by
  obtain ⟨enough, holds⟩ := ends
  refine ⟨enough + 1, fun steps room => ?_⟩
  cases steps with
  | zero => cases room
  | succ steps => exact next steps (holds steps (Nat.le_of_succ_le_succ room))

theorem Paints.drawSteps_eq (paints : s.Paints stack items) :
    ∃ enough, ∀ steps, enough ≤ steps → s.drawSteps steps stack.reverse = items := by
  induction paints with
  | done =>
    refine ⟨0, fun steps _ => ?_⟩
    cases steps <;> rfl
  | missing absent _ ih =>
    refine eventually_succ ih fun steps rest => ?_
    rw [List.reverse_concat, drawSteps, absent]
    exact rest
  | group found group _ ih =>
    refine eventually_succ ih fun steps rest => ?_
    rw [List.reverse_append, List.reverse_reverse] at rest
    simp only [List.reverse_concat, drawSteps, found, group]
    exact rest
  | shape found shape _ ih =>
    refine eventually_succ ih fun steps rest => ?_
    simp only [List.reverse_concat, drawSteps, found, shape, rest]

theorem Tree.paints_iff (t : Tree) :
    t.scene.Paints (t.scene.children rootId).reverse items ↔ t.scene.drawList = items := by
  constructor
  · intro paints
    obtain ⟨enough, ends⟩ := paints.drawSteps_eq
    have whole := t.walk_visited.drawSteps_eq (Nat.le_max_right enough t.visited.length)
    have same := ends _ (Nat.le_max_left enough t.visited.length)
    rw [List.reverse_reverse] at same
    rw [t.drawList_eq, ← whole, same]
  · rintro rfl
    rw [t.drawList_eq]
    exact t.walk_visited.paints

def number? (s : Scene) (x name : String) : Option Float := s.nodes[x]?.bind (·.number? name)

def Measured (s : Scene) (x : String) (kind : Kind) : Prop :=
  ∀ name ∈ kind.attributeNames, (s.number? x name).isSome = true

def Drawable (s : Scene) (x : String) : Prop := ∃ kind, s.kindOf? x = some (.shape kind) ∧ s.Measured x kind

theorem item?_isSome_iff : (s.item? x).isSome = true ↔ s.Drawable x := by
  have shaped (kind : Kind) (shape : s.kindOf? x = some (.shape kind)) :
      (s.item? x).isSome = true ↔ s.Measured x kind := by
    obtain ⟨n, found, known⟩ := Option.map_eq_some_iff.mp shape
    have item : s.item? x = n.drawItem? x kind := by simp [item?, found, known]
    have numbers (name : String) : s.number? x name = n.number? name := by simp [number?, found]
    simp only [item, Node.drawItem?, Option.isSome_map, Measured, numbers]
    exact n.corners?_isSome_iff kind
  constructor
  · intro painted
    cases known : s.kindOf? x with
    | none => simp [item?_missing known] at painted
    | some found =>
      cases found with
      | group => simp [item?_group known] at painted
      | shape kind => exact ⟨kind, known, (shaped kind known).mp painted⟩
  · rintro ⟨kind, known, measured⟩
    exact (shaped kind known).mpr measured

theorem applyAll_depthFirst (edits : List Edit) :
    let t := Tree.built edits
    (∀ items, t.scene.Paints (t.scene.children rootId).reverse items ↔ t.scene.drawList = items) ∧
      t.scene.drawList = (t.scene.children rootId).flatMap t.paint ∧
      (∀ x, (t.scene.item? x).isSome = true ↔ t.scene.Drawable x) ∧ (t.scene.drawList.map (·.id)).Nodup := by
  intro t
  exact ⟨fun items => t.paints_iff, t.drawList_paint, fun x => item?_isSome_iff, t.nodup_drawn⟩

end Scene
end Diorama
