import Diorama.Proofs.Nesting

namespace Diorama.Scene

open Relation

variable {s s' : Scene} {k n x p : String}

-- An append that changes nothing: it is refused, or the node stands where it would be put.
def Keeps (s : Scene) (k n : String) : Prop :=
  n = rootId ∨ n ∉ s.nodes ∨ s.kindOf? k ≠ some .group ∨ ReflTransGen s.Inside k n ∨ (s.children k).getLast? = some n

structure Moved (s s' : Scene) (k n : String) : Prop where
  looks : ∀ x, s'.look? x = s.look? x
  placed : s'.container? n = some k
  containers : ∀ x, x ≠ n → s'.container? x = s.container? x
  target : s'.children k = (s.children k).filter (· != n) ++ [n]
  source : ∀ p, s.container? n = some p → p ≠ k → s'.children p = (s.children p).filter (· != n)
  lists : ∀ x, x ≠ k → s.container? n ≠ some x → s'.children x = s.children x

structure Deleted (s s' : Scene) (n : String) : Prop where
  gone : n ∉ s'.nodes
  looks : ∀ x, x ≠ n → s'.look? x = s.look? x
  adopted : ∀ x, s.container? x = some n → s'.container? x = some rootId
  containers : ∀ x, x ≠ n → s.container? x ≠ some n → s'.container? x = s.container? x
  root : s'.children rootId = (s.children rootId).filter (· != n) ++ s.children n
  source : ∀ p, s.container? n = some p → p ≠ rootId → s'.children p = (s.children p).filter (· != n)
  lists : ∀ x, x ≠ n → x ≠ rootId → s.container? n ≠ some x → s'.children x = s.children x

theorem eq_of_views (looks : ∀ x, s'.look? x = s.look? x) (containers : ∀ x, s'.container? x = s.container? x)
    (lists : ∀ x, s'.children x = s.children x) : s' = s := by
  obtain ⟨nodes⟩ := s
  obtain ⟨nodes'⟩ := s'
  refine congrArg Scene.mk (Std.ExtTreeMap.ext_getElem? fun x => ?_)
  have look := looks x
  have container := containers x
  have list := lists x
  simp only [look?, container?, children] at look container list
  cases found : nodes[x]? with
  | none =>
    rw [found] at look
    exact Option.map_eq_none_iff.mp look
  | some node =>
    rw [found] at look container list
    obtain ⟨node', found', same⟩ := Option.map_eq_some_iff.mp look
    rw [found'] at container list ⊢
    obtain ⟨kind, attributes⟩ := Look.mk.inj same
    obtain ⟨_, _, _, _⟩ := node
    obtain ⟨_, _, _, _⟩ := node'
    simp only [Option.bind_some, Option.map_some, Option.getD_some] at kind attributes container list
    subst kind attributes container list
    rfl

theorem chain_of_search {found : Bool} (search : s.Search n k found) (within : found = true) :
    ReflTransGen s.Inside k n := by
  induction search with
  | here => exact .refl
  | top => cases within
  | up _ inside _ ih => exact .head inside (ih within)

theorem Rooted.isWithin_iff (rooted : s.Rooted) : s.isWithin k n = true ↔ ReflTransGen s.Inside k n := by
  constructor
  · exact fun within => chain_of_search (rooted.search_iff.mpr within) rfl
  · exact fun chain => rooted.isWithin_eq (search_chain chain)

theorem Rooted.accepts_iff (rooted : s.Rooted) : s.accepts k n = true ↔
    n ≠ rootId ∧ n ∈ s.nodes ∧ s.kindOf? k = some .group ∧ ¬ ReflTransGen s.Inside k n := by
  rw [Scene.accepts_iff, ← rooted.isWithin_iff, Bool.not_eq_true]

theorem Linked.filter_apart (linked : s.Linked) (outside : s.container? n ≠ some x) :
    (s.children x).filter (· != n) = s.children x := by
  refine List.filter_eq_self.mpr fun c listed => ?_
  refine bne_iff_ne.mpr ?_
  rintro rfl
  exact outside ((linked.mirrored c x).mp listed)

theorem Linked.moved (linked : s.Linked) (accepted : s.accepts k n = true) : Moved s (s.appendChild k n) k n where
  looks := fun _ => look?_appendChild
  placed := by rw [container?_appendChild accepted, if_pos rfl]
  containers := fun x other => by rw [container?_appendChild accepted, if_neg (Ne.symm other)]
  target := by rw [children_appendChild accepted, if_pos rfl, linked.children_detach]
  source := fun p _ other => by rw [children_appendChild accepted, if_neg (Ne.symm other), linked.children_detach]
  lists := fun x other outside => by
    rw [children_appendChild accepted, if_neg (Ne.symm other), linked.children_detach, linked.filter_apart outside]

theorem Moved.eq_of_last (linked : s.Linked) (moved : Moved s s' k n) (last : (s.children k).getLast? = some n) :
    s' = s := by
  -- the last child of a group is moved to where it is
  obtain ⟨init, split⟩ := List.getLast?_eq_some_iff.mp last
  have listed : n ∈ s.children k := by simp [split]
  have inside : s.container? n = some k := (linked.mirrored n k).mp listed
  have apart : n ∉ init := by
    have once := linked.once k
    rw [split] at once
    exact fun member => (List.nodup_append.mp once).2.2 n member n (by simp) rfl
  refine eq_of_views moved.looks (fun x => ?_) (fun x => ?_)
  · by_cases same : x = n
    · rw [same, moved.placed, inside]
    · exact moved.containers x same
  · by_cases same : x = k
    · subst x
      have kept : init.filter (· != n) = init := by
        refine List.filter_eq_self.mpr fun c member => bne_iff_ne.mpr ?_
        rintro rfl
        exact apart member
      rw [moved.target, split, List.filter_append, kept]
      simp
    · refine moved.lists x same ?_
      rw [inside]
      exact fun own => same (Option.some.inj own).symm

theorem Moved.last (moved : Moved s s' k n) : (s'.children k).getLast? = some n := by
  rw [moved.target, List.getLast?_concat]

theorem not_keeps_iff (rooted : s.Rooted) : ¬ s.Keeps k n ↔
    s.accepts k n = true ∧ (s.children k).getLast? ≠ some n := by
  rw [rooted.accepts_iff]
  unfold Keeps
  tauto

theorem appendChild_eq_self_iff (linked : s.Linked) (rooted : s.Rooted) : s.appendChild k n = s ↔ s.Keeps k n := by
  constructor
  · intro same
    by_contra moves
    obtain ⟨accepted, other⟩ := (not_keeps_iff rooted).mp moves
    have last := (linked.moved accepted).last
    rw [same] at last
    exact other last
  · intro keeps
    cases accepted : s.accepts k n with
    | false => exact appendChild_refused accepted
    | true =>
      have last : (s.children k).getLast? = some n := by
        by_contra other
        exact (not_keeps_iff rooted).mpr ⟨accepted, other⟩ keeps
      exact (linked.moved accepted).eq_of_last linked last

theorem Linked.deleted (linked : s.Linked) (rooted : s.Rooted) (inner : n ≠ rootId) :
    Deleted s (s.deleteNode n) n := by
  obtain ⟨containers, lists⟩ := linked.deleteNode_links inner
  have own : s.container? n ≠ some n := fun inside => rooted.acyclic n (.single inside)
  constructor
  · rw [mem_iff_look, look?_deleteNode inner, if_pos rfl]
    exact Bool.false_ne_true
  · exact fun x other => look?_deleteNode_apart other
  · intro x inside
    have other : n ≠ x := by
      rintro rfl
      exact own inside
    rw [containers, if_neg other, if_pos inside]
  · intro x other outside
    rw [containers, if_neg (Ne.symm other), if_neg outside]
  · rw [lists, if_neg inner, if_pos rfl, linked.filter_apart own]
  · intro p inside lower
    have other : n ≠ p := by
      rintro rfl
      exact own inside
    rw [lists, if_neg other, if_neg (Ne.symm lower)]
  · intro x other lower outside
    rw [lists, if_neg (Ne.symm other), if_neg (Ne.symm lower), linked.filter_apart outside]

theorem applyAll_moves (edits : List Edit) (k n : String) :
    let s : Scene := Surface.applyAll edits initial
    (s.appendChild k n = s ↔ s.Keeps k n) ∧ (¬ s.Keeps k n → Moved s (s.appendChild k n) k n) ∧
      (n ≠ rootId → Deleted s (s.deleteNode n) n) := by
  intro s
  have linked : s.Linked := linked_initial.applyAll edits
  have rooted : s.Rooted := applyAll_rooted linked_initial rooted_initial edits
  refine ⟨appendChild_eq_self_iff linked rooted, fun moves => ?_, linked.deleted rooted⟩
  exact linked.moved ((not_keeps_iff rooted).mp moves).1

def Sample.grove : List Edit := [.createGroup "g", .createGroup "h", .createNode .circle "a", .createNode .rect "b",
  .appendChild rootId "g", .appendChild rootId "h", .appendChild "g" "a", .appendChild "g" "b"]

theorem applyAll_moves_grove :
    let s : Scene := Surface.applyAll Sample.grove initial
    (¬ s.Keeps "h" "g" ∧ Moved s (s.appendChild "h" "g") "h" "g") ∧ "g" ≠ rootId ∧ Deleted s (s.deleteNode "g") "g" := by
  intro s
  obtain ⟨unchanged, moved, deleted⟩ := applyAll_moves Sample.grove "h" "g"
  have moves : ¬ s.Keeps "h" "g" := by
    intro keeps
    have lists := congrArg (children · "h") (unchanged.mpr keeps)
    exact absurd lists (by decide +kernel)
  have inner : "g" ≠ rootId := by decide
  exact ⟨⟨moves, moved moves⟩, inner, deleted inner⟩

end Diorama.Scene
