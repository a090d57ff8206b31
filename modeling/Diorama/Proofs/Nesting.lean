import Diorama.Proofs.Containers
import Mathlib.Data.List.Nodup
import Mathlib.Order.WellFounded

namespace Diorama.Scene

open Relation

variable {s s' : Scene} {id x p k ancestor : String} {found : Bool} {seen : List String} {steps : Nat}

def Inside (s : Scene) (x p : String) : Prop := s.container? x = some p

def Rooted (s : Scene) : Prop := WellFounded fun p x => s.Inside x p

-- A search for `ancestor` from a node upwards, and what it finds. No number of steps is set to it.
inductive Search (s : Scene) (ancestor : String) : String → Bool → Prop where
  | here : Search s ancestor ancestor true
  | top {id : String} : id ≠ ancestor → s.container? id = none → Search s ancestor id false
  | up {id p : String} {found : Bool} : id ≠ ancestor → s.container? id = some p → Search s ancestor p found →
      Search s ancestor id found

theorem Rooted.acyclic (rooted : s.Rooted) (x : String) : ¬ TransGen s.Inside x x := by
  intro cycle
  have back : TransGen (fun p x => s.Inside x p) x x := transGen_swap.mp cycle
  exact rooted.transGen.irrefl.irrefl x back

theorem Rooted.search_ends (rooted : s.Rooted) (ancestor id : String) : ∃ found, s.Search ancestor id found := by
  induction id using rooted.induction with
  | _ id ih =>
    by_cases same : id = ancestor
    · subst same
      exact ⟨true, .here⟩
    · cases inside : s.container? id with
      | none => exact ⟨false, .top same inside⟩
      | some p =>
        obtain ⟨found, search⟩ := ih p inside
        exact ⟨found, .up same inside search⟩

theorem Rooted.withinSteps_eq (rooted : s.Rooted) (search : s.Search ancestor id found) (distinct : seen.Nodup)
    (present : ∀ x ∈ seen, x ∈ s.nodes) (below : ∀ x ∈ seen, TransGen s.Inside x id)
    (room : seen.length + steps = s.size) : s.withinSteps ancestor (steps + 1) id = found := by
  -- By induction on the search: the nodes that it has left behind are distinct, for it never comes back to one of
  -- them. So they are no more than the nodes of the scene, and there is a step left.
  induction search generalizing seen steps with
  | here => simp [withinSteps]
  | top apart free => simp [withinSteps, apart, free]
  | @up id p found apart inside _ ih =>
    have unseen : id ∉ seen := fun again => rooted.acyclic id (below id again)
    have distinct' : (id :: seen).Nodup := List.nodup_cons.mpr ⟨unseen, distinct⟩
    have present' : ∀ x ∈ id :: seen, x ∈ s.nodes :=
      List.forall_mem_cons.mpr ⟨mem_of_container inside, present⟩
    have below' : ∀ x ∈ id :: seen, TransGen s.Inside x p :=
      List.forall_mem_cons.mpr ⟨.single inside, fun x old => .tail (below x old) inside⟩
    have few : seen.length + 1 ≤ s.size := length_le_size distinct' present'
    cases steps with
    | zero => omega
    | succ steps =>
      have length : (id :: seen).length + steps = s.size := by
        rw [List.length_cons]
        omega
      have rest := ih distinct' present' below' length
      rw [withinSteps, inside, beq_false_of_ne apart, Bool.false_or]
      exact rest

theorem Rooted.isWithin_eq (rooted : s.Rooted) (search : s.Search ancestor id found) :
    s.isWithin id ancestor = found :=
  rooted.withinSteps_eq search List.nodup_nil (by simp) (by simp) (by simp)

theorem Rooted.search_iff (rooted : s.Rooted) : s.Search ancestor id found ↔ s.isWithin id ancestor = found := by
  constructor
  · exact rooted.isWithin_eq
  · intro answer
    obtain ⟨found', search⟩ := rooted.search_ends ancestor id
    have same := rooted.isWithin_eq search
    rw [answer] at same
    exact same ▸ search

theorem search_chain (chain : ReflTransGen s.Inside id ancestor) : s.Search ancestor id true := by
  induction chain using ReflTransGen.head_induction_on with
  | refl => exact .here
  | @head id p inside _ ih =>
    by_cases same : id = ancestor
    · subst same
      exact .here
    · exact .up same inside ih

theorem Rooted.apart (rooted : s.Rooted) (outside : s.isWithin id ancestor = false) :
    ¬ ReflTransGen s.Inside id ancestor := by
  intro chain
  have within := rooted.isWithin_eq (search_chain chain)
  rw [outside] at within
  cases within

theorem Rooted.mono (rooted : s.Rooted) (fewer : ∀ x p, s'.Inside x p → s.Inside x p) : s'.Rooted :=
  Subrelation.wf (fewer _ _) rooted

theorem Rooted.moved (rooted : s.Rooted)
    (links : ∀ x p, s'.Inside x p → s.Inside x p ∨ p = k ∧ ¬ ReflTransGen s.Inside k x) : s'.Rooted := by
  -- Nodes are moved into `k`, none of them on the chain of `k`. That chain is as it was, so it ends; any other one
  -- ends as before or goes on into it.
  have above (y : String) (chain : ReflTransGen s.Inside k y) : Acc (fun p x => s'.Inside x p) y := by
    induction y using rooted.induction with
    | _ y ih =>
      constructor
      intro p inside
      rcases links y p inside with old | ⟨_, apart⟩
      · exact ih p old (chain.tail old)
      · exact absurd chain apart
  constructor
  intro x
  induction x using rooted.induction with
  | _ x ih =>
    constructor
    intro p inside
    rcases links x p inside with old | ⟨rfl, _⟩
    · exact ih p old
    · exact above p .refl

theorem Rooted.detach (rooted : s.Rooted) (id : String) : (s.detach id).Rooted := by
  apply rooted.mono
  intro x p inside
  unfold Inside at inside
  rw [container?_detach] at inside
  split at inside
  · cases inside
  · exact inside

theorem Rooted.appendChild (rooted : s.Rooted) (k id : String) : (s.appendChild k id).Rooted := by
  cases accepted : s.accepts k id with
  | false =>
    rw [appendChild_refused accepted]
    exact rooted
  | true =>
    have apart := rooted.apart (accepts_iff.mp accepted).2.2.2
    apply rooted.moved (k := k)
    intro x p inside
    unfold Inside at inside
    rw [container?_appendChild accepted] at inside
    split at inside
    · rename_i same
      subst same
      cases inside
      exact .inr ⟨rfl, apart⟩
    · exact .inl inside

theorem Rooted.deleteNode (linked : s.Linked) (rooted : s.Rooted) (id : String) : (s.deleteNode id).Rooted := by
  by_cases inner : id = rootId
  · rw [inner, deleteNode_root]
    exact rooted
  · apply rooted.moved (k := rootId)
    intro x p inside
    unfold Inside at inside
    rw [(linked.deleteNode_links inner).1] at inside
    split at inside
    · cases inside
    · split at inside
      · rename_i below
        cases inside
        refine .inr ⟨rfl, ?_⟩
        intro chain
        rcases chain.cases_head with rfl | ⟨p, up, _⟩
        · rw [linked.root] at below
          cases below
        · unfold Inside at up
          rw [linked.root] at up
          cases up
      · exact .inl inside

theorem Rooted.apply (linked : s.Linked) (rooted : s.Rooted) (e : Edit) : (s.apply e).Rooted := by
  cases e with
  | createNode kind id => exact rooted.mono fun _ _ inside => container?_createNode.symm.trans inside
  | createGroup id => exact rooted.mono fun _ _ inside => container?_createGroup.symm.trans inside
  | setAttributes id attributes => exact rooted.mono fun _ _ inside => container?_setAttributes.symm.trans inside
  | appendChild container id => exact rooted.appendChild container id
  | removeChild container id =>
    change (s.removeChild container id).Rooted
    unfold Scene.removeChild
    split
    · exact rooted.detach id
    · exact rooted
  | deleteNode id => exact rooted.deleteNode linked id

theorem rooted_initial : initial.Rooted := by
  constructor
  intro x
  constructor
  intro p inside
  simp only [Inside, container?, initial, Std.ExtTreeMap.getElem?_insert] at inside
  split at inside <;> simp [Node.new] at inside

theorem applyAll_rooted (linked : s.Linked) (rooted : s.Rooted) (edits : List Edit) :
    Rooted (Surface.applyAll edits s) := by
  induction edits generalizing s with
  | nil => exact rooted
  | cons e rest ih => exact ih (linked.apply e) (rooted.apply linked e)

structure WellFormed (s : Scene) : Prop where
  root : rootId ∈ s.nodes ∧ s.kindOf? rootId = some .group ∧ s.container? rootId = none
  mirrored : ∀ n p, s.container? n = some p ↔ p ∈ s.nodes ∧ n ∈ s.children p
  once : ∀ n p, s.container? n = some p → (s.children p).count n = 1
  named : ∀ p, ∀ n ∈ s.children p, n ∈ s.nodes
  acyclic : ∀ n, ¬ TransGen s.Inside n n
  -- the search comes to an end on every pair of ids, with the one answer that `isWithin` gives
  searched : ∀ id ancestor found, s.Search ancestor id found ↔ s.isWithin id ancestor = found

theorem Linked.wellFormed (linked : s.Linked) (rooted : s.Rooted) : s.WellFormed := by
  constructor
  · exact ⟨mem_of_kind linked.group, linked.group, linked.root⟩
  · intro n p
    rw [← linked.mirrored]
    constructor
    · intro listed
      exact ⟨mem_of_child listed, listed⟩
    · exact And.right
  · intro n p inside
    exact List.count_eq_one_of_mem (linked.once p) ((linked.mirrored n p).mpr inside)
  · intro p n listed
    exact mem_of_container ((linked.mirrored n p).mp listed)
  · exact rooted.acyclic
  · intro id ancestor found
    exact rooted.search_iff

theorem applyAll_wellFormed (edits : List Edit) : WellFormed (Surface.applyAll edits initial) :=
  (linked_initial.applyAll edits).wellFormed (applyAll_rooted linked_initial rooted_initial edits)

end Diorama.Scene
