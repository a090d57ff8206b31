import Diorama.Proofs.Forest

namespace Diorama

namespace Registry

variable {r : Registry} {id p c x top parent child start : String} {path seen rest : List String}
  {shape : Shape} {e : Fault}

def ancestor? (r : Registry) : (links : Nat) → (id : String) → Option String
  | 0, id => some id
  | links + 1, id => (r.parent? id).bind (r.ancestor? links)

-- What the records of a forest say about each other, for records that may say anything.
structure Coherent (r : Registry) : Prop where
  parent : ∀ (id : String) (shape : Shape) (p : String), r[id]? = some shape → shape.links.parent = some p →
    ∃ above : Shape, r[p]? = some above ∧ id ∈ above.links.children
  once : ∀ (id : String) (shape : Shape), r[id]? = some shape → shape.links.children.Nodup
  child : ∀ (id : String) (shape : Shape) (c : String), r[id]? = some shape → c ∈ shape.links.children →
    ∃ below : Shape, r[c]? = some below ∧ below.links.parent = some id
  ends : ∀ id ∈ r, ∃ links, r.ancestor? links id = none

theorem Ends.ancestor? (ends : r.Ends id) : ∃ links, r.ancestor? links id = none := by
  induction ends with
  | top free => exact ⟨1, by simp [Registry.ancestor?, free]⟩
  | up bound _ ih =>
    obtain ⟨links, none⟩ := ih
    exact ⟨links + 1, by simp [Registry.ancestor?, bound, none]⟩

theorem ends_of_ancestor? {links : Nat} (none : r.ancestor? links id = none) : r.Ends id := by
  induction links generalizing id with
  | zero => cases none
  | succ links ih =>
    cases bound : r.parent? id with
    | none => exact .top bound
    | some p =>
      rw [ancestor?, bound] at none
      exact .up bound (ih none)

theorem Coherent.forest (coherent : r.Coherent) : r.Forest := by
  refine ⟨?_, ?_, ?_⟩
  · intro p c
    constructor
    · intro listed
      obtain ⟨shape, found⟩ := found_of_mem (mem_of_child listed)
      rw [children_eq found] at listed
      obtain ⟨below, here, bound⟩ := coherent.child p shape c found listed
      exact (parent?_eq here).trans bound
    · intro bound
      obtain ⟨shape, found⟩ := found_of_mem (mem_of_parent bound)
      rw [parent?_eq found] at bound
      obtain ⟨above, here, listed⟩ := coherent.parent c shape p found bound
      rw [children_eq here]
      exact listed
  · intro p
    cases found : r[p]? with
    | none => simp [children, found]
    | some shape =>
      rw [children_eq found]
      exact coherent.once p shape found
  · intro id
    by_cases present : id ∈ r
    · obtain ⟨links, none⟩ := coherent.ends id present
      exact ends_of_ancestor? none
    · exact .top (by simp [parent?, present])

theorem mem_of_forM_ok {α ε : Type} {l : List α} {f : α → Except ε Unit} {a : α} (passed : l.forM f = .ok ())
    (member : a ∈ l) : f a = .ok () := by
  induction l with
  | nil => cases member
  | cons b l ih =>
    cases first : f b with
    | error e => simp [List.forM, first, bind, Except.bind] at passed
    | ok u =>
      simp only [List.forM, first, bind, Except.bind] at passed
      rcases List.mem_cons.mp member with rfl | later
      · exact first
      · exact ih passed later

theorem checkParent_passed (passed : r.checkParent id (some p) = .ok ()) :
    ∃ above : Shape, r[p]? = some above ∧ id ∈ above.links.children := by
  unfold checkParent at passed
  cases found : r[p]? with
  | none => simp [found] at passed
  | some above =>
    refine ⟨above, rfl, ?_⟩
    by_contra unlisted
    simp [found, unlisted] at passed

theorem checkChildren_passed (passed : r.checkChildren id seen rest = .ok ()) :
    rest.Nodup ∧ ∀ c ∈ rest, c ∉ seen ∧ ∃ below : Shape, r[c]? = some below ∧ below.links.parent = some id := by
  induction rest generalizing seen with
  | nil => simp
  | cons c rest ih =>
    unfold checkChildren at passed
    split at passed
    · cases passed
    rename_i unseen
    split at passed
    · cases passed
    rename_i below found
    split at passed
    · rename_i bound
      obtain ⟨distinct, later⟩ := ih passed
      refine ⟨List.nodup_cons.mpr ⟨?_, distinct⟩, ?_⟩
      · exact fun again => (later c again).1 (by simp)
      · intro x member
        rcases List.mem_cons.mp member with rfl | member
        · exact ⟨by simpa using unseen, below, found, bound⟩
        · obtain ⟨apart, linked⟩ := later x member
          exact ⟨fun early => apart (by simp [early]), linked⟩
    · cases passed

theorem checkShape_passed (passed : r.checkShape id shape = .ok ()) :
    r.checkParent id shape.links.parent = .ok () ∧ r.checkChildren id [] shape.links.children = .ok () ∧
      ∃ top, r.rootOf id = .ok top := by
  unfold checkShape at passed
  cases above : r.checkParent id shape.links.parent with
  | error e => simp [above, bind, Except.bind] at passed
  | ok u =>
    cases below : r.checkChildren id [] shape.links.children with
    | error e => simp [above, below, bind, Except.bind] at passed
    | ok u =>
      cases root : r.rootOf id with
      | error e => simp [above, below, root, bind, Except.bind] at passed
      | ok top => exact ⟨rfl, rfl, top, rfl⟩

theorem checkGraph_passed (passed : r.checkGraph = .ok ()) (found : r[id]? = some shape) :
    r.checkShape id shape = .ok () := by
  have member : (id, shape) ∈ r.toList := Std.ExtTreeMap.mem_toList_iff_getElem?_eq_some.mpr found
  have each := mem_of_forM_ok passed member
  exact each

theorem coherent_of_checkGraph (passed : r.checkGraph = .ok ()) : r.Coherent := by
  have each {id : String} {shape : Shape} (found : r[id]? = some shape) :=
    checkShape_passed (checkGraph_passed passed found)
  refine ⟨?_, ?_, ?_, ?_⟩
  · intro id shape p found bound
    have above := (each found).1
    rw [bound] at above
    exact checkParent_passed above
  · intro id shape found
    exact (checkChildren_passed (each found).2.1).1
  · intro id shape c found listed
    exact ((checkChildren_passed (each found).2.1).2 c listed).2
  · intro id present
    obtain ⟨shape, found⟩ := found_of_mem present
    obtain ⟨top, root⟩ := (each found).2.2
    obtain ⟨_, climb, free⟩ := rootSteps_top root
    exact (climb.ends free).ancestor?

theorem checkGraph_ok_iff : r.checkGraph = .ok () ↔ r.Forest :=
  ⟨fun passed => (coherent_of_checkGraph passed).forest, Forest.checkGraph_ok⟩

theorem checkGraph_decides (r : Registry) : r.checkGraph = .ok () ↔ r.Coherent := by
  constructor
  · exact coherent_of_checkGraph
  · intro coherent
    exact coherent.forest.checkGraph_ok

-- Every link is held by both of its ends here, and still this is no forest.
example : Registry.checkGraph (((∅ : Registry).put "a" { Shape.ofGeometry (.circle 0 0 1) with links := ⟨some "b", ["b"]⟩ }).put
    "b" { Shape.ofGeometry (.circle 0 0 1) with links := ⟨some "a", ["a"]⟩ }) =
      .error (.invalidBinding (.cyclicChain "a")) := by
  decide +kernel

def Edge (r : Registry) (parent child : String) : Prop := child ∈ r.children parent ∧ r.parent? child = some parent

theorem Forest.edge_iff (forest : r.Forest) : r.Edge parent child ↔ r.parent? child = some parent := by
  unfold Edge
  rw [forest.mirrored]
  exact and_self_iff

theorem Climb.link (climb : r.Climb x path child) (below : child ∈ r) :
    ∃ path, (r.link parent child).Climb x path child := by
  -- a chain up to the child does not use the link of the child
  induction climb with
  | here => exact ⟨[], .here⟩
  | @up x p child path bound _ ih =>
    by_cases same : x = child
    · exact ⟨[], same ▸ .here⟩
    · obtain ⟨path, climb⟩ := ih below
      exact ⟨x :: path, .up (by rw [parent?_link below, if_neg same, bound]) climb⟩

theorem not_forest_of_climb (below : child ∈ r) (climb : r.Climb parent path child) :
    ¬ (r.link parent child).Forest := by
  intro forest
  obtain ⟨path, circle⟩ : ∃ path, (r.link parent child).Climb parent path child := climb.link below
  have bound : (r.link parent child).parent? child = some parent := by rw [parent?_link below, if_pos rfl]
  exact (forest.ends child).acyclic bound circle

theorem not_forest_of_bound (forest : r.Forest) (above : parent ∈ r) (below : child ∈ r)
    (bound : r.parent? child = some p) (other : p ≠ parent) : ¬ (r.link parent child).Forest := by
  -- the old parent would still list the child
  intro linked
  have listed := (forest.mirrored p child).mpr bound
  have still := (linked.mirrored p child).mp (by rwa [children_link above, if_neg other])
  rw [parent?_link below, if_pos rfl] at still
  exact other (Option.some.inj still).symm

theorem checkBinding_refused (above : parent ∈ r) (below : child ∈ r)
    (refused : r.checkBinding parent child = .error e) : (∃ cause, e = .invalidBinding cause) ∧
      ((∃ p, r.parent? child = some p ∧ p ≠ parent) ∨ ∃ path, r.Climb parent path child) := by
  obtain ⟨upper, here⟩ := found_of_mem above
  obtain ⟨lower, found⟩ := found_of_mem below
  rw [parent?_eq found, ← isAncestor_iff]
  simp only [checkBinding, find_ok here, find_ok found, bind, Except.bind] at refused
  by_cases own : parent = child
  · rw [if_pos own] at refused
    cases refused
    exact ⟨⟨_, rfl⟩, .inr (isAncestor_iff.mpr ⟨[], own ▸ .here⟩)⟩
  rw [if_neg own] at refused
  cases bound : lower.links.parent with
  | some p =>
    simp only [bound] at refused
    split at refused
    · cases refused
    · rename_i other
      cases refused
      exact ⟨⟨_, rfl⟩, .inl ⟨p, rfl, other⟩⟩
  | none =>
    simp only [bound] at refused
    split at refused
    · rename_i climbs
      cases refused
      exact ⟨⟨_, rfl⟩, .inr climbs⟩
    · cases refused

theorem Forest.checkBinding_verdict (forest : r.Forest) (above : parent ∈ r) (below : child ∈ r) :
    (r.checkBinding parent child = .ok true ∧ r.Edge parent child) ∨
    (r.checkBinding parent child = .ok false ∧ ¬ r.Edge parent child ∧ (r.link parent child).Forest) ∨
    ((∃ cause, r.checkBinding parent child = .error (.invalidBinding cause)) ∧ ¬ r.Edge parent child ∧
      ¬ (r.link parent child).Forest) := by
  rw [forest.edge_iff]
  cases checked : r.checkBinding parent child with
  | ok linked =>
    obtain ⟨_, _, ⟨rfl, bound⟩ | ⟨rfl, free, apart⟩⟩ := checkBinding_cases checked
    · exact .inl ⟨rfl, bound⟩
    · exact .inr (.inl ⟨rfl, by simp [free], forest.link above below free apart⟩)
  | error e =>
    obtain ⟨⟨cause, rfl⟩, ⟨p, bound, other⟩ | ⟨path, climb⟩⟩ := checkBinding_refused above below checked
    · exact .inr (.inr ⟨⟨cause, rfl⟩, by simp [bound, other], not_forest_of_bound forest above below bound other⟩)
    · exact .inr (.inr ⟨⟨cause, rfl⟩, fun bound => (forest.ends child).acyclic bound climb,
        not_forest_of_climb below climb⟩)

theorem checkBinding_exact (passed : r.checkGraph = .ok ()) (above : parent ∈ r) (below : child ∈ r) :
    (r.checkBinding parent child = .ok true ↔ r.Edge parent child) ∧
    (r.checkBinding parent child = .ok false ↔
      ¬ r.Edge parent child ∧ (r.link parent child).checkGraph = .ok ()) ∧
    ((∃ cause, r.checkBinding parent child = .error (.invalidBinding cause)) ↔
      ¬ r.Edge parent child ∧ (r.link parent child).checkGraph ≠ .ok ()) := by
  rw [Ne, checkGraph_ok_iff]
  obtain ⟨granted, edge⟩ | ⟨granted, absent, kept⟩ | ⟨⟨cause, refused⟩, absent, broken⟩ :=
    (checkGraph_ok_iff.mp passed).checkBinding_verdict above below
  · simp [granted, edge]
  · simp [granted, absent, kept]
  · simp [refused, absent, broken]

def Sample.family : Registry :=
  let loose : Registry := ["a", "b", "c", "d"].foldl (fun r id => put id (.ofGeometry (.circle 0 0 1)) r) ∅
  (loose.link "a" "b").link "b" "c"

theorem checkBinding_exact_family : Sample.family.checkGraph = .ok () ∧ "c" ∈ Sample.family ∧ "a" ∈ Sample.family ∧
    (Sample.family.checkBinding "c" "a" = .ok true ↔ Sample.family.Edge "c" "a") ∧
    (Sample.family.checkBinding "c" "a" = .ok false ↔
      ¬ Sample.family.Edge "c" "a" ∧ (Sample.family.link "c" "a").checkGraph = .ok ()) ∧
    ((∃ cause, Sample.family.checkBinding "c" "a" = .error (.invalidBinding cause)) ↔
      ¬ Sample.family.Edge "c" "a" ∧ (Sample.family.link "c" "a").checkGraph ≠ .ok ()) :=
  have passed : Sample.family.checkGraph = .ok () := by decide +kernel
  have above : "c" ∈ Sample.family := by decide +kernel
  have below : "a" ∈ Sample.family := by decide +kernel
  ⟨passed, above, below, checkBinding_exact passed above below⟩

end Registry
end Diorama
