import Diorama.Proofs.Checking

namespace Diorama

namespace Registry

variable {r : Registry} {id x y top start : String} {path path' : List String} {e : Fault}
  {result result' : Except Fault String}

def Reaches (r : Registry) (id x : String) : Prop := ∃ links, r.ancestor? links id = some x

def IsRoot (r : Registry) (id : String) : Prop := ∃ shape : Shape, r[id]? = some shape ∧ shape.links.parent = none

def Endless (r : Registry) (id : String) : Prop := ∀ links, r.ancestor? links id ≠ none

-- What is to be said of the root of a chain: which shape it is, which id is missing on the way there, or that the
-- chain has no end.
inductive Verdict (r : Registry) (id : String) : Except Fault String → Prop where
  | root {top : String} : r.Reaches id top → r.IsRoot top → Verdict r id (.ok top)
  | stray {x : String} : r.Reaches id x → x ∉ r → Verdict r id (.error (.unknownShape x))
  | endless : r.Endless id → Verdict r id (.error (.invalidBinding (.cyclicChain id)))

theorem IsRoot.free (root : r.IsRoot id) : r.parent? id = none := by
  obtain ⟨shape, found, free⟩ := root
  exact (parent?_eq found).trans free

theorem IsRoot.mem (root : r.IsRoot id) : id ∈ r := by
  obtain ⟨shape, found, _⟩ := root
  exact mem_of_found found

theorem isRoot_of_free (present : id ∈ r) (free : r.parent? id = none) : r.IsRoot id := by
  obtain ⟨shape, found⟩ := found_of_mem present
  exact ⟨shape, found, (parent?_eq found).symm.trans free⟩

theorem free_of_absent (absent : id ∉ r) : r.parent? id = none := by
  simp [parent?, absent]

theorem Climb.ancestor? (climb : r.Climb id path top) : r.ancestor? path.length id = some top := by
  induction climb with
  | here => rfl
  | up bound _ ih => simp [Registry.ancestor?, bound, ih]

theorem reaches_iff : r.Reaches id top ↔ ∃ path, r.Climb id path top := by
  constructor
  · rintro ⟨links, reached⟩
    induction links generalizing id with
    | zero =>
      cases reached
      exact ⟨[], .here⟩
    | succ links ih =>
      cases bound : r.parent? id with
      | none => simp [Registry.ancestor?, bound] at reached
      | some p =>
        rw [Registry.ancestor?, bound] at reached
        obtain ⟨path, climb⟩ := ih reached
        exact ⟨id :: path, .up bound climb⟩
  · rintro ⟨path, climb⟩
    exact ⟨path.length, climb.ancestor?⟩

theorem endless_iff : r.Endless id ↔ ¬ r.Ends id := by
  constructor
  · intro endless ends
    obtain ⟨links, none⟩ := ends.ancestor?
    exact endless links none
  · intro goes links none
    exact goes (ends_of_ancestor? none)

theorem Climb.before_end (climb : r.Climb id path y) (whole : r.Climb id path' top) (free : r.parent? top = none) :
    ∃ rest, r.Climb y rest top ∧ path' = path ++ rest := by
  -- there is one way up, so whatever lies on a chain with an end lies before that end
  induction climb generalizing path' with
  | here => exact ⟨path', whole, rfl⟩
  | up bound _ ih =>
    cases whole with
    | here =>
      rw [free] at bound
      cases bound
    | up bound' later =>
      cases bound.symm.trans bound'
      obtain ⟨rest, climb, rfl⟩ := ih later
      exact ⟨rest, climb, rfl⟩

theorem Climb.end_unique (climb : r.Climb id path y) (free : r.parent? y = none) (whole : r.Climb id path' top)
    (free' : r.parent? top = none) : y = top := by
  obtain ⟨rest, last, _⟩ := climb.before_end whole free'
  cases last with
  | here => rfl
  | up bound _ =>
    rw [free] at bound
    cases bound

theorem Climb.endless (climb : r.Climb id path y) (long : r.size < path.length) : ¬ r.Ends id := by
  -- a chain with an end gets there over distinct shapes, of which there are no more than the registry holds
  intro ends
  obtain ⟨_, top, whole, free⟩ := ends.climb
  obtain ⟨short, whole, bound⟩ := whole.short
  obtain ⟨rest, _, same⟩ := climb.before_end whole free
  rw [same, List.length_append] at bound
  omega

theorem rootSteps_fault {steps : Nat} (failed : r.rootSteps start steps id = .error e) :
    ∃ path x, r.Climb id path x ∧ (x ∉ r ∧ e = .unknownShape x ∨
      path.length = steps ∧ e = .invalidBinding (.cyclicChain start)) := by
  induction steps generalizing id with
  | zero =>
    cases failed
    exact ⟨[], id, .here, .inr ⟨rfl, rfl⟩⟩
  | succ steps ih =>
    cases record : r[id]? with
    | none =>
      simp only [rootSteps, find_missing record, bind, Except.bind] at failed
      cases failed
      have absent : id ∉ r := fun present => by simp [Std.ExtTreeMap.getElem?_eq_some_getElem present] at record
      exact ⟨[], id, .here, .inl ⟨absent, rfl⟩⟩
    | some shape =>
      simp only [rootSteps, find_ok record, bind, Except.bind] at failed
      split at failed
      · rename_i p bound
        obtain ⟨path, x, climb, fault⟩ := ih failed
        refine ⟨id :: path, x, .up ((parent?_eq record).trans bound) climb, ?_⟩
        simpa using fault
      · cases failed

theorem verdict_rootOf (r : Registry) (id : String) : r.Verdict id (r.rootOf id) := by
  cases searched : r.rootOf id with
  | ok top =>
    obtain ⟨path, climb, free⟩ := rootSteps_top searched
    exact .root (reaches_iff.mpr ⟨path, climb⟩) (isRoot_of_free (rootSteps_mem searched) free)
  | error e =>
    obtain ⟨path, x, climb, ⟨absent, rfl⟩ | ⟨long, rfl⟩⟩ := rootSteps_fault searched
    · exact .stray (reaches_iff.mpr ⟨path, climb⟩) absent
    · exact .endless (endless_iff.mpr (climb.endless (by omega)))

theorem Reaches.end_unique (reaches : r.Reaches id x) (free : r.parent? x = none) (reaches' : r.Reaches id y)
    (free' : r.parent? y = none) : x = y := by
  obtain ⟨path, climb⟩ := reaches_iff.mp reaches
  obtain ⟨path', climb'⟩ := reaches_iff.mp reaches'
  exact climb.end_unique free climb' free'

theorem Reaches.not_endless (reaches : r.Reaches id x) (free : r.parent? x = none) : ¬ r.Endless id := by
  obtain ⟨path, climb⟩ := reaches_iff.mp reaches
  intro endless
  exact endless_iff.mp endless (climb.ends free)

theorem IsRoot.not_stray (root : r.IsRoot top) (reaches : r.Reaches id top) (reaches' : r.Reaches id x) : x ∈ r := by
  by_contra absent
  have same := reaches'.end_unique (free_of_absent absent) reaches root.free
  exact absent (same ▸ root.mem)

theorem Verdict.unique (first : r.Verdict id result) (second : r.Verdict id result') : result = result' := by
  cases first with
  | root reaches root =>
    cases second with
    | root reaches' root' => rw [reaches.end_unique root.free reaches' root'.free]
    | stray reaches' absent => exact absurd (root.not_stray reaches reaches') absent
    | endless goes => exact absurd goes (reaches.not_endless root.free)
  | stray reaches absent =>
    cases second with
    | root reaches' root => exact absurd (root.not_stray reaches' reaches) absent
    | stray reaches' absent' => rw [reaches.end_unique (free_of_absent absent) reaches' (free_of_absent absent')]
    | endless goes => exact absurd goes (reaches.not_endless (free_of_absent absent))
  | endless goes =>
    cases second with
    | root reaches root => exact absurd goes (reaches.not_endless root.free)
    | stray reaches absent => exact absurd goes (reaches.not_endless (free_of_absent absent))
    | endless => rfl

theorem rootOf_eq_iff : r.rootOf id = result ↔ r.Verdict id result := by
  constructor
  · rintro rfl
    exact verdict_rootOf r id
  · exact (verdict_rootOf r id).unique

theorem walks_exact (r : Registry) (ancestor id : String) :
    (r.isAncestor ancestor id = true ↔ r.Reaches id ancestor) ∧
    (∀ top, r.rootOf id = .ok top ↔ r.Reaches id top ∧ r.IsRoot top) ∧
    (∀ x, r.rootOf id = .error (.unknownShape x) ↔ r.Reaches id x ∧ x ∉ r) ∧
    ∀ cause, r.rootOf id = .error (.invalidBinding cause) ↔ cause = .cyclicChain id ∧ r.Endless id := by
  refine ⟨isAncestor_iff.trans reaches_iff.symm, ?_, ?_, ?_⟩
  · intro top
    rw [rootOf_eq_iff]
    constructor
    · rintro (⟨reaches, root⟩ | _)
      exact ⟨reaches, root⟩
    · rintro ⟨reaches, root⟩
      exact .root reaches root
  · intro x
    rw [rootOf_eq_iff]
    constructor
    · rintro (_ | ⟨reaches, absent⟩)
      exact ⟨reaches, absent⟩
    · rintro ⟨reaches, absent⟩
      exact .stray reaches absent
  · intro cause
    rw [rootOf_eq_iff]
    constructor
    · rintro (_ | _ | goes)
      exact ⟨rfl, goes⟩
    · rintro ⟨rfl, goes⟩
      exact .endless goes

-- The chain of `c` passes every shape and leaves the registry with its last link. The chain of `z` runs into a
-- circle that `z` is not part of.
example :
    let child (id : String) (parent : String) (r : Registry) : Registry :=
      r.put id { Shape.ofGeometry (.circle 0 0 1) with links := ⟨some parent, []⟩ }
    let line : Registry := child "c" "b" (child "b" "a" (child "a" "ghost" ∅))
    let ring : Registry := child "z" "y" (child "y" "x" (child "x" "y" ∅))
    line.isAncestor "ghost" "c" = true ∧ line.rootOf "c" = .error (.unknownShape "ghost") ∧
      ring.isAncestor "z" "x" = false ∧ ring.rootOf "z" = .error (.invalidBinding (.cyclicChain "z")) := by
  decide +kernel

end Registry
end Diorama
