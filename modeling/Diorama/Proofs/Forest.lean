import Diorama.Registry
import Mathlib.Data.List.Basic
import Mathlib.Data.List.Perm.Subperm

namespace Diorama

theorem length_le_size {α : Type} {m : Std.ExtTreeMap String α} {keys : List String} (distinct : keys.Nodup)
    (present : ∀ x ∈ keys, x ∈ m) : keys.length ≤ m.size := by
  rw [← Std.ExtTreeMap.length_keys]
  refine (List.subperm_of_subset distinct ?_).length_le
  intro x member
  exact Std.ExtTreeMap.mem_keys.mpr (present x member)

namespace Registry

def children (r : Registry) (id : String) : List String := (r[id]?.map (·.links.children)).getD []

-- A walk along parent links, with the ids that it leaves behind.
inductive Climb (r : Registry) : String → List String → String → Prop where
  | here {id : String} : Climb r id [] id
  | up {id p top : String} {path : List String} :
      r.parent? id = some p → Climb r p path top → Climb r id (id :: path) top

inductive Ends (r : Registry) : String → Prop where
  | top {id : String} : r.parent? id = none → Ends r id
  | up {id p : String} : r.parent? id = some p → Ends r p → Ends r id

-- Only the links matter here. That both ends of a link are registered follows from `mirrored`.
structure Forest (r : Registry) : Prop where
  mirrored : ∀ p c, c ∈ r.children p ↔ r.parent? c = some p
  once : ∀ p, (r.children p).Nodup
  ends : ∀ id, r.Ends id

variable {r r' : Registry} {id p c x top parent child start : String} {path : List String}
  {shape removed : Shape} {f : Shape → Shape}

theorem found_of_mem (present : id ∈ r) : ∃ shape, r[id]? = some shape :=
  ⟨r[id], Std.ExtTreeMap.getElem?_eq_some_getElem present⟩

theorem mem_of_found (found : r[id]? = some shape) : id ∈ r := by
  by_contra absent
  simp [absent] at found

theorem parent?_eq (found : r[id]? = some shape) : r.parent? id = shape.links.parent := by
  simp [parent?, found]

theorem children_eq (found : r[id]? = some shape) : r.children id = shape.links.children := by
  simp [children, found]

theorem mem_of_parent (bound : r.parent? id = some p) : id ∈ r := by
  by_contra absent
  simp [parent?, absent] at bound

theorem mem_of_child (listed : c ∈ r.children p) : p ∈ r := by
  by_contra absent
  simp [children, absent] at listed

theorem Forest.parent_mem (forest : r.Forest) (bound : r.parent? c = some p) : p ∈ r :=
  mem_of_child ((forest.mirrored p c).mpr bound)

theorem Forest.child_mem (forest : r.Forest) (listed : c ∈ r.children p) : c ∈ r :=
  mem_of_parent ((forest.mirrored p c).mp listed)

theorem Climb.snoc (climb : r.Climb id path x) (bound : r.parent? x = some p) : r.Climb id (path ++ [x]) p := by
  induction climb with
  | here => exact .up bound .here
  | up first _ ih => exact .up first (ih bound)

theorem Climb.ends (climb : r.Climb id path top) (free : r.parent? top = none) : r.Ends id := by
  induction climb with
  | here => exact .top free
  | up bound _ ih => exact .up bound (ih free)

theorem Ends.acyclic (ends : r.Ends c) (bound : r.parent? c = some p) : ¬ r.Climb p path c := by
  induction ends generalizing p path with
  | top free =>
    rw [free] at bound
    cases bound
  | up first _ ih =>
    intro climb
    cases first.symm.trans bound
    cases climb with
    | here => exact ih first .here
    | up second rest => exact ih second (rest.snoc first)

theorem Ends.parent_ne (ends : r.Ends c) (bound : r.parent? c = some p) : p ≠ c := by
  rintro rfl
  exact ends.acyclic bound .here

theorem Climb.path_mem (climb : r.Climb id path top) : ∀ x ∈ path, x ∈ r := by
  induction climb with
  | here => simp
  | up bound _ ih =>
    intro x member
    rcases List.mem_cons.mp member with rfl | later
    · exact mem_of_parent bound
    · exact ih x later

theorem Climb.congr (climb : r.Climb id path top) (parents : ∀ x, r'.parent? x = r.parent? x) :
    r'.Climb id path top := by
  induction climb with
  | here => exact .here
  | up bound _ ih => exact .up ((parents _).trans bound) ih

theorem Climb.from_mem (climb : r.Climb id path top) (member : x ∈ path) :
    ∃ rest, r.Climb x rest top ∧ rest <:+ path := by
  induction climb with
  | here => cases member
  | @up id p top path bound rest ih =>
    rcases List.mem_cons.mp member with rfl | later
    · exact ⟨_, .up bound rest, List.suffix_refl _⟩
    · obtain ⟨rest, climb, shorter⟩ := ih later
      exact ⟨rest, climb, shorter.trans (List.suffix_cons _ _)⟩

theorem Climb.shorten (climb : r.Climb id path top) :
    ∃ path, r.Climb id path top ∧ path.Nodup := by
  -- a walk that meets an id twice can leave out what lies between
  induction climb with
  | here => exact ⟨[], .here, List.nodup_nil⟩
  | @up id p top _ bound _ ih =>
    obtain ⟨path, climb, distinct⟩ := ih
    by_cases again : id ∈ path
    · obtain ⟨rest, climb, shorter⟩ := climb.from_mem again
      exact ⟨rest, climb, distinct.sublist shorter.sublist⟩
    · exact ⟨id :: path, .up bound climb, List.nodup_cons.mpr ⟨again, distinct⟩⟩

theorem Climb.short (climb : r.Climb id path top) :
    ∃ path, r.Climb id path top ∧ path.length ≤ r.size := by
  obtain ⟨path, climb, distinct⟩ := climb.shorten
  exact ⟨path, climb, length_le_size distinct climb.path_mem⟩

theorem ancestorSteps_iff {steps : Nat} :
    r.ancestorSteps top steps (some id) = true ↔ ∃ path, r.Climb id path top ∧ path.length < steps := by
  induction steps generalizing id with
  | zero => simp [ancestorSteps]
  | succ steps ih =>
    rw [ancestorSteps, Bool.or_eq_true, beq_iff_eq]
    constructor
    · rintro (rfl | above)
      · exact ⟨[], .here, by simp⟩
      · cases bound : r.parent? id with
        | none =>
          rw [bound] at above
          cases steps <;> simp [ancestorSteps] at above
        | some p =>
          rw [bound] at above
          obtain ⟨path, climb, short⟩ := ih.mp above
          exact ⟨id :: path, .up bound climb, by simpa using short⟩
    · rintro ⟨path, climb, short⟩
      cases climb with
      | here => exact .inl rfl
      | up bound rest =>
        rw [bound]
        exact .inr (ih.mpr ⟨_, rest, by simpa using short⟩)

theorem isAncestor_iff : r.isAncestor top id = true ↔ ∃ path, r.Climb id path top := by
  rw [isAncestor, ancestorSteps_iff]
  constructor
  · rintro ⟨path, climb, _⟩
    exact ⟨path, climb⟩
  · rintro ⟨_, climb⟩
    obtain ⟨path, climb, short⟩ := climb.short
    exact ⟨path, climb, Nat.lt_succ_of_le short⟩

theorem find_ok (found : r[id]? = some shape) : r.find id = .ok shape := by
  simp [find, found]

theorem find_missing (absent : r[id]? = none) : r.find id = .error (.unknownShape id) := by
  simp [find, absent]

theorem rootSteps_climb {steps : Nat} (climb : r.Climb id path top) (found : r[top]? = some shape)
    (free : shape.links.parent = none) (short : path.length < steps) :
    r.rootSteps start steps id = .ok top := by
  induction climb generalizing steps with
  | here =>
    cases steps with
    | zero => cases short
    | succ steps => simp [rootSteps, find_ok found, free, bind, Except.bind]
  | @up id p top path bound _ ih =>
    cases steps with
    | zero => cases short
    | succ steps =>
      obtain ⟨record, at'⟩ := found_of_mem (mem_of_parent bound)
      have up : record.links.parent = some p := (parent?_eq at').symm.trans bound
      simp only [rootSteps, find_ok at', up, bind, Except.bind]
      exact ih found (by simpa using short)

theorem rootSteps_mem {steps : Nat} (found : r.rootSteps start steps id = .ok top) : top ∈ r := by
  induction steps generalizing id with
  | zero => simp [rootSteps] at found
  | succ steps ih =>
    cases record : r[id]? with
    | none => simp [rootSteps, find, record, bind, Except.bind] at found
    | some shape =>
      simp only [rootSteps, find_ok record, bind, Except.bind] at found
      split at found
      · exact ih found
      · cases found
        exact mem_of_found record

theorem rootSteps_top {steps : Nat} (root : r.rootSteps start steps id = .ok top) :
    ∃ path, r.Climb id path top ∧ r.parent? top = none := by
  induction steps generalizing id with
  | zero => cases root
  | succ steps ih =>
    cases record : r[id]? with
    | none => simp [rootSteps, find, record, bind, Except.bind] at root
    | some shape =>
      simp only [rootSteps, find_ok record, bind, Except.bind] at root
      split at root
      · rename_i p bound
        obtain ⟨path, climb, free⟩ := ih root
        exact ⟨id :: path, .up ((parent?_eq record).trans bound) climb, free⟩
      · rename_i free
        cases root
        exact ⟨[], .here, (parent?_eq record).trans free⟩

theorem Ends.climb (ends : r.Ends id) : ∃ path top, r.Climb id path top ∧ r.parent? top = none := by
  induction ends with
  | top free => exact ⟨[], _, .here, free⟩
  | up bound _ ih =>
    obtain ⟨path, top, climb, free⟩ := ih
    exact ⟨_ :: path, top, .up bound climb, free⟩

theorem Climb.top_mem (forest : r.Forest) (climb : r.Climb id path top) (present : id ∈ r) : top ∈ r := by
  induction climb with
  | here => exact present
  | up bound _ ih => exact ih (forest.parent_mem bound)

theorem Forest.rootOf_ok (forest : r.Forest) (present : id ∈ r) : ∃ top, r.rootOf id = .ok top := by
  obtain ⟨_, top, climb, free⟩ := (forest.ends id).climb
  obtain ⟨path, climb, short⟩ := climb.short
  obtain ⟨shape, found⟩ := found_of_mem (climb.top_mem forest present)
  exact ⟨top, rootSteps_climb climb found ((parent?_eq found).symm.trans free) (Nat.lt_succ_of_le short)⟩

theorem Forest.congr (forest : r.Forest) (parents : ∀ x, r'.parent? x = r.parent? x)
    (lists : ∀ x, r'.children x = r.children x) : r'.Forest := by
  refine ⟨?_, ?_, ?_⟩
  · intro p c
    rw [lists, parents]
    exact forest.mirrored p c
  · intro p
    rw [lists]
    exact forest.once p
  · intro id
    induction forest.ends id with
    | top free => exact .top ((parents _).trans free)
    | up bound _ ih => exact .up ((parents _).trans bound) ih

theorem forest_empty : (∅ : Registry).Forest := by
  refine ⟨?_, ?_, ?_⟩
  · simp [children, parent?]
  · simp [children]
  · intro id
    exact .top (by simp [parent?])

theorem getElem?_put : (r.put id shape)[x]? = if id = x then some shape else r[x]? := by
  simp only [put, Std.ExtTreeMap.getElem?_insert, Std.compare_eq_iff_eq]

theorem parent?_put :
    (r.put id shape).parent? x = if id = x then shape.links.parent else r.parent? x := by
  unfold parent?
  rw [getElem?_put]
  split <;> rfl

theorem children_put :
    (r.put id shape).children x = if id = x then shape.links.children else r.children x := by
  unfold children
  rw [getElem?_put]
  split <;> rfl

theorem Forest.put (forest : r.Forest) (kept : shape.links = ⟨r.parent? id, r.children id⟩) :
    (r.put id shape).Forest := by
  refine forest.congr ?_ ?_
  · intro x
    rw [parent?_put, kept]
    split
    · subst x; rfl
    · rfl
  · intro x
    rw [children_put, kept]
    split
    · subst x; rfl
    · rfl

theorem links_none (absent : r[id]? = none) : Links.none = ⟨r.parent? id, r.children id⟩ := by
  simp [Links.none, parent?, children, absent]

theorem getElem?_modify : (r.modify id f)[x]? = if id = x then r[id]?.map f else r[x]? := by
  simp only [Std.ExtTreeMap.getElem?_modify, Std.compare_eq_iff_eq]

theorem parent?_modify (kept : ∀ s, (f s).links = s.links) : parent? (r.modify id f) x = r.parent? x := by
  unfold parent?
  rw [getElem?_modify]
  split
  · subst x
    cases r[id]? <;> simp [kept]
  · rfl

theorem children_modify (kept : ∀ s, (f s).links = s.links) :
    children (r.modify id f) x = r.children x := by
  unfold children
  rw [getElem?_modify]
  split
  · subst x
    cases r[id]? <;> simp [kept]
  · rfl

theorem Forest.modify (forest : r.Forest) (kept : ∀ s, (f s).links = s.links) :
    Forest (r.modify id f) :=
  forest.congr (fun _ => parent?_modify kept) fun _ => children_modify kept

theorem parent?_link (present : child ∈ r) :
    (r.link parent child).parent? x = if x = child then some parent else r.parent? x := by
  obtain ⟨shape, found⟩ := found_of_mem present
  unfold parent? link
  simp only [getElem?_modify]
  grind

theorem children_link (present : parent ∈ r) :
    (r.link parent child).children x = if x = parent then r.children x ++ [child] else r.children x := by
  obtain ⟨shape, found⟩ := found_of_mem present
  unfold children link
  simp only [getElem?_modify]
  grind

theorem ends_apart (ends : r.Ends x) (present : child ∈ r) (apart : ¬ ∃ path, r.Climb x path child) :
    (r.link parent child).Ends x := by
  -- a chain that does not meet the child is not touched by the new link
  induction ends with
  | @top x free =>
    have other : x ≠ child := fun same => apart ⟨[], same ▸ .here⟩
    exact .top (by rw [parent?_link present, if_neg other, free])
  | @up x p bound _ ih =>
    have other : x ≠ child := fun same => apart ⟨[], same ▸ .here⟩
    refine .up (by rw [parent?_link present, if_neg other, bound]) (ih ?_)
    rintro ⟨path, climb⟩
    exact apart ⟨_, .up bound climb⟩

theorem Forest.link (forest : r.Forest) (above : parent ∈ r) (below : child ∈ r)
    (free : r.parent? child = none) (apart : ¬ ∃ path, r.Climb parent path child) :
    (r.link parent child).Forest := by
  have unlisted : ∀ p, child ∉ r.children p := by
    intro p listed
    rw [(forest.mirrored p child).mp listed] at free
    cases free
  refine ⟨?_, ?_, ?_⟩
  · intro p c
    rw [children_link above, parent?_link below]
    have old := forest.mirrored p c
    grind
  · intro p
    rw [children_link above]
    split
    · exact List.nodup_append.mpr ⟨forest.once p, by simp, by grind⟩
    · exact forest.once p
  · intro id
    induction forest.ends id with
    | @top x free =>
      by_cases same : x = child
      · subst same
        exact .up (by rw [parent?_link below, if_pos rfl]) (ends_apart (forest.ends parent) below apart)
      · exact .top (by rw [parent?_link below, if_neg same, free])
    | @up x p bound _ ih =>
      by_cases same : x = child
      · subst same
        rw [free] at bound
        cases bound
      · exact .up (by rw [parent?_link below, if_neg same, bound]) ih

-- What is left of a record `s` under the id `x` when the shape `id` is cut out.
def severed (id : String) (removed : Shape) (x : String) (s : Shape) : Shape :=
  let s := if removed.links.parent = some x then
      { s with links.children := s.links.children.filter (· != id) }
    else s
  if x ∈ removed.links.children then { s.moveBy removed.position with links.parent := none } else s

theorem getElem?_modifyAll {ids : List String} (distinct : ids.Nodup) :
    (ids.foldl (fun r c => r.modify c f) r)[x]? = if x ∈ ids then r[x]?.map f else r[x]? := by
  induction ids generalizing r with
  | nil => simp
  | cons c rest ih =>
    obtain ⟨unlisted, distinct⟩ := List.nodup_cons.mp distinct
    rw [List.foldl_cons, ih distinct, getElem?_modify]
    grind

theorem getElem?_cutOut (distinct : removed.links.children.Nodup) :
    (r.cutOut id removed)[x]? = if id = x then none else r[x]?.map (severed id removed x) := by
  unfold cutOut
  rw [getElem?_modifyAll distinct]
  cases above : removed.links.parent with
  | none =>
    simp only [Std.ExtTreeMap.getElem?_erase, Std.compare_eq_iff_eq]
    by_cases same : id = x
    · simp [same]
    · cases r[x]? <;> simp [same, severed, above]
      split <;> rfl
  | some p =>
    simp only [getElem?_modify, Std.ExtTreeMap.getElem?_erase, Std.compare_eq_iff_eq]
    by_cases same : id = x
    · subst x
      by_cases own : p = id <;> simp [own]
    · by_cases upper : p = x
      · subst p
        cases r[x]? <;> simp [same, severed, above]
        split <;> rfl
      · cases r[x]? <;> simp [same, upper, severed, above]
        split <;> rfl

theorem severed_parent :
    (severed id removed x shape).links.parent =
      if x ∈ removed.links.children then none else shape.links.parent := by
  unfold severed
  dsimp only
  split <;> split <;> rfl

theorem severed_children :
    (severed id removed x shape).links.children =
      if removed.links.parent = some x then shape.links.children.filter (· != id)
      else shape.links.children := by
  unfold severed
  dsimp only
  split <;> split <;> rfl

theorem Forest.getElem?_cutOut (forest : r.Forest) (found : r[id]? = some removed) :
    (r.cutOut id removed)[x]? = if id = x then none else r[x]?.map (severed id removed x) := by
  refine Registry.getElem?_cutOut ?_
  rw [← children_eq found]
  exact forest.once id

theorem Forest.mem_cutOut (forest : r.Forest) (found : r[id]? = some removed) :
    x ∈ r.cutOut id removed ↔ x ≠ id ∧ x ∈ r := by
  rw [Std.ExtTreeMap.mem_iff_isSome_getElem?, forest.getElem?_cutOut found,
    Std.ExtTreeMap.mem_iff_isSome_getElem?]
  by_cases same : id = x
  · simp [same]
  · simp [same, Ne.symm same]

theorem Forest.survivor_mem (forest : r.Forest) (found : r[id]? = some removed)
    (linked : x ∈ removed.links.children ++ removed.links.parent.toList) : x ∈ r.cutOut id removed := by
  rw [forest.mem_cutOut found]
  rcases List.mem_append.mp linked with below | above
  · rw [← children_eq found, forest.mirrored] at below
    exact ⟨((forest.ends x).parent_ne below).symm, mem_of_parent below⟩
  · rw [Option.mem_toList, ← parent?_eq found] at above
    exact ⟨(forest.ends id).parent_ne above, forest.parent_mem above⟩

theorem Forest.parent?_cutOut (forest : r.Forest) (found : r[id]? = some removed) :
    (r.cutOut id removed).parent? x =
      if id = x ∨ r.parent? x = some id then none else r.parent? x := by
  have listed := forest.mirrored id x
  rw [children_eq found] at listed
  unfold parent? at listed ⊢
  rw [forest.getElem?_cutOut found]
  cases record : r[x]? with
  | none => by_cases same : id = x <;> simp [same]
  | some shape =>
    simp only [record, Option.bind_some] at listed
    by_cases same : id = x
    · simp [same]
    · simp [same, severed_parent, listed]

theorem Forest.children_cutOut (forest : r.Forest) (found : r[id]? = some removed) :
    (r.cutOut id removed).children x = if id = x then [] else (r.children x).filter (· != id) := by
  have listed := forest.mirrored x id
  rw [parent?_eq found] at listed
  unfold children at listed ⊢
  rw [forest.getElem?_cutOut found]
  cases record : r[x]? with
  | none => by_cases same : id = x <;> simp [same]
  | some shape =>
    simp only [record, Option.map_some, Option.getD_some] at listed
    by_cases same : id = x
    · simp [same]
    · simp only [same, if_false, Option.map_some, Option.getD_some, severed_children]
      split
      · rfl
      · rename_i unlisted
        refine (List.filter_eq_self.mpr ?_).symm
        intro c member
        have other : c ≠ id := fun equal => unlisted (listed.mp (equal ▸ member))
        simpa using other

theorem Forest.cutOut (forest : r.Forest) (found : r[id]? = some removed) :
    (r.cutOut id removed).Forest := by
  refine ⟨?_, ?_, ?_⟩
  · intro p c
    rw [forest.children_cutOut found, forest.parent?_cutOut found]
    have old := forest.mirrored p c
    grind
  · intro p
    rw [forest.children_cutOut found]
    split
    · exact List.nodup_nil
    · exact (forest.once p).filter _
  · intro x
    -- Links are only taken away, so every chain is the beginning of an old one.
    induction forest.ends x with
    | @top x free => exact .top (by rw [forest.parent?_cutOut found, free, ite_self])
    | @up x p bound _ ih =>
      have cut := forest.parent?_cutOut (x := x) found
      split at cut
      · exact .top cut
      · exact .up (cut.trans bound) ih

theorem mem_of_find (found : r.find id = .ok shape) : r[id]? = some shape := by
  unfold find at found
  split at found
  · cases found
    assumption
  · cases found

theorem checkBinding_cases {linked : Bool} (granted : r.checkBinding parent child = .ok linked) :
    parent ∈ r ∧ child ∈ r ∧ (linked = true ∧ r.parent? child = some parent ∨
      linked = false ∧ r.parent? child = none ∧ ¬ ∃ path, r.Climb parent path child) := by
  unfold checkBinding at granted
  cases above : r.find parent with
  | error e => simp [above, bind, Except.bind] at granted
  | ok upper =>
    cases below : r.find child with
    | error e => simp [above, below, bind, Except.bind] at granted
    | ok lower =>
      refine ⟨mem_of_found (mem_of_find above), mem_of_found (mem_of_find below), ?_⟩
      rw [parent?_eq (mem_of_find below), ← isAncestor_iff]
      simp only [above, below, bind, Except.bind] at granted
      grind

theorem checkParent_ok (forest : r.Forest) (id : String) : r.checkParent id (r.parent? id) = .ok () := by
  cases bound : r.parent? id with
  | none => rfl
  | some p =>
    obtain ⟨shape, found⟩ := found_of_mem (forest.parent_mem bound)
    have listed : id ∈ shape.links.children := by
      rw [← children_eq found]
      exact (forest.mirrored p id).mpr bound
    simp [checkParent, found, listed]

theorem checkChildren_ok (forest : r.Forest) {seen rest : List String}
    (split : seen ++ rest = r.children id) : r.checkChildren id seen rest = .ok () := by
  induction rest generalizing seen with
  | nil => rfl
  | cons c rest ih =>
    have listed : c ∈ r.children id := split ▸ by simp
    have distinct := forest.once id
    rw [← split, List.nodup_append] at distinct
    have unseen : c ∉ seen := fun member => distinct.2.2 c member c (by simp) rfl
    have bound := (forest.mirrored id c).mp listed
    obtain ⟨shape, found⟩ := found_of_mem (mem_of_parent bound)
    rw [parent?_eq found] at bound
    simp only [checkChildren, List.contains_eq_mem, unseen, decide_false, found, bound]
    exact ih (by simpa using split)

theorem checkShape_ok (forest : r.Forest) (found : r[id]? = some shape) :
    r.checkShape id shape = .ok () := by
  obtain ⟨top, root⟩ := forest.rootOf_ok (mem_of_found found)
  have above := checkParent_ok forest id
  have below := checkChildren_ok forest (List.nil_append (r.children id))
  rw [parent?_eq found] at above
  rw [children_eq found] at below
  simp [checkShape, above, below, root, bind, Except.bind, pure, Except.pure]

theorem forM_ok {α : Type} {ε : Type} {l : List α} {f : α → Except ε Unit} (all : ∀ a ∈ l, f a = .ok ()) :
    l.forM f = .ok () := by
  induction l with
  | nil => rfl
  | cons a l ih =>
    have first := all a (by simp)
    have rest := ih fun b member => all b (by simp [member])
    simp [List.forM, first, rest, bind, Except.bind]

theorem Forest.checkGraph_ok (forest : r.Forest) : r.checkGraph = .ok () := by
  refine forM_ok ?_
  rintro ⟨id, shape⟩ member
  exact checkShape_ok forest (Std.ExtTreeMap.mem_toList_iff_getElem?_eq_some.mp member)

end Registry
end Diorama
