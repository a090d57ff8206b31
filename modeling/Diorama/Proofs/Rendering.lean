import Diorama.Proofs.Regrouping

namespace Diorama

namespace Node

variable {a b : Attribute} {new old : List Attribute} {name : String}

def Held (a : Attribute) (attributes : List Attribute) : Prop := attributes.find? (·.name == a.name) = some a

theorem find?_putAttribute : (putAttribute a old).find? (·.name == name) =
    if a.name = name then some a else old.find? (·.name == name) := by
  induction old with
  | nil => by_cases same : a.name = name <;> simp [putAttribute, same]
  | cons first rest ih =>
    rw [putAttribute]
    by_cases taken : first.name = a.name
    · by_cases same : a.name = name <;> simp [taken, same]
    · have kept : (first.name == a.name) = false := beq_false_of_ne taken
      rw [kept, if_neg Bool.false_ne_true]
      by_cases same : first.name = name
      · have other : a.name ≠ name := fun own => taken (same.trans own.symm)
        simp [same, other]
      · simp [same, ih]

theorem Held.putAttribute_eq (held : Held a old) : putAttribute a old = old := by
  induction old with
  | nil => cases held
  | cons first rest ih =>
    rw [putAttribute]
    by_cases taken : first.name = a.name
    · have same : first = a := by simpa [Held, taken] using held
      simp [same]
    · have later : Held a rest := by simpa [Held, taken] using held
      simp [taken, ih later]

theorem Held.putAttributes_eq (held : ∀ a ∈ new, Held a old) : new.foldl (fun all a => putAttribute a all) old = old := by
  induction new with
  | nil => rfl
  | cons a rest ih =>
    rw [List.foldl_cons, (held a List.mem_cons_self).putAttribute_eq]
    exact ih fun b member => held b (List.mem_cons_of_mem a member)

theorem Held.kept (held : Held a old) (apart : a.name ∉ new.map (·.name)) :
    Held a (new.foldl (fun all b => putAttribute b all) old) := by
  induction new generalizing old with
  | nil => exact held
  | cons b rest ih =>
    simp only [List.map_cons, List.mem_cons, not_or] at apart
    refine ih ?_ apart.2
    unfold Held
    rw [find?_putAttribute, if_neg (Ne.symm apart.1)]
    exact held

theorem held_putAttributes (once : (new.map (·.name)).Nodup) (old : List Attribute) :
    ∀ a ∈ new, Held a (new.foldl (fun all b => putAttribute b all) old) := by
  -- an attribute that is set stays until another of its name is set, and there is none
  induction new generalizing old with
  | nil => exact fun a member => absurd member List.not_mem_nil
  | cons b rest ih =>
    rw [List.map_cons, List.nodup_cons] at once
    intro a member
    rcases List.mem_cons.mp member with rfl | later
    · have first : Held a (putAttribute a old) := by
        unfold Held
        rw [find?_putAttribute, if_pos rfl]
      exact first.kept once.1
    · exact ih once.2 (putAttribute b old) a later

end Node

theorem Look.given_given {attributes : List Attribute} (once : (attributes.map (·.name)).Nodup) (look : Look) :
    (look.given attributes).given attributes = look.given attributes := by
  have same := Node.Held.putAttributes_eq (Node.held_putAttributes once look.attributes)
  exact congrArg (Look.mk look.kind) same

namespace Scene

variable {s : Scene} {id k : String} {kind : Kind} {attributes : List Attribute} {look : Look}

theorem setAttributes_eq_self (shown : s.look? id = some look) (same : look.given attributes = look) :
    s.setAttributes id attributes = s := by
  refine eq_of_views (fun x => ?_) (fun _ => container?_setAttributes) (fun _ => children_setAttributes)
  rw [look?_setAttributes]
  split
  · subst x
    rw [shown, Option.map_some, same]
  · rfl

theorem appendChild_appendChild (linked : s.Linked) (rooted : s.Rooted) :
    (s.appendChild k id).appendChild k id = s.appendChild k id := by
  cases accepted : s.accepts k id with
  | false =>
    have refused := appendChild_refused accepted
    rw [refused, refused]
  | true =>
    have last := (linked.moved accepted).last
    exact (appendChild_eq_self_iff (linked.appendChild k id) (rooted.appendChild k id)).mpr (.inr (.inr (.inr (.inr last))))

def dressed (id : String) (attributes : List Attribute) (k : String) (s : Scene) : Scene :=
  (s.setAttributes id attributes).appendChild k id

theorem look?_dressed (shown : s.look? id = some look) :
    (s.dressed id attributes k).look? id = some (look.given attributes) := by
  unfold dressed
  rw [look?_appendChild, look?_setAttributes, if_pos rfl, shown, Option.map_some]

theorem dressed_dressed (linked : s.Linked) (rooted : s.Rooted) (present : id ∈ s.nodes)
    (once : (attributes.map (·.name)).Nodup) :
    (s.dressed id attributes k).dressed id attributes k = s.dressed id attributes k := by
  obtain ⟨look, shown⟩ := Option.isSome_iff_exists.mp (mem_iff_look.mp present)
  have still : (s.dressed id attributes k).setAttributes id attributes = s.dressed id attributes k :=
    setAttributes_eq_self (look?_dressed shown) (look.given_given once)
  rw [dressed, still]
  exact appendChild_appendChild (linked.apply (.setAttributes id attributes))
    (rooted.apply linked (.setAttributes id attributes))

theorem place_known (present : id ∈ s.nodes) : Surface.place kind id attributes k s = s.dressed id attributes k := by
  obtain ⟨look, shown⟩ := Option.isSome_iff_exists.mp (mem_iff_look.mp present)
  have there : Surface.kindOf? s id = some look.kind := kindOf?_eq.trans (congrArg _ shown)
  simp only [Surface.place, there]
  rfl

theorem place_eq_dressed (linked : s.Linked) (rooted : s.Rooted) : ∃ made : Scene, made.Linked ∧ made.Rooted ∧
    id ∈ made.nodes ∧ Surface.place kind id attributes k s = made.dressed id attributes k := by
  -- Placing creates the node where it is missing. The root is never missing.
  cases known : s.kindOf? id with
  | some found => exact ⟨s, linked, rooted, mem_of_kind known, place_known (mem_of_kind known)⟩
  | none =>
    have missing : Surface.kindOf? s id = none := known
    have inner : id ≠ rootId := by
      rintro rfl
      cases known.symm.trans linked.group
    refine ⟨s.createNode kind id, linked.createNode kind id, rooted.apply linked (.createNode kind id), ?_, ?_⟩
    · rw [mem_iff_look, look?_createNode inner, if_pos rfl]
      rfl
    · simp only [Surface.place, missing]
      rfl

theorem place_place (linked : s.Linked) (rooted : s.Rooted) (once : (attributes.map (·.name)).Nodup) :
    Surface.place kind id attributes k (Surface.place kind id attributes k s) =
      Surface.place kind id attributes k s := by
  obtain ⟨made, linked, rooted, present, placed⟩ := place_eq_dressed linked rooted
  have there : id ∈ (made.dressed id attributes k).nodes := by
    obtain ⟨look, shown⟩ := Option.isSome_iff_exists.mp (mem_iff_look.mp present)
    rw [mem_iff_look, look?_dressed shown]
    rfl
  rw [placed, place_known there]
  exact dressed_dressed linked rooted present once

end Scene

namespace Registry

variable {r : Registry} {id : String}

-- The shape is not registered, or its parent is not.
def Astray (r : Registry) (id : String) : Prop := id ∉ r ∨ ∃ p, r.parent? id = some p ∧ p ∉ r

theorem Astray.placement_error (astray : r.Astray id) : ∃ fault, r.placement id = .error fault := by
  unfold placement
  cases found : r[id]? with
  | none =>
    rw [find_missing found]
    exact ⟨_, rfl⟩
  | some shape =>
    rw [find_ok found]
    obtain ⟨p, bound, absent⟩ := astray.resolve_left (not_not.mpr (mem_of_found found))
    have above : shape.links.parent = some p := (parent?_eq found).symm.trans bound
    have nowhere : r[p]? = none := by simp [absent]
    refine ⟨.unknownShape p, ?_⟩
    simp [bind, Except.bind, above, find_missing nowhere]

theorem placement_settled (settled : ¬ r.Astray id) :
    ∃ placed, r.placement id = .ok placed ∧ (placed.attributes.map (·.name)).Nodup := by
  obtain ⟨present, above⟩ := not_or.mp settled
  obtain ⟨shape, found⟩ := found_of_mem (not_not.mp present)
  refine ⟨_, placement_found found fun p bound => ?_, look?_once (look?_found found)⟩
  by_contra absent
  exact above ⟨p, (parent?_eq found).trans bound, absent⟩

end Registry

-- Whatever the records are and whatever edits were made. Words, records, tasks and shown texts stay as they are, and a
-- failure leaves the scene as it is too.
theorem Session.render_settles (s : Session Scene) (edits : List Edit) (id : String) :
    let before : Session Scene := { s with surface := Surface.applyAll edits Scene.initial }
    (s.shapes.Astray id ↔ ∃ fault, render id before = .error fault before) ∧
      (¬ s.shapes.Astray id ↔ ∃ scene, render id before = .ok () { before with surface := scene } ∧
        render id { before with surface := scene } = .ok () { before with surface := scene }) := by
  intro before
  by_cases astray : s.shapes.Astray id
  · obtain ⟨fault, refused⟩ := astray.placement_error
    have failed : render id before = .error fault before := render_refused refused
    refine ⟨iff_of_true astray ⟨fault, failed⟩, iff_of_false (not_not.mpr astray) ?_⟩
    rintro ⟨scene, ran, _⟩
    cases failed.symm.trans ran
  · obtain ⟨placed, found, once⟩ := Registry.placement_settled astray
    let scene := Surface.place placed.kind id placed.attributes placed.container before.surface
    have first : render id before = .ok () { before with surface := scene } := render_placed found
    have again : Surface.place placed.kind id placed.attributes placed.container scene = scene :=
      Scene.place_place (Scene.linked_initial.applyAll edits)
        (Scene.applyAll_rooted Scene.linked_initial Scene.rooted_initial edits) once
    have second : render id { before with surface := scene } = .ok () { before with surface := scene } := by
      rw [render_placed (s := { before with surface := scene }) found, again]
    refine ⟨iff_of_false astray ?_, iff_of_true astray ⟨scene, first, second⟩⟩
    rintro ⟨fault, failed⟩
    cases failed.symm.trans first

end Diorama
