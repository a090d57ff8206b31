import Diorama.Proofs.Orders

namespace Diorama

namespace Registry

variable {r : Registry} {id p c a b : String} {removed parent child : Shape}

theorem Ends.parent_ne_child (ends : r.Ends a) (first : r.parent? a = some b) : r.parent? b ≠ some a := by
  intro second
  exact ends.acyclic first (.up second .here)

structure Parted (r r' : Registry) (id : String) (removed : Shape) : Prop where
  gone : id ∉ r'
  -- the list of its parent is the old one without it
  parent : ∀ p, removed.links.parent = some p → ∃ parent, r[p]? = some parent ∧
    r'[p]? = some { parent with links.children := parent.links.children.filter (· != id) }
  -- a child is bound to nothing and stays where it was drawn
  child : ∀ c ∈ removed.links.children, ∃ child after, r[c]? = some child ∧ r'[c]? = some after ∧
    after.position = (child.position.1 + removed.position.1, child.position.2 + removed.position.2) ∧
    after = { child.moveTo after.position with links.parent := none } ∧
    r.placement c = .ok ⟨after.kind, after.nodeAttributes after.geometry, groupId id c⟩
  other : ∀ x, x ≠ id → removed.links.parent ≠ some x → x ∉ removed.links.children → r'[x]? = r[x]?

theorem Forest.parent_cutOut (forest : r.Forest) (found : r[id]? = some removed) (above : removed.links.parent = some p)
    (upper : r[p]? = some parent) :
    (r.cutOut id removed)[p]? = some { parent with links.children := parent.links.children.filter (· != id) } := by
  have bound : r.parent? id = some p := (parent?_eq found).trans above
  have apart : id ≠ p := ((forest.ends id).parent_ne bound).symm
  have unlisted : p ∉ removed.links.children := by
    rw [← children_eq found, forest.mirrored]
    exact (forest.ends id).parent_ne_child bound
  rw [forest.getElem?_cutOut found, if_neg apart, upper]
  simp only [Option.map_some, severed, above, unlisted, if_true, if_false]

theorem Forest.listed_cutOut (forest : r.Forest) (found : r[id]? = some removed) (bound : r.parent? c = some id)
    (lower : r[c]? = some child) :
    (r.cutOut id removed)[c]? = some { child.moveBy removed.position with links.parent := none } := by
  have listed : c ∈ removed.links.children := by
    rw [← children_eq found, forest.mirrored]
    exact bound
  have apart : id ≠ c := (forest.ends c).parent_ne bound
  have upper : removed.links.parent ≠ some c := by
    rw [← parent?_eq found]
    exact (forest.ends c).parent_ne_child bound
  rw [forest.getElem?_cutOut found, if_neg apart, lower]
  simp only [Option.map_some, severed, listed, upper, if_true, if_false]

theorem Forest.placement_listed (forest : r.Forest) (found : r[id]? = some removed)
    (bound : child.links.parent = some id) (lower : r[c]? = some child) : r.placement c =
      .ok ⟨child.kind, child.nodeAttributes (child.geometry.moveBy removed.position), groupId id c⟩ := by
  -- what moves a child is the sum that drew it
  have absolute : r.absolute child = child.geometry.moveBy removed.position := by
    simp [Registry.absolute, bound, found]
  rw [forest.placement_ok lower, absolute, bound]
  rfl

theorem Forest.parted (forest : r.Forest) (found : r[id]? = some removed) :
    r.Parted (r.cutOut id removed) id removed := by
  constructor
  case gone =>
    intro present
    exact ((forest.mem_cutOut found).mp present).1 rfl
  case parent =>
    intro p above
    obtain ⟨parent, upper⟩ := found_of_mem (forest.parent_mem ((parent?_eq found).trans above))
    exact ⟨parent, upper, forest.parent_cutOut found above upper⟩
  case child =>
    intro c listed
    have bound : r.parent? c = some id := by
      rw [← forest.mirrored, children_eq found]
      exact listed
    obtain ⟨child, lower⟩ := found_of_mem (mem_of_parent bound)
    have placed := forest.placement_listed found ((parent?_eq lower).symm.trans bound) lower
    have position : (child.moveBy removed.position).position =
        (child.position.1 + removed.position.1, child.position.2 + removed.position.2) :=
      Geometry.position_moveBy _ _
    refine ⟨child, _, lower, forest.listed_cutOut found bound lower, position, ?_, ?_⟩
    · show _ = { child.moveTo (child.moveBy removed.position).position with links.parent := none }
      rw [position]
      rfl
    · have kind : (child.moveBy removed.position).kind = child.kind := Geometry.kind_moveTo _ _
      rw [placed, ← kind]
      rfl
  case other =>
    intro x apart upper unlisted
    refine forest.getElem?_cutOut_apart found apart ?_
    rw [List.mem_append, Option.mem_toList]
    rintro (below | above)
    · exact unlisted below
    · exact upper above

end Registry

def Command.Removes (id text : String) : Prop :=
  ∃ head name finish, tokenize 1 text = .ok [head, name, finish] ∧ head.kind = .word Verb.remove.word ∧ name.name = id

theorem Command.Removes.parseLine {id text : String} (removes : Removes id text) :
    Diorama.parseLine 1 text = .ok ([.string id] ++ [.word Primitive.remove.name]) := by
  obtain ⟨head, name, finish, read, word, rfl⟩ := removes
  have row : tokenize 1 text = .ok ([head, name] ++ [finish]) := read
  rw [parseLine_tokens row, ofTokens_verb word]
  rfl

namespace Session

variable {σ : Type} [Surface σ] {surface : σ} {s : Session σ} {id text : String} {removed : Shape}

theorem execLine_remove (sound : s.Sound) (found : s.shapes[id]? = some removed)
    (kept : s.words[Verb.remove.word]? = Library.standard.load[Verb.remove.word]?) (removes : Command.Removes id text) :
    s.execLine text = (.ok [], s.removed id removed) := by
  have means : s.words[Primitive.remove.name]? = some (.primitive .remove) :=
    kept.trans (Library.load_name (p := .remove) rfl)
  have data : ∀ v ∈ [Value.string id], v.IsData := by
    intro v member
    rw [List.mem_singleton.mp member]
    trivial
  have ran : s.exec ([.string id] ++ [.word Primitive.remove.name]) = (.ok [], s.removed id removed) := by
    rw [exec_operands data means]
    exact run_remove sound found (.inl rfl)
  unfold execLine
  rw [removes.parseLine]
  simp only [ran]
  rfl

-- Removing a registered shape succeeds, as a word on a stack and as a line. It edits the records of the
-- neighbours and no other; the words and the tasks stay as they are.
theorem remove_parted (reached : Reachable surface s) (found : s.shapes[id]? = some removed) :
    ∃ s', (∀ top rest, top = .string id ∨ top = .symbol id →
        s.run [.primitive .remove] 0 (top :: rest) = (.ok rest, s')) ∧
      (s.words[Verb.remove.word]? = Library.standard.load[Verb.remove.word]? → ∀ text, Command.Removes id text →
        s.execLine text = (.ok [], s')) ∧
      s.shapes.Parted s'.shapes id removed ∧ s'.words = s.words ∧ s'.timeline = s.timeline := by
  have sound := reached.sound
  refine ⟨s.removed id removed, ?_, ?_, sound.forest.parted found, rfl, rfl⟩
  · intro top rest names
    exact run_remove sound found names
  · intro kept text removes
    exact execLine_remove sound found kept removes

theorem remove_parted_planet : Reachable Scene.initial Sample.solarSession ∧
    Sample.solarSession.words = Library.standard.load ∧ Command.Removes "planet" "remove planet" ∧
    ∃ planet, Sample.solarSession.shapes["planet"]? = some planet ∧ planet.links = ⟨some "sun", ["moon"]⟩ ∧
      ∃ s', Sample.solarSession.execLine "remove planet" = (.ok [], s') ∧
        Sample.solarSession.shapes.Parted s'.shapes "planet" planet ∧
        s'.words = Sample.solarSession.words ∧ s'.timeline = Sample.solarSession.timeline := by
  have reached := Sample.solar_arranged.reachable
  have words := Sample.solar_arranged.inSync.1
  have removes : Command.Removes "planet" "remove planet" :=
    ⟨⟨.word "remove", "remove", ⟨1, 1⟩⟩, ⟨.word "planet", "planet", ⟨1, 8⟩⟩, ⟨.finish, "", ⟨1, 14⟩⟩,
      by decide +kernel, rfl, rfl⟩
  have linked : Sample.solarSession.shapes["planet"]?.map (·.links) = some ⟨some "sun", ["moon"]⟩ := by
    decide +kernel
  obtain ⟨planet, found, links⟩ := Option.map_eq_some_iff.mp linked
  obtain ⟨s', _, lines, parted, same, tasks⟩ := remove_parted reached found
  exact ⟨reached, words, removes, planet, found, links, s', lines (by rw [words]) _ removes, parted, same, tasks⟩

end Session
end Diorama
