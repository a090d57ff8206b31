import Diorama.Proofs.Looks

namespace Diorama.Scene

variable {s s' : Scene} {id x k : String} {ids : List String} {kind : Kind} {attributes : List Attribute}
  {f : Node → Node} {g : List String → List String}

structure Linked (s : Scene) : Prop where
  mirrored : ∀ x k, x ∈ s.children k ↔ s.container? x = some k
  once : ∀ k, (s.children k).Nodup
  root : s.container? rootId = none
  group : s.kindOf? rootId = some .group

theorem mem_of_kind {found : NodeKind} (known : s.kindOf? x = some found) : x ∈ s.nodes := by
  by_contra absent
  simp [kindOf?, absent] at known

theorem mem_of_container (inside : s.container? x = some k) : x ∈ s.nodes := by
  by_contra absent
  simp [container?, absent] at inside

theorem mem_of_child (listed : x ∈ s.children k) : k ∈ s.nodes := by
  by_contra absent
  simp [children, absent] at listed

theorem kindOf?_congr (same : s'.look? x = s.look? x) : s'.kindOf? x = s.kindOf? x := by
  rw [kindOf?_eq, same, kindOf?_eq]

theorem Linked.congr (linked : s.Linked) (containers : ∀ x, s'.container? x = s.container? x)
    (lists : ∀ k, s'.children k = s.children k) (group : s'.kindOf? rootId = some .group) : s'.Linked := by
  constructor
  · intro x k
    rw [lists, containers]
    exact linked.mirrored x k
  · intro k
    rw [lists]
    exact linked.once k
  · exact (containers rootId).trans linked.root
  · exact group

theorem linked_initial : initial.Linked := by
  have only (x : String) : initial.nodes[x]? = if rootId = x then some (.new .group) else none := by
    simp [initial, Std.ExtTreeMap.getElem?_insert]
  constructor
  · intro x k
    simp only [children, container?, only]
    split <;> split <;> simp [Node.new]
  · intro k
    simp only [children, only]
    split <;> simp [Node.new]
  · simp [container?, only, Node.new]
  · simp [kindOf?, only, Node.new]

theorem container?_modify : container? ⟨s.nodes.modify id f⟩ x =
    if id = x then s.nodes[id]?.bind fun n => (f n).parent else s.container? x := by
  simp only [container?, Std.ExtTreeMap.getElem?_modify, Std.compare_eq_iff_eq]
  split
  · cases s.nodes[id]? <;> rfl
  · rfl

theorem container?_modify_kept (kept : ∀ n, (f n).parent = n.parent) :
    container? ⟨s.nodes.modify id f⟩ x = s.container? x := by
  rw [container?_modify]
  split
  · subst x
    simp only [kept]
    rfl
  · rfl

theorem children_modify (acts : ∀ n, (f n).children = g n.children) (present : id ∈ s.nodes) :
    children ⟨s.nodes.modify id f⟩ k = if id = k then g (s.children id) else s.children k := by
  have found := Std.ExtTreeMap.getElem?_eq_some_getElem present
  simp only [children, Std.ExtTreeMap.getElem?_modify, Std.compare_eq_iff_eq]
  split
  · simp [found, acts]
  · rfl

theorem children_modify_kept (kept : ∀ n, (f n).children = n.children) :
    children ⟨s.nodes.modify id f⟩ k = s.children k := by
  by_cases present : id ∈ s.nodes
  · rw [children_modify (g := fun cs => cs) kept present]
    split
    · subst k
      rfl
    · rfl
  · simp only [children, Std.ExtTreeMap.getElem?_modify, Std.compare_eq_iff_eq]
    split
    · subst k
      simp [present]
    · rfl

theorem container?_detach : (s.detach id).container? x = if id = x then none else s.container? x := by
  unfold detach
  split
  · rename_i free
    split
    · subst x
      exact free
    · rfl
  · rw [container?_modify_kept (by exact fun _ => rfl), container?_modify]
    split
    · cases s.nodes[id]? <;> rfl
    · rfl

theorem Linked.children_detach (linked : s.Linked) : (s.detach id).children k = (s.children k).filter (· != id) := by
  have apart (unlisted : s.container? id ≠ some k) : s.children k = (s.children k).filter (· != id) := by
    symm
    apply List.filter_eq_self.mpr
    intro c listed
    have other : c ≠ id := by
      rintro rfl
      exact unlisted ((linked.mirrored c k).mp listed)
    simpa using other
  unfold detach
  split
  · rename_i free
    exact apart (by simp [free])
  · rename_i p inside
    let freed : Scene := ⟨s.nodes.modify id fun n => { n with parent := none }⟩
    have kept (k : String) : freed.children k = s.children k := children_modify_kept (by exact fun _ => rfl)
    have there : p ∈ freed.nodes := by
      apply mem_of_child (x := id)
      rw [kept]
      exact (linked.mirrored id p).mpr inside
    refine (children_modify (s := freed) (g := List.filter (· != id)) (by exact fun _ => rfl) there).trans ?_
    rw [kept, kept]
    split
    · subst k
      rfl
    · rename_i other
      exact apart (by simpa [inside] using other)

theorem Linked.detach (linked : s.Linked) : (s.detach id).Linked := by
  constructor
  · intro x k
    rw [linked.children_detach, container?_detach]
    have old := linked.mirrored x k
    grind
  · intro k
    rw [linked.children_detach]
    exact (linked.once k).filter _
  · rw [container?_detach, linked.root, ite_self]
  · exact (kindOf?_congr look?_detach).trans linked.group

theorem accepts_iff : s.accepts k id = true ↔
    id ≠ rootId ∧ id ∈ s.nodes ∧ s.kindOf? k = some .group ∧ s.isWithin k id = false := by
  simp [accepts, and_assoc]

theorem isWithin_root (top : s.container? rootId = none) (apart : x ≠ rootId) : s.isWithin rootId x = false := by
  simp [isWithin, withinSteps, top, Ne.symm apart]

theorem isWithin_of_root (top : s.container? rootId = none) (inside : s.container? k = some rootId) (apart : x ≠ k)
    (inner : x ≠ rootId) : s.isWithin k x = false := by
  simp only [isWithin, withinSteps, inside]
  cases s.size <;> simp [withinSteps, top, Ne.symm apart, Ne.symm inner]

theorem accepts_root (linked : s.Linked) (inner : id ≠ rootId) (present : id ∈ s.nodes) :
    s.accepts rootId id = true :=
  accepts_iff.mpr ⟨inner, present, linked.group, isWithin_root linked.root inner⟩

theorem appendChild_refused (refused : s.accepts k id = false) : s.appendChild k id = s := by
  simp [appendChild, refused]

section Appending

variable (accepted : s.accepts k id = true)

include accepted

theorem container?_appendChild : (s.appendChild k id).container? x = if id = x then some k else s.container? x := by
  obtain ⟨_, present, _, _⟩ := accepts_iff.mp accepted
  unfold appendChild
  rw [if_pos accepted]
  let listed : Scene := ⟨(s.detach id).nodes.modify k fun n => { n with children := n.children ++ [id] }⟩
  have there : id ∈ listed.nodes := by
    apply Std.ExtTreeMap.mem_modify.mpr
    rw [mem_iff_look, look?_detach, ← mem_iff_look]
    exact present
  have kept : listed.container? x = if id = x then none else s.container? x :=
    (container?_modify_kept (by exact fun _ => rfl)).trans container?_detach
  refine (container?_modify (s := listed)).trans ?_
  rw [kept, Std.ExtTreeMap.getElem?_eq_some_getElem there]
  split <;> rfl

theorem children_appendChild : (s.appendChild k id).children x =
    if k = x then (s.detach id).children k ++ [id] else (s.detach id).children x := by
  obtain ⟨_, _, group, _⟩ := accepts_iff.mp accepted
  have there : k ∈ (s.detach id).nodes := by
    rw [mem_iff_look, look?_detach, ← mem_iff_look]
    exact mem_of_kind group
  unfold appendChild
  rw [if_pos accepted]
  exact (children_modify_kept (by exact fun _ => rfl)).trans
    (children_modify (g := fun cs => cs ++ [id]) (by exact fun _ => rfl) there)

end Appending

theorem Linked.appendChild (linked : s.Linked) (k id : String) : (s.appendChild k id).Linked := by
  cases accepted : s.accepts k id with
  | false =>
    rw [appendChild_refused accepted]
    exact linked
  | true =>
    have inner := (accepts_iff.mp accepted).1
    constructor
    · intro x y
      rw [children_appendChild accepted, container?_appendChild accepted, linked.children_detach,
        linked.children_detach]
      have old := linked.mirrored x y
      grind
    · intro y
      rw [children_appendChild accepted, linked.children_detach, linked.children_detach]
      split
      · refine List.nodup_append.mpr ⟨(linked.once k).filter _, by simp, ?_⟩
        intro c listed d last same
        simp_all
      · exact (linked.once y).filter _
    · rw [container?_appendChild accepted, if_neg inner]
      exact linked.root
    · exact (kindOf?_congr look?_appendChild).trans linked.group

theorem container?_createNode : (s.createNode kind id).container? x = s.container? x := by
  unfold createNode
  split
  · rfl
  · split
    · rename_i n found
      simp only [container?, Std.ExtTreeMap.getElem?_insert, Std.compare_eq_iff_eq]
      split
      · subst x
        simp [found]
      · rfl
    · rename_i absent
      simp only [container?, Std.ExtTreeMap.getElem?_insert, Std.compare_eq_iff_eq]
      split
      · subst x
        simp [absent, Node.new]
      · rfl

theorem children_createNode : (s.createNode kind id).children k = s.children k := by
  unfold createNode
  split
  · rfl
  · split
    · rename_i n found
      simp only [children, Std.ExtTreeMap.getElem?_insert, Std.compare_eq_iff_eq]
      split
      · subst k
        simp [found]
      · rfl
    · rename_i absent
      simp only [children, Std.ExtTreeMap.getElem?_insert, Std.compare_eq_iff_eq]
      split
      · subst k
        simp [absent, Node.new]
      · rfl

theorem kindOf?_root_createNode (group : s.kindOf? rootId = some .group) :
    (s.createNode kind id).kindOf? rootId = some .group := by
  by_cases inner : id = rootId
  · rw [inner, createNode_root]
    exact group
  · rw [kindOf?_congr (look?_createNode_apart (Ne.symm inner))]
    exact group

theorem container?_createGroup : (s.createGroup id).container? x = s.container? x := by
  simp only [createGroup, container?, Std.ExtTreeMap.getElem?_insertIfNew, Std.compare_eq_iff_eq]
  split
  · rename_i new
    obtain ⟨rfl, absent⟩ := new
    simp [absent, Node.new]
  · rfl

theorem children_createGroup : (s.createGroup id).children k = s.children k := by
  simp only [createGroup, children, Std.ExtTreeMap.getElem?_insertIfNew, Std.compare_eq_iff_eq]
  split
  · rename_i new
    obtain ⟨rfl, absent⟩ := new
    simp [absent, Node.new]
  · rfl

theorem kindOf?_createGroup (free : s.look? k = none ∨ s.kindOf? k = some .group) :
    (s.createGroup k).kindOf? k = some .group := by
  rw [kindOf?_eq, look?_createGroup, if_pos rfl]
  rcases free with absent | group
  · rw [absent]
    rfl
  · obtain ⟨old, there, known⟩ := Option.map_eq_some_iff.mp (kindOf?_eq.symm.trans group)
    rw [there]
    exact congrArg some known

theorem Linked.createNode (linked : s.Linked) (kind : Kind) (id : String) : (s.createNode kind id).Linked :=
  linked.congr (fun _ => container?_createNode) (fun _ => children_createNode) (kindOf?_root_createNode linked.group)

theorem Linked.createGroup (linked : s.Linked) (id : String) : (s.createGroup id).Linked := by
  refine linked.congr (fun _ => container?_createGroup) (fun _ => children_createGroup) ?_
  have present := linked.group
  simp only [kindOf?, Scene.createGroup, Std.ExtTreeMap.getElem?_insertIfNew, Std.compare_eq_iff_eq] at present ⊢
  split
  · rename_i new
    obtain ⟨rfl, absent⟩ := new
    rfl
  · exact present

theorem container?_setAttributes : (s.setAttributes id attributes).container? x = s.container? x :=
  container?_modify_kept fun _ => rfl

theorem children_setAttributes : (s.setAttributes id attributes).children k = s.children k :=
  children_modify_kept fun _ => rfl

theorem kindOf?_setAttributes : (s.setAttributes id attributes).kindOf? x = s.kindOf? x := by
  simp only [kindOf?, setAttributes, Std.ExtTreeMap.getElem?_modify, Std.compare_eq_iff_eq]
  split
  · subst x
    cases s.nodes[id]? <;> rfl
  · rfl

theorem Linked.setAttributes (linked : s.Linked) (id : String) (attributes : List Attribute) :
    (s.setAttributes id attributes).Linked :=
  linked.congr (fun _ => container?_setAttributes) (fun _ => children_setAttributes)
    (kindOf?_setAttributes.trans linked.group)

def adopted (s : Scene) (child : String) : Scene :=
  appendChild rootId child ⟨s.nodes.modify child fun c => { c with parent := none }⟩

theorem look?_adopted {child : String} : (s.adopted child).look? x = s.look? x :=
  look?_appendChild.trans (look?_modify_kept fun _ => rfl)

section Adopting

variable {child : String} (top : s.container? rootId = none) (group : s.kindOf? rootId = some .group)

include top group

theorem adopted_accepts (inner : child ≠ rootId) (present : child ∈ s.nodes) :
    accepts ⟨s.nodes.modify child fun c => { c with parent := none }⟩ rootId child = true := by
  refine accepts_iff.mpr ⟨inner, Std.ExtTreeMap.mem_modify.mpr present, ?_, isWithin_root ?_ inner⟩
  · exact (kindOf?_congr (look?_modify_kept (by exact fun _ => rfl))).trans group
  · rw [container?_modify, if_neg inner]
    exact top

theorem container?_adopted (inner : child ≠ rootId) (present : child ∈ s.nodes) :
    (s.adopted child).container? x = if child = x then some rootId else s.container? x := by
  refine (container?_appendChild (adopted_accepts top group inner present)).trans ?_
  split
  · rfl
  · rename_i other
    rw [container?_modify, if_neg other]

theorem children_adopted (inner : child ≠ rootId) (present : child ∈ s.nodes) :
    (s.adopted child).children k = if rootId = k then s.children rootId ++ [child] else s.children k := by
  let freed : Scene := ⟨s.nodes.modify child fun c => { c with parent := none }⟩
  have kept (k : String) : freed.children k = s.children k := children_modify_kept (by exact fun _ => rfl)
  have free : freed.container? child = none := by
    rw [container?_modify, if_pos rfl]
    cases s.nodes[child]? <;> rfl
  have same : freed.detach child = freed := by
    unfold detach
    rw [free]
  refine (children_appendChild (adopted_accepts top group inner present)).trans ?_
  change (if rootId = k then (freed.detach child).children rootId ++ [child] else (freed.detach child).children k) = _
  rw [same, kept, kept]

theorem adopted_all (inner : ∀ c ∈ ids, c ≠ rootId) (present : ∀ c ∈ ids, c ∈ s.nodes) :
    (∀ x, (ids.foldl adopted s).container? x = if x ∈ ids then some rootId else s.container? x) ∧
      ∀ k, (ids.foldl adopted s).children k = if rootId = k then s.children rootId ++ ids else s.children k := by
  -- by induction on the children: the root stays where it is, so it goes on accepting them
  induction ids generalizing s with
  | nil => simp
  | cons c rest ih =>
    have first := inner c (by simp)
    have there := present c (by simp)
    have moved (x : String) := container?_adopted (x := x) top group first there
    have listed (k : String) := children_adopted (k := k) top group first there
    have later : ∀ d ∈ rest, d ∈ (s.adopted c).nodes := by
      intro d member
      rw [mem_iff_look, look?_adopted, ← mem_iff_look]
      exact present d (by simp [member])
    obtain ⟨containers, lists⟩ := ih (s := s.adopted c) ((moved rootId).trans (by rw [if_neg first, top]))
      ((kindOf?_congr look?_adopted).trans group) (fun d member => inner d (by simp [member])) later
    constructor
    · intro x
      rw [List.foldl_cons, containers, moved]
      grind
    · intro k
      rw [List.foldl_cons, lists, listed, listed, if_pos rfl]
      split <;> simp

end Adopting

theorem deleteNode_found {n : Node} (inner : id ≠ rootId) (found : (s.detach id).nodes[id]? = some n) :
    s.deleteNode id = n.children.foldl adopted ⟨(s.detach id).nodes.erase id⟩ := by
  simp only [deleteNode, if_neg inner, found]
  rfl

theorem deleteNode_missing (inner : id ≠ rootId) (absent : (s.detach id).nodes[id]? = none) :
    s.deleteNode id = s.detach id := by
  simp only [deleteNode, if_neg inner, absent]

theorem Linked.deleteNode_links (linked : s.Linked) (inner : id ≠ rootId) :
    (∀ x, (s.deleteNode id).container? x = if id = x then none else
      if s.container? x = some id then some rootId else s.container? x) ∧
    ∀ k, (s.deleteNode id).children k = if id = k then [] else
      if rootId = k then (s.children rootId).filter (· != id) ++ (s.children id).filter (· != id)
      else (s.children k).filter (· != id) := by
  have freed : (s.detach id).Linked := linked.detach
  cases found : (s.detach id).nodes[id]? with
  | none =>
    have empty : (s.detach id).children id = [] := by simp [children, found]
    have unlisted : (s.children id).filter (· != id) = [] := linked.children_detach.symm.trans empty
    rw [deleteNode_missing inner found]
    constructor
    · intro x
      rw [container?_detach]
      split
      · rfl
      · rename_i other
        have outside : s.container? x ≠ some id := by
          intro inside
          have listed : x ∈ (s.children id).filter (· != id) := by
            simpa [Ne.symm other] using (linked.mirrored x id).mpr inside
          simp [unlisted] at listed
        rw [if_neg outside]
    · intro k
      rw [linked.children_detach, unlisted, List.append_nil]
      by_cases same : id = k
      · subst k
        rw [if_pos rfl, unlisted]
      · rw [if_neg same]
        split
        · subst k
          rfl
        · rfl
  | some n =>
    let left : Scene := ⟨(s.detach id).nodes.erase id⟩
    have listed : n.children = (s.children id).filter (· != id) := by
      rw [← linked.children_detach]
      simp [children, found]
    have containers (x : String) : left.container? x = if id = x then none else s.container? x := by
      rw [← container?_detach]
      simp only [left, container?, Std.ExtTreeMap.getElem?_erase, Std.compare_eq_iff_eq]
      split
      · subst x
        exact (container?_detach.trans (if_pos rfl)).symm
      · rfl
    have lists (k : String) : left.children k = if id = k then [] else (s.children k).filter (· != id) := by
      rw [← linked.children_detach]
      simp only [left, children, Std.ExtTreeMap.getElem?_erase, Std.compare_eq_iff_eq]
      split <;> rfl
    have members (c : String) : c ∈ n.children ↔ s.container? c = some id ∧ id ≠ c := by
      rw [listed, List.mem_filter, linked.mirrored]
      grind
    have group : left.kindOf? rootId = some .group := by
      have kept := freed.group
      simpa [left, kindOf?, Std.ExtTreeMap.getElem?_erase, inner] using kept
    have top : left.container? rootId = none := by
      rw [containers, if_neg inner, linked.root]
    have lower : ∀ c ∈ n.children, c ≠ rootId := by
      rintro c member rfl
      have inside := ((members rootId).mp member).1
      rw [linked.root] at inside
      cases inside
    have present : ∀ c ∈ n.children, c ∈ left.nodes := by
      intro c member
      obtain ⟨inside, other⟩ := (members c).mp member
      apply mem_of_container (k := id)
      rw [containers, if_neg other, inside]
    obtain ⟨moved, appended⟩ := adopted_all top group lower present
    rw [deleteNode_found inner found]
    constructor
    · intro x
      rw [moved, containers]
      have mine := members x
      grind
    · intro k
      rw [appended, lists, lists, listed, if_neg inner]
      grind

theorem Linked.deleteNode (linked : s.Linked) (id : String) : (s.deleteNode id).Linked := by
  by_cases inner : id = rootId
  · rw [inner, deleteNode_root]
    exact linked
  obtain ⟨containers, lists⟩ := linked.deleteNode_links inner
  have top := linked.root
  constructor
  · intro x k
    rw [containers, lists]
    have here := linked.mirrored x k
    have below := linked.mirrored x id
    grind
  · intro k
    rw [lists]
    split
    · exact List.nodup_nil
    · split
      · refine List.nodup_append.mpr ⟨(linked.once rootId).filter _, (linked.once id).filter _, ?_⟩
        intro c first d second same
        subst d
        have above := (linked.mirrored c rootId).mp (List.mem_filter.mp first).1
        have below := (linked.mirrored c id).mp (List.mem_filter.mp second).1
        exact inner (Option.some.inj (below.symm.trans above))
      · exact (linked.once k).filter _
  · rw [containers]
    grind
  · exact (kindOf?_congr (look?_deleteNode_apart (Ne.symm inner))).trans linked.group

theorem Linked.removeChild (linked : s.Linked) (k id : String) : (s.removeChild k id).Linked := by
  unfold Scene.removeChild
  split
  · exact linked.detach
  · exact linked

theorem Linked.apply (linked : s.Linked) (e : Edit) : (s.apply e).Linked := by
  cases e with
  | createNode kind id => exact linked.createNode kind id
  | createGroup id => exact linked.createGroup id
  | setAttributes id attributes => exact linked.setAttributes id attributes
  | appendChild container id => exact linked.appendChild container id
  | removeChild container id => exact linked.removeChild container id
  | deleteNode id => exact linked.deleteNode id

theorem Linked.applyAll (linked : s.Linked) (edits : List Edit) : Linked (Surface.applyAll edits s) := by
  induction edits generalizing s with
  | nil => exact linked
  | cons e rest ih => exact ih (linked.apply e)

def Stands (s : Scene) (k : String) : Prop := s.kindOf? k = some .group ∧ s.container? k = some rootId

theorem Stands.accepts (linked : s.Linked) (stands : s.Stands k) (apart : x ≠ k) (inner : x ≠ rootId)
    (present : x ∈ s.nodes) : s.accepts k x = true :=
  accepts_iff.mpr ⟨inner, present, stands.1, isWithin_of_root linked.root stands.2 apart inner⟩

-- A group is put into the root unless it is there, and two nodes are moved into it.
def joined (group first second : String) (s : Scene) : Scene :=
  Surface.applyAll [.createGroup group, .appendChild rootId group, .appendChild group first,
    .appendChild group second] s

theorem look?_joined {a b : String} (apart : x ≠ k) : (s.joined k a b).look? x = s.look? x := by
  have made : (s.createGroup k).look? x = s.look? x := by rw [look?_createGroup, if_neg apart.symm]
  exact look?_appendChild.trans (look?_appendChild.trans (look?_appendChild.trans made))

theorem Stands.appendChild (linked : s.Linked) (stands : s.Stands k) (apart : x ≠ k) (inner : x ≠ rootId)
    (present : x ∈ s.nodes) : (s.appendChild k x).Stands k ∧
      ∀ y, (s.appendChild k x).container? y = if x = y then some k else s.container? y := by
  have containers (y : String) := container?_appendChild (x := y) (stands.accepts linked apart inner present)
  refine ⟨⟨(kindOf?_congr look?_appendChild).trans stands.1, ?_⟩, containers⟩
  rw [containers, if_neg apart]
  exact stands.2

theorem Linked.stands_createGroup (linked : s.Linked) (inner : k ≠ rootId)
    (free : s.look? k = none ∨ s.kindOf? k = some .group) :
    ((s.createGroup k).appendChild rootId k).Stands k ∧
      ∀ x, x ≠ k → ((s.createGroup k).appendChild rootId k).container? x = s.container? x := by
  have kind : (s.createGroup k).kindOf? k = some .group := kindOf?_createGroup free
  have accepted := accepts_root (linked.createGroup k) inner (mem_of_kind kind)
  refine ⟨⟨(kindOf?_congr look?_appendChild).trans kind, ?_⟩, fun x apart => ?_⟩
  · rw [container?_appendChild accepted, if_pos rfl]
  · rw [container?_appendChild accepted, if_neg (Ne.symm apart), container?_createGroup]

theorem Linked.joined_links {a b : String} (linked : s.Linked) (inner : k ≠ rootId)
    (free : s.look? k = none ∨ s.kindOf? k = some .group)
    (ends : ∀ x, x = a ∨ x = b → x ≠ k ∧ x ≠ rootId ∧ x ∈ s.nodes) : (s.joined k a b).Stands k ∧
      ∀ x, x ≠ k → (s.joined k a b).container? x = if b = x ∨ a = x then some k else s.container? x := by
  let made := (s.createGroup k).appendChild rootId k
  obtain ⟨apart, lower, present⟩ := ends a (.inl rfl)
  obtain ⟨apart', lower', present'⟩ := ends b (.inr rfl)
  have there (x : String) (other : x ≠ k) (present : x ∈ s.nodes) : x ∈ made.nodes := by
    rw [mem_iff_look, look?_appendChild, look?_createGroup, if_neg other.symm, ← mem_iff_look]
    exact present
  obtain ⟨stands, still⟩ := linked.stands_createGroup inner free
  have ready : made.Linked := (linked.createGroup k).appendChild rootId k
  obtain ⟨between, moved⟩ := stands.appendChild ready apart lower (there a apart present)
  have inside : b ∈ (made.appendChild k a).nodes := by
    rw [mem_iff_look, look?_appendChild, ← mem_iff_look]
    exact there b apart' present'
  obtain ⟨stands, moved'⟩ := between.appendChild (ready.appendChild k a) apart' lower' inside
  refine ⟨stands, fun x other => (moved' x).trans ?_⟩
  rw [moved, still x other]
  grind

theorem Linked.ensureNode (linked : s.Linked) (kind : Kind) (id : String) : Linked (Surface.ensureNode kind id s) := by
  unfold Surface.ensureNode
  split
  · split
    · exact linked
    · exact linked.applyAll _
  · exact linked.apply _

theorem Linked.container?_ensureNode (linked : s.Linked) (inner : id ≠ rootId)
    (childless : s.container? x ≠ some id) (apart : x ≠ id) :
    container? (Surface.ensureNode kind id s) x = s.container? x := by
  unfold Surface.ensureNode
  split
  · split
    · rfl
    · refine container?_createNode.trans (((linked.deleteNode_links inner).1 x).trans ?_)
      rw [if_neg (Ne.symm apart), if_neg childless]
  · exact container?_createNode

theorem Linked.container?_deleteNodes (linked : s.Linked) (inner : rootId ∉ ids) (kept : x ∉ ids)
    (inside : s.container? x = some k) :
    container? (Surface.applyAll (ids.map Edit.deleteNode) s) x = some k ∨
      container? (Surface.applyAll (ids.map Edit.deleteNode) s) x = some rootId := by
  induction ids generalizing s k with
  | nil => exact .inl inside
  | cons id ids ih =>
    simp only [List.mem_cons, not_or] at inner kept
    have moved := (linked.deleteNode_links (Ne.symm inner.1)).1 x
    rw [if_neg (Ne.symm kept.1), inside] at moved
    split at moved
    · exact .inr (or_self_iff.mp (ih (linked.deleteNode id) inner.2 kept.2 moved))
    · exact ih (linked.deleteNode id) inner.2 kept.2 moved

theorem mem_deleteNodes (inner : rootId ∉ ids) :
    x ∈ (Surface.applyAll (ids.map Edit.deleteNode) s).nodes ↔ x ∈ s.nodes ∧ x ∉ ids := by
  by_cases listed : x ∈ ids
  · have lower : x ≠ rootId := fun same => inner (same ▸ listed)
    simp [mem_iff_look, look?_deleteNodes_gone lower (.inl listed), listed]
  · simp [mem_iff_look, look?_deleteNodes listed, listed]

end Diorama.Scene
