import Diorama.Proofs.Timeline
import Mathlib.Data.List.Sort
import Mathlib.Data.Set.Card

namespace Diorama

theorem Duration.plus_short {a b : Nat} (short : a + b < longest) : plus a b = a + b :=
  Nat.min_eq_left (Nat.le_of_lt short)

namespace Task

variable {interval limit mid due time a b : Nat}

def Due (task : Task) (time : Duration) : Prop := ∃ k, time = task.next + k * task.interval

theorem fire_late (late : limit < due) : fire interval limit a due = ([], due) := by
  cases a <;> simp [fire, Nat.not_le.mpr late]

theorem fire_soon (soon : due ≤ limit) : fire interval limit (a + 1) due =
    (due :: (fire interval limit a (Duration.plus due interval)).1,
      (fire interval limit a (Duration.plus due interval)).2) := by
  simp [fire, soon]

theorem due_induction {motive : Nat → Nat → Prop} (short : limit < Duration.longest)
    (late : ∀ a due, limit < due → motive a due)
    (soon : ∀ a due, due ≤ limit → limit < (Duration.plus due interval : Nat) + a * interval →
      motive a (Duration.plus due interval) → motive (a + 1) due)
    (room : limit < due + a * interval) : motive a due := by
  induction a generalizing due with
  | zero => exact late 0 due (by simpa using room)
  | succ a ih =>
    rcases Nat.lt_or_ge limit due with after | before
    · exact late (a + 1) due after
    · have later : limit < (Duration.plus due interval : Nat) + a * interval := by
        rw [Nat.succ_mul] at room
        unfold Duration.plus
        omega
      exact soon a due before later (ih later)

theorem fire_allowance (short : limit < Duration.longest) (room : limit < due + a * interval) (more : a ≤ b) :
    fire interval limit b due = fire interval limit a due := by
  revert b
  refine due_induction (motive := fun a due => ∀ {b}, a ≤ b → fire interval limit b due = fire interval limit a due)
    short ?_ ?_ room
  · intro a due late b _
    rw [fire_late late, fire_late late]
  · intro a due soon _ ih b more
    obtain ⟨c, rfl⟩ : ∃ c, b = c + 1 := ⟨b - 1, by omega⟩
    rw [fire_soon soon, fire_soon soon, ih (Nat.le_of_succ_le_succ more)]

theorem fire_next (short : limit < Duration.longest) (room : limit < due + a * interval) :
    due ≤ (fire interval limit a due).2 ∧ limit < (fire interval limit a due).2 := by
  refine due_induction (motive := fun a due => due ≤ (fire interval limit a due).2 ∧
    limit < (fire interval limit a due).2) short ?_ ?_ room
  · intro a due late
    rw [fire_late late]
    exact ⟨Nat.le_refl _, late⟩
  · intro a due soon _ ih
    obtain ⟨further, past⟩ := ih
    rw [fire_soon soon]
    refine ⟨?_, past⟩
    unfold Duration.plus at further
    omega

theorem eq_plus_iff (short : time < Duration.longest) (k : Nat) :
    time = Duration.plus due interval + k * interval ↔ time = due + (k + 1) * interval := by
  -- past the longest duration the sum stops, and nothing is due there any more
  have step : (k + 1) * interval = k * interval + interval := Nat.succ_mul k interval
  unfold Duration.plus
  omega

theorem plus_due (short : time < Duration.longest) :
    (∃ k, time = Duration.plus due interval + k * interval) ↔ ∃ k, time = due + (k + 1) * interval :=
  exists_congr (eq_plus_iff short)

theorem mem_fire (short : limit < Duration.longest) :
    time ∈ (fire interval limit a due).1 ↔ time ≤ limit ∧ ∃ k < a, time = due + k * interval := by
  induction a generalizing due with
  | zero => simp [fire]
  | succ a ih =>
    rcases Nat.lt_or_ge limit due with late | soon
    · rw [fire_late late]
      constructor
      · nofun
      · rintro ⟨within, k, _, here⟩
        omega
    · rw [fire_soon soon, List.mem_cons, ih]
      constructor
      · rintro (rfl | ⟨within, k, few, later⟩)
        · exact ⟨soon, 0, Nat.succ_pos a, by simp⟩
        · exact ⟨within, k + 1, Nat.succ_lt_succ few, (eq_plus_iff (Nat.lt_of_le_of_lt within short) k).mp later⟩
      · rintro ⟨within, k, few, here⟩
        cases k with
        | zero => exact .inl (by simpa using here)
        | succ k =>
          have later := (eq_plus_iff (Nat.lt_of_le_of_lt within short) k).mpr here
          exact .inr ⟨within, k, Nat.lt_of_succ_lt_succ few, later⟩

theorem few_of_room {k : Nat} (room : limit < due + a * interval) (within : due + k * interval ≤ limit) : k < a :=
  Nat.lt_of_mul_lt_mul_right (Nat.lt_of_add_lt_add_left (Nat.lt_of_le_of_lt within room))

theorem fire_ascending (positive : 0 < interval) (short : limit < Duration.longest) :
    (fire interval limit a due).1.Pairwise (· < ·) := by
  induction a generalizing due with
  | zero => exact .nil
  | succ a ih =>
    rcases Nat.lt_or_ge limit due with late | soon
    · rw [fire_late late]
      exact .nil
    · have past : due < (Duration.plus due interval : Nat) := by
        unfold Duration.plus
        omega
      rw [fire_soon soon]
      refine .cons (fun time member => ?_) ih
      obtain ⟨_, k, _, here⟩ := (mem_fire short).mp member
      exact Nat.lt_of_lt_of_le past (here ▸ Nat.le_add_right _ _)

theorem due_fire (short : limit < Duration.longest) (room : limit < due + a * interval)
    (early : time < Duration.longest) :
    (∃ k, time = (fire interval limit a due).2 + k * interval) ↔ limit < time ∧ ∃ k, time = due + k * interval := by
  refine due_induction (motive := fun a due => (∃ k, time = (fire interval limit a due).2 + k * interval) ↔
    limit < time ∧ ∃ k, time = due + k * interval) short ?_ ?_ room
  · intro a due late
    rw [fire_late late]
    constructor
    · rintro ⟨k, here⟩
      exact ⟨by omega, k, here⟩
    · exact fun after => after.2
  · intro a due soon _ ih
    rw [fire_soon soon, ih, plus_due early]
    constructor
    · rintro ⟨after, k, here⟩
      exact ⟨after, k + 1, here⟩
    · rintro ⟨after, k, here⟩
      cases k with
      | zero => exact absurd here (by omega)
      | succ k => exact ⟨after, k, here⟩

theorem fire_again (short : limit < Duration.longest) (room : limit < due + a * interval) (order : mid ≤ limit) :
    (fire interval limit a (fire interval mid a due).2).2 = (fire interval limit a due).2 := by
  refine due_induction (motive := fun a due =>
    (fire interval limit a (fire interval mid a due).2).2 = (fire interval limit a due).2) short ?_ ?_ room
  · intro a due late
    rw [fire_late (Nat.lt_of_le_of_lt order late)]
  · intro a due soon later ih
    rcases Nat.lt_or_ge mid due with late | early
    · rw [fire_late late]
    · -- The second part starts with a full allowance again, of which it needs no more than is left.
      have between : limit < (fire interval mid a (Duration.plus due interval)).2 + a * interval := by
        have further := (fire_next (Nat.lt_of_le_of_lt order short) (Nat.lt_of_le_of_lt order later)).1
        omega
      rw [fire_soon early, fire_soon soon, fire_allowance short between (Nat.le_succ a), ih]

end Task

namespace Timeline

variable {t t' : Timeline} {n limit mid time : Nat} {task : Task} {f : Firing} {fs gs : List Firing}

-- No task has more due times up to the limit than it may catch up on.
def Uncapped (t : Timeline) (limit : Duration) : Prop :=
  ∀ (n : Nat) (task : Task), t.tasks[n]? = some task →
    {time | task.Due time ∧ time ≤ limit}.encard ≤ t.maxCatchUp

theorem Consistent.room (consistent : t.Consistent) (uncapped : t.Uncapped limit) (live : t.tasks[n]? = some task) :
    limit < task.next + t.maxCatchUp * task.interval := by
  by_contra beyond
  let times := (Finset.range (t.maxCatchUp + 1)).image fun k => task.next + k * task.interval
  have count : times.card = t.maxCatchUp + 1 := by
    rw [Finset.card_image_of_injective, Finset.card_range]
    intro k l same
    exact Nat.eq_of_mul_eq_mul_right (consistent.interval_pos live) (Nat.add_left_cancel same)
  have among : (times : Set Nat) ⊆ {time | task.Due time ∧ time ≤ limit} := by
    intro time member
    obtain ⟨k, small, rfl⟩ := Finset.mem_image.mp member
    have fewer : k * task.interval ≤ t.maxCatchUp * task.interval :=
      Nat.mul_le_mul_right _ (Nat.le_of_lt_succ (Finset.mem_range.mp small))
    exact ⟨⟨k, rfl⟩, (Nat.add_le_add_left fewer _).trans (Nat.le_of_not_lt beyond)⟩
  have many := (Set.encard_le_encard among).trans (uncapped n task live)
  rw [Set.encard_coe_eq_coe_finsetCard, count] at many
  exact absurd (Nat.cast_le.mp many) (by omega)

theorem uncapped_of_room (room : ∀ entry ∈ t.tasks.toList, limit < entry.2.next + t.maxCatchUp * entry.2.interval) :
    t.Uncapped limit := by
  intro n task live
  have late : limit < task.next + t.maxCatchUp * task.interval :=
    room (n, task) (Std.ExtTreeMap.mem_toList_iff_getElem?_eq_some.mpr live)
  let times := (Finset.range t.maxCatchUp).image fun k => task.next + k * task.interval
  have among : {time | task.Due time ∧ time ≤ limit} ⊆ (times : Set Nat) := by
    rintro time ⟨⟨k, rfl⟩, within⟩
    refine Finset.mem_coe.mpr (Finset.mem_image.mpr ⟨k, Finset.mem_range.mpr ?_, rfl⟩)
    by_contra many
    have more := Nat.mul_le_mul_right task.interval (Nat.le_of_not_lt many)
    exact Nat.not_le.mpr late ((Nat.add_le_add_left more _).trans within)
  refine (Set.encard_le_encard among).trans ?_
  rw [Set.encard_coe_eq_coe_finsetCard, Nat.cast_le]
  exact Finset.card_image_le.trans (Finset.card_range _).le

def rank (f : Firing) : Lex (Nat × Nat) := toLex (f.time, f.task)

theorem rank_injective : Function.Injective rank := by
  rintro ⟨time, task⟩ ⟨time', task'⟩ same
  obtain ⟨rfl, rfl⟩ := Prod.mk.inj (toLex.injective same)
  rfl

theorem firing_le {f g : Firing} : Firing.le f g = true ↔ rank f ≤ rank g := by
  simp [Firing.le, rank, Prod.Lex.toLex_le_toLex]

def Ordered (fs : List Firing) : Prop := fs.Pairwise fun f g => rank f < rank g

theorem Ordered.ext (first : Ordered fs) (second : Ordered gs)
    (same : ∀ f, f ∈ fs ↔ f ∈ gs) : fs = gs := by
  have asymm : Std.Asymm fun f g : Firing => rank f < rank g := ⟨fun _ _ => lt_asymm⟩
  exact List.Pairwise.eq_of_mem_iff first second same

theorem ordered_mergeSort (distinct : fs.Nodup) : Ordered (fs.mergeSort Firing.le) := by
  have sorted : (fs.mergeSort Firing.le).Pairwise fun f g => Firing.le f g = true := by
    refine List.pairwise_mergeSort (fun f g h => ?_) (fun f g => ?_) fs
    · simpa only [firing_le] using le_trans
    · simpa only [Bool.or_eq_true, firing_le] using le_total _ _
  have apart : (fs.mergeSort Firing.le).Nodup := (List.mergeSort_perm fs _).nodup_iff.mpr distinct
  exact (sorted.and apart).imp fun ⟨order, other⟩ =>
    lt_of_le_of_ne (firing_le.mp order) (rank_injective.ne other)

def timesOf (n : Nat) (fs : List Firing) : List Duration := (fs.filter (·.task = n)).map (·.time)

theorem timesOf_cons : timesOf n (f :: fs) = if f.task = n then f.time :: timesOf n fs else timesOf n fs := by
  unfold timesOf
  split <;> simp_all

theorem timesOf_append : timesOf n (fs ++ gs) = timesOf n fs ++ timesOf n gs := by
  simp only [timesOf, List.filter_append, List.map_append]

theorem mem_timesOf : time ∈ timesOf n fs ↔ ⟨time, n⟩ ∈ fs := by
  simp only [timesOf, List.mem_map, List.mem_filter, decide_eq_true_eq]
  constructor
  · rintro ⟨f, ⟨member, rfl⟩, rfl⟩
    exact member
  · intro member
    exact ⟨_, ⟨member, rfl⟩, rfl⟩

theorem Ordered.ascending_timesOf (ordered : Ordered fs) : (timesOf n fs).Pairwise (· < ·) := by
  refine List.pairwise_map.mpr ((ordered.filter _).imp_of_mem ?_)
  intro f g mine others order
  have same : f.task = g.task :=
    (of_decide_eq_true (List.mem_filter.mp mine).2).trans (of_decide_eq_true (List.mem_filter.mp others).2).symm
  rcases Prod.Lex.toLex_lt_toLex.mp order with earlier | ⟨_, older⟩
  · exact earlier
  · exact absurd same (Nat.ne_of_lt older)

-- The second timeline lacks some tasks of the first, and is like it otherwise.
structure Pruned (t t' : Timeline) : Prop where
  now : t'.now = t.now
  catchUp : t'.maxCatchUp = t.maxCatchUp
  fewer : ∀ (n : Nat) (task : Task), t'.tasks[n]? = some task → t.tasks[n]? = some task

theorem Pruned.refl (t : Timeline) : t.Pruned t := ⟨rfl, rfl, fun _ _ live => live⟩

theorem Pruned.cancel (pruned : t.Pruned t') (n : Nat) : t.Pruned (t'.cancel n) := by
  refine ⟨?_, ?_, ?_⟩
  · unfold Timeline.cancel
    split <;> exact pruned.now
  · unfold Timeline.cancel
    split <;> exact pruned.catchUp
  · intro m task live
    rw [tasks_cancel] at live
    split at live
    · cases live
    · exact pruned.fewer m task live

theorem Uncapped.pruned (uncapped : t.Uncapped limit) (pruned : t.Pruned t') (order : mid ≤ limit) :
    t'.Uncapped mid := by
  intro n task live
  rw [pruned.catchUp]
  refine (Set.encard_le_encard ?_).trans (uncapped n task (pruned.fewer n task live))
  exact fun time ⟨due, within⟩ => ⟨due, Nat.le_trans within order⟩

theorem advance_cancel : ((t.cancel n).advance limit).2 = (t.advance limit).2.cancel n := by
  have live : (t.advance limit).2.tasks[n]? = _ := tasks_advance
  unfold cancel
  rw [live]
  cases t.tasks[n]? with
  | none => rfl
  | some task =>
    refine congrArg (fun tasks => Timeline.mk limit t.nextId tasks _ t.maxCatchUp) ?_
    refine Std.ExtTreeMap.ext_getElem? fun m => ?_
    simp only [Timeline.advance, Std.ExtTreeMap.getElem?_map, Std.ExtTreeMap.getElem?_erase]
    split <;> rfl

theorem isActive_iff : t.isActive n = true ↔ ∃ task, t.tasks[n]? = some task := by
  unfold isActive
  rw [Std.ExtTreeMap.contains_eq_isSome_getElem?, Option.isSome_iff_exists]

theorem mem_advance_iff : f ∈ (t.advance limit).1 ↔ ∃ (n : Nat) (task : Task), t.tasks[n]? = some task ∧
    ∃ time ∈ (Task.fire task.interval limit t.maxCatchUp task.next).1, ⟨time, task.id⟩ = f := by
  simp only [Timeline.advance, List.mem_mergeSort, List.mem_flatMap, List.mem_map, Prod.exists,
    Std.ExtTreeMap.mem_toList_iff_getElem?_eq_some]

theorem Consistent.mem_advance_capped (consistent : t.Consistent) (short : limit < Duration.longest) :
    f ∈ (t.advance limit).1 ↔ f.time ≤ limit ∧ ∃ task : Task, t.tasks[f.task]? = some task ∧
      ∃ k < t.maxCatchUp, f.time = task.next + k * task.interval := by
  rw [mem_advance_iff]
  constructor
  · rintro ⟨n, task, live, time, member, rfl⟩
    obtain ⟨within, due⟩ := (Task.mem_fire short).mp member
    exact ⟨within, task, consistent.keyed n task live ▸ live, due⟩
  · rintro ⟨within, task, live, due⟩
    refine ⟨f.task, task, live, f.time, (Task.mem_fire short).mpr ⟨within, due⟩, ?_⟩
    rw [consistent.keyed _ task live]

theorem Consistent.ordered_advance (consistent : t.Consistent) (short : limit < Duration.longest) :
    Ordered (t.advance limit).1 := by
  refine ordered_mergeSort (List.nodup_flatMap.mpr ⟨?_, ?_⟩)
  · rintro ⟨n, task⟩ member
    have live := Std.ExtTreeMap.mem_toList_iff_getElem?_eq_some.mp member
    have ascending : (Task.fire task.interval limit t.maxCatchUp task.next).1.Pairwise (· < ·) :=
      Task.fire_ascending (consistent.interval_pos live) short
    refine List.Nodup.map ?_ (ascending.imp Nat.ne_of_lt)
    exact fun _ _ same => congrArg Firing.time same
  · refine Std.ExtTreeMap.distinct_keys_toList.imp_of_mem ?_
    rintro ⟨n, task⟩ ⟨m, other⟩ member member' apart f mine others
    obtain ⟨_, _, rfl⟩ := List.mem_map.mp mine
    obtain ⟨_, _, same⟩ := List.mem_map.mp others
    have first := consistent.keyed n task (Std.ExtTreeMap.mem_toList_iff_getElem?_eq_some.mp member)
    have second := consistent.keyed m other (Std.ExtTreeMap.mem_toList_iff_getElem?_eq_some.mp member')
    have equal : n = m := first.symm.trans ((congrArg Firing.task same).symm.trans second)
    exact apart (Std.compare_eq_iff_eq.mpr equal)

section Whole

variable (consistent : t.Consistent) (short : limit < Duration.longest) (uncapped : t.Uncapped limit)

include consistent short uncapped

theorem Consistent.mem_advance : f ∈ (t.advance limit).1 ↔
    f.time ≤ limit ∧ ∃ task : Task, t.tasks[f.task]? = some task ∧ task.Due f.time := by
  rw [consistent.mem_advance_capped short]
  refine and_congr_right fun within => exists_congr fun task => and_congr_right fun live => ?_
  refine exists_congr fun k => and_iff_right_of_imp fun here => ?_
  exact Task.few_of_room (consistent.room uncapped live) (here ▸ within)

theorem Consistent.mem_timesOf_advance (live : t.tasks[n]? = some task) :
    time ∈ timesOf n (t.advance limit).1 ↔ time ≤ limit ∧ task.Due time := by
  rw [mem_timesOf, consistent.mem_advance short uncapped]
  refine and_congr_right fun _ => ⟨?_, fun due => ⟨task, live, due⟩⟩
  rintro ⟨task', live', due⟩
  cases live.symm.trans live'
  exact due

theorem Consistent.uncapped_advance (order : mid ≤ limit) : (t.advance mid).2.Uncapped limit := by
  intro n task live
  obtain ⟨before, there, rfl⟩ := live_of_advance live
  refine (Set.encard_le_encard ?_).trans (uncapped n before there)
  rintro time ⟨due, within⟩
  have room := Nat.lt_of_le_of_lt order (consistent.room uncapped there)
  exact ⟨((Task.due_fire (Nat.lt_of_le_of_lt order short) room (Nat.lt_of_le_of_lt within short)).mp due).2, within⟩

theorem Consistent.mem_advance_until (order : mid ≤ limit) :
    f ∈ (t.advance mid).1 ↔ f.time ≤ mid ∧ f ∈ (t.advance limit).1 := by
  rw [consistent.mem_advance (Nat.lt_of_le_of_lt order short) (uncapped.pruned (.refl t) order),
    consistent.mem_advance short uncapped]
  constructor
  · rintro ⟨within, due⟩
    exact ⟨within, Nat.le_trans within order, due⟩
  · rintro ⟨within, _, due⟩
    exact ⟨within, due⟩

theorem Consistent.mem_advance_after (order : mid ≤ limit) :
    f ∈ ((t.advance mid).2.advance limit).1 ↔ mid < f.time ∧ f ∈ (t.advance limit).1 := by
  rw [(consistent.advance mid).mem_advance short (consistent.uncapped_advance short uncapped order),
    consistent.mem_advance short uncapped]
  have left (task : Task) (live : t.tasks[f.task]? = some task) (within : f.time ≤ limit) :=
    Task.due_fire (Nat.lt_of_le_of_lt order short) (Nat.lt_of_le_of_lt order (consistent.room uncapped live))
      (Nat.lt_of_le_of_lt within short)
  constructor
  · rintro ⟨within, task, live, due⟩
    obtain ⟨before, there, rfl⟩ := live_of_advance live
    obtain ⟨after, due⟩ := (left before there within).mp due
    exact ⟨after, within, before, there, due⟩
  · rintro ⟨after, within, task, live, due⟩
    exact ⟨within, _, live_advance live, (left task live within).mpr ⟨after, due⟩⟩

theorem Consistent.advance_split (order : mid ≤ limit) :
    (t.advance limit).1 = (t.advance mid).1 ++ ((t.advance mid).2.advance limit).1 := by
  have first (f : Firing) := consistent.mem_advance_until (f := f) short uncapped order
  have second (f : Firing) := consistent.mem_advance_after (f := f) short uncapped order
  refine (consistent.ordered_advance short).ext (List.pairwise_append.mpr ⟨?_, ?_, ?_⟩) fun f => ?_
  · exact consistent.ordered_advance (Nat.lt_of_le_of_lt order short)
  · exact (consistent.advance mid).ordered_advance short
  · intro f early g late
    exact Prod.Lex.toLex_lt_toLex.mpr (.inl (Nat.lt_of_le_of_lt ((first f).mp early).1 ((second g).mp late).1))
  · rw [List.mem_append, first, second, ← or_and_right]
    exact (and_iff_right (Nat.lt_or_ge mid f.time).symm).symm

theorem Consistent.advance_advance (order : mid ≤ limit) :
    ((t.advance mid).2.advance limit).2 = (t.advance limit).2 := by
  have same : ((t.advance mid).2.advance limit).2.tasks = (t.advance limit).2.tasks := by
    refine Std.ExtTreeMap.ext_getElem? fun n => ?_
    rw [tasks_advance, tasks_advance, tasks_advance, Option.map_map]
    refine Option.map_congr fun task live => ?_
    exact congrArg (fun next => { task with next }) (Task.fire_again short (consistent.room uncapped live) order)
  exact congrArg (fun tasks => { t with now := limit, tasks }) same

theorem Consistent.advance_pruned (consistent' : t'.Consistent) (pruned : t.Pruned t') :
    (t'.advance limit).1 = (t.advance limit).1.filter fun f => t'.isActive f.task := by
  have uncapped' := uncapped.pruned pruned (Nat.le_refl limit)
  refine (consistent'.ordered_advance short).ext ((consistent.ordered_advance short).filter _)
    fun f => ?_
  rw [List.mem_filter, consistent.mem_advance short uncapped, consistent'.mem_advance short uncapped']
  constructor
  · rintro ⟨within, task, live, due⟩
    exact ⟨⟨within, task, pruned.fewer _ task live, due⟩, isActive_iff.mpr ⟨task, live⟩⟩
  · rintro ⟨⟨within, task, live, due⟩, active⟩
    obtain ⟨task', live'⟩ := isActive_iff.mp active
    obtain rfl := Option.some.inj (live.symm.trans (pruned.fewer _ task' live'))
    exact ⟨within, task, live', due⟩

end Whole

end Timeline
end Diorama
