import Diorama.Timeline

namespace Diorama

theorem Task.shortest_le_intervalAt (rate : Float) : shortest ≤ intervalAt rate := by
  unfold intervalAt
  dsimp only
  split
  · exact Nat.le_refl _
  · exact Nat.le_max_right _ _

def Task.after (limit : Duration) (catchUp : Nat) (task : Task) : Task :=
  { task with next := (fire task.interval limit catchUp task.next).2 }

namespace Timeline

variable {t t' t'' : Timeline} {n m : Nat} {task : Task} {slot x : Slot} {action : TaskAction} {rate : Float}

structure Consistent (t : Timeline) : Prop where
  keyed : ∀ (n : Nat) (task : Task), t.tasks[n]? = some task → task.id = n
  earlier : ∀ (n : Nat) (task : Task), t.tasks[n]? = some task → n < t.nextId
  slotted : ∀ (slot : Slot) (n : Nat), t.slots[slot]? = some n ↔ ∃ task : Task, t.tasks[n]? = some task ∧ task.slot = slot
  paced : ∀ (n : Nat) (task : Task), t.tasks[n]? = some task → Task.shortest ≤ task.interval

theorem Consistent.interval_pos (consistent : t.Consistent) (live : t.tasks[n]? = some task) : 0 < task.interval :=
  Nat.lt_of_lt_of_le (by decide) (consistent.paced n task live)

theorem consistent_initial (catchUp : Nat) : Consistent { initial with maxCatchUp := catchUp } := by
  constructor <;> simp [initial]

theorem tasks_cancel : (t.cancel n).tasks[m]? = if n = m then none else t.tasks[m]? := by
  unfold cancel
  split
  · rename_i absent
    split
    · subst m
      exact absent
    · rfl
  · simp only [Std.ExtTreeMap.getElem?_erase, Std.compare_eq_iff_eq]

theorem Consistent.slots_cancel (consistent : t.Consistent) (live : t.tasks[n]? = some task) :
    (t.cancel n).slots[x]? = if task.slot = x then none else t.slots[x]? := by
  have named : t.slots[task.slot]? = some n := (consistent.slotted _ _).mpr ⟨task, live, rfl⟩
  unfold cancel
  simp only [live, named, if_true, Std.ExtTreeMap.getElem?_erase, Std.compare_eq_iff_eq]

theorem Consistent.cancel (consistent : t.Consistent) (n : Nat) : (t.cancel n).Consistent := by
  have kept (m : Nat) (task : Task) (live : (t.cancel n).tasks[m]? = some task) :
      n ≠ m ∧ t.tasks[m]? = some task := by
    rw [tasks_cancel] at live
    split at live
    · cases live
    · exact ⟨‹_›, live⟩
  have numbered : (t.cancel n).nextId = t.nextId := by
    unfold Timeline.cancel
    split <;> rfl
  refine ⟨fun m task live => consistent.keyed m task (kept m task live).2,
    fun m task live => numbered ▸ consistent.earlier m task (kept m task live).2, fun slot m => ?_,
    fun m task live => consistent.paced m task (kept m task live).2⟩
  cases live : t.tasks[n]? with
  | none =>
    have same : t.cancel n = t := by
      unfold Timeline.cancel
      rw [live]
    rw [same]
    exact consistent.slotted slot m
  | some task =>
    have own := consistent.slotted slot n
    have other := consistent.slotted slot m
    rw [consistent.slots_cancel live, tasks_cancel]
    grind

theorem Consistent.cancelSlot (consistent : t.Consistent) (slot : Slot) : (t.cancelSlot slot).Consistent := by
  unfold Timeline.cancelSlot
  split
  · exact consistent
  · exact consistent.cancel _

theorem Consistent.active?_cancelSlot (consistent : t.Consistent) :
    (t.cancelSlot slot).active? x = if slot = x then none else t.active? x := by
  unfold Timeline.cancelSlot
  split
  · rename_i free
    split
    · subst x
      exact free
    · rfl
  · rename_i n named
    obtain ⟨task, live, rfl⟩ := (consistent.slotted slot n).mp named
    exact consistent.slots_cancel live

theorem active?_start :
    (t.start slot action rate).2.active? x =
      if slot = x then some (t.start slot action rate).1 else (t.cancelSlot slot).active? x := by
  simp only [start, active?, Std.ExtTreeMap.getElem?_insert, Std.compare_eq_iff_eq]

theorem tasks_start : (t.start slot action rate).2.tasks[n]? =
    if (t.cancelSlot slot).nextId = n then
      some ⟨n, slot, action, Task.intervalAt rate, (t.cancelSlot slot).now.plus (Task.intervalAt rate)⟩
    else (t.cancelSlot slot).tasks[n]? := by
  simp only [start, Std.ExtTreeMap.getElem?_insert, Std.compare_eq_iff_eq]
  split
  · subst n
    rfl
  · rfl

theorem Consistent.start (consistent : t.Consistent) (slot : Slot) (action : TaskAction) (rate : Float) :
    (t.start slot action rate).2.Consistent := by
  have freed := consistent.cancelSlot slot
  have free : (t.cancelSlot slot).slots[slot]? = none :=
    consistent.active?_cancelSlot.trans (if_pos rfl)
  constructor
  · intro n task live
    rw [tasks_start] at live
    split at live
    · cases live
      rfl
    · exact freed.keyed n task live
  · intro n task live
    rw [tasks_start] at live
    split at live
    · rename_i same
      exact same ▸ Nat.lt_succ_self _
    · exact Nat.lt_succ_of_lt (freed.earlier n task live)
  · intro x n
    have old := freed.slotted x n
    have named : (t.start slot action rate).2.slots[x]? =
        if slot = x then some (t.cancelSlot slot).nextId else (t.cancelSlot slot).slots[x]? := active?_start
    rw [tasks_start, named]
    by_cases new : (t.cancelSlot slot).nextId = n
    · -- The number is not in use yet.
      subst n
      have unused : (t.cancelSlot slot).slots[x]? ≠ some (t.cancelSlot slot).nextId := by
        intro taken
        obtain ⟨task, live, _⟩ := old.mp taken
        exact Nat.lt_irrefl _ (freed.earlier _ task live)
      by_cases own : slot = x <;> simp [own, unused]
    · by_cases own : slot = x
      · subst x
        rw [free] at old
        simpa [new] using old
      · simpa [new, own] using old
  · intro n task live
    rw [tasks_start] at live
    split at live
    · cases live
      exact Task.shortest_le_intervalAt rate
    · exact freed.paced n task live

theorem tasks_advance {limit : Duration} :
    (t.advance limit).2.tasks[n]? = t.tasks[n]?.map (Task.after limit t.maxCatchUp) :=
  Std.ExtTreeMap.getElem?_map

theorem live_advance {limit : Duration} (live : t.tasks[n]? = some task) :
    (t.advance limit).2.tasks[n]? = some (task.after limit t.maxCatchUp) :=
  tasks_advance.trans (congrArg (Option.map _) live)

theorem live_of_advance {limit : Duration} (live : (t.advance limit).2.tasks[n]? = some task) :
    ∃ before, t.tasks[n]? = some before ∧ before.after limit t.maxCatchUp = task :=
  Option.map_eq_some_iff.mp (tasks_advance.symm.trans live)

theorem Consistent.advance (consistent : t.Consistent) (limit : Duration) : (t.advance limit).2.Consistent := by
  constructor
  · intro n task live
    obtain ⟨before, there, rfl⟩ := live_of_advance live
    exact consistent.keyed n before there
  · intro n task live
    obtain ⟨before, there, rfl⟩ := live_of_advance live
    exact consistent.earlier n before there
  · intro slot n
    refine (consistent.slotted slot n).trans ?_
    constructor
    · rintro ⟨task, live, rfl⟩
      exact ⟨_, live_advance live, rfl⟩
    · rintro ⟨task, live, rfl⟩
      obtain ⟨before, there, rfl⟩ := live_of_advance live
      exact ⟨before, there, rfl⟩
  · intro n task live
    obtain ⟨before, there, rfl⟩ := live_of_advance live
    exact consistent.paced n before there

-- All that is done to a timeline while its clock stands still.
inductive Edited : Timeline → Timeline → Prop where
  | same {t : Timeline} : Edited t t
  | cancel {t t' : Timeline} (n : Nat) : Edited t t' → Edited t (t'.cancel n)
  | start {t t' : Timeline} (slot : Slot) (action : TaskAction) (rate : Float) :
      Edited t t' → Edited t (t'.start slot action rate).2

theorem Edited.cancelSlot (edited : Edited t t') (slot : Slot) : Edited t (t'.cancelSlot slot) := by
  unfold Timeline.cancelSlot
  split
  · exact edited
  · exact edited.cancel _

theorem Edited.consistent (edited : Edited t t') (consistent : t.Consistent) : t'.Consistent := by
  induction edited with
  | same => exact consistent
  | cancel n _ ih => exact ih.cancel n
  | start slot action rate _ ih => exact ih.start slot action rate

end Timeline
end Diorama
