import Diorama.Proofs.Firings

namespace Diorama

namespace Task

variable {interval limit due a : Nat}

theorem skip_past (positive : 0 < interval) (short : limit < Duration.longest) (soon : due ≤ limit) :
    limit < (skip interval limit due : Nat) ↔ limit < due + skipLimit * interval := by
  unfold skip Duration.plus Duration.times
  rcases Nat.lt_or_ge ((limit - due) / interval) skipLimit with few | many
  · have enough : limit - due < interval * ((limit - due) / interval + 1) := Nat.lt_mul_div_succ _ positive
    have fits : (limit - due) / interval + 1 ≤ skipLimit := few
    have fewer := Nat.mul_le_mul_left interval fits
    rw [Nat.min_eq_left fits, Nat.mul_comm skipLimit]
    omega
  · have within : interval * skipLimit ≤ limit - due :=
      (Nat.mul_le_mul_left _ many).trans (Nat.mul_div_le _ _)
    rw [Nat.min_eq_right (Nat.le_succ_of_le many), Nat.mul_comm skipLimit]
    omega

theorem skip_moves (positive : 0 < interval) (short : limit < Duration.longest) (soon : due ≤ limit) :
    due < (skip interval limit due : Nat) := by
  have some : 0 < min ((limit - due) / interval + 1) skipLimit := by
    simp [skipLimit]
  have further := Nat.mul_pos positive some
  unfold skip Duration.plus Duration.times
  omega

theorem fire_past (positive : 0 < interval) (short : limit < Duration.longest) :
    limit < (fire interval limit a due).2 ↔ limit < due + (a + skipLimit) * interval := by
  -- each firing takes one due time, the skip at the end takes the rest or as many as it may
  induction a generalizing due with
  | zero =>
    rw [Nat.zero_add]
    rcases Nat.lt_or_ge limit due with late | soon
    · rw [fire_late late]
      exact ⟨fun _ => Nat.lt_add_right _ late, fun _ => late⟩
    · simp only [fire, if_pos soon]
      exact skip_past positive short soon
  | succ a ih =>
    rcases Nat.lt_or_ge limit due with late | soon
    · rw [fire_late late]
      exact ⟨fun _ => Nat.lt_add_right _ late, fun _ => late⟩
    · have one : (a + 1 + skipLimit) * interval = (a + skipLimit) * interval + interval := by
        rw [Nat.add_right_comm, Nat.succ_mul]
      rw [fire_soon soon, ih, one]
      unfold Duration.plus
      omega

theorem fire_moves (positive : 0 < interval) (short : limit < Duration.longest) (soon : due ≤ limit) :
    due < (fire interval limit a due).2 := by
  induction a generalizing due with
  | zero =>
    simp only [fire, if_pos soon]
    exact skip_moves positive short soon
  | succ a ih =>
    have later : due < (Duration.plus due interval : Nat) := by
      unfold Duration.plus
      omega
    rw [fire_soon soon]
    rcases Nat.lt_or_ge limit (Duration.plus due interval) with late | again
    · rw [fire_late late]
      exact later
    · exact Nat.lt_trans later (ih again)

-- The due times up to the limit are no more than one advance can take.
def CatchesUp (limit : Duration) (catchUp : Nat) (task : Task) : Prop :=
  limit < task.next + (catchUp + skipLimit) * task.interval

end Task

namespace Timeline

variable {t : Timeline} {limit n : Nat} {task : Task}

-- What starting, cancelling, setting the number of firings in one advance, and moving the clock on
-- make of the first timeline.
inductive Reached : Timeline → Prop where
  | initial : Reached initial
  | start {t : Timeline} (slot : Slot) (action : TaskAction) (rate : Float) :
      Reached t → Reached (t.start slot action rate).2
  | cancel {t : Timeline} (n : Nat) : Reached t → Reached (t.cancel n)
  | configure {t : Timeline} (catchUp : Nat) : Reached t → Reached { t with maxCatchUp := catchUp }
  | advance {t : Timeline} (limit : Duration) : Reached t → t.now ≤ limit → Reached (t.advance limit).2

theorem Reached.consistent (reached : Reached t) : t.Consistent := by
  induction reached with
  | initial => exact consistent_initial defaultCatchUp
  | start slot action rate _ ih => exact ih.start slot action rate
  | cancel n _ ih => exact ih.cancel n
  | configure catchUp _ ih => exact ⟨ih.keyed, ih.earlier, ih.slotted, ih.paced⟩
  | advance limit _ _ ih => exact ih.advance limit

theorem advance_firings (reached : Reached t) (short : limit < Duration.longest) :
    (t.advance limit).1.Pairwise (fun f g => f.time < g.time ∨ f.time = g.time ∧ f.task < g.task) ∧
    (∀ (time : Duration) (n : Nat), ⟨time, n⟩ ∈ (t.advance limit).1 ↔ time ≤ limit ∧
      ∃ task : Task, t.tasks[n]? = some task ∧ ∃ k < t.maxCatchUp, time = task.next + k * task.interval) ∧
    (t.advance limit).2.now = limit := by
  have consistent := reached.consistent
  refine ⟨?_, fun time n => consistent.mem_advance_capped short, rfl⟩
  exact (consistent.ordered_advance short).imp Prod.Lex.toLex_lt_toLex.mp

-- Of its ten due times in the first second the second task may catch up on three.
def Sample.duet : Timeline :=
  ((({ initial with maxCatchUp := 3 } : Timeline).start ⟨"a", .rotation⟩ (.rotate 1) 1).2.start
    ⟨"b", .x⟩ (.translate 1 0) 10).2

theorem advance_firings_duet : Reached Sample.duet ∧ 1000000000 < Duration.longest ∧
    (Sample.duet.advance 1000000000).1.Pairwise (fun f g => f.time < g.time ∨ f.time = g.time ∧ f.task < g.task) ∧
    (∀ (time : Duration) (n : Nat), ⟨time, n⟩ ∈ (Sample.duet.advance 1000000000).1 ↔ time ≤ 1000000000 ∧
      ∃ task : Task, Sample.duet.tasks[n]? = some task ∧
        ∃ k < Sample.duet.maxCatchUp, time = task.next + k * task.interval) ∧
    (Sample.duet.advance 1000000000).2.now = 1000000000 := by
  have reached : Reached Sample.duet := .start _ _ _ (.start _ _ _ (.configure 3 .initial))
  exact ⟨reached, by decide, advance_firings reached (by decide)⟩

theorem advance_late (late : ∀ (n : Nat) (task : Task), t.tasks[n]? = some task → limit < task.next) :
    t.advance limit = ([], { t with now := limit }) := by
  have silent : (t.advance limit).1 = [] := by
    apply List.eq_nil_iff_forall_not_mem.mpr
    intro f fires
    obtain ⟨n, task, live, time, member, _⟩ := mem_advance_iff.mp fires
    rw [Task.fire_late (late n task live)] at member
    cases member
  have still : (t.advance limit).2.tasks = t.tasks := by
    apply Std.ExtTreeMap.ext_getElem?
    intro n
    rw [tasks_advance]
    cases live : t.tasks[n]? with
    | none => rfl
    | some task =>
      have same : task.after limit t.maxCatchUp = task := by
        unfold Task.after
        rw [Task.fire_late (late n task live)]
      rw [Option.map_some, same]
  apply Prod.ext
  · exact silent
  · exact congrArg (fun tasks => { t with now := limit, tasks }) still

theorem Consistent.advance_still_iff (consistent : t.Consistent) (short : limit < Duration.longest)
    (here : t.now = limit) : t.advance limit = ([], t) ↔
      ∀ (n : Nat) (task : Task), t.tasks[n]? = some task → limit < task.next := by
  constructor
  · intro same n task live
    by_contra soon
    have moved := Task.fire_moves (a := t.maxCatchUp) (consistent.interval_pos live) short (Nat.le_of_not_lt soon)
    have after : (t.advance limit).2.tasks[n]? = some (task.after limit t.maxCatchUp) := live_advance live
    rw [same] at after
    have equal := congrArg Task.next (Option.some.inj (live.symm.trans after))
    exact Nat.ne_of_lt moved equal
  · intro late
    rw [advance_late late]
    cases t
    cases here
    rfl

-- A task is due after the limit of an advance exactly when that advance could take all its due times.
-- Only if this holds of all tasks does a second advance to the same limit find nothing to do.
theorem advance_past_iff (reached : Reached t) (short : limit < Duration.longest) :
    (∀ (n : Nat) (task : Task), t.tasks[n]? = some task → ∃ after : Task,
      (t.advance limit).2.tasks[n]? = some after ∧ (limit < after.next ↔ task.CatchesUp limit t.maxCatchUp)) ∧
    ((t.advance limit).2.advance limit = ([], (t.advance limit).2) ↔
      ∀ (n : Nat) (task : Task), t.tasks[n]? = some task → task.CatchesUp limit t.maxCatchUp) := by
  have consistent := reached.consistent
  have past (n : Nat) (task : Task) (live : t.tasks[n]? = some task) :
      limit < (task.after limit t.maxCatchUp).next ↔ task.CatchesUp limit t.maxCatchUp :=
    Task.fire_past (consistent.interval_pos live) short
  refine ⟨fun n task live => ⟨_, live_advance live, past n task live⟩, ?_⟩
  rw [(consistent.advance limit).advance_still_iff short rfl]
  constructor
  · intro late n task live
    exact (past n task live).mp (late n _ (live_advance live))
  · intro all n task live
    obtain ⟨before, there, rfl⟩ := live_of_advance live
    exact (past n before there).mpr (all n before there)

def Sample.humming : Timeline := (initial.start ⟨"a", .rotation⟩ (.rotate 1) 1000).2

theorem Sample.humming_reached : Reached humming := .start _ _ _ .initial

theorem advance_past_iff_humming : Reached Sample.humming ∧ 1000000000 < Duration.longest ∧
    (∀ (n : Nat) (task : Task), Sample.humming.tasks[n]? = some task → ∃ after : Task,
      (Sample.humming.advance 1000000000).2.tasks[n]? = some after ∧
      (1000000000 < after.next ↔ task.CatchesUp 1000000000 Sample.humming.maxCatchUp)) ∧
    ((Sample.humming.advance 1000000000).2.advance 1000000000 = ([], (Sample.humming.advance 1000000000).2) ↔
      ∀ (n : Nat) (task : Task), Sample.humming.tasks[n]? = some task →
        task.CatchesUp 1000000000 Sample.humming.maxCatchUp) :=
  ⟨Sample.humming_reached, by decide, advance_past_iff Sample.humming_reached (by decide)⟩

-- After sixty days the task has left out as much as it may and is still ten days behind. So it fires
-- again although the clock does not move.
theorem advance_leaves_task_overdue : Reached Sample.humming ∧ Sample.humming.now ≤ 5184000000000000 ∧
    5184000000000000 < Duration.longest ∧
    (∃ task : Task, (Sample.humming.advance 5184000000000000).2.tasks[0]? = some task ∧
      task.next ≤ 5184000000000000) ∧
    (Sample.humming.advance 5184000000000000).2.advance 5184000000000000 ≠
      ([], (Sample.humming.advance 5184000000000000).2) := by
  have next : (Sample.humming.advance 5184000000000000).2.tasks[0]?.map (·.next) = some 4294967328000000 := by
    decide +kernel
  obtain ⟨task, live, due⟩ := Option.map_eq_some_iff.mp next
  have overdue : task.next ≤ 5184000000000000 := by
    rw [due]
    decide
  refine ⟨Sample.humming_reached, by decide +kernel, by decide, ⟨task, live, overdue⟩, ?_⟩
  intro same
  have late := ((Sample.humming_reached.consistent.advance 5184000000000000).advance_still_iff (by decide) rfl).mp same
  exact Nat.not_le.mpr (late 0 task live) overdue

end Timeline
end Diorama
