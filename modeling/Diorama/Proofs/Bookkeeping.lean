import Diorama.Proofs.Timeline

namespace Diorama

namespace Duration

def minus? (a b : Duration) : Option Duration := if b ≤ a then some (a - b) else none

def over? (a b : Duration) : Option Nat := if b = 0 then none else some (a / b)

end Duration

namespace Task

variable {interval limit due : Duration}

def skip? (interval limit due : Duration) : Option Duration := do
  let behind ← limit.minus? due
  let missed ← behind.over? interval
  pure (due.plus (interval.times (min (missed + 1) skipLimit)))

-- The firings of a task as `fire` gives them, and nothing where a difference or a quotient on the way
-- to them does not exist.
def fire? (interval limit : Duration) : (allowance : Nat) → (due : Duration) → Option (List Duration × Duration)
  | 0, due =>
    if due ≤ limit then do
      let next ← skip? interval limit due
      pure ([], next)
    else some ([], due)
  | allowance + 1, due =>
    if due ≤ limit then do
      let later ← fire? interval limit allowance (due.plus interval)
      pure (due :: later.1, later.2)
    else some ([], due)

theorem skip?_eq (positive : 0 < interval) (soon : due ≤ limit) :
    skip? interval limit due = some (skip interval limit due) := by
  have nonempty : interval ≠ 0 := Nat.ne_of_gt positive
  simp [skip?, skip, Duration.minus?, Duration.over?, soon, nonempty]

theorem fire?_eq (positive : 0 < interval) (allowance : Nat) :
    fire? interval limit allowance due = some (fire interval limit allowance due) := by
  induction allowance generalizing due with
  | zero =>
    simp only [fire?, fire]
    split
    · rename_i soon
      simp [skip?_eq positive soon]
    · rfl
  | succ allowance ih =>
    simp only [fire?, fire]
    split
    · simp [ih]
    · rfl

end Task

inductive Operation where
  | start (slot : Slot) (action : TaskAction) (rate : Float)
  | cancel (n : Nat)
  | cancelSlot (slot : Slot)
  | configure (catchUp : Nat)
  | advance (limit : Duration)

def Operation.isStart : Operation → Bool
  | .start .. => true
  | _ => false

namespace Timeline

variable {t : Timeline} {n m : Nat} {task other : Task} {slot : Slot} {action : TaskAction} {rate : Float}
  {op : Operation} {ops earlier later : List Operation}

def operate (t : Timeline) : Operation → Timeline
  | .start slot action rate => (t.start slot action rate).2
  | .cancel n => t.cancel n
  | .cancelSlot slot => t.cancelSlot slot
  | .configure catchUp => { t with maxCatchUp := catchUp }
  | .advance limit => (t.advance limit).2

def operated (t : Timeline) (ops : List Operation) : Timeline := ops.foldl operate t

theorem Consistent.operate (consistent : t.Consistent) (op : Operation) : (t.operate op).Consistent := by
  cases op with
  | start slot action rate => exact consistent.start slot action rate
  | cancel n => exact consistent.cancel n
  | cancelSlot slot => exact consistent.cancelSlot slot
  | configure catchUp => exact ⟨consistent.keyed, consistent.earlier, consistent.slotted, consistent.paced⟩
  | advance limit => exact consistent.advance limit

theorem Consistent.operated (consistent : t.Consistent) (ops : List Operation) : (t.operated ops).Consistent := by
  induction ops generalizing t with
  | nil => exact consistent
  | cons op ops ih => exact ih (consistent.operate op)

theorem nextId_cancel : (t.cancel n).nextId = t.nextId := by
  unfold cancel
  split <;> rfl

theorem nextId_cancelSlot : (t.cancelSlot slot).nextId = t.nextId := by
  unfold cancelSlot
  split
  · rfl
  · exact nextId_cancel

theorem start_id : (t.start slot action rate).1 = t.nextId := nextId_cancelSlot

theorem nextId_operate : (t.operate op).nextId = t.nextId + [op].countP Operation.isStart := by
  cases op with
  | start slot action rate =>
    change (t.cancelSlot slot).nextId + 1 = t.nextId + 1
    rw [nextId_cancelSlot]
  | cancel n => exact nextId_cancel
  | cancelSlot slot => exact nextId_cancelSlot
  | configure catchUp => rfl
  | advance limit => rfl

theorem nextId_operated : (t.operated ops).nextId = t.nextId + ops.countP Operation.isStart := by
  induction ops generalizing t with
  | nil => rfl
  | cons op ops ih =>
    have rest := ih (t := t.operate op)
    rw [nextId_operate, Nat.add_assoc, ← List.countP_append] at rest
    exact rest

theorem operated_append : t.operated (earlier ++ later) = (t.operated earlier).operated later :=
  List.foldl_append

theorem Consistent.one_per_slot (consistent : t.Consistent) (first : t.tasks[n]? = some task)
    (second : t.tasks[m]? = some other) (same : task.slot = other.slot) : n = m := by
  have named : t.slots[task.slot]? = some n := (consistent.slotted _ _).mpr ⟨task, first, rfl⟩
  have named' : t.slots[task.slot]? = some m := (consistent.slotted _ _).mpr ⟨other, second, same.symm⟩
  rw [named] at named'
  exact Option.some.inj named'

theorem Consistent.start_fresh (consistent : t.Consistent) (live : t.isActive n = true) (ops : List Operation) :
    ((t.operated ops).start slot action rate).1 ≠ n := by
  have present : n ∈ t.tasks := live
  have used : n < t.nextId := consistent.earlier n _ (Std.ExtTreeMap.getElem?_eq_some_getElem present)
  rw [start_id, nextId_operated]
  omega

structure Kept (ops : List Operation) (t : Timeline) : Prop where
  slotted : ∀ (slot : Slot) (n : Nat), t.slots[slot]? = some n ↔ ∃ task : Task, t.tasks[n]? = some task ∧ task.slot = slot
  one_per_slot : ∀ (n m : Nat) (task other : Task), t.tasks[n]? = some task → t.tasks[m]? = some other →
    task.slot = other.slot → n = m
  keyed : ∀ (n : Nat) (task : Task), t.tasks[n]? = some task → task.id = n ∧ n < t.nextId
  -- with fewer than `2 ^ 64` starts all numbers are below that
  numbered : t.nextId = ops.countP Operation.isStart
  fresh : ∀ earlier later, ops = earlier ++ later → ∀ n, (initial.operated earlier).isActive n = true →
    ∀ slot action rate, (t.start slot action rate).1 ≠ n
  paced : ∀ (n : Nat) (task : Task), t.tasks[n]? = some task → Task.shortest ≤ task.interval
  defined : ∀ (n : Nat) (task : Task), t.tasks[n]? = some task → ∀ limit,
    Task.fire? task.interval limit t.maxCatchUp task.next = some (Task.fire task.interval limit t.maxCatchUp task.next)

theorem operated_kept (ops : List Operation) : Kept ops (initial.operated ops) := by
  have first : initial.Consistent := consistent_initial defaultCatchUp
  have consistent := first.operated ops
  constructor
  · exact consistent.slotted
  · intro n m task other live live' same
    exact consistent.one_per_slot live live' same
  · intro n task live
    exact ⟨consistent.keyed n task live, consistent.earlier n task live⟩
  · rw [nextId_operated]
    exact Nat.zero_add _
  · rintro earlier later rfl n live slot action rate
    rw [operated_append]
    exact (first.operated earlier).start_fresh live later
  · exact consistent.paced
  · intro n task live limit
    exact Task.fire?_eq (consistent.interval_pos live) _

end Timeline
end Diorama
