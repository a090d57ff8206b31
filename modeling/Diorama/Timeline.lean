import Diorama.Duration
import Std.Data.ExtTreeMap

namespace Diorama

inductive Channel where
  | rotation
  | x
  | y
  deriving DecidableEq, Repr

def Channel.all : List Channel := [.rotation, .x, .y]

def Channel.rank : Channel → Nat
  | .rotation => 0
  | .x => 1
  | .y => 2

structure Slot where
  shape : String
  channel : Channel
  deriving DecidableEq, Repr

namespace Slot

instance : Ord Slot where
  compare a b := (compare a.shape b.shape).then (compare a.channel.rank b.channel.rank)

instance : Std.TransOrd Slot :=
  inferInstanceAs (Std.TransCmp
    (compareLex (compareOn Slot.shape) (compareOn fun s : Slot => s.channel.rank)))

instance : Std.LawfulEqOrd Slot where
  eq_of_compare {a b} h := by
    obtain ⟨hs, hc⟩ := Ordering.then_eq_eq.mp h
    obtain ⟨shape, channel⟩ := a
    obtain ⟨shape', channel'⟩ := b
    have hs := Std.LawfulEqOrd.eq_of_compare hs
    have hc := Std.LawfulEqOrd.eq_of_compare hc
    revert hc
    cases channel <;> cases channel' <;> simp_all [Channel.rank]

end Slot

inductive TaskAction where
  | rotate (step : Float)
  | translate (dx dy : Float)
  deriving BEq, Repr

structure Task where
  id : Nat
  slot : Slot
  action : TaskAction
  interval : Duration
  next : Duration
  deriving BEq, Repr

structure Firing where
  time : Duration
  task : Nat
  deriving DecidableEq, Repr

namespace Task

def shortest : Duration := .millisecond

def intervalAt (rate : Float) : Duration :=
  let seconds := 1 / rate.abs
  if seconds.isNaN then shortest
  else max ((Duration.ofSeconds? seconds).getD .longest) shortest

-- The most firings that one skip leaves out.
def skipLimit : Nat := 4294967295

def skip (interval limit due : Duration) : Duration :=
  due.plus (interval.times (min ((limit - due) / interval + 1) skipLimit))

-- The firings from `due` up to `limit`, no more than `allowance` of them, and the next due time.
def fire (interval limit : Duration) : (allowance : Nat) → (due : Duration) → List Duration × Duration
  | 0, due => ([], if due ≤ limit then skip interval limit due else due)
  | allowance + 1, due =>
    if due ≤ limit then
      let later := fire interval limit allowance (due.plus interval)
      (due :: later.1, later.2)
    else ([], due)

end Task

-- The clock and its tasks. `slots` tells which task is live on a channel.
structure Timeline where
  now : Duration
  nextId : Nat
  tasks : Std.ExtTreeMap Nat Task
  slots : Std.ExtTreeMap Slot Nat
  maxCatchUp : Nat

namespace Timeline

def defaultCatchUp : Nat := 32

def initial : Timeline := ⟨0, 0, ∅, ∅, defaultCatchUp⟩

def active? (t : Timeline) (slot : Slot) : Option Nat := t.slots[slot]?

def isActive (t : Timeline) (id : Nat) : Bool := t.tasks.contains id

def cancel (id : Nat) (t : Timeline) : Timeline :=
  match t.tasks[id]? with
  | none => t
  | some task =>
    { t with
      tasks := t.tasks.erase id
      slots := if t.slots[task.slot]? = some id then t.slots.erase task.slot else t.slots }

def cancelSlot (slot : Slot) (t : Timeline) : Timeline :=
  match t.active? slot with
  | none => t
  | some id => t.cancel id

def start (slot : Slot) (action : TaskAction) (rate : Float) (t : Timeline) : Nat × Timeline :=
  let t := t.cancelSlot slot
  let interval := Task.intervalAt rate
  let task : Task := ⟨t.nextId, slot, action, interval, t.now.plus interval⟩
  (t.nextId,
    { t with
      nextId := t.nextId + 1
      tasks := t.tasks.insert t.nextId task
      slots := t.slots.insert slot t.nextId })

def Firing.le (a b : Firing) : Bool := a.time < b.time || (a.time == b.time && a.task ≤ b.task)

def advance (limit : Duration) (t : Timeline) : List Firing × Timeline :=
  let fire (task : Task) := Task.fire task.interval limit t.maxCatchUp task.next
  let firings := t.tasks.toList.flatMap fun (_, task) => (fire task).1.map fun time => ⟨time, task.id⟩
  (firings.mergeSort Firing.le,
    { t with
      now := limit
      tasks := t.tasks.map fun _ task => { task with next := (fire task).2 } })

end Timeline
end Diorama
