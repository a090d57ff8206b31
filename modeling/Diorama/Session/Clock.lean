import Diorama.Session.Machine

namespace Diorama.Session

variable {σ : Type} [Surface σ]

def cancelTask (id : Nat) (s : Session σ) : Session σ :=
  { s with timeline := s.timeline.cancel id }

-- A task whose shape is gone is dropped. So is one that fails otherwise, and its handle is forgotten.
def fire (f : Firing) (s : Session σ) : Session σ :=
  match s.timeline.tasks[f.task]? with
  | none => s
  | some task =>
    match act Machine.redraw task.slot.shape task.action s with
    | .ok _ s => s
    | .error (.unknownShape _) s => s.cancelTask f.task
    | .error _ s => (s.cancelTask f.task).clearHandle task.slot

def advance (d : Duration) (s : Session σ) : Session σ :=
  let (firings, timeline) := s.timeline.advance (s.timeline.now.plus d)
  firings.foldl (fun s f => s.fire f) { s with timeline }

def tick (seconds : Float) (s : Session σ) : Session σ :=
  s.advance ((Duration.ofSeconds? seconds).getD 0)

end Diorama.Session
