import Diorama.Command
import Diorama.Session.Machine

namespace Diorama

inductive Failure where
  | mistake (m : Mistake)
  | fault (f : Fault)
  deriving DecidableEq, Repr

def Failure.message : Failure → String
  | .mistake m => m.message
  | .fault f => f.message

namespace Session

variable {σ : Type} [Surface σ]

def execLine (line : String) (s : Session σ) : Except Failure Stack × Session σ :=
  match parseLine 1 line with
  | .error m => (.error (.mistake m), s)
  | .ok program =>
    let (result, s) := s.exec program
    (result.mapError .fault, s)

def execAll : List Program → Session σ → Except Fault Unit × Session σ
  | [], s => (.ok (), s)
  | program :: rest, s =>
    match s.exec program with
    | (.ok _, s) => execAll rest s
    | (.error e, s) => (.error e, s)

-- Runs a script. Nothing is run when a line has a mistake.
def execScript (text : String) (s : Session σ) : Except Failure Unit × Session σ :=
  match parseScript text with
  | .error (m :: _) => (.error (.mistake m), s)
  | .error [] => (.ok (), s)
  | .ok programs =>
    let (result, s) := s.execAll programs
    (result.mapError .fault, s)

end Session
end Diorama
