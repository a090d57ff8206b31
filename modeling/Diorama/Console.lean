import Diorama.Library
import Diorama.Scene
import Diorama.Session.Clock
import Diorama.Session.Text
import Diorama.Settings

namespace Diorama

inductive LogKind where
  | command
  | output
  | error
  deriving DecidableEq, Repr

structure LogLine where
  kind : LogKind
  text : String
  deriving DecidableEq, Repr

structure Console where
  session : Session Scene
  canvas : CanvasSettings
  input : String
  history : List String
  browsing : Option Nat
  log : List LogLine
  stack : List String

namespace Console

def put (kind : LogKind) (text : String) (c : Console) : Console :=
  { c with log := c.log ++ [⟨kind, text⟩] }

def drain (c : Console) : Console :=
  let (texts, session) := c.session.takeShown
  { c with session, log := c.log ++ texts.map (⟨.output, ·⟩) }

-- Runs the script that reading a file gave. A failure is logged before what the script has shown.
def runScript (path : String) (found : Except ReadFault String) (c : Console) : Console :=
  match found with
  | .error fault => c.put .error ("cannot read " ++ path ++ ": " ++ fault.message)
  | .ok text =>
    let (result, session) := c.session.execScript text
    let c := { c with session }
    let c := match result with
      | .ok _ => c
      | .error failure => c.put .error (path ++ ": " ++ failure.message)
    c.drain

def new (settings : Settings) : Console where
  session := (Session.new Library.standard Scene.initial (.kept [])).setCatchUp settings.maxCatchUp
  canvas := settings.canvas
  input := ""
  history := []
  browsing := none
  log := []
  stack := []

def start (settings : Settings) (folder : Folder) : Console :=
  match settings.script with
  | some path => (new settings).runScript path (folder.read path)
  | none => new settings

def remember (line : String) (history : List String) : List String :=
  if history.getLast? = some line then history else history ++ [line]

def submit (c : Console) : Console :=
  let line := Text.trim c.input
  let c := { c with input := "", browsing := none }
  if line.isEmpty then c
  else
    let c := { c with history := remember line c.history }.put .command ("> " ++ line)
    let (result, session) := c.session.execLine line
    let c := { c with session }
    let c := match result with
      | .ok stack => { c with stack := stack.topTexts Stack.shownDepth }
      | .error failure => c.put .error failure.message
    c.drain

-- The entry to show next in a history with this last index. Before the oldest there is none older;
-- behind the newest nothing is shown.
def browseFrom (last : Nat) : Option Nat → (back : Bool) → Option Nat
  | none, true => some last
  | none, false => none
  | some i, true => some (i - 1)
  | some i, false => if i < last then some (i + 1) else none

def browse (back : Bool) (c : Console) : Console :=
  if c.history.isEmpty then c
  else
    let browsing := browseFrom (c.history.length - 1) c.browsing back
    { c with browsing, input := (browsing.bind (c.history[·]?)).getD "" }

inductive Key where
  | enter
  | up
  | down
  deriving DecidableEq, Repr

structure Frame where
  typed : Option String
  key : Option Key
  focused : Bool
  deriving DecidableEq, Repr

structure Outcome where
  shownInput : String
  refocus : Bool
  repaint : Bool
  deriving DecidableEq, Repr

def longestStep : Float := 0.1

-- A key in the command field. Whether the field asks for the focus again.
def press (frame : Frame) (c : Console) : Bool × Console :=
  if frame.focused then
    match frame.key with
    | some .enter => (true, c.submit)
    | some .up => (false, c.browse true)
    | some .down => (false, c.browse false)
    | none => (false, c)
  else (false, c)

def update (frame : Frame) (elapsed : Float) (c : Console) : Outcome × Console :=
  let step := if elapsed < longestStep then elapsed else longestStep
  let c := { c with session := c.session.tick step }.drain
  let repaint := !c.session.timeline.tasks.isEmpty
  let c := { c with input := frame.typed.getD c.input }
  let (refocus, after) := c.press frame
  (⟨c.input, refocus, repaint⟩, after)

end Console
end Diorama
