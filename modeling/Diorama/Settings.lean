import Diorama.Folder
import Diorama.Timeline
import Diorama.Toml.Document

namespace Diorama

structure WindowSettings where
  width : Float32
  height : Float32
  deriving Repr

structure CanvasSettings where
  width : Float32
  height : Float32
  background : String
  deriving Repr

structure Settings where
  window : WindowSettings
  canvas : CanvasSettings
  maxCatchUp : Nat
  logFilter : String
  script : Option String
  deriving Repr

inductive SettingsFault where
  | unreadable (path : String) (fault : ReadFault)
  | invalid (path : String)
  deriving DecidableEq, Repr

def SettingsFault.message : SettingsFault → String
  | .unreadable path fault => "cannot read " ++ path ++ ": " ++ fault.message
  | .invalid path => "invalid config " ++ path

namespace Settings

def standard : Settings where
  window := ⟨1200, 800⟩
  canvas := ⟨800, 600, "white"⟩
  maxCatchUp := Timeline.defaultCatchUp
  logFilter := "info"
  script := none

-- The values of a section by name. A section is a table without other names, or an array that gives
-- the values in order.
def fields? (names : List String) : Toml → Option (List (String × Toml))
  | .table fields => if fields.all fun (name, _) => names.contains name then some fields else none
  | .array items => some (names.zip items)
  | _ => none

def size? : Toml → Option Float32
  | .integer n => some (Float32.ofInt n)
  | .float x => some x.toFloat32
  | _ => none

def string? : Toml → Option String
  | .string s => some s
  | _ => none

def count? : Toml → Option Nat
  | .integer n => if 0 ≤ n && n ≤ 4294967295 then some n.toNat else none
  | _ => none

-- The value of a name, or the default where the name is not given. None where it is of another
-- type.
def get? {α : Type} (fields : List (String × Toml)) (name : String) (decode : Toml → Option α)
    (default : α) : Option α :=
  match fields.lookup name with
  | some v => decode v
  | none => some default

def window? (v : Toml) : Option WindowSettings := do
  let fields ← fields? ["width", "height"] v
  pure ⟨← get? fields "width" size? standard.window.width,
    ← get? fields "height" size? standard.window.height⟩

def canvas? (v : Toml) : Option CanvasSettings := do
  let fields ← fields? ["width", "height", "background"] v
  pure ⟨← get? fields "width" size? standard.canvas.width,
    ← get? fields "height" size? standard.canvas.height,
    ← get? fields "background" string? standard.canvas.background⟩

def scheduler? (v : Toml) : Option Nat := do
  get? (← fields? ["max_catch_up"] v) "max_catch_up" count? standard.maxCatchUp

def log? (v : Toml) : Option String := do
  get? (← fields? ["filter"] v) "filter" string? standard.logFilter

def startup? (v : Toml) : Option (Option String) := do
  get? (← fields? ["script"] v) "script" (some <$> string? ·) standard.script

def ofToml? (document : List (String × Toml)) : Option Settings := do
  let fields ← fields? ["window", "canvas", "scheduler", "log", "startup"] (.table document)
  pure
    { window := ← get? fields "window" window? standard.window
      canvas := ← get? fields "canvas" canvas? standard.canvas
      maxCatchUp := ← get? fields "scheduler" scheduler? standard.maxCatchUp
      logFilter := ← get? fields "log" log? standard.logFilter
      script := ← get? fields "startup" startup? standard.script }

def beside (path : String) (s : Settings) : Settings :=
  match Path.parent? path with
  | some folder => { s with script := s.script.map (Path.join folder) }
  | none => s

def parse (text path : String) : Except SettingsFault Settings :=
  match Toml.parse? text >>= ofToml? with
  | some s => .ok (s.beside path)
  | none => .error (.invalid path)

def ofFile (path : String) (required : Bool) : Except ReadFault String → Except SettingsFault Settings
  | .ok text => parse text path
  | .error fault =>
    if fault = .notFound && !required then .ok standard else .error (.unreadable path fault)

def load (folder : Folder) (path : String) (required : Bool) : Except SettingsFault Settings :=
  ofFile path required (folder.read path)

end Settings
end Diorama
