import Diorama.Settings

namespace Diorama

structure Options where
  -- the settings file, which has to be there when it is named
  settings : Option String
  script : Option String
  logFilter : Option String
  deriving DecidableEq, Repr

namespace Options

def initial : Options := ⟨none, none, none⟩

def defaultPath : String := "shapes.toml"

def path (o : Options) : String := o.settings.getD defaultPath

def set? (o : Options) (name value : String) : Option Options :=
  match name with
  | "--config" => some { o with settings := value }
  | "--script" => some { o with script := value }
  | "--log" => some { o with logFilter := value }
  | _ => none

def read? (o : Options) : List String → Option Options
  | [] => some o
  | name :: value :: rest => do (← o.set? name value).read? rest
  | [_] => none

def apply (o : Options) (s : Settings) : Settings :=
  { s with script := o.script.or s.script, logFilter := o.logFilter.getD s.logFilter }

end Options
end Diorama
