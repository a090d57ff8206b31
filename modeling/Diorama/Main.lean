import Diorama.Console.Panels
import Diorama.Options

namespace Diorama.Main

def faultOf : IO.Error → ReadFault
  | .noFileOrDirectory .. => .notFound
  | e => .other (toString e)

def readText (path : String) : IO (Except ReadFault String) := do
  try
    return .ok (← IO.FS.readFile path)
  catch e => return .error (faultOf e)

def report (output : IO.FS.Stream) (logged : Nat) (c : Console) : IO Unit := do
  for label in c.logLabels.drop logged ++ c.stackLabels do
    output.putStrLn label.text
  output.flush

def nanoseconds : Float := 1000000000

partial def serve (input output : IO.FS.Stream) (last : Nat) (c : Console) : IO Unit := do
  let line ← input.getLine
  unless line.isEmpty do
    let now ← IO.monoNanosNow
    let elapsed := (now - last).toFloat / nanoseconds
    let (_, next) := c.update ⟨some line, some .enter, true⟩ elapsed
    report output c.log.length next
    serve input output now next

def run (options : Options) : IO UInt32 := do
  let found ← readText options.path
  match Settings.ofFile options.path options.settings.isSome found with
  | .error fault =>
    (← IO.getStderr).putStrLn ("shapes: " ++ fault.message)
    return 1
  | .ok settings =>
    let settings := options.apply settings
    let start ← match settings.script with
      | some path => do pure ((Console.new settings).runScript path (← readText path))
      | none => pure (Console.new settings)
    let output ← IO.getStdout
    report output 0 start
    serve (← IO.getStdin) output (← IO.monoNanosNow) start
    return 0

end Diorama.Main

def main (args : List String) : IO UInt32 := do
  match Diorama.Options.initial.read? args with
  | some options => Diorama.Main.run options
  | none =>
    (← IO.getStderr).putStrLn "usage: shapes [--config FILE] [--script FILE] [--log FILTER]"
    return 2
