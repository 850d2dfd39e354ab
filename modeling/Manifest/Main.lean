import Manifest.Command

/-!
# The command line

`tree FILE [FLAGS]` shows the syntax tree of a manifest, and
`tokens FILE [FLAGS]` lists its tokens.
-/

namespace Manifest

def runOnFile (command : Command) (path : String) : IO UInt32 := do
  let text ← IO.FS.readFile path
  let outcome := command.run text.toList
  if let some (output, content) := outcome.file? then
    if let some directory := Command.directory? output then
      IO.FS.createDirAll directory
    IO.FS.writeFile output content
  IO.print outcome.printed
  return outcome.exitCode.toUInt32

end Manifest

def main (args : List String) : IO UInt32 := do
  match args with
  | name :: path :: flags =>
      match Manifest.Command.ofFlags? name flags with
      | some command => Manifest.runOnFile command path
      | none => IO.eprintln "unknown command or flag"; return 2
  | _ => IO.eprintln "usage: (tree | tokens) FILE [FLAGS]"; return 2
