import PairGrep.CommandLine.Run

/-!
# The program

The outer layer of the command line: it collects the arguments, the environment, standard input and
the files that a request may read, and hands out what the run of the request says.
-/

namespace PairGrep.CommandLine

partial def readStdin (input : IO.FS.Stream) (start : ByteArray) : IO ByteArray := do
  let chunk ← input.read 65536
  if chunk.isEmpty then return start
  readStdin input (start ++ chunk)

def readEntry? (path : String) : IO (Option (String × Entry)) := do
  try
    let bytes ← IO.FS.readBinFile path
    return some (path, .file bytes.toList)
  catch _ => return none

def readWorld (args : List String) : IO World := do
  let environment := ⟨← IO.getEnv "XDG_CONFIG_HOME", ← IO.getEnv "HOME"⟩
  let request := Request.ofArguments? args
  let entries ← ((request.map (·.paths environment)).getD []).filterMapM readEntry?
  let stdin ← if request.any (·.input == "-") then readStdin (← IO.getStdin) .empty
    else pure .empty
  return ⟨⟨fun path => entries.lookup path⟩, environment, stdin.toList⟩

end PairGrep.CommandLine

open PairGrep.CommandLine in
/-- Runs a command line and returns its exit code. -/
def main (args : List String) : IO UInt32 := do
  let outcome := Outcome.of (run args (← readWorld args))
  IO.print outcome.stdout
  IO.eprint outcome.stderr
  return outcome.code.toUInt32
