import MetadataFilter.Program

/-!
# The command line

Reads what the program may need, runs it, and writes what it says: records to standard output, and a
failure to standard error, its causes below it.
-/

namespace MetadataFilter.CommandLine

/-- The variables of an environment block: names and values, each pair ended by a zero byte. -/
def variablesOf (block : List UInt8) : List (String × String) :=
  (block.splitOnP (· == 0)).filterMap fun entry =>
    let name := entry.takeWhile (· != '='.toUInt8)
    match String.fromUTF8? name.toByteArray,
      String.fromUTF8? (entry.drop (name.length + 1)).toByteArray with
    | some name, some value => if name.isEmpty then none else some (name, value)
    | _, _ => none

def readEnvironment : IO (List (String × String)) := do
  try
    let block ← IO.FS.readBinFile "/proc/self/environ"
    return variablesOf block.toList
  catch _ =>
    let names :=
      [Arguments.configVariable, "GELFILTER_MODE", "GELFILTER_MAX_DEPTH", "GELFILTER_CLAUSE"]
    names.filterMapM fun name => return (← IO.getEnv name).map fun value => (name, value)

/-- The files among the given paths that can be read. -/
def readFiles (paths : List String) : IO (List (String × ByteArray)) :=
  paths.filterMapM fun (path : String) => do
    try
      let content ← IO.FS.readBinFile path
      return some (path, content)
    catch _ => return none

/-- The paths that a run with these arguments may read. -/
def pathsOf (arguments : Arguments) : List String :=
  arguments.input.toList ++ arguments.config.toList.flatMap settingsPaths

/-- What a run with the given words may read. -/
def readHost (words : List String) : IO Host := do
  let host : Host := { environment := ← readEnvironment }
  match Arguments.parse host words with
  | .error _ => return host
  | .ok arguments =>
    let files ← readFiles (pathsOf arguments)
    match arguments.source with
    | .stdin => return { host with files, stdin := ← (← IO.getStdin).readBinToEnd }
    | _ => return { host with files }

end MetadataFilter.CommandLine

open MetadataFilter in
/-- Runs the program and returns its exit code. -/
def main (words : List String) : IO UInt32 := do
  let outcome := Program.run (← CommandLine.readHost words) words
  match outcome with
  | .refused => IO.eprintln "error: the arguments cannot be used; see --help"
  | .finished stdout failure =>
    IO.print stdout
    match failure.map Failure.chain with
    | some (first :: causes) =>
      IO.eprintln ("Error: " ++ first)
      for cause in causes do IO.eprintln ("  caused by: " ++ cause)
    | _ => pure ()
  return outcome.exitCode.toUInt32
