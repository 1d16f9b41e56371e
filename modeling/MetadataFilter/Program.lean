import MetadataFilter.CommandLine.Arguments
import MetadataFilter.Input.Batch
import MetadataFilter.Input.Document
import MetadataFilter.Json.Writer
import MetadataFilter.Settings.Basic

/-!
# The program

The program compiles one filter document, or with `--batch` every line of its input, and writes one
record for each: the fragment or a JSON object. A batch goes on after a line that fails and writes
an error record for it. `Program.run` is the whole program as a function of its command line and of
what it can read; a `Failure` is what it fails with.
-/

namespace MetadataFilter

/-- Why the program fails. -/
inductive Failure
  | settings (cause : SettingsError)
  | zeroMaxDepth
  | unreadable (label : String)
  | document (label : String) (cause : DocumentError)
  | filter (label : String) (cause : FilterError)
  | batch (failures : Nat)
  deriving DecidableEq

/-- The texts of a failure, from what was attempted to what went wrong. -/
def Failure.chain : Failure → List String
  | .settings cause => "CLI: Failed to load settings" :: cause.message?.toList
  | .zeroMaxDepth => ["CLI: --max-depth must be at least 1"]
  | .unreadable label => ["Input: Failed to read " ++ label]
  | .document label cause => ["Input: " ++ label, cause.message]
  | .filter label cause => ["Compiler: Failed to compile filter from " ++ label, cause.message]
  | .batch failures => ["Batch: " ++ toString failures ++ " filter(s) failed to compile"]

structure OutputOptions where
  clause : Bool := false
  json : Bool := false
  deriving DecidableEq

namespace OutputOptions

/-- Parameters mean nothing without their values, so the parameterized mode writes JSON. -/
def ofSettings (settings : Settings) (arguments : Arguments) : OutputOptions where
  clause := settings.clause
  json := arguments.json || settings.mode == .parameterized

/-- The compiled filter as it is written: with `clause`, its fragment is the clause, if there is
one. -/
def clothe (options : OutputOptions) (compiled : CompiledFilter) : CompiledFilter :=
  if options.clause then
    { compiled with fragment := (Fragment.clause? compiled.fragment).getD "" }
  else compiled

def compiledRecord (options : OutputOptions) (compiled : CompiledFilter) : String :=
  let compiled := options.clothe compiled
  if options.json then compiled.toJson.toText else compiled.fragment

def errorRecord (options : OutputOptions) (message : String) : String :=
  if options.json then (Json.object [("error", .string message)]).toText else "error: " ++ message

end OutputOptions

/-- Why an entry of a batch failed. -/
inductive EntryError
  | notJson
  | filter (cause : FilterError)
  deriving DecidableEq

def EntryError.message : EntryError → String
  | .notJson => "invalid JSON"
  | .filter cause => cause.message

namespace Program

def readText (host : Host) (source : Source) : Except Failure String :=
  match host.text? source with
  | some text => .ok text
  | none => .error (.unreadable source.label)

def formatOf : Source → DocumentFormat
  | .file path => .ofPath path
  | .inline _ | .stdin => .auto

/-- Reads the filter document of a source. -/
def readFilter (host : Host) (source : Source) : Except Failure Json := do
  let text ← readText host source
  (readDocument (formatOf source) text.toList).mapError (Failure.document source.label)

/-- Compiles the document of a source. What is written is one record and a line feed. -/
def runSingle (host : Host) (source : Source) (compiler : Compiler) (options : OutputOptions) :
    Except Failure String := do
  let document ← readFilter host source
  let compiled ← (compiler.compile document).mapError (Failure.filter source.label)
  return options.compiledRecord compiled ++ "\n"

def compileEntry (compiler : Compiler) (entry : BatchEntry) : Except EntryError CompiledFilter :=
  match entry.document with
  | none => .error .notJson
  | some document => (compiler.compile document).mapError EntryError.filter

/-- The record of an entry; an error is preceded by the number of its line. -/
def entryRecord (compiler : Compiler) (options : OutputOptions) (entry : BatchEntry) : String :=
  match compileEntry compiler entry with
  | .ok compiled => options.compiledRecord compiled
  | .error e => options.errorRecord ("line " ++ toString entry.line ++ ": " ++ e.message)

def entryFails (compiler : Compiler) (entry : BatchEntry) : Bool :=
  match compileEntry compiler entry with
  | .ok _ => false
  | .error _ => true

/-- What is written for entries: their records, each with a line feed behind it. -/
def records (compiler : Compiler) (options : OutputOptions) : List BatchEntry → String
  | [] => ""
  | entry :: rest => entryRecord compiler options entry ++ "\n" ++ records compiler options rest

/-- Compiles every line of a source. Returns what is written and the number of lines that failed. -/
def runBatch (host : Host) (source : Source) (compiler : Compiler) (options : OutputOptions) :
    Except Failure (String × Nat) := do
  let text ← readText host source
  let entries := readBatch text.toList
  return (records compiler options entries, entries.countP (entryFails compiler))

/-- The settings, with what the command line says in place of what was loaded. -/
def resolveSettings (host : Host) (arguments : Arguments) : Except Failure Settings := do
  let settings ← (Settings.load host arguments.config).mapError Failure.settings
  if arguments.maxDepth = some 0 then throw .zeroMaxDepth
  return {
    mode := arguments.mode.getD settings.mode
    maxDepth := arguments.maxDepth.getD settings.maxDepth
    clause := arguments.clause || settings.clause }

/-- What a run of the program comes to. -/
inductive Outcome
  /-- The command line was refused. -/
  | refused
  /-- What was written to standard output, and what the program failed with, if it did. -/
  | finished (stdout : String) (failure : Option Failure)
  deriving DecidableEq

def Outcome.exitCode : Outcome → Nat
  | .refused => 2
  | .finished _ none => 0
  | .finished _ (some _) => 1

/-- The outcome of compiling the input that the arguments name. -/
def runArguments (host : Host) (arguments : Arguments) : Outcome :=
  match resolveSettings host arguments with
  | .error failure => .finished "" (some failure)
  | .ok settings =>
    let options := OutputOptions.ofSettings settings arguments
    if arguments.batch then
      match runBatch host arguments.source settings.compiler options with
      | .error failure => .finished "" (some failure)
      | .ok (written, failures) =>
        .finished written (if failures = 0 then none else some (.batch failures))
    else
      match runSingle host arguments.source settings.compiler options with
      | .error failure => .finished "" (some failure)
      | .ok written => .finished written none

def versionText : String := "gelfilter 0.1.0\n"

def helpText : String :=
  "Usage: gelfilter [OPTIONS] [FILTER]\n\n" ++
  "  -i, --input <INPUT>          Read the filter from a file\n" ++
  "      --batch                  One JSON filter per line\n" ++
  "  -m, --mode <MODE>            legacy, escaped or parameterized\n" ++
  "      --max-depth <MAX_DEPTH>  Maximum nesting depth\n" ++
  "      --clause                 Write fragments as filter clauses\n" ++
  "      --json                   Write fragment and parameters as JSON\n" ++
  "  -c, --config <CONFIG>        Settings file\n" ++
  "  -t, --threads <THREADS>      Number of threads\n" ++
  "  -v, --verbose                Say more\n" ++
  "  -h, --help                   Print help\n" ++
  "  -V, --version                Print version\n"

def run (host : Host) (words : List String) : Outcome :=
  match Arguments.parse host words with
  | .error .refused => .refused
  | .error .version => .finished versionText none
  | .error .help => .finished helpText none
  | .ok arguments => runArguments host arguments

end Program

end MetadataFilter
