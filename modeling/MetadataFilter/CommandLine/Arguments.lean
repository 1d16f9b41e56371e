import MetadataFilter.Fragment.Mode
import MetadataFilter.Input.Source
import MetadataFilter.Number.Integer

/-!
# Arguments of the command line

The command line takes at most one filter, options with a value and flags without one. An option has
a long name and may have a short one; its value is attached (`--mode=escaped`, `-mescaped`,
`-m=escaped`) or the next word, if that does not look like an option. Short names can be bundled.
Behind `--` no word is an option. Nothing is given twice.

`Arguments.parse` reads the words from left to right and stops at the first that cannot be, or that
asks for the version or for help.
-/

namespace MetadataFilter

structure Arguments where
  filter : Option String := none
  input : Option String := none
  mode : Option Mode := none
  maxDepth : Option Nat := none
  config : Option String := none
  threads : Option Nat := none
  batch : Bool := false
  clause : Bool := false
  json : Bool := false
  verbose : Bool := false
  deriving DecidableEq

/-- Why the words of a command line give no arguments. -/
inductive Halt
  /-- A word cannot be. -/
  | refused
  | version
  | help
  deriving DecidableEq

inductive ValueOption
  | input | mode | maxDepth | config | threads
  deriving DecidableEq

inductive Flag
  | batch | clause | json | verbose | version | help
  deriving DecidableEq

/-- What a name stands for. -/
inductive Named
  | flag (flag : Flag)
  | option (option : ValueOption)
  deriving DecidableEq

def Named.ofLong? (name : List Char) : Option Named :=
  [("input", option .input), ("mode", option .mode), ("max-depth", option .maxDepth),
    ("config", option .config), ("threads", option .threads), ("batch", flag .batch),
    ("clause", flag .clause), ("json", flag .json), ("verbose", flag .verbose),
    ("version", flag .version), ("help", flag .help)].lookup (String.ofList name)

def Named.ofShort? : Char → Option Named
  | 'i' => some (option .input)
  | 'm' => some (option .mode)
  | 'c' => some (option .config)
  | 't' => some (option .threads)
  | 'v' => some (flag .verbose)
  | 'V' => some (flag .version)
  | 'h' => some (flag .help)
  | _ => none

namespace Arguments

/-- Fills a place that is still empty with a value that could be read. -/
def fill {α : Type} (place value : Option α) : Except Halt (Option α) :=
  match place, value with
  | none, some x => .ok (some x)
  | _, _ => .error .refused

def raise (place : Bool) : Except Halt Bool := if place then .error .refused else .ok true

/-- A path has at least one character. -/
def path? (text : String) : Option String := if text.isEmpty then none else some text

def setOption (arguments : Arguments) (option : ValueOption) (value : String) :
    Except Halt Arguments := do
  match option with
  | .input => return { arguments with input := ← fill arguments.input (path? value) }
  | .mode => return { arguments with mode := ← fill arguments.mode (Mode.ofLabel? value) }
  | .maxDepth =>
    return { arguments with maxDepth := ← fill arguments.maxDepth (unsigned? value.toList) }
  | .config => return { arguments with config := ← fill arguments.config (path? value) }
  | .threads =>
    return { arguments with threads := ← fill arguments.threads (unsigned? value.toList) }

def setFlag (arguments : Arguments) (flag : Flag) : Except Halt Arguments := do
  match flag with
  | .batch => return { arguments with batch := ← raise arguments.batch }
  | .clause => return { arguments with clause := ← raise arguments.clause }
  | .json => return { arguments with json := ← raise arguments.json }
  | .verbose => return { arguments with verbose := ← raise arguments.verbose }
  | .version => throw .version
  | .help => throw .help

def setFilter (arguments : Arguments) (word : String) : Except Halt Arguments := do
  return { arguments with filter := ← fill arguments.filter (some word) }

/-- A word that looks like an option: it starts with a hyphen and is more than that. -/
def looksLikeOption (word : String) : Bool :=
  match word.toList with
  | '-' :: _ :: _ => true
  | _ => false

/-- Bundled short names. The last may be an option whose value is attached, or is still to come. -/
def parseShort (arguments : Arguments) : List Char → Except Halt (Arguments × Option ValueOption)
  | [] => .ok (arguments, none)
  | name :: rest =>
    match Named.ofShort? name with
    | none => .error .refused
    | some (.flag flag) => do
      let arguments ← arguments.setFlag flag
      parseShort arguments rest
    | some (.option option) =>
      match rest with
      | [] => .ok (arguments, some option)
      | '=' :: value => (arguments.setOption option (String.ofList value)).map (·, none)
      | value => (arguments.setOption option (String.ofList value)).map (·, none)

/-- A long name, perhaps with an attached value. -/
def parseLong (arguments : Arguments) (text : List Char) :
    Except Halt (Arguments × Option ValueOption) :=
  let name := text.takeWhile (· != '=')
  let attached := text.drop name.length
  match Named.ofLong? name, attached with
  | none, _ => .error .refused
  | some (.flag flag), [] => (arguments.setFlag flag).map (·, none)
  | some (.flag _), _ :: _ => .error .refused
  | some (.option option), [] => .ok (arguments, some option)
  | some (.option option), _ :: value =>
    (arguments.setOption option (String.ofList value)).map (·, none)

/-- A word that looks like an option, apart from `--`. -/
def parseOption (arguments : Arguments) (word : String) :
    Except Halt (Arguments × Option ValueOption) :=
  match word.toList with
  | '-' :: '-' :: name => parseLong arguments name
  | '-' :: names => parseShort arguments names
  | _ => .error .refused

/-- The words of a command line, where an option may wait for its value. -/
def parseWords (arguments : Arguments) (waiting : Option ValueOption) :
    List String → Except Halt Arguments
  | [] => if waiting.isSome then .error .refused else .ok arguments
  | word :: rest =>
    match waiting with
    | some option =>
      if looksLikeOption word then .error .refused
      else do
        let arguments ← arguments.setOption option word
        parseWords arguments none rest
    | none =>
      if word = "--" then rest.foldlM setFilter arguments
      else if looksLikeOption word then do
        let (arguments, waiting) ← arguments.parseOption word
        parseWords arguments waiting rest
      else do
        let arguments ← arguments.setFilter word
        parseWords arguments none rest

/-- The variable that stands in for the option `--config`. -/
def configVariable : String := "GELFILTER_CONFIG"

/-- The settings file that the environment names, if the command line names none. -/
def addVariable (host : Host) (arguments : Arguments) : Except Halt Arguments :=
  match arguments.config, host.environmentValue? configVariable with
  | none, some value => arguments.setOption .config value
  | _, _ => .ok arguments

/-- The arguments that the words of a command line give. A filter and an input file exclude each
other. -/
def parse (host : Host) (words : List String) : Except Halt Arguments := do
  let arguments ← parseWords {} none words
  let arguments ← arguments.addVariable host
  if arguments.input.isSome && arguments.filter.isSome then throw .refused
  return arguments

/-- Where the input comes from. A single hyphen is standard input. -/
def source (arguments : Arguments) : Source :=
  match arguments.input, arguments.filter with
  | some path, _ => .file path
  | none, none => .stdin
  | none, some text => if text = "-" then .stdin else .inline text

end Arguments

end MetadataFilter
