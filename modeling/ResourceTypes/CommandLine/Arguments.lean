/-!
Arguments of the command line. Options are given by a letter or by a word;
some of them may stand in front of the command as well as behind it.
-/

namespace ResourceTypes.CommandLine

inductive OutputFormat where
  | text | json
deriving DecidableEq, Repr

def OutputFormat.ofName? : String → Option OutputFormat
  | "text" => some .text
  | "json" => some .json
  | _ => none

inductive Flag where
  | config | verbose | version | registry | format | type | apiVersion
deriving DecidableEq, Repr

namespace Flag

def letter : Flag → Char
  | .config => 'c'
  | .verbose => 'v'
  | .version => 'V'
  | .registry => 'r'
  | .format => 'f'
  | .type => 't'
  | .apiVersion => 'a'

def word : Flag → String
  | .config => "config"
  | .verbose => "verbose"
  | .version => "version"
  | .registry => "registry"
  | .format => "format"
  | .type => "type"
  | .apiVersion => "api-version"

def takesValue : Flag → Bool
  | .verbose | .version => false
  | _ => true

/-- Whether a value may be given to an option; names of files are not empty. -/
def accepts (flag : Flag) (value : String) : Bool :=
  match flag with
  | .config | .registry => value ≠ ""
  | .format => (OutputFormat.ofName? value).isSome
  | _ => true

def global : List Flag := [.config, .verbose]

end Flag

inductive Command where
  | validate (manifest : String) (catalog? : Option String) (format : OutputFormat)
  | describe (manifest type version : String) (catalog? : Option String)
deriving DecidableEq, Repr

/-- What is asked for, and the file that configures it. -/
structure Request where
  config? : Option String
  command : Command
deriving DecidableEq, Repr

/-- Why reading ends without a request: the arguments are wrong, or ask for the version. -/
inductive Interruption where
  | usage
  | version
deriving DecidableEq, Repr

/-- The options that have been read, and one whose value has still to come. -/
structure Given where
  options : List (Flag × String)
  open? : Option Flag

namespace Given

def none : Given := ⟨[], .none⟩

def value? (given : Given) (flag : Flag) : Option String :=
  (given.options.find? (·.1 = flag)).map (·.2)

/-- Adds an option, which may be given once; asking for the version ends the reading. -/
def add (given : Given) (flag : Flag) (value : String) : Except Interruption Given :=
  if flag = .version then .error .version
  else if (given.value? flag).isSome || !flag.accepts value then .error .usage
  else .ok ⟨(flag, value) :: given.options, .none⟩

/-- Reads an option given by its word, with or without a value behind an equals sign. -/
def readWord (given : Given) (known : List Flag) (text : List Char) :
    Except Interruption Given := do
  let word := String.ofList (text.takeWhile (· ≠ '='))
  let attached? := (text.dropWhile (· ≠ '=')).tail?
  match known.find? (·.word = word), attached? with
  | .none, _ => .error .usage
  | some flag, some value =>
    if flag.takesValue then given.add flag (String.ofList value) else .error .usage
  | some flag, .none =>
    if flag.takesValue then .ok { given with open? := some flag } else given.add flag ""

/-- Reads options given by their letters; one with a value takes the letters behind it. -/
def readLetters (given : Given) (known : List Flag) : List Char → Except Interruption Given
  | [] => .ok given
  | letter :: rest =>
    match known.find? (·.letter = letter) with
    | .none => .error .usage
    | some flag =>
      if !flag.takesValue then do (← given.add flag "").readLetters known rest
      else match rest with
        | [] => .ok { given with open? := some flag }
        | '=' :: value => given.add flag (String.ofList value)
        | value => given.add flag (String.ofList value)

end Given

/--
Reads arguments up to the first operand, or past all operands. Behind two
dashes all arguments are operands, of which a command is none.
-/
def readArguments (known : List Flag) (pastOperands : Bool) (given : Given) :
    List String → Except Interruption (Given × List String)
  | [] => if given.open?.isSome then .error .usage else .ok (given, [])
  | argument :: rest =>
    match argument.toList with
    | ['-', '-'] =>
      if given.open?.isSome || !pastOperands then .error .usage else .ok (given, rest)
    | '-' :: '-' :: text =>
      if given.open?.isSome then .error .usage
      else do readArguments known pastOperands (← given.readWord known text) rest
    | '-' :: letter :: letters =>
      if given.open?.isSome then .error .usage
      else do readArguments known pastOperands (← given.readLetters known (letter :: letters)) rest
    | _ =>
      match given.open? with
      | some flag => do readArguments known pastOperands (← given.add flag argument) rest
      | .none =>
        if pastOperands then do
          let (given, operands) ← readArguments known pastOperands given rest
          .ok (given, argument :: operands)
        else .ok (given, argument :: rest)

/-- The only operand of a command, which is the name of a file. -/
def manifestOf : List String → Except Interruption String
  | [name] => if name = "" then .error .usage else .ok name
  | _ => .error .usage

def require (given : Given) (flag : Flag) : Except Interruption String :=
  (given.value? flag).elim (.error .usage) .ok

/-- Reads a command from its arguments; what it says of the configuration comes first. -/
def readCommand (name : String) (outer : Given) (arguments : List String) :
    Except Interruption Request :=
  match name with
  | "validate" => do
    let (given, operands) ←
      readArguments (Flag.global ++ [.registry, .format]) true .none arguments
    let manifest ← manifestOf operands
    let format := ((given.value? .format).bind OutputFormat.ofName?).getD .text
    return ⟨(given.value? .config).or (outer.value? .config),
      .validate manifest (given.value? .registry) format⟩
  | "describe" => do
    let (given, operands) ←
      readArguments (Flag.global ++ [.type, .apiVersion, .registry]) true .none arguments
    let manifest ← manifestOf operands
    return ⟨(given.value? .config).or (outer.value? .config),
      .describe manifest (← require given .type) (← require given .apiVersion)
        (given.value? .registry)⟩
  | _ => .error .usage

/-- The request that some arguments make. -/
def Request.ofArguments (arguments : List String) : Except Interruption Request := do
  match ← readArguments (Flag.global ++ [.version]) false .none arguments with
  | (given, name :: rest) => readCommand name given rest
  | (_, []) => .error .usage

end ResourceTypes.CommandLine
