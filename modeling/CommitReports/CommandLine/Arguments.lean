/-!
# Arguments

`Command.ofArguments?` reads the arguments of the program: a request for help or
for the version, or for a run. The first argument that decides the matter counts:
arguments that break the rules before it are refused, those behind it are not
looked at. An option is given at most once.
-/

namespace CommitReports

/-! ## What can be asked for -/

/-- What a run is asked for on the command line. -/
structure Invocation where
  /-- Do not fetch from the remote first. -/
  noPull : Bool := false
  dryRun : Bool := false
  /-- The path of the settings file. -/
  config : Option String := none
  deriving DecidableEq, Repr

/-- What the command line asks for. -/
inductive Command where
  | help
  | version
  | run (invocation : Invocation)
  deriving DecidableEq, Repr

/-! ## Options -/

/-- The options of the command line. -/
inductive CliOption where
  | noPull
  | dryRun
  | config
  | help
  | version
  deriving DecidableEq, Repr

namespace CliOption

/-- The letter of an option. -/
def letter : CliOption → Char
  | .noPull => 'n'
  | .dryRun => 'd'
  | .config => 'c'
  | .help => 'h'
  | .version => 'V'

/-- The name of an option. -/
def name : CliOption → String
  | .noPull => "no-pull"
  | .dryRun => "dry-run"
  | .config => "config"
  | .help => "help"
  | .version => "version"

/-- All options. -/
def all : List CliOption := [.noPull, .dryRun, .config, .help, .version]

/-- The option of a letter. -/
def ofLetter? (letter : Char) : Option CliOption := all.find? fun option => option.letter == letter

/-- The option of a name. -/
def ofName? (name : List Char) : Option CliOption :=
  all.find? fun option => option.name.toList == name

end CliOption

/-! ## From arguments to options -/

/-- One thing that the arguments say. -/
inductive CliToken where
  /-- An option without a value. -/
  | flag (option : CliOption)
  /-- The path of the settings file. -/
  | config (path : String)
  /-- Something that is against the rules. -/
  | misuse
  deriving DecidableEq, Repr

namespace CliToken

/-- What letters behind one dash say. The letter of an option with a value is followed by the
value, with or without an equals sign; where nothing follows it, the value is the next argument. -/
def ofLetters : List Char → List CliToken × Bool
  | [] => ([], false)
  | letter :: rest =>
    match CliOption.ofLetter? letter with
    | none => ([.misuse], false)
    | some .config =>
      match rest with
      | [] => ([], true)
      | '=' :: value => ([.config (String.ofList value)], false)
      | value => ([.config (String.ofList value)], false)
    | some option =>
      let (tokens, waiting) := ofLetters rest
      (.flag option :: tokens, waiting)

/-- What a name behind two dashes says, and whether the next argument is its value. -/
def ofLongName (text : List Char) : List CliToken × Bool :=
  let name := text.takeWhile (· != '=')
  let value := (text.drop name.length).drop 1
  match CliOption.ofName? name with
  | none => ([.misuse], false)
  | some .config =>
    if name = text then ([], true) else ([.config (String.ofList value)], false)
  | some option => if name = text then ([.flag option], false) else ([.misuse], false)

/-- What one argument says that is no value of the one before it; none for the two dashes that end
the options. -/
def ofArgument? (argument : String) : Option (List CliToken × Bool) :=
  match argument.toList with
  | ['-', '-'] => none
  | '-' :: '-' :: text => some (ofLongName text)
  | '-' :: letter :: rest => some (ofLetters (letter :: rest))
  | _ => some ([.misuse], false)

/-- Whether an argument can be the value of the option before it. -/
def isValue (argument : String) : Bool := argument = "-" || !argument.startsWith "-"

/-- What the arguments say, in order. -/
def ofArguments : List String → List CliToken
  | [] => []
  | argument :: rest =>
    match ofArgument? argument with
    -- Behind the two dashes, everything would be an argument that is no option.
    | none => if rest = [] then [] else [.misuse]
    | some (tokens, false) => tokens ++ ofArguments rest
    | some (tokens, true) =>
      match rest with
      | value :: rest =>
        if isValue value then tokens ++ .config value :: ofArguments rest
        else tokens ++ [.misuse]
      | [] => tokens ++ [.misuse]

end CliToken

/-! ## From options to a command -/

/-- What is asked for by tokens that follow those of an invocation. -/
def Command.ofTokens? (invocation : Invocation) : List CliToken → Option Command
  | [] => some (.run invocation)
  | .misuse :: _ => none
  | .flag .help :: _ => some .help
  | .flag .version :: _ => some .version
  | .flag .config :: _ => none
  | .flag .noPull :: rest =>
    if invocation.noPull then none else ofTokens? { invocation with noPull := true } rest
  | .flag .dryRun :: rest =>
    if invocation.dryRun then none else ofTokens? { invocation with dryRun := true } rest
  | .config path :: rest =>
    if path = "" ∨ invocation.config.isSome then none
    else ofTokens? { invocation with config := some path } rest

/-- What the arguments ask for; none if they break the rules. -/
def Command.ofArguments? (arguments : List String) : Option Command :=
  ofTokens? {} (CliToken.ofArguments arguments)

end CommitReports
