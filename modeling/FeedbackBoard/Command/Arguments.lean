/-!
# Arguments

The command line names a command and its options.  The path of the settings may
be given before or after the command; the one after it decides.

Main definitions:

- `Command`, `Invocation`: what is asked for.
- `Arguments`, `Arguments.parse`: what a list of arguments means.
-/

namespace FeedbackBoard

/-- A command. -/
inductive Command
  | init
  | serve
  | reviews (json : Bool)
  | stats
  | exportRows (output : Option String)
  | importRows (file : String)
  | hashToken (token : String)
deriving DecidableEq, Repr

/-- A command and the path of the settings. -/
structure Invocation where
  settingsPath : String
  command : Command
deriving DecidableEq, Repr

/-- What a list of arguments means. -/
inductive Arguments
  | run (invocation : Invocation)
  | version
  | help
  | mistaken
deriving DecidableEq, Repr

/-- The path of the settings where none is given. -/
def defaultSettingsPath : String := "./config/evalboard.toml"

namespace Arguments

/-! ## Single arguments -/

/-- Whether an argument looks like an option; a lone hyphen does not. -/
def looksLikeOption (argument : String) : Bool :=
  argument.toList.head? == some '-' && argument != "-"

/-- What follows a word at the beginning of an argument. -/
def after? (word argument : String) : Option String :=
  if word.toList.isPrefixOf argument.toList then
    some (String.ofList (argument.toList.drop word.toList.length))
  else none

/-- The value of an option that stands in the next argument, which must not look like an option. -/
def nextValue? : List String → Option (String × List String)
  | [] => none
  | value :: rest => if looksLikeOption value then none else some (value, rest)

/-- The value of a long option: in the argument itself or in the next. -/
def longValue? (name argument : String) (rest : List String) : Option (Option (String × List String)) :=
  if argument = name then some (nextValue? rest)
  else (after? (name ++ "=") argument).map fun value => some (value, rest)

/-- The value of a short option: in the argument itself, perhaps after an equals sign, or in the next. -/
def shortValue? (name argument : String) (rest : List String) : Option (Option (String × List String)) :=
  if argument = name then some (nextValue? rest)
  else
    match after? (name ++ "=") argument with
    | some value => some (some (value, rest))
    | none => (after? name argument).map fun value => some (value, rest)

/-! ## Options of a command -/

/-- What a command accepts. -/
structure Accepted where
  json : Bool
  output : Bool
  /-- Whether the command takes a value without a name. -/
  value : Bool

/-- What has been given to a command. -/
structure Given where
  settingsPath : Option String
  json : Bool
  output : Option String
  value : Option String

/-- The outcome of reading the arguments of a command. -/
inductive Collected
  | given (given : Given)
  | help
  | mistaken

/-- Takes a value without a name, if the command accepts one and has none yet. -/
def Given.takeValue? (accepted : Accepted) (given : Given) (value : String) : Option Given :=
  if accepted.value && given.value.isNone then some { given with value := some value } else none

/-- Takes values without a name only. -/
def collectValues (accepted : Accepted) : Given → List String → Collected
  | given, [] => .given given
  | given, value :: rest =>
    match given.takeValue? accepted value with
    | some given => collectValues accepted given rest
    | none => .mistaken

/-- Takes the path of the settings, once and not empty. -/
def Given.takeSettings? (given : Given) (path : String) : Option Given :=
  if given.settingsPath.isNone && path != "" then some { given with settingsPath := some path }
  else none

/-- Takes the path of an output, once and not empty. -/
def Given.takeOutput? (accepted : Accepted) (given : Given) (path : String) : Option Given :=
  if accepted.output && given.output.isNone && path != "" then
    some { given with output := some path }
  else none

/-- Reads the arguments of a command from left to right. -/
def collect (accepted : Accepted) : (fuel : Nat) → Given → List String → Collected
  | 0, _, _ => .mistaken
  | _ + 1, given, [] => .given given
  | fuel + 1, given, argument :: rest =>
    if argument = "--" then collectValues accepted given rest
    else if argument = "--help" ∨ (after? "-h" argument).isSome then .help
    else if argument = "--json" then
      if accepted.json && !given.json then collect accepted fuel { given with json := true } rest
      else .mistaken
    else
      match longValue? "--config" argument rest with
      | some none => .mistaken
      | some (some (path, rest)) =>
        match given.takeSettings? path with
        | some given => collect accepted fuel given rest
        | none => .mistaken
      | none =>
        let output :=
          match longValue? "--output" argument rest with
          | some found => some found
          | none => shortValue? "-o" argument rest
        match output with
        | some none => .mistaken
        | some (some (path, rest)) =>
          match given.takeOutput? accepted path with
          | some given => collect accepted fuel given rest
          | none => .mistaken
        | none =>
          if looksLikeOption argument then .mistaken
          else
            match given.takeValue? accepted argument with
            | some given => collect accepted fuel given rest
            | none => .mistaken

/-! ## Commands -/

/-- What the command of this name accepts. -/
def acceptedBy? (name : String) : Option Accepted :=
  match name with
  | "init" => some ⟨false, false, false⟩
  | "serve" => some ⟨false, false, false⟩
  | "reviews" => some ⟨true, false, false⟩
  | "stats" => some ⟨false, false, false⟩
  | "export" => some ⟨false, true, false⟩
  | "import" => some ⟨false, false, true⟩
  | "hash-token" => some ⟨false, false, true⟩
  | _ => none

/-- The command of this name with what has been given to it. -/
def commandOf? (name : String) (given : Given) : Option Command :=
  match name with
  | "init" => some .init
  | "serve" => some .serve
  | "reviews" => some (.reviews given.json)
  | "stats" => some .stats
  | "export" => some (.exportRows given.output)
  | "import" =>
    match given.value with
    | some file => if file = "" then none else some (.importRows file)
    | none => none
  | "hash-token" => given.value.map .hashToken
  | _ => none

/-- Reads a command and its arguments. -/
def parseCommand (settingsPath : Option String) (name : String) (rest : List String) : Arguments :=
  if name = "help" then
    match rest with
    | [] => .help
    | [topic] => if topic = "help" ∨ (acceptedBy? topic).isSome then .help else .mistaken
    | _ => .mistaken
  else
    match acceptedBy? name with
    | none => .mistaken
    | some accepted =>
      match collect accepted (rest.length + 1) ⟨none, false, none, none⟩ rest with
      | .help => .help
      | .mistaken => .mistaken
      | .given given =>
        match commandOf? name given with
        | none => .mistaken
        | some command =>
          let path := (given.settingsPath.or settingsPath).getD defaultSettingsPath
          .run { settingsPath := path, command }

/-- Reads arguments from left to right, up to the command. -/
def parseFrom : (fuel : Nat) → Option String → List String → Arguments
  | 0, _, _ => .mistaken
  | _ + 1, _, [] => .mistaken
  | fuel + 1, settingsPath, argument :: rest =>
    if argument = "--version" ∨ (after? "-V" argument).isSome then .version
    else if argument = "--help" ∨ (after? "-h" argument).isSome then .help
    else
      match longValue? "--config" argument rest with
      | some none => .mistaken
      | some (some (path, rest)) =>
        if settingsPath.isSome ∨ path = "" then .mistaken else parseFrom fuel (some path) rest
      | none =>
        if looksLikeOption argument then .mistaken else parseCommand settingsPath argument rest

/-- What a list of arguments means. -/
def parse (arguments : List String) : Arguments :=
  parseFrom (arguments.length + 1) none arguments

end Arguments

end FeedbackBoard
