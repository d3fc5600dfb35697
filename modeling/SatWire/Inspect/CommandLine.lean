/-!
# The command line of the inspector

Options stand before or after the command.  The settings document and the low power ceiling can be
named in either place, each once; the place after the command wins.  An option value may be its own
argument or follow an equals sign, and is neither empty nor of the look of an option.

`Request.ofArguments` reads a command line from the left and stops at the first thing it cannot
use, or that settles everything, such as a question for the version.
-/

namespace SatWire

/-- What to do with the lines of the input. -/
inductive Task where
  | decode
  | encode
  deriving DecidableEq, Repr

/-- What an inspection is to use. -/
structure Invocation where
  /-- The path of the settings document, if there is one. -/
  settings : Option String
  lowPower : Bool
  task : Task
  /-- The path of the input; without one, the standard input. -/
  input : Option String
  deriving DecidableEq, Repr

/-- What a command line asks for. -/
inductive Request where
  | inspect (invocation : Invocation)
  | version
  | help
  /-- It cannot be understood. -/
  | misuse
  deriving DecidableEq, Repr

namespace CommandLine

/-- Where an argument stands. -/
inductive Place where
  | beforeCommand
  | afterCommand
  deriving DecidableEq, Repr

/-- An option that takes a path. -/
inductive Slot where
  | settings
  | input
  deriving DecidableEq, Repr

/-- The options read in one place. -/
structure Options where
  settings : Option String := none
  input : Option String := none
  lowPower : Bool := false

/-- Fills a slot, once. -/
def Options.fill (o : Options) (slot : Slot) (path : String) : Option Options :=
  match slot, o.settings, o.input with
  | .settings, none, _ => if path = "" then none else some { o with settings := some path }
  | .input, _, none => if path = "" then none else some { o with input := some path }
  | _, _, _ => none

/-- What one argument is. -/
inductive Argument where
  /-- No option. -/
  | word
  /-- The mark behind which no options stand. -/
  | endOfOptions
  /-- An option with a path, which is part of the argument or comes next. -/
  | path (slot : Slot) (path : Option String)
  | lowPower
  | version
  | help
  | unknown

/-- The argument that a long option is, given the letters behind the dashes. -/
def longOption (place : Place) (letters : List Char) : Argument :=
  let name := letters.takeWhile (· ≠ '=')
  let value? :=
    match letters.dropWhile (· ≠ '=') with
    | _ :: value => some (String.ofList value)
    | [] => none
  match String.ofList name, value?, place with
  | "", _, _ => if letters.isEmpty then .endOfOptions else .unknown
  | "config", value?, _ => .path .settings value?
  | "input", value?, .afterCommand => .path .input value?
  | "low-power", none, _ => .lowPower
  | "help", none, _ => .help
  | "version", none, .beforeCommand => .version
  | _, _, _ => .unknown

/-- The argument that a short option is, given the letters behind the dash. -/
def shortOption (place : Place) (letters : List Char) : Argument :=
  match letters, place with
  | [], _ => .word
  | 'h' :: _, _ => .help
  | 'V' :: _, .beforeCommand => .version
  | 'i' :: [], .afterCommand => .path .input none
  | 'i' :: '=' :: path, .afterCommand => .path .input (some (String.ofList path))
  | 'i' :: path, .afterCommand => .path .input (some (String.ofList path))
  | _, _ => .unknown

/-- What an argument is, by its look. -/
def argument (place : Place) (text : String) : Argument :=
  match text.toList with
  | '-' :: '-' :: letters => longOption place letters
  | '-' :: letters => shortOption place letters
  | _ => .word

/-- Where reading in one place ends. -/
inductive Stop where
  /-- Behind the last argument. -/
  | finished (options : Options)
  /-- At an argument that is no option. -/
  | word (options : Options) (text : String) (rest : List String)
  | version
  | help
  | misuse

/-- Reads options as far as they go. -/
def options (place : Place) (o : Options) : List String → Stop
  | [] => .finished o
  | text :: rest =>
    match argument place text with
    | .word => .word o text rest
    | .endOfOptions => if rest.isEmpty then .finished o else .misuse
    | .lowPower => if o.lowPower then .misuse else options place { o with lowPower := true } rest
    | .path slot (some path) =>
      match o.fill slot path with
      | some o => options place o rest
      | none => .misuse
    | .path slot none =>
      match rest with
      | [] => .misuse
      | path :: rest =>
        match argument place path, o.fill slot path with
        | .word, some o => options place o rest
        | _, _ => .misuse
    | .version => .version
    | .help => .help
    | .unknown => .misuse

/-- A command. -/
inductive Command where
  | run (task : Task)
  /-- To explain the program, or the one command that is named behind it. -/
  | help
  deriving DecidableEq, Repr

/-- The task with a name. -/
def task? : String → Option Task
  | "decode" => some .decode
  | "encode" => some .encode
  | _ => none

/-- The command with a name. -/
def command? (name : String) : Option Command :=
  if name = "help" then some .help else (task? name).map .run

end CommandLine

open CommandLine

/-- The request of a task with the options before and after it.  `usual` names the settings document
for want of the option.  It stands in for the option in each place where that is not given, and may
not be empty there. -/
def Request.ofOptions (usual : Option String) (task : Task) (before after : Options) : Request :=
  if usual = some "" ∧ (before.settings.isNone ∨ after.settings.isNone) then .misuse
  else
    .inspect {
      settings := (after.settings.or before.settings).or usual
      lowPower := before.lowPower || after.lowPower
      task
      input := after.input }

/-- The request of the help command with the arguments behind it, where options count as words. -/
def Request.ofHelp : List String → Request
  | [] => .help
  | [name] => if (command? name).isSome then .help else .misuse
  | _ => .misuse

/-- What the arguments of a command line ask for. -/
def Request.ofArguments (usual : Option String) (arguments : List String) : Request :=
  match options .beforeCommand {} arguments with
  | .finished _ | .misuse => .misuse
  | .version => .version
  | .help => .help
  | .word before text rest =>
    match command? text with
    | none => .misuse
    | some .help => ofHelp rest
    | some (.run task) =>
      match options .afterCommand {} rest with
      | .finished after => ofOptions usual task before after
      | .help => .help
      | .word .. | .version | .misuse => .misuse

end SatWire
