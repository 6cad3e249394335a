import JvmUnits.Naming

/-!
# Options of the command line

Options are read from left to right. An option with a value is written `--name value` or `--name=value`; a separate word that
starts with a dash, other than a single dash, is never taken as a value. An option that still waits for its value, or whose
value has not been looked at, is settled when the next known option comes or when the words end.
-/

namespace JvmUnits

/-- The options with a value. -/
inductive ValueOption where
  | project | runtimeJava | runtimeJs | classPath | output | mainClass | classes | builtin | home
  deriving DecidableEq, Repr

namespace ValueOption

/-- The options with a value, in the order in which help lists them. -/
def all : List ValueOption :=
  [project, runtimeJava, runtimeJs, classPath, output, mainClass, classes, builtin, home]

/-- The name of the option, without the dashes. -/
def name : ValueOption → String
  | project => "project"
  | runtimeJava => "runtime-java"
  | runtimeJs => "runtime-js"
  | classPath => "classpath"
  | output => "output"
  | mainClass => "main-class"
  | classes => "class"
  | builtin => "builtin"
  | home => "runtime-prefix"

/-- The value names a folder, and so is not empty. -/
def namesFolder : ValueOption → Bool
  | project | runtimeJava | runtimeJs | classPath | output => true
  | mainClass | classes | builtin | home => false

/-- The option may be given more than once. -/
def repeats : ValueOption → Bool
  | classPath | classes | builtin => true
  | _ => false

/-- The option with a name. -/
def ofName? (name : String) : Option ValueOption := all.find? (·.name == name)

end ValueOption

/-- The options without a value. -/
inductive Switch where
  | quiet | timing | help | version
  deriving DecidableEq, Repr

namespace Switch

/-- The options without a value, in the order in which help lists them. -/
def all : List Switch := [quiet, timing, help, version]

/-- The name of the option, without the dashes. -/
def name : Switch → String
  | quiet => "quiet"
  | timing => "timing"
  | help => "help"
  | version => "version"

/-- The option with a name. -/
def ofName? (name : String) : Option Switch := all.find? (·.name == name)

/-- The option that a single letter stands for. -/
def ofLetter? (letter : Char) : Option Switch :=
  if letter = 'h' then some help else if letter = 'V' then some version else none

end Switch

/-- Why the words of a command line are not run: a mistake, or the wish for help or for the version. -/
inductive UsageStop where
  | unknownArgument (word : String)
  | missingValue (option : ValueOption)
  | emptyValue (option : ValueOption)
  | repeated (name : String)
  | unexpectedValue (switch : Switch)
  | missingProject
  | help
  | version
  deriving DecidableEq, Repr

/-- What the command line asks for. -/
structure Options where
  project : String
  runtimeJava : Option String
  runtimeJs : Option String
  classPath : List String
  output : String
  mainClass : Option String
  classes : List String
  builtins : List String
  naming : Naming
  quiet : Bool
  timing : Bool
  deriving DecidableEq, Repr

/-- What has been read of a command line: the values given so far, the switches set, and the option that is not settled, with
its value if that has come. -/
structure OptionReading where
  values : List (ValueOption × String) := []
  switches : List Switch := []
  pending : Option (ValueOption × Option String) := none

namespace OptionReading

/-- The values given for an option, in order. -/
def valuesOf (reading : OptionReading) (option : ValueOption) : List String :=
  reading.values.filterMap fun given => if given.1 = option then some given.2 else none

/-- Settles the option that waits. -/
def settle (reading : OptionReading) : Except UsageStop OptionReading :=
  match reading.pending with
  | none => .ok reading
  | some (option, none) => .error (.missingValue option)
  | some (option, some value) =>
    if !option.repeats && !(reading.valuesOf option).isEmpty then .error (.repeated option.name)
    else if option.namesFolder && value.isEmpty then .error (.emptyValue option)
    else .ok { reading with values := reading.values ++ [(option, value)], pending := none }

/-- Takes an option, with the value written after an equals sign if there is one. -/
def takeOption (reading : OptionReading) (option : ValueOption) (attached : Option String) :
    Except UsageStop OptionReading := do
  let settled ← reading.settle
  let waiting := { settled with pending := some (option, attached) }
  match attached with
  | none => pure waiting
  | some _ => waiting.settle

/-- Takes an option without a value. -/
def takeSwitch (reading : OptionReading) (switch : Switch) : Except UsageStop OptionReading := do
  let settled ← reading.settle
  match switch with
  | .help => .error .help
  | .version => .error .version
  | _ =>
    if switch ∈ settled.switches then .error (.repeated switch.name)
    else pure { settled with switches := settled.switches ++ [switch] }

/-- Takes a word that starts with two dashes and more. -/
def takeLong (reading : OptionReading) (word : String) (body : List Char) : Except UsageStop OptionReading :=
  let name := String.ofList (body.takeWhile (· ≠ '='))
  let attached := match body.dropWhile (· ≠ '=') with
    | [] => none
    | _ :: value => some (String.ofList value)
  match ValueOption.ofName? name, Switch.ofName? name, attached with
  | some option, _, _ => reading.takeOption option attached
  | none, some switch, none => reading.takeSwitch switch
  | none, some switch, some _ => .error (.unexpectedValue switch)
  | none, none, _ => .error (.unknownArgument word)

/-- Takes a word that is no option: it has to be the value for which an option waits. -/
def takePlain (reading : OptionReading) (word : String) : Except UsageStop OptionReading :=
  match reading.pending with
  | some (option, none) => .ok { reading with pending := some (option, some word) }
  | _ => .error (.unknownArgument word)

/-- Takes a word before any lone `--`. -/
def take (reading : OptionReading) (word : String) : Except UsageStop OptionReading :=
  match word.toList with
  | '-' :: '-' :: body => reading.takeLong word body
  | '-' :: letter :: _ =>
    match Switch.ofLetter? letter with
    | some switch => reading.takeSwitch switch
    | none => .error (.unknownArgument word)
  | _ => reading.takePlain word

/-- The options that the words ask for, once all of them have been read. -/
def finish (reading : OptionReading) : Except UsageStop Options := do
  let settled ← reading.settle
  let first (option : ValueOption) : Option String := (settled.valuesOf option).head?
  match first .project with
  | none => .error .missingProject
  | some project =>
    pure {
      project
      runtimeJava := first .runtimeJava
      runtimeJs := first .runtimeJs
      classPath := settled.valuesOf .classPath
      output := (first .output).getD "output"
      mainClass := first .mainClass
      classes := settled.valuesOf .classes
      builtins := settled.valuesOf .builtin
      naming := ((first .home).map Naming.mk).getD .standard
      quiet := .quiet ∈ settled.switches
      timing := .timing ∈ settled.switches }

/-- Reads words. After a lone `--` no word is an option, and there is no place for any other. -/
def readAll (reading : OptionReading) : List String → Except UsageStop Options
  | [] => reading.finish
  | word :: rest =>
    if word == "--" then
      match rest with
      | [] => reading.finish
      | extra :: _ => .error (.unknownArgument extra)
    else do
      let next ← reading.take word
      next.readAll rest

end OptionReading

/-- Reads the words of a command line. -/
def Options.parse (words : List String) : Except UsageStop Options := OptionReading.readAll {} words

end JvmUnits
