import DirectoryService.CommandLine.Fault
import DirectoryService.Text.Similarity

/-!
# Reading command lines

Arguments are read one by one against a form. An option waits for a value in the next argument, and
a value in an argument of its own waits until it is known that nothing else is wrong with the
argument behind it. A fault that waits is therefore reported only if the next argument can be read.
-/

namespace DirectoryService.CommandLine

/-- What an argument is by its first characters. -/
inductive Shape where
  /-- Neither an option nor the separator. -/
  | plain
  /-- The separator, behind which there are no options. -/
  | separator
  /-- An option with a long name, and the value in the same argument. -/
  | long (name : String) (value : Option String)
  /-- An option with a short name, and the value in the same argument. -/
  | short (name : Char) (value : Option String)

/-- The text behind an equals sign. -/
def behindEquals? : List Char → Option String
  | '=' :: value => some (String.ofList value)
  | _ => none

/-- The value behind a short name, with an equals sign or without one. -/
def attached? (chars : List Char) : Option String :=
  (behindEquals? chars).or (if chars.isEmpty then none else some (String.ofList chars))

/-- The shape of an argument. -/
def Shape.ofArgument (argument : String) : Shape :=
  match argument.toList with
  | ['-', '-'] => .separator
  | '-' :: '-' :: rest =>
    let name := rest.takeWhile (· ≠ '=')
    .long (String.ofList name) (behindEquals? (rest.drop name.length))
  | '-' :: name :: rest => .short name (attached? rest)
  | _ => .plain

/-- What is known of arguments but not settled. -/
inductive Pending where
  /-- Nothing. -/
  | nothing
  /-- An option, and its value if that has been read. -/
  | flag (flag : Flag) (value : Option String)
  /-- The operand. -/
  | operand (value : String)
deriving DecidableEq

/-- What has been read of arguments. -/
structure Reading where
  /-- The options that are given, with their values. -/
  options : List (Flag × String) := []
  /-- The operand. -/
  operand : Option String := none
  /-- What is not settled. -/
  pending : Pending := .nothing
  /-- Whether the separator has been read. -/
  isSeparated : Bool := false
deriving DecidableEq

/-- Why arguments lead to no command. -/
inductive Halt where
  /-- Help is asked for. -/
  | help (form : Form)
  /-- Nothing is given. -/
  | nothingGiven (form : Form)
  /-- The arguments are at fault. -/
  | fault (fault : Fault)
deriving DecidableEq

namespace Reading

/-- Whether an option is given. -/
def gives (reading : Reading) (flag : Flag) : Bool := reading.options.any (·.1 == flag)

/-- The value of an option, or the one that it has by itself. -/
def value (reading : Reading) (flag : Flag) : Option String :=
  ((reading.options.find? (·.1 == flag)).map (·.2)).or flag.standard

/-- Settles an option with a value. An option that is given twice is not given at all. -/
def settleFlag (reading : Reading) (flag : Flag) (value : String) : Reading × Option Cause :=
  if reading.gives flag then
    ({ reading with options := reading.options.filter (·.1 != flag) }, some (.repeated flag))
  else
    let reading := { reading with options := reading.options ++ [(flag, value)] }
    if value = "" ∧ !flag.takesEmpty then (reading, some (.noValue flag.form []))
    else (reading, none)

/-- The fault of a value of an operand. -/
def operandCause? (operand : Operand) (value : String) : Option Cause :=
  if operand.values.contains value then none
  else if value = "" then some (.noValue operand.form operand.values)
  else some (.badValue operand value (Similarity.alike value operand.values).getLast?)

/-- Settles what is pending, with the cause of a fault if there is one. -/
def settle (form : Form) (reading : Reading) : Reading × Option Cause :=
  let rest := { reading with pending := .nothing }
  match reading.pending with
  | .nothing => (rest, none)
  | .flag flag none => (rest, some (.noValue flag.form []))
  | .flag flag (some value) => rest.settleFlag flag value
  | .operand value =>
    ({ rest with operand := some value },
      form.operand.bind fun operand => operandCause? operand value)

/-- What has been read if what is pending can be settled. -/
def settled (form : Form) (reading : Reading) : Except Halt Reading :=
  match reading.settle form with
  | (reading, none) => .ok reading
  | (_, some cause) => .error (.fault (form.fault cause))

/-- The options that are given if a fault of what is pending does not matter. -/
def given (form : Form) (reading : Reading) : List Flag := (reading.settle form).1.options.map (·.1)

end Reading

namespace Form

/-- The best of the long options for a name that is none. -/
def meant? (flags : List Flag) (name : String) : Option Flag :=
  ((Similarity.alike name (flags.map (·.long))).getLast?).bind fun long =>
    flags.find? (·.long == long)

/-- The tip on the first of the commands among further arguments that may know an option. -/
def laterTip? (form : Form) (name : String) : List String → Option Tip
  | [] => none
  | argument :: rest =>
    match (form.subcommand? argument).bind fun found => meant? found.flags name with
    | some flag => some (.optionOf argument flag.name)
    | none => form.laterTip? name rest

/-- The tip that an argument can be a value behind the separator. -/
def valueTip? (form : Form) (argument : String) : Option Tip :=
  form.operand.map fun _ => .asValue argument

/-- The fault of an option with an unknown long name. -/
def unknownLong (form : Form) (reading : Reading) (name : String) (rest : List String) : Fault :=
  let given := reading.given form
  let argument := "--" ++ name
  match meant? form.flags name with
  | some flag =>
    ⟨form, .flags (given ++ [flag]),
      .unexpected argument (some (.similar "argument" [flag.name]))⟩
  | none =>
    ⟨form, .flags given,
      .unexpected argument ((form.laterTip? name rest).or (form.valueTip? argument))⟩

/-- The fault of an option with an unknown short name. -/
def unknownShort (form : Form) (name : Char) : Fault :=
  let argument := String.ofList ['-', name]
  form.fault (.unexpected argument (form.valueTip? argument))

/-- The fault of an argument that is no option and has no place. -/
def misplaced (form : Form) (reading : Reading) (argument : String) : Fault :=
  let names := form.subcommands.map (·.name)
  if reading.isSeparated && names.contains argument then
    form.fault (.unexpected argument (some (.separated argument)))
  else if names.isEmpty then form.fault (.unexpected argument none)
  else form.fault (.unknownCommand argument (Similarity.alike argument names))

/-- Reads an option with the value in the same argument. -/
def readFlag (form : Form) (reading : Reading) (flag : Flag) (value : Option String) :
    Except Halt Reading := do
  let reading ← reading.settled form
  if flag.placeholder.isNone then throw (.help form)
  let reading := { reading with pending := .flag flag value }
  if value.isSome then reading.settled form else return reading

/-- Reads an option with a long name, which takes no value that it does not need. If it is given one
behind others, the usage names those that can stand beside it. -/
def readLong (form : Form) (reading : Reading) (flag : Flag) (value : Option String) :
    Except Halt Reading :=
  match flag.placeholder, value with
  | none, some text =>
    let mention := if reading.options.isEmpty then .flags [flag] else .beside flag
    .error (.fault ⟨form, mention, .unneeded flag text⟩)
  | _, _ => form.readFlag reading flag value

/-- Reads an argument that is neither an option nor the value of one. -/
def readOperand (form : Form) (reading : Reading) (argument : String) : Except Halt Reading :=
  let isNext := match reading.pending with
    | .operand _ => false
    | _ => form.operand.isSome && reading.operand.isNone
  if isNext then do
    let reading ← reading.settled form
    return { reading with pending := .operand argument }
  else .error (.fault (form.misplaced reading argument))

/-- Reads one argument in front of others. -/
def readArgument (form : Form) (reading : Reading) (argument : String) (rest : List String) :
    Except Halt Reading :=
  if reading.isSeparated then form.readOperand reading argument
  else
    match Shape.ofArgument argument with
    | .separator => .ok { reading with isSeparated := true }
    | .long name value =>
      match form.long? name with
      | some flag => form.readLong reading flag value
      | none => .error (.fault (form.unknownLong reading name rest))
    | .short name value =>
      match form.short? name with
      | some flag => form.readFlag reading flag value
      | none => .error (.fault (form.unknownShort name))
    | .plain =>
      match reading.pending with
      | .flag flag none => .ok { reading with pending := .flag flag (some argument) }
      | _ => form.readOperand reading argument

/-- Whether an argument is the command, and not the value of an option. -/
def isCommand (form : Form) (reading : Reading) (argument : String) : Bool :=
  let isAwaited := match reading.pending with
    | .flag _ none => true
    | _ => false
  !reading.isSeparated && !isAwaited && (form.subcommand? argument).isSome

/-- Reads arguments up to a command, which comes with the arguments behind it. -/
def scan (form : Form) (reading : Reading) :
    List String → Except Halt (Reading × Option (String × List String))
  | [] => .ok (reading, none)
  | argument :: rest => do
    if form.isCommand reading argument then return (reading, some (argument, rest))
    let reading ← form.readArgument reading argument rest
    form.scan reading rest

/-- Settles what has been read, and adds the options that the environment stands in for. -/
def complete (form : Form) (environment : String → Option String) (reading : Reading) :
    Except Halt Reading := do
  let reading ← reading.settled form
  form.flags.foldlM (fun reading flag =>
    if reading.gives flag then .ok reading
    else
      match flag.setting.bind environment with
      | some value => { reading with pending := .flag flag (some value) }.settled form
      | none => .ok reading) reading

/-- The forms of what has to be given but is not. -/
def absent (form : Form) (reading : Reading) : List String :=
  ((form.flags.filter fun flag => flag.isRequired && !reading.gives flag).map Flag.form) ++
    (if reading.operand.isNone then form.operand.toList.map (·.form) else [])

/-- Reads all arguments of a form without commands. -/
def readAll (form : Form) (environment : String → Option String) (arguments : List String) :
    Except Halt Reading := do
  let (scanned, _) ← form.scan {} arguments
  let reading ← form.complete environment scanned
  let absent := form.absent reading
  if !absent.isEmpty then throw (.fault (form.fault (.missing absent)))
  return reading

/-- The help on the command that some names lead to. -/
def helpOn (form : Form) : List String → Halt
  | [] => .help form
  | name :: rest =>
    match form.subcommand? name with
    | some found => found.helpOn rest
    | none => .fault (form.fault (.unknownCommand name []))

end Form

end DirectoryService.CommandLine
