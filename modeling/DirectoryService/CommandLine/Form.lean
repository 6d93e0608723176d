/-!
# Forms of commands

A form says what a command line may hold: the words that lead to a command, its options, and either
an operand or further commands. The usage and the help of a command are read off its form.
-/

namespace DirectoryService.CommandLine

/-- An option. -/
structure Flag where
  /-- The name after two dashes. -/
  long : String
  /-- The letter after one dash. -/
  short : Option Char := none
  /-- What stands for the value; nothing if the option takes none. -/
  placeholder : Option String
  /-- What the option is for. -/
  purpose : String := ""
  /-- The setting of the environment that stands in for the option. -/
  setting : Option String := none
  /-- The value if there is no other. -/
  standard : Option String := none
  /-- Whether the option has to be given. -/
  isRequired : Bool := false
  /-- Whether the empty text is a value. -/
  takesEmpty : Bool := true
deriving DecidableEq

namespace Flag

/-- The option that asks for help. -/
def help : Flag :=
  { long := "help", short := some 'h', placeholder := none, purpose := "Print help" }

/-- The name as it is given. -/
def name (flag : Flag) : String := "--" ++ flag.long

/-- The written form. -/
def form (flag : Flag) : String :=
  match flag.placeholder with
  | none => flag.name
  | some placeholder => flag.name ++ " <" ++ placeholder ++ ">"

/-- The short name and the written form, in a column. -/
def column (flag : Flag) : String :=
  match flag.short with
  | none => "    " ++ flag.form
  | some letter => String.ofList ['-', letter, ',', ' '] ++ flag.form

end Flag

/-- An argument that belongs to no option. -/
structure Operand where
  /-- The written form. -/
  form : String
  /-- What the operand is for. -/
  purpose : String
  /-- The values that it can have. -/
  values : List String
deriving DecidableEq

/-- A command, as one of several. -/
structure Subcommand where
  /-- The name. -/
  name : String
  /-- What the command is for. -/
  purpose : String
  /-- The options. -/
  flags : List Flag
  /-- The operand. -/
  operand : Option Operand
deriving DecidableEq

/-- The form of a command line. -/
structure Form where
  /-- The words in front of all arguments. -/
  words : List String
  /-- What the command is for. -/
  purpose : String
  /-- The options. -/
  flags : List Flag
  /-- The operand. -/
  operand : Option Operand
  /-- The commands of which one has to follow. -/
  subcommands : List Subcommand
deriving DecidableEq

/-- The options that a usage names. -/
inductive Mention where
  /-- Those that have to be given, and some more. -/
  | flags (given : List Flag)
  /-- One, and the choice among those that can stand beside it. -/
  | beside (flag : Flag)
deriving DecidableEq

/-- A list of the values that something can have. -/
def valueList (kind : String) (values : List String) : String :=
  "[" ++ kind ++ ": " ++ String.intercalate ", " values ++ "]"

/-- Lines of two columns. -/
def twoColumns (rows : List (String × String)) : List String :=
  let width := (rows.map (·.1.length)).foldl max 0 + 2
  rows.map fun (left, right) => "  " ++ left.pushn ' ' (width - left.length) ++ right

/-- What help says about an option. -/
def Flag.details (environment : String → Option String) (flag : Flag) : String :=
  let purpose := if flag.purpose = "" then [] else [flag.purpose]
  let setting := flag.setting.toList.map fun name =>
    "[env: " ++ name ++ "=" ++ (environment name).getD "" ++ "]"
  let standard := flag.standard.toList.map fun value => "[default: " ++ value ++ "]"
  String.intercalate " " (purpose ++ setting ++ standard)

/-- What help says about an operand. -/
def Operand.details (operand : Operand) : String :=
  if operand.values.isEmpty then operand.purpose
  else operand.purpose ++ valueList "possible values" operand.values

/-- A part of the help under a heading; nothing if there are no lines. -/
def headed (heading : String) (lines : List String) : List String :=
  if lines.isEmpty then [] else "" :: heading :: lines

namespace Form

/-- The words in front of all arguments, as they are called. -/
def call (form : Form) : String := String.intercalate " " form.words

/-- The form of a command that follows. -/
def subcommand? (form : Form) (name : String) : Option Form :=
  (form.subcommands.find? (·.name == name)).map fun found =>
    ⟨form.words ++ [name], found.purpose, found.flags, found.operand, []⟩

/-- The option of a long name. -/
def long? (form : Form) (name : String) : Option Flag := form.flags.find? (·.long == name)

/-- The option of a short name. -/
def short? (form : Form) (name : Char) : Option Flag := form.flags.find? (·.short == some name)

/-- Whether there are options that may be left out, other than the one that asks for help. -/
def hasChoices (form : Form) : Bool :=
  form.flags.any fun flag => !flag.isRequired && flag != Flag.help

/-- The choice among all options, other than the one that asks for help. -/
def choice (form : Form) : String :=
  "<" ++ String.intercalate "|" ((form.flags.filter (· != Flag.help)).map Flag.form) ++ ">"

/-- How the options of a command line are written that a usage names. -/
def options (form : Form) : Mention → List String
  | .flags given =>
    (if given.isEmpty && form.hasChoices then ["[OPTIONS]"] else []) ++
      (form.flags.filter (·.isRequired) ++ given).eraseDups.map Flag.form
  | .beside flag => [flag.form, form.choice]

/-- How a command line is written, with the options that are named. -/
def usage (form : Form) (mention : Mention) : String :=
  let operand := form.operand.toList.map (·.form)
  let command := if form.subcommands.isEmpty then [] else ["<COMMAND>"]
  String.intercalate " " (form.words ++ form.options mention ++ operand ++ command)

/-- The lines of the help. -/
def help (form : Form) (environment : String → Option String) : List String :=
  [form.purpose, "", "Usage: " ++ form.usage (.flags [])] ++
    headed "Commands:" (twoColumns (form.subcommands.map fun found =>
      (found.name, found.purpose))) ++
    headed "Arguments:" (twoColumns (form.operand.toList.map fun operand =>
      (operand.form, operand.details))) ++
    headed "Options:" (twoColumns (form.flags.map fun flag =>
      (flag.column, flag.details environment)))

end Form

end DirectoryService.CommandLine
