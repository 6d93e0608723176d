import DirectoryService.CommandLine.Form
import DirectoryService.Text.Terminal

/-!
# Faults of command lines

A fault says why arguments do not fit a form. Its wording may come with tips on what was probably
meant, and with the usage, and it ends with a hint at the help if there is an option for it.
-/

namespace DirectoryService.CommandLine

/-- What may have been meant. -/
inductive Tip where
  /-- Things of a kind with similar names. -/
  | similar (kind : String) (names : List String)
  /-- The argument as a value. -/
  | asValue (argument : String)
  /-- An option of a command that comes later. -/
  | optionOf (command flag : String)
  /-- The command that the separator takes for a value. -/
  | separated (command : String)
deriving DecidableEq

/-- A text between single quotes. -/
def inQuotes (text : String) : String := "'" ++ text ++ "'"

/-- An argument between single quotes, without what a terminal would obey. -/
def inQuotesShown (argument : String) : String := inQuotes (Terminal.shown argument)

/-- The wording of a tip. -/
def Tip.message : Tip → String
  | .similar kind [name] => "a similar " ++ kind ++ " exists: " ++ inQuotes name
  | .similar kind names =>
    "some similar " ++ kind ++ "s exist: " ++ String.intercalate ", " (names.map inQuotes)
  | .asValue argument =>
    "to pass " ++ inQuotesShown argument ++ " as a value, use " ++
      inQuotesShown ("-- " ++ argument)
  | .optionOf command flag => inQuotes (command ++ " " ++ flag) ++ " exists"
  | .separated command =>
    "subcommand " ++ inQuotes command ++ " exists; to use it, remove the '--' before it"

/-- Why arguments do not fit a form. -/
inductive Cause where
  /-- No command is given. -/
  | noCommand
  /-- No command has this name, but some have similar ones. -/
  | unknownCommand (name : String) (similar : List String)
  /-- An argument has no place. -/
  | unexpected (argument : String) (tip : Option Tip)
  /-- An option that takes no value is given one. -/
  | unneeded (flag : Flag) (value : String)
  /-- An option or operand has no value, which may have to be one of a list. -/
  | noValue (form : String) (values : List String)
  /-- An operand has none of its values. -/
  | badValue (operand : Operand) (value : String) (similar : Option String)
  /-- An option is given twice. -/
  | repeated (flag : Flag)
  /-- Options or operands of some forms are missing. -/
  | missing (forms : List String)
deriving DecidableEq

/-- The line that lists the values that something can have. -/
def valueLine (kind : String) (values : List String) : String :=
  if values.isEmpty then "" else "\n  " ++ valueList kind values

namespace Cause

/-- The wording of a cause in the command line of a form. -/
def summary (form : Form) : Cause → String
  | .noCommand =>
    inQuotes form.call ++ " requires a subcommand but one was not provided" ++
      valueLine "subcommands" (form.subcommands.map (·.name))
  | .unknownCommand name _ => "unrecognized subcommand " ++ inQuotesShown name
  | .unexpected argument _ => "unexpected argument " ++ inQuotesShown argument ++ " found"
  | .unneeded flag value =>
    "unexpected value " ++ inQuotesShown value ++ " for " ++ inQuotes flag.form ++
      " found; no more were expected"
  | .noValue written values =>
    "a value is required for " ++ inQuotes written ++ " but none was supplied" ++
      valueLine "possible values" values
  | .badValue operand value _ =>
    "invalid value " ++ inQuotesShown value ++ " for " ++ inQuotes operand.form ++
      valueLine "possible values" operand.values
  | .repeated flag => "the argument " ++ inQuotes flag.form ++ " cannot be used multiple times"
  | .missing forms =>
    "the following required arguments were not provided:" ++
      String.join (forms.map ("\n  " ++ ·))

/-- What may have been meant. -/
def tip? : Cause → Option Tip
  | .unknownCommand _ (first :: more) => some (.similar "subcommand" (first :: more))
  | .unexpected _ tip => tip
  | .badValue _ _ similar => similar.map fun name => .similar "value" [name]
  | _ => none

/-- Whether a cause is reported with the usage. -/
def showsUsage : Cause → Bool
  | .noValue .. => false
  | .badValue .. => false
  | _ => true

end Cause

/-- A fault of a command line. -/
structure Fault where
  /-- The form that does not fit. -/
  form : Form
  /-- The options that the usage names. -/
  mention : Mention
  /-- Why it does not fit. -/
  cause : Cause
deriving DecidableEq

/-- The fault of a form whose usage names no option that may be left out. -/
def Form.fault (form : Form) (cause : Cause) : Fault := ⟨form, .flags [], cause⟩

/-- The wording of a fault. -/
def Fault.message (fault : Fault) : String :=
  let tip := fault.cause.tip?.elim "" fun tip => "\n\n  tip: " ++ tip.message
  let usage := if fault.cause.showsUsage then "\n\nUsage: " ++ fault.form.usage fault.mention
    else ""
  let hint := if fault.form.flags.contains .help then "\n\nFor more information, try '--help'."
    else ""
  "error: " ++ fault.cause.summary fault.form ++ tip ++ usage ++ hint

end DirectoryService.CommandLine
