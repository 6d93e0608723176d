import DirectoryService.CommandLine.Tool
import Std.Time.DateTime

/-!
# The provisioning tool as a program

Prints what the command line answers, with the settings, the files and the clock of the machine.
-/

namespace DirectoryService

/-- The fault of a file that the machine reports. -/
def FileFault.ofMachine : IO.Error → FileFault
  | .noFileOrDirectory _ _ _ => .missing
  | .inappropriateType _ 20 _ => .notDirectory
  | .inappropriateType _ _ _ => .isDirectory
  | error => .reported (toString error)

/-- Reads a file of the machine. -/
def readMachineFile (path : String) : IO (Except FileFault (List UInt8)) := do
  try
    let contents ← IO.FS.readBinFile path
    return .ok contents.toList
  catch error => return .error (.ofMachine error)

/-- The present moment by the clock of the machine. -/
def Timestamp.ofMachine : IO Timestamp := do
  let stamp ← Std.Time.Timestamp.now
  let now := Std.Time.PlainDateTime.ofWallTime (stamp.toWallTime .zero)
  let moment := Timestamp.ofParts? now.year.toInt now.month.val.toNat now.day.val.toNat
    now.hour.val.toNat now.minute.val.toNat now.second.val.toNat now.nanosecond.val.toNat
  let some moment := moment | throw (IO.userError "the clock shows no date")
  return moment

namespace CommandLine

/-- The settings that options of the tool stand for. -/
def settingNames : List String :=
  (toolForm.flags ++ toolForm.subcommands.flatMap (·.flags)).filterMap (·.setting)

/-- The machine that the tool runs on. -/
def Surroundings.ofMachine : IO (Surroundings IO) := do
  let settings ← settingNames.mapM fun name => return (name, ← IO.getEnv name)
  return {
    environment := fun name => (settings.lookup name).join
    readFile := readMachineFile
    freshSalt := return (← IO.getRandomBytes (USize.ofNat Password.saltLength)).toList
    now := Timestamp.ofMachine }

/-- Prints an outcome and gives its status. -/
def Outcome.print (outcome : Outcome) : IO UInt32 := do
  for line in outcome.lines do
    IO.println line
  if outcome.report ≠ "" then IO.eprintln outcome.report
  return outcome.status.toUInt32

end CommandLine

end DirectoryService

/-- Runs the tool. -/
def main (arguments : List String) : IO UInt32 := do
  let surroundings ← DirectoryService.CommandLine.Surroundings.ofMachine
  (← DirectoryService.CommandLine.run surroundings arguments).print
