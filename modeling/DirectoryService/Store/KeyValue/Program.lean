import DirectoryService.Error
import DirectoryService.Store.KeyValue.Database

/-!
# Programs of commands

A program asks a database one command after the other and goes on from each answer. Between two of
its commands other programs may have theirs carried out.
-/

namespace DirectoryService.KeyValue

/-- A program that ends with a value. -/
inductive Program (α : Type) where
  /-- The end. -/
  | done (value : α)
  /-- A command, and how the program goes on from its answer. -/
  | ask (command : Command) (next : Except Failure command.Answer → Program α)

namespace Program

variable {α β σ : Type}

/-- Goes on from the value of a program. -/
def bind (program : Program α) (next : α → Program β) : Program β :=
  match program with
  | .done value => next value
  | .ask command more => .ask command fun answer => (more answer).bind next

instance : Monad Program where
  pure := .done
  bind := bind

/-- Runs a program alone against whatever answers its commands. -/
def run (answer : σ → (command : Command) → Except Failure command.Answer × σ) :
    Program α → σ → α × σ
  | .done value, state => (value, state)
  | .ask command next, state =>
    let (result, state) := answer state command
    run answer (next result) state

end Program

/-- A program that may end with an error of the service. -/
abbrev Task (α : Type) := ExceptT Error Program α

namespace Task

/-- Asks one command; a refusal ends the task. -/
def ask (command : Command) : Task command.Answer :=
  ExceptT.mk (.ask command fun answer => .done (answer.mapError .database))

/-- The text under a key. -/
def get (key : String) : Task (Option String) := ask (.get key)

/-- The texts under several keys. -/
def getAll (keys : List String) : Task (List (Option String)) := ask (.getAll keys)

/-- Keeps a text under a key if there is nothing, and tells whether it did. -/
def putNew (key value : String) : Task Bool := ask (.putNew key value)

/-- Whether there is anything under a key. -/
def holds (key : String) : Task Bool := ask (.holds key)

/-- The members of a set. -/
def members (key : String) : Task (List String) := ask (.members key)

/-- The number of members of a set. -/
def size (key : String) : Task Nat := ask (.size key)

/-- The members of an ordered set in a range. -/
def range (key : String) (low high : Bound) : Task (List String) := ask (.range key low high)

/-- Makes several changes at once. -/
def commit (writes : List Write) : Task Unit := ask (.commit writes)

end Task

end DirectoryService.KeyValue
