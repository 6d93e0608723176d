import DirectoryService.NameMap
import DirectoryService.Text.Utf8

/-!
# A key-value database

A database keeps texts, sets and ordered sets of texts under its keys. A command reads or changes it
in one step; several changes can be committed together.
-/

namespace DirectoryService.KeyValue

/-- A set of texts. -/
abbrev Members := NameMap Unit

/-- What is kept under a key. -/
inductive Content where
  /-- A text. -/
  | text (value : String)
  /-- A set, which is listed in no particular order. -/
  | set (members : Members)
  /-- An ordered set, which is listed by the octets of its members. -/
  | ordered (members : Members)
deriving DecidableEq

/-- What is kept, by key. -/
abbrev Database := NameMap Content

/-- An end of a range of an ordered set. -/
inductive Bound where
  /-- Before every member. -/
  | lowest
  /-- After every member. -/
  | highest
  /-- At the given octets, which belong to the range. -/
  | inclusive (octets : List UInt8)
deriving DecidableEq

/-- Whether a member stands at a lower end or after it. -/
def Bound.startsAt (low : Bound) (member : String) : Bool :=
  match low with
  | .lowest => true
  | .highest => false
  | .inclusive octets => !Order.precedes UInt8.toNat (Utf8.encode member) octets

/-- Whether a member stands at an upper end or before it. -/
def Bound.endsAt (high : Bound) (member : String) : Bool :=
  match high with
  | .lowest => false
  | .highest => true
  | .inclusive octets => !Order.precedes UInt8.toNat octets (Utf8.encode member)

/-- A change. -/
inductive Write where
  /-- Keeps a text under a key, whatever was there. -/
  | put (key value : String)
  /-- Adds a member to a set. -/
  | addMember (key member : String)
  /-- Adds a member to an ordered set. -/
  | addOrdered (key member : String)
deriving DecidableEq

/-- A command. -/
inductive Command where
  /-- The text under a key. -/
  | get (key : String)
  /-- The texts under several keys. -/
  | getAll (keys : List String)
  /-- Keeps a text under a key if there is nothing. -/
  | putNew (key value : String)
  /-- Whether there is anything under a key. -/
  | holds (key : String)
  /-- The members of a set. -/
  | members (key : String)
  /-- The number of members of a set. -/
  | size (key : String)
  /-- The members of an ordered set in a range. -/
  | range (key : String) (low high : Bound)
  /-- A sign of life. -/
  | ping
  /-- Several changes at once. -/
  | commit (writes : List Write)
deriving DecidableEq

/-- What a command answers. -/
def Command.Answer : Command → Type
  | .get _ => Option String
  | .getAll _ => List (Option String)
  | .putNew _ _ => Bool
  | .holds _ => Bool
  | .members _ => List String
  | .size _ => Nat
  | .range _ _ _ => List String
  | .ping => Unit
  | .commit _ => Unit

/-- Why a command is refused, in the words of the database. -/
abbrev Failure := String

/-- Under the key is something of another kind than the command is for. -/
def wrongKind : Failure := "WRONGTYPE Operation against a key holding the wrong kind of value"

namespace Database

/-- The text under a key. -/
def text? (database : Database) (key : String) : Except Failure (Option String) :=
  match database.get? key with
  | none => .ok none
  | some (.text value) => .ok (some value)
  | some _ => .error wrongKind

/-- The members of the set under a key. -/
def set? (database : Database) (key : String) : Except Failure Members :=
  match database.get? key with
  | none => .ok .empty
  | some (.set members) => .ok members
  | some _ => .error wrongKind

/-- The members of the ordered set under a key. -/
def ordered? (database : Database) (key : String) : Except Failure Members :=
  match database.get? key with
  | none => .ok .empty
  | some (.ordered members) => .ok members
  | some _ => .error wrongKind

/-- The database after a change. -/
def write (database : Database) : Write → Except Failure Database
  | .put key value => .ok (database.insert key (.text value))
  | .addMember key member =>
    (database.set? key).map fun members => database.insert key (.set (members.insert member ()))
  | .addOrdered key member =>
    (database.ordered? key).map fun members =>
      database.insert key (.ordered (members.insert member ()))

/-- The database after several changes: all of them, or none if one is refused. -/
def commit (database : Database) (writes : List Write) : Except Failure Database :=
  writes.foldlM write database

/-- Carries a command out. -/
def execute (database : Database) : (command : Command) →
    Except Failure command.Answer × Database
  | .get key => (database.text? key, database)
  | .getAll keys =>
    (.ok (keys.map fun key => ((database.text? key).toOption.getD none)), database)
  | .putNew key value =>
    if database.contains key then (.ok false, database)
    else (.ok true, database.insert key (.text value))
  | .holds key => (.ok (database.contains key), database)
  | .members key => ((database.set? key).map NameMap.keys, database)
  | .size key => ((database.set? key).map fun members => members.keys.length, database)
  | .range key low high =>
    ((database.ordered? key).map fun members =>
      members.keys.filter fun member => low.startsAt member && high.endsAt member, database)
  | .ping => (.ok (), database)
  | .commit writes =>
    match database.commit writes with
    | .ok changed => (.ok (), changed)
    | .error failure => (.error failure, database)

end Database

end DirectoryService.KeyValue
