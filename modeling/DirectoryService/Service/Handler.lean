import DirectoryService.Store.Basic

/-!
# Handlers

A handler answers one operation with messages and may ask for the connection to be closed. It sees
the store and the schema that are current when it is called, and changes neither.
-/

namespace DirectoryService

/-- What a handler sees of the service. -/
structure Context where
  /-- The store. -/
  store : Store
  /-- The schema. -/
  catalog : Catalog

/-- What is written back, and whether the connection is closed after that. -/
structure Reply where
  /-- The messages. -/
  messages : List Ber.Packet
  /-- Whether the connection is closed. -/
  close : Bool

namespace Reply

/-- Nothing to write. -/
def empty : Reply := ⟨[], false⟩

/-- One message. -/
def one (message : Ber.Packet) : Reply := ⟨[message], false⟩

/-- One reply after another; the connection is closed if either asks for it. -/
def append (first second : Reply) : Reply :=
  ⟨first.messages ++ second.messages, first.close || second.close⟩

end Reply

/-- What answers the operation of a message. -/
abbrev Handler := Context → (messageId : Int) → (operation : Ber.Packet) →
  Counted (Except Error Reply)

end DirectoryService
