import DirectoryService.Message.Result
import DirectoryService.Text.Ascii

/-!
# Found entries

An entry that a search found goes out as a name and a list of attributes, in the order in which they
were added.
-/

namespace DirectoryService

/-- An attribute with its values. -/
structure FoundAttribute where
  /-- The description of the attribute. -/
  name : String
  /-- Its values. -/
  values : List String
deriving DecidableEq

/-- An entry on its way to a client. -/
structure SearchEntry where
  /-- The distinguished name. -/
  name : String
  /-- The attributes. -/
  attributes : List FoundAttribute
deriving DecidableEq

namespace FoundAttribute

/-- The packet of an attribute. -/
def toPacket (found : FoundAttribute) : Ber.Packet :=
  .constructed .universal Ber.sequenceTag
    [.text found.name "Attribute Name",
      .constructed .universal Ber.setTag (found.values.map (.text · "Attribute Value"))
        "Attribute Values"]
    "Attribute"

end FoundAttribute

namespace SearchEntry

/-- An entry without attributes. -/
def named (name : String) : SearchEntry := ⟨name, []⟩

/-- The entry with one more attribute at the end. -/
def add (entry : SearchEntry) (name : String) (values : List String) : SearchEntry :=
  { entry with attributes := entry.attributes ++ [⟨name, values⟩] }

/-- The entry with more attributes at the end. -/
def addAll (entry : SearchEntry) (pairs : List (String × List String)) : SearchEntry :=
  { entry with attributes := entry.attributes ++ pairs.map fun (name, values) => ⟨name, values⟩ }

/-- The first attribute of a name, in any case. -/
def find? (entry : SearchEntry) (name : String) : Option FoundAttribute :=
  entry.attributes.find? fun found => Ascii.same found.name name

/-- The operation that carries an entry. -/
def toOperation (entry : SearchEntry) : Ber.Packet :=
  .constructed .application searchEntryTag
    [.text entry.name "objectName",
      .constructed .universal Ber.sequenceTag (entry.attributes.map FoundAttribute.toPacket)
        "Attributes"]
    "Search Result Entry"

/-- The answer that carries an entry. -/
def toPacket (messageId : Int) (entry : SearchEntry) : Ber.Packet :=
  Message.envelope messageId entry.toOperation

end SearchEntry

end DirectoryService
