import DirectoryService.Entry.Basic

/-!
# The example tree

The entries that a fresh store is provisioned with, parents first.
-/

namespace DirectoryService.Seed

/-- The name of the root of the example tree. -/
def base : String := "dc=example,dc=org"

/-- The name of the group below the root. -/
def group : String := "cn=Users," ++ base

/-- The names of the people in the group. -/
def people : List String := ["Test User", "Test User2"]

/-- The user of the principal that is provisioned with the tree. -/
def administrator : String := "admin"

/-- A person of the group. -/
def person (name : String) : Entry :=
  (((Entry.bare ("cn=" ++ name) group).declaring "person").adding "cn" [name]).adding "sn" ["User"]

/-- The entries of the example tree, created at the given time. -/
def entries (created : String) : List Entry :=
  let root := ((Entry.bare base none).declaring "domain").adding "dc" ["example"]
  let users := (((Entry.bare "cn=Users" base).declaring "groupOfNames").adding "cn"
    ["Users"]).adding "member" (people.map fun name => "cn=" ++ name ++ "," ++ group)
  (root :: users :: people.map person).map
    (Entry.addingOperational · "createTimestamp" [created])

end DirectoryService.Seed
