import DirectoryService.Schema.Basic

/-!
# Schema descriptions

The textual form in which a schema is served: the words of a description, with a space between each
two. Clauses that do not apply are left out.
-/

namespace DirectoryService

/-- Words with a space between each two. -/
def spaced : List (List Char) → List Char
  | [] => []
  | [word] => word
  | word :: next :: rest => word ++ ' ' :: spaced (next :: rest)

/-- A text between single quotes. -/
def singleQuoted (text : String) : List Char := '\'' :: text.toList ++ ['\'']

/-- A text as one word. -/
def word (text : String) : List Char := text.toList

/-- The names of a definition: one alone, or several between parentheses. -/
def nameWords (name : String) (aliases : List String) : List (List Char) :=
  match aliases with
  | [] => [singleQuoted name]
  | _ => word "(" :: (name :: aliases).map singleQuoted ++ [word ")"]

/-- Attribute names between parentheses, with a dollar sign between each two. No names leave two
spaces, as around an empty word. -/
def listWords : List String → List (List Char)
  | [] => [word "(", word "", word ")"]
  | first :: rest =>
    word "(" :: word first :: rest.flatMap (fun name => [word "$", word name]) ++ [word ")"]

/-- A keyword with its argument, if there is one. -/
def clause (keyword : String) (argument : Option String) : List (List Char) :=
  match argument with
  | none => []
  | some text => [word keyword, word text]

/-- A keyword, if it applies. -/
def keywordIf (applies : Bool) (keyword : String) : List (List Char) :=
  if applies then [word keyword] else []

/-- A keyword with attribute names, if there are any. -/
def listClause (keyword : String) (names : List String) : List (List Char) :=
  if names.isEmpty then [] else word keyword :: listWords names

namespace LdapSyntax

/-- The words of a syntax description. -/
def words (definition : LdapSyntax) : List (List Char) :=
  [word "(", word definition.oid, word "DESC", singleQuoted definition.description, word ")"]

/-- The description of a syntax. -/
def describe (definition : LdapSyntax) : String := String.ofList (spaced definition.words)

end LdapSyntax

namespace MatchingRule

/-- The words of a matching rule description. -/
def words (definition : MatchingRule) : List (List Char) :=
  [word "(", word definition.oid, word "NAME"] ++ nameWords definition.name definition.aliases ++
    [word "SYNTAX", word definition.syntaxOid, word ")"]

/-- The description of a matching rule. -/
def describe (definition : MatchingRule) : String := String.ofList (spaced definition.words)

end MatchingRule

namespace AttributeType

/-- The words of an attribute type description. -/
def words (definition : AttributeType) : List (List Char) :=
  [word "(", word definition.oid, word "NAME"] ++ nameWords definition.name definition.aliases ++
    keywordIf (definition.flags.contains .obsolete) "OBSOLETE" ++
    clause "SUP" definition.superior ++ clause "EQUALITY" definition.equality ++
    clause "SUBSTR" definition.substring ++ clause "ORDERING" definition.ordering ++
    clause "SYNTAX" definition.syntaxOid ++
    keywordIf (definition.flags.contains .singleValue) "SINGLE-VALUE" ++
    keywordIf (definition.flags.contains .collective) "COLLECTIVE" ++
    keywordIf (definition.flags.contains .noUserModification) "NO-USER-MODIFICATION" ++
    (if definition.usage = .userApplications then []
      else [word "USAGE", word definition.usage.keyword]) ++
    [word ")"]

/-- The description of an attribute type. -/
def describe (definition : AttributeType) : String := String.ofList (spaced definition.words)

end AttributeType

namespace ObjectClass

/-- The words of an object class description. -/
def words (definition : ObjectClass) : List (List Char) :=
  [word "(", word definition.oid, word "NAME"] ++ nameWords definition.name definition.aliases ++
    clause "SUP" definition.effectiveSuperior ++ [word definition.kind.keyword] ++
    listClause "MUST" definition.must ++ listClause "MAY" definition.may ++ [word ")"]

/-- The description of an object class. -/
def describe (definition : ObjectClass) : String := String.ofList (spaced definition.words)

end ObjectClass

end DirectoryService
