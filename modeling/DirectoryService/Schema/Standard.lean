import DirectoryService.Schema.Catalog

/-!
# The standard schema

The syntaxes, matching rules, attribute types and object classes that every LDAP directory knows,
and the few more that the example tree needs.
-/

namespace DirectoryService.Standard

/-- The object identifier of a standard syntax. -/
def syntaxNumber (number : Nat) : String := s!"1.3.6.1.4.1.1466.115.121.1.{number}"

/-- The standard syntaxes. -/
def syntaxes : List LdapSyntax :=
  [(3, "Attribute Type Description"),
    (5, "Binary"),
    (6, "Bit String"),
    (7, "Boolean"),
    (8, "Certificate"),
    (9, "Certificate List"),
    (10, "Certificate Pair"),
    (11, "Country String"),
    (12, "Distinguished Name"),
    (14, "Delivery Method"),
    (15, "Directory String"),
    (16, "DIT Content Rule Description"),
    (17, "DIT Structure Rule Description"),
    (21, "Enhanced Guide"),
    (22, "Facsimile Telephone Number"),
    (23, "Fax"),
    (24, "Generalized Time"),
    (25, "Guide"),
    (26, "IA5 String"),
    (27, "Integer"),
    (28, "JPEG"),
    (30, "Matching Rule Description"),
    (31, "Matching Rule Use Description"),
    (34, "Name And Optional UID"),
    (35, "Name Form Description"),
    (36, "Numeric String"),
    (37, "Object Class Description"),
    (38, "OID"),
    (39, "Other Mailbox"),
    (40, "Octet String"),
    (41, "Postal Address"),
    (44, "Printable String"),
    (49, "Supported Algorithm"),
    (50, "Telephone Number"),
    (51, "Teletex Terminal Identifier"),
    (52, "Telex Number"),
    (53, "UTC Time"),
    (54, "LDAP Syntax Description"),
    (58, "Substring Assertion")].map
    fun (number, description) => ⟨syntaxNumber number, description⟩

/-- The standard matching rules. -/
def matchingRules : List MatchingRule :=
  [("2.5.13.16", "bitStringMatch", 6),
    ("2.5.13.13", "booleanMatch", 7),
    ("1.3.6.1.4.1.1466.109.114.1", "caseExactIA5Match", 26),
    ("2.5.13.5", "caseExactMatch", 15),
    ("2.5.13.6", "caseExactOrderingMatch", 15),
    ("2.5.13.7", "caseExactSubstringsMatch", 58),
    ("1.3.6.1.4.1.1466.109.114.2", "caseIgnoreIA5Match", 26),
    ("1.3.6.1.4.1.1466.109.114.3", "caseIgnoreIA5SubstringsMatch", 58),
    ("2.5.13.11", "caseIgnoreListMatch", 41),
    ("2.5.13.12", "caseIgnoreListSubstringsMatch", 58),
    ("2.5.13.2", "caseIgnoreMatch", 15),
    ("2.5.13.3", "caseIgnoreOrderingMatch", 15),
    ("2.5.13.4", "caseIgnoreSubstringsMatch", 58),
    ("2.5.13.31", "directoryStringFirstComponentMatch", 15),
    ("2.5.13.1", "distinguishedNameMatch", 12),
    ("2.5.13.27", "generalizedTimeMatch", 24),
    ("2.5.13.28", "generalizedTimeOrderingMatch", 24),
    ("2.5.13.29", "integerFirstComponentMatch", 27),
    ("2.5.13.14", "integerMatch", 27),
    ("2.5.13.15", "integerOrderingMatch", 27),
    ("2.5.13.33", "keywordMatch", 15),
    ("2.5.13.8", "numericStringMatch", 36),
    ("2.5.13.9", "numericStringOrderingMatch", 36),
    ("2.5.13.10", "numericStringSubstringsMatch", 58),
    ("2.5.13.30", "objectIdentifierFirstComponentMatch", 38),
    ("2.5.13.0", "objectIdentifierMatch", 38),
    ("2.5.13.17", "octetStringMatch", 40),
    ("2.5.13.18", "octetStringOrderingMatch", 40),
    ("2.5.13.20", "telephoneNumberMatch", 50),
    ("2.5.13.21", "telephoneNumberSubstringsMatch", 58),
    ("2.5.13.23", "uniqueMemberMatch", 34),
    ("2.5.13.32", "wordMatch", 15)].map
    fun (oid, name, number) => ⟨oid, name, [], syntaxNumber number⟩

/-- An attribute type of which only identifier and name are told. -/
def plain (oid name : String) : AttributeType :=
  ⟨oid, name, [], none, none, none, none, none, .none, .userApplications⟩

/-- A text attribute that is compared without regard to case. -/
def caseIgnoring (oid name : String) : AttributeType :=
  { plain oid name with
    equality := some "caseIgnoreMatch", substring := some "caseIgnoreSubstringsMatch",
    syntaxOid := some (syntaxNumber 15) }

/-- An attribute whose values are names of entries. -/
def nameValued (oid name : String) : AttributeType :=
  { plain oid name with superior := some "distinguishedName" }

/-- An attribute that names something. -/
def nameSubtype (oid name : String) : AttributeType :=
  { plain oid name with superior := some "name" }

/-- A time that the server keeps. -/
def operationalTime (oid name : String) : AttributeType :=
  { plain oid name with
    equality := some "generalizedTimeMatch", ordering := some "generalizedTimeOrderingMatch",
    syntaxOid := some (syntaxNumber 24),
    flags := AttributeFlags.union .singleValue .noUserModification,
    usage := .directoryOperation }

/-- An attribute that serves a part of the schema. -/
def subschemaDescription (oid name : String) (number : Nat) : AttributeType :=
  { plain oid name with
    equality := some "objectIdentifierFirstComponentMatch",
    syntaxOid := some (syntaxNumber number), usage := .directoryOperation }

/-- The standard attribute types. -/
def attributeTypes : List AttributeType :=
  [{ plain "2.5.4.0" "objectClass" with
      equality := some "objectIdentifierMatch", syntaxOid := some (syntaxNumber 38) },
    { plain "2.5.4.1" "aliasedObjectName" with
      equality := some "distinguishedNameMatch", syntaxOid := some (syntaxNumber 12),
      flags := .singleValue },
    operationalTime "2.5.18.1" "createTimestamp",
    operationalTime "2.5.18.2" "modifyTimestamp",
    { plain "2.5.18.10" "subschemaSubentry" with
      equality := some "distinguishedNameMatch", syntaxOid := some (syntaxNumber 12),
      flags := AttributeFlags.union .singleValue .noUserModification,
      usage := .directoryOperation },
    { plain "1.3.6.1.4.1.1466.101.120.5" "namingContexts" with
      syntaxOid := some (syntaxNumber 12), usage := .dsaOperation },
    subschemaDescription "1.3.6.1.4.1.1466.101.120.16" "ldapSyntaxes" 54,
    subschemaDescription "2.5.21.4" "matchingRules" 30,
    subschemaDescription "2.5.21.5" "attributeTypes" 3,
    subschemaDescription "2.5.21.6" "objectClasses" 37,
    caseIgnoring "2.5.4.15" "businessCategory",
    caseIgnoring "2.5.4.41" "name",
    { nameSubtype "2.5.4.6" "c" with
      aliases := ["countryName"], syntaxOid := some (syntaxNumber 11), flags := .singleValue },
    { nameSubtype "2.5.4.3" "cn" with aliases := ["commonName"] },
    { plain "0.9.2342.19200300.100.1.25" "dc" with
      aliases := ["domainComponent"], equality := some "caseIgnoreIA5Match",
      substring := some "caseIgnoreIA5SubstringsMatch", syntaxOid := some (syntaxNumber 26),
      flags := .singleValue },
    caseIgnoring "2.5.4.13" "description",
    { caseIgnoring "2.5.4.27" "destinationIndicator" with syntaxOid := some (syntaxNumber 44) },
    { plain "2.5.4.49" "distinguishedName" with
      equality := some "distinguishedNameMatch", syntaxOid := some (syntaxNumber 12) },
    { plain "2.5.4.46" "dnQualifier" with
      equality := some "caseIgnoreMatch", substring := some "caseIgnoreSubstringsMatch",
      ordering := some "caseIgnoreOrderingMatch", syntaxOid := some (syntaxNumber 44) },
    { plain "2.5.4.47" "enhancedSearchGuide" with syntaxOid := some (syntaxNumber 21) },
    { plain "2.5.4.23" "facsimileTelephoneNumber" with syntaxOid := some (syntaxNumber 22) },
    nameSubtype "2.5.4.44" "generationQualifier",
    nameSubtype "2.5.4.42" "givenName",
    caseIgnoring "2.5.4.51" "houseIdentifier",
    nameSubtype "2.5.4.43" "initials",
    { plain "2.5.4.25" "internationalISDNNumber" with
      equality := some "numericStringMatch", substring := some "numericStringSubstringsMatch",
      syntaxOid := some (syntaxNumber 36) },
    { nameSubtype "2.5.4.7" "l" with aliases := ["localityName"] },
    nameValued "2.5.4.31" "member",
    { nameSubtype "2.5.4.10" "o" with aliases := ["organizationName"] },
    { nameSubtype "2.5.4.11" "ou" with aliases := ["organizationalUnitName"] },
    nameValued "2.5.4.32" "owner",
    caseIgnoring "2.5.4.19" "physicalDeliveryOfficeName",
    { plain "2.5.4.16" "postalAddress" with
      equality := some "caseIgnoreListMatch", substring := some "caseIgnoreListSubstringsMatch",
      syntaxOid := some (syntaxNumber 41) },
    caseIgnoring "2.5.4.17" "postalCode",
    caseIgnoring "2.5.4.18" "postOfficeBox",
    { plain "2.5.4.28" "preferredDeliveryMethod" with
      syntaxOid := some (syntaxNumber 14), flags := .singleValue },
    { plain "2.5.4.26" "registeredAddress" with
      superior := some "postalAddress", syntaxOid := some (syntaxNumber 41) },
    nameValued "2.5.4.33" "roleOccupant",
    { plain "2.5.4.14" "searchGuide" with syntaxOid := some (syntaxNumber 25) },
    nameValued "2.5.4.34" "seeAlso",
    { caseIgnoring "2.5.4.5" "serialNumber" with syntaxOid := some (syntaxNumber 44) },
    { nameSubtype "2.5.4.4" "sn" with aliases := ["surname"] },
    { nameSubtype "2.5.4.8" "st" with aliases := ["stateOrProvinceName"] },
    { caseIgnoring "2.5.4.9" "street" with aliases := ["streetAddress"] },
    { plain "2.5.4.20" "telephoneNumber" with
      equality := some "telephoneNumberMatch",
      substring := some "telephoneNumberSubstringsMatch", syntaxOid := some (syntaxNumber 50) },
    { plain "2.5.4.22" "teletexTerminalIdentifier" with syntaxOid := some (syntaxNumber 51) },
    { plain "2.5.4.21" "telexNumber" with syntaxOid := some (syntaxNumber 52) },
    nameSubtype "2.5.4.12" "title",
    { caseIgnoring "0.9.2342.19200300.100.1.1" "uid" with aliases := ["userid"] },
    { plain "2.5.4.50" "uniqueMember" with
      equality := some "uniqueMemberMatch", syntaxOid := some (syntaxNumber 34) },
    { plain "2.5.4.35" "userPassword" with
      equality := some "octetStringMatch", syntaxOid := some (syntaxNumber 40) },
    { plain "2.5.4.24" "x121Address" with
      equality := some "numericStringMatch", substring := some "numericStringSubstringsMatch",
      syntaxOid := some (syntaxNumber 36) },
    { plain "2.5.4.45" "x500UniqueIdentifier" with
      equality := some "bitStringMatch", syntaxOid := some (syntaxNumber 6) }]

/-- Attributes of everything that has a postal address or a telephone. -/
def postal : List String :=
  ["x121Address", "registeredAddress", "destinationIndicator", "preferredDeliveryMethod",
    "telexNumber", "teletexTerminalIdentifier", "telephoneNumber", "internationalISDNNumber",
    "facsimileTelephoneNumber", "street", "postOfficeBox", "postalCode", "postalAddress",
    "physicalDeliveryOfficeName", "st"]

/-- Attributes of every kind of group. -/
def groupParts : List String :=
  ["businessCategory", "seeAlso", "owner", "ou", "o", "description"]

/-- The standard object classes. -/
def objectClasses : List ObjectClass :=
  [⟨"2.5.6.0", "top", [], none, .abstractRoot, ["objectClass"], []⟩,
    ⟨"2.5.6.1", "alias", [], none, .structural, ["aliasedObjectName"], []⟩,
    ⟨"2.5.20.1", "subschema", [], none, .auxiliary, [], ["ldapSyntaxes", "objectClasses",
      "attributeTypes", "matchingRules"]⟩,
    ⟨"1.3.6.1.4.1.1466.101.120.111", "extensibleObject", [], none, .auxiliary, [], []⟩,
    ⟨"2.16.840.1.113719.2.142.6.1.1", "ldapSubentry", [], none, .structural, [], ["cn"]⟩,
    ⟨"2.5.6.11", "applicationProcess", [], none, .structural, ["cn"], ["seeAlso", "ou", "l",
      "description"]⟩,
    ⟨"2.5.6.2", "country", [], none, .structural, ["c"], ["searchGuide", "description"]⟩,
    ⟨"1.3.6.1.4.1.1466.344", "dcObject", [], none, .auxiliary, ["dc"], []⟩,
    ⟨"2.5.6.14", "device", [], none, .structural, ["cn"], ["serialNumber", "seeAlso", "owner",
      "ou", "o", "l", "description"]⟩,
    ⟨"2.5.6.9", "groupOfNames", [], none, .structural, ["member", "cn"], groupParts⟩,
    ⟨"2.5.6.17", "groupOfUniqueNames", [], none, .structural, ["uniqueMember", "cn"],
      groupParts⟩,
    ⟨"2.5.6.3", "locality", [], none, .structural, [], ["street", "seeAlso", "searchGuide", "st",
      "l", "description"]⟩,
    ⟨"2.5.6.4", "organization", [], none, .structural, ["o"], ["userPassword", "searchGuide",
      "seeAlso", "businessCategory"] ++ postal ++ ["l", "description"]⟩,
    ⟨"2.5.6.7", "organizationalPerson", [], some "person", .structural, [], ["title"] ++ postal
      ++ ["ou", "l"]⟩,
    ⟨"2.5.6.8", "organizationalRole", [], none, .structural, ["cn"], ["seeAlso", "roleOccupant"]
      ++ postal ++ ["ou", "l", "description"]⟩,
    ⟨"2.5.6.5", "organizationalUnit", [], none, .structural, ["ou"], ["businessCategory",
      "description", "searchGuide", "seeAlso", "userPassword"] ++ postal ++ ["l"]⟩,
    ⟨"2.5.6.6", "person", [], none, .structural, ["sn", "cn"], ["userPassword",
      "telephoneNumber", "seeAlso", "description"]⟩,
    ⟨"2.5.6.10", "residentialPerson", [], some "person", .structural, ["l"], ["businessCategory"]
      ++ postal⟩,
    ⟨"1.3.6.1.1.3.1", "uidObject", [], none, .auxiliary, ["uid"], []⟩,
    ⟨"0.9.2342.19200300.100.4.13", "domain", [], none, .structural, ["dc"], ["userPassword",
      "searchGuide", "seeAlso", "businessCategory"] ++ postal ++ ["l", "description", "o"]⟩]

end DirectoryService.Standard

/-- The standard schema. -/
def DirectoryService.Catalog.standard : DirectoryService.Catalog :=
  ⟨DirectoryService.Standard.syntaxes, DirectoryService.Standard.matchingRules,
    DirectoryService.Standard.attributeTypes, DirectoryService.Standard.objectClasses⟩
