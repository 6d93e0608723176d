import DirectoryService.Json.Printer
import DirectoryService.Store.Basic

/-!
# The administration interface

Over HTTP the service tells its state and its counters to everyone, and reads its schema again from
the store for whoever has the token. Whatever is not one of the open routes asks for the token
before it tells whether it is there at all.
-/

namespace DirectoryService

/-- A request without contents. -/
structure HttpRequest where
  /-- The method. -/
  method : String
  /-- The target: a path with or without a query, a whole address, or the name of a host. -/
  target : String
  /-- The headers, in order. -/
  headers : List (String × List UInt8)

/-- An answer. -/
structure HttpResponse where
  /-- The status. -/
  status : Nat
  /-- The type of the contents. -/
  contentType : Option String
  /-- The contents. -/
  body : String
deriving DecidableEq

/-- What the interface works with. -/
structure Api where
  /-- The store. -/
  store : Store
  /-- The schema that is served. -/
  catalog : Catalog
  /-- The token, if there is one. -/
  token : Option String
  /-- The present time, as text. -/
  now : String
  /-- The counters, as text. -/
  counters : String

/-- Why a request is not let in. -/
inductive Refusal where
  /-- There is no readable authorization. -/
  | missing
  /-- The authorization is not a bearer token. -/
  | wrongFormat
  /-- There is no token to compare with. -/
  | notConfigured
  /-- The token is another one. -/
  | wrongToken
deriving DecidableEq

namespace HttpResponse

/-- An answer without contents. -/
def bare (status : Nat) : HttpResponse := ⟨status, none, ""⟩

/-- An answer in plain text. -/
def plain (status : Nat) (body : String) : HttpResponse :=
  ⟨status, some "text/plain; charset=utf-8", body⟩

/-- An answer in JSON. -/
def json (status : Nat) (body : Json) : HttpResponse :=
  ⟨status, some "application/json", body.render⟩

/-- The JSON answer of a success. -/
def success (status : Nat) (data : Json) : HttpResponse :=
  json status (.object [("success", .bool true), ("data", data), ("error", .null)])

/-- The JSON answer of a failure. -/
def failure (status : Nat) (message : String) : HttpResponse :=
  json status (.object [("success", .bool false), ("data", .null), ("error", .text message)])

/-- The type of the counters. -/
def countersType : String := "text/plain; version=0.0.4"

/-- The answer to an error. Only what the caller can mend is told in words. -/
def ofError : Error → HttpResponse
  | .rejected cause => failure 400 cause.message
  | .schema cause => failure 422 cause.message
  | .storage _ => failure 503 "Storage unavailable"
  | .database _ => failure 503 "Storage unavailable"
  | .pool _ => failure 503 "Storage unavailable"
  | _ => failure 500 "Internal server error"

/-- The answer to a request that is not let in. -/
def ofRefusal : Refusal → HttpResponse
  | .missing => plain 401 "Missing authorization token"
  | .wrongFormat => plain 401 "Invalid authorization format. Expected: Bearer <token>"
  | .notConfigured => plain 503 "Admin API is not configured"
  | .wrongToken => plain 401 "Invalid authorization token"

end HttpResponse

namespace HttpRequest

/-- Whether a character can stand in the scheme of an address. Any of them may come first, and the
tilde is one of them. -/
def isSchemeChar (c : Char) : Bool := c.isAlphanum || c = '+' || c = '-' || c = '.' || c = '~'

/-- The part of an address behind the host; nothing if a target has no scheme. -/
def behindHost? (target : List Char) : Option (List Char) :=
  match target.dropWhile isSchemeChar with
  | ':' :: '/' :: '/' :: rest => some (rest.dropWhile fun c => c ≠ '/' && c ≠ '?' && c ≠ '#')
  | _ => none

/-- The path that a text starts with, without a query and a fragment. -/
def leadingPath (text : List Char) : List Char := text.takeWhile fun c => c ≠ '?' && c ≠ '#'

/-- The characters of the path. The asterisk is a path of its own, an address without a path means
the root, and the mere name of a host has no path at all. -/
def pathChars (target : List Char) : List Char :=
  match target with
  | '/' :: _ => leadingPath target
  | ['*'] => target
  | _ =>
    match (behindHost? target).map leadingPath with
    | some [] => ['/']
    | some path => path
    | none => []

/-- The path without a query. -/
def path (request : HttpRequest) : String := String.ofList (pathChars request.target.toList)

/-- The first header of a name, in any case. -/
def header? (request : HttpRequest) (name : String) : Option (List UInt8) :=
  (request.headers.find? fun header => Ascii.same header.1 name).map (·.2)

/-- The authorization, if it is made of visible ASCII characters, spaces and tabs. -/
def authorization? (request : HttpRequest) : Option (List Char) := do
  let octets ← request.header? "authorization"
  if octets.all fun octet => (32 ≤ octet && octet < 127) || octet = 9 then
    some (octets.map fun octet => Char.ofNat octet.toNat)
  else none

end HttpRequest

namespace Api

/-- How an authorization with a bearer token begins. -/
def bearer : List Char := "Bearer ".toList

/-- The token to compare with; an empty one counts as none. -/
def expected? (api : Api) : Option String := api.token.filter (!·.isEmpty)

/-- Checks that a request has the token. -/
def authorize (api : Api) (request : HttpRequest) : Except Refusal Unit :=
  match request.authorization? with
  | none => .error .missing
  | some text =>
    if bearer.isPrefixOf text then
      match api.expected? with
      | none => .error .notConfigured
      | some token =>
        if token.toList = text.drop bearer.length then .ok () else .error .wrongToken
    else .error .wrongFormat

/-- The state of the service. -/
def health (api : Api) : HttpResponse :=
  let healthy := match api.store.healthy with
    | .ok healthy => healthy
    | .error _ => false
  HttpResponse.success (if healthy then 200 else 503)
    (.object
      [("status", .text (if healthy then "healthy" else "unhealthy")), ("storage", .bool healthy),
        ("timestamp", .text api.now)])

/-- The sizes of the sections of a schema. -/
def summary (catalog : Catalog) : Json :=
  .object
    [("syntaxes", .integer catalog.syntaxes.length),
      ("matching_rules", .integer catalog.matchingRules.length),
      ("attribute_types", .integer catalog.attributeTypes.length),
      ("object_classes", .integer catalog.objectClasses.length)]

/-- Reads the schema again; one that cannot be read or is no schema leaves the served one. -/
def reload (api : Api) : HttpResponse × Catalog :=
  match Catalog.load api.store with
  | .error error => (HttpResponse.ofError error, api.catalog)
  | .ok catalog => (HttpResponse.success 200 (summary catalog), catalog)

/-- The path at which the schema is read again. -/
def reloadPath : String := "/admin/schema/reload"

/-- A response to a request with the token. -/
def respondInside (api : Api) (request : HttpRequest) : HttpResponse × Catalog :=
  if request.path = reloadPath then
    if request.method = "POST" then api.reload else (.bare 405, api.catalog)
  else (.bare 404, api.catalog)

/-- A response with all its contents, and the schema that is served from now on. -/
def respondFully (api : Api) (request : HttpRequest) : HttpResponse × Catalog :=
  let reads := request.method = "GET" ∨ request.method = "HEAD"
  if request.path = "/health" then
    (if reads then api.health else .bare 405, api.catalog)
  else if request.path = "/metrics" then
    (if reads then ⟨200, some HttpResponse.countersType, api.counters⟩ else .bare 405,
      api.catalog)
  else match api.authorize request with
    | .error refusal => (.ofRefusal refusal, api.catalog)
    | .ok () => api.respondInside request

/-- Whether the answer at a path is cut down to its head if only that is asked for. A refusal at a
path below the root at which nothing is found is sent as a whole. -/
def cutsToHead (path : String) : Bool :=
  ["/health", "/metrics", reloadPath].contains path || !"/".isPrefixOf path

/-- The response to a request, and the schema that is served from now on. -/
def respond (api : Api) (request : HttpRequest) : HttpResponse × Catalog :=
  let (response, catalog) := api.respondFully request
  (if request.method = "HEAD" ∧ cutsToHead request.path then { response with body := "" }
    else response, catalog)

end Api

end DirectoryService
