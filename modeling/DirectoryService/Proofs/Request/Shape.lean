import DirectoryService.Error
import DirectoryService.Proofs.Request.Field
import DirectoryService.Request.Bind
import DirectoryService.Request.Search

/-!
# The shape of requests

A search has eight fields and a bind has three. A request is accepted exactly if these are there and
hold values of their types, and the values are what is asked for. A request that is refused is so
for the first field that is not as it should be. The filter of a search may be anything: one that
cannot be read is asked for as no filter at all.
-/

namespace DirectoryService

open Ber (Packet)
open Request (HasField HoldsOneOf Rule ReadsInOrder)

/-- A packet is a sequence of octet strings that hold texts. -/
def Ber.Packet.HoldsTexts (packet : Packet) (texts : List String) : Prop :=
  ∃ children description,
    packet = .constructed .universal sequenceTag children description ∧
      List.Forall₂ HoldsText children texts

/-- The numbers of the scopes. -/
def SearchScope.numbers : List (Int × SearchScope) := [(0, .base), (1, .oneLevel), (2, .subtree)]

/-- The numbers of the treatments of aliases. -/
def AliasTreatment.numbers : List (Int × AliasTreatment) :=
  [(0, .never), (1, .searching), (2, .findingBase), (3, .always)]

/-- A packet of the context class is a choice of how to authenticate: by a password if it is
primitive and of tag number zero, and by something else otherwise. -/
inductive Ber.Packet.HoldsChoice : Packet → Authentication → Prop where
  /-- The octets of the packet are the password. -/
  | simple {password description} :
      HoldsChoice (.primitive .context 0 password description) (.simple password)
  /-- The tag number tells the choice. -/
  | unsupported {packet} (context : packet.tagClass = .context)
      (other : packet.hasShape .context false 0 = false) :
      HoldsChoice packet (.unsupported packet.tag)

namespace SearchRequest

/-- An operation holds a search in its first eight packets. -/
structure IsIn (operation : Packet) (request : SearchRequest) : Prop where
  /-- The first one holds the base. -/
  base : HasField operation 0 fun packet => packet.HoldsText request.base
  /-- The second one holds the scope. -/
  scope : HasField operation 1 fun packet => HoldsOneOf SearchScope.numbers packet request.scope
  /-- The third one holds the treatment of aliases. -/
  aliases : HasField operation 2 fun packet =>
    HoldsOneOf AliasTreatment.numbers packet request.aliases
  /-- The fourth one holds the greatest number of entries. -/
  sizeLimit : HasField operation 3 fun packet =>
    packet.HoldsNumber Ber.integerTag request.sizeLimit
  /-- The fifth one holds the longest time. -/
  timeLimit : HasField operation 4 fun packet =>
    packet.HoldsNumber Ber.integerTag request.timeLimit
  /-- The sixth one holds whether values are left out. -/
  typesOnly : HasField operation 5 fun packet => packet.HoldsTruth request.typesOnly
  /-- The seventh one may be any packet; if it is no filter there is none. -/
  filter : HasField operation 6 fun packet => request.filter = (Filter.ofPacket packet).toOption
  /-- The eighth one holds the attributes. -/
  attributes : HasField operation 7 fun packet => packet.HoldsTexts request.attributes

/-- What a search has to hold, in the order of its fields. -/
def rules : List Rule :=
  [⟨0, .baseObject, fun packet => ∃ base, packet.HoldsText base⟩,
    ⟨1, .scope, fun packet => ∃ scope, HoldsOneOf SearchScope.numbers packet scope⟩,
    ⟨2, .derefAliases, fun packet => ∃ value, HoldsOneOf AliasTreatment.numbers packet value⟩,
    ⟨3, .sizeLimit, fun packet => ∃ limit, packet.HoldsNumber Ber.integerTag limit⟩,
    ⟨4, .timeLimit, fun packet => ∃ limit, packet.HoldsNumber Ber.integerTag limit⟩,
    ⟨5, .typesOnly, fun packet => ∃ truth, packet.HoldsTruth truth⟩,
    ⟨6, .filter, fun _ => True⟩,
    ⟨7, .attributes, fun packet => ∃ names, packet.HoldsTexts names⟩]

end SearchRequest

namespace BindRequest

/-- An operation holds a bind in its first three packets. -/
structure IsIn (operation : Packet) (request : BindRequest) : Prop where
  /-- The first one holds the version. -/
  version : HasField operation 0 fun packet => packet.HoldsNumber Ber.integerTag request.version
  /-- The second one holds the user. -/
  name : HasField operation 1 fun packet => packet.HoldsText request.name
  /-- The third one is the choice of how to authenticate. -/
  authentication : HasField operation 2 fun packet => packet.HoldsChoice request.authentication

/-- What a bind has to hold, in the order of its fields. -/
def rules : List Rule :=
  [⟨0, .version, fun packet => ∃ version, packet.HoldsNumber Ber.integerTag version⟩,
    ⟨1, .name, fun packet => ∃ name, packet.HoldsText name⟩,
    ⟨2, .authentication, fun packet => packet.tagClass = .context⟩]

end BindRequest

/-! ## Fields of their own kinds -/

section

variable {packet : Packet} {fault : Request.Fault}

/-- A number is that of a scope exactly if it is so in the list of numbers. -/
theorem SearchScope.ofNumber?_eq_some_iff (number : Int) (scope : SearchScope) :
    ofNumber? number = some scope ↔ (number, scope) ∈ numbers := by
  simp only [numbers, List.mem_cons, Prod.mk.injEq, List.not_mem_nil, or_false, ofNumber?]
  grind

/-- A number is that of a treatment of aliases exactly if it is so in the list of numbers. -/
theorem AliasTreatment.ofNumber?_eq_some_iff (number : Int) (treatment : AliasTreatment) :
    ofNumber? number = some treatment ↔ (number, treatment) ∈ numbers := by
  simp only [numbers, List.mem_cons, Prod.mk.injEq, List.not_mem_nil, or_false, ofNumber?]
  grind

namespace SearchRequest

/-- A scope is told by its number. -/
theorem readScope_eq :
    readScope = Request.numbered .scope SearchScope.ofNumber? .unknownScope := by
  funext packet
  rw [readScope, Request.numbered]
  refine bind_congr fun number => ?_
  cases SearchScope.ofNumber? number <;> rfl

/-- A treatment of aliases is told by its number. -/
theorem readAliases_eq : readAliases =
    Request.numbered .derefAliases AliasTreatment.ofNumber? .unknownAliasTreatment := by
  funext packet
  rw [readAliases, Request.numbered]
  refine bind_congr fun number => ?_
  cases AliasTreatment.ofNumber? number <;> rfl

/-- A scope is read off a field exactly if the field holds its number. -/
theorem readScope_eq_ok_iff {scope : SearchScope} :
    readScope packet = .ok scope ↔ HoldsOneOf SearchScope.numbers packet scope := by
  rw [readScope_eq, Request.numbered_eq_ok_iff SearchScope.ofNumber?_eq_some_iff]

/-- A treatment of aliases is read off a field exactly if the field holds its number. -/
theorem readAliases_eq_ok_iff {treatment : AliasTreatment} :
    readAliases packet = .ok treatment ↔ HoldsOneOf AliasTreatment.numbers packet treatment := by
  rw [readAliases_eq, Request.numbered_eq_ok_iff AliasTreatment.ofNumber?_eq_some_iff]

/-- Attributes are read off a field exactly if the field holds their names. -/
theorem readAttributes_eq_ok_iff {names : List String} :
    readAttributes packet = .ok names ↔ packet.HoldsTexts names := by
  have htexts (children : List Packet) :
      children.mapM (Request.text .attributes) = .ok names ↔
        List.Forall₂ Packet.HoldsText children names := by
    simp only [Steps.mapM_eq_ok_iff, Request.text_eq_ok_iff]
  rw [readAttributes, Steps.bind_eq_ok_iff]
  constructor
  · intro h
    obtain ⟨_, passed, read⟩ := h
    obtain ⟨children, description, hpacket⟩ :=
      Packet.hasShape_constructed_iff.1 (Request.expect_eq_ok_iff.1 passed)
    rw [hpacket, htexts] at read
    exact ⟨children, description, hpacket, read⟩
  · intro h
    obtain ⟨children, description, hpacket, hold⟩ := h
    have hshape := Packet.hasShape_constructed_iff.2 ⟨children, description, hpacket⟩
    refine ⟨(), Request.expect_eq_ok_iff.2 hshape, ?_⟩
    rw [hpacket, htexts]
    exact hold

/-- A fault of attributes is about their field. -/
theorem field?_of_readAttributes (refused : readAttributes packet = .error fault) :
    fault.field? = some .attributes := by
  rw [readAttributes, Steps.bind_eq_error_iff] at refused
  rcases refused with h | h
  · exact Request.field?_of_expect h
  · obtain ⟨_, -, unread⟩ := h
    obtain ⟨child, -, hchild⟩ := Steps.exists_of_mapM_eq_error unread
    exact Request.field?_of_primitive hchild

/-- A search is read off an operation exactly if the operation holds it. -/
theorem ofPacket_eq_ok_iff {operation : Packet} {request : SearchRequest} :
    ofPacket operation = .ok request ↔ IsIn operation request := by
  simp only [ofPacket, Steps.bind_eq_ok_iff, Request.require_eq_ok_iff, Request.text_eq_ok_iff,
    readScope_eq_ok_iff, readAliases_eq_ok_iff, Request.integer_eq_ok_iff,
    Request.boolean_eq_ok_iff, readAttributes_eq_ok_iff]
  constructor
  · intro h
    obtain ⟨_, hbase, _, base, _, hscope, _, scope, _, haliases, _, aliases, _, hsize, _, size,
      _, htime, _, time, _, htypes, _, types, _, hfilter, _, hattributes, _, attributes,
      hrequest⟩ := h
    cases hrequest
    exact ⟨⟨_, hbase, base⟩, ⟨_, hscope, scope⟩, ⟨_, haliases, aliases⟩, ⟨_, hsize, size⟩,
      ⟨_, htime, time⟩, ⟨_, htypes, types⟩, ⟨_, hfilter, rfl⟩, ⟨_, hattributes, attributes⟩⟩
  · intro h
    obtain ⟨⟨_, hbase, base⟩, ⟨_, hscope, scope⟩, ⟨_, haliases, aliases⟩, ⟨_, hsize, size⟩,
      ⟨_, htime, time⟩, ⟨_, htypes, types⟩, ⟨_, hfilter, filter⟩,
      ⟨_, hattributes, attributes⟩⟩ := h
    refine ⟨_, hbase, _, base, _, hscope, _, scope, _, haliases, _, aliases, _, hsize, _, size,
      _, htime, _, time, _, htypes, _, types, _, hfilter, _, hattributes, _, attributes, ?_⟩
    rw [← filter]
    rfl

/-- A search is read field by field. -/
theorem ofPacket_readsInOrder : ReadsInOrder rules ofPacket := by
  have hscope : Rule.IsReadBy
      ⟨1, .scope, fun packet => ∃ scope, HoldsOneOf SearchScope.numbers packet scope⟩
      readScope := by
    rw [readScope_eq]
    exact Request.isReadBy_numbered SearchScope.ofNumber?_eq_some_iff fun _ => rfl
  have haliases : Rule.IsReadBy
      ⟨2, .derefAliases, fun packet => ∃ value, HoldsOneOf AliasTreatment.numbers packet value⟩
      readAliases := by
    rw [readAliases_eq]
    exact Request.isReadBy_numbered AliasTreatment.ofNumber?_eq_some_iff fun _ => rfl
  have hattributes : Rule.IsReadBy
      ⟨7, .attributes, fun packet => ∃ names, packet.HoldsTexts names⟩ readAttributes :=
    .of_iff (fun _ _ => readAttributes_eq_ok_iff) fun _ _ => field?_of_readAttributes
  refine .step Request.isReadBy_text fun base => .step hscope fun scope => ?_
  refine .step haliases fun aliases => .step Request.isReadBy_integer fun size => ?_
  refine .step Request.isReadBy_integer fun time => .step Request.isReadBy_boolean fun types => ?_
  exact .step_of_free (fun _ => trivial) fun filter => .step hattributes fun attributes => .done _

/-- Another packet in the place of the filter changes nothing but the filter of the search. -/
theorem ofPacket_of_other_filter {operation other old new : Packet}
    (same : ∀ place, place ≠ 6 → other.child? place = operation.child? place)
    (before : operation.child? 6 = some old) (after : other.child? 6 = some new) :
    ofPacket other =
      (fun request => { request with filter := (Filter.ofPacket new).toOption }) <$>
        ofPacket operation := by
  have hsame (place : Nat) (field : Request.Field) (h : place ≠ 6) :
      Request.require other place field = Request.require operation place field := by
    rw [Request.require, Request.require, same place h]
  have hbefore : Request.require operation 6 .filter = .ok old :=
    Request.require_eq_ok_iff.2 before
  have hafter : Request.require other 6 .filter = .ok new := Request.require_eq_ok_iff.2 after
  rw [ofPacket, ofPacket, hsame 0 _ (by decide), hsame 1 _ (by decide), hsame 2 _ (by decide),
    hsame 3 _ (by decide), hsame 4 _ (by decide), hsame 5 _ (by decide), hsame 7 _ (by decide),
    hbefore, hafter]
  simp only [map_bind]
  rfl

/-- The text of the filter of a search is the wording of the packet in its place, or empty. -/
theorem filterText_eq {operation packet : Packet} {request : SearchRequest}
    (accepted : ofPacket operation = .ok request) (found : operation.child? 6 = some packet) :
    request.filterText = (Filter.describe packet).toOption.getD "" := by
  obtain ⟨other, there, hfilter⟩ := (ofPacket_eq_ok_iff.1 accepted).filter
  cases found.symm.trans there
  rw [filterText, hfilter, Filter.describe]
  cases Filter.ofPacket packet <;> rfl

end SearchRequest

namespace BindRequest

/-- An authentication is read off a field exactly if the field is a choice of it. -/
theorem readAuthentication_eq_ok_iff {authentication : Authentication} :
    readAuthentication packet = .ok authentication ↔ packet.HoldsChoice authentication := by
  have hsimple (context : packet.tagClass = .context) :
      packet.tag = 0 ∧ packet.isConstructed = false ↔ packet.hasShape .context false 0 = true := by
    simp [Packet.hasShape, context, and_comm]
  constructor
  · intro h
    rw [readAuthentication] at h
    split at h
    · cases h
    · rename_i other
      have hcontext := not_not.1 other
      split at h
      · rename_i simple
        obtain ⟨password, description, hpacket⟩ :=
          Packet.hasShape_primitive_iff.1 ((hsimple hcontext).1 simple)
        rw [hpacket] at h ⊢
        cases h
        exact .simple
      · rename_i other
        cases h
        exact .unsupported hcontext (Bool.eq_false_iff.2 (other ∘ (hsimple hcontext).2))
  · intro h
    cases h with
    | simple => rfl
    | unsupported context other =>
      have hother := Bool.eq_false_iff.1 other
      rw [readAuthentication, if_neg (not_not.2 context), if_neg (hother ∘ (hsimple context).1)]

/-- The packets of the context class are read as a choice of how to authenticate. -/
theorem isReadBy_readAuthentication {place : Nat} :
    (Rule.mk place .authentication fun packet => packet.tagClass = .context).IsReadBy
      readAuthentication where
  fits packet authentication taken := by
    cases readAuthentication_eq_ok_iff.1 taken with
    | simple => rfl
    | unsupported context other => exact context
  refuses packet fault refused := by
    rw [readAuthentication] at refused
    split at refused
    · rename_i other
      cases refused
      exact ⟨other, rfl⟩
    · split at refused <;> cases refused

/-- A bind is read off an operation exactly if the operation holds it. -/
theorem ofPacket_eq_ok_iff {operation : Packet} {request : BindRequest} :
    ofPacket operation = .ok request ↔ IsIn operation request := by
  simp only [ofPacket, Steps.bind_eq_ok_iff, Request.require_eq_ok_iff,
    Request.integer_eq_ok_iff, Request.text_eq_ok_iff, readAuthentication_eq_ok_iff]
  constructor
  · intro h
    obtain ⟨_, hversion, _, version, _, hname, _, name, _, hchoice, _, choice, hrequest⟩ := h
    cases hrequest
    exact ⟨⟨_, hversion, version⟩, ⟨_, hname, name⟩, ⟨_, hchoice, choice⟩⟩
  · intro h
    obtain ⟨⟨_, hversion, version⟩, ⟨_, hname, name⟩, ⟨_, hchoice, choice⟩⟩ := h
    exact ⟨_, hversion, _, version, _, hname, _, name, _, hchoice, _, choice, rfl⟩

/-- A bind is read field by field. -/
theorem ofPacket_readsInOrder : ReadsInOrder rules ofPacket := by
  refine .step Request.isReadBy_integer fun version => .step Request.isReadBy_text fun name => ?_
  exact .step isReadBy_readAuthentication fun authentication => .done _

end BindRequest

end

/-- Requests are accepted by their shape alone, and field by field. A search or a bind is what its
operation holds. An operation that holds none is refused for its first field that is not as it
should be, with an error that names the field; neither the fields behind this one nor packets behind
the last field have an influence. Another filter never makes a difference to anything but the filter
of the search, and its text is that of the packet in its place or empty. -/
theorem requests_readInOrder :
    (∀ operation request,
      SearchRequest.ofPacket operation = .ok request ↔ SearchRequest.IsIn operation request) ∧
    (∀ operation request,
      BindRequest.ofPacket operation = .ok request ↔ BindRequest.IsIn operation request) ∧
    ReadsInOrder SearchRequest.rules SearchRequest.ofPacket ∧
    ReadsInOrder BindRequest.rules BindRequest.ofPacket ∧
    (∀ (fault : Request.Fault) (field : Request.Field), fault.field? = some field →
      (Error.request fault).kind = .decode ∧
      ∃ before after : String, fault.message = before ++ (field.label ++ after)) ∧
    (∀ operation other old new : Packet,
      (∀ place, place ≠ 6 → other.child? place = operation.child? place) →
      operation.child? 6 = some old → other.child? 6 = some new →
      SearchRequest.ofPacket other =
        (fun request => { request with filter := (Filter.ofPacket new).toOption }) <$>
          SearchRequest.ofPacket operation) ∧
    ∀ (operation packet : Packet) (request : SearchRequest),
      SearchRequest.ofPacket operation = .ok request → operation.child? 6 = some packet →
      request.filterText = (Filter.describe packet).toOption.getD "" :=
  ⟨fun _ _ => SearchRequest.ofPacket_eq_ok_iff, fun _ _ => BindRequest.ofPacket_eq_ok_iff,
    SearchRequest.ofPacket_readsInOrder, BindRequest.ofPacket_readsInOrder,
    fun _ _ about => ⟨rfl, Request.Fault.exists_message_eq about⟩,
    fun _ _ _ _ same before after => SearchRequest.ofPacket_of_other_filter same before after,
    fun _ _ _ accepted found => SearchRequest.filterText_eq accepted found⟩

/-- A bind whose name is a number and that does not authenticate is refused for its name. -/
example :
    let three : Packet := .primitive .universal 2 [3] ""
    BindRequest.ofPacket (.constructed .application 0 [three, three] "") =
      .error (.unexpectedIdentifier .name .universal false 2 4) := by
  decide

end DirectoryService
