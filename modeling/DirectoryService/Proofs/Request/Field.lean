import DirectoryService.Proofs.Ber.Value
import DirectoryService.Proofs.Steps
import DirectoryService.Request.Field

/-!
# Reading fields in order

A field is read off a packet exactly if the packet holds a value of its type, and a fault that is
found is about the field. A request whose fields are read one after the other is refused for the
first one that is not as it should be: what stands behind it has no influence, and neither has
anything behind the last field.
-/

namespace DirectoryService.Request

variable {α β : Type}

/-- The field that a fault is about. -/
def Fault.field? : Fault → Option Field
  | .missing field => some field
  | .unexpectedIdentifier field .. => some field
  | .unexpectedValue field _ => some field
  | .unexpectedChoice _ => some .authentication
  | .unknownScope _ => some .scope
  | .unknownAliasTreatment _ => some .derefAliases
  | .filter _ => none
  | .reported _ => none

/-- The wording of a fault names the field that it is about. -/
theorem Fault.exists_message_eq {fault : Fault} {field : Field}
    (about : fault.field? = some field) :
    ∃ before after : String, fault.message = before ++ (field.label ++ after) := by
  cases fault with
  | missing found =>
    cases about
    refine ⟨"missing field ", "", ?_⟩
    rw [String.append_empty]
    rfl
  | unexpectedIdentifier found tagClass constructed tag expected =>
    cases about
    unfold message
    simp only [String.append_assoc]
    exact ⟨_, _, rfl⟩
  | unexpectedValue found cause =>
    cases about
    unfold message
    simp only [String.append_assoc]
    exact ⟨_, _, rfl⟩
  | unexpectedChoice found =>
    cases about
    unfold message
    simp only [String.append_assoc]
    exact ⟨_, _, rfl⟩
  | unknownScope number =>
    cases about
    have hwords : "unknown search " ++ Field.scope.label ++ " " = "unknown search scope " := by
      decide
    refine ⟨"unknown search ", " " ++ toString number, ?_⟩
    rw [← String.append_assoc, ← String.append_assoc, hwords]
    rfl
  | unknownAliasTreatment number =>
    cases about
    have hwords : "unknown " ++ Field.derefAliases.label ++ " " = "unknown derefAliases " := by
      decide
    refine ⟨"unknown ", " " ++ toString number, ?_⟩
    rw [← String.append_assoc, ← String.append_assoc, hwords]
    rfl
  | filter cause => cases about
  | reported text => cases about

section

variable {field : Field} {packet : Ber.Packet} {tag : UInt32} {constructed : Bool}

/-- A field passes exactly if it has the identifier of its type. -/
theorem expect_eq_ok_iff : expect packet tag constructed field = .ok () ↔
    packet.hasShape .universal constructed tag = true := by
  rw [expect]
  split
  · rename_i shape
    exact iff_of_true rfl shape
  · rename_i shape
    exact iff_of_false nofun shape

/-- A fault of the identifier is about the field. -/
theorem field?_of_expect {fault : Fault}
    (refused : expect packet tag constructed field = .error fault) :
    fault.field? = some field := by
  rw [expect] at refused
  split at refused
  · cases refused
  · cases refused
    rfl

/-- A field of a primitive type is read exactly if it has the identifier of the type and is read as
a value of it. -/
theorem primitive_eq_ok_iff {read : Ber.Packet → Except Ber.ValueFault α} {value : α} :
    primitive tag read field packet = .ok value ↔
      packet.hasShape .universal false tag = true ∧ read packet = .ok value := by
  rw [primitive, Steps.andThen_eq_ok_iff, expect_eq_ok_iff, Steps.mapError_eq_ok_iff]

/-- A fault of a field of a primitive type is about the field. -/
theorem field?_of_primitive {read : Ber.Packet → Except Ber.ValueFault α} {fault : Fault}
    (refused : primitive tag read field packet = .error fault) : fault.field? = some field := by
  rw [primitive, Steps.bind_eq_error_iff] at refused
  rcases refused with h | h
  · exact field?_of_expect h
  · obtain ⟨_, -, unread⟩ := h
    obtain ⟨cause, -, hfault⟩ := Steps.mapError_eq_error_iff.1 unread
    rw [← hfault]
    rfl

/-- A text is read off a field exactly if the field holds it. -/
theorem text_eq_ok_iff {value : String} :
    text field packet = .ok value ↔ packet.HoldsText value := by
  rw [text, primitive_eq_ok_iff, Ber.Packet.holdsText_iff]

/-- An integer is read off a field exactly if the field holds it. -/
theorem integer_eq_ok_iff {value : Int} :
    integer field packet = .ok value ↔ packet.HoldsNumber Ber.integerTag value := by
  rw [integer, primitive_eq_ok_iff, Ber.Packet.holdsNumber_iff]

/-- The number of an enumerated value is read off a field exactly if the field holds it. -/
theorem enumerated_eq_ok_iff {value : Int} :
    enumerated field packet = .ok value ↔ packet.HoldsNumber Ber.enumeratedTag value := by
  rw [enumerated, primitive_eq_ok_iff, Ber.Packet.holdsNumber_iff]

/-- A truth value is read off a field exactly if the field holds it. -/
theorem boolean_eq_ok_iff {value : Bool} :
    boolean field packet = .ok value ↔ packet.HoldsTruth value := by
  rw [boolean, primitive_eq_ok_iff, Ber.Packet.holdsTruth_iff]

end

/-- A packet holds the number of a value, by a list of numbers and their values. -/
def HoldsOneOf (numbers : List (Int × α)) (packet : Ber.Packet) (value : α) : Prop :=
  ∃ number, packet.HoldsNumber Ber.enumeratedTag number ∧ (number, value) ∈ numbers

/-- A field whose values are told by their numbers. -/
def numbered (field : Field) (value? : Int → Option α) (unknown : Int → Fault)
    (packet : Ber.Packet) : Except Fault α :=
  enumerated field packet >>= fun number =>
    match value? number with
    | some value => .ok value
    | none => .error (unknown number)

section

variable {field : Field} {value? : Int → Option α} {unknown : Int → Fault} {packet : Ber.Packet}

/-- A value is read by its number off a field exactly if the field holds the number. -/
theorem numbered_eq_ok_iff {numbers : List (Int × α)} {value : α}
    (lists : ∀ number value, value? number = some value ↔ (number, value) ∈ numbers) :
    numbered field value? unknown packet = .ok value ↔ HoldsOneOf numbers packet value := by
  rw [numbered, Steps.bind_eq_ok_iff]
  refine exists_congr fun number => and_congr enumerated_eq_ok_iff ?_
  rw [← lists]
  cases value? number with
  | none => exact ⟨nofun, nofun⟩
  | some found => rw [Except.ok.injEq, Option.some.injEq]

/-- A fault of a value that is told by its number is about the field, if the fault of an unknown
number is. -/
theorem field?_of_numbered {fault : Fault} (about : ∀ number, (unknown number).field? = some field)
    (refused : numbered field value? unknown packet = .error fault) :
    fault.field? = some field := by
  rw [numbered, Steps.bind_eq_error_iff] at refused
  rcases refused with h | h
  · exact field?_of_primitive h
  · obtain ⟨number, -, hunknown⟩ := h
    cases hvalue : value? number with
    | none =>
      rw [hvalue] at hunknown
      rw [← Except.error.inj hunknown]
      exact about number
    | some value =>
      rw [hvalue] at hunknown
      cases hunknown

end

/-- A request has a packet at a place, and the packet fits there. -/
def HasField (request : Ber.Packet) (place : Nat) (Fits : Ber.Packet → Prop) : Prop :=
  ∃ packet, request.child? place = some packet ∧ Fits packet

/-- What a request has to hold at the place of a field. -/
structure Rule where
  /-- The place of the field, counted from zero. -/
  place : Nat
  /-- The field. -/
  field : Field
  /-- What the packet at the place has to be. -/
  Fits : Ber.Packet → Prop

/-- A request has a packet that fits at the place of a field. -/
def Rule.IsKept (rule : Rule) (request : Ber.Packet) : Prop :=
  HasField request rule.place rule.Fits

/-- A reader takes the packets that fit, and what it says of the others is about the field. -/
structure Rule.IsReadBy (rule : Rule) (read : Ber.Packet → Except Fault α) : Prop where
  /-- A packet that is taken fits. -/
  fits : ∀ packet value, read packet = .ok value → rule.Fits packet
  /-- A packet that is not taken does not fit, and the fault is about the field. -/
  refuses : ∀ packet fault, read packet = .error fault →
    ¬ rule.Fits packet ∧ fault.field? = some rule.field

/-- A reader that yields exactly the values that packets hold takes the packets that hold one. -/
theorem Rule.IsReadBy.of_iff {place : Nat} {field : Field} {read : Ber.Packet → Except Fault α}
    {Holds : Ber.Packet → α → Prop}
    (accepts : ∀ packet value, read packet = .ok value ↔ Holds packet value)
    (about : ∀ packet fault, read packet = .error fault → fault.field? = some field) :
    (Rule.mk place field fun packet => ∃ value, Holds packet value).IsReadBy read where
  fits packet value taken := ⟨value, (accepts packet value).1 taken⟩
  refuses packet fault refused := by
    refine ⟨fun fits => ?_, about packet fault refused⟩
    obtain ⟨value, holds⟩ := fits
    rw [(accepts packet value).2 holds] at refused
    cases refused

section

variable {place : Nat} {field : Field}

/-- The packets that hold a text are read. -/
theorem isReadBy_text :
    (Rule.mk place field fun packet => ∃ value, packet.HoldsText value).IsReadBy (text field) :=
  .of_iff (fun _ _ => text_eq_ok_iff) fun _ _ => field?_of_primitive

/-- The packets that hold an integer are read. -/
theorem isReadBy_integer :
    (Rule.mk place field fun packet => ∃ value, packet.HoldsNumber Ber.integerTag value).IsReadBy
      (integer field) :=
  .of_iff (fun _ _ => integer_eq_ok_iff) fun _ _ => field?_of_primitive

/-- The packets that hold a truth value are read. -/
theorem isReadBy_boolean :
    (Rule.mk place field fun packet => ∃ value, packet.HoldsTruth value).IsReadBy
      (boolean field) :=
  .of_iff (fun _ _ => boolean_eq_ok_iff) fun _ _ => field?_of_primitive

/-- The packets that hold the number of a value are read. -/
theorem isReadBy_numbered {numbers : List (Int × α)} {value? : Int → Option α}
    {unknown : Int → Fault} (lists : ∀ number value, value? number = some value ↔
      (number, value) ∈ numbers) (about : ∀ number, (unknown number).field? = some field) :
    (Rule.mk place field fun packet => ∃ value, HoldsOneOf numbers packet value).IsReadBy
      (numbered field value? unknown) :=
  .of_iff (fun _ _ => numbered_eq_ok_iff lists) fun _ _ => field?_of_numbered about

end

/-- A reader of requests reads their fields in order. -/
structure ReadsInOrder (rules : List Rule) (decode : Ber.Packet → Except Fault α) : Prop where
  /-- A request that is accepted keeps all rules. -/
  keeps : ∀ request value, decode request = .ok value → ∀ rule ∈ rules, rule.IsKept request
  /-- A request is refused for the first rule that it does not keep. The fault is about the field of
  this rule, and it is the same for every request that has the same packets up to there. -/
  refuses : ∀ request fault, decode request = .error fault →
    ∃ earlier rule later, rules = earlier ++ rule :: later ∧
      (∀ kept ∈ earlier, kept.IsKept request) ∧ ¬ rule.IsKept request ∧
      fault.field? = some rule.field ∧
      ∀ other : Ber.Packet,
        (∀ read ∈ earlier ++ [rule], other.child? read.place = request.child? read.place) →
        decode other = .error fault
  /-- Nothing but the packets at the places of the rules has an influence. -/
  ignores : ∀ request other : Ber.Packet,
    (∀ rule ∈ rules, other.child? rule.place = request.child? rule.place) →
    decode other = decode request

/-- A field is found exactly if it is there. -/
theorem require_eq_ok_iff {request packet : Ber.Packet} {place : Nat} {field : Field} :
    require request place field = .ok packet ↔ request.child? place = some packet := by
  rw [require]
  cases request.child? place with
  | none => exact ⟨nofun, nofun⟩
  | some found => rw [Except.ok.injEq, Option.some.injEq]

/-- A field is missed exactly if it is not there. -/
theorem require_eq_error_iff {request : Ber.Packet} {place : Nat} {field : Field} {fault : Fault} :
    require request place field = .error fault ↔
      request.child? place = none ∧ .missing field = fault := by
  rw [require]
  cases request.child? place with
  | none => rw [Except.error.injEq, and_iff_right rfl]
  | some found => exact ⟨nofun, fun h => nomatch h.1⟩

namespace ReadsInOrder

/-- A reader that reads nothing more accepts everything. -/
theorem done (value : α) : ReadsInOrder [] fun _ => .ok value where
  keeps _ _ _ := List.forall_mem_nil _
  refuses _ _ refused := nomatch refused
  ignores _ _ _ := rfl

variable {rule : Rule} {rules : List Rule} {read : Ber.Packet → Except Fault α}
  {next : α → Ber.Packet → Except Fault β}

/-- A reader that reads one field and then the others reads them in order. -/
theorem step (here : rule.IsReadBy read) (later : ∀ value, ReadsInOrder rules (next value)) :
    ReadsInOrder (rule :: rules) fun request =>
      require request rule.place rule.field >>= fun packet =>
        read packet >>= fun value => next value request where
  keeps := by
    intro request result accepted
    obtain ⟨packet, found, accepted⟩ := Steps.bind_eq_ok_iff.1 accepted
    obtain ⟨value, taken, accepted⟩ := Steps.bind_eq_ok_iff.1 accepted
    have hkept : rule.IsKept request :=
      ⟨packet, require_eq_ok_iff.1 found, here.fits packet value taken⟩
    exact List.forall_mem_cons.2 ⟨hkept, (later value).keeps request result accepted⟩
  refuses := by
    intro request fault refused
    rcases Steps.bind_eq_error_iff.1 refused with missed | h
    · obtain ⟨hchild, hfault⟩ := require_eq_error_iff.1 missed
      have hbroken : ¬ rule.IsKept request := by
        intro kept
        obtain ⟨packet, there, -⟩ := kept
        rw [hchild] at there
        cases there
      refine ⟨[], rule, rules, rfl, List.forall_mem_nil _, hbroken, ?_, fun other same => ?_⟩
      · rw [← hfault]
        rfl
      · have hother := (same rule List.mem_cons_self).trans hchild
        exact Steps.bind_eq_error_iff.2 (.inl (require_eq_error_iff.2 ⟨hother, hfault⟩))
    · obtain ⟨packet, found, refused⟩ := h
      have hchild := require_eq_ok_iff.1 found
      rcases Steps.bind_eq_error_iff.1 refused with untaken | h
      · obtain ⟨unfit, about⟩ := here.refuses packet fault untaken
        have hbroken : ¬ rule.IsKept request := by
          intro kept
          obtain ⟨other, there, fits⟩ := kept
          rw [Option.some.inj (hchild.symm.trans there)] at unfit
          exact unfit fits
        refine ⟨[], rule, rules, rfl, List.forall_mem_nil _, hbroken, about, fun other same => ?_⟩
        have hother := (same rule List.mem_cons_self).trans hchild
        exact Steps.bind_eq_error_iff.2 (.inr ⟨packet, require_eq_ok_iff.2 hother,
          Steps.bind_eq_error_iff.2 (.inl untaken)⟩)
      · obtain ⟨value, taken, refused⟩ := h
        obtain ⟨earlier, broken, behind, hrules, hkept, hbroken, habout, hsame⟩ :=
          (later value).refuses request fault refused
        have hhere : rule.IsKept request := ⟨packet, hchild, here.fits packet value taken⟩
        refine ⟨rule :: earlier, broken, behind, by rw [hrules, List.cons_append],
          List.forall_mem_cons.2 ⟨hhere, hkept⟩, hbroken, habout, fun other same => ?_⟩
        rw [List.cons_append, List.forall_mem_cons] at same
        exact Steps.bind_eq_error_iff.2 (.inr ⟨packet, require_eq_ok_iff.2 (same.1.trans hchild),
          Steps.bind_eq_error_iff.2 (.inr ⟨value, taken, hsame other same.2⟩)⟩)
  ignores := by
    intro request other same
    rw [List.forall_mem_cons] at same
    have hrequire :
        require other rule.place rule.field = require request rule.place rule.field := by
      rw [require, require, same.1]
    have hnext (value : α) : next value other = next value request :=
      (later value).ignores request other same.2
    simp only [hrequire, hnext]

/-- A reader that takes any packet for one field and then reads the others reads them in order. -/
theorem step_of_free {next : Ber.Packet → Ber.Packet → Except Fault β}
    (free : ∀ packet, rule.Fits packet) (later : ∀ packet, ReadsInOrder rules (next packet)) :
    ReadsInOrder (rule :: rules) fun request =>
      require request rule.place rule.field >>= fun packet => next packet request :=
  have here : rule.IsReadBy (Except.ok : Ber.Packet → Except Fault Ber.Packet) :=
    { fits := fun packet _ _ => free packet, refuses := nofun }
  step here later

end ReadsInOrder

end DirectoryService.Request
