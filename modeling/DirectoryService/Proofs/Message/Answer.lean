import DirectoryService.Message.Result
import DirectoryService.Proofs.Ber.Integer

/-!
# Answers as packets

An answer is a sequence of the number of the message that it answers and of one operation. The
operation that ends a bind or a search holds the number of a result code and two empty texts. This
is said here packet by packet, so a packet is at most one of them; and it is what is written.
-/

namespace DirectoryService

/-- Packets that stand low enough do not make the packet that holds them too high. -/
theorem Ber.Packet.depthAll_le {packets : List Packet} {levels : Nat}
    (low : ∀ packet ∈ packets, packet.depth < levels) : depthAll packets ≤ levels := by
  induction packets with
  | nil => exact Nat.zero_le _
  | cons packet packets ih =>
    rw [List.forall_mem_cons] at low
    exact Nat.max_le.2 ⟨low.1, ih low.2⟩

/-- Two packets that stand low enough do not make the packet that holds them too high. -/
theorem Ber.Packet.depthAll_pair_le {first second : Packet} {levels : Nat}
    (low : first.depth < levels) (lowSecond : second.depth < levels) :
    depthAll [first, second] ≤ levels :=
  depthAll_le (List.forall_mem_cons.2 ⟨low, List.forall_mem_singleton.2 lowSecond⟩)

namespace ResultCode

/-- The number that stands for a result code. -/
inductive IsNumbered : ResultCode → Int → Prop where
  /-- Success is zero. -/
  | success : IsNumbered .success 0
  /-- An error of the protocol is 2. -/
  | protocolError : IsNumbered .protocolError 2
  /-- A missing entry is 32. -/
  | noSuchObject : IsNumbered .noSuchObject 32
  /-- A wrong user or password is 49. -/
  | invalidCredentials : IsNumbered .invalidCredentials 49
  /-- Any other failure is 80. -/
  | other : IsNumbered .other 80

/-- A result code is written as the number that stands for it. -/
theorem isNumbered_iff {code : ResultCode} {number : Int} :
    code.IsNumbered number ↔ number = code.number := by
  constructor
  · intro numbered
    cases numbered <;> rfl
  · rintro rfl
    cases code with
    | success => exact .success
    | protocolError => exact .protocolError
    | noSuchObject => exact .noSuchObject
    | invalidCredentials => exact .invalidCredentials
    | other => exact .other

/-- A number stands for at most one result code. -/
theorem IsNumbered.code_eq {first second : ResultCode} {number : Int}
    (numbered : first.IsNumbered number) (same : second.IsNumbered number) : first = second := by
  cases numbered <;> cases same <;> rfl

end ResultCode

namespace Message

/-- A message answers the message of a number with an operation: it is a sequence of the number, as
an integer, and of the operation. -/
def IsAnswer (messageId : Int) (operation message : Ber.Packet) : Prop :=
  ∃ octets, Ber.Integer.IsShortest messageId octets ∧
    message = .constructed .universal 16 [.primitive .universal 2 octets "MessageID", operation]
      "LDAP Response"

/-- A message answers the message of a number with a result: under a tag number of the application
the operation holds the number of the result code, as an enumerated value, and two empty texts. -/
def IsResult (messageId : Int) (tag : UInt32) (code : ResultCode) (description : String)
    (message : Ber.Packet) : Prop :=
  ∃ number octets, code.IsNumbered number ∧ Ber.Integer.IsShortest number octets ∧
    IsAnswer messageId (.constructed .application tag
      [.primitive .universal 10 octets "resultCode", .primitive .universal 4 [] "matchedDN",
        .primitive .universal 4 [] "diagnosticMessage"] description) message

/-- A message carries a result code under a tag number of operations. -/
def Carries (tag : UInt32) (code : ResultCode) (message : Ber.Packet) : Prop :=
  ∃ messageId description, IsResult messageId tag code description message

/-- The answer to a bind that did not succeed. -/
def Refuses (message : Ber.Packet) : Prop :=
  ∃ messageId code, code ≠ .success ∧ IsResult messageId 1 code "Bind Response" message

variable {messageId otherId : Int} {operation other message : Ber.Packet} {tag otherTag : UInt32}
  {code otherCode : ResultCode} {description text : String}

/-- Answers are written as such sequences. -/
theorem isAnswer_iff :
    IsAnswer messageId operation message ↔ message = envelope messageId operation := by
  simp only [IsAnswer, Ber.Integer.isShortest_iff, exists_eq_left]
  rfl

/-- Results are written as such operations. -/
theorem isResult_iff : IsResult messageId tag code description message ↔
    message = envelope messageId (result tag code description) := by
  simp only [IsResult, ResultCode.isNumbered_iff, Ber.Integer.isShortest_iff, isAnswer_iff,
    exists_and_left, exists_eq_left]
  rfl

/-- A bind is answered with a result under the tag number 1. -/
theorem isResult_bindResponse_iff : IsResult messageId 1 code "Bind Response" message ↔
    message = bindResponse messageId code := isResult_iff

/-- A search ends with a result under the tag number 5. -/
theorem isResult_searchDone_iff : IsResult messageId 5 code "Search Result Done" message ↔
    message = searchDone messageId code := isResult_iff

/-- A message is an answer with at most one operation. -/
theorem IsAnswer.operation_eq (answer : IsAnswer messageId operation message)
    (same : IsAnswer otherId other message) : operation = other := by
  obtain ⟨octets, _, rfl⟩ := answer
  obtain ⟨others, _, h⟩ := same
  injection h with _ _ children _
  injection children with _ operations
  injection operations

/-- A message is a result under at most one tag number and with at most one result code. -/
theorem IsResult.carries_iff (result : IsResult messageId otherTag otherCode description message) :
    Carries tag code message ↔ otherTag = tag ∧ otherCode = code := by
  constructor
  · obtain ⟨number, octets, numbered, shortest, answer⟩ := result
    rintro ⟨otherId, text, found, others, stands, short, same⟩
    have h := answer.operation_eq same
    injection h with _ tags children _
    injection children with codes _
    injection codes with _ _ values _
    -- The octets stand for one number only, and this for one result code only.
    have hnumber : number = found := by
      rw [← shortest.twosComplement_eq, ← short.twosComplement_eq, values]
    exact ⟨tags, numbered.code_eq (hnumber ▸ stands)⟩
  · rintro ⟨rfl, rfl⟩
    exact ⟨messageId, description, result⟩

/-- An answer with another operation carries no result under a tag number. -/
theorem IsAnswer.not_carries (answer : IsAnswer messageId operation message)
    (apart : operation.tag ≠ tag) : ¬ Carries tag code message := by
  rintro ⟨otherId, text, number, octets, _, _, same⟩
  rw [answer.operation_eq same] at apart
  exact apart rfl

/-- What refuses a bind carries the result code of its refusal. -/
theorem Refuses.exists_carries (refuses : Refuses message) :
    ∃ code, code ≠ .success ∧ Carries 1 code message := by
  obtain ⟨messageId, code, unsuccessful, result⟩ := refuses
  exact ⟨code, unsuccessful, messageId, _, result⟩

/-- A result that is a success refuses nothing, and neither does one under another tag number than
that of binds. -/
theorem IsResult.not_refuses (result : IsResult messageId tag code description message)
    (harmless : tag = 1 → code = .success) : ¬ Refuses message := by
  intro refuses
  obtain ⟨refusal, unsuccessful, carries⟩ := refuses.exists_carries
  obtain ⟨rfl, rfl⟩ := result.carries_iff.1 carries
  exact unsuccessful (harmless rfl)

/-- A result takes two levels. -/
theorem IsResult.depth_eq (result : IsResult messageId tag code description message) :
    message.depth = 2 := by
  obtain ⟨number, octets, _, _, others, _, rfl⟩ := result
  rfl

end Message

end DirectoryService
