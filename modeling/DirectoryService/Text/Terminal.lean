/-!
# Text without terminal controls

A text may hold characters that a terminal obeys instead of showing them, alone or in sequences.
Where there is no terminal only those are kept that one would show, blanks and line breaks among
them. After a blank inside a sequence the text is taken as it stands up to the next control
character, behind which the sequence goes on. A text for a device may have a header in front of it,
and nothing in the header ends the text.
-/

namespace DirectoryService.Terminal

/-- What a terminal is in the middle of. -/
inductive Sequence where
  /-- Nothing. -/
  | none
  /-- A sequence of which only the escape character is known. -/
  | escape
  /-- An escape sequence with intermediate characters. -/
  | intermediate
  /-- A control sequence, which ends with a letter or a sign like one. -/
  | control
  /-- A command to the system, which ends with a bell. -/
  | command
  /-- A text for a device of which nothing is known. -/
  | deviceStart
  /-- The parameters in front of a text for a device. -/
  | deviceParameters
  /-- The signs between the parameters and the text for a device. -/
  | deviceSigns
  /-- A text for a device, which ends with a terminator. -/
  | device
deriving DecidableEq

/-- Whether a control character is a blank or a line break. -/
def isBlankControl (c : Char) : Bool := c = '\t' || c = '\n' || c = '\x0c' || c = '\r'

/-- Whether a character is shown outside sequences. -/
def isShown (c : Char) : Bool := isBlankControl c || (' ' ≤ c && c ≠ '\x7f')

/-- Whether a character has the octet in it that ends a text for a device. -/
def endsDevice (c : Char) : Bool := (String.utf8EncodeChar c).contains 0x9C

/-- What a terminal is in the middle of behind an escape character and one more. -/
def Sequence.afterEscape (c : Char) : Sequence :=
  if c = '[' then .control
  else if c = ']' then .command
  else if c = 'P' then .deviceStart
  else if c = 'X' ∨ c = '^' ∨ c = '_' then .device
  else if ' ' ≤ c ∧ c ≤ '/' then .intermediate
  else if '0' ≤ c ∧ c ≤ '~' then .none
  else .escape

/-- What a terminal is in the middle of behind the first character for a device. -/
def Sequence.afterDeviceStart (c : Char) : Sequence :=
  if ' ' ≤ c ∧ c ≤ '/' then .deviceSigns
  else if '0' ≤ c ∧ c ≤ '?' then .deviceParameters
  else if '@' ≤ c ∧ c ≤ '~' then .device
  else .deviceStart

/-- What a terminal is in the middle of behind a character among parameters for a device. -/
def Sequence.afterDeviceParameter (c : Char) : Sequence :=
  if ' ' ≤ c ∧ c ≤ '/' then .deviceSigns
  else if '<' ≤ c ∧ c ≤ '~' then .device
  else .deviceParameters

/-- What a terminal is in the middle of behind a character. -/
def Sequence.next (state : Sequence) (c : Char) : Sequence :=
  if c = '\x18' ∨ c = '\x1a' then .none
  else if c = '\x1b' then .escape
  else
    match state with
    | .none => .none
    | .escape => afterEscape c
    | .intermediate => if '0' ≤ c ∧ c ≤ '~' then .none else .intermediate
    | .control => if '@' ≤ c ∧ c ≤ '~' then .none else .control
    | .command => if c = '\x07' then .none else .command
    | .deviceStart => afterDeviceStart c
    | .deviceParameters => afterDeviceParameter c
    | .deviceSigns => if '0' ≤ c ∧ c ≤ '~' then .device else .deviceSigns
    | .device => if endsDevice c then .none else .device

/-- Whether a character is shown in the middle of something. -/
def Sequence.shows (state : Sequence) (c : Char) : Bool :=
  match state with
  | .none => isShown c
  | .escape => isBlankControl c
  | .intermediate => isBlankControl c
  | .control => isBlankControl c
  | _ => false

/-- The characters that are shown; `plain` says that the text is taken as it stands. -/
def shownChars (state : Sequence) (plain : Bool) : List Char → List Char
  | [] => []
  | c :: rest =>
    if plain && isShown c then
      c :: shownChars (if '\x80' ≤ c then .none else state) true rest
    else if !plain && state.shows c then c :: shownChars (state.next c) true rest
    else shownChars (state.next c) false rest

theorem shownChars_eq_self {chars : List Char} (h : ∀ c ∈ chars, isShown c = true) (plain : Bool) :
    shownChars .none plain chars = chars := by
  induction chars generalizing plain with
  | nil => rfl
  | cons c rest ih =>
    have head := h c (by simp)
    have tail := ih (fun d hd => h d (by simp [hd])) true
    have next : Sequence.none.next c = .none := by
      unfold Sequence.next
      split
      · rfl
      · split
        · rename_i escape
          rw [escape] at head
          exact absurd head (by decide)
        · rfl
    cases plain <;> simp [shownChars, head, Sequence.shows, next, tail]

/-- The part of a text that is shown. -/
def shown (text : String) : String := String.ofList (shownChars .none false text.toList)

/-- A text without control characters is shown as it is. -/
theorem shown_eq_self {text : String} (h : ∀ c ∈ text.toList, isShown c = true) :
    shown text = text := by
  rw [shown, shownChars_eq_self h, String.ofList_toList]

end DirectoryService.Terminal
