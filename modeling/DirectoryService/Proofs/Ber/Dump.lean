import DirectoryService.Ber.Dump
import DirectoryService.Ber.Value
import DirectoryService.Proofs.Text.Decimal
import DirectoryService.Proofs.Text.Split
import Mathlib.Data.List.Forall2

/-!
# Dumps line by line

A dump has one line for each packet of a tree, in the order in which the packets are written. What a
line starts with says where the packet stands and what it is; only behind that stands the value, and
no octets of a value are shown with a control character. So a value changes what a line ends with and
nothing else.
-/

namespace DirectoryService

namespace Ber.Packet

/-- A digit of a number in a base of up to sixteen is no control character. -/
theorem isControl_digitChar : ∀ digit < 16, isControl (Nat.digitChar digit) = false := by decide

/-- A hexadecimal digit is no control character. -/
theorem isControl_hexDigit : ∀ value < 16, isControl (Ascii.hexDigit value) = false := by decide

/-- No control character is in the hexadecimal digits of a number. -/
theorem isControl_of_mem_hexDigits {value : Nat} {c : Char} (member : c ∈ Quoted.hexDigits value) :
    isControl c = false := by
  rw [Quoted.hexDigits] at member
  induction value using Nat.base_induction 16 (by decide) with
  | single value small =>
    rw [Nat.toDigits_of_lt_base small, List.mem_singleton] at member
    rw [member]
    exact isControl_digitChar value small
  | digit value last small positive ih =>
    rw [← Nat.toDigits_append_toDigits (by decide) positive small, List.mem_append] at member
    rcases member with front | final
    · exact ih front
    · rw [Nat.toDigits_of_lt_base small, List.mem_singleton] at final
      rw [final]
      exact isControl_digitChar last small

/-- No control character is in the written form of a character that is none. -/
theorem isControl_of_mem_escape {c other : Char} (plain : isControl c = false)
    (member : other ∈ Quoted.escape c) : isControl other = false := by
  have hpair {second : Char} (hsecond : isControl second = false)
      (inside : other ∈ ['\\', second]) : isControl other = false := by
    simp only [List.mem_cons, List.not_mem_nil, or_false] at inside
    rcases inside with rfl | rfl
    · rfl
    · exact hsecond
  unfold Quoted.escape at member
  repeat' split at member
  all_goals try exact hpair rfl member
  · simp only [List.cons_append, List.nil_append, List.mem_cons, List.mem_append, List.not_mem_nil,
      or_false] at member
    rcases member with rfl | rfl | rfl | digit | rfl
    · rfl
    · rfl
    · rfl
    · exact isControl_of_mem_hexDigits digit
    · rfl
  · rw [List.mem_singleton.1 member]
    exact plain

/-- No octets are shown with a control character, whether they are text or not. -/
theorem isControl_of_mem_shownValue {value : List UInt8} {c : Char} (member : c ∈ shownValue value) :
    isControl c = false := by
  have hdigits (inside : c ∈ "0x".toList ++ value.flatMap Ascii.hexPair) : isControl c = false := by
    rcases List.mem_append.1 inside with mark | digits
    · have hmark : c = '0' ∨ c = 'x' := by simpa using mark
      rcases hmark with rfl | rfl
      · decide
      · decide
    · obtain ⟨octet, -, hoctet⟩ := List.mem_flatMap.1 digits
      have hsmall := octet.toNat_lt
      simp only [Ascii.hexPair, List.mem_cons, List.not_mem_nil, or_false] at hoctet
      rcases hoctet with rfl | rfl
      · exact isControl_hexDigit _ (by omega)
      · exact isControl_hexDigit _ (by omega)
  rw [shownValue] at member
  split at member
  · rename_i text _
    split at member
    · exact hdigits member
    · rename_i clean
      simp only [Quoted.quoteChars, List.cons_append, List.mem_cons, List.mem_append,
        List.not_mem_nil, or_false] at member
      rcases member with rfl | inside | rfl
      · rfl
      · obtain ⟨original, within, hescape⟩ := List.mem_flatMap.1 inside
        refine isControl_of_mem_escape ?_ hescape
        rw [Bool.not_eq_true, List.any_eq_false] at clean
        exact (Bool.not_eq_true _).mp (clean original within)
      · rfl
  · exact hdigits member

mutual

/-- The packets of a tree that stands `depth` levels deep, each with the number of levels above it. A
packet stands before what it holds. -/
def nodesAt (depth : Nat) : Packet → List (Nat × Packet)
  | .primitive tagClass tag value description =>
    [(depth, .primitive tagClass tag value description)]
  | .constructed tagClass tag children description =>
    (depth, .constructed tagClass tag children description) :: nodesAtAll (depth + 1) children

/-- The packets of trees that stand `depth` levels deep, each with the number of levels above it. -/
def nodesAtAll (depth : Nat) : List Packet → List (Nat × Packet)
  | [] => []
  | packet :: rest => nodesAt depth packet ++ nodesAtAll depth rest

end

/-- The packets of a tree, each with the number of levels above it. -/
def nodes (packet : Packet) : List (Nat × Packet) := nodesAt 0 packet

/-- What the line of a packet says before the value. -/
def heading (depth : Nat) (packet : Packet) : List Char :=
  List.replicate (2 * depth) ' ' ++ shownIdentifier packet.tagClass
    (if packet.isConstructed then "cons" else "prim") packet.description packet.tag

/-- What the line of a packet says of the value, if there is one. -/
def shownContents : Packet → List Char
  | .primitive _ _ value _ => ' ' :: shownValue value
  | .constructed .. => []

mutual

/-- The lines are those of the packets of the tree, in order. -/
theorem dumpLines_eq_map : ∀ (depth : Nat) (packet : Packet), dumpLines depth packet =
    (nodesAt depth packet).map fun node => heading node.1 node.2 ++ shownContents node.2
  | depth, .primitive tagClass tag value description => rfl
  | depth, .constructed tagClass tag children description => by
    rw [dumpLines, nodesAt, List.map_cons, dumpLinesAll_eq_map (depth + 1) children, shownContents,
      List.append_nil]
    rfl

/-- The lines of packets are those of the packets of their trees, in order. -/
theorem dumpLinesAll_eq_map : ∀ (depth : Nat) (packets : List Packet), dumpLinesAll depth packets =
    (nodesAtAll depth packets).map fun node => heading node.1 node.2 ++ shownContents node.2
  | _, [] => rfl
  | depth, packet :: rest => by
    rw [dumpLinesAll, nodesAtAll, List.map_append, dumpLines_eq_map depth packet,
      dumpLinesAll_eq_map depth rest]

end

/-- A line feed in a heading comes from the description. -/
theorem not_mem_heading_iff {depth : Nat} {packet : Packet} :
    '\n' ∉ heading depth packet ↔ '\n' ∉ packet.description.toList := by
  have hspaces : '\n' ∉ List.replicate (2 * depth) ' ' := by
    intro member
    exact absurd (List.eq_of_mem_replicate member) (by decide)
  have hclass : '\n' ∉ packet.tagClass.name.toList := by
    cases packet.tagClass <;> decide
  have hform : '\n' ∉
      ("(" ++ (if packet.isConstructed then "cons" else "prim") ++ ") ").toList := by
    cases packet.isConstructed <;> decide
  have hsign : '\n' ∉ " tag=".toList := by decide
  have hnumber : '\n' ∉ Nat.toDigits 10 packet.tag.toNat := by
    intro member
    have hdigit := Decimal.isDigit_of_mem_toDigits _ _ member
    cases hdigit
  simp only [heading, shownIdentifier, List.mem_append, hspaces, hclass, hform, hsign, hnumber,
    false_or, or_false]

/-- The headings of the lines of a dump. -/
def outline (packet : Packet) : List (List Char) :=
  packet.nodes.map fun node => heading node.1 node.2

mutual

/-- The packet with every value removed. -/
def withoutValues : Packet → Packet
  | .primitive tagClass tag _ description => .primitive tagClass tag [] description
  | .constructed tagClass tag children description =>
    .constructed tagClass tag (withoutValuesAll children) description

/-- Packets with every value removed. -/
def withoutValuesAll : List Packet → List Packet
  | [] => []
  | packet :: rest => withoutValues packet :: withoutValuesAll rest

end

mutual

/-- The headings say nothing of values. -/
theorem headings_withoutValues : ∀ (depth : Nat) (packet : Packet),
    ((nodesAt depth packet.withoutValues).map fun node => heading node.1 node.2) =
      (nodesAt depth packet).map fun node => heading node.1 node.2
  | depth, .primitive tagClass tag value description => rfl
  | depth, .constructed tagClass tag children description => by
    rw [withoutValues, nodesAt, nodesAt, List.map_cons, List.map_cons,
      headings_withoutValuesAll (depth + 1) children]
    rfl

/-- The headings of packets say nothing of values. -/
theorem headings_withoutValuesAll : ∀ (depth : Nat) (packets : List Packet),
    ((nodesAtAll depth (withoutValuesAll packets)).map fun node => heading node.1 node.2) =
      (nodesAtAll depth packets).map fun node => heading node.1 node.2
  | _, [] => rfl
  | depth, packet :: rest => by
    rw [withoutValuesAll, nodesAtAll, nodesAtAll, List.map_append, List.map_append,
      headings_withoutValues depth packet, headings_withoutValuesAll depth rest]

end

/-- Packets that differ in their values only have the same outline. -/
theorem outline_eq_of_withoutValues {packet other : Packet}
    (same : other.withoutValues = packet.withoutValues) : other.outline = packet.outline := by
  rw [outline, outline, nodes, nodes, ← headings_withoutValues 0 other, same,
    headings_withoutValues 0 packet]

/-- Cut at its line feeds, a text has one line for each heading, in order, and nothing behind the last
line feed. Each line starts with its heading. -/
def HasLines (text : List Char) (headings : List (List Char)) : Prop :=
  ∃ lines, text.splitOn '\n' = lines ++ [[]] ∧ List.Forall₂ (· <+: ·) headings lines

/-- A dump has the lines of its outline if no heading holds a line feed. -/
theorem hasLines_outline {packet : Packet} (clean : ∀ head ∈ packet.outline, '\n' ∉ head) :
    HasLines packet.dump.toList packet.outline := by
  have hline : ∀ node ∈ packet.nodes, '\n' ∉ heading node.1 node.2 ++ shownContents node.2 := by
    intro node member
    rw [List.mem_append, not_or]
    refine ⟨clean _ (List.mem_map_of_mem member), fun inside => ?_⟩
    cases hnode : node.2 with
    | primitive tagClass tag value description =>
      rw [hnode, shownContents, List.mem_cons] at inside
      rcases inside with space | shown
      · exact absurd space (by decide)
      · exact absurd (isControl_of_mem_shownValue shown) (by decide)
    | constructed tagClass tag children description =>
      rw [hnode] at inside
      cases inside
  refine ⟨packet.nodes.map fun node => heading node.1 node.2 ++ shownContents node.2, ?_, ?_⟩
  · have hdump : packet.dump.toList = packet.nodes.flatMap
        (fun node => heading node.1 node.2 ++ shownContents node.2 ++ ['\n']) ++ [] := by
      rw [dump, String.toList_ofList, dumpChars, dumpLines_eq_map, List.flatMap_map,
        List.append_nil]
      rfl
    rw [hdump, splitOn_flatMap_append hline List.not_mem_nil]
  · rw [outline, List.forall₂_map_left_iff, List.forall₂_map_right_iff, List.forall₂_same]
    exact fun node _ => List.prefix_append _ _

/-- A text whose lines start with some headings has lines that start with anything that the headings
start with. -/
theorem HasLines.of_headings {α : Type} {text : List Char} {items : List α}
    {long short : α → List Char} (lines : HasLines text (items.map long))
    (starts : ∀ item, short item <+: long item) : HasLines text (items.map short) := by
  obtain ⟨written, hsplit, heads⟩ := lines
  refine ⟨written, hsplit, ?_⟩
  rw [List.forall₂_map_left_iff] at heads ⊢
  exact heads.imp fun item line front => (starts item).trans front

/-- If no description holds a line feed, a dump has exactly one line for each packet of the tree, in
order. The line starts with two spaces for each level above the packet and the name of its class.
Whatever octets the packets hold, the lines are as many and start in the same way, up to the tag
number of each packet. -/
theorem dump_hasLines {packet : Packet}
    (described : ∀ node ∈ packet.nodes, '\n' ∉ node.2.description.toList) :
    HasLines packet.dump.toList (packet.nodes.map fun node =>
      List.replicate (2 * node.1) ' ' ++ node.2.tagClass.name.toList) ∧
    ∀ other : Packet, other.withoutValues = packet.withoutValues →
      HasLines other.dump.toList packet.outline := by
  have clean : ∀ head ∈ packet.outline, '\n' ∉ head := by
    intro head member
    obtain ⟨node, within, rfl⟩ := List.mem_map.1 member
    exact not_mem_heading_iff.2 (described node within)
  constructor
  · refine (hasLines_outline clean).of_headings fun node => ?_
    rw [heading, shownIdentifier, List.append_assoc, List.append_assoc, List.append_assoc,
      ← List.append_assoc]
    exact List.prefix_append _ _
  · intro other same
    have houtline := outline_eq_of_withoutValues same
    rw [← houtline] at clean ⊢
    exact hasLines_outline clean

/-- A text that goes on with what looks like a line, and octets that are no text, add no line to the
five lines of a dump. -/
theorem dump_hasLines_five :
    let message (name password : List UInt8) : Packet :=
      .constructed .universal sequenceTag [.integer 7 "id", .constructed .application 0
        [.octets name "name", .primitive .context 0 password "simple"] "bind"] "message"
    let packet := message [0x61, 0x0A, 0x20, 0x20, 0x43] [0xFF, 0x0A]
    (∀ node ∈ packet.nodes, '\n' ∉ node.2.description.toList) ∧
      HasLines packet.dump.toList ["Universal".toList, "  Universal".toList,
        "  Application".toList, "    Universal".toList, "    Context".toList] ∧
      HasLines (message [] []).dump.toList packet.outline := by
  intro message packet
  have described : ∀ node ∈ packet.nodes, '\n' ∉ node.2.description.toList := by decide
  have lines := dump_hasLines described
  exact ⟨described, lines.1, lines.2 _ rfl⟩

end Ber.Packet

end DirectoryService
