/-! A text under recognition: a finite array of scalar values, called units. Positions,
offsets and lengths count units everywhere. No unit is normalized, dropped or added. Some units
are blank and separate words, by the White_Space property of the character database; a line ends
at the line feed alone, so a carriage return or a paragraph separator is blank and ends no line. -/
namespace TamilScript

/-- First and last code point of each range of the White_Space property. -/
def blankRanges : List (Nat × Nat) :=
  [(0x0009,0x000D), (0x0020,0x0020), (0x0085,0x0085), (0x00A0,0x00A0), (0x1680,0x1680),
    (0x2000,0x200A), (0x2028,0x2029), (0x202F,0x202F), (0x205F,0x205F), (0x3000,0x3000)]

def isBlank (unit : Char) : Bool :=
  blankRanges.any fun (first,last) => first ≤ unit.toNat && unit.toNat ≤ last

def endsLine (unit : Char) : Bool := unit == '\n'

theorem endsLine_iff {unit : Char} : endsLine unit = true ↔ unit = '\n' := by simp [endsLine]

structure Source where
  units : Array Char
  deriving DecidableEq

namespace Source

def ofString (text : String) : Source := ⟨text.toList.toArray⟩

def size (source : Source) : Nat := source.units.size

def isEmpty (source : Source) : Bool := source.units.isEmpty

def text (source : Source) : String := String.ofList source.units.toList

/-- Units from `position` to the end; none when `position` lies beyond it. -/
def suffix (source : Source) (position : Nat) : List Char := source.units.toList.drop position

def before (source : Source) (position : Nat) : Source := ⟨source.units.take position⟩

/-- Units from `start` up to and without `stop`, cut at the end of the source. -/
def between (source : Source) (start stop : Nat) : List Char :=
  (source.units.extract start stop).toList

@[simp] theorem units_ofString (text : String) : (ofString text).units.toList = text.toList := rfl

@[simp] theorem size_ofString (text : String) : (ofString text).size = text.toList.length := by
  simp [size,ofString]

@[simp] theorem text_ofString (text : String) : (ofString text).text = text := by
  simp [Source.text]

@[simp] theorem ofString_text (source : Source) : ofString source.text = source := by
  simp [Source.text,ofString]

@[simp] theorem length_suffix (source : Source) (position : Nat) :
    (source.suffix position).length = source.size - position := by
  simp [suffix,size]

theorem suffix_eq_cons {source : Source} {position : Nat} (inside : position < source.size) :
    source.suffix position = source.units[position] :: source.suffix (position + 1) :=
  List.drop_eq_getElem_cons inside

@[simp] theorem units_before (source : Source) (position : Nat) :
    (source.before position).units.toList = source.units.toList.take position := by simp [before]

theorem between_eq (source : Source) (start stop : Nat) :
    source.between start stop = (source.suffix start).take (stop - start) := by
  simp [between,suffix,List.extract_eq_take_drop]

end Source

/-- Lines of a list of units: a line feed ends one line and opens the next, so a text that
ends in a line feed has an empty last line and the empty text has one empty line. -/
def lines : List Char → List (List Char)
  | [] => [[]]
  | unit :: rest => if endsLine unit then [] :: lines rest else (lines rest).modifyHead (unit :: ·)

theorem lines_ne_nil (units : List Char) : lines units ≠ [] := by
  induction units with
  | nil => simp [lines]
  | cons unit rest ih =>
    rw [lines]
    split
    · simp
    · cases split : lines rest with
      | nil => exact absurd split ih
      | cons first others => simp

theorem exists_lines_eq (units : List Char) : ∃ first later, lines units = first :: later :=
  List.exists_cons_of_ne_nil (lines_ne_nil units)

def Source.lines (source : Source) : List (List Char) := TamilScript.lines source.units.toList

end TamilScript
