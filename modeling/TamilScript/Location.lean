import TamilScript.Source

/-! Places in a source and the excerpt that shows one. A location may lie beyond the end of its
source. Lines count from one and offsets from zero, both in units: a vowel sign has an offset of
its own although it has no column of its own on a screen. -/
namespace TamilScript

structure Location where
  source : Source
  position : Nat
  deriving DecidableEq

/-- A line number, from one, and the number of units before the place on that line. -/
structure Place where
  line : Nat
  offset : Nat
  deriving DecidableEq, Repr

def Place.text (place : Place) : String :=
  "line " ++ toString place.line ++ ", offset " ++ toString place.offset

/-- A line by its number, from one, and the position of its first unit. -/
structure Line where
  number : Nat
  start : Nat
  deriving DecidableEq, Repr

namespace Line

def first : Line := ⟨1,0⟩

/-- The line of what comes after the unit, which stands on this line at the position. -/
def past (line : Line) (unit : Char) (position : Nat) : Line :=
  if endsLine unit then ⟨line.number + 1,position + 1⟩ else line

/-- The line that the end of the units is on. -/
def after (units : List Char) : Line :=
  units.zipIdx.foldl (fun line (unit,position) => line.past unit position) first

end Line

namespace Location

def line (location : Location) : Line :=
  Line.after (location.source.units.toList.take location.position)

/-- A position beyond the end is on the last line, at an offset that counts the missing units. -/
def place (location : Location) : Place :=
  ⟨location.line.number,location.position - location.line.start⟩

def text (location : Location) : String := location.place.text

def remaining (location : Location) : List Char := location.source.suffix location.position

def reach : Nat := 2

/-- What stands before line `number` in an excerpt; the line of the location is marked. -/
def margin (marked : Bool) (number : Nat) : String :=
  (if marked then "  > " else "    ") ++ toString number ++ " | "

def pointer (column : Nat) : String := String.ofList (List.replicate column ' ') ++ "^--- here"

/-- Lines of the source around the location, each after its margin. The line of the location is
followed by a pointer below the unit at the location, in units of the printed line. -/
def excerpt (location : Location) : List String :=
  let place := location.place
  (location.source.lines.zipIdx 1).flatMap fun (line,number) =>
    if number + reach < place.line ∨ place.line + reach < number then []
    else if number = place.line then
      [margin true number ++ String.ofList line,
        pointer ((margin true number).length + place.offset)]
    else [margin false number ++ String.ofList line]

end Location

end TamilScript
