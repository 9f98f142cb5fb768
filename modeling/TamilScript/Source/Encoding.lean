import Mathlib.Algebra.Group.Nat.Defs

/-! UTF-8, written and read back one unit at a time. The number of a unit is cut into groups of six
bits, one for each byte that follows a first byte, whose mark tells how many of them there are. Bytes
that spell no units come to a place where no unit can be read, which shows one of five faults. -/
namespace TamilScript.Encoding

/-- How a number is spelled: how many bytes follow the first one, the mark of the first byte, the room
above the mark for the highest bits, and the least number that fits no shorter shape. -/
structure Shape where
  more : Nat
  mark : Nat
  room : Nat
  least : Nat
  deriving DecidableEq, Repr

namespace Shape

def one : Shape := ⟨0,0x00,0x80,0x00⟩

def two : Shape := ⟨1,0xC0,0x20,0x80⟩

def three : Shape := ⟨2,0xE0,0x10,0x800⟩

def four : Shape := ⟨3,0xF0,0x08,0x10000⟩

def all : List Shape := [one, two, three, four]

/-- The shortest shape that the number fits. -/
def ofNumber (number : Nat) : Shape :=
  if number < two.least then one
  else if number < three.least then two
  else if number < four.least then three
  else four

/-- The shape that a first byte announces by its mark. -/
def ofFirst? (first : UInt8) : Option Shape :=
  all.find? fun shape => shape.mark ≤ first.toNat ∧ first.toNat < shape.mark + shape.room

end Shape

/-- Bytes for so many groups of six bits, the lowest ones of the number, with the highest first. -/
def following : Nat → Nat → List UInt8
  | 0, _ => []
  | more + 1, number => .ofNat (0x80 + number / 64 ^ more % 64) :: following more number

def Shape.spell (shape : Shape) (number : Nat) : List UInt8 :=
  .ofNat (shape.mark + number / 64 ^ shape.more) :: following shape.more number

def encodeUnit (unit : Char) : List UInt8 := (Shape.ofNumber unit.toNat).spell unit.toNat

def encode (units : List Char) : List UInt8 := units.flatMap encodeUnit

/-- The number that so many following bytes complete, where its higher bits are known already. -/
def complete? : Nat → Nat → List UInt8 → Option Nat
  | 0, number, _ => some number
  | _ + 1, _, [] => none
  | more + 1, number, byte :: rest =>
    if 0x80 ≤ byte.toNat ∧ byte.toNat < 0xC0 then
      complete? more (number * 64 + (byte.toNat - 0x80)) rest
    else none

/-- Why no unit can be read. -/
inductive Fault where
  /-- The first byte belongs behind another one, or into no spelling at all. -/
  | stray
  /-- The bytes that the first one announces are not all there, or one of them does not follow. -/
  | truncated
  /-- A shorter shape would have held the number. -/
  | overlong
  /-- The number is half of a surrogate pair. -/
  | surrogate
  /-- The number is above the last scalar value. -/
  | beyond
  deriving DecidableEq, Repr

/-- What keeps a unit from being read at the front of the bytes. -/
def fault? : List UInt8 → Option Fault
  | [] => none
  | first :: rest =>
    match Shape.ofFirst? first with
    | none => some .stray
    | some shape =>
      match complete? shape.more (first.toNat - shape.mark) rest with
      | none => some .truncated
      | some number =>
        if number < shape.least then some .overlong
        else if 0xD800 ≤ number ∧ number < 0xE000 then some .surrogate
        else if 0x10FFFF < number then some .beyond
        else none

end TamilScript.Encoding
