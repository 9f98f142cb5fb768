import TamilScript.Cursor

/-! Stretches of a source. A span may be written down with any two ends; its text exists only
where the ends are in order and inside the source. -/
namespace TamilScript

structure Span where
  source : Source
  start : Nat
  stop : Nat
  deriving DecidableEq

namespace Span

def between (first last : Cursor) : Span := ⟨first.source,first.position,last.position⟩

def InRange (span : Span) : Prop := span.start ≤ span.stop ∧ span.stop ≤ span.source.size

instance (span : Span) : Decidable span.InRange := inferInstanceAs (Decidable (_ ∧ _))

def isEmpty (span : Span) : Bool := span.start = span.stop

def length? (span : Span) : Option Nat :=
  if span.start ≤ span.stop then some (span.stop - span.start) else none

/-- The units of the span, cut to what the source has. -/
def units (span : Span) : List Char := span.source.between span.start span.stop

def text (span : Span) : String := String.ofList span.units

def slice? (span : Span) : Option (List Char) := if span.InRange then some span.units else none

def text? (span : Span) : Option String := span.slice?.map String.ofList

theorem text?_eq_some {span : Span} (inRange : span.InRange) : span.text? = some span.text := by
  simp [text?,slice?,inRange,text]

end Span

end TamilScript
