import TamilScript.Location

/-! Causes of a failed recognition and how they are told. Every cause knows where it arose; an
exhausted choice stands where its last alternative failed. -/
namespace TamilScript

inductive Failure where
  /-- Fewer units were left than the recognizer needed. -/
  | endOfSource (location : Location)
  /-- A unit or a value was there and broke a condition. -/
  | unsatisfied (condition : String) (location : Location)
  /-- No alternative of a choice matched; the failure of the last one is kept. -/
  | exhausted (last : Failure)
  /-- The rule has a name and no conditions yet. -/
  | unimplemented (rule : String) (location : Location)
  deriving DecidableEq

namespace Failure

def location : Failure → Location
  | endOfSource location => location
  | unsatisfied _ location => location
  | exhausted last => last.location
  | unimplemented _ location => location

def position (failure : Failure) : Nat := failure.location.position

def remaining (failure : Failure) : List Char := failure.location.remaining

inductive Kind where
  | endOfSource
  | unsatisfied
  | exhausted
  | unimplemented
  deriving DecidableEq, Repr

def kind : Failure → Kind
  | endOfSource _ => .endOfSource
  | unsatisfied .. => .unsatisfied
  | exhausted _ => .exhausted
  | unimplemented .. => .unimplemented

def cause? : Failure → Option Failure
  | exhausted last => some last
  | _ => none

/-- The failure and the ones it was caused by, outermost first. -/
def chain : Failure → List Failure
  | exhausted last => exhausted last :: last.chain
  | failure => [failure]

/-- The failure of a choice whose last alternative failed with the given failure. A choice that
ends in an exhausted choice is told as one. -/
def exhaust : Failure → Failure
  | exhausted last => exhausted last
  | failure => exhausted failure

def message : Failure → String
  | endOfSource location => "unexpected end of source at " ++ location.text
  | unsatisfied condition location => condition ++ " at " ++ location.text
  | exhausted last => "no alternative matched: " ++ last.message
  | unimplemented rule location => rule ++ " is not implemented (at " ++ location.text ++ ")"

theorem message_endOfSource (location : Location) :
    (endOfSource location).message = "unexpected end of source at " ++ location.text := rfl

theorem message_unsatisfied (condition : String) (location : Location) :
    (unsatisfied condition location).message = condition ++ " at " ++ location.text := rfl

theorem message_exhausted (last : Failure) :
    (exhausted last).message = "no alternative matched: " ++ last.message := rfl

theorem message_unimplemented (rule : String) (location : Location) :
    (unimplemented rule location).message =
      rule ++ " is not implemented (at " ++ location.text ++ ")" := rfl

/-- The message, a blank line and the excerpt, each line ended by a line feed. -/
def report (failure : Failure) : String :=
  failure.message ++ "\n\n" ++ String.join (failure.location.excerpt.map (· ++ "\n"))

@[simp] theorem exhaust_exhaust (failure : Failure) : failure.exhaust.exhaust = failure.exhaust := by
  cases failure <;> rfl

end Failure

end TamilScript
