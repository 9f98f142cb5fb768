import Mathlib.Control.Monad.Basic
import TamilScript.Proofs.Advance
import TamilScript.Proofs.Checking

/-! No run leaves its source. The cursors at which parts of a run begin are reached from its start by
steps, so each of them is canonical; what the run asks of the units is then in range, on success
and on failure alike, and a run that checks each look comes to the same outcome. -/
namespace TamilScript

theorem Cursor.accesses_inRange_iff {cursor : Cursor} :
    (∀ access ∈ cursor.accesses, access.InRange) ↔ cursor.Canonical := by
  cases cursor with
  | valid => simp [Cursor.accesses,Access.InRange,Canonical]
  | ended => simp [Cursor.accesses,Canonical]

theorem Span.between_inRange {first last : Cursor} (canonical : first.Canonical)
    (reached : first.Reaches last) : (Span.between first last).InRange := by
  have forward := reached.position_le canonical
  have bound := (reached.canonical canonical).position_le
  rw [reached.source_eq] at bound
  exact ⟨forward,bound⟩

namespace Outcome
variable {α : Type} {outcome : Outcome α} {asked : List Access}
  {following : α → Cursor → List Access}

/-- What is asked in two stages, the second only after a match, is in range when both are. -/
theorem inRange_after (first : ∀ access ∈ asked, access.InRange)
    (onward : ∀ value next, outcome = .ok (value,next) →
      ∀ access ∈ following value next, access.InRange) :
    ∀ access ∈ asked ++ outcome.after following, access.InRange := by
  intro access member
  rcases List.mem_append.mp member with here | later
  · exact first access here
  · cases outcome with
    | error => simp [after] at later
    | ok found => exact onward found.1 found.2 rfl access later

end Outcome

namespace Parser
variable {α : Type} {cursor : Cursor}

theorem literalAccesses_inRange {expected : List Char} (canonical : cursor.Canonical) :
    ∀ access ∈ literalAccesses expected cursor, access.InRange := by
  induction expected generalizing cursor with
  | nil => simp [literalAccesses]
  | cons unit rest ih =>
    rw [literalAccesses]
    apply Outcome.inRange_after (Cursor.accesses_inRange_iff.mpr canonical)
    intro found next read
    split
    · exact ih ((read_advances read).canonical canonical)
    · simp

theorem attempts_inRange {parser : Parser α} (advances : parser.Advances)
    {asked : Cursor → List Access} (canonical : cursor.Canonical)
    (bounded : ∀ tried : Cursor, tried.Canonical → ∀ access ∈ asked tried, access.InRange) :
    ∀ access ∈ (attempts parser cursor).flatMap asked, access.InRange := by
  intro access member
  obtain ⟨tried,attempted,inside⟩ := List.mem_flatMap.mp member
  have reached := attempts_reached advances attempted
  exact bounded tried (reached.canonical canonical) access inside

end Parser

namespace Grammar
variable {α : Type}
open TamilScript.Parser

theorem accesses_inRange (grammar : Grammar α) {cursor : Cursor} (canonical : cursor.Canonical) :
    ∀ access ∈ grammar.accesses cursor, access.InRange := by
  induction grammar generalizing cursor with
  | any | exactly | oneOf | endOfSource => exact Cursor.accesses_inRange_iff.mpr canonical
  | literal => exact literalAccesses_inRange canonical
  | succeed | fail | unimplemented =>
    intro access member
    simp [accesses] at member
  | filter _ _ _ ih | map _ _ ih | optional _ ih | notFollowedBy _ ih | lookAhead _ ih
  | label _ _ ih | withSpan _ ih => exact ih canonical
  | bind grammar continuation ih continued =>
    apply Outcome.inRange_after (ih canonical)
    intro value next ran
    exact continued value ((grammar.run_advances ran).canonical canonical)
  | seq first second ih after =>
    apply Outcome.inRange_after (ih canonical)
    intro left middle ran
    exact after ((first.run_advances ran).canonical canonical)
  | orElse first second ih other =>
    intro access member
    rcases List.mem_append.mp member with here | later
    · exact ih canonical access here
    · split at later
      · simp at later
      · exact other canonical access later
  | alternatives nth ih =>
    intro access member
    obtain ⟨i,_,inside⟩ := List.mem_flatMap.mp member
    exact ih i canonical access inside
  | many grammar ih => exact attempts_inRange grammar.run_advances canonical fun _ => ih
  | many1 grammar ih =>
    apply Outcome.inRange_after (ih canonical)
    intro value next ran
    have onward := (grammar.run_advances ran).canonical canonical
    exact attempts_inRange grammar.run_advances onward fun _ => ih
  | recognize grammar ih =>
    apply Outcome.inRange_after (ih canonical)
    intro value next ran
    simpa [Access.InRange] using Span.between_inRange canonical (grammar.run_advances ran)
  | lexeme grammar ih =>
    apply Outcome.inRange_after (ih canonical)
    intro value next ran
    have onward := (grammar.run_advances ran).canonical canonical
    exact attempts_inRange whitespace_advances onward fun _ => Cursor.accesses_inRange_iff.mpr

theorem runChecked_of_canonical (grammar : Grammar α) {cursor : Cursor}
    (canonical : cursor.Canonical) : grammar.runChecked cursor = some (grammar.run cursor) := by
  rw [grammar.runChecked_eq,Access.granted_eq_some (grammar.accesses_inRange canonical)]

/-- From a cursor that steps reach, a match ends over the same source, no earlier and no later than
its end, in the state that its position tells; and whether it matches or not, the run never asks
for a unit or a stretch that the source does not have: with every look checked, its outcome is
there and is the same. At any cursor whatever the checked run has no outcome exactly where one of
the accesses is out of range. -/
theorem run_inBounds (grammar : Grammar α) (source : Source) (cursor : Cursor)
    (reached : (Cursor.start source).Reaches cursor) :
    (∀ value last, grammar.run cursor = .ok (value,last) →
      last.source = source ∧ cursor.position ≤ last.position ∧ last.position ≤ source.size ∧
      (last.state = .valid ∧ last.position < source.size ∨
        last.state = .ended ∧ last.position = source.size) ∧
      (last.atEnd = true ↔ last.position = source.size) ∧
      (Cursor.start source).Reaches last) ∧
    (∀ access ∈ grammar.accesses cursor, access.InRange) ∧
    grammar.runChecked cursor = some (grammar.run cursor) ∧
    ∀ place, grammar.runChecked place =
      if ∀ access ∈ grammar.accesses place, access.InRange then some (grammar.run place)
      else none := by
  have canonical := reached.canonical (Cursor.start_canonical source)
  refine ⟨?_,grammar.accesses_inRange canonical,grammar.runChecked_of_canonical canonical,
    grammar.runChecked_eq⟩
  intro value last ran
  have onward := grammar.run_advances ran
  have further := reached.trans onward
  have ends := further.canonical (Cursor.start_canonical source)
  have same : last.source = source := by rw [further.source_eq,Cursor.source_start]
  have bound := ends.position_le
  have states := ends.state_position
  have atEnd := ends.atEnd_iff
  rw [same] at bound states atEnd
  exact ⟨same,onward.position_le canonical,bound,states,atEnd,further⟩

theorem syllables_inBounds :
    let source := Source.ofString "xகாக"
    let grammar := ((oneOf ['க']).seq (oneOf ['ா']).optional).recognize.many
    let cursor := (Cursor.start source).next
    grammar.run cursor = .ok (["கா","க"],.ended source) ∧
    (Cursor.start source).Reaches (.ended source) ∧
    (grammar.accesses cursor ≠ [] ∧ ∀ access ∈ grammar.accesses cursor, access.InRange) ∧
    grammar.runChecked cursor = some (.ok (["கா","க"],.ended source)) ∧
    grammar.runChecked (.valid source 4) = none := by
  intro source grammar cursor
  have ran : grammar.run cursor = .ok (["கா","க"],.ended source) := by decide +kernel
  obtain ⟨ends,bounded,checked,_⟩ := run_inBounds grammar source cursor (.next _)
  obtain ⟨_,_,_,_,_,reached⟩ := ends _ _ ran
  exact ⟨ran,reached,⟨by decide +kernel,bounded⟩,checked.trans (congrArg some ran),
    by decide +kernel⟩

end Grammar

end TamilScript
