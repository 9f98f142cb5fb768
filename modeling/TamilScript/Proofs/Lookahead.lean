import TamilScript.Cursor

/-! What a cursor sees ahead and what it comes to. The unit some distance ahead is the one that the
cursor stands before once it has stepped as often; where no word holds the sum of position and
distance, the steps have come to the end long before. Reading on and on gives the unread units in
order, and after them the same failure at the same end. -/
namespace TamilScript.Cursor

/-- A cursor that steps and successful reads lead to from the start of the source. -/
inductive Walked (source : Source) : Cursor → Prop where
  | start : Walked source (start source)
  | next {cursor : Cursor} (walked : Walked source cursor) : Walked source cursor.next
  | read {cursor last : Cursor} {unit : Char} (walked : Walked source cursor)
      (found : cursor.read = .ok (unit,last)) : Walked source last

/-- The answers to a number of reads in a row, and the cursor after them. A read that fails leaves the
cursor where it is. -/
def readRow : Cursor → Nat → List (Except Failure Char) × Cursor
  | cursor, 0 => ([],cursor)
  | cursor, turns + 1 =>
    match cursor.read with
    | .ok (unit,next) =>
      let (answers,last) := next.readRow turns
      (.ok unit :: answers,last)
    | .error failure =>
      let (answers,last) := cursor.readRow turns
      (.error failure :: answers,last)

theorem peek_eq {cursor : Cursor} (small : cursor.source.size < wordLimit) (distance : Nat) :
    cursor.peek distance = cursor.unread[distance]? := by
  rw [getElem?_unread,peek,ahead?]
  split
  · rfl
  · next overflows =>
    have beyond : cursor.source.units.size ≤ cursor.position + distance := by
      have limit := Nat.le_of_not_lt overflows
      exact Nat.le_of_lt (Nat.lt_of_lt_of_le small limit)
    exact (Array.getElem?_eq_none beyond).symm

namespace Canonical
variable {cursor : Cursor}

theorem toOption_value (canonical : cursor.Canonical) :
    cursor.value.toOption = cursor.unread.head? := by
  cases cursor with
  | valid source position =>
    have inside : position < source.size := canonical
    have unread : (valid source position).unread =
        source.units[position] :: source.suffix (position + 1) := Source.suffix_eq_cons inside
    rw [unread]
    exact congrArg some (getElem!_pos source.units position inside)
  | ended source =>
    have unread : (ended source).unread = [] := List.drop_eq_nil_of_le (Nat.le_refl _)
    rw [unread]
    rfl

theorem peek_eq_value (canonical : cursor.Canonical) (small : cursor.source.size < wordLimit)
    (distance : Nat) : cursor.peek distance = (cursor.skip distance).value.toOption := by
  rw [peek_eq small,(canonical.skip distance).toOption_value,unread_skip,List.head?_drop]

theorem readRow_eq (canonical : cursor.Canonical) (turns : Nat) :
    cursor.readRow turns = ((cursor.unread.take turns).map .ok ++
      List.replicate (turns - cursor.remaining)
        (.error (.endOfSource ⟨cursor.source,cursor.source.size⟩)),cursor.skip turns) := by
  induction turns generalizing cursor with
  | zero => simp [readRow,Cursor.skip]
  | succ turns ih =>
    rw [readRow,canonical.read_eq,← length_unread]
    cases unread : cursor.unread with
    | nil =>
      -- The cursor is past all units, where a step leads nowhere either.
      have same := canonical.eq_ended unread
      have stays : cursor.next = cursor := by
        rw [same]
        rfl
      have later := ih canonical
      rw [← length_unread,unread] at later
      simp [later,Cursor.skip,stays,List.replicate_succ]
    | cons unit rest =>
      have onward : cursor.next.unread = rest := by rw [unread_next,unread]; rfl
      have later := ih cursor.next_canonical
      rw [← length_unread,onward,source_next] at later
      simp [later,Cursor.skip]

end Canonical

theorem Walked.reaches {source : Source} {cursor : Cursor} (walked : Walked source cursor) :
    (Cursor.start source).Reaches cursor := by
  induction walked with
  | start => exact .refl _
  | next _ ih => exact ih.trans (.next _)
  | read _ found ih =>
    rw [ih.canonical_of_start.read_eq] at found
    split at found
    · obtain ⟨_,rfl⟩ := Prod.mk.inj (Except.ok.inj found)
      exact ih.trans (.next _)
    · cases found

theorem skip_eq_ended {source : Source} {cursor : Cursor} (walked : Walked source cursor)
    {steps : Nat} (enough : cursor.remaining ≤ steps) : cursor.skip steps = ended source := by
  have exhausted : (cursor.skip steps).unread = [] := by
    rw [unread_skip]
    exact List.drop_eq_nil_of_le (by rwa [length_unread])
  have last := (walked.reaches.canonical_of_start.skip steps).eq_ended exhausted
  rwa [source_skip,walked.reaches.source_of_start] at last

/-- From every cursor that a walk comes to, the unit some distance ahead is the unit before the
cursor after as many steps, and there is none exactly when those steps end at the end of the
source; sums beyond the limit of a word are no exception. Reading on gives the unread units one by
one, then always the failure at the end, where the cursor stays. -/
theorem lookahead_by_steps (source : Source) (small : source.size < wordLimit) (cursor : Cursor)
    (walked : Walked source cursor) :
    (∀ distance, cursor.peek distance = (cursor.skip distance).value.toOption ∧
      (cursor.peek distance = none ↔ (cursor.skip distance).atEnd = true) ∧
      (wordLimit ≤ cursor.position + distance → (cursor.skip distance).atEnd = true)) ∧
    ∀ turns, cursor.readRow turns = (((source.suffix cursor.position).take turns).map .ok ++
        List.replicate (turns - (source.size - cursor.position))
          (.error (.endOfSource ⟨source,source.size⟩)),cursor.skip turns) ∧
      (source.size - cursor.position ≤ turns → cursor.skip turns = ended source) := by
  have canonical := walked.reaches.canonical_of_start
  obtain rfl := walked.reaches.source_of_start
  constructor
  · intro distance
    have seen := canonical.peek_eq_value small distance
    refine ⟨seen,?_,?_⟩
    · rw [seen,atEnd]
      cases (cursor.skip distance).value <;> simp [Except.toOption,Except.isOk,Except.toBool]
    · intro overflows
      have enough : cursor.remaining ≤ distance := by
        unfold remaining
        omega
      rw [skip_eq_ended walked enough]
      rfl
  · intro turns
    exact ⟨canonical.readRow_eq turns,skip_eq_ended walked⟩

theorem lookahead_past_last_unit :
    let source := Source.ofString "கை"
    let cursor := (Cursor.start source).next
    source.size < wordLimit ∧ Walked source cursor ∧
    cursor.peek 0 = some 'ை' ∧ cursor.peek (wordLimit - 1) = none ∧
    (cursor.skip (wordLimit - 1)).atEnd = true ∧
    cursor.readRow 3 = ([.ok 'ை',.error (.endOfSource ⟨source,2⟩),.error (.endOfSource ⟨source,2⟩)],
      ended source) := by
  intro source cursor
  have small : source.size < wordLimit := by decide
  have walked : Walked source cursor := .next .start
  obtain ⟨ahead,reads⟩ := lookahead_by_steps source small cursor walked
  obtain ⟨seen,_,_⟩ := ahead 0
  obtain ⟨_,absent,overflows⟩ := ahead (wordLimit - 1)
  obtain ⟨answers,ends⟩ := reads 3
  have beyond := overflows (by decide)
  refine ⟨small,walked,seen,absent.mpr beyond,beyond,?_⟩
  rw [answers,ends (by decide)]
  rfl

end TamilScript.Cursor
