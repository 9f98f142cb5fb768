import Mathlib.Control.Monad.Basic
import TamilScript.Proofs.Advance

/-! A literal matches where the unread units begin with it. Where they do not, it fails past the longest
beginning that both have in common: for want of a unit if the source ends there, else because of the
unit it finds there. Two literals in a row end as the one that they spell together. -/
namespace TamilScript

/-- The longest list with which both lists begin. -/
def commonPrefix : List Char → List Char → List Char
  | unit :: first, other :: second => if unit = other then unit :: commonPrefix first second else []
  | [], _ => []
  | _, [] => []

section CommonPrefix
variable {units first second : List Char}

theorem prefix_commonPrefix_iff :
    units <+: commonPrefix first second ↔ units <+: first ∧ units <+: second := by
  induction first generalizing second units with
  | nil => simp +contextual [commonPrefix]
  | cons unit first ih =>
    cases second with
    | nil => simp +contextual [commonPrefix]
    | cons other second =>
      cases units with
      | nil => simp
      | cons head units =>
        rw [commonPrefix,List.cons_prefix_cons,List.cons_prefix_cons]
        split
        · next same =>
          rw [List.cons_prefix_cons,ih,← same,and_and_left]
        · next differ =>
          simp only [List.prefix_nil,reduceCtorEq,false_iff]
          rintro ⟨⟨rfl,_⟩,rfl,_⟩
          exact differ rfl

theorem commonPrefix_split (first second : List Char) : ∃ more rest,
    first = commonPrefix first second ++ more ∧ second = commonPrefix first second ++ rest ∧
      ∀ unit ∈ more.head?, unit ∉ rest.head? := by
  obtain ⟨⟨more,left⟩,⟨rest,right⟩⟩ :=
    prefix_commonPrefix_iff.mp (List.prefix_refl (commonPrefix first second))
  refine ⟨more,rest,left.symm,right.symm,?_⟩
  intro unit next same
  obtain ⟨others,rfl⟩ := List.head?_eq_some_iff.mp next
  obtain ⟨further,rfl⟩ := List.head?_eq_some_iff.mp same
  -- A unit that came next in both would make the common beginning longer.
  have longer : commonPrefix first second ++ [unit] <+: commonPrefix first second := by
    apply prefix_commonPrefix_iff.mpr
    exact ⟨⟨others,by simpa using left⟩,⟨further,by simpa using right⟩⟩
  exact absurd longer.length_le (by simp)

end CommonPrefix

/-- A failure without its words. -/
def Failure.unworded (failure : Failure) : Failure.Kind × Location := (failure.kind,failure.location)

/-- Where an outcome matches up to, or how and where it fails. -/
def Outcome.ending {α : Type} : Outcome α → Except (Failure.Kind × Location) Cursor
  | .ok (_,last) => .ok last
  | .error failure => .error failure.unworded

namespace Parser
variable {whole other : String} {cursor : Cursor}

theorem literalFrom_append (whole : String) (first second : List Char) (cursor : Cursor) :
    literalFrom whole (first ++ second) cursor = match literalFrom whole first cursor with
      | .ok next => literalFrom whole second next
      | .error failure => .error failure := by
  induction first generalizing cursor with
  | nil => rfl
  | cons expected first ih =>
    rw [List.cons_append,literalFrom,literalFrom]
    cases cursor.read with
    | error => rfl
    | ok found =>
      obtain ⟨found,next⟩ := found
      dsimp only
      split
      · exact ih next
      · rfl

theorem literalFrom_of_opens (canonical : cursor.Canonical) {units : List Char}
    (opens : units <+: cursor.unread) :
    literalFrom whole units cursor = .ok (cursor.skip units.length) := by
  induction units generalizing cursor with
  | nil => rfl
  | cons unit units ih =>
    obtain ⟨rest,unread⟩ := opens
    have later : units <+: cursor.next.unread := ⟨rest,by rw [Cursor.unread_next,← unread]; rfl⟩
    rw [literalFrom,canonical.read_eq,← unread]
    simp only [List.cons_append,if_true]
    exact ih cursor.next_canonical later

section Shared
variable {shared more rest : List Char} {expected found : Char}

/-- What both have in common is passed over. -/
theorem literalFrom_shared (canonical : cursor.Canonical)
    (unread : cursor.unread = shared ++ rest) : literalFrom whole (shared ++ more) cursor =
      literalFrom whole more (cursor.skip shared.length) := by
  rw [literalFrom_append,literalFrom_of_opens canonical ⟨rest,unread.symm⟩]

theorem ends_past_shared_iff (canonical : cursor.Canonical)
    (unread : cursor.unread = shared ++ rest) :
    cursor.position + shared.length = cursor.source.size ↔ rest = [] := by
  have left : cursor.remaining = shared.length + rest.length := by
    rw [← cursor.length_unread,unread,List.length_append]
  have size := canonical.position_add_remaining
  rw [← List.length_eq_zero_iff]
  omega

theorem literal_of_opens (canonical : cursor.Canonical) (opens : whole.toList <+: cursor.unread) :
    ∃ last, literal whole cursor = .ok (whole,last) ∧
      last.position = cursor.position + whole.length := by
  refine ⟨cursor.skip whole.toList.length,by rw [literal,literalFrom_of_opens canonical opens],?_⟩
  obtain ⟨rest,unread⟩ := opens
  rw [← String.length_toList]
  exact congrArg Location.position (canonical.location_past unread.symm)

theorem literal_truncated (canonical : cursor.Canonical)
    (spelled : whole.toList = shared ++ expected :: more) (unread : cursor.unread = shared ++ []) :
    literal whole cursor =
      .error (.endOfSource ⟨cursor.source,cursor.position + shared.length⟩) := by
  have beyond : (cursor.skip shared.length).unread = [] := by simp [unread]
  rw [literal,spelled,literalFrom_shared canonical unread,literalFrom,
    (canonical.skip shared.length).read_eq,beyond,← canonical.location_past unread]

theorem literal_mismatched (canonical : cursor.Canonical)
    (spelled : whole.toList = shared ++ expected :: more)
    (unread : cursor.unread = shared ++ found :: rest) (differ : found ≠ expected) :
    literal whole cursor = .error (.unsatisfied ("expected '" ++ toString expected ++
      "', found '" ++ toString found ++ "' while matching '" ++ whole ++ "'")
      ⟨cursor.source,cursor.position + shared.length⟩) := by
  have beyond : (cursor.skip shared.length).unread = found :: rest := by simp [unread]
  rw [literal,spelled,literalFrom_shared canonical unread,literalFrom,
    (canonical.skip shared.length).read_eq,beyond,← canonical.location_past unread]
  simp only [differ,if_false]

/-- The three ways to go on from what both have in common. -/
theorem literal_past_shared (canonical : cursor.Canonical) (spelled : whole.toList = shared ++ more)
    (unread : cursor.unread = shared ++ rest) (apart : ∀ unit ∈ more.head?, unit ∉ rest.head?) :
    let stop := cursor.position + shared.length
    (shared.length = whole.length → ∃ last, literal whole cursor = .ok (whole,last) ∧
      last.position = cursor.position + whole.length) ∧
    (shared.length ≠ whole.length → stop = cursor.source.size →
      literal whole cursor = .error (.endOfSource ⟨cursor.source,stop⟩)) ∧
    (shared.length ≠ whole.length → stop ≠ cursor.source.size → ∃ expected found,
      whole.toList[shared.length]? = some expected ∧ cursor.source.units[stop]? = some found ∧
      literal whole cursor = .error (.unsatisfied ("expected '" ++ toString expected ++
        "', found '" ++ toString found ++ "' while matching '" ++ whole ++ "'")
        ⟨cursor.source,stop⟩)) := by
  intro stop
  have all : shared.length = whole.length ↔ more = [] := by
    rw [← String.length_toList,spelled,List.length_append,← List.length_eq_zero_iff]
    omega
  have ends := ends_past_shared_iff canonical unread
  refine ⟨?_,?_,?_⟩
  · intro whole
    obtain rfl := all.mp whole
    rw [List.append_nil] at spelled
    exact literal_of_opens canonical ⟨rest,by rw [spelled,unread]⟩
  · intro short beyond
    obtain ⟨expected,others,rfl⟩ := List.exists_cons_of_ne_nil (mt all.mpr short)
    obtain rfl := ends.mp beyond
    exact literal_truncated canonical spelled unread
  · intro short goes
    obtain ⟨expected,others,rfl⟩ := List.exists_cons_of_ne_nil (mt all.mpr short)
    obtain ⟨found,behind,rfl⟩ := List.exists_cons_of_ne_nil (mt ends.mpr goes)
    have differ : found ≠ expected := by
      rintro rfl
      exact apart found rfl rfl
    have ahead := cursor.getElem?_unread shared.length
    rw [unread] at ahead
    refine ⟨expected,found,by simp [spelled],by simpa using ahead.symm,?_⟩
    exact literal_mismatched canonical spelled unread differ

end Shared

theorem literalFrom_unworded (whole other : String) (expected : List Char) (cursor : Cursor) :
    (literalFrom whole expected cursor).mapError Failure.unworded =
      (literalFrom other expected cursor).mapError Failure.unworded := by
  induction expected generalizing cursor with
  | nil => rfl
  | cons unit rest ih =>
    rw [literalFrom,literalFrom]
    cases cursor.read with
    | error => rfl
    | ok found =>
      obtain ⟨found,next⟩ := found
      dsimp only
      split
      · exact ih next
      · rfl

theorem literal_ending (whole : String) (cursor : Cursor) :
    (literal whole cursor).ending =
      (literalFrom whole whole.toList cursor).mapError Failure.unworded := by
  unfold literal
  cases literalFrom whole whole.toList cursor <;> rfl

theorem seq_ending {α β : Type} (first : Parser α) (second : Parser β) (cursor : Cursor) :
    (first.seq second cursor).ending = match first cursor with
      | .ok (_,middle) => (second middle).ending
      | .error failure => .error failure.unworded := by
  unfold seq
  cases first cursor with
  | error => rfl
  | ok found =>
    obtain ⟨_,middle⟩ := found
    dsimp only
    cases second middle <;> rfl

theorem literal_append_ending (first second : String) (cursor : Cursor) :
    (literal (first ++ second) cursor).ending =
      ((literal first).seq (literal second) cursor).ending := by
  -- A failure names the literal it belongs to, so the first part is not just the beginning of the whole.
  have left := literalFrom_unworded (first ++ second) first first.toList cursor
  rw [seq_ending,literal_ending,String.toList_append,literalFrom_append]
  unfold literal
  generalize literalFrom (first ++ second) first.toList cursor = whole at left ⊢
  generalize literalFrom first first.toList cursor = part at left ⊢
  cases whole with
  | error =>
    cases part with
    | error => exact left
    | ok => cases left
  | ok next =>
    cases part with
    | error => cases left
    | ok =>
      obtain rfl := Except.ok.inj left
      have right := literalFrom_unworded (first ++ second) second second.toList next
      exact right.trans (literal_ending second next).symm

end Parser

namespace Grammar
open TamilScript.Parser

/-- A literal matches just where the unread units begin with it. Elsewhere it fails past the longest
beginning that it shares with them, because the source ends there or because of the unit there. In
two parts, one after the other, it ends at the same cursor, or fails there in the same way. -/
theorem literal_by_opening (whole further : String) (source : Source) (cursor : Cursor)
    (reached : (Cursor.start source).Reaches cursor) :
    let shared := commonPrefix whole.toList (source.suffix cursor.position)
    let stop := cursor.position + shared.length
    (∀ units, units <+: shared ↔
      units <+: whole.toList ∧ units <+: source.suffix cursor.position) ∧
    (shared.length = whole.length → ∃ last, (literal whole).run cursor = .ok (whole,last) ∧
      last.position = cursor.position + whole.length) ∧
    (shared.length ≠ whole.length → stop = source.size →
      (literal whole).run cursor = .error (.endOfSource ⟨source,stop⟩)) ∧
    (shared.length ≠ whole.length → stop ≠ source.size → ∃ expected found,
      whole.toList[shared.length]? = some expected ∧ source.units[stop]? = some found ∧
      (literal whole).run cursor = .error (.unsatisfied ("expected '" ++ toString expected ++
        "', found '" ++ toString found ++ "' while matching '" ++ whole ++ "'") ⟨source,stop⟩)) ∧
    ((literal (whole ++ further)).run cursor).ending =
      (((literal whole).seq (literal further)).run cursor).ending := by
  intro shared stop
  have canonical := reached.canonical_of_start
  obtain rfl := reached.source_of_start
  obtain ⟨more,rest,spelled,unread,apart⟩ := commonPrefix_split whole.toList cursor.unread
  obtain ⟨all,ends,goes⟩ := literal_past_shared canonical spelled unread apart
  exact ⟨fun _ => prefix_commonPrefix_iff,all,ends,goes,literal_append_ending whole further cursor⟩

theorem near_word_mismatched :
    let source := Source.ofString "xகடை"
    let cursor := (Cursor.start source).next
    (literal "கடல்").run cursor =
      .error (.unsatisfied "expected 'ல', found 'ை' while matching 'கடல்'" ⟨source,3⟩) ∧
    (((literal "கட").seq (literal "ல்")).run cursor).ending =
      .error (.unsatisfied,⟨source,3⟩) ∧
    (literal "கடைக்").run cursor = .error (.endOfSource ⟨source,4⟩) := by
  intro source cursor
  obtain ⟨_,_,_,goes,_⟩ := literal_by_opening "கடல்" "" source cursor (.next _)
  obtain ⟨_,_,_,_,alike⟩ := literal_by_opening "கட" "ல்" source cursor (.next _)
  obtain ⟨_,_,ends,_,_⟩ := literal_by_opening "கடைக்" "" source cursor (.next _)
  obtain ⟨expected,found,unit,there,failed⟩ := goes (by decide +kernel) (by decide +kernel)
  obtain rfl : 'ல' = expected := Option.some.inj unit
  obtain rfl : 'ை' = found := Option.some.inj there
  refine ⟨failed,alike.symm.trans ?_,ends (by decide +kernel) (by decide +kernel)⟩
  exact congrArg Outcome.ending failed

end Grammar

end TamilScript
