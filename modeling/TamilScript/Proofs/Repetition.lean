import Mathlib.Control.Monad.Basic
import TamilScript.Proofs.Advance

/-! Repetition told without a loop. Matches in a row each end further on than they begin, and the
last of them ends where the recognizer comes no further. Both together fix the values and the cursor
of a repetition; one that must match at least once keeps its first match whatever its width. -/
namespace TamilScript

namespace Parser
variable {α : Type} {parser : Parser α} {cursor last : Cursor}

/-- Matches in a row, each with the cursor at which it ends and the next one begins. -/
inductive Trail (parser : Parser α) : Cursor → List (α × Cursor) → Cursor → Prop
  | stop (cursor : Cursor) : Trail parser cursor [] cursor
  | step {cursor next last : Cursor} {value : α} {later : List (α × Cursor)}
      (ran : parser cursor = .ok (value,next)) (further : cursor.position < next.position)
      (more : Trail parser next later last) : Trail parser cursor ((value,next) :: later) last

/-- The recognizer fails at the cursor or matches there without advancing. -/
inductive Stalls (parser : Parser α) (cursor : Cursor) : Prop
  | fails {failure : Failure} (ran : parser cursor = .error failure)
  | idles {value : α} {next : Cursor} (ran : parser cursor = .ok (value,next))
      (idle : next.position = cursor.position)

theorem Stalls.not_further {value : α} {next : Cursor} (stalls : parser.Stalls cursor)
    (ran : parser cursor = .ok (value,next)) : ¬cursor.position < next.position := by
  cases stalls with
  | fails failed => simp [failed] at ran
  | idles matched idle =>
    obtain ⟨_,rfl⟩ := Prod.mk.inj (Except.ok.inj (matched.symm.trans ran))
    exact Nat.not_lt_of_le (Nat.le_of_eq idle)

/-- No row of matches can be cut short or go on past the cursor where another one stalls. -/
theorem Trail.unique {trail other : List (α × Cursor)} {final : Cursor}
    (found : Trail parser cursor trail last) (stalls : parser.Stalls last)
    (also : Trail parser cursor other final) (stops : parser.Stalls final) :
    trail = other ∧ last = final := by
  -- Both take the same steps as long as both go on, and where one stops the other cannot go on.
  induction found generalizing other with
  | stop =>
    cases also with
    | stop => exact ⟨rfl,rfl⟩
    | step ran further => exact absurd further (stalls.not_further ran)
  | step ran further more ih =>
    cases also with
    | stop => exact absurd further (stops.not_further ran)
    | step matched _ rest =>
      obtain ⟨rfl,rfl⟩ := Prod.mk.inj (Except.ok.inj (ran.symm.trans matched))
      obtain ⟨rfl,rfl⟩ := ih stalls rest
      exact ⟨rfl,rfl⟩

theorem exists_trail (advances : parser.Advances) (canonical : cursor.Canonical) :
    ∃ trail, Trail parser cursor trail (repeated parser cursor).2 ∧
      parser.Stalls (repeated parser cursor).2 ∧
      trail.map Prod.fst = (repeated parser cursor).1 := by
  fun_induction repeated parser cursor with
  | case1 cursor failure ran => exact ⟨[],.stop cursor,.fails ran,rfl⟩
  | case2 cursor value next ran shorter values last again ih =>
    have reached := advances ran
    have further := (reached.remaining_lt_iff canonical).mp shorter
    obtain ⟨trail,found,stalls,same⟩ := ih (reached.canonical canonical)
    rw [again] at found stalls same
    exact ⟨(value,next) :: trail,.step ran further found,stalls,by rw [List.map_cons,same]⟩
  | case3 cursor value next ran idle =>
    have reached := advances ran
    have forward := reached.position_le canonical
    rw [reached.remaining_lt_iff canonical] at idle
    exact ⟨[],.stop cursor,.idles ran (Nat.le_antisymm (Nat.le_of_not_lt idle) forward),rfl⟩

theorem repeated_eq_iff (advances : parser.Advances) (canonical : cursor.Canonical)
    {values : List α} : repeated parser cursor = (values,last) ↔
      ∃ trail, Trail parser cursor trail last ∧ parser.Stalls last ∧ trail.map Prod.fst = values := by
  obtain ⟨trail,found,stalls,same⟩ := exists_trail advances canonical
  constructor
  · intro ran
    rw [ran] at found stalls same
    exact ⟨trail,found,stalls,same⟩
  · intro maximal
    obtain ⟨other,also,stops,rfl⟩ := maximal
    obtain ⟨rfl,rfl⟩ := also.unique stops found stalls
    rw [same]

theorem existsUnique_trail (advances : parser.Advances) (canonical : cursor.Canonical) :
    ∃! row : List (α × Cursor) × Cursor, Trail parser cursor row.1 row.2 ∧ parser.Stalls row.2 := by
  obtain ⟨trail,found,stalls,_⟩ := exists_trail advances canonical
  refine ⟨(trail,_),⟨found,stalls⟩,?_⟩
  intro other maximal
  obtain ⟨same,ends⟩ := maximal.1.unique maximal.2 found stalls
  exact Prod.ext same ends

theorem many1_eq_error_iff {failure : Failure} :
    parser.many1 cursor = .error failure ↔ parser cursor = .error failure := by
  unfold many1
  cases parser cursor with
  | error => simp
  | ok => exact ⟨nofun,nofun⟩

end Parser

namespace Grammar
variable {α : Type}
open TamilScript.Parser

/-- A repetition always matches. There is one row of advancing matches up to where the grammar
fails or idles, and the values and the end of the repetition are those of that row. One that must
match at least once fails just as its recognizer does at the first cursor; otherwise it has the
first value, even of an empty match, before those of a repetition from where this ended, which is
the plain repetition unless the first match was empty. -/
theorem many_maximal (grammar : Grammar α) (source : Source) (cursor : Cursor)
    (reached : (Cursor.start source).Reaches cursor) :
    (∃ values last, grammar.many.run cursor = .ok (values,last)) ∧
    (∃! row : List (α × Cursor) × Cursor,
      Trail grammar.run cursor row.1 row.2 ∧ Stalls grammar.run row.2) ∧
    (∀ values last, grammar.many.run cursor = .ok (values,last) ↔
      ∃ trail, Trail grammar.run cursor trail last ∧ Stalls grammar.run last ∧
        trail.map Prod.fst = values) ∧
    (∀ failure, grammar.many1.run cursor = .error failure ↔
      grammar.run cursor = .error failure) ∧
    ∀ first middle, grammar.run cursor = .ok (first,middle) →
      ∃ others last, grammar.many.run middle = .ok (others,last) ∧
        grammar.many1.run cursor = .ok (first :: others,last) ∧
        (cursor.position < middle.position →
          grammar.many.run cursor = .ok (first :: others,last)) := by
  have canonical := reached.canonical_of_start
  have advances := grammar.run_advances
  refine ⟨⟨_,_,rfl⟩,existsUnique_trail advances canonical,?_,fun _ => many1_eq_error_iff,?_⟩
  · intro values last
    exact many_eq_ok_iff.trans (repeated_eq_iff advances canonical)
  · intro first middle ran
    refine ⟨_,_,rfl,many1_eq_ok_iff.mpr ⟨first,middle,_,ran,rfl,rfl⟩,?_⟩
    intro further
    apply many_eq_ok_iff.mpr
    rw [repeated_eq advances canonical,ran]
    simp only [Nat.ne_of_gt further,if_false]

theorem optional_letters_maximal :
    let source := Source.ofString "xககா"
    let grammar := (exactly 'க').optional
    let cursor := (Cursor.start source).next
    let stalled := Cursor.valid source 3
    (∃ trail, Trail grammar.run cursor trail stalled ∧ Stalls grammar.run stalled ∧
      trail.map Prod.fst = [some 'க',some 'க']) ∧
    grammar.many1.run cursor = .ok ([some 'க',some 'க'],stalled) ∧
    grammar.many1.run stalled = .ok ([none],stalled) := by
  intro source grammar cursor stalled
  have ran : grammar.many.run cursor = .ok ([some 'க',some 'க'],stalled) := by decide +kernel
  have done : grammar.many.run stalled = .ok ([],stalled) := by decide +kernel
  obtain ⟨_,_,maximal,_,once⟩ := many_maximal grammar source cursor (.next _)
  obtain ⟨_,_,_,alike,plain⟩ := once (some 'க') (.valid source 2) (by decide +kernel)
  obtain ⟨_,_,_,_,idle⟩ := many_maximal grammar source stalled ⟨3,rfl⟩
  obtain ⟨_,_,again,kept,_⟩ := idle none stalled (by decide +kernel)
  obtain ⟨rfl,rfl⟩ := Prod.mk.inj (Except.ok.inj (again.symm.trans done))
  exact ⟨(maximal _ _).mp ran,alike.trans ((plain (by decide)).symm.trans ran),kept⟩

end Grammar

end TamilScript
