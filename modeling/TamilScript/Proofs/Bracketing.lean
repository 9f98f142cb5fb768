import Mathlib.Control.Monad.Basic
import TamilScript.Proofs.Matching

/-! Ordered choice does not depend on its brackets. A choice between two choices is one choice among
the alternatives of both, since being told as exhausted twice is being told so once. So however a row
of alternatives is put together by choices between two, the first match is found, and when there
is none the failure of the last one is wrapped once. -/
namespace TamilScript

theorem Failure.exhaust_eq (failure : Failure) :
    failure.exhaust = if failure.cause?.isSome then failure else .exhausted failure := by
  cases failure <;> rfl

namespace Parser
variable {α : Type} {first second parser : Parser α} {rest others : List (Parser α)}
  {cursor : Cursor}

/-- Recognizers put together from a row of alternatives, at least one, by choices between two. -/
inductive Brackets : Parser α → List (Parser α) → Parser α → Prop
  | alone (parser : Parser α) : Brackets parser [] parser
  | orElse {first second left right : Parser α} {rest others : List (Parser α)}
      (before : Brackets first rest left) (after : Brackets second others right) :
      Brackets first (rest ++ second :: others) (left.orElse right)

def leftNested (first : Parser α) (rest : List (Parser α)) : Parser α := rest.foldl orElse first

def rightNested : Parser α → List (Parser α) → Parser α
  | first, [] => first
  | first, second :: rest => first.orElse (rightNested second rest)

theorem Brackets.append_left (before : Brackets first rest parser) (others : List (Parser α)) :
    Brackets first (rest ++ others) (leftNested parser others) := by
  induction others generalizing rest parser with
  | nil =>
    rw [List.append_nil]
    exact before
  | cons second others ih =>
    have longer := ih (before.orElse (.alone second))
    rwa [List.append_assoc] at longer

theorem brackets_leftNested (first : Parser α) (rest : List (Parser α)) :
    Brackets first rest (leftNested first rest) := (Brackets.alone first).append_left rest

theorem brackets_rightNested (first : Parser α) (rest : List (Parser α)) :
    Brackets first rest (rightNested first rest) := by
  induction rest generalizing first with
  | nil => exact .alone first
  | cons second rest ih => exact (Brackets.alone first).orElse (ih second)

theorem mapError_exhaust_exhaust (outcome : Outcome α) :
    (outcome.mapError Failure.exhaust).mapError Failure.exhaust =
      outcome.mapError Failure.exhaust := by
  cases outcome with
  | error failure => exact congrArg Except.error failure.exhaust_exhaust
  | ok => rfl

theorem mapError_eq_error_iff {outcome : Outcome α} {failure : Failure} :
    outcome.mapError Failure.exhaust = .error failure ↔
      ∃ told, outcome = .error told ∧ failure = told.exhaust := by
  cases outcome with
  | error told =>
    constructor
    · intro wrapped
      exact ⟨told,rfl,(Except.error.inj wrapped).symm⟩
    · intro wrapped
      obtain ⟨_,same,rfl⟩ := wrapped
      obtain rfl := Except.error.inj same
      rfl
  | ok => exact ⟨nofun,nofun⟩

theorem orElse_eq_choice (left right : Parser α) : left.orElse right = choice left [right] := by
  funext cursor
  simp only [orElse,choice,firstMatch]
  cases left cursor <;> rfl

theorem choice_choice_nil (first : Parser α) (rest : List (Parser α)) :
    choice (choice first rest) [] = choice first rest := by
  funext cursor
  exact mapError_exhaust_exhaust _

theorem firstMatch_append (first second : Parser α) (rest others : List (Parser α))
    (cursor : Cursor) : firstMatch first (rest ++ second :: others) cursor =
      match firstMatch first rest cursor with
      | .ok found => .ok found
      | .error _ => firstMatch second others cursor := by
  induction rest generalizing first with
  | nil => rfl
  | cons third rest ih =>
    simp only [List.cons_append,firstMatch,ih]
    cases first cursor <;> rfl

theorem choice_append (first second : Parser α) (rest others : List (Parser α)) :
    choice first (rest ++ second :: others) = (choice first rest).orElse (choice second others) := by
  funext cursor
  simp only [orElse,choice,firstMatch_append]
  cases firstMatch first rest cursor with
  | ok => rfl
  | error => exact (mapError_exhaust_exhaust _).symm

/-- As the only alternative of a choice, whatever is put together is the choice of its row. -/
theorem Brackets.choice_nil (brackets : Brackets first rest parser) :
    choice parser [] = choice first rest := by
  induction brackets with
  | alone => rfl
  | @orElse first second left right rest others _ _ ih later =>
    calc choice (left.orElse right) []
      _ = choice left [right] := by rw [orElse_eq_choice,choice_choice_nil]
      _ = (choice left []).orElse (choice right []) := choice_append left right [] []
      _ = (choice first rest).orElse (choice second others) := by rw [ih,later]
      _ = choice first (rest ++ second :: others) := (choice_append first second rest others).symm

/-- From two alternatives on what is put together is told as exhausted already. -/
theorem Brackets.eq_choice (brackets : Brackets first rest parser) (several : rest ≠ []) :
    parser = choice first rest := by
  rw [← brackets.choice_nil]
  cases brackets with
  | alone => contradiction
  | orElse => rw [orElse_eq_choice,choice_choice_nil]

theorem firstMatch_isOk_eq_false_iff : (firstMatch first rest cursor).isOk = false ↔
    ∀ alternative ∈ first :: rest, (alternative cursor).isOk = false := by
  induction rest generalizing first with
  | nil => simp [firstMatch]
  | cons second rest ih =>
    rw [firstMatch,List.forall_mem_cons,← ih]
    cases first cursor <;> simp [Except.isOk,Except.toBool]

theorem firstMatch_concat_eq_error_iff {last : Parser α} {failure : Failure} :
    firstMatch first (rest ++ [last]) cursor = .error failure ↔
      (∀ earlier ∈ first :: rest, (earlier cursor).isOk = false) ∧
        last cursor = .error failure := by
  rw [firstMatch_append,← firstMatch_isOk_eq_false_iff]
  cases firstMatch first rest cursor <;> simp [firstMatch,Except.isOk,Except.toBool]

theorem choice_concat_eq_error_iff {last : Parser α} {failure : Failure} :
    choice first (rest ++ [last]) cursor = .error failure ↔
      (∀ earlier ∈ first :: rest, (earlier cursor).isOk = false) ∧
        ∃ told, last cursor = .error told ∧ failure = told.exhaust := by
  simp only [choice,mapError_eq_error_iff,firstMatch_concat_eq_error_iff,and_assoc,exists_and_left]

/-- However a row of at least two alternatives is put together by choices between two, its outcome is
that of the choice among them: the first match among the alternatives, or else the failure of the last
one told as exhausted, and as it is where it was told so before. -/
theorem choice_bracketed (first : Parser α) (between : List (Parser α)) (last : Parser α)
    (cursor : Cursor) :
    (∀ parser, Brackets first (between ++ [last]) parser →
      parser cursor = choice first (between ++ [last]) cursor) ∧
    leftNested first (between ++ [last]) cursor = choice first (between ++ [last]) cursor ∧
    rightNested first (between ++ [last]) cursor = choice first (between ++ [last]) cursor ∧
    (∀ found, choice first (between ++ [last]) cursor = .ok found ↔ ∃ before chosen after,
      first :: (between ++ [last]) = before ++ chosen :: after ∧ chosen cursor = .ok found ∧
        ∀ earlier ∈ before, (earlier cursor).isOk = false) ∧
    ∀ failure, choice first (between ++ [last]) cursor = .error failure ↔
      (∀ earlier ∈ first :: between, (earlier cursor).isOk = false) ∧ ∃ told,
        last cursor = .error told ∧
          failure = if told.cause?.isSome then told else .exhausted told := by
  have several : between ++ [last] ≠ [] := by simp
  have same (parser : Parser α) (brackets : Brackets first (between ++ [last]) parser) :
      parser cursor = choice first (between ++ [last]) cursor :=
    congrFun (brackets.eq_choice several) cursor
  refine ⟨same,same _ (brackets_leftNested _ _),same _ (brackets_rightNested _ _),?_,?_⟩
  · exact fun _ => choice_eq_ok_iff
  · intro failure
    simp only [← Failure.exhaust_eq]
    exact choice_concat_eq_error_iff

theorem vowel_signs_bracketed :
    let last := (exactly 'ு').orElse (exactly 'ூ')
    let parser := ((exactly 'ா').orElse (exactly 'ி')).orElse ((exactly 'ீ').orElse last)
    let source := Source.ofString "க"
    let told := Failure.exhausted (.unsatisfied "expected 'ூ', found 'க'" ⟨source,0⟩)
    Brackets (exactly 'ா') [exactly 'ி',exactly 'ீ',last] parser ∧
    last (.start source) = .error told ∧ parser (.start source) = .error told := by
  intro last parser source told
  have brackets : Brackets (exactly 'ா') [exactly 'ி',exactly 'ீ',last] parser :=
    .orElse (.orElse (.alone _) (.alone _)) (.orElse (.alone _) (.alone _))
  have failed : last (.start source) = .error told := by decide +kernel
  obtain ⟨same,_,_,_,whole⟩ :=
    choice_bracketed (exactly 'ா') [exactly 'ி',exactly 'ீ'] last (.start source)
  exact ⟨brackets,failed,(same parser brackets).trans
    ((whole told).mpr ⟨by decide +kernel,told,failed,rfl⟩)⟩

end Parser

end TamilScript
