import TamilScript.Proofs.Advance
import TamilScript.Proofs.Stages

/-! Where runs fail. A run fails at its start or at a cursor it reached, or at the end of its source
when units were missing; labels move a failure back to the start of what they name, and choices
wrap it once. So every failure a run tells of lies between its start and the end of its source. -/
namespace TamilScript

namespace Failure

/-- What a run from the given cursor may fail with. -/
inductive Arises (start : Cursor) : Failure → Prop
  | endOfSource : Arises start (.endOfSource ⟨start.source,start.source.size⟩)
  | unsatisfied {place : Cursor} (condition : String) (reached : start.Reaches place) :
      Arises start (.unsatisfied condition place.location)
  | unimplemented {place : Cursor} (rule : String) (reached : start.Reaches place) :
      Arises start (.unimplemented rule place.location)
  | exhausted {last : Failure} (arises : Arises start last) (single : last.cause? = none) :
      Arises start (.exhausted last)

namespace Arises
variable {start middle : Cursor} {failure told : Failure}

theorem exhaust (arises : Arises start failure) : Arises start failure.exhaust := by
  cases arises with
  | endOfSource => exact .exhausted .endOfSource rfl
  | unsatisfied condition reached => exact .exhausted (.unsatisfied condition reached) rfl
  | unimplemented rule reached => exact .exhausted (.unimplemented rule reached) rfl
  | exhausted last single => exact .exhausted last single

/-- A run that goes on from a cursor it reached fails as a run from its own start may fail. -/
theorem of_reaches (reached : start.Reaches middle) (arises : Arises middle failure) :
    Arises start failure := by
  induction arises with
  | endOfSource =>
    rw [reached.source_eq]
    exact .endOfSource
  | unsatisfied condition further => exact .unsatisfied condition (reached.trans further)
  | unimplemented rule further => exact .unimplemented rule (reached.trans further)
  | exhausted _ single ih => exact .exhausted ih single

theorem of_mem_chain (arises : Arises start failure) (member : told ∈ failure.chain) :
    Arises start told := by
  induction failure with
  | endOfSource | unsatisfied | unimplemented =>
    obtain rfl := List.mem_singleton.mp member
    exact arises
  | exhausted last ih =>
    rcases List.mem_cons.mp member with rfl | inside
    · exact arises
    · cases arises with
      | exhausted below => exact ih below inside

theorem source_eq (arises : Arises start failure) : failure.location.source = start.source := by
  induction arises with
  | endOfSource => rfl
  | unsatisfied _ reached | unimplemented _ reached => exact reached.source_eq
  | exhausted _ _ ih => exact ih

theorem position_bounds (arises : Arises start failure) (canonical : start.Canonical) :
    start.position ≤ failure.position ∧ failure.position ≤ start.source.size := by
  induction arises with
  | endOfSource => exact ⟨canonical.position_le,Nat.le_refl _⟩
  | unsatisfied _ reached | unimplemented _ reached =>
    have bound := (reached.canonical canonical).position_le
    rw [reached.source_eq] at bound
    exact ⟨reached.position_le canonical,bound⟩
  | exhausted _ _ ih => exact ih

theorem of_endOfSource {location : Location} (arises : Arises start (.endOfSource location)) :
    location = ⟨start.source,start.source.size⟩ := by
  cases arises
  rfl

theorem cause_cause? {cause : Failure} (arises : Arises start failure)
    (caused : failure.cause? = some cause) : cause.cause? = none := by
  cases arises with
  | endOfSource | unsatisfied | unimplemented => cases caused
  | exhausted _ single =>
    obtain rfl := Option.some.inj caused
    exact single

theorem last_not_exhausted {last : Failure} (arises : Arises start (.exhausted last)) :
    last.kind ≠ .exhausted := by
  intro nested
  have single := arises.cause_cause? rfl
  cases last with
  | exhausted => cases single
  | endOfSource | unsatisfied | unimplemented => cases nested

end Arises

end Failure

namespace Parser
variable {α β : Type}

/-- Failures of the recognizer arise from the cursor it was run at. -/
def FailsOnward (parser : Parser α) : Prop :=
  ∀ ⦃cursor failure⦄, parser cursor = .error failure → failure.Arises cursor

theorem refuse_arises {cursor : Cursor} {condition : String} {failure : Failure}
    (failed : (refuse cursor condition : Outcome α) = .error failure) : failure.Arises cursor := by
  obtain rfl := Except.error.inj failed
  exact .unsatisfied condition (.refl cursor)

theorem exhaust_arises {outcome : Outcome α} {cursor : Cursor} {failure : Failure}
    (failed : outcome.mapError Failure.exhaust = .error failure)
    (arises : ∀ last, outcome = .error last → last.Arises cursor) : failure.Arises cursor := by
  cases outcome with
  | error last =>
    obtain rfl := Except.error.inj failed
    exact (arises last rfl).exhaust
  | ok => cases failed

theorem literalFrom_arises {whole : String} {expected : List Char} {cursor : Cursor}
    {failure : Failure} (failed : literalFrom whole expected cursor = .error failure) :
    failure.Arises cursor := by
  induction expected generalizing cursor with
  | nil => cases failed
  | cons unit rest ih =>
    cases cursor with
    | ended source =>
      obtain rfl := Except.error.inj failed
      exact .endOfSource
    | valid source position =>
      by_cases same : source.units[position]! = unit
      · have onward : literalFrom whole rest (Cursor.valid source position).next =
            .error failure := by
          simpa [literalFrom,Cursor.read,Cursor.value,same] using failed
        exact (ih onward).of_reaches (.next _)
      · simp only [literalFrom,Cursor.read,Cursor.value,same,if_false] at failed
        obtain rfl := Except.error.inj failed
        exact .unsatisfied _ (.refl _)

namespace FailsOnward
variable {parser second : Parser α} {following : Cursor → α → Cursor → Outcome β}

theorem any : FailsOnward Parser.any := by
  intro cursor failure failed
  cases cursor with
  | valid => cases failed
  | ended source =>
    obtain rfl := Except.error.inj failed
    exact .endOfSource

theorem andThen (fails : parser.FailsOnward)
    (later : ∀ ⦃cursor value next failure⦄, parser cursor = .ok (value,next) →
      following cursor value next = .error failure → failure.Arises cursor) :
    (parser.andThen following).FailsOnward := by
  intro cursor failure failed
  unfold Parser.andThen at failed
  cases ran : parser cursor with
  | error =>
    rw [ran] at failed
    obtain rfl := Except.error.inj failed
    exact fails ran
  | ok found =>
    rw [ran] at failed
    exact later ran failed

theorem andThen_ok {give : Cursor → α → Cursor → β × Cursor} (fails : parser.FailsOnward) :
    (parser.andThen fun cursor value next => .ok (give cursor value next)).FailsOnward :=
  fails.andThen fun _ _ _ _ _ failed => nomatch failed

/-- A stage that keeps some values and refuses the others where it began. -/
theorem andThen_refuse {pass : α → Prop} [DecidablePred pass] {condition : α → String}
    (fails : parser.FailsOnward) :
    (parser.andThen fun cursor value next =>
      if pass value then .ok (value,next) else refuse cursor (condition value)).FailsOnward := by
  apply fails.andThen
  intro cursor value next failure _ failed
  split at failed
  · cases failed
  · exact refuse_arises failed

theorem exactly (expected : Char) : (Parser.exactly expected).FailsOnward := by
  rw [exactly_eq_andThen]
  exact any.andThen_refuse

theorem oneOf (letters : List Char) : (Parser.oneOf letters).FailsOnward := by
  rw [oneOf_eq_andThen]
  exact any.andThen_refuse

theorem endOfSource : FailsOnward Parser.endOfSource := by
  intro cursor failure failed
  unfold Parser.endOfSource at failed
  split at failed
  · cases failed
  · exact refuse_arises failed

theorem literal (whole : String) : (Parser.literal whole).FailsOnward := by
  intro cursor failure failed
  unfold Parser.literal at failed
  cases ran : literalFrom whole whole.toList cursor with
  | error =>
    rw [ran] at failed
    obtain rfl := Except.error.inj failed
    exact literalFrom_arises ran
  | ok =>
    rw [ran] at failed
    cases failed

theorem filter (fails : parser.FailsOnward) (pass : α → Bool) (condition : String) :
    (parser.filter pass condition).FailsOnward := by
  rw [filter_eq_andThen]
  exact fails.andThen_refuse

theorem map (fails : parser.FailsOnward) (change : α → β) : (parser.map change).FailsOnward := by
  rw [map_eq_andThen]
  exact fails.andThen_ok

theorem bind {continuation : α → Parser β} (fails : parser.FailsOnward)
    (advances : parser.Advances) (later : ∀ value, (continuation value).FailsOnward) :
    (parser.bind continuation).FailsOnward := by
  rw [bind_eq_andThen]
  apply fails.andThen
  intro cursor value next failure ran failed
  exact (later value failed).of_reaches (advances ran)

theorem seq {other : Parser β} (fails : parser.FailsOnward) (advances : parser.Advances)
    (later : other.FailsOnward) : (parser.seq other).FailsOnward := by
  rw [seq_eq_andThen]
  apply fails.andThen
  intro cursor left middle failure ran failed
  exact (later.map _ failed).of_reaches (advances ran)

theorem orElse (later : second.FailsOnward) : (parser.orElse second).FailsOnward := by
  intro cursor failure failed
  unfold Parser.orElse at failed
  split at failed
  · cases failed
  · exact exhaust_arises failed fun _ ran => later ran

theorem firstMatch {rest : List (Parser α)} (fails : parser.FailsOnward)
    (others : ∀ later ∈ rest, later.FailsOnward) : (Parser.firstMatch parser rest).FailsOnward := by
  induction rest generalizing parser with
  | nil => exact fails
  | cons second rest ih =>
    intro cursor failure failed
    unfold Parser.firstMatch at failed
    split at failed
    · cases failed
    · have remaining := ih (others second List.mem_cons_self) fun later member =>
        others later (List.mem_cons_of_mem _ member)
      exact remaining failed

theorem choice {rest : List (Parser α)} (fails : parser.FailsOnward)
    (others : ∀ later ∈ rest, later.FailsOnward) : (Parser.choice parser rest).FailsOnward := by
  intro cursor failure failed
  exact exhaust_arises failed fun _ ran => fails.firstMatch others ran

theorem many1 (fails : parser.FailsOnward) : parser.many1.FailsOnward := by
  rw [many1_eq_andThen]
  exact fails.andThen_ok

theorem lookAhead (fails : parser.FailsOnward) : parser.lookAhead.FailsOnward := by
  rw [lookAhead_eq_andThen]
  exact fails.andThen_ok

theorem optional : parser.optional.FailsOnward := by
  intro cursor failure failed
  unfold Parser.optional at failed
  split at failed <;> cases failed

theorem notFollowedBy : parser.notFollowedBy.FailsOnward := by
  intro cursor failure failed
  unfold Parser.notFollowedBy at failed
  split at failed
  · exact refuse_arises failed
  · cases failed

theorem label (fails : parser.FailsOnward) (what : String) : (parser.label what).FailsOnward := by
  intro cursor failure failed
  unfold Parser.label at failed
  cases ran : parser cursor with
  | ok =>
    rw [ran] at failed
    cases failed
  | error inner =>
    have arises := fails ran
    rw [ran] at failed
    -- Two kinds of failure pass through a label as they are; the others are told anew.
    cases inner with
    | endOfSource | unimplemented =>
      obtain rfl := Except.error.inj failed
      exact arises
    | unsatisfied | exhausted => exact refuse_arises failed

theorem withSpan (fails : parser.FailsOnward) : parser.withSpan.FailsOnward := by
  rw [withSpan_eq_andThen]
  exact fails.andThen_ok

theorem recognize (fails : parser.FailsOnward) : parser.recognize.FailsOnward :=
  fails.withSpan.map _

theorem lexeme (fails : parser.FailsOnward) (advances : parser.Advances) :
    parser.lexeme.FailsOnward := by
  apply FailsOnward.map
  apply fails.seq advances
  apply FailsOnward.map
  intro cursor failure failed
  cases failed

end FailsOnward

end Parser

namespace Grammar
variable {α : Type}
open TamilScript.Parser

theorem run_failsOnward (grammar : Grammar α) : FailsOnward grammar.run := by
  induction grammar with
  | any => exact .any
  | exactly expected => exact .exactly expected
  | oneOf letters => exact .oneOf letters
  | endOfSource => exact .endOfSource
  | literal whole => exact .literal whole
  | succeed | many =>
    intro cursor failure failed
    cases failed
  | fail => exact fun _ _ failed => refuse_arises failed
  | unimplemented rule =>
    intro cursor failure failed
    obtain rfl := Except.error.inj failed
    exact .unimplemented rule (.refl cursor)
  | filter pass condition _ ih => exact ih.filter pass condition
  | map change _ ih => exact ih.map change
  | bind grammar _ ih continued => exact ih.bind grammar.run_advances continued
  | seq first _ ih after => exact ih.seq first.run_advances after
  | orElse _ _ _ other => exact other.orElse
  | alternatives nth ih =>
    apply (ih 0).choice
    intro later member
    obtain ⟨i,rfl⟩ := List.mem_ofFn.mp member
    exact ih i.succ
  | many1 _ ih => exact ih.many1
  | optional => exact .optional
  | notFollowedBy => exact .notFollowedBy
  | lookAhead _ ih => exact ih.lookAhead
  | label what _ ih => exact ih.label what
  | withSpan _ ih => exact ih.withSpan
  | recognize _ ih => exact ih.recognize
  | lexeme grammar ih => exact ih.lexeme grammar.run_advances

/-- A failed run and every cause it tells of lie in the source between the start of the run and the
end of the source and split it there; units are only ever missing at the end. An exhausted choice has
a cause, and its cause is neither an exhausted choice nor caused by anything. -/
theorem run_failure_places (grammar : Grammar α) (source : Source) (cursor : Cursor)
    (reached : (Cursor.start source).Reaches cursor) (failure : Failure)
    (failed : grammar.run cursor = .error failure) :
    ∀ told ∈ failure.chain,
      told.location.source = source ∧
      cursor.position ≤ told.position ∧ told.position ≤ source.size ∧
      (source.before told.position).units.toList ++ told.remaining = source.units.toList ∧
      (∀ location, told = .endOfSource location →
        told.position = source.size ∧ told.remaining = []) ∧
      (∀ last, told = .exhausted last → told.cause? = some last ∧ last.kind ≠ .exhausted) ∧
      ∀ cause, told.cause? = some cause → cause.cause? = none := by
  intro told member
  have same : cursor.source = source := by rw [reached.source_eq,Cursor.source_start]
  have canonical := reached.canonical (Cursor.start_canonical source)
  have arises := (grammar.run_failsOnward failed).of_mem_chain member
  have within : told.location.source = source := by rw [arises.source_eq,same]
  obtain ⟨onward,bound⟩ := arises.position_bounds canonical
  rw [same] at bound
  have rest : told.remaining = source.suffix told.position := by
    rw [← within]
    rfl
  refine ⟨within,onward,bound,?_,?_,?_,?_⟩
  · rw [rest,Source.units_before]
    exact List.take_append_drop told.position source.units.toList
  · intro location missing
    have position : told.position = source.size := by
      rw [missing] at arises ⊢
      rw [← same,arises.of_endOfSource]
      rfl
    refine ⟨position,?_⟩
    rw [rest,position]
    exact List.drop_eq_nil_of_le (Nat.le_refl _)
  · rintro last rfl
    exact ⟨rfl,arises.last_not_exhausted⟩
  · intro cause caused
    exact arises.cause_cause? caused

theorem truncated_choice_places :
    let source := Source.ofString "xகா"
    let sign := choice ((exactly 'ி').label "i") [(exactly 'ீ').orElse any]
    let grammar := (oneOf ['க']).seq ((exactly 'ா').seq sign)
    let cursor := (Cursor.start source).next
    let missing := Failure.endOfSource ⟨source,3⟩
    grammar.run cursor = .error (.exhausted missing) ∧
    missing ∈ (Failure.exhausted missing).chain ∧
    cursor.position ≤ missing.position ∧ missing.position = source.size ∧
    missing.remaining = [] ∧ (Failure.exhausted missing).cause? = some missing ∧
    missing.kind ≠ .exhausted ∧ missing.cause? = none := by
  intro source sign grammar cursor missing
  have ran : grammar.run cursor = .error (.exhausted missing) := rfl
  have inside : missing ∈ (Failure.exhausted missing).chain := by decide
  have places := run_failure_places grammar source cursor (.next _) _ ran
  obtain ⟨_,onward,_,_,ends,_⟩ := places missing inside
  obtain ⟨_,_,_,_,_,caused,single⟩ := places (.exhausted missing) (by decide)
  obtain ⟨position,rest⟩ := ends _ rfl
  obtain ⟨cause,other⟩ := caused missing rfl
  exact ⟨ran,inside,onward,position,rest,cause,other,single missing rfl⟩

end Grammar

end TamilScript
