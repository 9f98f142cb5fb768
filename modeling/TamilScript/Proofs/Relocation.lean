import Mathlib.Control.Monad.Basic
import TamilScript.Cursor.Behind
import TamilScript.Proofs.Stages
import TamilScript.Cluster

/-! Only unread units count. A run over a source that stands behind another one takes the same
course as over the source alone: the same values, the same complaints, every place moved by the size of
what stands in front. Spans hold absolute places, so a grammar that yields them is set apart; the
text of a span has no place. -/
namespace TamilScript

def Outcome.behind {α : Type} (prior : Source) : Outcome α → Outcome α
  | .ok (value,last) => .ok (value,last.behind prior)
  | .error failure => .error (failure.behind prior)

namespace Outcome
variable {α : Type}

/-- Both matched with one value or both failed alike, the second a distance further on. -/
inductive Displaced (distance : Nat) : Outcome α → Outcome α → Prop
  | ok {near far : Cursor} (value : α) (moved : far.position = distance + near.position) :
      Displaced distance (.ok (value,near)) (.ok (value,far))
  | error {near far : Failure} (displaced : Failure.Displaced distance near far) :
      Displaced distance (.error near) (.error far)

theorem behind_displaced (prior : Source) (outcome : Outcome α) :
    Displaced prior.size outcome (outcome.behind prior) := by
  cases outcome with
  | error failure => exact .error (failure.behind_displaced prior)
  | ok found => exact .ok found.1 (found.2.position_behind prior)

end Outcome

namespace Parser
variable {α β : Type}

/-- The recognizer does behind other units what it does without them. -/
def Relocates (parser : Parser α) : Prop :=
  ∀ (prior : Source) (cursor : Cursor), parser (cursor.behind prior) = (parser cursor).behind prior

section Operations
variable (prior : Source) (cursor : Cursor)

theorem read_behind : (cursor.behind prior).read = Outcome.behind prior cursor.read := by
  unfold Cursor.read
  rw [Cursor.value_behind,Cursor.next_behind]
  cases cursor.value <;> rfl

theorem refuse_behind (condition : String) :
    (refuse (cursor.behind prior) condition : Outcome α) =
      (refuse cursor condition : Outcome α).behind prior := by
  unfold refuse
  rw [Cursor.location_behind]
  rfl

theorem exhaust_behind (outcome : Outcome α) :
    (outcome.behind prior).mapError Failure.exhaust =
      Outcome.behind prior (outcome.mapError Failure.exhaust) := by
  cases outcome with
  | error failure => exact congrArg Except.error (Failure.exhaust_behind prior failure)
  | ok => rfl

theorem literalFrom_behind (whole : String) (expected : List Char) :
    literalFrom whole expected (cursor.behind prior) =
      match literalFrom whole expected cursor with
      | .ok last => .ok (last.behind prior)
      | .error failure => .error (failure.behind prior) := by
  induction expected generalizing cursor with
  | nil => rfl
  | cons unit rest ih =>
    unfold literalFrom
    rw [read_behind,Cursor.location_behind]
    cases cursor.read with
    | error => rfl
    | ok found =>
      obtain ⟨found,next⟩ := found
      simp only [Outcome.behind]
      split
      · exact ih next
      · rfl

end Operations

namespace Relocates
variable {parser second : Parser α} {following : Cursor → α → Cursor → Outcome β}

theorem any : Relocates Parser.any := read_behind

theorem andThen (relocates : parser.Relocates)
    (later : ∀ prior cursor value next,
      following (cursor.behind prior) value (next.behind prior) =
        (following cursor value next).behind prior) :
    (parser.andThen following).Relocates := by
  intro prior cursor
  unfold Parser.andThen
  rw [relocates]
  cases parser cursor with
  | error => rfl
  | ok found => exact later prior cursor found.1 found.2

/-- A stage that keeps some values and refuses the others where it began. -/
theorem andThen_refuse {pass : α → Prop} [DecidablePred pass] {condition : α → String}
    (relocates : parser.Relocates) :
    (parser.andThen fun cursor value next =>
      if pass value then .ok (value,next) else refuse cursor (condition value)).Relocates := by
  apply relocates.andThen
  intro prior cursor value next
  split
  · rfl
  · exact refuse_behind prior cursor _

theorem exactly (expected : Char) : (Parser.exactly expected).Relocates := by
  rw [exactly_eq_andThen]
  exact any.andThen_refuse

theorem oneOf (letters : List Char) : (Parser.oneOf letters).Relocates := by
  rw [oneOf_eq_andThen]
  exact any.andThen_refuse

theorem endOfSource : Relocates Parser.endOfSource := by
  intro prior cursor
  unfold Parser.endOfSource
  rw [Cursor.value_behind]
  cases cursor.value with
  | error => rfl
  | ok => exact refuse_behind prior cursor _

theorem literal (whole : String) : (Parser.literal whole).Relocates := by
  intro prior cursor
  unfold Parser.literal
  rw [literalFrom_behind]
  cases literalFrom whole whole.toList cursor <;> rfl

theorem filter (relocates : parser.Relocates) (pass : α → Bool) (condition : String) :
    (parser.filter pass condition).Relocates := by
  rw [filter_eq_andThen]
  exact relocates.andThen_refuse

theorem map (relocates : parser.Relocates) (change : α → β) : (parser.map change).Relocates := by
  rw [map_eq_andThen]
  exact relocates.andThen fun _ _ _ _ => rfl

theorem bind {continuation : α → Parser β} (relocates : parser.Relocates)
    (later : ∀ value, (continuation value).Relocates) : (parser.bind continuation).Relocates := by
  rw [bind_eq_andThen]
  exact relocates.andThen fun prior _ value next => later value prior next

theorem seq {other : Parser β} (relocates : parser.Relocates) (later : other.Relocates) :
    (parser.seq other).Relocates := by
  rw [seq_eq_andThen]
  exact relocates.andThen fun prior _ left middle => later.map (fun right => (left,right)) prior middle

theorem orElse (relocates : parser.Relocates) (later : second.Relocates) :
    (parser.orElse second).Relocates := by
  intro prior cursor
  unfold Parser.orElse
  rw [relocates,later]
  cases parser cursor with
  | ok => rfl
  | error => exact exhaust_behind prior (second cursor)

theorem firstMatch {rest : List (Parser α)} (relocates : parser.Relocates)
    (others : ∀ later ∈ rest, later.Relocates) : (Parser.firstMatch parser rest).Relocates := by
  induction rest generalizing parser with
  | nil => exact relocates
  | cons second rest ih =>
    have remaining := ih (others second List.mem_cons_self) fun later member =>
      others later (List.mem_cons_of_mem _ member)
    intro prior cursor
    unfold Parser.firstMatch
    rw [relocates,remaining]
    cases parser cursor <;> rfl

theorem choice {rest : List (Parser α)} (relocates : parser.Relocates)
    (others : ∀ later ∈ rest, later.Relocates) : (Parser.choice parser rest).Relocates := by
  intro prior cursor
  unfold Parser.choice
  rw [relocates.firstMatch others]
  exact exhaust_behind prior _

/-- The loop takes as many turns, since as many units are left before each of them. -/
theorem repeated (relocates : parser.Relocates) (prior : Source) (cursor : Cursor) :
    Parser.repeated parser (cursor.behind prior) =
      ((Parser.repeated parser cursor).1,(Parser.repeated parser cursor).2.behind prior) := by
  fun_induction Parser.repeated parser cursor with
  | case1 cursor failure ran =>
    rw [Parser.repeated,relocates,ran]
    rfl
  | case2 cursor value next ran shorter values last again ih =>
    rw [Parser.repeated,relocates,ran]
    simp only [Outcome.behind,Cursor.remaining_behind,shorter,if_true,ih,again]
  | case3 cursor value next ran idle =>
    rw [Parser.repeated,relocates,ran]
    simp only [Outcome.behind,Cursor.remaining_behind,idle,if_false]

theorem many (relocates : parser.Relocates) : parser.many.Relocates := by
  intro prior cursor
  unfold Parser.many
  rw [relocates.repeated]
  rfl

theorem many1 (relocates : parser.Relocates) : parser.many1.Relocates := by
  rw [many1_eq_andThen]
  apply relocates.andThen
  intro prior cursor value next
  rw [relocates.repeated]
  rfl

theorem optional (relocates : parser.Relocates) : parser.optional.Relocates := by
  intro prior cursor
  unfold Parser.optional
  rw [relocates]
  cases parser cursor <;> rfl

theorem notFollowedBy (relocates : parser.Relocates) : parser.notFollowedBy.Relocates := by
  intro prior cursor
  unfold Parser.notFollowedBy
  rw [relocates]
  cases parser cursor with
  | error => rfl
  | ok => exact refuse_behind prior cursor _

theorem lookAhead (relocates : parser.Relocates) : parser.lookAhead.Relocates := by
  rw [lookAhead_eq_andThen]
  exact relocates.andThen fun _ _ _ _ => rfl

theorem label (relocates : parser.Relocates) (what : String) : (parser.label what).Relocates := by
  intro prior cursor
  unfold Parser.label
  rw [relocates]
  cases parser cursor with
  | ok => rfl
  | error failure =>
    cases failure with
    | endOfSource | unimplemented => rfl
    | unsatisfied | exhausted => exact refuse_behind prior cursor _

theorem recognize (relocates : parser.Relocates) : parser.recognize.Relocates := by
  rw [recognize_eq_andThen]
  apply relocates.andThen
  intro prior cursor value next
  rw [Span.text_between_behind]
  rfl

theorem skipWhitespace : Relocates Parser.skipWhitespace :=
  (any.filter isBlank "expected whitespace").many.map fun _ => ()

theorem lexeme (relocates : parser.Relocates) : parser.lexeme.Relocates :=
  (relocates.seq skipWhitespace).map Prod.fst

end Relocates

end Parser

namespace Grammar
variable {α : Type}
open TamilScript.Parser

/-- No part of the grammar yields spans, whatever the values before it. -/
def SpanFree : {α : Type} → Grammar α → Prop
  | _, withSpan _ => False
  | _, any | _, exactly _ | _, oneOf _ | _, endOfSource | _, literal _ => True
  | _, succeed _ | _, fail _ | _, unimplemented _ => True
  | _, filter _ _ grammar | _, map _ grammar | _, label _ grammar => grammar.SpanFree
  | _, bind grammar continuation => grammar.SpanFree ∧ ∀ value, (continuation value).SpanFree
  | _, seq first second => first.SpanFree ∧ second.SpanFree
  | _, orElse first second => first.SpanFree ∧ second.SpanFree
  | _, alternatives nth => ∀ i, (nth i).SpanFree
  | _, many grammar | _, many1 grammar | _, optional grammar => grammar.SpanFree
  | _, notFollowedBy grammar | _, lookAhead grammar => grammar.SpanFree
  | _, recognize grammar | _, lexeme grammar => grammar.SpanFree

theorem run_relocates (grammar : Grammar α) (free : grammar.SpanFree) :
    Relocates grammar.run := by
  induction grammar with
  | any => exact .any
  | exactly expected => exact .exactly expected
  | oneOf letters => exact .oneOf letters
  | endOfSource => exact .endOfSource
  | literal whole => exact .literal whole
  | succeed => exact fun _ _ => rfl
  | fail condition => exact fun prior cursor => refuse_behind prior cursor condition
  | unimplemented rule =>
    intro prior cursor
    exact congrArg (fun location => Except.error (Failure.unimplemented rule location))
      (cursor.location_behind prior)
  | filter pass condition _ ih => exact (ih free).filter pass condition
  | map change _ ih => exact (ih free).map change
  | bind _ _ ih continued => exact (ih free.1).bind fun value => continued value (free.2 value)
  | seq _ _ ih after => exact (ih free.1).seq (after free.2)
  | orElse _ _ ih other => exact (ih free.1).orElse (other free.2)
  | alternatives nth ih =>
    apply (ih 0 (free 0)).choice
    intro later member
    obtain ⟨i,rfl⟩ := List.mem_ofFn.mp member
    exact ih i.succ (free i.succ)
  | many _ ih => exact (ih free).many
  | many1 _ ih => exact (ih free).many1
  | optional _ ih => exact (ih free).optional
  | notFollowedBy _ ih => exact (ih free).notFollowedBy
  | lookAhead _ ih => exact (ih free).lookAhead
  | label what _ ih => exact (ih free).label what
  | withSpan => exact free.elim
  | recognize _ ih => exact (ih free).recognize
  | lexeme _ ih => exact (ih free).lexeme

theorem spanFree_choice {first : Grammar α} {rest : List (Grammar α)} (free : first.SpanFree)
    (others : ∀ later ∈ rest, later.SpanFree) : (choice first rest).SpanFree := by
  intro i
  show ((first :: rest).get i).SpanFree
  rcases List.mem_cons.mp (List.get_mem (first :: rest) i) with same | later
  · rw [same]
    exact free
  · exact others _ later

theorem cluster_spanFree : Cluster.cluster.SpanFree := by
  have vowel : Letter.vowel.SpanFree := trivial
  apply spanFree_choice vowel
  intro later member
  rcases List.mem_cons.mp member with rfl | member
  · exact ⟨trivial,trivial⟩
  · obtain rfl := List.mem_singleton.mp member
    exact ⟨⟨trivial,trivial⟩,trivial⟩

theorem sequence_spanFree : Cluster.sequence.SpanFree := ⟨⟨trivial,cluster_spanFree⟩,trivial⟩

/-- The run where one source ends and another one follows has the outcome of the run over the
second source alone, moved by the size of the first. -/
theorem run_unread (grammar : Grammar α) (free : grammar.SpanFree) (first second : Source)
    (cursor : Cursor) (reached : (Cursor.start (first ++ second)).Reaches cursor)
    (stands : cursor.position = first.size) :
    Outcome.Displaced first.size (grammar.parse second) (grammar.run cursor) := by
  have canonical := reached.canonical (Cursor.start_canonical (first ++ second))
  have other := (Cursor.start_canonical second).behind first
  have sources : cursor.source = ((Cursor.start second).behind first).source := by
    rw [reached.source_eq,Cursor.source_behind,Cursor.source_start,Cursor.source_start]
  have positions : cursor.position = ((Cursor.start second).behind first).position := by
    rw [stands,Cursor.position_behind,Cursor.position_start,Nat.add_zero]
  have same := canonical.eq_of_position other sources positions
  rw [same,grammar.run_relocates free]
  exact Outcome.behind_displaced first (grammar.parse second)

theorem sequence_unread :
    let first := Source.ofString "அ "
    let second := Source.ofString "காx"
    let cursor := (Cursor.start (first ++ second)).skip 2
    Cluster.sequence.parse second = .error (.unsatisfied "expected letter cluster" ⟨second,2⟩) ∧
    cursor.position = first.size ∧
    Outcome.Displaced first.size (Cluster.sequence.parse second)
      (Cluster.sequence.run cursor) := by
  intro first second cursor
  have stands : cursor.position = first.size := rfl
  exact ⟨by decide +kernel,stands,
    run_unread _ sequence_spanFree first second cursor ⟨2,rfl⟩ stands⟩

end Grammar

end TamilScript
