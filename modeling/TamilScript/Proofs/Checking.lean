import Mathlib.Data.Fin.Tuple.Basic
import Mathlib.Data.List.FinRange
import TamilScript.Grammar.Access
import TamilScript.Grammar.Checked
import TamilScript.Proofs.Stages

/-! Checked runs and accesses. A checked run has the outcome of the run where every access of the run
is in range, and has none where one of them is not; so what a run asks of its source is what its
accesses list. This holds at every cursor, whatever its position. -/
namespace TamilScript

namespace Access
variable {α β : Type} {asked later : List Access}

/-- What was found, where the source has all that was asked for. -/
def granted (asked : List Access) (found : α) : Option α :=
  if ∀ access ∈ asked, access.InRange then some found else none

theorem granted_nil (found : α) : granted [] found = some found := if_pos (by simp)

theorem granted_eq_some (inRange : ∀ access ∈ asked, access.InRange) (found : α) :
    granted asked found = some found := if_pos inRange

theorem map_granted (change : α → β) (found : α) :
    (granted asked found).map change = granted asked (change found) := by
  unfold granted
  split <;> rfl

theorem bind_granted {further : α → Option β} {found : α} {last : β}
    (onward : further found = granted later last) :
    (granted asked found).bind further = granted (asked ++ later) last := by
  by_cases here : ∀ access ∈ asked, access.InRange
  · rw [granted_eq_some here,Option.bind_some,onward]
    have whole : (∀ access ∈ asked ++ later, access.InRange) ↔ ∀ access ∈ later, access.InRange := by
      rw [List.forall_mem_append]
      exact and_iff_right here
    exact if_congr whole.symm rfl rfl
  · have neither : ¬∀ access ∈ asked ++ later, access.InRange := fun both =>
      here fun access member => both access (List.mem_append_left _ member)
    rw [granted,granted,if_neg here,if_neg neither]
    rfl

end Access

open Access

theorem Span.text?_eq (span : Span) : span.text? = granted [.stretch span] span.text := by
  by_cases inRange : span.InRange
  · rw [text?_eq_some inRange,granted_eq_some (by simpa [Access.InRange] using inRange)]
  · simp [text?,slice?,granted,Access.InRange,inRange]

theorem Cursor.read?_eq (cursor : Cursor) : cursor.read? = granted cursor.accesses cursor.read := by
  cases cursor with
  | valid source position =>
    by_cases inside : position < source.units.size
    · simp [read?,read,value,accesses,granted,Access.InRange,Source.size,inside]
    · simp [read?,accesses,granted,Access.InRange,Source.size,inside]
  | ended source => exact (granted_nil _).symm

namespace Parser
variable {α β : Type} {parser : Parser α} {cursor : Cursor} {asked : List Access}
  {following : Cursor → α → Cursor → Outcome β}

theorem onward_granted {further : α → Cursor → Option (Outcome β)}
    {later : α → Cursor → List Access}
    (onward : ∀ value next, parser cursor = .ok (value,next) →
      further value next = granted (later value next) (following cursor value next)) :
    Outcome.onward (granted asked (parser cursor)) further =
      granted (asked ++ (parser cursor).after later) (parser.andThen following cursor) := by
  apply bind_granted
  unfold andThen Outcome.after
  cases ran : parser cursor with
  | error => exact (granted_nil _).symm
  | ok found => exact onward found.1 found.2 ran

theorem onward_granted_some {further : α → Cursor → Option (Outcome β)}
    (onward : ∀ value next, further value next = some (following cursor value next)) :
    Outcome.onward (granted asked (parser cursor)) further =
      granted asked (parser.andThen following cursor) := by
  have ended : (parser cursor).after (fun _ _ => ([] : List Access)) = [] := by
    cases parser cursor <;> rfl
  rw [onward_granted fun value next _ => (onward value next).trans (granted_nil _).symm,ended,
    List.append_nil]

theorem exactlyChecked_eq (expected : Char) (cursor : Cursor) :
    exactlyChecked expected cursor = granted cursor.accesses (exactly expected cursor) := by
  rw [exactlyChecked,cursor.read?_eq,exactly_eq_andThen]
  exact onward_granted_some fun _ _ => rfl

theorem oneOfChecked_eq (letters : List Char) (cursor : Cursor) :
    oneOfChecked letters cursor = granted cursor.accesses (oneOf letters cursor) := by
  rw [oneOfChecked,cursor.read?_eq,oneOf_eq_andThen]
  exact onward_granted_some fun _ _ => rfl

theorem endOfSourceChecked_eq (cursor : Cursor) :
    endOfSourceChecked cursor = granted cursor.accesses (endOfSource cursor) := by
  rw [endOfSourceChecked,cursor.read?_eq,map_granted]
  cases cursor <;> rfl

theorem literalChecked_eq (whole : String) (expected : List Char) (cursor : Cursor) :
    literalChecked whole expected cursor =
      granted (literalAccesses expected cursor) (literalFrom whole expected cursor) := by
  induction expected generalizing cursor with
  | nil => exact (granted_nil _).symm
  | cons unit rest ih =>
    rw [literalChecked,cursor.read?_eq,literalAccesses,literalFrom]
    apply bind_granted
    cases cursor.read with
    | error => exact (granted_nil _).symm
    | ok read =>
      by_cases same : read.1 = unit
      · simp only [same,if_true,Outcome.after,ih]
      · simp only [same,if_false,Outcome.after,granted_nil]

theorem whitespaceChecked_eq (cursor : Cursor) :
    whitespaceChecked cursor = granted cursor.accesses (whitespace cursor) := by
  rw [whitespaceChecked,judged,cursor.read?_eq,map_granted]
  rfl

/-- A loop asks for what its attempts ask for. -/
theorem repeatedChecked_eq {checked : Cursor → Option (Outcome α)} {asked : Cursor → List Access}
    (each : ∀ place, checked place = granted (asked place) (parser place)) (cursor : Cursor) :
    repeatedChecked checked cursor =
      granted ((attempts parser cursor).flatMap asked) (repeated parser cursor) := by
  fun_induction attempts parser cursor with
  | case1 cursor failure ran =>
    rw [repeatedChecked,each,List.flatMap_cons,repeated]
    apply bind_granted
    rw [ran]
    exact (granted_nil _).symm
  | case2 cursor value next ran shorter ih =>
    rw [repeatedChecked,each,List.flatMap_cons,repeated]
    apply bind_granted
    simp only [ran,shorter,if_true,ih,map_granted]
  | case3 cursor value next ran idle =>
    rw [repeatedChecked,each,List.flatMap_cons,repeated]
    apply bind_granted
    simp only [ran,idle,if_false]
    exact (granted_nil _).symm

theorem filter_earlier {more : Nat} (fails : Fin (more + 1) → Prop) [DecidablePred fails] :
    ((List.finRange more).filter fun i => ∀ j < i.succ, fails j) =
      if fails 0 then (List.finRange more).filter fun i => ∀ j < i, fails j.succ else [] := by
  have earlier (i : Fin more) : (∀ j < i.succ, fails j) ↔ fails 0 ∧ ∀ j < i, fails j.succ := by
    simp [Fin.forall_fin_succ]
  split
  · next failed =>
    apply List.filter_congr
    intro i _
    rw [decide_eq_decide,earlier]
    exact and_iff_right failed
  · next matched =>
    apply List.filter_eq_nil_iff.mpr
    intro i _
    rw [decide_eq_true_eq,earlier]
    exact fun both => matched both.1

/-- An alternative is asked only if those before it fail. -/
theorem firstMatchWithin_granted {more : Nat} (parser : Fin (more + 1) → Parser α)
    (asked : Fin (more + 1) → List Access) (cursor : Cursor) :
    firstMatchWithin (granted (asked 0) (parser 0 cursor))
      (List.ofFn fun i => granted (asked i.succ) (parser i.succ cursor)) =
    granted (((List.finRange (more + 1)).filter fun i =>
        ∀ j < i, (parser j cursor).isOk = false).flatMap asked)
      (firstMatch (parser 0) (List.ofFn fun i => parser i.succ) cursor) := by
  induction more with
  | zero =>
    rw [List.finRange_succ,List.finRange_zero]
    simp [firstMatchWithin,firstMatch]
  | succ more ih =>
    rw [List.ofFn_succ,List.ofFn_succ,firstMatchWithin,firstMatch,List.finRange_succ,
      List.filter_cons_of_pos (by simp),List.flatMap_cons,List.filter_map,List.flatMap_map]
    apply bind_granted
    -- What is asked after the first alternative is what the rest asks, and only if the first fails.
    show _ = granted (((List.finRange (more + 1)).filter fun i =>
      ∀ j < i.succ, (parser j cursor).isOk = false).flatMap _) _
    rw [filter_earlier fun j => (parser j cursor).isOk = false]
    cases ran : parser 0 cursor with
    | ok found => exact (granted_nil _).symm
    | error failure => exact ih (fun i => parser i.succ) fun i => asked i.succ

end Parser

namespace Grammar
variable {α : Type}
open TamilScript.Parser

/-- At every cursor a checked run comes to the outcome of the run or to none: to the outcome if and
only if each access of the run is in range. -/
theorem runChecked_eq (grammar : Grammar α) (cursor : Cursor) :
    grammar.runChecked cursor = granted (grammar.accesses cursor) (grammar.run cursor) := by
  induction grammar generalizing cursor with
  | any => exact cursor.read?_eq
  | exactly expected => exact exactlyChecked_eq expected cursor
  | oneOf letters => exact oneOfChecked_eq letters cursor
  | endOfSource => exact endOfSourceChecked_eq cursor
  | literal whole =>
    rw [runChecked,literalChecked_eq,map_granted]
    rfl
  | succeed | fail | unimplemented => exact (granted_nil _).symm
  | filter _ _ _ ih | map _ _ ih | optional _ ih | notFollowedBy _ ih | lookAhead _ ih
  | label _ _ ih | withSpan _ ih =>
    rw [runChecked,ih,judged,map_granted]
    rfl
  | bind grammar continuation ih continued =>
    rw [runChecked,ih,run,bind_eq_andThen]
    exact onward_granted fun value next _ => continued value next
  | seq first second ih after =>
    rw [runChecked,ih,run,seq_eq_andThen]
    apply onward_granted
    intro left middle _
    rw [after,map_eq_andThen]
    exact onward_granted_some fun _ _ => rfl
  | orElse first second ih other =>
    rw [runChecked,ih,run,accesses]
    apply bind_granted
    unfold Parser.orElse
    cases ran : first.run cursor with
    | ok found => exact (granted_nil _).symm
    | error => exact (congrArg _ (other cursor)).trans (map_granted _ _)
  | alternatives nth ih =>
    have tried := firstMatchWithin_granted (fun i => (nth i).run) (fun i => (nth i).accesses cursor)
      cursor
    simp only [runChecked,ih]
    exact (congrArg _ tried).trans (map_granted _ _)
  | many grammar ih =>
    rw [runChecked,repeatedChecked_eq ih,map_granted]
    rfl
  | many1 grammar ih =>
    rw [runChecked,ih,run,many1_eq_andThen]
    apply onward_granted
    intro value next _
    rw [repeatedChecked_eq ih,map_granted]
  | recognize grammar ih =>
    rw [runChecked,ih,run,recognize_eq_andThen]
    apply onward_granted
    intro value next _
    rw [Span.text?_eq,map_granted]
  | lexeme grammar ih =>
    rw [runChecked,ih,run,lexeme_eq_andThen]
    apply onward_granted
    intro value next _
    rw [repeatedChecked_eq whitespaceChecked_eq,map_granted]

example : any.runChecked (.valid (Source.ofString "க") 1) = none := by decide

end Grammar

end TamilScript
