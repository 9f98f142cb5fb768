import Mathlib.Control.Monad.Basic
import TamilScript.Grammar.Limited
import TamilScript.Proofs.Advance
import TamilScript.Proofs.Stages

/-! Every run ends. A turn of a repetition ends at another position only if it ends further on, so a
repetition takes no more turns than there are units left, and one to notice that it is done. Runs
inside it begin where it came to, with fewer units left. -/
namespace TamilScript

/-- A limit above the units left stays above them. -/
theorem Cursor.Reaches.below {first last : Cursor} (reached : first.Reaches last)
    (canonical : first.Canonical) {limit : Nat} (enough : first.remaining < limit) :
    last.Canonical ∧ last.remaining < limit := by
  have forward := reached.position_le canonical
  have kept := reached.position_add_remaining canonical
  refine ⟨reached.canonical canonical,?_⟩
  omega

namespace Parser
variable {α β : Type} {parser : Parser α} {cursor : Cursor}

theorem attempts_length (parser : Parser α) (cursor : Cursor) :
    (attempts parser cursor).length = (repeated parser cursor).1.length + 1 := by
  fun_induction attempts parser cursor with
  | case1 cursor failure ran => rw [repeated,ran]; rfl
  | case2 cursor value next ran shorter ih =>
    rw [repeated,ran]
    simp only [shorter,if_true,List.length_cons,ih]
  | case3 cursor value next ran idle =>
    rw [repeated,ran]
    simp only [idle,if_false]
    rfl

/-- Every value is the value of a match that takes a unit. -/
theorem length_repeated_le (advances : parser.Advances) (canonical : cursor.Canonical) :
    cursor.position + (repeated parser cursor).1.length ≤ (repeated parser cursor).2.position := by
  fun_induction repeated parser cursor with
  | case1 | case3 => simp
  | case2 cursor value next ran shorter values last again ih =>
    have reached := advances ran
    have kept := reached.position_add_remaining canonical
    have further := ih (reached.canonical canonical)
    rw [again] at further
    simp only [List.length_cons] at further ⊢
    omega

theorem attempts_length_le (advances : parser.Advances) (canonical : cursor.Canonical) :
    cursor.position + (attempts parser cursor).length ≤ cursor.source.size + 1 := by
  have reached := repeated_reaches advances cursor
  have further := length_repeated_le advances canonical
  have bound := (reached.canonical canonical).position_le
  rw [reached.source_eq] at bound
  rw [attempts_length]
  omega

/-- The loop without a promise comes to its end in as many turns as there are attempts, and in no
fewer. -/
theorem repeatedWithin_eq {limited : Cursor → Option (Outcome α)} (advances : parser.Advances)
    (canonical : cursor.Canonical) (turns : Nat)
    (same : ∀ place, cursor.Reaches place → limited place = some (parser place)) :
    repeatedWithin limited turns cursor =
      if (attempts parser cursor).length ≤ turns then some (repeated parser cursor) else none := by
  induction turns generalizing cursor with
  | zero =>
    rw [attempts_length]
    rfl
  | succ turns ih =>
    rw [attempts_length,repeatedWithin,same cursor (.refl cursor),repeated_eq advances canonical]
    cases ran : parser cursor with
    | error => simp
    | ok found =>
      obtain ⟨value,next⟩ := found
      by_cases idle : next.position = cursor.position
      · simp [idle]
      · have reached := advances ran
        have later := ih (reached.canonical canonical) fun place onward =>
          same place (reached.trans onward)
        rw [attempts_length] at later
        simp only [Option.bind_some,idle,if_false,later,List.length_cons,Nat.add_le_add_iff_right]
        split <;> rfl

theorem repeatedWithin_of_lt {limited : Cursor → Option (Outcome α)} (advances : parser.Advances)
    (canonical : cursor.Canonical) {turns : Nat} (enough : cursor.remaining < turns)
    (same : ∀ place, cursor.Reaches place → limited place = some (parser place)) :
    repeatedWithin limited turns cursor = some (repeated parser cursor) := by
  have few := attempts_length_le advances canonical
  have whole := canonical.position_add_remaining
  rw [repeatedWithin_eq advances canonical turns same,if_pos]
  omega

section Stages
variable {following : Cursor → α → Cursor → Outcome β}

theorem onward_eq_andThen {further : α → Cursor → Option (Outcome β)}
    (same : ∀ value next, parser cursor = .ok (value,next) →
      further value next = some (following cursor value next)) :
    Outcome.onward (some (parser cursor)) further = some (parser.andThen following cursor) := by
  unfold andThen Outcome.onward
  cases ran : parser cursor with
  | error => rfl
  | ok found => exact same found.1 found.2 ran

theorem firstMatchWithin_eq (parser : Parser α) (rest : List (Parser α)) (cursor : Cursor) :
    firstMatchWithin (some (parser cursor)) (rest.map fun later => some (later cursor)) =
      some (firstMatch parser rest cursor) := by
  induction rest generalizing parser with
  | nil => rfl
  | cons second rest ih =>
    rw [List.map_cons,firstMatchWithin,firstMatch]
    cases parser cursor with
    | ok => rfl
    | error => exact ih second

end Stages

end Parser

namespace Grammar
variable {α : Type}
open TamilScript.Parser

theorem runWithin_eq (grammar : Grammar α) {cursor : Cursor} (canonical : cursor.Canonical)
    {limit : Nat} (enough : cursor.remaining < limit) :
    grammar.runWithin limit cursor = some (grammar.run cursor) := by
  induction grammar generalizing cursor with
  | any | exactly | oneOf | endOfSource | literal | succeed | fail | unimplemented => rfl
  | filter _ _ _ ih | map _ _ ih | optional _ ih | notFollowedBy _ ih | lookAhead _ ih
  | label _ _ ih | withSpan _ ih | recognize _ ih =>
    rw [runWithin,ih canonical enough]
    rfl
  | bind grammar continuation ih continued =>
    rw [runWithin,ih canonical enough,run,bind_eq_andThen]
    apply onward_eq_andThen
    intro value next ran
    obtain ⟨onward,few⟩ := (grammar.run_advances ran).below canonical enough
    exact continued value onward few
  | seq first second ih after =>
    rw [runWithin,ih canonical enough,run,seq_eq_andThen]
    apply onward_eq_andThen
    intro left middle ran
    obtain ⟨onward,few⟩ := (first.run_advances ran).below canonical enough
    rw [after onward few,map_eq_andThen]
    exact onward_eq_andThen fun _ _ _ => rfl
  | orElse first second ih other =>
    rw [runWithin,ih canonical enough,other canonical enough,run,Parser.orElse]
    cases first.run cursor <;> rfl
  | alternatives nth ih =>
    have rest : (List.ofFn fun i => (nth i.succ).runWithin limit cursor) =
        (List.ofFn fun i => (nth i.succ).run).map fun later => some (later cursor) := by
      simp only [ih _ canonical enough,List.map_ofFn]
      rfl
    rw [runWithin,ih _ canonical enough,rest,firstMatchWithin_eq]
    rfl
  | many grammar ih =>
    have ends := repeatedWithin_of_lt grammar.run_advances canonical enough fun place reached =>
      ih (reached.below canonical enough).1 (reached.below canonical enough).2
    rw [runWithin,ends]
    rfl
  | many1 grammar ih =>
    rw [runWithin,ih canonical enough,run,many1_eq_andThen]
    apply onward_eq_andThen
    intro value next ran
    obtain ⟨onward,few⟩ := (grammar.run_advances ran).below canonical enough
    have ends := repeatedWithin_of_lt grammar.run_advances onward few fun place reached =>
      ih (reached.below onward few).1 (reached.below onward few).2
    rw [ends]
    rfl
  | lexeme grammar ih =>
    rw [runWithin,ih canonical enough,run,lexeme_eq_andThen]
    apply onward_eq_andThen
    intro value next ran
    obtain ⟨onward,few⟩ := (grammar.run_advances ran).below canonical enough
    rw [repeatedWithin_of_lt whitespace_advances onward few fun _ _ => rfl]
    rfl

/-- A run comes to its outcome under every limit on its repetitions that is above the number of units
left. A repetition takes as many turns as it has attempts, which are at most one for each of these
units and one more; every value but the first that must be there takes a unit. -/
theorem run_ends (grammar : Grammar α) (source : Source) (cursor : Cursor)
    (reached : (Cursor.start source).Reaches cursor) :
    (∀ limit, source.size < cursor.position + limit →
      grammar.runWithin limit cursor = some (grammar.run cursor)) ∧
    (∀ turns, repeatedWithin (fun place => some (grammar.run place)) turns cursor =
      if (attempts grammar.run cursor).length ≤ turns then some (repeated grammar.run cursor)
      else none) ∧
    cursor.position + (attempts grammar.run cursor).length ≤ source.size + 1 ∧
    (∃ values last, grammar.many.run cursor = .ok (values,last) ∧
      cursor.position + values.length ≤ last.position) ∧
    ∀ values last, grammar.many1.run cursor = .ok (values,last) →
      cursor.position + values.length ≤ last.position + 1 := by
  have canonical := reached.canonical (Cursor.start_canonical source)
  have same : cursor.source = source := by rw [reached.source_eq,Cursor.source_start]
  refine ⟨?_,?_,?_,?_,?_⟩
  · intro limit enough
    have whole := canonical.position_add_remaining
    rw [same] at whole
    apply grammar.runWithin_eq canonical
    omega
  · intro turns
    exact repeatedWithin_eq grammar.run_advances canonical turns fun _ _ => rfl
  · rw [← same]
    exact attempts_length_le grammar.run_advances canonical
  · exact ⟨_,_,rfl,length_repeated_le grammar.run_advances canonical⟩
  · intro values last ran
    obtain ⟨first,middle,others,matched,again,rfl⟩ := many1_eq_ok_iff.mp ran
    have onward := grammar.run_advances matched
    have forward := onward.position_le canonical
    have further := length_repeated_le grammar.run_advances (onward.canonical canonical)
    simp only [again] at further
    rw [List.length_cons]
    omega

theorem idle_turn_ends :
    let source := Source.ofString "xa ab"
    let letter : Grammar Bool := (exactly 'a').optional.bind fun found =>
      if found.isSome then skipWhitespace.map fun _ => true else succeed false
    let cursor := (Cursor.start source).next
    letter.many.runWithin 5 cursor = some (.ok ([true,true],.valid source 4)) ∧
    letter.many.runWithin 2 cursor = none ∧ (attempts letter.run cursor).length = 3 := by
  intro source letter cursor
  have ran : letter.many.run cursor = .ok ([true,true],.valid source 4) := by decide +kernel
  obtain ⟨ends,_⟩ := run_ends letter.many source cursor (.next _)
  have enough := ends 5 (by decide +kernel)
  rw [ran] at enough
  exact ⟨enough,by decide +kernel,by decide +kernel⟩

end Grammar

end TamilScript
