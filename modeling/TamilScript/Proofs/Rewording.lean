import Mathlib.Control.Monad.Basic
import TamilScript.Proofs.Matching
import TamilScript.Letter

/-! Words never decide. What a grammar matches depends on none of the texts it fails with, on no label
and on no name of a rule without conditions: combinators ask whether a part failed and never how. -/
namespace TamilScript

/-- The second grammar is the first one in other words: labels are changed or taken away, conditions
are told otherwise, and a rule without conditions has another name or just fails. -/
inductive Grammar.Reworded : {α : Type} → Grammar α → Grammar α → Prop
  | refl {α : Type} (grammar : Grammar α) : Reworded grammar grammar
  | unlabel {α : Type} {grammar other : Grammar α} (what : String)
      (words : Reworded grammar other) : Reworded (label what grammar) other
  | relabel {α : Type} {grammar other : Grammar α} (what more : String)
      (words : Reworded grammar other) : Reworded (label what grammar) (label more other)
  | fail {α : Type} (condition other : String) :
      Reworded (fail condition : Grammar α) (fail other)
  | stub {α : Type} (rule condition : String) :
      Reworded (unimplemented rule : Grammar α) (fail condition)
  | rename {α : Type} (rule other : String) :
      Reworded (unimplemented rule : Grammar α) (unimplemented other)
  | filter {α : Type} {grammar other : Grammar α} (pass : α → Bool) (condition more : String)
      (words : Reworded grammar other) :
      Reworded (filter pass condition grammar) (filter pass more other)
  | map {α β : Type} {grammar other : Grammar α} (change : α → β)
      (words : Reworded grammar other) : Reworded (map change grammar) (map change other)
  | bind {α β : Type} {grammar other : Grammar α} {continuation further : α → Grammar β}
      (words : Reworded grammar other)
      (after : ∀ value, Reworded (continuation value) (further value)) :
      Reworded (bind grammar continuation) (bind other further)
  | seq {α β : Type} {first other : Grammar α} {second further : Grammar β}
      (words : Reworded first other) (after : Reworded second further) :
      Reworded (seq first second) (seq other further)
  | orElse {α : Type} {first second other further : Grammar α}
      (words : Reworded first other) (after : Reworded second further) :
      Reworded (orElse first second) (orElse other further)
  | alternatives {α : Type} {more : Nat} {nth other : Fin (more + 1) → Grammar α}
      (words : ∀ i, Reworded (nth i) (other i)) : Reworded (alternatives nth) (alternatives other)
  | many {α : Type} {grammar other : Grammar α} (words : Reworded grammar other) :
      Reworded (many grammar) (many other)
  | many1 {α : Type} {grammar other : Grammar α} (words : Reworded grammar other) :
      Reworded (many1 grammar) (many1 other)
  | optional {α : Type} {grammar other : Grammar α} (words : Reworded grammar other) :
      Reworded (optional grammar) (optional other)
  | notFollowedBy {α : Type} {grammar other : Grammar α} (words : Reworded grammar other) :
      Reworded (notFollowedBy grammar) (notFollowedBy other)
  | lookAhead {α : Type} {grammar other : Grammar α} (words : Reworded grammar other) :
      Reworded (lookAhead grammar) (lookAhead other)
  | withSpan {α : Type} {grammar other : Grammar α} (words : Reworded grammar other) :
      Reworded (withSpan grammar) (withSpan other)
  | recognize {α : Type} {grammar other : Grammar α} (words : Reworded grammar other) :
      Reworded (recognize grammar) (recognize other)
  | lexeme {α : Type} {grammar other : Grammar α} (words : Reworded grammar other) :
      Reworded (lexeme grammar) (lexeme other)

namespace Parser
variable {α β : Type}

/-- Both match at the same cursors, with the same values and ends. -/
def SameMatches (parser other : Parser α) : Prop :=
  ∀ (cursor : Cursor) (found : α × Cursor), parser cursor = .ok found ↔ other cursor = .ok found

namespace SameMatches
variable {parser other : Parser α} {second further : Parser β}

theorem isOk_eq (same : parser.SameMatches other) (cursor : Cursor) :
    (parser cursor).isOk = (other cursor).isOk := by
  rw [Bool.eq_iff_iff,isOk_iff,isOk_iff]
  simp only [same cursor]

theorem filter (same : parser.SameMatches other) (pass : α → Bool) (condition more : String) :
    (parser.filter pass condition).SameMatches (other.filter pass more) := by
  intro cursor found
  obtain ⟨value,last⟩ := found
  simp only [filter_eq_ok_iff,same cursor]

theorem map (same : parser.SameMatches other) (change : α → β) :
    (parser.map change).SameMatches (other.map change) := by
  intro cursor found
  obtain ⟨value,last⟩ := found
  simp only [map_eq_ok_iff,same cursor]

theorem bind {continuation next : α → Parser β} (same : parser.SameMatches other)
    (after : ∀ value, (continuation value).SameMatches (next value)) :
    (parser.bind continuation).SameMatches (other.bind next) := by
  intro cursor found
  obtain ⟨value,last⟩ := found
  simp only [bind_eq_ok_iff,same cursor,after _ _]

theorem seq (same : parser.SameMatches other) (after : second.SameMatches further) :
    (parser.seq second).SameMatches (other.seq further) := by
  intro cursor found
  obtain ⟨value,last⟩ := found
  simp only [seq_eq_ok_iff,same cursor,after _]

theorem orElse {second further : Parser α} (same : parser.SameMatches other)
    (after : second.SameMatches further) :
    (parser.orElse second).SameMatches (other.orElse further) := by
  intro cursor found
  simp only [orElse_eq_ok_iff,same cursor,after cursor,same.isOk_eq]

theorem firstMatch {more : Nat} {nth also : Fin (more + 1) → Parser α}
    (same : ∀ i, (nth i).SameMatches (also i)) :
    (Parser.firstMatch (nth 0) (List.ofFn fun i => nth i.succ)).SameMatches
      (Parser.firstMatch (also 0) (List.ofFn fun i => also i.succ)) := by
  induction more with
  | zero => exact same 0
  | succ more ih =>
    intro cursor found
    have first := same 0 cursor
    have later := ih (fun i => same i.succ) cursor found
    have ok := (same 0).isOk_eq cursor
    rw [List.ofFn_succ,List.ofFn_succ,Parser.firstMatch,Parser.firstMatch]
    cases here : nth 0 cursor with
    | ok value =>
      rw [(first value).mp here]
    | error =>
      cases there : also 0 cursor with
      | ok value =>
        rw [(first value).mpr there] at here
        cases here
      | error => exact later

theorem choice {more : Nat} {nth also : Fin (more + 1) → Parser α}
    (same : ∀ i, (nth i).SameMatches (also i)) :
    (Parser.choice (nth 0) (List.ofFn fun i => nth i.succ)).SameMatches
      (Parser.choice (also 0) (List.ofFn fun i => also i.succ)) := by
  intro cursor found
  unfold Parser.choice
  rw [mapError_eq_ok_iff,mapError_eq_ok_iff]
  exact firstMatch same cursor found

theorem repeated (same : parser.SameMatches other) (cursor : Cursor) :
    Parser.repeated parser cursor = Parser.repeated other cursor := by
  fun_induction Parser.repeated parser cursor with
  | case1 cursor failure ran =>
    rw [Parser.repeated]
    cases also : other cursor with
    | error => rfl
    | ok found =>
      rw [(same cursor found).mpr also] at ran
      cases ran
  | case2 cursor value next ran shorter values last again ih =>
    rw [Parser.repeated,(same cursor _).mp ran]
    simp only [shorter,if_true,← ih,again]
  | case3 cursor value next ran idle =>
    rw [Parser.repeated,(same cursor _).mp ran]
    simp only [idle,if_false]

theorem many (same : parser.SameMatches other) : parser.many.SameMatches other.many := by
  intro cursor found
  obtain ⟨values,last⟩ := found
  simp only [many_eq_ok_iff,same.repeated]

theorem many1 (same : parser.SameMatches other) : parser.many1.SameMatches other.many1 := by
  intro cursor found
  obtain ⟨values,last⟩ := found
  simp only [many1_eq_ok_iff,same cursor,same.repeated]

theorem optional (same : parser.SameMatches other) :
    parser.optional.SameMatches other.optional := by
  intro cursor found
  obtain ⟨value,last⟩ := found
  simp only [optional_eq_ok_iff,same cursor,same.isOk_eq]

theorem notFollowedBy (same : parser.SameMatches other) :
    parser.notFollowedBy.SameMatches other.notFollowedBy := by
  intro cursor found
  obtain ⟨value,last⟩ := found
  simp only [notFollowedBy_eq_ok_iff,same.isOk_eq]

theorem lookAhead (same : parser.SameMatches other) :
    parser.lookAhead.SameMatches other.lookAhead := by
  intro cursor found
  obtain ⟨value,last⟩ := found
  simp only [lookAhead_eq_ok_iff,same cursor]

theorem withSpan (same : parser.SameMatches other) :
    parser.withSpan.SameMatches other.withSpan := by
  intro cursor found
  obtain ⟨value,last⟩ := found
  simp only [withSpan_eq_ok_iff,same cursor]

theorem recognize (same : parser.SameMatches other) :
    parser.recognize.SameMatches other.recognize := by
  intro cursor found
  obtain ⟨text,last⟩ := found
  simp only [recognize_eq_ok_iff,same cursor]

theorem lexeme (same : parser.SameMatches other) : parser.lexeme.SameMatches other.lexeme := by
  intro cursor found
  obtain ⟨value,last⟩ := found
  simp only [lexeme_eq_ok_iff,same cursor]

end SameMatches

end Parser

namespace Grammar
variable {α : Type} {grammar other : Grammar α}
open TamilScript.Parser

theorem Reworded.run_sameMatches (words : Reworded grammar other) :
    SameMatches grammar.run other.run := by
  induction words with
  | refl => exact fun _ _ => Iff.rfl
  | unlabel _ _ ih =>
    intro cursor found
    exact label_eq_ok_iff.trans (ih cursor found)
  | relabel _ _ _ ih =>
    intro cursor found
    exact label_eq_ok_iff.trans ((ih cursor found).trans label_eq_ok_iff.symm)
  | fail | stub | rename => exact fun _ _ => ⟨nofun,nofun⟩
  | filter pass condition more _ ih => exact ih.filter pass condition more
  | map change _ ih => exact ih.map change
  | bind _ _ ih continued => exact ih.bind continued
  | seq _ _ ih later => exact ih.seq later
  | orElse _ _ ih later => exact ih.orElse later
  | alternatives _ ih => exact .choice ih
  | many _ ih => exact ih.many
  | many1 _ ih => exact ih.many1
  | optional _ ih => exact ih.optional
  | notFollowedBy _ ih => exact ih.notFollowedBy
  | lookAhead _ ih => exact ih.lookAhead
  | withSpan _ ih => exact ih.withSpan
  | recognize _ ih => exact ih.recognize
  | lexeme _ ih => exact ih.lexeme

/-- In other words a grammar matches where it did, with the same value and the same end, and fails
where it did. -/
theorem run_reworded (words : Reworded grammar other) (cursor : Cursor) :
    (∀ value last, grammar.run cursor = .ok (value,last) ↔ other.run cursor = .ok (value,last)) ∧
    ((∃ failure, grammar.run cursor = .error failure) ↔
      ∃ failure, other.run cursor = .error failure) := by
  have same := words.run_sameMatches
  refine ⟨fun value last => same cursor (value,last),?_⟩
  rw [← isOk_eq_false_iff,← isOk_eq_false_iff,same.isOk_eq]

theorem counted_letters_reworded :
    let source := Source.ofString "கல"
    let letters := (((exactly 'ா').label "sign").notFollowedBy.seq
      ((unimplemented "rule").orElse (satisfy (· ∈ Letter.consonants) "consonant"))).many
    let counted := (letters.label "letters").bind fun found =>
      (fail "none").orElse ((succeed found.length).label "count")
    let plain := ((exactly 'ா').notFollowedBy.seq
      ((fail "no rule").orElse (satisfy (· ∈ Letter.consonants) "letter"))).many
    let length := plain.bind fun found =>
      (fail "nothing").orElse (succeed found.length)
    counted.run (.start source) = .ok (2,.ended source) ∧
    length.run (.start source) = .ok (2,.ended source) := by
  intro source letters counted plain length
  have words : Reworded counted length := by
    apply Reworded.bind
    · apply Reworded.unlabel
      apply Reworded.many
      apply Reworded.seq
      · exact .notFollowedBy (.unlabel _ (.refl _))
      · exact .orElse (.stub _ _) (.filter _ _ _ (.refl _))
    · intro found
      exact .orElse (.fail _ _) (.unlabel _ (.refl _))
  have ran : counted.run (.start source) = .ok (2,.ended source) := by decide +kernel
  exact ⟨ran,((run_reworded words _).1 _ _).mp ran⟩

end Grammar

end TamilScript
