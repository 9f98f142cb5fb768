import Mathlib.Control.Monad.Basic
import TamilScript.Proofs.Splitting
import TamilScript.Proofs.Stages

/-! Repetition that has run out. A repetition ends where its recognizer comes no further, so from its
end on it finds nothing. Repeated itself, it finds its own row once, unless the row is empty, which
does not advance and is dropped. Blanks are skipped by a repetition, and what holds of every
repetition makes it no matter how often they are skipped. -/
namespace TamilScript

namespace Parser
variable {α : Type}

/-- From where a repetition ends it finds nothing more. -/
theorem repeated_repeated (parser : Parser α) (cursor : Cursor) :
    repeated parser (repeated parser cursor).2 = ([],(repeated parser cursor).2) := by
  fun_induction repeated parser cursor with
  | case1 cursor failure ran => rw [repeated,ran]
  | case2 cursor value next ran shorter values last again ih =>
    rw [again] at ih
    exact ih
  | case3 cursor value next ran idle =>
    rw [repeated,ran]
    simp only [idle,if_false]

/-- A repetition without values stays where it is, and each value uses up some of the source. -/
theorem repeated_idle_or_shorter (parser : Parser α) (cursor : Cursor) :
    repeated parser cursor = ([],cursor) ∨ (repeated parser cursor).1 ≠ [] ∧
      (repeated parser cursor).2.remaining < cursor.remaining := by
  fun_induction repeated parser cursor with
  | case1 | case3 => exact Or.inl rfl
  | case2 cursor value next ran shorter values last again ih =>
    rw [again] at ih
    refine Or.inr ⟨List.cons_ne_nil _ _,?_⟩
    rcases ih with idle | ⟨_,further⟩
    · obtain ⟨_,rfl⟩ := Prod.mk.inj idle
      exact shorter
    · exact Nat.lt_trans further shorter

theorem repeated_many (parser : Parser α) (cursor : Cursor) : repeated parser.many cursor =
    (if (repeated parser cursor).1.isEmpty then [] else [(repeated parser cursor).1],
      (repeated parser cursor).2) := by
  rw [repeated,many]
  rcases repeated_idle_or_shorter parser cursor with idle | ⟨filled,shorter⟩
  · simp [idle]
  · have done : repeated parser.many (repeated parser cursor).2 = ([],(repeated parser cursor).2) := by
      rw [repeated,many,repeated_repeated]
      simp
    simp [shorter,done,filled]

theorem lexeme_lexeme (parser : Parser α) : parser.lexeme.lexeme = parser.lexeme := by
  funext cursor
  simp only [lexeme_eq_andThen,andThen]
  cases parser cursor with
  | error failure => rfl
  | ok found => simp only [repeated_repeated]

theorem skipWhitespace_eq (cursor : Cursor) :
    skipWhitespace cursor = .ok ((),(repeated whitespace cursor).2) :=
  skipWhitespace_eq_ok_iff.mpr rfl

theorem skipWhitespace_again {cursor last : Cursor} (ran : skipWhitespace cursor = .ok ((),last)) :
    skipWhitespace last = .ok ((),last) := by
  rw [skipWhitespace_eq,skipWhitespace_eq_ok_iff.mp ran,repeated_repeated]

/-- The blanks before the first unit that is none are skipped, or all units where there is no such unit. -/
theorem skipWhitespace_stops {cursor : Cursor} (canonical : cursor.Canonical) : ∃ gap last,
    skipWhitespace cursor = .ok ((),last) ∧ cursor.unread = gap ++ last.unread ∧
      last.position = cursor.position + gap.length ∧ Cluster.AllBlank gap ∧
      (last = .ended cursor.source ∨ ∃ unit ∈ last.unread.head?, isBlank unit = false) := by
  obtain ⟨gap,rest,whole,blank,ends⟩ := Cluster.exists_blanks cursor.unread
  have unread : (cursor.skip gap.length).unread = rest := by
    rw [Cursor.unread_skip,whole,List.drop_left]
  have place := congrArg Location.position (canonical.location_past whole)
  refine ⟨gap,cursor.skip gap.length,?_,by rw [unread,whole],place,blank,?_⟩
  · rw [skipWhitespace_eq,Cluster.repeated_whitespace canonical whole blank ends]
  · rw [unread]
    cases rest with
    | nil =>
      have done := (canonical.skip gap.length).eq_ended unread
      rw [Cursor.source_skip] at done
      exact Or.inl done
    | cons unit after => exact Or.inr ⟨unit,rfl,ends unit rfl⟩

end Parser

namespace Grammar
variable {α : Type}
open TamilScript.Parser

/-- A repetition finds nothing from its own end on. Repeated, it gives its values once, in a row of their
own, or nothing where it has none. So skipping blanks comes to the first unit that is not blank, or to
the end, and stays there, and what skips the blanks behind it skips them once. -/
theorem repetition_saturates (grammar : Grammar α) (source : Source) (cursor : Cursor)
    (reached : (Cursor.start source).Reaches cursor) :
    (∃ values last, grammar.many.run cursor = .ok (values,last) ∧
      grammar.many.run last = .ok ([],last) ∧
      grammar.many.many.run cursor = .ok (if values.isEmpty then [] else [values],last)) ∧
    (∃ gap last, skipWhitespace.run cursor = .ok ((),last) ∧
      skipWhitespace.run last = .ok ((),last) ∧
      cursor.unread = gap ++ last.unread ∧ last.position = cursor.position + gap.length ∧
      (∀ unit ∈ gap, isBlank unit = true) ∧
      (last = .ended source ∨ ∃ unit ∈ last.unread.head?, isBlank unit = false)) ∧
    grammar.lexeme.lexeme.run cursor = grammar.lexeme.run cursor := by
  obtain ⟨gap,last,ran,unread,place,blank,stops⟩ :=
    skipWhitespace_stops reached.canonical_of_start
  rw [reached.source_of_start] at stops
  refine ⟨⟨_,_,rfl,?_,?_⟩,⟨gap,last,ran,skipWhitespace_again ran,unread,place,blank,stops⟩,
    congrFun (lexeme_lexeme grammar.run) cursor⟩
  · exact congrArg Except.ok (repeated_repeated grammar.run cursor)
  · exact congrArg Except.ok (repeated_many grammar.run cursor)

theorem optional_letters_saturate :
    let source := Source.ofString "கக\t வ"
    let grammar := (exactly 'க').optional
    let stalled := Cursor.valid source 2
    grammar.many.run (.start source) = .ok ([some 'க',some 'க'],stalled) ∧
    grammar.many.run stalled = .ok ([],stalled) ∧
    grammar.many.many.run (.start source) = .ok ([[some 'க',some 'க']],stalled) ∧
    grammar.many.many.run stalled = .ok ([],stalled) ∧
    grammar.many.lexeme.lexeme.run (.start source) =
      .ok ([some 'க',some 'க'],.valid source 4) := by
  intro source grammar stalled
  have ran : grammar.many.run (.start source) = .ok ([some 'க',some 'க'],stalled) := by
    decide +kernel
  obtain ⟨⟨values,last,found,done,outer⟩,_⟩ :=
    repetition_saturates grammar source (.start source) (.refl _)
  obtain ⟨rfl,rfl⟩ := Prod.mk.inj (Except.ok.inj (found.symm.trans ran))
  obtain ⟨⟨others,final,idle,_,none⟩,_⟩ := repetition_saturates grammar source stalled ⟨2,rfl⟩
  obtain ⟨rfl,rfl⟩ := Prod.mk.inj (Except.ok.inj (idle.symm.trans done))
  obtain ⟨_,_,once⟩ := repetition_saturates grammar.many source (.start source) (.refl _)
  refine ⟨ran,done,outer,none,once.trans ?_⟩
  decide +kernel

end Grammar

end TamilScript
