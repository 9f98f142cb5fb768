import Mathlib.Data.List.Nodup
import Mathlib.Data.List.Pairwise
import Mathlib.Logic.ExistsUnique
import TamilScript.Letter.Tables
import TamilScript.Proofs.Truncation

/-! Consonant classes at the recognizers. The class of a recognizer decides only which letters it may
begin with: beyond that it matches what any letter in that place would begin. So the classes a class
is made of, which share no letter and leave none out, divide its matches among them. -/
namespace TamilScript

namespace Parser
variable {α β : Type} {parser whole : Parser α} {letters : List Char}

/-- The matches of the whole where the unit at the cursor is one of the letters. -/
def Restricts (parser whole : Parser α) (letters : List Char) : Prop :=
  ∀ (cursor : Cursor) (found : α × Cursor), parser cursor = .ok found ↔
    whole cursor = .ok found ∧ ∃ unit ∈ letters, cursor.value = .ok unit

namespace Restricts

theorem oneOf (letters : List Char) : (Parser.oneOf letters).Restricts any letters := by
  intro cursor found
  obtain ⟨unit,last⟩ := found
  rw [oneOf_eq_ok_iff,any]
  constructor
  · intro matched
    obtain ⟨ran,member⟩ := matched
    exact ⟨ran,unit,member,(read_eq_ok_iff.mp ran).1⟩
  · intro matched
    obtain ⟨ran,other,member,here⟩ := matched
    obtain rfl := Except.ok.inj (here.symm.trans (read_eq_ok_iff.mp ran).1)
    exact ⟨ran,member⟩

theorem seq (restricts : parser.Restricts whole letters) (second : Parser β) :
    (parser.seq second).Restricts (whole.seq second) letters := by
  intro cursor found
  obtain ⟨value,last⟩ := found
  simp only [seq_eq_ok_iff,restricts cursor]
  constructor
  · intro matched
    obtain ⟨middle,⟨first,opened⟩,next⟩ := matched
    exact ⟨⟨middle,first,next⟩,opened⟩
  · intro matched
    obtain ⟨⟨middle,first,next⟩,opened⟩ := matched
    exact ⟨middle,⟨first,opened⟩,next⟩

theorem label (restricts : parser.Restricts whole letters) (what : String) :
    (parser.label what).Restricts whole letters := by
  intro cursor found
  rw [label_eq_ok_iff,restricts cursor found]

theorem recognize (restricts : parser.Restricts whole letters) :
    parser.recognize.Restricts whole.recognize letters := by
  intro cursor found
  obtain ⟨text,last⟩ := found
  simp only [recognize_eq_ok_iff,restricts cursor]
  constructor
  · intro matched
    obtain ⟨⟨value,ran,opened⟩,written⟩ := matched
    exact ⟨⟨⟨value,ran⟩,written⟩,opened⟩
  · intro matched
    obtain ⟨⟨⟨value,ran⟩,written⟩,opened⟩ := matched
    exact ⟨⟨value,ran,opened⟩,written⟩

theorem isOk_iff (restricts : parser.Restricts whole letters) (cursor : Cursor) :
    (parser cursor).isOk = true ↔
      (whole cursor).isOk = true ∧ ∃ unit ∈ letters, cursor.value = .ok unit := by
  simp only [Parser.isOk_iff,restricts cursor,exists_and_right]

end Restricts

end Parser

namespace Letter
open TamilScript.Parser

namespace ConsonantClass

/-- The classes that a class is made of. -/
def parts : ConsonantClass → List ConsonantClass
  | every => [hard, soft, medial, borrowed]
  | native => [hard, soft, medial]
  | group => [group]

theorem parts_subset (group : ConsonantClass) : group.parts ⊆ every.parts := by
  cases group <;> decide

/-- The table of a class is put together from the tables of its parts. -/
theorem flatMap_parts (group : ConsonantClass) : group.parts.flatMap letters = group.letters := by
  cases group <;> rfl

theorem mem_letters_iff_parts (group : ConsonantClass) {letter : Char} :
    letter ∈ group.letters ↔ ∃ part ∈ group.parts, letter ∈ part.letters := by
  rw [← flatMap_parts,List.mem_flatMap]

/-- The tables of two parts have no letter in common. -/
theorem parts_apart {part other : ConsonantClass} (listed : part ∈ every.parts)
    (also : other ∈ every.parts) {letter : Char} (sounds : letter ∈ part.letters)
    (shared : letter ∈ other.letters) : part = other := by
  have once : consonants.Nodup := (List.nodup_append.mp (List.nodup_append.mp letters_nodup).1).2.1
  rw [show consonants = every.parts.flatMap letters from (flatMap_parts every).symm,
    List.nodup_flatMap] at once
  have symmetric : Std.Symm (Function.onFun List.Disjoint letters) := ⟨fun _ _ => List.disjoint_symm⟩
  apply Decidable.byContradiction
  intro differ
  exact once.2.forall listed also differ sounds shared

end ConsonantClass

namespace Form

/-- The letters that a consonant begins, each of them known for every class. -/
def families : List (ConsonantClass → Form) :=
  [pureConsonant, syllable, shortSyllable, longSyllable]

/-- The class of a family decides only which consonants its letters begin with. -/
theorem exists_restricts {family : ConsonantClass → Form} (member : family ∈ families) :
    ∃ whole : Parser String, ∀ group : ConsonantClass,
      (family group).grammar.run.Restricts whole group.letters := by
  have opened (group : ConsonantClass) := Restricts.oneOf group.letters
  simp only [families,List.mem_cons,List.not_mem_nil,or_false] at member
  rcases member with rfl | rfl | rfl | rfl
  · exact ⟨_,fun group => (((opened group).seq _).label _).recognize⟩
  · exact ⟨_,fun group => ((((opened group).seq _).seq _).label _).recognize⟩
  · exact ⟨_,fun group => ((((opened group).seq _).seq _).label _).recognize⟩
  · exact ⟨_,fun group => (((opened group).seq _).label _).recognize⟩

end Form

/-- At a cursor a letter of a family is found for a class exactly when it is found for just one of the
parts of the class, and it is never found for two of them. Whatever classes it is found for, the text
and the cursor behind it are the same. -/
theorem matches_of_classes (family : ConsonantClass → Form) (member : family ∈ Form.families)
    (cursor : Cursor) :
    (∀ group : ConsonantClass, ((family group).grammar.run cursor).isOk = true ↔
      ∃! part, part ∈ group.parts ∧ ((family part).grammar.run cursor).isOk = true) ∧
    (∀ part ∈ ConsonantClass.every.parts, ∀ other ∈ ConsonantClass.every.parts,
      ((family part).grammar.run cursor).isOk = true →
        ((family other).grammar.run cursor).isOk = true → part = other) ∧
    ∀ (group other : ConsonantClass) (found also : String × Cursor),
      (family group).grammar.run cursor = .ok found →
        (family other).grammar.run cursor = .ok also → found = also := by
  obtain ⟨whole,restricts⟩ := Form.exists_restricts member
  have isOk_iff (group : ConsonantClass) := (restricts group).isOk_iff cursor
  have apart : ∀ part ∈ ConsonantClass.every.parts, ∀ other ∈ ConsonantClass.every.parts,
      ((family part).grammar.run cursor).isOk = true →
        ((family other).grammar.run cursor).isOk = true → part = other := by
    intro part listed other also ran matched
    obtain ⟨_,unit,sounds,here⟩ := (isOk_iff part).mp ran
    obtain ⟨_,letter,shared,again⟩ := (isOk_iff other).mp matched
    obtain rfl := Except.ok.inj (here.symm.trans again)
    exact ConsonantClass.parts_apart listed also sounds shared
  refine ⟨?_,apart,?_⟩
  · intro group
    constructor
    · intro ran
      obtain ⟨matched,unit,sounds,here⟩ := (isOk_iff group).mp ran
      obtain ⟨part,listed,mine⟩ := (ConsonantClass.mem_letters_iff_parts group).mp sounds
      have found := (isOk_iff part).mpr ⟨matched,unit,mine,here⟩
      refine ⟨part,⟨listed,found⟩,?_⟩
      intro other matching
      obtain ⟨also,again⟩ := matching
      exact apart other (group.parts_subset also) part (group.parts_subset listed) again found
    · intro single
      obtain ⟨part,⟨listed,ran⟩,_⟩ := single
      obtain ⟨matched,unit,mine,here⟩ := (isOk_iff part).mp ran
      have sounds := (ConsonantClass.mem_letters_iff_parts group).mpr ⟨part,listed,mine⟩
      exact (isOk_iff group).mpr ⟨matched,unit,sounds,here⟩
  · intro group other found also ran again
    have first := ((restricts group cursor found).mp ran).1
    have second := ((restricts other cursor also).mp again).1
    exact Except.ok.inj (first.symm.trans second)

theorem borrowed_letter_of_every :
    let source := Source.ofString "கஜி"
    let cursor := Cursor.valid source 1
    let recognize (group : ConsonantClass) := (Form.shortSyllable group).grammar.run cursor
    Form.shortSyllable ∈ Form.families ∧
    (∃! part, part ∈ ConsonantClass.every.parts ∧ (recognize part).isOk = true) ∧
    (recognize .native).isOk = false ∧
    recognize .borrowed = .ok ("ஜி",.ended source) ∧ recognize .every = .ok ("ஜி",.ended source) := by
  intro source cursor recognize
  have member : Form.shortSyllable ∈ Form.families := by simp [Form.families]
  obtain ⟨classes,_,same⟩ := matches_of_classes Form.shortSyllable member cursor
  have ran : recognize .borrowed = .ok ("ஜி",.ended source) := by decide +kernel
  have matched : (recognize .every).isOk = true := by decide +kernel
  obtain ⟨last,text,whole⟩ := Parser.isOk_iff.mp matched
  have all : ("ஜி",Cursor.ended source) = (text,last) := same .borrowed .every _ _ ran whole
  exact ⟨member,(classes .every).mp matched,by decide +kernel,ran,whole.trans (by rw [all])⟩

end Letter

end TamilScript
