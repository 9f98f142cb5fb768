import Mathlib.Data.List.Pairwise
import TamilScript.Letter.Tables
import TamilScript.Proofs.Truncation

/-! Choices whose order is no matter. Where at most one of the alternatives matches, the choice among
them finds that match wherever it stands in the row, and a label tells every failure alike. The letters
that a recognizer chooses among exclude each other: they begin with different letters of the script,
or the pulli that the one needs is what the other must not have behind it. -/
namespace TamilScript

namespace Parser
variable {α : Type} {first second : Parser α} {rest others alternatives : List (Parser α)}
  {cursor : Cursor}

theorem isOk_label (parser : Parser α) (what : String) :
    (parser.label what cursor).isOk = (parser cursor).isOk := by
  rw [Bool.eq_iff_iff,isOk_iff,isOk_iff]
  simp only [label_eq_ok_iff]

/-- Where the first matches the second does not. -/
def Excludes (cursor : Cursor) (first second : Parser α) : Prop :=
  (first cursor).isOk = true → (second cursor).isOk = false

theorem Excludes.symm (excludes : Excludes cursor first second) : Excludes cursor second first := by
  intro matched
  cases also : (first cursor).isOk with
  | false => rfl
  | true => exact absurd matched (by simp [excludes also])

/-- No two of the alternatives match at the cursor. -/
def Apart (cursor : Cursor) (alternatives : List (Parser α)) : Prop :=
  alternatives.Pairwise (Excludes cursor)

namespace Apart

theorem perm (apart : Apart cursor alternatives) (reordered : alternatives.Perm others) :
    Apart cursor others :=
  reordered.pairwise apart Excludes.symm

/-- Which alternatives come first does not matter to what the choice finds. -/
theorem choice_eq_ok_iff (apart : Apart cursor (first :: rest)) {found : α × Cursor} :
    choice first rest cursor = .ok found ↔
      ∃ alternative ∈ first :: rest, alternative cursor = .ok found := by
  rw [Parser.choice_eq_ok_iff]
  constructor
  · intro matched
    obtain ⟨before,chosen,after,split,ran,_⟩ := matched
    exact ⟨chosen,by simp [split],ran⟩
  · intro matched
    obtain ⟨chosen,member,ran⟩ := matched
    obtain ⟨before,after,split⟩ := List.append_of_mem member
    refine ⟨before,chosen,after,split,ran,?_⟩
    intro earlier prior
    rw [split] at apart
    have excludes := (List.pairwise_append.mp apart).2.2 earlier prior chosen List.mem_cons_self
    apply excludes.symm
    rw [ran]
    rfl

theorem label_choice_perm (apart : Apart cursor (first :: rest))
    (reordered : (first :: rest).Perm (second :: others)) (what : String) :
    (choice first rest).label what cursor = (choice second others).label what cursor := by
  have alike (found : α × Cursor) :
      choice first rest cursor = .ok found ↔ choice second others cursor = .ok found := by
    rw [apart.choice_eq_ok_iff,(apart.perm reordered).choice_eq_ok_iff]
    simp only [reordered.mem_iff]
  cases ran : choice first rest cursor with
  | ok found => rw [label_eq_ok_iff.mpr ran,label_eq_ok_iff.mpr ((alike found).mp ran)]
  | error failure =>
    have same : (choice first rest cursor).isOk = (choice second others cursor).isOk := by
      rw [Bool.eq_iff_iff,isOk_iff,isOk_iff]
      simp only [alike]
    have missed : ((choice first rest).label what cursor).isOk = false := by
      rw [isOk_label,ran]
      rfl
    have also : ((choice second others).label what cursor).isOk = false := by
      rw [isOk_label,← same,ran]
      rfl
    rw [label_choice_eq missed,label_choice_eq also]

end Apart

end Parser

namespace Width
open Letter

variable {width other first second third : Width} {letters others marks signs guards : List Char}

/-- Where the first width takes something the second takes nothing. -/
def Excludes (first second : Width) : Prop :=
  ∀ ⦃units : List Char⦄, (first units).isSome = true → second units = none

theorem Excludes.symm (excludes : first.Excludes second) : second.Excludes first := by
  intro units taken
  cases present : first units with
  | none => rfl
  | some more => simp [excludes (Option.isSome_of_eq_some present)] at taken

theorem Excludes.either (excludes : first.Excludes third) (also : second.Excludes third) :
    (first.either second).Excludes third := by
  intro units taken
  rw [Width.either,Option.isSome_or,Bool.or_eq_true] at taken
  exact taken.elim (@excludes units) (@also units)

theorem Excludes.either_right (excludes : first.Excludes second) (also : first.Excludes third) :
    first.Excludes (second.either third) := (excludes.symm.either also.symm).symm

/-- The first unit of what is taken is one of the letters. -/
def Begins (width : Width) (letters : List Char) : Prop :=
  ∀ ⦃units : List Char⦄, (width units).isSome = true →
    ∃ letter ∈ letters, ∃ rest, units = letter :: rest

theorem Begins.of_missed (empty : width [] = none)
    (missed : ∀ ⦃unit⦄, unit ∉ letters → ∀ rest, width (unit :: rest) = none) :
    width.Begins letters := by
  intro units taken
  cases units with
  | nil => simp [empty] at taken
  | cons unit rest =>
    by_cases member : unit ∈ letters
    · exact ⟨unit,member,rest,rfl⟩
    · simp [missed member rest] at taken

theorem single_begins (letters : List Char) : (single letters).Begins letters := by
  refine .of_missed rfl ?_
  intro unit other rest
  simp [other]

theorem marked_begins (letters marks : List Char) : (marked letters marks).Begins letters :=
  .of_missed rfl fun _ other _ => marked_of_notMem other

theorem carrying_begins (letters marks guards : List Char) :
    (carrying letters marks guards).Begins letters :=
  .of_missed rfl fun _ other _ => carrying_of_notMem other

theorem Begins.excludes (begins : width.Begins letters) (also : other.Begins others)
    (apart : ∀ ⦃letter⦄, letter ∈ letters → letter ∉ others) : width.Excludes other := by
  intro units taken
  obtain ⟨letter,member,rest,rfl⟩ := begins taken
  cases present : other (letter :: rest) with
  | none => rfl
  | some more =>
    obtain ⟨first,found,_,same⟩ := also (Option.isSome_of_eq_some present)
    obtain ⟨rfl,_⟩ := List.cons.inj same
    exact absurd found (apart member)

/-- A mark that the guard stops at is not taken as a sign. -/
theorem marked_excludes_carrying (letters others : List Char) (guarded : marks ⊆ guards)
    (apart : ∀ ⦃mark⦄, mark ∈ marks → mark ∉ signs) :
    (marked letters marks).Excludes (carrying others signs guards) := by
  intro units taken
  obtain ⟨letter,_,mark,member,rest,rfl⟩ := marked_shape taken
  have unsigned : single signs (mark :: rest) = none := by simp [apart member]
  by_cases sounds : letter ∈ others
  · rw [carrying_bare sounds unsigned,single_cons,if_pos (guarded member)]
    rfl
  · exact carrying_of_notMem sounds

theorem marked_excludes_marked (letters : List Char)
    (apart : ∀ ⦃mark⦄, mark ∈ marks → mark ∉ others) :
    (marked letters marks).Excludes (marked letters others) := by
  intro units taken
  obtain ⟨letter,_,mark,carried,rest,rfl⟩ := marked_shape taken
  simp [apart carried]

end Width

theorem Parser.HasWidth.excludes {α : Type} {first second : Parser α} {width other : Width}
    {cursor : Cursor} (has : first.HasWidth width) (also : second.HasWidth other)
    (excludes : width.Excludes other) (canonical : cursor.Canonical) :
    Excludes cursor first second := by
  intro matched
  rw [has.isOk_eq canonical] at matched
  rw [also.isOk_eq canonical,excludes matched]
  rfl

namespace Letter
open TamilScript.Parser

namespace Form
variable {form other : Form}

def width : Form → Width
  | shortVowel => .single shortVowels
  | longVowel => .single longVowels
  | aytham => .single [Letter.aytham]
  | vowel => .single vowels
  | pureConsonant group => .marked group.letters [pulli]
  | syllable group => .carrying group.letters vowelSigns [pulli]
  | shortSyllable group => .carrying group.letters shortSigns signs
  | longSyllable group => .marked group.letters longSigns

/-- The units that the letter may begin with. -/
def letters : Form → List Char
  | shortVowel => shortVowels
  | longVowel => longVowels
  | aytham => [Letter.aytham]
  | vowel => vowels
  | pureConsonant group | syllable group | shortSyllable group | longSyllable group => group.letters

theorem hasText (form : Form) : HasText form.grammar.run form.width := by
  cases form with
  | shortVowel => exact shortVowel_hasText
  | longVowel => exact longVowel_hasText
  | aytham => exact loneAytham_hasText
  | vowel => exact vowel_hasText
  | pureConsonant group => exact pureConsonant_hasText group
  | syllable group => exact syllable_hasText group
  | shortSyllable group => exact shortSyllable_hasText group
  | longSyllable group => exact longSyllable_hasText group

theorem width_begins (form : Form) : form.width.Begins form.letters := by
  cases form with
  | shortVowel | longVowel | aytham | vowel => exact Width.single_begins _
  | pureConsonant | longSyllable => exact Width.marked_begins _ _
  | syllable | shortSyllable => exact Width.carrying_begins _ _ _

theorem excludes_of_vowel (stand : form.letters ⊆ vowels) (sound : other.letters ⊆ consonants) :
    form.width.Excludes other.width := by
  refine form.width_begins.excludes other.width_begins ?_
  intro letter member found
  exact notMem_vowels_of_consonant (sound found) (stand member)

end Form

theorem au_excludes_marked (marks : List Char) :
    (Width.single [au]).Excludes (.marked consonants marks) := by
  refine (Width.single_begins [au]).excludes (Width.marked_begins consonants marks) ?_
  intro letter same
  obtain rfl := List.mem_singleton.mp same
  decide

namespace Union

/-- The letters a recognizer chooses among, in its order. -/
def forms : Union → List Form
  | short => [.shortVowel, .aytham, .shortSyllable .every]
  | long => [.longVowel, .longSyllable .every]
  | primary => [.vowel, .pureConsonant .native]
  | cluster => [.vowel, .pureConsonant .every, .syllable .every]

/-- The recognizer of the union with its letters tried in the given order. -/
def inOrder (union : Union) (first : Form) (rest : List Form) : Grammar String :=
  (Grammar.choice first.grammar (rest.map Form.grammar)).label union.name

theorem forms_exclude (union : Union) :
    union.forms.Pairwise fun first second => first.width.Excludes second.width := by
  have consonant (group : ConsonantClass) : group.letters ⊆ consonants := group.letters_subset
  cases union with
  | short =>
    have lone : Form.shortVowel.width.Excludes Form.aytham.width := by
      refine Form.shortVowel.width_begins.excludes Form.aytham.width_begins ?_
      intro letter brief same
      obtain rfl := List.mem_singleton.mp same
      exact absurd brief (by decide)
    have vowel : Form.shortVowel.width.Excludes (Form.shortSyllable .every).width :=
      Form.excludes_of_vowel (by decide) (consonant .every)
    have aytham : Form.aytham.width.Excludes (Form.shortSyllable .every).width :=
      Form.excludes_of_vowel (by decide) (consonant .every)
    simp [forms,lone,vowel,aytham]
  | long =>
    have vowel : Form.longVowel.width.Excludes (Form.longSyllable .every).width :=
      Form.excludes_of_vowel (by decide) (consonant .every)
    simp [forms,vowel]
  | primary =>
    have vowel : Form.vowel.width.Excludes (Form.pureConsonant .native).width :=
      Form.excludes_of_vowel (List.Subset.refl _) (consonant .native)
    simp [forms,vowel]
  | cluster =>
    have pure : Form.vowel.width.Excludes (Form.pureConsonant .every).width :=
      Form.excludes_of_vowel (List.Subset.refl _) (consonant .every)
    have syllable : Form.vowel.width.Excludes (Form.syllable .every).width :=
      Form.excludes_of_vowel (List.Subset.refl _) (consonant .every)
    have silent : (Form.pureConsonant .every).width.Excludes (Form.syllable .every).width := by
      refine Width.marked_excludes_carrying _ _ (List.Subset.refl _) ?_
      intro mark same
      obtain rfl := List.mem_singleton.mp same
      exact pulli_notMem_vowelSigns
    simp [forms,pure,syllable,silent]

theorem excludes (union : Union) {cursor : Cursor} (canonical : cursor.Canonical) :
    union.forms.Pairwise fun first second =>
      Parser.Excludes cursor first.grammar.run second.grammar.run := by
  apply union.forms_exclude.imp
  intro first second excludes
  exact first.hasText.hasWidth.excludes second.hasText.hasWidth excludes canonical

theorem apart (union : Union) {first : Form} {rest : List Form} (written : union.forms = first :: rest)
    {cursor : Cursor} (canonical : cursor.Canonical) :
    Apart cursor (first.grammar.run :: rest.map fun form => form.grammar.run) := by
  have exclude := union.excludes canonical
  rw [written] at exclude
  exact List.pairwise_map.mpr exclude

theorem run_inOrder (union : Union) (first : Form) (rest : List Form) :
    (union.inOrder first rest).run =
      (Parser.choice first.grammar.run (rest.map fun form => form.grammar.run)).label union.name := by
  unfold inOrder
  rw [Grammar.run,Grammar.run_choice,List.map_map]
  rfl

theorem run_eq (union : Union) : ∃ first rest, union.forms = first :: rest ∧
    union.grammar.run = (union.inOrder first rest).run := by
  cases union <;> exact ⟨_,_,rfl,rfl⟩

end Union

/-- At most one of the letters that a recognizer chooses among matches at a cursor, so the recognizer
finds the same match, or refuses with the same failure, in whatever order it tries them. -/
theorem order_of_letters (union : Union) (source : Source) (cursor : Cursor)
    (reached : (Cursor.start source).Reaches cursor) :
    (∀ first ∈ union.forms, ∀ second ∈ union.forms, (first.grammar.run cursor).isOk = true →
      (second.grammar.run cursor).isOk = true → first = second) ∧
    ∀ first rest, (first :: rest).Perm union.forms →
      (union.inOrder first rest).run cursor = union.grammar.run cursor := by
  have canonical := reached.canonical_of_start
  constructor
  · intro first member second also matched found
    have symmetric : Std.Symm fun first second : Form =>
        Parser.Excludes cursor first.grammar.run second.grammar.run := ⟨fun _ _ => Excludes.symm⟩
    apply Decidable.byContradiction
    intro differ
    have missed := (union.excludes canonical).forall member also differ matched
    rw [missed] at found
    contradiction
  · intro first rest reordered
    obtain ⟨second,others,written,run⟩ := union.run_eq
    rw [written] at reordered
    have permuted := reordered.symm.map fun form : Form => form.grammar.run
    rw [run,union.run_inOrder,union.run_inOrder]
    exact ((union.apart written canonical).label_choice_perm permuted union.name).symm

theorem syllable_tried_first :
    let source := Source.ofString "கை்அ"
    let reordered := Union.cluster.inOrder (.syllable .every) [.vowel,.pureConsonant .every]
    let cursor := Cursor.valid source 3
    (Cursor.start source).Reaches cursor ∧
    [.syllable .every,.vowel,.pureConsonant .every].Perm Union.cluster.forms ∧
    reordered.run cursor = .ok ("அ",.ended source) ∧
    reordered.run (.start source) = .error (.unsatisfied "expected letter cluster" ⟨source,0⟩) := by
  intro source reordered cursor
  have reached : (Cursor.start source).Reaches cursor := ⟨3,rfl⟩
  have permuted : [.syllable .every,.vowel,.pureConsonant .every].Perm Union.cluster.forms := by decide
  obtain ⟨_,there⟩ := order_of_letters .cluster source cursor reached
  obtain ⟨_,here⟩ := order_of_letters .cluster source (.start source) (.refl _)
  refine ⟨reached,permuted,?_,?_⟩
  · rw [there _ _ permuted]
    decide +kernel
  · rw [here _ _ permuted]
    decide +kernel

end Letter

end TamilScript
