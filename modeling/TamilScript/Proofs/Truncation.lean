import TamilScript.Cluster
import TamilScript.Cursor.Behind
import TamilScript.Proofs.Bracketing
import TamilScript.Proofs.LetterWidth
import TamilScript.Proofs.Stages

/-! Truncated text and wrong text. A recognizer of one letter fails for want of units exactly when the
text is cut off where it could have gone on to the letter; every other text it refuses by the name of
the letter. A choice wraps the failure of its last alternative, so the recognizers that choose
between letters refuse by name alone and truncation is lost on them. -/
namespace TamilScript

namespace Width
variable {letters marks guards units : List Char}

/-- Units could follow that make something of the width match. -/
def Extends (width : Width) (units : List Char) : Prop :=
  ∃ more, (width (units ++ more)).isSome = true

theorem not_extends {width : Width} (never : ∀ more, width (units ++ more) = none) :
    ¬width.Extends units := by
  intro extended
  obtain ⟨more,present⟩ := extended
  rw [never more] at present
  contradiction

theorem single_extends_iff (filled : letters ≠ []) (missed : single letters units = none) :
    (single letters).Extends units ↔ units = [] := by
  cases units with
  | nil =>
    obtain ⟨letter,sounds⟩ := List.exists_mem_of_ne_nil letters filled
    exact iff_of_true ⟨[letter],by simp [sounds]⟩ rfl
  | cons unit rest =>
    have other : unit ∉ letters := by simpa using missed
    refine iff_of_false (not_extends ?_) (List.cons_ne_nil _ _)
    intro more
    simp [other]

/-- A letter with a mark is cut off before the letter or between the two. -/
theorem marked_extends_iff (filled : letters ≠ []) (signed : marks ≠ [])
    (missed : marked letters marks units = none) : (marked letters marks).Extends units ↔
      (single letters units).elim (units = []) fun taken => units.drop taken = [] := by
  obtain ⟨letter,sounds⟩ := List.exists_mem_of_ne_nil letters filled
  obtain ⟨mark,carried⟩ := List.exists_mem_of_ne_nil marks signed
  cases units with
  | nil => exact iff_of_true ⟨[letter,mark],by simp [sounds,carried]⟩ rfl
  | cons unit rest =>
    by_cases member : unit ∈ letters
    · cases rest with
      | nil =>
        refine iff_of_true ⟨[mark],by simp [member,carried]⟩ ?_
        simp [member]
      | cons second after =>
        have plain : second ∉ marks := by simpa [member] using missed
        refine iff_of_false (not_extends ?_) ?_
        · intro more
          simp [plain]
        · simp [member]
    · refine iff_of_false (not_extends ?_) ?_
      · intro more
        exact marked_of_notMem member
      · simp [member]

/-- A letter that may lack its mark is cut off before the letter alone. -/
theorem carrying_extends_iff (filled : letters ≠ [])
    (missed : carrying letters marks guards units = none) :
    (carrying letters marks guards).Extends units ↔ units = [] := by
  cases units with
  | nil =>
    obtain ⟨letter,sounds⟩ := List.exists_mem_of_ne_nil letters filled
    refine iff_of_true ⟨[letter],?_⟩ rfl
    rw [List.nil_append,carrying_bare sounds (single_nil marks)]
    rfl
  | cons unit rest =>
    refine iff_of_false (not_extends ?_) (List.cons_ne_nil _ _)
    intro more
    by_cases member : unit ∈ letters
    · cases rest with
      | nil =>
        rw [carrying_bare member (single_nil marks)] at missed
        cases missed
      | cons second after =>
        by_cases carried : second ∈ marks
        · rw [carrying_marked member carried] at missed
          cases after with
          | nil => cases missed
          | cons third after =>
            rw [List.cons_append,List.cons_append,carrying_marked member carried]
            simpa using missed
        · have plain (rest : List Char) : single marks (second :: rest) = none := by simp [carried]
          rw [carrying_bare member (plain after)] at missed
          rw [List.cons_append,List.cons_append,carrying_bare member (plain _)]
          simpa using missed
    · exact carrying_of_notMem member

/-- The guard behind a letter and its mark lacks nothing when the source ends. -/
theorem carrying_short_iff : ((single letters).andThen (single marks).optional units).elim
    ((single letters units).elim (units = []) fun _ => False) (fun _ => False) ↔ units = [] := by
  cases units with
  | nil => simp [andThen]
  | cons unit rest => by_cases member : unit ∈ letters <;> simp [andThen,optional,member]

end Width

namespace Parser
variable {α β : Type}

/-- Failures of a recognizer by the unread units: where these are short of something the failure is the
end of the source, and elsewhere it is a broken condition. -/
def Tells (parser : Parser α) (short : List Char → Prop) : Prop :=
  ∀ ⦃cursor : Cursor⦄, cursor.Canonical → ∀ ⦃failure : Failure⦄, parser cursor = .error failure →
    failure = .endOfSource ⟨cursor.source,cursor.source.size⟩ ∧ short cursor.unread ∨
      failure.kind = .unsatisfied ∧ ¬short cursor.unread

namespace Tells
variable {parser : Parser α} {second : Parser β} {short lacking : List Char → Prop}

/-- A unit that does not pass is there; where none is, the source ends. -/
theorem refusing (pass : Char → Prop) [DecidablePred pass] (condition : Char → String) :
    (any.andThen fun cursor unit next =>
      if pass unit then .ok (unit,next) else refuse cursor (condition unit)).Tells (· = []) := by
  intro cursor canonical failure failed
  unfold Parser.andThen any at failed
  rw [canonical.read_eq] at failed
  cases unread : cursor.unread with
  | nil =>
    rw [unread] at failed
    exact Or.inl ⟨(Except.error.inj failed).symm,rfl⟩
  | cons unit rest =>
    rw [unread] at failed
    dsimp only at failed
    split at failed
    · cases failed
    · obtain rfl := Except.error.inj failed
      exact Or.inr ⟨rfl,List.cons_ne_nil _ _⟩

theorem oneOf (letters : List Char) : (Parser.oneOf letters).Tells (· = []) := by
  rw [oneOf_eq_andThen]
  exact refusing (· ∈ letters) _

theorem exactly (expected : Char) : (Parser.exactly expected).Tells (· = []) := by
  rw [exactly_eq_andThen]
  exact refusing (· = expected) _

theorem seq {width : Width} (tells : parser.Tells short) (has : parser.HasWidth width)
    (later : second.Tells lacking) : (parser.seq second).Tells fun units =>
      (width units).elim (short units) fun taken => lacking (units.drop taken) := by
  intro cursor canonical failure failed
  unfold Parser.seq at failed
  dsimp only
  cases ran : parser cursor with
  | error inner =>
    rw [ran] at failed
    obtain rfl := Except.error.inj failed
    rw [has.eq_none_of_error canonical ran]
    exact tells canonical ran
  | ok found =>
    obtain ⟨value,middle⟩ := found
    obtain ⟨taken,present,rfl⟩ := (has canonical middle).mp ⟨value,ran⟩
    rw [ran] at failed
    dsimp only at failed
    cases after : second (cursor.skip taken) with
    | error inner =>
      rw [after] at failed
      obtain rfl := Except.error.inj failed
      have told := later (canonical.skip taken) after
      rw [Cursor.source_skip,Cursor.unread_skip] at told
      rw [present]
      exact told
    | ok pair =>
      rw [after] at failed
      cases failed

theorem optional : parser.optional.Tells fun _ => False := by
  intro cursor _ failure failed
  unfold Parser.optional at failed
  split at failed <;> cases failed

theorem notFollowedBy : parser.notFollowedBy.Tells fun _ => False := by
  intro cursor _ failure failed
  unfold Parser.notFollowedBy at failed
  split at failed
  · obtain rfl := Except.error.inj failed
    exact Or.inr ⟨rfl,not_false⟩
  · cases failed

end Tells

theorem label_eq_of_error {parser : Parser α} {cursor : Cursor} {failure : Failure}
    (failed : parser cursor = .error failure) (what : String) :
    parser.label what cursor = match failure.kind with
      | .endOfSource | .unimplemented => .error failure
      | .unsatisfied | .exhausted => refuse cursor ("expected " ++ what) := by
  unfold label
  rw [failed]
  cases failure <;> rfl

theorem recognize_eq_of_error {parser : Parser α} {cursor : Cursor} {failure : Failure}
    (failed : parser cursor = .error failure) : parser.recognize cursor = .error failure := by
  rw [recognize_eq_andThen,andThen,failed]

/-- A recognizer of texts of a width that tells truncated text from text it refuses by a name. -/
structure Discerns (parser : Parser String) (what : String) (width : Width) : Prop where
  hasText : parser.HasText width
  truncated : ∀ ⦃cursor : Cursor⦄, cursor.Canonical → width cursor.unread = none →
    width.Extends cursor.unread →
      parser cursor = .error (.endOfSource ⟨cursor.source,cursor.source.size⟩)
  refused : ∀ ⦃cursor : Cursor⦄, cursor.Canonical → width cursor.unread = none →
    ¬width.Extends cursor.unread → parser cursor = refuse cursor ("expected " ++ what)

theorem Tells.discerns {parser : Parser α} {short : List Char → Prop} {width : Width}
    (tells : parser.Tells short) (has : parser.HasWidth width)
    (fits : ∀ ⦃units⦄, width units = none → (width.Extends units ↔ short units)) (what : String) :
    (parser.label what).recognize.Discerns what width := by
  have fails {cursor : Cursor} (canonical : cursor.Canonical) (missed : width cursor.unread = none) :
      ∃ failure, parser cursor = .error failure := by
    apply isOk_eq_false_iff.mp
    rw [has.isOk_eq canonical,missed]
    rfl
  refine ⟨(has.label what).recognize,?_,?_⟩
  · intro cursor canonical missed extended
    obtain ⟨failure,ran⟩ := fails canonical missed
    rcases tells canonical ran with ⟨rfl,_⟩ | ⟨_,enough⟩
    · exact recognize_eq_of_error (label_eq_of_error ran what)
    · exact absurd ((fits missed).mp extended) enough
  · intro cursor canonical missed final
    obtain ⟨failure,ran⟩ := fails canonical missed
    rcases tells canonical ran with ⟨_,short⟩ | ⟨unsatisfied,_⟩
    · exact absurd ((fits missed).mpr short) final
    · have labelled := label_eq_of_error ran what
      rw [unsatisfied] at labelled
      exact recognize_eq_of_error labelled

/-- A choice fails as exhausted, which a label does not let through. -/
theorem label_choice_eq {first : Parser α} {rest : List (Parser α)} {what : String} {cursor : Cursor}
    (missed : ((choice first rest).label what cursor).isOk = false) :
    (choice first rest).label what cursor = refuse cursor ("expected " ++ what) := by
  cases ran : choice first rest cursor with
  | error failure =>
    obtain ⟨told,_,rfl⟩ := mapError_eq_error_iff.mp ran
    rw [label_eq_of_error ran]
    cases told <;> rfl
  | ok found =>
    rw [label_eq_ok_iff.mpr ran] at missed
    cases missed

namespace Discerns
variable {letters marks guards : List Char} {parser second guard : Parser Char}

theorem single (tells : parser.Tells (· = [])) (has : parser.HasWidth (.single letters))
    (filled : letters ≠ []) (what : String) :
    (parser.label what).recognize.Discerns what (.single letters) :=
  tells.discerns has (fun _ missed => Width.single_extends_iff filled missed) what

theorem marked (filled : letters ≠ []) (tells : second.Tells (· = []))
    (has : second.HasWidth (.single marks)) (signed : marks ≠ []) (what : String) :
    (((oneOf letters).seq second).label what).recognize.Discerns what (.marked letters marks) :=
  ((Tells.oneOf letters).seq (.oneOf letters) tells).discerns
    ((HasWidth.oneOf letters).seq has)
    (fun _ missed => Width.marked_extends_iff filled signed missed) what

theorem carrying (filled : letters ≠ []) (has : guard.HasWidth (.single guards)) (what : String) :
    ((((oneOf letters).seq (oneOf marks).optional).seq guard.notFollowedBy).label
      what).recognize.Discerns what (.carrying letters marks guards) :=
  have carried := (HasWidth.oneOf letters).seq (HasWidth.oneOf marks).optional
  (((Tells.oneOf letters).seq (.oneOf letters) .optional).seq carried .notFollowedBy).discerns
    (carried.seq has.notFollowedBy)
    (fun _ missed => (Width.carrying_extends_iff filled missed).trans Width.carrying_short_iff.symm)
    what

theorem isOk_parse {grammar : Grammar String} {what : String} {width : Width}
    (discerns : grammar.run.Discerns what width) (source : Source) :
    (grammar.parse source).isOk = (width source.units.toList).isSome := by
  rw [Grammar.parse,discerns.hasText.hasWidth.isOk_eq (Cursor.start_canonical source),
    Cursor.unread_start]

theorem width_eq_none {grammar : Grammar String} {what : String} {width : Width}
    (discerns : grammar.run.Discerns what width) (source : Source)
    (missed : (grammar.parse source).isOk = false) : width source.units.toList = none := by
  rw [discerns.isOk_parse] at missed
  exact Option.isNone_iff_eq_none.mp (Option.isSome_eq_false_iff.mp missed)

theorem extends_iff {grammar : Grammar String} {what : String} {width : Width}
    (discerns : grammar.run.Discerns what width) (source : Source) :
    width.Extends source.units.toList ↔
      ∃ more : Source, (grammar.parse (source ++ more)).isOk = true := by
  simp only [discerns.isOk_parse,Source.units_append,Array.toList_append]
  constructor
  · intro extended
    obtain ⟨more,present⟩ := extended
    exact ⟨⟨more.toArray⟩,present⟩
  · intro extended
    obtain ⟨more,present⟩ := extended
    exact ⟨more.units.toList,present⟩

theorem parse_of_extends {grammar : Grammar String} {what : String} {width : Width}
    (discerns : grammar.run.Discerns what width) (source : Source)
    (missed : (grammar.parse source).isOk = false)
    (extended : width.Extends source.units.toList) :
    grammar.parse source = .error (.endOfSource ⟨source,source.size⟩) := by
  have absent := discerns.width_eq_none source missed
  rw [← Cursor.unread_start] at absent extended
  have told := discerns.truncated (Cursor.start_canonical source) absent extended
  rwa [Cursor.source_start] at told

theorem parse_of_not_extends {grammar : Grammar String} {what : String} {width : Width}
    (discerns : grammar.run.Discerns what width) (source : Source)
    (missed : (grammar.parse source).isOk = false)
    (final : ¬width.Extends source.units.toList) :
    grammar.parse source = refuse (Cursor.start source) ("expected " ++ what) := by
  have absent := discerns.width_eq_none source missed
  rw [← Cursor.unread_start] at absent final
  exact discerns.refused (Cursor.start_canonical source) absent final

end Discerns

end Parser

namespace Letter
open TamilScript.Parser

/-- The letters that have a recognizer of their own. -/
inductive Form where
  | shortVowel
  | longVowel
  | aytham
  | vowel
  | pureConsonant (group : ConsonantClass)
  | syllable (group : ConsonantClass)
  | shortSyllable (group : ConsonantClass)
  | longSyllable (group : ConsonantClass)
  deriving DecidableEq, Repr

namespace Form

def grammar : Form → Grammar String
  | shortVowel => Letter.shortVowel
  | longVowel => Letter.longVowel
  | aytham => loneAytham
  | vowel => Letter.vowel
  | pureConsonant group => Letter.pureConsonant group
  | syllable group => Letter.syllable group
  | shortSyllable group => Letter.shortSyllable group
  | longSyllable group => Letter.longSyllable group

/-- What the recognizer expects, in its own words. -/
def name : Form → String
  | shortVowel => "uyir kuril"
  | longVowel => "uyir nedil"
  | aytham => "ayudham"
  | vowel => "uyir"
  | pureConsonant group => group.name ++ " mei"
  | syllable group => group.name ++ " uyirmei"
  | shortSyllable group => group.name ++ " mei kuril"
  | longSyllable group => group.name ++ " mei nedil"

theorem discerns (form : Form) : ∃ width, form.grammar.run.Discerns form.name width := by
  have filled (group : ConsonantClass) : group.letters ≠ [] := by cases group <;> decide
  cases form with
  | shortVowel => exact ⟨_,.single (.oneOf shortVowels) (.oneOf shortVowels) (by decide) _⟩
  | longVowel => exact ⟨_,.single (.oneOf longVowels) (.oneOf longVowels) (by decide) _⟩
  | aytham =>
    exact ⟨_,.single (.exactly Letter.aytham) (.exactly Letter.aytham) (by decide) _⟩
  | vowel => exact ⟨_,.single (.oneOf vowels) (.oneOf vowels) (by decide) _⟩
  | pureConsonant group =>
    exact ⟨_,.marked (filled group) (.exactly pulli) (.exactly pulli) (by decide) _⟩
  | syllable group => exact ⟨_,.carrying (filled group) (.exactly pulli) _⟩
  | shortSyllable group => exact ⟨_,.carrying (filled group) (.oneOf signs) _⟩
  | longSyllable group =>
    exact ⟨_,.marked (filled group) (.oneOf longSigns) (.oneOf longSigns) (by decide) _⟩

end Form

/-- The kinds of letters whose recognizer chooses among others. -/
inductive Union where
  | short
  | long
  | primary
  | cluster
  deriving DecidableEq, Repr

namespace Union

def grammar : Union → Grammar String
  | short => Letter.short
  | long => Letter.long
  | primary => Letter.primary
  | cluster => Cluster.cluster

def name : Union → String
  | short => "kuril"
  | long => "nedil"
  | primary => "tamil letter"
  | cluster => "letter cluster"

theorem run_eq_label (union : Union) :
    ∃ first rest, union.grammar.run = (Parser.choice first rest).label union.name := by
  cases union <;> exact ⟨_,_,congrArg (Parser.label _) (Grammar.run_choice _ _)⟩

end Union

/-- A recognizer of one letter fails for want of units, at the end of the text, exactly when it would
match more of the text; whatever else it refuses it tells by its name at the start. A recognizer
that chooses among letters refuses every text by its name at the start. -/
theorem refusals_of_letters :
    (∀ (form : Form) (source : Source),
      (∀ location, form.grammar.parse source = .error (.endOfSource location) ↔
        location = ⟨source,source.size⟩ ∧ (form.grammar.parse source).isOk = false ∧
          ∃ more : Source, (form.grammar.parse (source ++ more)).isOk = true) ∧
      ((form.grammar.parse source).isOk = false →
        (¬∃ more : Source, (form.grammar.parse (source ++ more)).isOk = true) →
          form.grammar.parse source =
            .error (.unsatisfied ("expected " ++ form.name) ⟨source,0⟩))) ∧
    ∀ (union : Union) (source : Source), (union.grammar.parse source).isOk = false →
      union.grammar.parse source = .error (.unsatisfied ("expected " ++ union.name) ⟨source,0⟩) := by
  refine ⟨?_,?_⟩
  · intro form source
    obtain ⟨width,discerns⟩ := form.discerns
    rw [← discerns.extends_iff]
    have refused := discerns.parse_of_not_extends source
    rw [refuse,Cursor.location_start] at refused
    refine ⟨?_,refused⟩
    intro location
    constructor
    · intro failed
      have missed : (form.grammar.parse source).isOk = false := by
        rw [failed]
        rfl
      by_cases extended : width.Extends source.units.toList
      · have told := discerns.parse_of_extends source missed extended
        injection failed.symm.trans told with same
        injection same with place
        exact ⟨place,missed,extended⟩
      · cases failed.symm.trans (refused missed extended)
    · rintro ⟨rfl,missed,extended⟩
      exact discerns.parse_of_extends source missed extended
  · intro union source missed
    obtain ⟨first,rest,run⟩ := union.run_eq_label
    unfold Grammar.parse at missed ⊢
    rw [run] at missed ⊢
    rw [label_choice_eq missed,refuse,Cursor.location_start]

theorem consonant_awaits_long_sign :
    let bare := Source.ofString "க"
    let silent := Source.ofString "க்"
    (Form.longSyllable .hard).grammar.parse bare = .error (.endOfSource ⟨bare,1⟩) ∧
    (¬∃ more : Source, ((Form.syllable .every).grammar.parse (silent ++ more)).isOk = true) ∧
    (Form.syllable .every).grammar.parse silent =
      .error (.unsatisfied "expected any uyirmei" ⟨silent,0⟩) ∧
    Union.long.grammar.parse bare = .error (.unsatisfied "expected nedil" ⟨bare,0⟩) := by
  intro bare silent
  obtain ⟨forms,unions⟩ := refusals_of_letters
  obtain ⟨truncated,_⟩ := forms (.longSyllable .hard) bare
  obtain ⟨lacking,refused⟩ := forms (.syllable .every) silent
  have missed : ((Form.syllable .every).grammar.parse silent).isOk = false := by decide
  have never : ¬∃ more : Source,
      ((Form.syllable .every).grammar.parse (silent ++ more)).isOk = true := by
    intro extended
    have failed := (lacking ⟨silent,silent.size⟩).mpr ⟨rfl,missed,extended⟩
    exact absurd failed (by decide +kernel)
  refine ⟨(truncated ⟨bare,1⟩).mpr ⟨rfl,by decide,⟨.ofString "ா",by decide⟩⟩,never,
    refused missed never,unions .long bare (by decide)⟩

end Letter

end TamilScript
