import TamilScript.Proofs.Bounds
import TamilScript.Proofs.Durations
import TamilScript.Proofs.Exclusion

/-! Matches cut out of their text. A recognizer of one cluster looks past what it takes only to refuse
what it finds there, and it refuses nothing at the end of a text. So what it took, one unit or two, it
takes again where nothing else stands, and comes to the end of it. -/
namespace TamilScript

namespace Width
variable {letters marks guards : List Char} {width guard : Width}

/-- One or two units are taken, and they are taken without the units behind them. -/
def Recurs (width : Width) : Prop :=
  ∀ ⦃units : List Char⦄ ⦃taken : Nat⦄, width units = some taken →
    (taken = 1 ∨ taken = 2) ∧ taken ≤ units.length ∧ width (units.take taken) = some taken

theorem single_recurs (letters : List Char) : (single letters).Recurs := by
  intro units taken present
  obtain ⟨letter,member,rest,rfl⟩ := single_begins letters (Option.isSome_of_eq_some present)
  obtain rfl : 1 = taken := by simpa [member] using present
  exact ⟨Or.inl rfl,by simp,by simp [member]⟩

theorem marked_recurs (letters marks : List Char) : (marked letters marks).Recurs := by
  intro units taken present
  obtain ⟨letter,sounds,mark,carried,rest,rfl⟩ := marked_shape (Option.isSome_of_eq_some present)
  obtain rfl : 2 = taken := by simpa [sounds,carried] using present
  exact ⟨Or.inr rfl,by simp,by simp [sounds,carried]⟩

/-- A guard that lets the end of the text pass does not miss what stood behind. -/
theorem Recurs.guarded (recurs : width.Recurs) (open_ended : guard [] = none) :
    (width.andThen guard.absent).Recurs := by
  intro units total present
  obtain ⟨taken,more,here,free,rfl⟩ := andThen_eq_some_iff.mp present
  obtain ⟨size,within,again⟩ := recurs here
  obtain rfl : more = 0 := by
    unfold absent at free
    split at free <;> simp_all
  refine ⟨size,within,andThen_eq_some_iff.mpr ⟨taken,0,again,?_,rfl⟩⟩
  rw [Nat.add_zero,List.drop_take_self]
  simp [absent,open_ended]

theorem carrying_recurs (letters marks guards : List Char) :
    (carrying letters marks guards).Recurs := by
  refine Recurs.guarded ?_ (single_nil guards)
  intro units total present
  obtain ⟨taken,more,here,marked,rfl⟩ := andThen_eq_some_iff.mp present
  obtain ⟨letter,sounds,rest,rfl⟩ := single_begins letters (Option.isSome_of_eq_some here)
  obtain rfl : 1 = taken := by simpa [sounds] using here
  cases rest with
  | nil =>
    obtain rfl : 0 = more := by simpa [optional] using marked
    exact ⟨Or.inl rfl,by simp,present⟩
  | cons mark after =>
    by_cases carried : mark ∈ marks
    · obtain rfl : 1 = more := by simpa [optional,carried] using marked
      exact ⟨Or.inr rfl,by simp,by simp [andThen,optional,sounds,carried]⟩
    · obtain rfl : 0 = more := by simpa [optional,carried] using marked
      exact ⟨Or.inl rfl,by simp,by simp [andThen,optional,sounds]⟩

end Width

namespace Parser
variable {parser first : Parser String} {rest : List (Parser String)} {width : Width}

/-- The text of a match is what stands in its place, one or two units, and it matches alone. -/
structure CutOut (parser : Parser String) (cursor : Cursor) (text : String) (last : Cursor) :
    Prop where
  size : text.length = 1 ∨ text.length = 2
  written : Span.text? ⟨cursor.source,cursor.position,cursor.position + text.length⟩ = some text
  ends : last.position = cursor.position + text.length
  alone : parser (.start (.ofString text)) = .ok (text,.ended (.ofString text))

/-- Whatever matches in a text matches cut out of it. -/
def Recurs (parser : Parser String) : Prop :=
  ∀ ⦃cursor : Cursor⦄, cursor.Canonical → ∀ ⦃text : String⦄ ⦃last : Cursor⦄,
    parser cursor = .ok (text,last) → parser.CutOut cursor text last

theorem HasText.recurs (has : parser.HasText width) (recurs : width.Recurs) : parser.Recurs := by
  intro cursor canonical text last ran
  obtain ⟨taken,present,written,rfl⟩ := (has canonical text last).mp ran
  obtain ⟨size,within,again⟩ := recurs present
  have length : text.length = taken := by
    rw [written,String.length_ofList,List.length_take_of_le within]
  rw [Cursor.length_unread] at within
  have ends : (cursor.skip taken).position = cursor.position + taken :=
    congrArg Location.position (canonical.location_skip within)
  have spanned : (Span.between cursor (cursor.skip taken)).text = text := by
    rw [Span.text,Span.units,Span.between,Source.between_eq,ends,Nat.add_sub_cancel_left,written]
    rfl
  have cut := Span.text?_eq_some (Span.between_inRange canonical ⟨taken,rfl⟩)
  have units : cursor.unread.take taken = text.toList := by rw [written,String.toList_ofList]
  have start := Cursor.start_canonical (Source.ofString text)
  refine ⟨?_,?_,?_,(has start text _).mpr ⟨taken,?_,?_,?_⟩⟩
  · rwa [length]
  · rw [length,← ends,← spanned]
    exact cut
  · rw [length,ends]
  · rw [Cursor.unread_start,Source.units_ofString,← units]
    exact again
  · rw [Cursor.unread_start,Source.units_ofString,← length,← String.length_toList,List.take_length,
      String.ofList_toList]
  · rw [← Cursor.skip_start_size,Source.size_ofString,String.length_toList,length]

theorem Recurs.label (recurs : parser.Recurs) (what : String) : (parser.label what).Recurs := by
  intro cursor canonical text last ran
  have cut := recurs canonical (label_eq_ok_iff.mp ran)
  exact {cut with alone := label_eq_ok_iff.mpr cut.alone}

/-- One alternative matches the text in its place and alone, and no other matches either. -/
theorem Recurs.choice (apart : ∀ ⦃cursor : Cursor⦄, cursor.Canonical → Apart cursor (first :: rest))
    (recur : ∀ alternative ∈ first :: rest, alternative.Recurs) :
    (Parser.choice first rest).Recurs := by
  intro cursor canonical text last ran
  obtain ⟨chosen,member,matched⟩ := (apart canonical).choice_eq_ok_iff.mp ran
  have cut := recur chosen member canonical matched
  have alone := (apart (Cursor.start_canonical _)).choice_eq_ok_iff.mpr ⟨chosen,member,cut.alone⟩
  exact {cut with alone := alone}

end Parser

namespace Letter
open TamilScript.Parser

/-- The recognizers of one cluster, by its letter or by what becomes of its sound. -/
inductive ReadsCluster : Grammar String → Prop
  | form (form : Form) : ReadsCluster form.grammar
  | union (union : Union) : ReadsCluster union.grammar
  | shortenedAi : ReadsCluster Duration.shortenedAi
  | shortenedAu : ReadsCluster Duration.shortenedAu

theorem Form.recurs (form : Form) : form.grammar.run.Recurs := by
  refine form.hasText.recurs ?_
  cases form with
  | shortVowel | longVowel | aytham | vowel => exact Width.single_recurs _
  | pureConsonant | longSyllable => exact Width.marked_recurs _ _
  | syllable | shortSyllable => exact Width.carrying_recurs _ _ _

theorem Union.recurs (union : Union) : union.grammar.run.Recurs := by
  obtain ⟨first,rest,written,run⟩ := union.run_eq
  rw [run,union.run_inOrder]
  refine Recurs.label (.choice (fun _ => union.apart written) ?_) union.name
  intro alternative member
  have listed : alternative ∈ (first :: rest).map fun form => form.grammar.run := member
  obtain ⟨form,_,rfl⟩ := List.mem_map.mp listed
  exact form.recurs

theorem shortenedAi_recurs : Duration.shortenedAi.run.Recurs :=
  Duration.shortenedAi_hasText.recurs ((Width.marked_recurs consonants [aiSign]).guarded rfl)

theorem shortenedAu_recurs : Duration.shortenedAu.run.Recurs := by
  have vowel : HasText (Grammar.exactly au).recognize.run (.single [au]) :=
    (HasWidth.exactly au).recognize
  have signed : HasText ((Grammar.oneOf consonants).seq (.exactly auSign)).recognize.run
      (.marked consonants [auSign]) := ((HasWidth.oneOf consonants).seq (.exactly auSign)).recognize
  rw [Duration.shortenedAu,Grammar.run_choice]
  refine Recurs.choice ?_ (List.forall_mem_cons.mpr ⟨?_,List.forall_mem_singleton.mpr ?_⟩)
  · intro cursor canonical
    exact List.pairwise_pair.mpr
      (vowel.hasWidth.excludes signed.hasWidth (au_excludes_marked [auSign]) canonical)
  · exact vowel.recurs (Width.single_recurs [au])
  · exact signed.recurs (Width.marked_recurs consonants [auSign])

theorem ReadsCluster.recurs {grammar : Grammar String} (reads : ReadsCluster grammar) :
    grammar.run.Recurs := by
  cases reads with
  | form form => exact form.recurs
  | union union => exact union.recurs
  | shortenedAi => exact shortenedAi_recurs
  | shortenedAu => exact shortenedAu_recurs

/-- Wherever a recognizer of one cluster matches, its text has one unit or two, is the stretch of the
source up to where the match ends, and is matched again as a text of its own, to its end. -/
theorem match_recurs (grammar : Grammar String) (reads : ReadsCluster grammar) (source : Source)
    (cursor : Cursor) (reached : (Cursor.start source).Reaches cursor) (text : String)
    (last : Cursor) (ran : grammar.run cursor = .ok (text,last)) :
    (text.length = 1 ∨ text.length = 2) ∧
    Span.text? ⟨source,cursor.position,cursor.position + text.length⟩ = some text ∧
    last.position = cursor.position + text.length ∧
    grammar.parse (.ofString text) = .ok (text,.ended (.ofString text)) := by
  obtain ⟨size,written,ends,alone⟩ := reads.recurs reached.canonical_of_start ran
  rw [reached.source_of_start] at written
  exact ⟨size,written,ends,alone⟩

theorem shortened_ai_recurs :
    let source := Source.ofString "அகைம்"
    let cursor := Cursor.valid source 1
    (Cursor.start source).Reaches cursor ∧
    Duration.shortenedAi.run cursor = .ok ("கை",.valid source 3) ∧
    Span.text? ⟨source,1,3⟩ = some "கை" ∧
    Duration.shortenedAi.parse (.ofString "கை") = .ok ("கை",.ended (.ofString "கை")) := by
  intro source cursor
  have reached : (Cursor.start source).Reaches cursor := ⟨1,rfl⟩
  have ran : Duration.shortenedAi.run cursor = .ok ("கை",.valid source 3) := by decide +kernel
  obtain ⟨_,written,_,alone⟩ := match_recurs _ .shortenedAi source cursor reached _ _ ran
  exact ⟨reached,ran,written,alone⟩

end Letter

end TamilScript
