import Mathlib.Control.Monad.Basic
import TamilScript.Duration.Verdict
import TamilScript.Proofs.Kinds
import TamilScript.Proofs.Splitting

/-! Durations of clusters in their context. The rules look past the cluster in one case only: the
sound ai is shortened unless a blank follows. So a cluster in its place has the duration of the
cluster cut out, or it ends a word in ai and is longer there. -/
namespace TamilScript.Duration
open Grammar Letter Cluster

theorem ofText?_eq (text : String) : ofText? text =
    if isShortenedAi text || isShortenedAu text then some .one
    else if isShort text then some .one
    else if isLong text then some .two else none := by
  rw [ofText?_eq_verdict,ruleFor?_eq]
  cases isShortenedAi text <;> cases isShortenedAu text <;> cases isShort text <;>
    cases isLong text <;> rfl

theorem ofText?_ne_half (text : String) : ofText? text ≠ some .half := by
  rw [ofText?_eq]
  split
  · decide
  split
  · decide
  split <;> decide

section Shortening
open TamilScript.Parser

theorem shortenedAi_hasText : HasText shortenedAi.run
    ((Width.marked consonants [aiSign]).andThen (Width.one isBlank).absent) :=
  ((HasWidth.oneOf consonants).seq (.exactly aiSign)).recognize.guarded
    (HasWidth.satisfy isBlank _)

theorem shortenedAu_hasText : HasText shortenedAu.run
    ((Width.single [Letter.au]).either (.marked consonants [auSign])) := by
  rw [shortenedAu,run_choice]
  exact (HasWidth.exactly Letter.au).recognize.choice_cons
    ((HasWidth.oneOf consonants).seq (.exactly auSign)).recognize.choice_nil

variable {kind : Kind} {cluster rest : List Char}

theorem blank_ahead_isSome_iff (units : List Char) :
    ((Width.one isBlank).absent units).isSome = true ↔
      ∀ unit ∈ units.head?, isBlank unit = false := by
  cases units with
  | nil => simp [Width.absent,Width.one]
  | cons unit after =>
    cases blank : isBlank unit <;> simp [Width.absent,Width.one,blank]

theorem isShortenedAi_append_iff (isCluster : IsCluster cluster)
    (free : ∀ unit ∈ rest.head?, unit ∉ signs) :
    isShortenedAi (String.ofList (cluster ++ rest)) = true ↔
      (∃ letter ∈ consonants, cluster = [letter,aiSign]) ∧
        ∀ unit ∈ rest.head?, isBlank unit = false := by
  rw [isShortenedAi,opens_ofList shortenedAi_hasText.hasWidth,← blank_ahead_isSome_iff]
  have carried : [aiSign] ⊆ signs := by decide
  have taken := marked_isSome_iff isCluster free carried
  simp only [List.mem_singleton,exists_eq_left] at taken
  rw [← taken]
  cases present : Width.marked consonants [aiSign] (cluster ++ rest) with
  | none => simp [Width.andThen,present]
  | some length =>
    rw [present] at taken
    obtain ⟨letter,sounds,rfl⟩ := taken.mp rfl
    obtain rfl : 2 = length := by simpa [sounds] using present
    simp [Width.andThen,sounds]

theorem isShortenedAu_append_iff (isCluster : IsCluster cluster)
    (free : ∀ unit ∈ rest.head?, unit ∉ signs) :
    isShortenedAu (String.ofList (cluster ++ rest)) = true ↔
      cluster = [Letter.au] ∨ ∃ letter ∈ consonants, cluster = [letter,auSign] := by
  rw [isShortenedAu,opens_ofList shortenedAu_hasText.hasWidth,Width.either,Option.isSome_or,
    Bool.or_eq_true,single_isSome_iff isCluster (by decide),
    marked_isSome_iff isCluster free (by decide)]
  simp only [List.mem_singleton,exists_eq_left]

theorem shortened_iff (isCluster : IsCluster cluster) (free : ∀ unit ∈ rest.head?, unit ∉ signs) :
    (isShortenedAi (String.ofList (cluster ++ rest)) ||
      isShortenedAu (String.ofList (cluster ++ rest))) = true ↔ Shortened cluster rest := by
  rw [Bool.or_eq_true,isShortenedAi_append_iff isCluster free,
    isShortenedAu_append_iff isCluster free]
  constructor
  · intro found
    rcases found with ⟨⟨letter,sounds,rfl⟩,visible⟩ | rfl | ⟨letter,sounds,rfl⟩
    · exact .ai sounds visible
    · exact .au rest
    · exact .auSign rest sounds
  · intro shortened
    cases shortened with
    | ai sounds visible => exact Or.inl ⟨⟨_,sounds,rfl⟩,visible⟩
    | au => exact Or.inr (Or.inl rfl)
    | auSign _ sounds => exact Or.inr (Or.inr ⟨_,sounds,rfl⟩)

theorem ofText?_of_shortened (shortened : Shortened cluster rest)
    (free : ∀ unit ∈ rest.head?, unit ∉ signs) :
    ofText? (String.ofList (cluster ++ rest)) = some .one := by
  rw [ofText?_eq,if_pos ((shortened_iff shortened.sounds.isCluster free).mpr shortened)]

theorem ofText?_of_not_shortened (sounds : Sounds kind cluster) (plain : ¬Shortened cluster rest)
    (free : ∀ unit ∈ rest.head?, unit ∉ signs) :
    ofText? (String.ofList (cluster ++ rest)) = kind.duration? := by
  have short := opens_append_iff_eq sounds free .short
  have long := opens_append_iff_eq sounds free .long
  simp only [Kind.opens] at short long
  rw [ofText?_eq,if_neg (mt (shortened_iff sounds.isCluster free).mp plain)]
  simp only [short,long]
  cases kind <;> simp [Kind.duration?]

end Shortening

section Context
variable {kind : Kind} {cluster rest : List Char}

theorem ofText?_alone_of_shortened (shortened : Shortened cluster []) :
    ofText? (String.ofList cluster) = some .one := by
  have known := ofText?_of_shortened shortened (by simp)
  rwa [List.append_nil] at known

theorem ofText?_alone_of_not_shortened (sounds : Sounds kind cluster)
    (plain : ¬Shortened cluster []) : ofText? (String.ofList cluster) = kind.duration? := by
  have known := ofText?_of_not_shortened sounds plain (by simp)
  rwa [List.append_nil] at known

theorem ofText?_aiBeforeBlank (final : AiBeforeBlank cluster rest)
    (free : ∀ unit ∈ rest.head?, unit ∉ signs) :
    ofText? (String.ofList (cluster ++ rest)) = some .two ∧
      ofText? (String.ofList cluster) = some .one := by
  refine ⟨ofText?_of_not_shortened final.sounds final.not_shortened free,?_⟩
  exact ofText?_alone_of_shortened (shortened_nil_iff.mpr (Or.inr final))

/-- Apart from a final ai, the duration of a cluster does not depend on what follows it. -/
theorem ofText?_append (isCluster : IsCluster cluster) (other : ¬AiBeforeBlank cluster rest)
    (free : ∀ unit ∈ rest.head?, unit ∉ signs) :
    ofText? (String.ofList (cluster ++ rest)) = ofText? (String.ofList cluster) := by
  by_cases shortened : Shortened cluster rest
  · rw [ofText?_of_shortened shortened free,
      ofText?_alone_of_shortened (shortened_nil_iff.mpr (Or.inl shortened))]
  · have plain : ¬Shortened cluster [] := by
      intro alone
      exact (shortened_nil_iff.mp alone).elim shortened other
    obtain ⟨kind,sounds⟩ := isCluster.sounds
    rw [ofText?_of_not_shortened sounds shortened free,ofText?_alone_of_not_shortened sounds plain]

theorem ofText?_eq_none_iff (isCluster : IsCluster cluster) :
    ofText? (String.ofList cluster) = none ↔ ∃ letter ∈ consonants, cluster = [letter,pulli] := by
  constructor
  · intro none
    by_cases shortened : Shortened cluster []
    · rw [ofText?_alone_of_shortened shortened] at none
      contradiction
    obtain ⟨kind,sounds⟩ := isCluster.sounds
    rw [ofText?_alone_of_not_shortened sounds shortened] at none
    cases sounds with
    | @pulli letter sounds => exact ⟨letter,sounds,rfl⟩
    | shortVowel | aytham | longVowel | inherent | shortSign | longSign => contradiction
  · intro silent
    obtain ⟨letter,sounds,rfl⟩ := silent
    have mute : Sounds .silent [letter,pulli] := .pulli sounds
    have plain : ¬Shortened [letter,pulli] [] := by
      intro shortened
      have same := mute.unique shortened.sounds
      contradiction
    exact ofText?_alone_of_not_shortened mute plain

/-- In an accepted source every cluster is of one kind, in its place as alone, and it has the same
duration there; only a consonant with the sign ai is shorter alone than before a blank. -/
theorem duration_in_context (source : Source) (found : List String)
    (accepted : clusters source = .ok found) :
    (∃ lead pieces, Segmented source.units.toList lead pieces ∧ found = pieces.map Piece.text ∧
      ∀ before piece after, pieces = before ++ piece :: after →
        let position := (lead ++ before.flatMap Piece.units).length
        let inside := String.ofList (source.suffix position)
        let following := source.suffix (position + piece.cluster.length)
        (∃ kind, (∀ other : Kind, other.opens inside = true ↔ other = kind) ∧
          ∀ other : Kind, other.opens piece.text = true ↔ other = kind) ∧
        (AiBeforeBlank piece.cluster following →
          ofText? inside = some .two ∧ ofText? piece.text = some .one) ∧
        (¬AiBeforeBlank piece.cluster following → ofText? inside = ofText? piece.text) ∧
        (ofText? piece.text = none ↔ ∃ letter ∈ consonants, piece.cluster = [letter,pulli])) ∧
    ∀ text, ofText? text ≠ some .half := by
  refine ⟨?_,ofText?_ne_half⟩
  obtain ⟨lead,pieces,segmented,rfl⟩ := segmented_of_clusters accepted
  refine ⟨lead,pieces,segmented,rfl,?_⟩
  intro before piece after split position inside following
  rw [split] at segmented
  obtain ⟨isCluster,whole,free⟩ := segmented.piece
  have suffix : source.suffix position =
      piece.cluster ++ (piece.gap ++ after.flatMap Piece.units) := by
    rw [Source.suffix,whole,List.drop_left]
  have behind : following = piece.gap ++ after.flatMap Piece.units := by
    have onward : following = (source.suffix position).drop piece.cluster.length :=
      List.drop_drop.symm
    rw [onward,suffix,List.drop_left]
  obtain ⟨kind,sounds⟩ := isCluster.sounds
  have alone : ∀ other : Kind, other.opens piece.text = true ↔ other = kind := by
    intro other
    have free : ∀ unit ∈ ([] : List Char).head?, unit ∉ signs := by simp
    have known := opens_append_iff_eq sounds free other
    rwa [List.append_nil] at known
  rw [← behind] at suffix free
  refine ⟨⟨kind,?_,alone⟩,?_,?_,ofText?_eq_none_iff isCluster⟩
  · intro other
    simp only [inside,suffix]
    exact opens_append_iff_eq sounds free other
  · intro final
    simp only [inside,suffix]
    exact ofText?_aiBeforeBlank final free
  · intro other
    simp only [inside,suffix]
    exact ofText?_append isCluster other free

theorem duration_final_ai :
    let source := Source.ofString " அக்கை வா"
    clusters source = .ok ["அ","க்","கை","வா"] ∧
    ofText? "கை வா" = some .two ∧ ofText? "கை" = some .one := by
  intro source
  have accepted : clusters source = .ok ["அ","க்","கை","வா"] := by decide +kernel
  obtain ⟨⟨lead,pieces,segmented,_,durations⟩,_⟩ := duration_in_context source _ accepted
  have shape : Segmented source.units.toList [' '] ([⟨['அ'],[]⟩,⟨['க',pulli],[]⟩] ++
      ⟨['க',aiSign],[' ']⟩ :: [⟨['வ','ா'],[]⟩]) := by decide +kernel
  obtain ⟨rfl,rfl⟩ := segmented.unique shape
  obtain ⟨_,final,_⟩ := durations _ _ _ rfl
  exact ⟨accepted,final ⟨⟨'க',by decide,rfl⟩,' ',by decide +kernel,by decide⟩⟩

end Context

end TamilScript.Duration
