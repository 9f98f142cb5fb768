import TamilScript.Cluster
import TamilScript.Duration

/-! Kinds of clusters. A cluster without a vowel is silent, and a sounding one is short or long; the
units of the cluster tell which. A long cluster may be shortened by what it is and by what follows. -/
namespace TamilScript.Cluster
open Letter

inductive Kind where
  | silent
  | short
  | long
  deriving DecidableEq, Repr

namespace Kind

/-- Whether a text opens with a cluster of the kind. -/
def opens : Kind → String → Bool
  | silent => isPureConsonant .every
  | short => isShort
  | long => isLong

def duration? : Kind → Option Duration
  | silent => none
  | short => some .one
  | long => some .two

end Kind

inductive Sounds : Kind → List Char → Prop where
  | shortVowel {letter : Char} (brief : letter ∈ shortVowels) : Sounds .short [letter]
  | aytham : Sounds .short [aytham]
  | longVowel {letter : Char} (extended : letter ∈ longVowels) : Sounds .long [letter]
  | inherent {letter : Char} (sounds : letter ∈ consonants) : Sounds .short [letter]
  | shortSign {letter sign : Char} (sounds : letter ∈ consonants) (brief : sign ∈ shortSigns) :
      Sounds .short [letter,sign]
  | longSign {letter sign : Char} (sounds : letter ∈ consonants) (extended : sign ∈ longSigns) :
      Sounds .long [letter,sign]
  | pulli {letter : Char} (sounds : letter ∈ consonants) : Sounds .silent [letter,pulli]

/-- A cluster of the sound ai or au that loses a beat before the units that follow. -/
inductive Shortened : List Char → List Char → Prop where
  | ai {letter : Char} {rest : List Char} (sounds : letter ∈ consonants)
      (visible : ∀ unit ∈ rest.head?, isBlank unit = false) : Shortened [letter,aiSign] rest
  | au (rest : List Char) : Shortened [au] rest
  | auSign {letter : Char} (rest : List Char) (sounds : letter ∈ consonants) :
      Shortened [letter,auSign] rest

def AiBeforeBlank (cluster rest : List Char) : Prop :=
  (∃ letter ∈ consonants, cluster = [letter,aiSign]) ∧ ∃ unit ∈ rest.head?, isBlank unit = true

variable {kind other : Kind} {cluster rest : List Char}

theorem IsCluster.sounds (isCluster : IsCluster cluster) : ∃ kind, Sounds kind cluster := by
  cases isCluster with
  | vowel stands =>
    rcases mem_vowels_iff.mp stands with brief | extended | rfl
    · exact ⟨.short,.shortVowel brief⟩
    · exact ⟨.long,.longVowel extended⟩
    · exact ⟨.short,.aytham⟩
  | bare sounds => exact ⟨.short,.inherent sounds⟩
  | signed sounds carried =>
    rcases mem_vowelSigns_iff.mp carried with brief | extended
    · exact ⟨.short,.shortSign sounds brief⟩
    · exact ⟨.long,.longSign sounds extended⟩
  | pure sounds => exact ⟨.silent,.pulli sounds⟩

theorem Sounds.isCluster (sounds : Sounds kind cluster) : IsCluster cluster := by
  cases sounds with
  | shortVowel brief => exact .vowel (mem_vowels_iff.mpr (Or.inl brief))
  | aytham => exact .vowel (mem_vowels_iff.mpr (Or.inr (Or.inr rfl)))
  | longVowel extended => exact .vowel (mem_vowels_iff.mpr (Or.inr (Or.inl extended)))
  | inherent sounds => exact .bare sounds
  | shortSign sounds brief => exact .signed sounds (mem_vowelSigns_iff.mpr (Or.inl brief))
  | longSign sounds extended => exact .signed sounds (mem_vowelSigns_iff.mpr (Or.inr extended))
  | pulli sounds => exact .pure sounds

theorem not_sounds_short_of_long (extended : Sounds .long cluster) : ¬Sounds .short cluster := by
  intro brief
  cases extended with
  | @longVowel letter long =>
    have stands : letter ∈ vowels := mem_vowels_iff.mpr (Or.inr (Or.inl long))
    cases brief with
    | shortVowel short => exact notMem_longVowels_of_short short long
    | aytham => exact aytham_notMem_longVowels long
    | inherent sounds => exact notMem_vowels_of_consonant sounds stands
  | longSign sounds long =>
    cases brief with
    | shortSign _ short => exact notMem_longSigns_of_short short long

theorem not_sounds_silent (voiced : Sounds kind cluster) (other : kind ≠ .silent) :
    ¬Sounds .silent cluster := by
  intro silent
  cases silent with
  | pulli =>
    cases voiced with
    | shortSign _ brief =>
      exact ne_pulli_of_vowelSign (mem_vowelSigns_iff.mpr (Or.inl brief)) rfl
    | longSign _ extended =>
      exact ne_pulli_of_vowelSign (mem_vowelSigns_iff.mpr (Or.inr extended)) rfl
    | pulli => exact other rfl

theorem Sounds.unique (first : Sounds kind cluster) (second : Sounds other cluster) :
    kind = other := by
  cases kind with
  | silent =>
    apply Decidable.byContradiction
    intro differ
    exact not_sounds_silent second (Ne.symm differ) first
  | short =>
    cases other with
    | silent => exact absurd second (not_sounds_silent first (by decide))
    | short => rfl
    | long => exact absurd first (not_sounds_short_of_long second)
  | long =>
    cases other with
    | silent => exact absurd second (not_sounds_silent first (by decide))
    | short => exact absurd second (not_sounds_short_of_long first)
    | long => rfl

theorem Shortened.sounds (shortened : Shortened cluster rest) : Sounds .long cluster := by
  cases shortened with
  | ai sounds => exact .longSign sounds (by decide)
  | au => exact .longVowel (by decide)
  | auSign _ sounds => exact .longSign sounds (by decide)

theorem shortened_nil_iff :
    Shortened cluster [] ↔ Shortened cluster rest ∨ AiBeforeBlank cluster rest := by
  constructor
  · intro shortened
    cases shortened with
    | @ai letter _ sounds _ =>
      by_cases blank : ∃ unit ∈ rest.head?, isBlank unit = true
      · exact Or.inr ⟨⟨letter,sounds,rfl⟩,blank⟩
      · refine Or.inl (.ai sounds ?_)
        intro unit first
        rw [← Bool.not_eq_true]
        intro present
        exact blank ⟨unit,first,present⟩
    | au => exact Or.inl (.au rest)
    | auSign _ sounds => exact Or.inl (.auSign rest sounds)
  · intro either
    rcases either with shortened | ⟨⟨letter,sounds,rfl⟩,_⟩
    · cases shortened with
      | ai sounds => exact .ai sounds (by simp)
      | au => exact .au []
      | auSign _ sounds => exact .auSign [] sounds
    · exact .ai sounds (by simp)

theorem AiBeforeBlank.not_shortened (final : AiBeforeBlank cluster rest) :
    ¬Shortened cluster rest := by
  intro shortened
  obtain ⟨⟨letter,sounds,rfl⟩,unit,first,blank⟩ := final
  cases shortened with
  | ai _ visible =>
    rw [visible unit first] at blank
    contradiction

theorem AiBeforeBlank.sounds (final : AiBeforeBlank cluster rest) :
    Sounds .long cluster := by
  obtain ⟨⟨letter,sounds,rfl⟩,_⟩ := final
  exact .longSign sounds (by decide)

end TamilScript.Cluster
