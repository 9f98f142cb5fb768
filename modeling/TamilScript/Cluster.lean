import TamilScript.Letter.Recognition
import TamilScript.Letter.Tables

/-! Letter clusters: what a reader of the script counts as one sign. A text is a sequence of
clusters when nothing else stands between its blank units. Beside the recognizers stands what the
script says about units, without a recognizer: a segmentation cuts units into clusters and blanks,
and does not depend on the order of alternatives or on how far a recognizer looks ahead. -/
namespace TamilScript.Cluster
open Grammar Letter

def cluster : Grammar String :=
  (choice vowel [pureConsonant .every, syllable .every]).label "letter cluster"

/-- Clusters to the end of the source, with blanks before and after each. -/
def sequence : Grammar (List String) :=
  ((skipWhitespace.seq cluster.lexeme.many).seq (endOfSource.label "letter cluster")).map
    fun ((_,found),_) => found

/-- The clusters of a source in order, or the failure at the first unit that continues none. -/
def clusters (source : Source) : Except Failure (List String) := (sequence.parse source).map Prod.fst

inductive IsCluster : List Char → Prop where
  | vowel {letter : Char} (stands : letter ∈ vowels) : IsCluster [letter]
  | bare {letter : Char} (sounds : letter ∈ consonants) : IsCluster [letter]
  | signed {letter sign : Char} (sounds : letter ∈ consonants) (carried : sign ∈ vowelSigns) :
      IsCluster [letter,sign]
  | pure {letter : Char} (sounds : letter ∈ consonants) : IsCluster [letter,pulli]

theorem isCluster_singleton_iff {letter : Char} :
    IsCluster [letter] ↔ letter ∈ vowels ∨ letter ∈ consonants := by
  constructor
  · intro cluster
    cases cluster with
    | vowel stands => exact Or.inl stands
    | bare sounds => exact Or.inr sounds
  · intro either
    rcases either with stands | sounds
    · exact .vowel stands
    · exact .bare sounds

theorem isCluster_pair_iff {letter sign : Char} :
    IsCluster [letter,sign] ↔ letter ∈ consonants ∧ sign ∈ signs := by
  rw [mem_signs_iff]
  constructor
  · intro cluster
    cases cluster with
    | signed sounds carried => exact ⟨sounds,Or.inl carried⟩
    | pure sounds => exact ⟨sounds,Or.inr rfl⟩
  · intro both
    obtain ⟨sounds,carried | rfl⟩ := both
    · exact .signed sounds carried
    · exact .pure sounds

instance : DecidablePred IsCluster
  | [] => isFalse (by intro cluster; cases cluster)
  | [_] => decidable_of_iff _ isCluster_singleton_iff.symm
  | [_,_] => decidable_of_iff _ isCluster_pair_iff.symm
  | _ :: _ :: _ :: _ => isFalse (by intro cluster; cases cluster)

/-- A cluster and the units after it that belong to no cluster. -/
structure Piece where
  cluster : List Char
  gap : List Char
  deriving DecidableEq

def Piece.units (piece : Piece) : List Char := piece.cluster ++ piece.gap

def Piece.text (piece : Piece) : String := String.ofList piece.cluster

def AllBlank (units : List Char) : Prop := ∀ unit ∈ units, isBlank unit = true

-- Over the units alone: an instance found for the binder could try every scalar value.
instance : DecidablePred AllBlank := fun _ => List.decidableBAll _ _

/-- The units are a blank lead followed by the pieces, each a cluster with a blank gap. -/
structure Segmented (units lead : List Char) (pieces : List Piece) : Prop where
  leading : AllBlank lead
  clusters : ∀ piece ∈ pieces, IsCluster piece.cluster
  gaps : ∀ piece ∈ pieces, AllBlank piece.gap
  whole : units = lead ++ pieces.flatMap Piece.units

theorem segmented_iff {units lead : List Char} {pieces : List Piece} : Segmented units lead pieces ↔
    AllBlank lead ∧ (∀ piece ∈ pieces, IsCluster piece.cluster) ∧
      (∀ piece ∈ pieces, AllBlank piece.gap) ∧ units = lead ++ pieces.flatMap Piece.units :=
  ⟨fun ⟨leading,clusters,gaps,whole⟩ => ⟨leading,clusters,gaps,whole⟩,
    fun ⟨leading,clusters,gaps,whole⟩ => ⟨leading,clusters,gaps,whole⟩⟩

instance (units lead : List Char) (pieces : List Piece) : Decidable (Segmented units lead pieces) :=
  decidable_of_iff _ segmented_iff.symm

/-- The unit would belong to the cluster at the end of the units before it. -/
inductive Continues : List Char → Char → Prop where
  | sign {letter unit : Char} (before : List Char) (sounds : letter ∈ consonants)
      (carried : unit ∈ signs) : Continues (before ++ [letter]) unit
  | pulli {letter sign : Char} (before : List Char) (sounds : letter ∈ consonants)
      (carried : sign ∈ vowelSigns) : Continues (before ++ [letter,sign]) pulli

/-- The cluster stands before the rest, and the rest does not continue it. -/
structure Leads (cluster rest : List Char) : Prop where
  isCluster : IsCluster cluster
  ends : ∀ unit ∈ rest.head?, ¬Continues cluster unit

inductive Stuck : List Char → Prop where
  | stray {unit : Char} (rest : List Char) (vowel : unit ∉ vowels) (consonant : unit ∉ consonants) :
      Stuck (unit :: rest)
  | doubled {letter sign : Char} (rest : List Char) (sounds : letter ∈ consonants)
      (carried : sign ∈ vowelSigns) : Stuck (letter :: sign :: pulli :: rest)

theorem IsCluster.ne_nil {units : List Char} (cluster : IsCluster units) : units ≠ [] := by
  cases cluster <;> simp

/-- A gap and a cluster share no unit, so a blank always ends a cluster. -/
theorem IsCluster.not_blank {units : List Char} (cluster : IsCluster units) :
    ∀ unit ∈ units, isBlank unit = false := by
  intro unit member
  cases cluster with
  | vowel stands =>
    obtain rfl := List.mem_singleton.mp member
    exact isBlank_of_vowel stands
  | bare sounds =>
    obtain rfl := List.mem_singleton.mp member
    exact isBlank_of_consonant sounds
  | signed sounds carried =>
    rcases List.mem_cons.mp member with rfl | second
    · exact isBlank_of_consonant sounds
    · obtain rfl := List.mem_singleton.mp second
      exact isBlank_of_sign (mem_signs_of_vowelSign carried)
  | pure sounds =>
    rcases List.mem_cons.mp member with rfl | second
    · exact isBlank_of_consonant sounds
    · obtain rfl := List.mem_singleton.mp second
      exact isBlank_of_sign pulli_mem_signs

theorem IsCluster.head_notMem_signs {units : List Char} (cluster : IsCluster units) :
    ∃ letter rest, units = letter :: rest ∧ letter ∉ signs ∧ isBlank letter = false := by
  cases cluster with
  | vowel stands => exact ⟨_,_,rfl,notMem_signs_of_vowel stands,isBlank_of_vowel stands⟩
  | bare sounds | signed sounds | pure sounds =>
    exact ⟨_,_,rfl,notMem_signs_of_consonant sounds,isBlank_of_consonant sounds⟩

end TamilScript.Cluster
