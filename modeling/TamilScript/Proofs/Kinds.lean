import TamilScript.Proofs.LetterWidth
import TamilScript.Cluster.Kind

/-! Kinds of clusters in their context. A test looks at the first units of a text and past them, and
yet it depends on the cluster alone where no sign follows, so a cluster in its place opens the same
kind of text as the cluster cut out. -/
namespace TamilScript.Cluster
open Letter TamilScript.Parser

section Widths
variable {letters marks cluster rest : List Char}

theorem single_isSome_iff (isCluster : IsCluster cluster) (stand : letters ⊆ vowels) :
    (Width.single letters (cluster ++ rest)).isSome = true ↔
      ∃ letter ∈ letters, cluster = [letter] := by
  have plain {letter : Char} (sounds : letter ∈ consonants) : letter ∉ letters := by
    intro member
    exact notMem_vowels_of_consonant sounds (stand member)
  cases isCluster with
  | vowel => simp
  | bare sounds => simp [plain sounds]
  | signed sounds | pure sounds => simp [plain sounds]

theorem marked_isSome_iff (isCluster : IsCluster cluster)
    (free : ∀ unit ∈ rest.head?, unit ∉ signs) (carried : marks ⊆ signs) :
    (Width.marked consonants marks (cluster ++ rest)).isSome = true ↔
      ∃ letter ∈ consonants, ∃ mark ∈ marks, cluster = [letter,mark] := by
  have beyond : ∀ unit ∈ rest.head?, unit ∉ marks := by
    intro unit first member
    exact free unit first (carried member)
  cases isCluster with
  | vowel stands =>
    have plain := notMem_consonants_of_vowel stands
    simp [Width.marked_of_notMem plain]
  | bare => simp [Width.marked_of_head beyond]
  | signed sounds | pure sounds => simp [sounds]

theorem carrying_isSome_iff (isCluster : IsCluster cluster)
    (free : ∀ unit ∈ rest.head?, unit ∉ signs) (carried : marks ⊆ signs) :
    (Width.carrying consonants marks signs (cluster ++ rest)).isSome = true ↔
      (∃ letter ∈ consonants, cluster = [letter]) ∨
      ∃ letter ∈ consonants, ∃ mark ∈ marks, cluster = [letter,mark] := by
  have beyond : ∀ unit ∈ rest.head?, unit ∉ marks := by
    intro unit first member
    exact free unit first (carried member)
  have guard := Width.single_of_head free
  have signed {letter sign : Char} (sounds : letter ∈ consonants) (mark : sign ∈ signs) :
      (Width.carrying consonants marks signs (letter :: sign :: rest)).isSome = true ↔
        sign ∈ marks := by
    by_cases member : sign ∈ marks
    · simp [Width.carrying_marked sounds member,guard,member]
    · have absent : Width.single marks (sign :: rest) = none := by simp [member]
      simp [Width.carrying_bare sounds absent,mark,member]
  cases isCluster with
  | vowel stands =>
    have plain := notMem_consonants_of_vowel stands
    simp [Width.carrying_of_notMem plain,plain]
  | bare sounds => simp [Width.carrying_bare sounds (Width.single_of_head beyond),guard,sounds]
  | signed sounds mark =>
    rw [List.cons_append,List.singleton_append,signed sounds (mem_signs_of_vowelSign mark)]
    simp [sounds]
  | pure sounds =>
    rw [List.cons_append,List.singleton_append,signed sounds pulli_mem_signs]
    simp [sounds]

end Widths

section Tests
variable {cluster rest : List Char}

theorem shortSigns_subset : shortSigns ⊆ signs := by decide

theorem longSigns_subset : longSigns ⊆ signs := by decide

/-- In front of anything but a sign, a cluster is told by itself. -/
theorem opens_append_iff {kind : Kind} (isCluster : IsCluster cluster)
    (free : ∀ unit ∈ rest.head?, unit ∉ signs) :
    kind.opens (String.ofList (cluster ++ rest)) = true ↔ Sounds kind cluster := by
  cases kind with
  | silent =>
    have width : isPureConsonant .every (String.ofList (cluster ++ rest)) = true ↔
        ∃ letter ∈ consonants, ∃ mark ∈ [pulli], cluster = [letter,mark] := by
      rw [isPureConsonant,Grammar.opens_ofList (pureConsonant_hasText .every).hasWidth]
      exact marked_isSome_iff isCluster free (by decide)
    rw [Kind.opens,width]
    constructor
    · intro found
      obtain ⟨letter,sounds,mark,same,rfl⟩ := found
      obtain rfl := List.mem_singleton.mp same
      exact .pulli sounds
    · intro silent
      cases silent with
      | pulli sounds => exact ⟨_,sounds,pulli,by simp,rfl⟩
  | short =>
    have width : isShort (String.ofList (cluster ++ rest)) = true ↔
        (∃ letter ∈ shortVowels, cluster = [letter]) ∨ (∃ letter ∈ [aytham], cluster = [letter]) ∨
        (∃ letter ∈ consonants, cluster = [letter]) ∨
        ∃ letter ∈ consonants, ∃ mark ∈ shortSigns, cluster = [letter,mark] := by
      rw [isShort,Grammar.opens_ofList short_hasText.hasWidth,shortWidth,Width.either,Width.either,
        Option.isSome_or,Option.isSome_or,Bool.or_eq_true,Bool.or_eq_true,
        single_isSome_iff isCluster (by decide),single_isSome_iff isCluster (by decide),
        carrying_isSome_iff isCluster free shortSigns_subset]
    rw [Kind.opens,width]
    constructor
    · intro found
      rcases found with ⟨letter,brief,rfl⟩ | ⟨letter,same,rfl⟩ | ⟨letter,sounds,rfl⟩ |
        ⟨letter,sounds,mark,brief,rfl⟩
      · exact .shortVowel brief
      · obtain rfl := List.mem_singleton.mp same
        exact .aytham
      · exact .inherent sounds
      · exact .shortSign sounds brief
    · intro short
      cases short with
      | shortVowel brief => exact Or.inl ⟨_,brief,rfl⟩
      | aytham => exact Or.inr (Or.inl ⟨_,by simp,rfl⟩)
      | inherent sounds => exact Or.inr (Or.inr (Or.inl ⟨_,sounds,rfl⟩))
      | shortSign sounds brief => exact Or.inr (Or.inr (Or.inr ⟨_,sounds,_,brief,rfl⟩))
  | long =>
    have width : isLong (String.ofList (cluster ++ rest)) = true ↔
        (∃ letter ∈ longVowels, cluster = [letter]) ∨
        ∃ letter ∈ consonants, ∃ mark ∈ longSigns, cluster = [letter,mark] := by
      rw [isLong,Grammar.opens_ofList long_hasText.hasWidth,longWidth,Width.either,Option.isSome_or,
        Bool.or_eq_true,single_isSome_iff isCluster (by decide),
        marked_isSome_iff isCluster free longSigns_subset]
    rw [Kind.opens,width]
    constructor
    · intro found
      rcases found with ⟨letter,extended,rfl⟩ | ⟨letter,sounds,mark,extended,rfl⟩
      · exact .longVowel extended
      · exact .longSign sounds extended
    · intro long
      cases long with
      | longVowel extended => exact Or.inl ⟨_,extended,rfl⟩
      | longSign sounds extended => exact Or.inr ⟨_,sounds,_,extended,rfl⟩

theorem opens_append_iff_eq {kind : Kind} (sounds : Sounds kind cluster)
    (free : ∀ unit ∈ rest.head?, unit ∉ signs) (other : Kind) :
    other.opens (String.ofList (cluster ++ rest)) = true ↔ other = kind := by
  rw [opens_append_iff sounds.isCluster free]
  constructor
  · intro also
    exact also.unique sounds
  · intro same
    rw [same]
    exact sounds

end Tests

end TamilScript.Cluster
