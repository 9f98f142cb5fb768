import Mathlib.Control.Monad.Basic
import TamilScript.Proofs.ClusterWidth

/-! Tests of letters and what follows the leading cluster. Every recognizer of letters looks at the
leading cluster and at most one unit past it. Past the cluster it finds nothing that would change its
mind, but for one case: a short syllable must not be followed by a sign, and a vowel sign may
follow one with a short sign without belonging to the cluster. -/
namespace TamilScript

/-- Whether something of the width opens the units is told by their leading cluster. -/
def Width.Settled (width : Width) : Prop :=
  ∀ ⦃cluster rest : List Char⦄, Cluster.Leads cluster rest →
    (width (cluster ++ rest)).isSome = (width cluster).isSome

namespace Width
open Letter Cluster

variable {cluster rest letters marks guards : List Char}

theorem carrying_pair_of_notMem {letter mark : Char} (plain : mark ∉ marks) :
    (carrying letters marks guards (letter :: mark :: rest)).isSome =
      (carrying letters marks guards [letter,mark]).isSome := by
  by_cases sounds : letter ∈ letters
  · have absent (units : List Char) : single marks (mark :: units) = none := by simp [plain]
    rw [carrying_bare sounds (absent rest),carrying_bare sounds (absent []),single_cons,single_cons]
  · rw [carrying_of_notMem sounds,carrying_of_notMem sounds]

/-- The guard looks at the rest of the units only behind a letter with a mark. -/
theorem carrying_append (leads : Leads cluster rest) (within : letters ⊆ consonants)
    (carried : marks ⊆ vowelSigns) (guarding : guards ⊆ signs) :
    (carrying letters marks guards (cluster ++ rest)).isSome =
        (carrying letters marks guards cluster).isSome ∨
      ∃ letter ∈ consonants, ∃ mark ∈ marks, cluster = [letter,mark] ∧
        ∃ unit ∈ rest.head?, unit ∈ guards := by
  cases leads.isCluster with
  | @vowel letter stands =>
    apply Or.inl
    have plain : letter ∉ letters := by
      intro member
      exact notMem_consonants_of_vowel stands (within member)
    rw [List.singleton_append,carrying_of_notMem plain,carrying_of_notMem plain]
  | @bare letter sounds =>
    apply Or.inl
    have free := leads.free_of_bare sounds
    have unmarked : single marks rest = none := by
      apply single_of_head
      intro unit first member
      exact free unit first (mem_signs_of_vowelSign (carried member))
    have unguarded : single guards rest = none := by
      apply single_of_head
      intro unit first member
      exact free unit first (guarding member)
    rw [List.singleton_append]
    by_cases member : letter ∈ letters
    · rw [carrying_bare member unmarked,carrying_bare member (single_nil marks),unguarded,
        single_nil]
    · rw [carrying_of_notMem member,carrying_of_notMem member]
  | @signed letter sign sounds =>
    by_cases mark : sign ∈ marks
    · by_cases guarded : ∃ unit ∈ rest.head?, unit ∈ guards
      · exact Or.inr ⟨letter,sounds,sign,mark,rfl,guarded⟩
      · apply Or.inl
        have unguarded : single guards rest = none := by
          apply single_of_head
          intro unit first member
          exact guarded ⟨unit,first,member⟩
        rw [List.cons_append,List.singleton_append]
        by_cases member : letter ∈ letters
        · rw [carrying_marked member mark,carrying_marked member mark,unguarded,single_nil]
        · rw [carrying_of_notMem member,carrying_of_notMem member]
    · exact Or.inl (carrying_pair_of_notMem mark)
  | pure sounds =>
    have plain : pulli ∉ marks := by
      intro member
      exact pulli_notMem_vowelSigns (carried member)
    exact Or.inl (carrying_pair_of_notMem plain)

namespace Settled
variable {first second : Width}

theorem single (letters : List Char) : (Width.single letters).Settled := by
  intro cluster rest leads
  cases leads.isCluster <;> simp

theorem either (settled : first.Settled) (also : second.Settled) :
    (first.either second).Settled := by
  intro cluster rest leads
  simp only [Width.either,Option.isSome_or,settled leads,also leads]

theorem marked (within : letters ⊆ consonants) (carried : marks ⊆ signs) :
    (Width.marked letters marks).Settled := by
  intro cluster rest leads
  cases leads.isCluster with
  | @vowel letter stands =>
    have plain : letter ∉ letters := by
      intro member
      exact notMem_consonants_of_vowel stands (within member)
    rw [List.singleton_append,marked_of_notMem plain,marked_of_notMem plain]
  | bare sounds =>
    have free : ∀ unit ∈ rest.head?, unit ∉ marks := by
      intro unit first member
      exact leads.free_of_bare sounds unit first (carried member)
    rw [List.singleton_append,marked_of_head free,marked_singleton]
  | signed | pure =>
    rw [List.cons_append,List.singleton_append,marked_cons_cons,marked_cons_cons]

theorem syllable (within : letters ⊆ consonants) :
    (Width.carrying letters vowelSigns [pulli]).Settled := by
  intro cluster rest leads
  have guarding : [pulli] ⊆ signs := by decide
  rcases carrying_append leads within (List.Subset.refl _) guarding with
    same | ⟨letter,sounds,sign,carried,rfl,unit,first,guarded⟩
  · exact same
  · have silent := leads.free_of_signed sounds carried unit first
    exact absurd (List.mem_singleton.mp guarded) silent

end Settled

end Width

theorem Grammar.opens_eq_of_settled {α : Type} {grammar : Grammar α} {width : Width}
    (has : grammar.run.HasWidth width) (settled : width.Settled) {cluster rest : List Char}
    (leads : Cluster.Leads cluster rest) :
    grammar.opens (String.ofList (cluster ++ rest)) = grammar.opens (String.ofList cluster) := by
  rw [opens_ofList has,opens_ofList has,settled leads]

namespace Cluster
open Letter TamilScript.Parser

/-- A consonant with a short sign and one more vowel sign, which is in no cluster. -/
inductive Overloaded : List Char → Prop
  | signs {letter brief extra : Char} (rest : List Char) (sounds : letter ∈ consonants)
      (short : brief ∈ shortSigns) (more : extra ∈ vowelSigns) :
      Overloaded (letter :: brief :: extra :: rest)

section Short
variable {cluster rest : List Char}

theorem Overloaded.leads {units : List Char} (overloaded : Overloaded units) :
    ∃ letter ∈ consonants, ∃ brief ∈ shortSigns, ∃ extra ∈ vowelSigns, ∃ after,
      units = [letter,brief] ++ extra :: after ∧ Leads [letter,brief] (extra :: after) := by
  cases overloaded with
  | @signs letter brief extra after sounds short more =>
    have carried : brief ∈ vowelSigns := mem_vowelSigns_iff.mpr (Or.inl short)
    refine ⟨letter,sounds,brief,short,extra,more,after,rfl,.signed sounds carried,?_⟩
    intro unit first continued
    obtain rfl := Option.some.inj first
    exact ne_pulli_of_vowelSign more ((continues_signed_iff [] sounds carried).mp continued)

theorem Leads.of_overloaded (leads : Leads cluster rest)
    (overloaded : Overloaded (cluster ++ rest)) :
    ∃ letter ∈ consonants, ∃ brief ∈ shortSigns, ∃ extra ∈ vowelSigns, ∃ after,
      cluster = [letter,brief] ∧ rest = extra :: after := by
  obtain ⟨letter,sounds,brief,short,extra,more,after,whole,here⟩ := overloaded.leads
  obtain ⟨rfl,rfl⟩ := leads.unique here whole
  exact ⟨letter,sounds,brief,short,extra,more,after,rfl,rfl⟩

/-- A short syllable in its place is one cut out, unless one more vowel sign follows it. -/
theorem shortSyllable_append (leads : Leads cluster rest) :
    (Width.carrying consonants shortSigns signs (cluster ++ rest)).isSome =
        (Width.carrying consonants shortSigns signs cluster).isSome ∨
      Overloaded (cluster ++ rest) := by
  have carried : shortSigns ⊆ vowelSigns := fun _ => List.mem_append_left _
  rcases Width.carrying_append leads (List.Subset.refl _) carried (List.Subset.refl _) with
    same | ⟨letter,sounds,sign,brief,rfl,unit,first,guarded⟩
  · exact Or.inl same
  · have silent := leads.free_of_signed sounds (carried brief) unit first
    obtain ⟨tail,rfl⟩ := List.head?_eq_some_iff.mp first
    have extra := (mem_signs_iff.mp guarded).resolve_right silent
    exact Or.inr (.signs tail sounds brief extra)

theorem shortSyllable_of_overloaded (leads : Leads cluster rest)
    (overloaded : Overloaded (cluster ++ rest)) :
    Width.carrying consonants shortSigns signs (cluster ++ rest) = none ∧
      Width.carrying consonants shortSigns signs cluster = some 2 := by
  obtain ⟨letter,sounds,brief,short,extra,more,after,rfl,rfl⟩ := leads.of_overloaded overloaded
  have guarded : Width.single signs (extra :: after) = some 1 := by
    simp [mem_signs_of_vowelSign more]
  constructor
  · rw [List.cons_append,List.singleton_append,Width.carrying_marked sounds short,guarded]
    rfl
  · rw [Width.carrying_marked sounds short]
    rfl

theorem short_append (leads : Leads cluster rest) :
    (shortWidth (cluster ++ rest)).isSome = (shortWidth cluster).isSome ∨
      Overloaded (cluster ++ rest) := by
  rcases shortSyllable_append leads with same | overloaded
  · apply Or.inl
    simp only [shortWidth,Width.either,Option.isSome_or,same,
      Width.Settled.single shortVowels leads,Width.Settled.single [aytham] leads]
  · exact Or.inr overloaded

theorem short_of_overloaded (leads : Leads cluster rest)
    (overloaded : Overloaded (cluster ++ rest)) :
    shortWidth (cluster ++ rest) = none ∧ shortWidth cluster = some 2 := by
  obtain ⟨there,alone⟩ := shortSyllable_of_overloaded leads overloaded
  obtain ⟨letter,sounds,brief,_,extra,_,after,rfl,rfl⟩ := leads.of_overloaded overloaded
  obtain ⟨plain,_,other⟩ := notMem_vowels_iff.mp (notMem_vowels_of_consonant sounds)
  unfold shortWidth Width.either
  rw [there,alone]
  simp [plain,other]

end Short

theorem leads_of_parse {text found : String} {last : Cursor}
    (matched : Cluster.cluster.parse (.ofString text) = .ok (found,last)) :
    ∃ cluster rest, text = String.ofList (cluster ++ rest) ∧ found = String.ofList cluster ∧
      Leads cluster rest := by
  have start := Cursor.start_canonical (Source.ofString text)
  obtain ⟨taken,present,rfl,_⟩ := (cluster_hasText start found last).mp matched
  rw [Cursor.unread_start,Source.units_ofString] at present ⊢
  obtain ⟨cluster,rest,whole,leads,rfl⟩ := leads_of_width present
  refine ⟨cluster,rest,?_,?_,leads⟩
  · rw [← whole,String.ofList_toList]
  · rw [whole,List.take_left]

/-- What follows the leading cluster has no say in any test of letters but two: a text that opens
with a short sign and one more vowel sign after it is not told as short, and its cluster is. -/
theorem tests_of_leading_cluster (text found : String) (last : Cursor)
    (matched : Cluster.cluster.parse (.ofString text) = .ok (found,last)) :
    isShortVowel text = isShortVowel found ∧ isLongVowel text = isLongVowel found ∧
    isAytham text = isAytham found ∧ isVowel text = isVowel found ∧
    (∀ group, isPureConsonant group text = isPureConsonant group found) ∧
    (∀ group, isSyllable group text = isSyllable group found) ∧
    isLongSyllable text = isLongSyllable found ∧ isLong text = isLong found ∧
    isPrimary text = isPrimary found ∧
    (¬Overloaded text.toList →
      isShortSyllable text = isShortSyllable found ∧ isShort text = isShort found) ∧
    (Overloaded text.toList →
      isShortSyllable text = false ∧ isShortSyllable found = true ∧
      isShort text = false ∧ isShort found = true) := by
  obtain ⟨cluster,rest,rfl,rfl,leads⟩ := leads_of_parse matched
  have silent : [pulli] ⊆ signs := by decide
  have extended : longSigns ⊆ signs := by decide
  have syllables : (Width.marked consonants longSigns).Settled :=
    .marked (List.Subset.refl _) extended
  have natives : (Width.marked nativeConsonants [pulli]).Settled :=
    .marked ConsonantClass.native.letters_subset silent
  rw [String.toList_ofList]
  refine ⟨Grammar.opens_eq_of_settled shortVowel_hasText.hasWidth (.single _) leads,
    Grammar.opens_eq_of_settled longVowel_hasText.hasWidth (.single _) leads,
    Grammar.opens_eq_of_settled loneAytham_hasText.hasWidth (.single _) leads,
    Grammar.opens_eq_of_settled vowel_hasText.hasWidth (.single _) leads,?_,?_,
    Grammar.opens_eq_of_settled (longSyllable_hasText .every).hasWidth syllables leads,
    Grammar.opens_eq_of_settled long_hasText.hasWidth (.either (.single _) syllables) leads,
    Grammar.opens_eq_of_settled primary_hasText.hasWidth (.either (.single _) natives) leads,?_,?_⟩
  · intro group
    exact Grammar.opens_eq_of_settled (pureConsonant_hasText group).hasWidth
      (.marked group.letters_subset silent) leads
  · intro group
    exact Grammar.opens_eq_of_settled (syllable_hasText group).hasWidth
      (.syllable group.letters_subset) leads
  all_goals
    unfold isShortSyllable isShort
    rw [Grammar.opens_ofList (shortSyllable_hasText .every).hasWidth,
      Grammar.opens_ofList (shortSyllable_hasText .every).hasWidth,
      Grammar.opens_ofList short_hasText.hasWidth,Grammar.opens_ofList short_hasText.hasWidth]
  · intro light
    exact ⟨(shortSyllable_append leads).resolve_right light,(short_append leads).resolve_right light⟩
  · intro overloaded
    obtain ⟨there,alone⟩ := shortSyllable_of_overloaded leads overloaded
    obtain ⟨elsewhere,apart⟩ := short_of_overloaded leads overloaded
    rw [elsewhere,apart]
    exact ⟨congrArg Option.isSome there,congrArg Option.isSome alone,rfl,rfl⟩

theorem tests_of_overloaded_text :
    Cluster.cluster.parse (.ofString "கிி") = .ok ("கி",.valid (.ofString "கிி") 2) ∧
    Overloaded "கிி".toList ∧ isSyllable .hard "கிி" = isSyllable .hard "கி" ∧
    isShort "கிி" = false ∧ isShort "கி" = true := by
  have matched : Cluster.cluster.parse (.ofString "கிி") =
      .ok ("கி",.valid (.ofString "கிி") 2) := by decide +kernel
  have overloaded : Overloaded "கிி".toList := .signs [] (by decide) (by decide) (by decide)
  obtain ⟨_,_,_,_,_,syllables,_,_,_,_,short⟩ := tests_of_leading_cluster _ _ _ matched
  obtain ⟨_,_,there,alone⟩ := short overloaded
  exact ⟨matched,overloaded,syllables .hard,there,alone⟩

theorem short_tests_see_past_cluster :
    (Cluster.cluster.parse (.ofString "கிி")).map Prod.fst = .ok "கி" ∧
    isShortSyllable "கிி" ≠ isShortSyllable "கி" ∧ isShort "கிி" ≠ isShort "கி" := by
  decide +kernel

end Cluster

end TamilScript
