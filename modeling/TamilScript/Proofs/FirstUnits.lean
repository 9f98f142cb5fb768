import TamilScript.Event
import TamilScript.Proofs.Durations

/-! Durations by the first units of a text. Every rule looks at three units at most, and on them the
cascade of rules gives the verdict of the table: the shortening rules come before the one for
long clusters, which they overlap, and no other two rules apply to one text. -/
namespace TamilScript.Duration
open Grammar Letter TamilScript.Parser

section Rules
variable {letter sign : Char} {rest : List Char}

theorem isShortenedAi_of_notMem (plain : letter ∉ consonants) :
    isShortenedAi (String.ofList (letter :: rest)) = false := by
  rw [isShortenedAi,opens_ofList shortenedAi_hasText.hasWidth,Width.andThen,
    Width.marked_of_notMem plain]
  rfl

theorem isShortenedAu_of_notMem (plain : letter ∉ consonants) :
    isShortenedAu (String.ofList (letter :: rest)) = decide (letter = Letter.au) := by
  rw [isShortenedAu,opens_ofList shortenedAu_hasText.hasWidth,Width.either,
    Width.marked_of_notMem plain]
  by_cases same : letter = Letter.au <;> simp [same]

theorem isShort_of_notMem (plain : letter ∉ consonants) :
    isShort (String.ofList (letter :: rest)) = decide (letter ∈ shortVowels ∨ letter = aytham) := by
  rw [isShort,opens_ofList short_hasText.hasWidth,shortWidth,Width.either,Width.either,
    Width.carrying_of_notMem plain]
  by_cases brief : letter ∈ shortVowels <;> by_cases same : letter = aytham <;> simp [brief,same]

theorem isLong_of_notMem (plain : letter ∉ consonants) :
    isLong (String.ofList (letter :: rest)) = decide (letter ∈ longVowels) := by
  rw [isLong,opens_ofList long_hasText.hasWidth,longWidth,Width.either,Width.marked_of_notMem plain]
  by_cases extended : letter ∈ longVowels <;> simp [extended]

theorem isShortenedAi_signed (sounds : letter ∈ consonants) :
    isShortenedAi (String.ofList (letter :: sign :: rest)) =
      (decide (sign = aiSign) && !rest.head?.any isBlank) := by
  rw [isShortenedAi,opens_ofList shortenedAi_hasText.hasWidth,Width.andThen,Width.marked_cons_cons]
  by_cases same : sign = aiSign
  · cases rest with
    | nil => simp [sounds,same,Width.absent,Width.one]
    | cons unit after => cases blank : isBlank unit <;> simp [sounds,same,Width.absent,Width.one,blank]
  · simp [same]

theorem isShortenedAu_signed (sounds : letter ∈ consonants) :
    isShortenedAu (String.ofList (letter :: sign :: rest)) = decide (sign = auSign) := by
  have vowel := ne_au_of_notMem_vowels (notMem_vowels_of_consonant sounds)
  rw [isShortenedAu,opens_ofList shortenedAu_hasText.hasWidth,Width.either,Width.marked_cons_cons]
  by_cases same : sign = auSign <;> simp [vowel,sounds,same]

theorem isShort_consonant (sounds : letter ∈ consonants) :
    isShort (String.ofList (letter :: rest)) =
      (Width.carrying consonants shortSigns signs (letter :: rest)).isSome := by
  obtain ⟨brief,_,aytham⟩ := notMem_vowels_iff.mp (notMem_vowels_of_consonant sounds)
  rw [isShort,opens_ofList short_hasText.hasWidth,shortWidth,Width.either,Width.either]
  simp [brief,aytham]

theorem isLong_signed (sounds : letter ∈ consonants) :
    isLong (String.ofList (letter :: sign :: rest)) = decide (sign ∈ longSigns) := by
  obtain ⟨_,extended,_⟩ := notMem_vowels_iff.mp (notMem_vowels_of_consonant sounds)
  rw [isLong,opens_ofList long_hasText.hasWidth,longWidth,Width.either,Width.marked_cons_cons]
  by_cases long : sign ∈ longSigns <;> simp [extended,sounds,long]

theorem isShort_signed (sounds : letter ∈ consonants) :
    isShort (String.ofList (letter :: sign :: rest)) =
      if sign ∈ shortSigns then !rest.head?.any (· ∈ signs) else decide (sign ∉ signs) := by
  rw [isShort_consonant sounds]
  by_cases brief : sign ∈ shortSigns
  · rw [Width.carrying_marked sounds brief,if_pos brief]
    cases rest with
    | nil => rfl
    | cons unit after => by_cases carried : unit ∈ signs <;> simp [carried]
  · have absent : Width.single shortSigns (sign :: rest) = none := by simp [brief]
    rw [Width.carrying_bare sounds absent,if_neg brief]
    by_cases carried : sign ∈ signs <;> simp [carried]

theorem ruleFor?_of_notMem (plain : letter ∉ consonants) :
    (ruleFor? (String.ofList (letter :: rest))).map Rule.verdict =
      Verdict.ofUnits? (letter :: rest) := by
  rw [ruleFor?_eq,isShortenedAi_of_notMem plain,isShortenedAu_of_notMem plain,
    isShort_of_notMem plain,isLong_of_notMem plain,Verdict.ofUnits?,if_neg plain]
  by_cases au : letter = Letter.au
  · subst au
    have other : ¬(Letter.au ∈ shortVowels ∨ Letter.au = aytham) := by decide
    simp [other]
  · simp only [au,decide_false,decide_eq_true_eq,Bool.false_eq_true,if_false]

theorem ruleFor?_bare (sounds : letter ∈ consonants) :
    (ruleFor? (String.ofList [letter])).map Rule.verdict = some .short := by
  have ai : isShortenedAi (String.ofList [letter]) = false := by
    rw [isShortenedAi,opens_ofList shortenedAi_hasText.hasWidth,Width.andThen,
      Width.marked_singleton]
    rfl
  have au : isShortenedAu (String.ofList [letter]) = false := by
    have vowel := ne_au_of_notMem_vowels (notMem_vowels_of_consonant sounds)
    rw [isShortenedAu,opens_ofList shortenedAu_hasText.hasWidth,Width.either,
      Width.marked_singleton]
    simp [vowel]
  have short : isShort (String.ofList [letter]) = true := by
    rw [isShort_consonant sounds,Width.carrying_bare sounds (Width.single_nil _)]
    rfl
  rw [ruleFor?_eq,ai,au,short]
  rfl

theorem ruleFor?_signed (sounds : letter ∈ consonants) :
    (ruleFor? (String.ofList (letter :: sign :: rest))).map Rule.verdict =
      Verdict.ofSigns? (sign :: rest) := by
  rw [ruleFor?_eq,isShortenedAi_signed sounds,isShortenedAu_signed sounds,
    isShort_signed sounds,isLong_signed sounds,Verdict.ofSigns?]
  by_cases ai : sign = aiSign
  · subst ai
    have brief : aiSign ∉ shortSigns := by decide
    have carried : aiSign ∈ signs := by decide
    have long : aiSign ∈ longSigns := by decide
    have au : aiSign ≠ auSign := by decide
    cases blank : rest.head?.any isBlank <;> simp [brief,carried,long,au]
  by_cases au : sign = auSign
  · subst au
    simp [ai]
  by_cases long : sign ∈ longSigns
  · have brief : sign ∉ shortSigns := fun brief => notMem_longSigns_of_short brief long
    have carried := mem_signs_of_vowelSign (mem_vowelSigns_iff.mpr (Or.inr long))
    simp [ai,au,long,brief,carried]
  by_cases brief : sign ∈ shortSigns
  · cases guarded : rest.head?.any (· ∈ signs) <;> simp [ai,au,long,brief]
  by_cases silent : sign = pulli
  · subst silent
    simp [ai,au,long,brief,pulli_mem_signs]
  · have plain : sign ∉ signs := by
      rw [mem_signs_iff,mem_vowelSigns_iff]
      exact not_or.mpr ⟨not_or.mpr ⟨brief,long⟩,silent⟩
    simp [ai,au,long,brief,silent,plain]

theorem ruleFor?_ofList (units : List Char) :
    (ruleFor? (String.ofList units)).map Rule.verdict = Verdict.ofUnits? units := by
  cases units with
  | nil => rfl
  | cons letter rest =>
    by_cases sounds : letter ∈ consonants
    · rw [Verdict.ofUnits?_of_consonant sounds]
      cases rest with
      | nil => exact ruleFor?_bare sounds
      | cons sign after => exact ruleFor?_signed sounds
    · exact ruleFor?_of_notMem sounds

end Rules

theorem ruleFor?_eq_ofUnits? (text : String) :
    (ruleFor? text).map Rule.verdict = Verdict.ofUnits? text.toList := by
  rw [← ruleFor?_ofList,String.ofList_toList]

/-- The duration of a text and the rule that is reported for it are those of the table for its first
three units. No text takes half a beat. -/
theorem observe_by_first_units (text : String) :
    observe text = (match Verdict.ofUnits? (text.toList.take 3) with
      | some verdict => (some verdict.duration,.ruleMatched text verdict.rule verdict.duration)
      | none => (none,.noRule text)) ∧
    ofText? text = (Verdict.ofUnits? (text.toList.take 3)).map Verdict.duration ∧
    ofText? text ≠ some .half := by
  rw [Verdict.ofUnits?_take,← ruleFor?_eq_ofUnits?]
  refine ⟨?_,ofText?_eq_verdict text,ofText?_ne_half text⟩
  unfold observe
  cases ruleFor? text <;> rfl

end TamilScript.Duration
