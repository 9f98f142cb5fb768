import TamilScript.Duration
import TamilScript.Letter.Tables

/-! Which rule decides a duration, told by the first three units of a text. A vowel is decided by
itself, a consonant by its sign, and the unit behind the sign matters twice: a blank leaves the
sound ai long, and one more sign leaves a short sign without a rule. No recognizer is run. -/
namespace TamilScript.Duration
open Letter

structure Verdict where
  rule : String
  duration : Duration
  deriving DecidableEq, Repr

def Rule.verdict (rule : Rule) : Verdict := ⟨rule.name,rule.duration⟩

namespace Verdict

def short : Verdict := ⟨"kuril",one⟩

def long : Verdict := ⟨"nedil",two⟩

def shortenedAi : Verdict := ⟨"aikara kurukkam",one⟩

def shortenedAu : Verdict := ⟨"aukara kurukkam",one⟩

/-- The verdict on a consonant by the units after it. -/
def ofSigns? : List Char → Option Verdict
  | [] => some short
  | sign :: rest =>
    if sign = aiSign then if rest.head?.any isBlank then some long else some shortenedAi
    else if sign = auSign then some shortenedAu
    else if sign ∈ longSigns then some long
    else if sign ∈ shortSigns then if rest.head?.any (· ∈ signs) then none else some short
    else if sign = pulli then none
    else some short

def ofUnits? : List Char → Option Verdict
  | [] => none
  | letter :: rest =>
    if letter ∈ shortVowels ∨ letter = aytham then some short
    else if letter = Letter.au then some shortenedAu
    else if letter ∈ longVowels then some long
    else if letter ∈ consonants then ofSigns? rest
    else none

variable {letter sign : Char} {rest : List Char}

theorem ofUnits?_take (units : List Char) : ofUnits? (units.take 3) = ofUnits? units := by
  match units with
  | [] | [_] | [_,_] | _ :: _ :: _ :: _ => rfl

theorem ofUnits?_of_notMem_vowels (other : letter ∉ vowels) : ofUnits? (letter :: rest) =
    if letter ∈ consonants then ofSigns? rest else none := by
  obtain ⟨brief,extended,aytham⟩ := notMem_vowels_iff.mp other
  rw [ofUnits?,if_neg (not_or.mpr ⟨brief,aytham⟩),if_neg (ne_au_of_notMem_vowels other),
    if_neg extended]

theorem ofUnits?_of_consonant (sounds : letter ∈ consonants) :
    ofUnits? (letter :: rest) = ofSigns? rest := by
  rw [ofUnits?_of_notMem_vowels (notMem_vowels_of_consonant sounds),if_pos sounds]

theorem ofUnits?_of_vowel (stands : letter ∈ vowels) : (ofUnits? (letter :: rest)).isSome = true := by
  rw [ofUnits?]
  rcases mem_vowels_iff.mp stands with brief | extended | rfl
  · rw [if_pos (Or.inl brief)]
    rfl
  · rw [if_pos extended]
    split
    · rfl
    split <;> rfl
  · rw [if_pos (Or.inr rfl)]
    rfl

theorem ofSigns?_of_long (extended : sign ∈ longSigns) :
    (ofSigns? (sign :: rest)).isSome = true := by
  rw [ofSigns?,if_pos extended]
  split
  · split <;> rfl
  split <;> rfl

theorem ofSigns?_of_short (brief : sign ∈ shortSigns) : ofSigns? (sign :: rest) =
    if rest.head?.any (· ∈ signs) then none else some short := by
  have long := notMem_longSigns_of_short brief
  have ai : sign ≠ aiSign := by
    intro same
    exact long (same ▸ by decide)
  have au : sign ≠ auSign := by
    intro same
    exact long (same ▸ by decide)
  rw [ofSigns?,if_neg ai,if_neg au,if_neg long,if_pos brief]

theorem ofSigns?_pulli : ofSigns? (pulli :: rest) = none := rfl

theorem ofSigns?_of_notMem (plain : sign ∉ signs) : ofSigns? (sign :: rest) = some short := by
  have other {mark : Char} (member : mark ∈ signs) : sign ≠ mark := by
    intro same
    exact plain (same ▸ member)
  rw [mem_signs_iff,not_or,mem_vowelSigns_iff,not_or] at plain
  obtain ⟨⟨brief,long⟩,silent⟩ := plain
  rw [ofSigns?,if_neg (other (by decide)),if_neg (other (by decide)),if_neg long,if_neg brief,
    if_neg silent]

end Verdict

theorem ruleFor?_eq (text : String) : (ruleFor? text).map Rule.verdict =
    if isShortenedAi text then some .shortenedAi
    else if isShortenedAu text then some .shortenedAu
    else if isShort text then some .short
    else if isLong text then some .long else none := by
  have idle : isShortenedU text = false ∧ isShortenedI text = false ∧
      isShortenedM text = false ∧ isShortenedAytham text = false :=
    ⟨rfl,rfl,rfl,rfl⟩
  obtain ⟨u,i,m,aytham⟩ := idle
  unfold ruleFor? firstRule? rules
  cases ai : isShortenedAi text <;> cases au : isShortenedAu text <;>
    cases short : isShort text <;> cases long : isLong text <;>
    simp [u,i,m,aytham,ai,au,short,long] <;> rfl

theorem ofText?_eq_verdict (text : String) :
    ofText? text = ((ruleFor? text).map Rule.verdict).map Verdict.duration := by
  unfold ofText?
  cases ruleFor? text <;> rfl

end TamilScript.Duration
