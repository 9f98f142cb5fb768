import TamilScript.Proofs.Width
import TamilScript.Letter.Recognition

/-! Letter recognizers by the units they look at. What one takes is a letter alone, a letter with a
mark, or a letter with a mark it may lack and a guard behind. -/
namespace TamilScript.Letter
open TamilScript.Parser

section Widths
variable (group : ConsonantClass)

theorem shortVowel_hasText : HasText shortVowel.run (.single shortVowels) :=
  ((HasWidth.oneOf shortVowels).label _).recognize

theorem longVowel_hasText : HasText longVowel.run (.single longVowels) :=
  ((HasWidth.oneOf longVowels).label _).recognize

theorem loneAytham_hasText : HasText loneAytham.run (.single [aytham]) :=
  ((HasWidth.exactly aytham).label _).recognize

theorem vowel_hasText : HasText vowel.run (.single vowels) :=
  ((HasWidth.oneOf vowels).label _).recognize

theorem pureConsonant_hasText :
    HasText (pureConsonant group).run (.marked group.letters [pulli]) :=
  (((HasWidth.oneOf group.letters).seq (.exactly pulli)).label _).recognize

theorem syllable_hasText :
    HasText (syllable group).run (.carrying group.letters vowelSigns [pulli]) :=
  ((((HasWidth.oneOf group.letters).seq (HasWidth.oneOf vowelSigns).optional).seq
    (HasWidth.exactly pulli).notFollowedBy).label _).recognize

theorem shortSyllable_hasText :
    HasText (shortSyllable group).run (.carrying group.letters shortSigns signs) :=
  ((((HasWidth.oneOf group.letters).seq (HasWidth.oneOf shortSigns).optional).seq
    (HasWidth.oneOf signs).notFollowedBy).label _).recognize

theorem longSyllable_hasText :
    HasText (longSyllable group).run (.marked group.letters longSigns) :=
  (((HasWidth.oneOf group.letters).seq (.oneOf longSigns)).label _).recognize

def shortWidth : Width := (Width.single shortVowels).either ((Width.single [aytham]).either
  (.carrying consonants shortSigns signs))

theorem short_hasText : HasText short.run shortWidth := by
  apply HasText.label
  rw [Grammar.run_choice]
  exact shortVowel_hasText.choice_cons (loneAytham_hasText.choice_cons
    (shortSyllable_hasText .every).choice_nil)

def longWidth : Width := (Width.single longVowels).either (.marked consonants longSigns)

theorem long_hasText : HasText long.run longWidth := by
  apply HasText.label
  rw [Grammar.run_choice]
  exact longVowel_hasText.choice_cons (longSyllable_hasText .every).choice_nil

theorem primary_hasText :
    HasText primary.run ((Width.single vowels).either (.marked nativeConsonants [pulli])) := by
  apply HasText.label
  rw [Grammar.run_choice]
  exact vowel_hasText.choice_cons (pureConsonant_hasText .native).choice_nil

end Widths

end TamilScript.Letter
