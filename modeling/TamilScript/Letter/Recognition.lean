import TamilScript.Grammar
import TamilScript.Letter

/-! Recognizers of single letters. Each yields the text of the letter it matched, and each test asks
whether a text opens with such a letter. They look past their letter in different ways: a bare
consonant must not be followed by the pulli to be a syllable, and by no sign at all to be short. -/
namespace TamilScript.Letter
open Grammar

def shortVowel : Grammar String := ((oneOf shortVowels).label "uyir kuril").recognize

def longVowel : Grammar String := ((oneOf longVowels).label "uyir nedil").recognize

def loneAytham : Grammar String := ((exactly aytham).label "ayudham").recognize

def vowel : Grammar String := ((oneOf vowels).label "uyir").recognize

def pureConsonant (group : ConsonantClass) : Grammar String :=
  (((oneOf group.letters).seq (exactly pulli)).label (group.name ++ " mei")).recognize

def syllable (group : ConsonantClass) : Grammar String :=
  ((((oneOf group.letters).seq (oneOf vowelSigns).optional).seq
    (exactly pulli).notFollowedBy).label (group.name ++ " uyirmei")).recognize

/-- A consonant with a short vowel sign or with its inherent vowel, which is short. -/
def shortSyllable (group : ConsonantClass) : Grammar String :=
  ((((oneOf group.letters).seq (oneOf shortSigns).optional).seq
    (oneOf signs).notFollowedBy).label (group.name ++ " mei kuril")).recognize

def longSyllable (group : ConsonantClass) : Grammar String :=
  (((oneOf group.letters).seq (oneOf longSigns)).label (group.name ++ " mei nedil")).recognize

def short : Grammar String :=
  (choice shortVowel [loneAytham, shortSyllable .every]).label "kuril"

def long : Grammar String := (choice longVowel [longSyllable .every]).label "nedil"

def primary : Grammar String := (choice vowel [pureConsonant .native]).label "tamil letter"

def isShortVowel (text : String) : Bool := shortVowel.opens text

def isLongVowel (text : String) : Bool := longVowel.opens text

def isAytham (text : String) : Bool := loneAytham.opens text

def isVowel (text : String) : Bool := vowel.opens text

def isPureConsonant (group : ConsonantClass) (text : String) : Bool := (pureConsonant group).opens text

def isSyllable (group : ConsonantClass) (text : String) : Bool := (syllable group).opens text

def isPulli (text : String) : Bool := (exactly pulli).opens text

def isShortSign (text : String) : Bool := (oneOf shortSigns).opens text

def isLongSign (text : String) : Bool := (oneOf longSigns).opens text

def isVowelSign (text : String) : Bool := (oneOf vowelSigns).opens text

def isShortSyllable (text : String) : Bool := (shortSyllable .every).opens text

def isLongSyllable (text : String) : Bool := (longSyllable .every).opens text

def isShort (text : String) : Bool := short.opens text

def isLong (text : String) : Bool := long.opens text

def isPrimary (text : String) : Bool := primary.opens text

end TamilScript.Letter
