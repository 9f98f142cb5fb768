import TamilScript.Letter.Recognition

/-! Durations of letter clusters. A short cluster takes one beat and a long one two; shortening rules
take beats away and are tried first. The rules for half beats depend on the word around the letter
and have no conditions yet, so they never apply. -/
namespace TamilScript

inductive Duration where
  | half
  | one
  | two
  deriving DecidableEq, Ord, Repr

namespace Duration
open Grammar Letter

/-- The duration in half beats, so that durations add up as integers. -/
def halfBeats : Duration → Nat
  | half => 1
  | one => 2
  | two => 4

def shortenedU : Grammar String := unimplemented "kuttrialukaram"

def shortenedI : Grammar String := unimplemented "kuttrialikaram"

def shortenedM : Grammar String := unimplemented "makara kurukkam"

def shortenedAytham : Grammar String := unimplemented "ayudha kurukkam"

/-- A consonant with the sign ai, unless a blank follows it. -/
def shortenedAi : Grammar String :=
  (((oneOf consonants).seq (exactly aiSign)).recognize.seq whitespace.notFollowedBy).map Prod.fst

/-- The vowel au, or a consonant with its sign. -/
def shortenedAu : Grammar String :=
  choice (exactly au).recognize [((oneOf consonants).seq (exactly auSign)).recognize]

def isShortenedU (text : String) : Bool := shortenedU.opens text

def isShortenedI (text : String) : Bool := shortenedI.opens text

def isShortenedM (text : String) : Bool := shortenedM.opens text

def isShortenedAytham (text : String) : Bool := shortenedAytham.opens text

def isShortenedAi (text : String) : Bool := shortenedAi.opens text

def isShortenedAu (text : String) : Bool := shortenedAu.opens text

structure Rule where
  name : String
  applies : String → Bool
  duration : Duration

/-- The rules in the order in which they are tried. -/
def rules : List Rule :=
  [⟨"kuttrialukaram",isShortenedU,half⟩,
    ⟨"kuttrialikaram",isShortenedI,half⟩,
    ⟨"makara kurukkam",isShortenedM,half⟩,
    ⟨"ayudha kurukkam",isShortenedAytham,half⟩,
    ⟨"aikara kurukkam",isShortenedAi,one⟩,
    ⟨"aukara kurukkam",isShortenedAu,one⟩,
    ⟨"kuril",isShort,one⟩,
    ⟨"nedil",isLong,two⟩]

def firstRule? (rules : List Rule) (text : String) : Option Rule :=
  rules.find? fun rule => rule.applies text

def ruleFor? (text : String) : Option Rule := firstRule? rules text

/-- The duration of the cluster at the start of a text. A consonant without a vowel has none, nor
has what opens no cluster. -/
def ofText? (text : String) : Option Duration := (ruleFor? text).map Rule.duration

end Duration

end TamilScript
