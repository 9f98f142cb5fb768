/-! The letters of the Tamil script and how they are grouped. A vowel stands on its own; a
consonant carries a vowel sign, or the pulli, which takes its inherent vowel away, or neither. The
tables keep the traditional order of each group: the short signs are i, u, e and o, the long signs
aa, ii, uu, ee, ai, oo and au. -/
namespace TamilScript.Letter

/-- The aytham, which stands on its own like a vowel and is short. -/
def aytham : Char := '\u0B83'

/-- The sign that leaves a consonant without a vowel. -/
def pulli : Char := '\u0BCD'

def au : Char := '\u0B94'

def aiSign : Char := '\u0BC8'

def auSign : Char := '\u0BCC'

def shortVowels : List Char := ['அ', 'இ', 'உ', 'எ', 'ஒ']

def longVowels : List Char := ['ஆ', 'ஈ', 'ஊ', 'ஏ', 'ஐ', 'ஓ', au]

def vowels : List Char := shortVowels ++ longVowels ++ [aytham]

def hardConsonants : List Char := ['க', 'ச', 'ட', 'த', 'ப', 'ற']

def softConsonants : List Char := ['ங', 'ஞ', 'ண', 'ந', 'ம', 'ன']

def medialConsonants : List Char := ['ய', 'ர', 'ல', 'வ', 'ழ', 'ள']

/-- Grantha letters for sounds of other languages. -/
def borrowedConsonants : List Char := ['ஶ', 'ஜ', 'ஷ', 'ஸ', 'ஹ']

/-- The hard, soft and medial consonants, once more as one table. -/
def nativeConsonants : List Char :=
  ['க', 'ச', 'ட', 'த', 'ப', 'ற', 'ங', 'ஞ', 'ண', 'ந', 'ம', 'ன', 'ய', 'ர', 'ல', 'வ', 'ழ', 'ள']

/-- All consonants as one table. -/
def consonants : List Char :=
  ['க', 'ச', 'ட', 'த', 'ப', 'ற', 'ங', 'ஞ', 'ண', 'ந', 'ம', 'ன', 'ய', 'ர', 'ல', 'வ', 'ழ', 'ள',
    'ஶ', 'ஜ', 'ஷ', 'ஸ', 'ஹ']

def shortSigns : List Char := ['\u0BBF', '\u0BC1', '\u0BC6', '\u0BCA']

def longSigns : List Char := ['\u0BBE', '\u0BC0', '\u0BC2', '\u0BC7', aiSign, '\u0BCB', auSign]

def vowelSigns : List Char := shortSigns ++ longSigns

def signs : List Char := vowelSigns ++ [pulli]

inductive ConsonantClass where
  | hard
  | soft
  | medial
  | borrowed
  | native
  | every
  deriving DecidableEq, Repr

namespace ConsonantClass

def all : List ConsonantClass := [hard, soft, medial, borrowed, native, every]

def letters : ConsonantClass → List Char
  | hard => hardConsonants
  | soft => softConsonants
  | medial => medialConsonants
  | borrowed => borrowedConsonants
  | native => nativeConsonants
  | every => consonants

/-- The name of the class in the expectations of its recognizers. -/
def name : ConsonantClass → String
  | hard => "vali"
  | soft => "meli"
  | medial => "idai"
  | borrowed => "vada"
  | native => "tamil"
  | every => "any"

def contains (group : ConsonantClass) (letter : Char) : Bool := group.letters.contains letter

end ConsonantClass

def vowelKin : List (Char × Char) :=
  [('ஆ','அ'), ('ஈ','இ'), ('ஊ','உ'), ('ஏ','எ'), ('ஓ','ஒ'), ('ஐ','இ'), (au,'உ')]

def consonantKin : List (Char × Char) :=
  [('க','ங'), ('ச','ஞ'), ('ட','ண'), ('த','ந'), ('ப','ம'), ('ற','ன')]

def shortOf? (vowel : Char) : Option Char := vowelKin.lookup vowel

def nasalOf? (consonant : Char) : Option Char := consonantKin.lookup consonant

end TamilScript.Letter
