import TamilScript.Letter
import TamilScript.Source

/-! The tables of the script share no letter: a vowel, a consonant and a sign are told apart by the
unit alone, the pulli is no vowel sign, and none of them is blank. -/
namespace TamilScript.Letter
variable {unit : Char}

theorem letters_nodup : (vowels ++ consonants ++ signs).Nodup := by decide

private theorem letters_visible :
    (vowels ++ consonants ++ signs).all (fun unit => !isBlank unit) = true := by decide

theorem isBlank_eq_false (member : unit ∈ vowels ++ consonants ++ signs) :
    isBlank unit = false := by
  simpa using List.all_eq_true.mp letters_visible unit member

theorem isBlank_of_vowel (stands : unit ∈ vowels) : isBlank unit = false :=
  isBlank_eq_false (by simp [stands])

theorem isBlank_of_consonant (sounds : unit ∈ consonants) : isBlank unit = false :=
  isBlank_eq_false (by simp [sounds])

theorem isBlank_of_sign (carried : unit ∈ signs) : isBlank unit = false :=
  isBlank_eq_false (by simp [carried])

theorem mem_signs_iff : unit ∈ signs ↔ unit ∈ vowelSigns ∨ unit = pulli := by simp [signs]

theorem mem_signs_of_vowelSign (carried : unit ∈ vowelSigns) : unit ∈ signs :=
  mem_signs_iff.mpr (Or.inl carried)

theorem pulli_mem_signs : pulli ∈ signs := mem_signs_iff.mpr (Or.inr rfl)

theorem notMem_vowels_of_consonant (sounds : unit ∈ consonants) : unit ∉ vowels := by
  intro stands
  have apart := (List.nodup_append.mp (List.nodup_append.mp letters_nodup).1).2.2
  exact apart unit stands unit sounds rfl

theorem notMem_signs_of_consonant (sounds : unit ∈ consonants) : unit ∉ signs := by
  intro carried
  have apart := (List.nodup_append.mp letters_nodup).2.2
  exact apart unit (List.mem_append_right _ sounds) unit carried rfl

theorem notMem_signs_of_vowel (stands : unit ∈ vowels) : unit ∉ signs := by
  intro carried
  have apart := (List.nodup_append.mp letters_nodup).2.2
  exact apart unit (List.mem_append_left _ stands) unit carried rfl

theorem notMem_consonants_of_vowel (stands : unit ∈ vowels) : unit ∉ consonants := by
  intro sounds
  exact notMem_vowels_of_consonant sounds stands

theorem notMem_vowelSigns_of_vowel (stands : unit ∈ vowels) : unit ∉ vowelSigns := by
  intro carried
  exact notMem_signs_of_vowel stands (mem_signs_of_vowelSign carried)

theorem notMem_vowelSigns_of_consonant (sounds : unit ∈ consonants) : unit ∉ vowelSigns := by
  intro carried
  exact notMem_signs_of_consonant sounds (mem_signs_of_vowelSign carried)

theorem notMem_consonants_of_vowelSign (carried : unit ∈ vowelSigns) : unit ∉ consonants := by
  intro sounds
  exact notMem_vowelSigns_of_consonant sounds carried

theorem pulli_notMem_consonants : pulli ∉ consonants := by decide

theorem pulli_notMem_vowelSigns : pulli ∉ vowelSigns := by decide

theorem ne_pulli_of_vowelSign (carried : unit ∈ vowelSigns) : unit ≠ pulli := by
  intro same
  have apart := (List.nodup_append.mp (List.nodup_append.mp letters_nodup).2.1).2.2
  exact apart unit carried pulli List.mem_cons_self same

theorem mem_vowels_iff : unit ∈ vowels ↔ unit ∈ shortVowels ∨ unit ∈ longVowels ∨ unit = aytham := by
  simp [vowels]

theorem notMem_vowels_iff :
    unit ∉ vowels ↔ unit ∉ shortVowels ∧ unit ∉ longVowels ∧ unit ≠ aytham := by
  rw [mem_vowels_iff,not_or,not_or]

theorem ne_au_of_notMem_vowels (other : unit ∉ vowels) : unit ≠ au := by
  intro same
  rw [same] at other
  exact other (by decide)

theorem mem_vowelSigns_iff : unit ∈ vowelSigns ↔ unit ∈ shortSigns ∨ unit ∈ longSigns :=
  List.mem_append

theorem notMem_longVowels_of_short (brief : unit ∈ shortVowels) : unit ∉ longVowels := by
  intro extended
  have apart := (List.nodup_append.mp (List.nodup_append.mp letters_nodup).1).1
  exact (List.nodup_append.mp (List.nodup_append.mp apart).1).2.2 unit brief unit extended rfl

theorem aytham_notMem_longVowels : aytham ∉ longVowels := by decide

theorem notMem_longSigns_of_short (brief : unit ∈ shortSigns) : unit ∉ longSigns := by
  intro extended
  have apart := (List.nodup_append.mp (List.nodup_append.mp letters_nodup).2.1).1
  exact (List.nodup_append.mp apart).2.2 unit brief unit extended rfl

theorem ConsonantClass.letters_subset (group : ConsonantClass) : group.letters ⊆ consonants := by
  cases group <;> decide

end TamilScript.Letter
