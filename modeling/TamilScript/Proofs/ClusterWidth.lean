import TamilScript.Proofs.LetterWidth
import TamilScript.Cluster

/-! The leading cluster. The recognizer takes a cluster exactly where one stands before units that do
not continue it, and no other length; it takes nothing before a unit that is no letter and before
a consonant with both a vowel sign and the pulli. -/
namespace TamilScript.Cluster
open Letter TamilScript.Parser

def width : Width :=
  (Width.single vowels).either ((Width.marked consonants [pulli]).either
    (.carrying consonants vowelSigns [pulli]))

theorem cluster_hasText : HasText cluster.run width := by
  apply HasText.label
  rw [Grammar.run_choice]
  exact vowel_hasText.choice_cons ((pureConsonant_hasText .every).choice_cons
    (syllable_hasText .every).choice_nil)

section Continuation
variable {before : List Char} {letter sign unit : Char}

/-- The unit before decides, and for a vowel sign the one before that. -/
theorem continues_concat_iff : Continues (before ++ [letter]) unit ↔
    letter ∈ consonants ∧ unit ∈ signs ∨ letter ∈ vowelSigns ∧ unit = pulli ∧
      ∃ earlier consonant, before = earlier ++ [consonant] ∧ consonant ∈ consonants := by
  constructor
  · intro continued
    generalize whole : before ++ [letter] = units at continued
    cases continued with
    | sign start sounds carried =>
      obtain ⟨_,same⟩ := List.append_inj' whole rfl
      obtain rfl := List.singleton_inj.mp same
      exact Or.inl ⟨sounds,carried⟩
    | @pulli consonant mark start sounds carried =>
      have split : before ++ [letter] = (start ++ [consonant]) ++ [mark] := by simp [whole]
      obtain ⟨rest,same⟩ := List.append_inj' split rfl
      obtain rfl := List.singleton_inj.mp same
      exact Or.inr ⟨carried,rfl,start,consonant,rest,sounds⟩
  · intro either
    rcases either with ⟨sounds,carried⟩ | ⟨carried,rfl,earlier,consonant,rfl,sounds⟩
    · exact .sign before sounds carried
    · have continued := Continues.pulli earlier sounds carried
      simpa using continued

theorem not_continues_nil : ¬Continues [] unit := by
  intro continued
  generalize whole : ([] : List Char) = units at continued
  cases continued <;> simp at whole

/-- A blank, a vowel and the pulli let nothing follow inside their cluster. -/
theorem not_continues_concat (before : List Char) (consonant : letter ∉ consonants)
    (sign : letter ∉ vowelSigns) : ¬Continues (before ++ [letter]) unit := by
  rw [continues_concat_iff]
  intro either
  rcases either with ⟨sounds,_⟩ | ⟨carried,_⟩
  · exact consonant sounds
  · exact sign carried

theorem not_continues_pulli (before : List Char) : ¬Continues (before ++ [pulli]) unit :=
  not_continues_concat before pulli_notMem_consonants pulli_notMem_vowelSigns

theorem continues_bare_iff (before : List Char) (sounds : letter ∈ consonants) :
    Continues (before ++ [letter]) unit ↔ unit ∈ signs := by
  rw [continues_concat_iff]
  simp [sounds,notMem_vowelSigns_of_consonant sounds]

theorem continues_signed_iff (before : List Char) (sounds : letter ∈ consonants)
    (carried : sign ∈ vowelSigns) :
    Continues (before ++ [letter,sign]) unit ↔ unit = pulli := by
  have split : before ++ [letter,sign] = (before ++ [letter]) ++ [sign] := by simp
  rw [split,continues_concat_iff]
  have mark := notMem_consonants_of_vowelSign carried
  have present : ∃ earlier consonant, before ++ [letter] = earlier ++ [consonant] ∧
      consonant ∈ consonants := ⟨before,letter,rfl,sounds⟩
  simp only [mark,carried,present,false_and,true_and,and_true,false_or]

theorem Continues.mem_signs (continued : Continues before unit) : unit ∈ signs := by
  cases continued with
  | sign _ _ carried => exact carried
  | pulli => exact pulli_mem_signs

theorem Continues.append_left (continued : Continues before unit) (earlier : List Char) :
    Continues (earlier ++ before) unit := by
  cases continued with
  | sign start sounds carried =>
    rw [← List.append_assoc]
    exact .sign _ sounds carried
  | pulli start sounds carried =>
    rw [← List.append_assoc]
    exact .pulli _ sounds carried

/-- What stands before a cluster has no say in what continues it. -/
theorem IsCluster.continues_append_iff {cluster : List Char} (isCluster : IsCluster cluster) :
    Continues (before ++ cluster) unit ↔ Continues cluster unit := by
  cases isCluster with
  | vowel stands =>
    have consonant := notMem_consonants_of_vowel stands
    have sign := notMem_vowelSigns_of_vowel stands
    exact iff_of_false (not_continues_concat before consonant sign)
      (not_continues_concat [] consonant sign)
  | bare sounds =>
    rw [continues_bare_iff before sounds]
    exact (continues_bare_iff [] sounds).symm
  | signed sounds carried =>
    rw [continues_signed_iff before sounds carried]
    exact (continues_signed_iff [] sounds carried).symm
  | @pure letter sounds =>
    have split : before ++ [letter,pulli] = (before ++ [letter]) ++ [pulli] := by simp
    rw [split]
    exact iff_of_false (not_continues_pulli _) (not_continues_pulli [letter])

end Continuation

section Leading
variable {units cluster rest : List Char} {taken : Nat}

theorem leads_or_stuck (units : List Char) : units = [] ∨ Stuck units ∨
    ∃ cluster rest, units = cluster ++ rest ∧ Leads cluster rest := by
  cases units with
  | nil => exact Or.inl rfl
  | cons letter rest =>
    apply Or.inr
    by_cases stands : letter ∈ vowels
    · refine Or.inr ⟨[letter],rest,rfl,.vowel stands,?_⟩
      intro unit _
      exact not_continues_concat [] (notMem_consonants_of_vowel stands)
        (notMem_vowelSigns_of_vowel stands)
    by_cases sounds : letter ∈ consonants
    · cases rest with
      | nil => exact Or.inr ⟨[letter],[],rfl,.bare sounds,by simp⟩
      | cons sign after =>
        by_cases carried : sign ∈ vowelSigns
        · by_cases doubled : after.head? = some pulli
          · obtain ⟨tail,rfl⟩ := List.head?_eq_some_iff.mp doubled
            exact Or.inl (.doubled tail sounds carried)
          · refine Or.inr ⟨[letter,sign],after,rfl,.signed sounds carried,?_⟩
            intro unit first continued
            obtain rfl := (continues_signed_iff [] sounds carried).mp continued
            exact doubled first
        by_cases silent : sign = pulli
        · subst silent
          refine Or.inr ⟨[letter,pulli],after,rfl,.pure sounds,?_⟩
          intro unit _
          exact not_continues_pulli [letter]
        · refine Or.inr ⟨[letter],sign :: after,rfl,.bare sounds,?_⟩
          intro unit first continued
          obtain rfl : sign = unit := Option.some.inj first
          have member := (continues_bare_iff [] sounds).mp continued
          rcases mem_signs_iff.mp member with mark | mark
          · exact carried mark
          · exact silent mark
    · exact Or.inl (.stray rest stands sounds)

theorem Leads.free_of_bare {letter : Char} (leads : Leads [letter] rest)
    (sounds : letter ∈ consonants) : ∀ unit ∈ rest.head?, unit ∉ signs := by
  intro unit first carried
  exact leads.ends unit first ((continues_bare_iff [] sounds).mpr carried)

theorem Leads.free_of_signed {letter sign : Char} (leads : Leads [letter,sign] rest)
    (sounds : letter ∈ consonants) (carried : sign ∈ vowelSigns) :
    ∀ unit ∈ rest.head?, unit ≠ pulli := by
  intro unit first same
  exact leads.ends unit first ((continues_signed_iff [] sounds carried).mpr same)

theorem width_of_leads (leads : Leads cluster rest) :
    width (cluster ++ rest) = some cluster.length := by
  cases leads.isCluster with
  | vowel stands => simp [width,Width.either,stands]
  | @bare letter sounds =>
    have vowel := notMem_vowels_of_consonant sounds
    have free := leads.free_of_bare sounds
    have mark : ∀ unit ∈ rest.head?, unit ∉ vowelSigns := by
      intro unit first carried
      exact free unit first (mem_signs_of_vowelSign carried)
    have silent : ∀ unit ∈ rest.head?, unit ∉ [pulli] := by
      intro unit first same
      exact free unit first (mem_signs_iff.mpr (Or.inr (List.mem_singleton.mp same)))
    simp [width,Width.either,vowel,Width.marked_of_head silent,
      Width.carrying_bare sounds (Width.single_of_head mark),Width.single_of_head silent]
  | @signed letter sign sounds carried =>
    have vowel := notMem_vowels_of_consonant sounds
    have mark := ne_pulli_of_vowelSign carried
    have silent : ∀ unit ∈ rest.head?, unit ∉ [pulli] := by
      intro unit first same
      exact leads.free_of_signed sounds carried unit first (List.mem_singleton.mp same)
    simp [width,Width.either,vowel,mark,Width.carrying_marked sounds carried,
      Width.single_of_head silent]
  | pure sounds =>
    have vowel := notMem_vowels_of_consonant sounds
    simp [width,Width.either,vowel,sounds]

/-- Units open with one cluster at most, since its length is their width. -/
theorem Leads.unique {other further : List Char} (first : Leads cluster rest)
    (second : Leads other further) (same : cluster ++ rest = other ++ further) :
    cluster = other ∧ rest = further := by
  have taken := width_of_leads first
  rw [same,width_of_leads second] at taken
  exact List.append_inj same (Option.some.inj taken).symm

theorem width_of_stuck (stuck : Stuck units) : width units = none := by
  cases stuck with
  | @stray unit rest vowel consonant =>
    simp [width,Width.either,vowel,Width.marked_of_notMem consonant,
      Width.carrying_of_notMem consonant]
  | @doubled letter sign rest sounds carried =>
    have vowel := notMem_vowels_of_consonant sounds
    have mark := ne_pulli_of_vowelSign carried
    simp [width,Width.either,vowel,mark,Width.carrying_marked sounds carried]

theorem leads_of_width (present : width units = some taken) :
    ∃ cluster rest, units = cluster ++ rest ∧ Leads cluster rest ∧ taken = cluster.length := by
  rcases leads_or_stuck units with rfl | stuck | ⟨cluster,rest,rfl,leads⟩
  · simp [width,Width.either] at present
  · simp [width_of_stuck stuck] at present
  · have same := (width_of_leads leads).symm.trans present
    exact ⟨cluster,rest,rfl,leads,(Option.some.inj same).symm⟩

theorem width_eq_none_iff : width units = none ↔ units = [] ∨ Stuck units := by
  constructor
  · intro absent
    rcases leads_or_stuck units with done | stuck | ⟨cluster,rest,rfl,leads⟩
    · exact Or.inl done
    · exact Or.inr stuck
    · simp [width_of_leads leads] at absent
  · intro either
    rcases either with rfl | stuck
    · rfl
    · exact width_of_stuck stuck

end Leading

end TamilScript.Cluster
