import TamilScript.Proofs.FirstUnits
import TamilScript.Proofs.Trailing

/-! Durations and clusters. A text has a duration where a cluster with a vowel opens it, but for two
kinds of text that the script does not know. One more vowel sign behind a short one leaves the
cluster as it is and takes its duration; the pulli behind a long sign takes the cluster and leaves the
duration. -/
namespace TamilScript.Cluster
open Letter Duration TamilScript.Parser

/-- The recognizer matches at the start of the text, and not a consonant with the pulli. -/
def OpensVoiced (text : String) : Prop :=
  ∃ found last, Cluster.cluster.parse (.ofString text) = .ok (found,last) ∧
    ∀ letter ∈ consonants, found ≠ String.ofList [letter,pulli]

/-- A consonant with a long sign and the pulli, which is in no cluster. -/
inductive LongSilenced : List Char → Prop
  | signs {letter extended : Char} (rest : List Char) (sounds : letter ∈ consonants)
      (long : extended ∈ longSigns) : LongSilenced (letter :: extended :: pulli :: rest)

section Leading
variable {units cluster rest : List Char}

theorem LongSilenced.stuck (silenced : LongSilenced units) : Stuck units := by
  cases silenced with
  | signs rest sounds long => exact .doubled rest sounds (mem_vowelSigns_iff.mpr (Or.inr long))

theorem parse_of_leads (leads : Leads cluster rest) : ∃ last,
    Cluster.cluster.parse (.ofString (String.ofList (cluster ++ rest))) =
      .ok (String.ofList cluster,last) := by
  have start := Cursor.start_canonical (Source.ofString (String.ofList (cluster ++ rest)))
  refine ⟨_,(cluster_hasText start _ _).mpr ⟨cluster.length,?_,?_,rfl⟩⟩
  · rw [Cursor.unread_start,Source.units_ofString,String.toList_ofList]
    exact width_of_leads leads
  · rw [Cursor.unread_start,Source.units_ofString,String.toList_ofList,List.take_left]

theorem ofUnits?_of_overloaded (overloaded : Overloaded units) : Verdict.ofUnits? units = none := by
  cases overloaded with
  | signs rest sounds short more =>
    rw [Verdict.ofUnits?_of_consonant sounds,Verdict.ofSigns?_of_short short]
    simp [mem_signs_of_vowelSign more]

theorem ofUnits?_of_voiced (leads : Leads cluster rest)
    (voiced : ∀ letter ∈ consonants, cluster ≠ [letter,pulli])
    (light : ¬Overloaded (cluster ++ rest)) :
    (Verdict.ofUnits? (cluster ++ rest)).isSome = true := by
  cases leads.isCluster with
  | vowel stands => exact Verdict.ofUnits?_of_vowel stands
  | bare sounds =>
    rw [List.singleton_append,Verdict.ofUnits?_of_consonant sounds]
    cases rest with
    | nil => rfl
    | cons unit after =>
      rw [Verdict.ofSigns?_of_notMem (leads.free_of_bare sounds unit rfl)]
      rfl
  | @signed letter sign sounds carried =>
    rw [List.cons_append,List.singleton_append,Verdict.ofUnits?_of_consonant sounds]
    rcases mem_vowelSigns_iff.mp carried with brief | long
    · rw [Verdict.ofSigns?_of_short brief]
      cases rest with
      | nil => rfl
      | cons unit after =>
        have silent := leads.free_of_signed sounds carried unit rfl
        have plain : unit ∉ signs := by
          intro guarded
          have extra := (mem_signs_iff.mp guarded).resolve_right silent
          exact light (.signs after sounds brief extra)
        simp [plain]
    · exact Verdict.ofSigns?_of_long long
  | pure sounds => exact absurd rfl (voiced _ sounds)

theorem ofUnits?_of_stuck (stuck : Stuck units) :
    (Verdict.ofUnits? units).isSome = true ↔ LongSilenced units := by
  cases stuck with
  | stray rest vowel consonant =>
    rw [Verdict.ofUnits?_of_notMem_vowels vowel,if_neg consonant]
    refine iff_of_false (by simp) ?_
    intro silenced
    cases silenced with
    | signs _ sounds => exact consonant sounds
  | doubled rest sounds carried =>
    rw [Verdict.ofUnits?_of_consonant sounds]
    rcases mem_vowelSigns_iff.mp carried with brief | long
    · rw [Verdict.ofSigns?_of_short brief]
      refine iff_of_false (by simp [pulli_mem_signs]) ?_
      intro silenced
      cases silenced with
      | signs _ _ long => exact notMem_longSigns_of_short brief long
    · exact iff_of_true (Verdict.ofSigns?_of_long long) (.signs rest sounds long)

end Leading

section Text
variable {text : String}

theorem opensVoiced_iff : OpensVoiced text ↔ ∃ cluster rest, text.toList = cluster ++ rest ∧
    Leads cluster rest ∧ ∀ letter ∈ consonants, cluster ≠ [letter,pulli] := by
  constructor
  · intro voiced
    obtain ⟨found,last,ran,apart⟩ := voiced
    obtain ⟨cluster,rest,rfl,rfl,leads⟩ := leads_of_parse ran
    refine ⟨cluster,rest,String.toList_ofList,leads,?_⟩
    intro letter sounds same
    exact apart letter sounds (congrArg String.ofList same)
  · intro led
    obtain ⟨cluster,rest,whole,leads,voiced⟩ := led
    obtain ⟨last,ran⟩ := parse_of_leads leads
    rw [← whole,String.ofList_toList] at ran
    refine ⟨_,last,ran,?_⟩
    intro letter sounds same
    exact voiced letter sounds (String.ofList_injective same)

theorem OpensVoiced.opens (voiced : OpensVoiced text) : Cluster.cluster.opens text = true := by
  obtain ⟨found,last,ran,_⟩ := voiced
  rw [Grammar.opens,ran]
  rfl

theorem LongSilenced.not_opens (silenced : LongSilenced text.toList) :
    Cluster.cluster.opens text = false := by
  rw [Grammar.opens_eq cluster_hasText.hasWidth,width_of_stuck silenced.stuck]
  rfl

theorem LongSilenced.not_opensVoiced (silenced : LongSilenced text.toList) : ¬OpensVoiced text := by
  intro voiced
  have opens := voiced.opens
  rw [silenced.not_opens] at opens
  contradiction

theorem Overloaded.not_timed (overloaded : Overloaded text.toList) : ofText? text = none := by
  rw [ofText?_eq_verdict,ruleFor?_eq_ofUnits?,ofUnits?_of_overloaded overloaded]
  rfl

theorem Overloaded.opensVoiced (overloaded : Overloaded text.toList) : OpensVoiced text := by
  obtain ⟨letter,_,brief,short,extra,_,after,whole,leads⟩ := overloaded.leads
  refine opensVoiced_iff.mpr ⟨_,_,whole,leads,?_⟩
  intro other _ same
  have carried : brief ∈ vowelSigns := mem_vowelSigns_iff.mpr (Or.inl short)
  injection same with _ same
  exact ne_pulli_of_vowelSign carried (List.singleton_inj.mp same)

/-- Stuck units are timed in the one case where they are silenced, and units that a cluster leads
where it is voiced and nothing overloads it. -/
theorem timed_iff : (ofText? text).isSome = true ↔
    LongSilenced text.toList ∨ OpensVoiced text ∧ ¬Overloaded text.toList := by
  rw [ofText?_eq_verdict,ruleFor?_eq_ofUnits?,Option.isSome_map]
  constructor
  · intro timed
    rcases leads_or_stuck text.toList with done | stuck | ⟨cluster,rest,whole,leads⟩
    · rw [done] at timed
      contradiction
    · exact Or.inl ((ofUnits?_of_stuck stuck).mp timed)
    · refine Or.inr ⟨opensVoiced_iff.mpr ⟨cluster,rest,whole,leads,?_⟩,?_⟩
      · intro letter sounds same
        rw [whole,same,List.cons_append,List.singleton_append,Verdict.ofUnits?_of_consonant sounds,
          Verdict.ofSigns?_pulli] at timed
        contradiction
      · intro overloaded
        rw [ofUnits?_of_overloaded overloaded] at timed
        contradiction
  · intro either
    rcases either with silenced | ⟨voiced,light⟩
    · exact (ofUnits?_of_stuck silenced.stuck).mpr silenced
    · obtain ⟨cluster,rest,whole,leads,voiced⟩ := opensVoiced_iff.mp voiced
      rw [whole] at light ⊢
      exact ofUnits?_of_voiced leads voiced light

end Text

/-- A text has a duration exactly where a voiced cluster opens it, but for two families: a consonant
with a long sign and the pulli is timed and no cluster, and one with a short sign and one more
vowel sign is a cluster and not timed. -/
theorem duration_iff_voiced (text : String) :
    (((ofText? text).isSome = true ↔ OpensVoiced text) ↔
      ¬LongSilenced text.toList ∧ ¬Overloaded text.toList) ∧
    (Cluster.cluster.opens text = false ∧ (ofText? text).isSome = true ↔
      LongSilenced text.toList) ∧
    (OpensVoiced text ∧ ofText? text = none ↔ Overloaded text.toList) := by
  refine ⟨⟨?_,?_⟩,⟨?_,?_⟩,⟨?_,?_⟩⟩
  · intro agree
    constructor
    · intro silenced
      exact silenced.not_opensVoiced (agree.mp (timed_iff.mpr (Or.inl silenced)))
    · intro overloaded
      have timed := agree.mpr overloaded.opensVoiced
      rw [overloaded.not_timed] at timed
      contradiction
  · intro neither
    obtain ⟨unsilenced,light⟩ := neither
    rw [timed_iff]
    simp [unsilenced,light]
  · intro both
    obtain ⟨closed,timed⟩ := both
    refine (timed_iff.mp timed).resolve_right ?_
    intro voiced
    rw [voiced.1.opens] at closed
    contradiction
  · intro silenced
    exact ⟨silenced.not_opens,timed_iff.mpr (Or.inl silenced)⟩
  · intro both
    obtain ⟨voiced,absent⟩ := both
    by_contra light
    have timed := timed_iff.mpr (Or.inr ⟨voiced,light⟩)
    rw [absent] at timed
    contradiction
  · intro overloaded
    exact ⟨overloaded.opensVoiced,overloaded.not_timed⟩

example : Cluster.cluster.opens "கா்" = false ∧ ofText? "கா்" = some .two ∧
    Cluster.cluster.opens "கிி" = true ∧ ofText? "கிி" = none := by decide +kernel

end TamilScript.Cluster
