import TamilScript.Proofs.Exclusion
import TamilScript.Proofs.FirstUnits

/-! Rules in another order. The first rule that applies decides, so an order matters only between rules
that apply to one text. The rules for short and for long clusters exclude each other, as do the two that
shorten; but what is shortened is long as well, and there the shortening must be tried first. -/
namespace TamilScript

section FirstMatch
variable {α : Type} {items others : List α} {pass : α → Bool} {first second : α}

/-- No two members of a list without repetition stand in both orders. -/
theorem not_sublist_swap (distinct : items.Nodup) (ordered : [first,second].Sublist items) :
    ¬[second,first].Sublist items := by
  intro swapped
  induction items with
  | nil => cases ordered
  | cons head tail ih =>
    obtain ⟨fresh,later⟩ := List.nodup_cons.mp distinct
    cases ordered with
    | cons _ ordered =>
      cases swapped with
      | cons _ swapped => exact ih later ordered swapped
      | cons_cons => exact fresh (ordered.subset (by simp))
    | cons_cons _ ordered =>
      cases swapped with
      | cons _ swapped => exact fresh (swapped.subset (by simp))
      | cons_cons _ swapped => exact fresh (swapped.subset (by simp))

/-- What is found first stands before whatever else passes. -/
theorem sublist_of_find? (found : items.find? pass = some first) (member : second ∈ items)
    (passed : pass second = true) (differ : first ≠ second) : [first,second].Sublist items := by
  obtain ⟨_,before,after,rfl,missed⟩ := List.find?_eq_some_iff_append.mp found
  have later : second ∈ after := by
    rcases List.mem_append.mp member with earlier | later
    · have failed := missed second earlier
      simp [passed] at failed
    · exact (List.mem_cons.mp later).resolve_left (Ne.symm differ)
  exact ((List.singleton_sublist.mpr later).cons_cons first).trans (List.sublist_append_right _ _)

/-- Two orders in which no two that pass have changed places find the same first. -/
theorem find?_eq_of_perm (permuted : items.Perm others)
    (kept : ∀ first second, [first,second].Sublist items → pass first = true →
      pass second = true → ¬[second,first].Sublist others) :
    items.find? pass = others.find? pass := by
  cases found : items.find? pass with
  | none =>
    symm
    apply List.find?_eq_none.mpr
    intro item member
    exact List.find?_eq_none.mp found item (permuted.mem_iff.mpr member)
  | some first =>
    have passed := List.find?_some found
    have member := permuted.mem_iff.mp (List.mem_of_find?_eq_some found)
    cases also : others.find? pass with
    | none => exact absurd passed (List.find?_eq_none.mp also first member)
    | some second =>
      have matched := List.find?_some also
      have inside := permuted.mem_iff.mpr (List.mem_of_find?_eq_some also)
      apply congrArg some
      apply Classical.byContradiction
      intro differ
      -- Each order found its own first, so the two have changed places.
      have ordered := sublist_of_find? found inside matched differ
      have swapped := sublist_of_find? also member passed (Ne.symm differ)
      exact kept first second ordered passed matched swapped

end FirstMatch

namespace Width
variable {first second third : Width} {letters others marks : List Char}

/-- Where the first width takes something so does the second. -/
def Within (first second : Width) : Prop :=
  ∀ ⦃units : List Char⦄, (first units).isSome = true → (second units).isSome = true

theorem Within.either (within : first.Within third) (also : second.Within third) :
    (first.either second).Within third := by
  intro units taken
  rw [Width.either,Option.isSome_or,Bool.or_eq_true] at taken
  exact taken.elim (@within units) (@also units)

theorem Within.either_left (within : first.Within second) (third : Width) :
    first.Within (second.either third) := by
  intro units taken
  rw [Width.either,Option.isSome_or,within taken,Bool.true_or]

theorem Within.either_right (within : first.Within third) (second : Width) :
    first.Within (second.either third) := by
  intro units taken
  rw [Width.either,Option.isSome_or,within taken,Bool.or_true]

theorem Within.excludes (within : first.Within second) (excludes : second.Excludes third) :
    first.Excludes third := fun _ taken => excludes (within taken)

theorem Within.trans (within : first.Within second) (also : second.Within third) :
    first.Within third := fun _ taken => also (within taken)

theorem andThen_within (first second : Width) : (first.andThen second).Within first := by
  intro units taken
  obtain ⟨total,present⟩ := Option.isSome_iff_exists.mp taken
  obtain ⟨more,_,here,_⟩ := andThen_eq_some_iff.mp present
  exact Option.isSome_of_eq_some here

theorem single_within (subset : letters ⊆ others) : (single letters).Within (single others) := by
  intro units taken
  obtain ⟨letter,member,rest,rfl⟩ := single_begins letters taken
  rw [single_cons,if_pos (subset member)]
  rfl

theorem marked_within (letters : List Char) (subset : marks ⊆ others) :
    (marked letters marks).Within (marked letters others) := by
  intro units taken
  obtain ⟨letter,sounds,mark,carried,rest,rfl⟩ := marked_shape taken
  simp [sounds,subset carried]

end Width

namespace Grammar
variable {α β : Type} {grammar : Grammar α} {other : Grammar β} {width further : Width} {text : String}
open TamilScript.Parser

theorem opens_of_within (has : grammar.run.HasWidth width) (also : other.run.HasWidth further)
    (within : width.Within further) (opens : grammar.opens text = true) : other.opens text = true := by
  rw [opens_eq has] at opens
  rw [opens_eq also,within opens]

theorem not_opens_of_excludes (has : grammar.run.HasWidth width) (also : other.run.HasWidth further)
    (excludes : width.Excludes further) (opens : grammar.opens text = true) :
    other.opens text = false := by
  rw [opens_eq has] at opens
  rw [opens_eq also,excludes opens]
  rfl

end Grammar

namespace Letter

theorem shortWidth_excludes_longWidth : shortWidth.Excludes longWidth := by
  have sound : (Form.longSyllable .every).letters ⊆ consonants := List.Subset.refl _
  have shortVowel : Form.shortVowel.width.Excludes longWidth := by
    refine Width.Excludes.either_right ?_ (Form.excludes_of_vowel (by decide) sound)
    refine Form.shortVowel.width_begins.excludes Form.longVowel.width_begins ?_
    intro letter brief
    exact notMem_longVowels_of_short brief
  have aytham : Form.aytham.width.Excludes longWidth := by
    refine Width.Excludes.either_right ?_ (Form.excludes_of_vowel (by decide) sound)
    refine Form.aytham.width_begins.excludes Form.longVowel.width_begins ?_
    intro letter same
    obtain rfl := List.mem_singleton.mp same
    exact aytham_notMem_longVowels
  have syllable : (Form.shortSyllable .every).width.Excludes longWidth := by
    apply Width.Excludes.symm
    have vowel : Form.longVowel.width.Excludes (Form.shortSyllable .every).width :=
      Form.excludes_of_vowel (by decide) sound
    refine vowel.either (Width.marked_excludes_carrying _ _ Cluster.longSigns_subset ?_)
    intro mark long brief
    exact notMem_longSigns_of_short brief long
  exact shortVowel.either (aytham.either syllable)

end Letter

namespace Duration
open Letter
variable {text : String}

theorem isLong_of_shortenedAi (shortened : isShortenedAi text = true) : isLong text = true := by
  have marks : [aiSign] ⊆ longSigns := by decide
  refine Grammar.opens_of_within shortenedAi_hasText.hasWidth long_hasText.hasWidth ?_ shortened
  exact ((Width.andThen_within _ _).trans (Width.marked_within consonants marks)).either_right _

theorem isLong_of_shortenedAu (shortened : isShortenedAu text = true) : isLong text = true := by
  have vowel : [Letter.au] ⊆ longVowels := by decide
  have marks : [auSign] ⊆ longSigns := by decide
  refine Grammar.opens_of_within shortenedAu_hasText.hasWidth long_hasText.hasWidth ?_ shortened
  exact ((Width.single_within vowel).either_left _).either
    ((Width.marked_within consonants marks).either_right _)

theorem not_isLong_of_short (brief : isShort text = true) : isLong text = false :=
  Grammar.not_opens_of_excludes short_hasText.hasWidth long_hasText.hasWidth
    shortWidth_excludes_longWidth brief

theorem not_isShort_of_long (extended : isLong text = true) : isShort text = false :=
  Grammar.not_opens_of_excludes long_hasText.hasWidth short_hasText.hasWidth
    shortWidth_excludes_longWidth.symm extended

theorem not_shortenedAu_of_shortenedAi (shortened : isShortenedAi text = true) :
    isShortenedAu text = false := by
  have apart : (Width.marked consonants [aiSign]).Excludes (.marked consonants [auSign]) := by
    apply Width.marked_excludes_marked
    intro mark same
    obtain rfl := List.mem_singleton.mp same
    decide
  have excludes := Width.Excludes.either_right (au_excludes_marked [aiSign]).symm apart
  exact Grammar.not_opens_of_excludes shortenedAi_hasText.hasWidth shortenedAu_hasText.hasWidth
    ((Width.andThen_within _ _).excludes excludes) shortened

theorem halves_idle (text : String) : isShortenedU text = false ∧ isShortenedI text = false ∧
    isShortenedM text = false ∧ isShortenedAytham text = false := ⟨rfl,rfl,rfl,rfl⟩

/-- The one rule stands before the other, by their names. -/
def Precedes (order : List Rule) (first second : String) : Prop :=
  [first,second].Sublist (order.map Rule.name)

instance (order : List Rule) (first second : String) : Decidable (Precedes order first second) :=
  inferInstanceAs (Decidable (List.Sublist _ _))

theorem names_distinct : (rules.map Rule.name).Nodup := by decide

/-- Two rules that apply to one text are a rule that shortens and, later on, the one for long clusters. -/
theorem rules_overlap (text : String) : rules.Pairwise fun first second =>
    first.applies text = true → second.applies text = true →
      (first.name = "aikara kurukkam" ∨ first.name = "aukara kurukkam") ∧ second.name = "nedil" := by
  obtain ⟨u,i,m,aytham⟩ := halves_idle text
  have ai : isShortenedAi text = true → isShortenedAu text = false ∧ isShort text = false := by
    intro shortened
    exact ⟨not_shortenedAu_of_shortenedAi shortened,
      not_isShort_of_long (isLong_of_shortenedAi shortened)⟩
  have au : isShortenedAu text = true → isShort text = false := by
    intro shortened
    exact not_isShort_of_long (isLong_of_shortenedAu shortened)
  have short : isShort text = true → isLong text = false := not_isLong_of_short
  simp +contextual [rules,u,i,m,aytham,ai,au,short]

theorem firstRule?_reordered {order : List Rule} (permuted : order.Perm rules)
    (ai : Precedes order "aikara kurukkam" "nedil") (au : Precedes order "aukara kurukkam" "nedil")
    (text : String) : firstRule? order text = ruleFor? text := by
  have distinct := (permuted.map Rule.name).nodup_iff.mpr names_distinct
  unfold ruleFor? firstRule?
  refine (find?_eq_of_perm permuted.symm ?_).symm
  intro first second ordered passed matched swapped
  -- Only a rule that shortens and the one for long clusters overlap, and these two keep their order.
  have overlap := List.pairwise_iff_forall_sublist.mp (rules_overlap text) ordered passed matched
  have names := swapped.map Rule.name
  rw [List.map_cons,List.map_cons,List.map_nil,overlap.2] at names
  rcases overlap.1 with same | same
  · rw [same] at names
    exact not_sublist_swap distinct ai names
  · rw [same] at names
    exact not_sublist_swap distinct au names

theorem isLong_of_shortened (shortened : (isShortenedAi text || isShortenedAu text) = true) :
    isLong text = true :=
  (Bool.or_eq_true_iff.mp shortened).elim isLong_of_shortenedAi isLong_of_shortenedAu

theorem ofText?_isSome_iff (text : String) :
    (ofText? text).isSome = true ↔ isShort text = true ∨ isLong text = true := by
  rw [ofText?_eq]
  by_cases shortened : (isShortenedAi text || isShortenedAu text) = true
  · rw [if_pos shortened]
    exact iff_of_true rfl (Or.inr (isLong_of_shortened shortened))
  · rw [if_neg shortened]
    cases isShort text <;> cases isLong text <;> simp

theorem ofText?_eq_two_iff (text : String) : ofText? text = some .two ↔
    isLong text = true ∧ isShortenedAi text = false ∧ isShortenedAu text = false := by
  rw [ofText?_eq,← Bool.or_eq_false_iff]
  cases shortened : isShortenedAi text || isShortenedAu text with
  | true => simp
  | false =>
    cases brief : isShort text with
    | true => simp [not_isLong_of_short brief]
    | false => cases isLong text <;> simp

/-- At most one of the rules for shortened ai, for shortened au and for short clusters applies to a
text, the first two of them only where the rule for long clusters does, and those for half beats never.
So whatever the order of the rules, as long as both that shorten stand before the one for long clusters,
the same rule decides a text. A duration is there for what is short or long, and it is two beats for
what is long and not shortened. -/
theorem order_of_rules (text : String) :
    (isShortenedU text = false ∧ isShortenedI text = false ∧ isShortenedM text = false ∧
      isShortenedAytham text = false) ∧
    ¬(isShortenedAi text = true ∧ isShortenedAu text = true) ∧
    ¬(isShortenedAi text = true ∧ isShort text = true) ∧
    ¬(isShortenedAu text = true ∧ isShort text = true) ∧
    ¬(isShort text = true ∧ isLong text = true) ∧
    (isShortenedAi text = true → isLong text = true) ∧
    (isShortenedAu text = true → isLong text = true) ∧
    (∀ order : List Rule, order.Perm rules → Precedes order "aikara kurukkam" "nedil" →
      Precedes order "aukara kurukkam" "nedil" →
        firstRule? order text = ruleFor? text ∧
        (firstRule? order text).map Rule.duration = ofText? text) ∧
    ((ofText? text).isSome = true ↔ isShort text = true ∨ isLong text = true) ∧
    (ofText? text = some .two ↔ isLong text = true ∧ isShortenedAi text = false ∧
      isShortenedAu text = false) := by
  refine ⟨halves_idle text,?_,?_,?_,?_,isLong_of_shortenedAi,isLong_of_shortenedAu,?_,
    ofText?_isSome_iff text,ofText?_eq_two_iff text⟩
  · rintro ⟨ai,au⟩
    rw [not_shortenedAu_of_shortenedAi ai] at au
    contradiction
  · rintro ⟨ai,short⟩
    rw [not_isShort_of_long (isLong_of_shortenedAi ai)] at short
    contradiction
  · rintro ⟨au,short⟩
    rw [not_isShort_of_long (isLong_of_shortenedAu au)] at short
    contradiction
  · rintro ⟨short,long⟩
    rw [not_isLong_of_short short] at long
    contradiction
  · intro order permuted ai au
    have same := firstRule?_reordered permuted ai au text
    exact ⟨same,congrArg (Option.map Rule.duration) same⟩

theorem short_rule_tried_first :
    let order := [6,5,4,7,0,1,2,3].filterMap fun place => rules[place]?
    order.Perm rules ∧ order.map Rule.name ≠ rules.map Rule.name ∧
    (firstRule? order "கை").map Rule.name = some "aikara kurukkam" ∧
    (firstRule? order "கை வா").map Rule.name = some "nedil" ∧
    (firstRule? order "கி").map Rule.name = some "kuril" := by
  intro order
  have places : [6,5,4,7,0,1,2,3].Perm (List.range 8) := by decide
  have permuted : order.Perm rules := places.filterMap fun place => rules[place]?
  have same (text : String) : firstRule? order text = ruleFor? text := by
    obtain ⟨_,_,_,_,_,_,_,reordered,_⟩ := order_of_rules text
    exact (reordered order permuted (by decide) (by decide)).1
  refine ⟨permuted,by decide,?_,?_,?_⟩
  all_goals
    rw [same]
    decide +kernel

/-- With the rule for long clusters first nothing is shortened. -/
example : (firstRule? rules.reverse "கை").map Rule.name = some "nedil" := by decide +kernel

end Duration

end TamilScript
