import Mathlib.Data.List.Basic
import TamilScript.Cursor.Behind
import TamilScript.Proofs.Splitting

/-! Clusters of two texts in a row. Segmentations compose: blanks that lead the second text join the
gap after the last cluster of the first. Only a sign at the seam could still belong to the cluster
before it, and a place where a text breaks off is not mended by what comes later. -/
namespace TamilScript.Cluster
open Letter

section Seam
variable {units before last further gap more lead other : List Char} {unit : Char}
  {pieces others : List Piece}

theorem Stuck.append (stuck : Stuck units) (further : List Char) : Stuck (units ++ further) := by
  cases stuck with
  | stray rest vowel consonant => exact .stray (rest ++ further) vowel consonant
  | doubled rest sounds carried => exact .doubled (rest ++ further) sounds carried

theorem Stops.append (stops : Stops before last) (left : last ≠ []) (further : List Char) :
    Stops before (last ++ further) := by
  have stuck := (width_eq_none_iff.mp stops.absent).resolve_left left
  have head : (last ++ further).head? = last.head? := List.head?_append_of_ne_nil last left
  refine ⟨width_of_stuck (stuck.append further),?_,?_⟩
  · rw [head]
    exact stops.visible
  · rw [head]
    exact stops.fresh

/-- What continues units that no sign opens is told by these units alone. -/
theorem Continues.of_append {earlier : List Char} (continued : Continues (earlier ++ before) unit)
    (some : before ≠ []) (plain : ∀ first ∈ before.head?, first ∉ signs) :
    Continues before unit := by
  obtain ⟨rest,letter,rfl⟩ := (List.eq_nil_or_concat' before).resolve_left some
  rw [← List.append_assoc,continues_concat_iff] at continued
  rw [continues_concat_iff]
  rcases continued with bare | ⟨carried,silent,start,consonant,split,sounds⟩
  · exact Or.inl bare
  · rcases List.eq_nil_or_concat' rest with rfl | ⟨inner,found,rfl⟩
    · exact absurd (mem_signs_of_vowelSign carried) (plain letter rfl)
    · rw [← List.append_assoc] at split
      obtain ⟨_,same⟩ := List.append_inj' split rfl
      obtain rfl := List.singleton_inj.mp same
      exact Or.inr ⟨carried,silent,inner,found,rfl,sounds⟩

theorem Stops.behind (stops : Stops before last) (earlier : List Char)
    (seam : ∀ unit ∈ (before ++ last).head?, unit ∉ signs) : Stops (earlier ++ before) last := by
  refine ⟨stops.absent,stops.visible,?_⟩
  intro unit first continued
  by_cases none : before = []
  · subst none
    exact seam unit first continued.mem_signs
  · rw [List.head?_append_of_ne_nil before none] at seam
    exact stops.fresh unit first (continued.of_append none seam)

theorem AllBlank.append (blank : AllBlank gap) (also : AllBlank more) : AllBlank (gap ++ more) :=
  List.forall_mem_append.mpr ⟨blank,also⟩

theorem Segmented.append (first : Segmented units lead pieces)
    (second : Segmented further other others) : ∃ start joined,
      Segmented (units ++ further) start joined ∧
      joined.map Piece.text = pieces.map Piece.text ++ others.map Piece.text := by
  obtain ⟨blank,formed,gaps,rfl⟩ := first
  obtain ⟨also,otherFormed,otherGaps,rfl⟩ := second
  rcases List.eq_nil_or_concat' pieces with rfl | ⟨earlier,piece,rfl⟩
  · exact ⟨lead ++ other,others,⟨blank.append also,otherFormed,otherGaps,by simp⟩,rfl⟩
  · obtain ⟨formed,isCluster⟩ := List.forall_mem_append.mp formed
    obtain ⟨gaps,behind⟩ := List.forall_mem_append.mp gaps
    have widened : AllBlank (piece.gap ++ other) :=
      (behind piece (List.mem_singleton_self piece)).append also
    refine ⟨lead,earlier ++ ⟨piece.cluster,piece.gap ++ other⟩ :: others,⟨blank,?_,?_,?_⟩,?_⟩
    · exact List.forall_mem_append.mpr ⟨formed,List.forall_mem_cons.mpr
        ⟨isCluster piece (List.mem_singleton_self piece),otherFormed⟩⟩
    · exact List.forall_mem_append.mpr ⟨gaps,List.forall_mem_cons.mpr ⟨widened,otherGaps⟩⟩
    · simp [Piece.units]
    · simp [Piece.text]

end Seam

section Sources
variable {first second : Source} {found : List String}

theorem clusters_append_of_error {failure : Failure} (rejected : clusters first = .error failure)
    (second : Source) : clusters (first ++ second) =
      .error (.unsatisfied "expected letter cluster" ⟨first ++ second,failure.position⟩) := by
  obtain ⟨before,last,lead,pieces,whole,segmented,stops⟩ := exists_segmented first.units.toList
  have split := clusters_eq whole segmented stops
  rw [rejected] at split
  by_cases done : last = []
  · rw [if_pos done] at split
    contradiction
  rw [if_neg done] at split
  obtain rfl := Except.error.inj split
  have joined : (first ++ second).units.toList = before ++ (last ++ second.units.toList) := by
    rw [Source.units_append,Array.toList_append,whole,List.append_assoc]
  have more : last ++ second.units.toList ≠ [] := List.append_ne_nil_of_left_ne_nil done _
  rw [clusters_eq joined segmented (stops.append done _),if_neg more]
  rfl

theorem clusters_append_of_ok (accepted : clusters first = .ok found)
    (seam : ∀ unit ∈ second.units.toList.head?, unit ∉ signs) :
    clusters (first ++ second) = match clusters second with
      | .ok others => .ok (found ++ others)
      | .error failure => .error (.unsatisfied "expected letter cluster"
          ⟨first ++ second,first.size + failure.position⟩) := by
  obtain ⟨lead,pieces,prior,rfl⟩ := segmented_of_clusters accepted
  obtain ⟨before,last,_,others,whole,segmented,stops⟩ := exists_segmented second.units.toList
  obtain ⟨_,_,both,texts⟩ := prior.append segmented
  rw [whole] at seam
  have joined : (first ++ second).units.toList = (first.units.toList ++ before) ++ last := by
    rw [Source.units_append,Array.toList_append,whole,List.append_assoc]
  have size : (first.units.toList ++ before).length = first.size + before.length := by
    rw [List.length_append]
    rfl
  rw [clusters_eq joined both (stops.behind _ seam),clusters_eq whole segmented stops,texts,size]
  by_cases done : last = []
  · rw [if_pos done,if_pos done]
  · rw [if_neg done,if_neg done]
    rfl

/-- Where the first source is rejected, the two in a row are, at the same place and whatever the second
is. Where the first is split and no sign opens the second, the clusters of the two are those of the
one and then those of the other, and the second is rejected at the same unit as alone. -/
theorem clusters_append (first second : Source) :
    (∀ failure, clusters first = .error failure → clusters (first ++ second) =
      .error (.unsatisfied "expected letter cluster" ⟨first ++ second,failure.position⟩)) ∧
    ∀ found, clusters first = .ok found → (∀ unit ∈ second.units.toList.head?, unit ∉ signs) →
      (∀ all, clusters (first ++ second) = .ok all ↔
        ∃ others, clusters second = .ok others ∧ all = found ++ others) ∧
      ∀ failure, clusters second = .error failure → clusters (first ++ second) =
        .error (.unsatisfied "expected letter cluster"
          ⟨first ++ second,first.size + failure.position⟩) := by
  refine ⟨fun _ rejected => clusters_append_of_error rejected second,?_⟩
  intro found accepted seam
  rw [clusters_append_of_ok accepted seam]
  cases clusters second with
  | error failure =>
    refine ⟨fun all => ⟨nofun,fun split => ?_⟩,?_⟩
    · obtain ⟨_,accepted,_⟩ := split
      contradiction
    · intro other same
      rw [Except.error.inj same]
  | ok others =>
    refine ⟨fun all => ⟨?_,?_⟩,nofun⟩
    · intro split
      exact ⟨others,rfl,(Except.ok.inj split).symm⟩
    · intro split
      obtain ⟨_,same,rfl⟩ := split
      rw [Except.ok.inj same]

theorem clusters_append_bare_seam :
    let first := Source.ofString "அ க"
    let second := Source.ofString " காx"
    clusters first = .ok ["அ","க"] ∧
    clusters second = .error (.unsatisfied "expected letter cluster" ⟨second,3⟩) ∧
    clusters (first ++ second) =
      .error (.unsatisfied "expected letter cluster" ⟨first ++ second,6⟩) ∧
    ∀ third, clusters (first ++ second ++ third) =
      .error (.unsatisfied "expected letter cluster" ⟨first ++ second ++ third,6⟩) := by
  intro first second
  have accepted : clusters first = .ok ["அ","க"] := by decide +kernel
  have rejected : clusters second =
      .error (.unsatisfied "expected letter cluster" ⟨second,3⟩) := by decide +kernel
  have seam : ∀ unit ∈ second.units.toList.head?, unit ∉ signs := by
    intro unit opens
    obtain rfl : ' ' = unit := Option.some.inj opens
    decide
  have broken := ((clusters_append first second).2 _ accepted seam).2 _ rejected
  refine ⟨accepted,rejected,broken,?_⟩
  intro third
  exact (clusters_append (first ++ second) third).1 _ broken

end Sources

end TamilScript.Cluster
