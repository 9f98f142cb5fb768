import Mathlib.Control.Monad.Basic
import TamilScript.Proofs.Splitting
import TamilScript.Event

/-! Where a split breaks off. The units before the place are split without failure, and the unit at
it stands in no cluster: it is not blank, it continues no cluster before it and none begins with
it. A rejected source has one such place and an accepted source has none. -/
namespace TamilScript.Cluster
open Letter

structure BreaksAt (source : Source) (position : Nat) : Prop where
  accepted : ∃ found, clusters (source.before position) = .ok found
  inside : position < source.size
  visible : isBlank source.units[position] = false
  fresh : ¬Continues (source.units.toList.take position) source.units[position]
  stuck : Stuck (source.suffix position)

variable {source : Source} {position : Nat} {before last lead : List Char} {pieces : List Piece}

theorem breaksAt_of_stops (whole : source.units.toList = before ++ last)
    (segmented : Segmented before lead pieces) (stops : Stops before last) (left : last ≠ []) :
    BreaksAt source before.length := by
  have taken : source.units.toList.take before.length = before := by rw [whole,List.take_left]
  have suffix : source.suffix before.length = last := by
    rw [Source.suffix,whole,List.drop_left]
  have inside : before.length < source.size := by
    have some := List.length_pos_iff.mpr left
    rw [← suffix,Source.length_suffix] at some
    omega
  have first : source.units[before.length] ∈ last.head? := by
    rw [← suffix,Source.suffix_eq_cons inside]
    rfl
  have stuck : Stuck last := (width_eq_none_iff.mp stops.absent).resolve_left left
  have prior : Segmented (source.before before.length).units.toList lead pieces := by
    rw [Source.units_before,taken]
    exact segmented
  refine ⟨⟨_,clusters_of_segmented prior⟩,inside,stops.visible _ first,?_,suffix ▸ stuck⟩
  rw [taken]
  exact stops.fresh _ first

theorem clusters_of_breaksAt (breaks : BreaksAt source position) :
    clusters source = .error (.unsatisfied "expected letter cluster" ⟨source,position⟩) := by
  obtain ⟨⟨found,ran⟩,inside,visible,fresh,stuck⟩ := breaks
  obtain ⟨lead,pieces,segmented,_⟩ := segmented_of_clusters ran
  rw [Source.units_before] at segmented
  have whole : source.units.toList =
      source.units.toList.take position ++ source.suffix position :=
    (List.take_append_drop position _).symm
  have head := Source.suffix_eq_cons inside
  have stops : Stops (source.units.toList.take position) (source.suffix position) := by
    refine ⟨width_of_stuck stuck,?_,?_⟩
    · simpa [head] using visible
    · simpa [head] using fresh
  have split := clusters_eq whole segmented stops
  have length : (source.units.toList.take position).length = position :=
    List.length_take_of_le (Nat.le_of_lt inside)
  rw [if_neg (by simp [head]),length] at split
  exact split

/-- A rejected source is told as an expected cluster, at the one place where it breaks. -/
theorem clusters_rejected (source : Source) (failure : Failure)
    (rejected : clusters source = .error failure) :
    failure = .unsatisfied "expected letter cluster" ⟨source,failure.position⟩ ∧
    failure.cause? = none ∧ BreaksAt source failure.position ∧
    (∀ other, BreaksAt source other → other = failure.position) ∧
    observe source = (.error failure,[.notClusters failure.position]) := by
  obtain ⟨before,last,lead,pieces,whole,segmented,stops⟩ :=
    exists_segmented source.units.toList
  have split := clusters_eq whole segmented stops
  rw [rejected] at split
  by_cases done : last = []
  · rw [if_pos done] at split
    contradiction
  rw [if_neg done] at split
  obtain rfl := Except.error.inj split
  refine ⟨rfl,rfl,breaksAt_of_stops whole segmented stops done,?_,?_⟩
  · intro other breaks
    have same := (clusters_of_breaksAt breaks).symm.trans rejected
    injection same with same
    injection same with _ place
    exact congrArg Location.position place
  · rw [observe,rejected]

theorem clusters_rejected_pulli :
    let source := Source.ofString "கை அ்க"
    clusters source = .error (.unsatisfied "expected letter cluster" ⟨source,4⟩) ∧
    BreaksAt source 4 ∧ ∀ other, BreaksAt source other → other = 4 := by
  intro source
  have rejected : clusters source =
      .error (.unsatisfied "expected letter cluster" ⟨source,4⟩) := by decide +kernel
  obtain ⟨_,_,breaks,only,_⟩ := clusters_rejected source _ rejected
  exact ⟨rejected,breaks,only⟩

end TamilScript.Cluster
