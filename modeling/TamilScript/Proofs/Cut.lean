import TamilScript.Proofs.ClusterWidth

/-! A cut takes leading clusters with the blanks after them for as long as there are any. The units
determine it. It takes just the pieces of a segmentation where the units after these stop it: they
are led by no cluster, and the first of them is not blank and continues no cluster before it. -/
namespace TamilScript.Cluster
open Letter

inductive Cuts : List Char → List Piece → List Char → Prop where
  | stop {units : List Char} (none : width units = none) : Cuts units [] units
  | step {cluster gap rest last : List Char} {pieces : List Piece}
      (leads : Leads cluster (gap ++ rest)) (blank : AllBlank gap)
      (ends : ∀ unit ∈ rest.head?, isBlank unit = false) (more : Cuts rest pieces last) :
      Cuts (cluster ++ (gap ++ rest)) (⟨cluster,gap⟩ :: pieces) last

section Blanks
variable {gap rest : List Char}

theorem AllBlank.of_cons {unit : Char} {units : List Char} (blank : AllBlank (unit :: units)) :
    isBlank unit = true ∧ AllBlank units := by
  refine ⟨blank unit List.mem_cons_self,?_⟩
  intro other member
  exact blank other (List.mem_cons_of_mem _ member)

theorem AllBlank.takeWhile_append (blank : AllBlank gap)
    (ends : ∀ unit ∈ rest.head?, isBlank unit = false) :
    (gap ++ rest).takeWhile isBlank = gap := by
  rw [List.takeWhile_append_of_pos blank]
  cases rest with
  | nil => simp
  | cons unit after => simp [ends unit rfl]

theorem exists_blanks (units : List Char) : ∃ gap rest, units = gap ++ rest ∧ AllBlank gap ∧
    ∀ unit ∈ rest.head?, isBlank unit = false := by
  refine ⟨units.takeWhile isBlank,units.dropWhile isBlank,?_,?_,?_⟩
  · exact List.takeWhile_append_dropWhile.symm
  · exact List.all_eq_true.mp List.all_takeWhile
  · intro unit first
    have stops := List.head?_dropWhile_not isBlank units
    rw [Option.mem_def.mp first] at stops
    simpa using stops

end Blanks

theorem Cuts.unique {units last other : List Char} {pieces others : List Piece}
    (first : Cuts units pieces last) (second : Cuts units others other) :
    pieces = others ∧ last = other := by
  induction first generalizing others with
  | @stop units none =>
    cases second with
    | stop => exact ⟨rfl,rfl⟩
    | step leads =>
      rw [width_of_leads leads] at none
      contradiction
  | @step cluster gap rest last pieces leads blank ends more ih =>
    generalize whole : cluster ++ (gap ++ rest) = units at second
    cases second with
    | stop none =>
      rw [← whole,width_of_leads leads] at none
      contradiction
    | @step otherCluster otherGap otherRest _ _ otherLeads otherBlank otherEnds otherMore =>
      -- The leading cluster is fixed, and blanks before no blank fix the gap.
      obtain ⟨rfl,after⟩ := leads.unique otherLeads whole
      have gaps : gap = otherGap := by
        rw [← blank.takeWhile_append ends,after,otherBlank.takeWhile_append otherEnds]
      subst gaps
      obtain rfl := List.append_cancel_left after
      obtain ⟨rfl,rfl⟩ := ih otherMore
      exact ⟨rfl,rfl⟩

/-- No cluster leads the rest, and its first unit belongs to nothing before it. -/
structure Stops (before rest : List Char) : Prop where
  absent : width rest = none
  visible : ∀ unit ∈ rest.head?, isBlank unit = false
  fresh : ∀ unit ∈ rest.head?, ¬Continues before unit

theorem Stops.nil (before : List Char) : Stops before [] where
  absent := rfl
  visible := by simp
  fresh := by simp

theorem Stops.of_append {earlier before rest : List Char} (stops : Stops (earlier ++ before) rest) :
    Stops before rest := by
  refine ⟨stops.absent,stops.visible,?_⟩
  intro unit first continued
  exact stops.fresh unit first (continued.append_left earlier)

theorem AllBlank.not_continues_append {before gap : List Char} {unit : Char} (blank : AllBlank gap)
    (fresh : gap = [] → ¬Continues before unit) : ¬Continues (before ++ gap) unit := by
  rcases List.eq_nil_or_concat gap with rfl | ⟨earlier,last,rfl⟩
  · simpa using fresh
  · have present : isBlank last = true := blank last (by simp)
    rw [List.concat_eq_append,← List.append_assoc]
    apply not_continues_concat
    · intro sounds
      simp [isBlank_of_consonant sounds] at present
    · intro carried
      simp [isBlank_of_sign (mem_signs_of_vowelSign carried)] at present

section Pieces
variable {units before last : List Char} {pieces : List Piece}

theorem head_pieces (clusters : ∀ piece ∈ pieces, IsCluster piece.cluster) :
    ∀ unit ∈ (pieces.flatMap Piece.units).head?, unit ∉ signs ∧ isBlank unit = false := by
  intro unit first
  cases pieces with
  | nil => simp at first
  | cons piece pieces =>
    obtain ⟨letter,rest,written,plain,visible⟩ :=
      (clusters piece List.mem_cons_self).head_notMem_signs
    obtain rfl : letter = unit := by simpa [Piece.units,written] using first
    exact ⟨plain,visible⟩

/-- What follows a cluster before the end of its pieces is no sign. -/
theorem head_gap_pieces {gap : List Char} (blank : AllBlank gap)
    (clusters : ∀ piece ∈ pieces, IsCluster piece.cluster) :
    ∀ unit ∈ (gap ++ pieces.flatMap Piece.units).head?, unit ∉ signs := by
  intro unit first
  cases gap with
  | nil => exact (head_pieces clusters unit first).1
  | cons other rest =>
    obtain rfl : other = unit := Option.some.inj first
    intro carried
    have present := blank.of_cons.1
    simp [isBlank_of_sign carried] at present

/-- A piece in its place: the units up to it, its cluster, and units that begin with no sign. -/
theorem Segmented.piece {lead : List Char} {earlier later : List Piece} {piece : Piece}
    (segmented : Segmented units lead (earlier ++ piece :: later)) :
    IsCluster piece.cluster ∧
    units = (lead ++ earlier.flatMap Piece.units) ++
      (piece.cluster ++ (piece.gap ++ later.flatMap Piece.units)) ∧
    ∀ unit ∈ (piece.gap ++ later.flatMap Piece.units).head?, unit ∉ signs := by
  obtain ⟨_,formed,gaps,whole⟩ := segmented
  obtain ⟨isCluster,formed⟩ := List.forall_mem_cons.mp (List.forall_mem_append.mp formed).2
  obtain ⟨blank,_⟩ := List.forall_mem_cons.mp (List.forall_mem_append.mp gaps).2
  refine ⟨isCluster,?_,head_gap_pieces blank formed⟩
  rw [whole]
  simp [Piece.units]

private theorem head_append {first second : List Char} {unit : Char}
    (head : unit ∈ (first ++ second).head?) :
    unit ∈ first.head? ∨ first = [] ∧ unit ∈ second.head? := by
  cases first with
  | nil => exact Or.inr ⟨rfl,head⟩
  | cons => exact Or.inl head

theorem head_pieces_append (clusters : ∀ piece ∈ pieces, IsCluster piece.cluster)
    (visible : ∀ unit ∈ last.head?, isBlank unit = false) :
    ∀ unit ∈ (pieces.flatMap Piece.units ++ last).head?, isBlank unit = false := by
  intro unit first
  rcases head_append first with inside | ⟨_,outside⟩
  · exact (head_pieces clusters unit inside).2
  · exact visible unit outside

/-- Pieces are cut off as they are where the units after them stop a cut. -/
theorem cuts_of_pieces (clusters : ∀ piece ∈ pieces, IsCluster piece.cluster)
    (gaps : ∀ piece ∈ pieces, AllBlank piece.gap)
    (stops : Stops (pieces.flatMap Piece.units) last) :
    Cuts (pieces.flatMap Piece.units ++ last) pieces last := by
  induction pieces with
  | nil => exact .stop stops.absent
  | cons piece pieces ih =>
    obtain ⟨isCluster,later⟩ := List.forall_mem_cons.mp clusters
    obtain ⟨blank,gaps⟩ := List.forall_mem_cons.mp gaps
    have shape : (piece :: pieces).flatMap Piece.units =
        piece.cluster ++ (piece.gap ++ pieces.flatMap Piece.units) := by
      simp [Piece.units]
    rw [shape] at stops
    have leads : Leads piece.cluster (piece.gap ++ (pieces.flatMap Piece.units ++ last)) := by
      refine ⟨isCluster,?_⟩
      intro unit first continued
      rw [← List.append_assoc] at first
      -- The unit is a blank, opens the next cluster, or stands where the cut stops.
      rcases head_append first with inside | ⟨none,outside⟩
      · exact head_gap_pieces blank later unit inside continued.mem_signs
      · rw [none,List.append_nil] at stops
        exact stops.fresh unit outside continued
    rw [shape,List.append_assoc,List.append_assoc]
    exact .step leads blank (head_pieces_append later stops.visible)
      (ih later gaps stops.of_append.of_append)

theorem Cuts.pieces_stops (cuts : Cuts units pieces last)
    (visible : ∀ unit ∈ units.head?, isBlank unit = false)
    (fresh : ∀ unit ∈ units.head?, ¬Continues before unit) :
    units = pieces.flatMap Piece.units ++ last ∧
    (∀ piece ∈ pieces, IsCluster piece.cluster) ∧ (∀ piece ∈ pieces, AllBlank piece.gap) ∧
    Stops (before ++ pieces.flatMap Piece.units) last := by
  induction cuts generalizing before with
  | @stop units none => exact ⟨rfl,by simp,by simp,none,visible,by simpa using fresh⟩
  | @step cluster gap rest last pieces leads blank ends more ih =>
    have beyond : ∀ unit ∈ rest.head?, ¬Continues (before ++ (cluster ++ gap)) unit := by
      intro unit first
      rw [← List.append_assoc]
      apply blank.not_continues_append
      intro none
      rw [leads.isCluster.continues_append_iff]
      exact leads.ends unit (by simpa [none] using first)
    obtain ⟨whole,clusters,gaps,stops⟩ := ih ends beyond
    refine ⟨?_,?_,?_,?_⟩
    · rw [whole]
      simp [Piece.units]
    · exact List.forall_mem_cons.mpr ⟨leads.isCluster,clusters⟩
    · exact List.forall_mem_cons.mpr ⟨blank,gaps⟩
    · simpa [Piece.units] using stops

end Pieces

end TamilScript.Cluster
