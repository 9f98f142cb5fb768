import TamilScript.Proofs.Cut

/-! The split of a source into clusters. The repetition of the recognizer makes the cut of the units
after the first blanks, and the split succeeds when the cut leaves nothing. So it succeeds exactly
on segmented sources, and what it yields is the only segmentation there is. -/
namespace TamilScript.Cluster
open Letter TamilScript.Parser

section Run
variable {cursor : Cursor} {gap rest : List Char}

theorem repeated_whitespace (canonical : cursor.Canonical) (left : cursor.unread = gap ++ rest)
    (blank : AllBlank gap) (ends : ∀ unit ∈ rest.head?, isBlank unit = false) :
    repeated whitespace cursor = (gap,cursor.skip gap.length) := by
  induction gap generalizing cursor with
  | nil =>
    have failed : (whitespace cursor).isOk = false := by
      rw [whitespace,(HasWidth.satisfy isBlank _).isOk_eq canonical,left]
      cases rest with
      | nil => rfl
      | cons unit after => simp [Width.one,ends unit rfl]
    rw [repeated]
    cases ran : whitespace cursor with
    | error failure => rfl
    | ok found => simp [ran,Except.isOk,Except.toBool] at failed
  | cons unit gap ih =>
    obtain ⟨present,later⟩ := blank.of_cons
    have ran : whitespace cursor = .ok (unit,cursor.next) := by
      simp [whitespace,Parser.satisfy,Parser.filter,Parser.any,canonical.read_eq,left,present]
    have onward : cursor.next.unread = gap ++ rest := by simp [left]
    have progress : cursor.next.remaining < cursor.remaining := by
      rw [← Cursor.length_unread,← Cursor.length_unread,onward,left]
      simp
    rw [repeated,ran]
    simp only [progress,if_true,ih (Cursor.next_canonical cursor) onward later]
    rfl

/-- Past a cluster the recognizer goes on to the end of the gap. -/
theorem gap_skipped {cluster : List Char} (canonical : cursor.Canonical)
    (whole : cursor.unread = cluster ++ (gap ++ rest)) (blank : AllBlank gap)
    (ends : ∀ unit ∈ rest.head?, isBlank unit = false) :
    (repeated whitespace (cursor.skip cluster.length)).2 = cursor.skip (cluster ++ gap).length := by
  have left : (cursor.skip cluster.length).unread = gap ++ rest := by
    rw [Cursor.unread_skip,whole,List.drop_left]
  rw [repeated_whitespace (canonical.skip _) left blank ends,Cursor.skip_skip,List.length_append]

theorem lexeme_eq_ok_iff_leads (canonical : cursor.Canonical) {text : String} {last : Cursor} :
    Parser.lexeme cluster.run cursor = .ok (text,last) ↔ ∃ cluster gap rest,
      cursor.unread = cluster ++ (gap ++ rest) ∧ Leads cluster (gap ++ rest) ∧ AllBlank gap ∧
      (∀ unit ∈ rest.head?, isBlank unit = false) ∧ text = String.ofList cluster ∧
      last = cursor.skip (cluster ++ gap).length := by
  rw [lexeme_eq_ok_iff]
  constructor
  · intro matched
    obtain ⟨middle,ran,rfl⟩ := matched
    obtain ⟨taken,present,rfl,rfl⟩ := (cluster_hasText canonical _ _).mp ran
    obtain ⟨cluster,after,whole,leads,rfl⟩ := leads_of_width present
    obtain ⟨gap,rest,rfl,blank,ends⟩ := exists_blanks after
    refine ⟨cluster,gap,rest,whole,leads,blank,ends,by simp [whole],?_⟩
    exact gap_skipped canonical whole blank ends
  · intro found
    obtain ⟨cluster,gap,rest,whole,leads,blank,ends,rfl,rfl⟩ := found
    refine ⟨cursor.skip cluster.length,(cluster_hasText canonical _ _).mpr ?_,?_⟩
    · exact ⟨cluster.length,whole ▸ width_of_leads leads,by simp [whole],rfl⟩
    · exact (gap_skipped canonical whole blank ends).symm

/-- The repetition of the recognizer cuts the unread units and stops where the cut does. -/
theorem repeated_cuts (canonical : cursor.Canonical) : ∃ pieces last,
    Cuts cursor.unread pieces last ∧
    repeated cluster.run.lexeme cursor =
      (pieces.map Piece.text,cursor.skip (pieces.flatMap Piece.units).length) := by
  fun_induction repeated cluster.run.lexeme cursor with
  | case1 cursor failure ran =>
    refine ⟨[],cursor.unread,.stop ?_,rfl⟩
    rw [width_eq_none_iff]
    rcases leads_or_stuck cursor.unread with done | stuck | ⟨cluster,after,whole,leads⟩
    · exact Or.inl done
    · exact Or.inr stuck
    · obtain ⟨gap,rest,rfl,blank,ends⟩ := exists_blanks after
      have matched := (lexeme_eq_ok_iff_leads canonical).mpr
        ⟨cluster,gap,rest,whole,leads,blank,ends,rfl,rfl⟩
      rw [ran] at matched
      contradiction
  | case2 cursor text next ran progress values last again ih =>
    obtain ⟨cluster,gap,rest,whole,leads,blank,ends,rfl,rfl⟩ :=
      (lexeme_eq_ok_iff_leads canonical).mp ran
    have beyond : (cursor.skip (cluster ++ gap).length).unread = rest := by
      rw [Cursor.unread_skip,whole,← List.append_assoc,List.drop_left]
    obtain ⟨pieces,final,cuts,loop⟩ := ih (canonical.skip _)
    rw [beyond] at cuts
    rw [again] at loop
    obtain ⟨rfl,rfl⟩ := Prod.mk.inj loop
    refine ⟨⟨cluster,gap⟩ :: pieces,final,?_,?_⟩
    · rw [whole]
      exact .step leads blank ends cuts
    · rw [Cursor.skip_skip,← List.length_append]
      rfl
  | case3 cursor text next ran stuck =>
    obtain ⟨cluster,gap,rest,whole,leads,_,_,rfl,rfl⟩ := (lexeme_eq_ok_iff_leads canonical).mp ran
    -- A cluster has a unit, so no match stands still.
    have some := List.length_pos_iff.mpr leads.isCluster.ne_nil
    rw [← Cursor.length_unread,← Cursor.length_unread,Cursor.unread_skip,whole] at stuck
    simp only [List.length_drop,List.length_append] at stuck
    omega

end Run

section Whole
variable {source : Source} {units before last lead : List Char} {pieces : List Piece}

theorem exists_cut (units : List Char) : ∃ pieces last, Cuts units pieces last := by
  obtain ⟨pieces,last,cuts,_⟩ := repeated_cuts (Cursor.start_canonical ⟨units.toArray⟩)
  rw [Cursor.unread_start] at cuts
  exact ⟨pieces,last,cuts⟩

/-- Every text is segmented up to a place where a cut stops. -/
theorem exists_segmented (units : List Char) : ∃ before last lead pieces,
    units = before ++ last ∧ Segmented before lead pieces ∧ Stops before last := by
  obtain ⟨lead,rest,rfl,blank,visible⟩ := exists_blanks units
  obtain ⟨pieces,last,cuts⟩ := exists_cut rest
  have fresh : ∀ unit ∈ rest.head?, ¬Continues lead unit := by
    intro unit _
    rw [← List.nil_append lead]
    apply blank.not_continues_append
    intro _
    exact not_continues_nil
  obtain ⟨whole,clusters,gaps,stops⟩ := cuts.pieces_stops visible fresh
  refine ⟨lead ++ pieces.flatMap Piece.units,last,lead,pieces,?_,⟨blank,clusters,gaps,rfl⟩,stops⟩
  rw [whole,List.append_assoc]

theorem endOfSource_label {cursor : Cursor} (canonical : cursor.Canonical) (what : String) :
    endOfSource.label what cursor =
      if cursor.unread = [] then .ok ((),cursor) else refuse cursor ("expected " ++ what) := by
  have size := cursor.length_unread
  cases cursor with
  | valid source position =>
    have inside : position < source.size := canonical
    have some : (Cursor.valid source position).unread ≠ [] := by
      apply List.ne_nil_of_length_pos
      rw [size]
      exact Nat.sub_pos_of_lt inside
    rw [if_neg some]
    rfl
  | ended source =>
    have none : (Cursor.ended source).unread = [] := List.drop_eq_nil_of_le (Nat.le_refl _)
    rw [if_pos none]
    rfl

theorem unread_skip_start (whole : source.units.toList = before ++ last) :
    ((Cursor.start source).skip before.length).unread = last := by
  rw [Cursor.unread_skip,Cursor.unread_start,whole,List.drop_left]

theorem position_skip_start (whole : source.units.toList = before ++ last) :
    ((Cursor.start source).skip before.length).position = before.length := by
  have size : source.size = before.length + last.length := by
    rw [← List.length_append,← whole]
    rfl
  rw [(Cursor.start_canonical source).position_skip,Cursor.position_start,Cursor.source_start]
  omega

/-- The split on a source that is segmented up to a place where a cut stops. -/
theorem clusters_eq (whole : source.units.toList = before ++ last)
    (segmented : Segmented before lead pieces) (stops : Stops before last) :
    clusters source = if last = [] then .ok (pieces.map Piece.text)
      else .error (.unsatisfied "expected letter cluster" ⟨source,before.length⟩) := by
  obtain ⟨blank,formed,gaps,rfl⟩ := segmented
  have start := Cursor.start_canonical source
  have unread : (Cursor.start source).unread =
      lead ++ (pieces.flatMap Piece.units ++ last) := by
    rw [Cursor.unread_start,whole,List.append_assoc]
  have skipped := repeated_whitespace start unread blank (head_pieces_append formed stops.visible)
  obtain ⟨found,rest,cuts,loop⟩ := repeated_cuts (start.skip lead.length)
  rw [Cursor.unread_skip,unread,List.drop_left] at cuts
  obtain ⟨rfl,rfl⟩ := cuts.unique (cuts_of_pieces formed gaps stops.of_append)
  rw [Cursor.skip_skip,← List.length_append] at loop
  have ends := endOfSource_label (start.skip (lead ++ found.flatMap Piece.units).length)
    "letter cluster"
  rw [unread_skip_start whole] at ends
  have place := position_skip_start whole
  simp only [TamilScript.Cluster.clusters,sequence,Grammar.parse,Grammar.run,Parser.map,Parser.seq,
    Grammar.run_skipWhitespace,skipWhitespace,many,skipped,loop,ends]
  by_cases done : rest = []
  · simp only [if_pos done,Except.map]
  · simp only [if_neg done,Except.map,refuse,Cursor.location,Cursor.source_skip,
      Cursor.source_start,place]
    rfl

end Whole

section Segmentation
variable {units lead other : List Char} {pieces others : List Piece}

theorem Segmented.unique (first : Segmented units lead pieces)
    (second : Segmented units other others) : lead = other ∧ pieces = others := by
  obtain ⟨blank,formed,gaps,whole⟩ := first
  obtain ⟨otherBlank,otherFormed,otherGaps,otherWhole⟩ := second
  rw [whole] at otherWhole
  have visible {parts : List Piece} (formed : ∀ piece ∈ parts, IsCluster piece.cluster) :
      ∀ unit ∈ (parts.flatMap Piece.units).head?, isBlank unit = false := by
    intro unit first
    exact (head_pieces formed unit first).2
  have leads : lead = other := by
    rw [← blank.takeWhile_append (visible formed),otherWhole,
      otherBlank.takeWhile_append (visible otherFormed)]
  subst leads
  have bodies := List.append_cancel_left otherWhole
  have cut := cuts_of_pieces formed gaps (.nil _)
  have otherCut := cuts_of_pieces otherFormed otherGaps (.nil _)
  rw [← bodies] at otherCut
  exact ⟨rfl,(cut.unique otherCut).1⟩

theorem AllBlank.filter_eq_nil (blank : AllBlank units) :
    units.filter (fun unit => !isBlank unit) = [] := by
  rw [List.filter_eq_nil_iff]
  intro unit member
  simp [blank unit member]

theorem Segmented.filter_visible (segmented : Segmented units lead pieces) :
    units.filter (fun unit => !isBlank unit) = pieces.flatMap Piece.cluster := by
  obtain ⟨blank,formed,gaps,rfl⟩ := segmented
  rw [List.filter_append,blank.filter_eq_nil,List.nil_append]
  induction pieces with
  | nil => rfl
  | cons piece pieces ih =>
    obtain ⟨isCluster,later⟩ := List.forall_mem_cons.mp formed
    obtain ⟨gap,gaps⟩ := List.forall_mem_cons.mp gaps
    have kept : piece.cluster.filter (fun unit => !isBlank unit) = piece.cluster := by
      rw [List.filter_eq_self]
      intro unit member
      simp [isCluster.not_blank unit member]
    rw [List.flatMap_cons,List.flatMap_cons,Piece.units,List.filter_append,List.filter_append,
      kept,gap.filter_eq_nil,List.append_nil,ih later gaps]

theorem join_texts (pieces : List Piece) :
    String.join (pieces.map Piece.text) = String.ofList (pieces.flatMap Piece.cluster) := by
  induction pieces with
  | nil => rfl
  | cons piece pieces ih =>
    rw [List.map_cons,String.join_cons,ih,List.flatMap_cons,String.ofList_append]
    rfl

end Segmentation

section Split
variable {source : Source} {lead : List Char} {pieces : List Piece}

theorem clusters_of_segmented (segmented : Segmented source.units.toList lead pieces) :
    clusters source = .ok (pieces.map Piece.text) :=
  clusters_eq (List.append_nil _).symm segmented (.nil _)

theorem segmented_of_clusters {found : List String} (ran : clusters source = .ok found) :
    ∃ lead pieces, Segmented source.units.toList lead pieces ∧ found = pieces.map Piece.text := by
  obtain ⟨before,last,lead,pieces,whole,segmented,stops⟩ :=
    exists_segmented source.units.toList
  have split := clusters_eq whole segmented stops
  rw [ran] at split
  by_cases done : last = []
  · rw [done,List.append_nil] at whole
    rw [if_pos done] at split
    rw [whole]
    exact ⟨lead,pieces,segmented,Except.ok.inj split⟩
  · rw [if_neg done] at split
    contradiction

/-- The split succeeds exactly on segmented sources. It yields the clusters of the one segmentation
there is, so its pieces joined are the source without its blanks. -/
theorem clusters_iff_segmented (source : Source) :
    ((∃ found, clusters source = .ok found) ↔
      ∃ lead pieces, Segmented source.units.toList lead pieces) ∧
    (∀ lead pieces, Segmented source.units.toList lead pieces →
      clusters source = .ok (pieces.map Piece.text) ∧
      ∀ other others, Segmented source.units.toList other others →
        other = lead ∧ others = pieces) ∧
    ∀ found, clusters source = .ok found →
      String.join found = String.ofList (source.units.toList.filter fun unit => !isBlank unit) := by
  refine ⟨⟨?_,?_⟩,?_,?_⟩
  · intro accepted
    obtain ⟨found,ran⟩ := accepted
    obtain ⟨lead,pieces,segmented,_⟩ := segmented_of_clusters ran
    exact ⟨lead,pieces,segmented⟩
  · intro exists_pieces
    obtain ⟨lead,pieces,segmented⟩ := exists_pieces
    exact ⟨_,clusters_of_segmented segmented⟩
  · intro lead pieces segmented
    refine ⟨clusters_of_segmented segmented,?_⟩
    intro other others second
    exact second.unique segmented
  · intro found ran
    obtain ⟨lead,pieces,segmented,rfl⟩ := segmented_of_clusters ran
    rw [segmented.filter_visible,join_texts]

theorem clusters_spaced_word :
    let source := Source.ofString " கை க்\u2003"
    Segmented source.units.toList [' '] [⟨['க',aiSign],[' ']⟩,⟨['க',pulli],['\u2003']⟩] ∧
    clusters source = .ok ["கை","க்"] := by
  intro source
  have segmented : Segmented source.units.toList [' ']
      [⟨['க',aiSign],[' ']⟩,⟨['க',pulli],['\u2003']⟩] := by
    decide +kernel
  exact ⟨segmented,((clusters_iff_segmented source).2.1 _ _ segmented).1⟩

end Split

end TamilScript.Cluster
