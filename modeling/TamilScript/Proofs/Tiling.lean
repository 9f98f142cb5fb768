import Mathlib.Control.Monad.Basic
import TamilScript.Proofs.Bounds

/-! The spans of a repetition leave nothing out. The same row of matches gives the values, the spans and
the texts of a repetition, since the last two are made of the first and of where each match stands. Every
span takes a unit and begins where the one before it ended, so their texts in a row are the text of the
whole. -/
namespace TamilScript

namespace Span

/-- Where one stretch ends the next one begins. -/
theorem text_append_text (source : Source) {start middle stop : Nat} (forward : start ≤ middle)
    (onward : middle ≤ stop) :
    text ⟨source,start,middle⟩ ++ text ⟨source,middle,stop⟩ = text ⟨source,start,stop⟩ := by
  simp only [text,units,Source.between,← String.ofList_append,← Array.toList_append,
    Array.extract_append_extract,Nat.min_eq_left forward,Nat.max_eq_right onward]

theorem text_between_append {first middle last : Cursor} (canonical : first.Canonical)
    (reached : first.Reaches middle) (onward : middle.Reaches last) :
    (between first middle).text ++ (between middle last).text = (between first last).text := by
  have forward := reached.position_le canonical
  have further := onward.position_le (reached.canonical canonical)
  unfold between
  rw [reached.source_eq]
  exact text_append_text first.source forward further

/-- Spans of at least one unit that follow each other without a gap from the one place to the other. -/
inductive Tiles (source : Source) : Nat → List Span → Nat → Prop
  | none (place : Nat) : Tiles source place [] place
  | next {start middle stop : Nat} {spans : List Span} (forward : start < middle)
      (more : Tiles source middle spans stop) :
      Tiles source start (⟨source,start,middle⟩ :: spans) stop

namespace Tiles
variable {source : Source} {start stop : Nat} {spans : List Span}

theorem start_le_stop (tiles : Tiles source start spans stop) : start ≤ stop := by
  induction tiles with
  | none => exact Nat.le_refl _
  | next forward _ ih => exact Nat.le_trans (Nat.le_of_lt forward) ih

theorem eq_nil_iff (tiles : Tiles source start spans stop) : spans = [] ↔ stop = start := by
  cases tiles with
  | none => simp
  | next forward more =>
    have onward := more.start_le_stop
    simp only [reduceCtorEq,false_iff]
    omega

theorem join_texts (tiles : Tiles source start spans stop) :
    String.join (spans.map Span.text) = Span.text ⟨source,start,stop⟩ := by
  induction tiles with
  | none => simp [Span.text,Span.units,Source.between_eq]
  | next forward more ih =>
    rw [List.map_cons,String.join_cons,ih]
    exact text_append_text source (Nat.le_of_lt forward) more.start_le_stop

end Tiles

end Span

namespace Parser
variable {α β : Type} {parser : Parser α} {cursor : Cursor}

theorem withSpan_map_fst (parser : Parser α) : parser.withSpan.map Prod.fst = parser := by
  funext cursor
  unfold map withSpan
  cases parser cursor <;> rfl

/-- What is made of each match does not change where the matches are. -/
theorem repeated_map (change : α → β) (parser : Parser α) (cursor : Cursor) :
    repeated (parser.map change) cursor =
      ((repeated parser cursor).1.map change,(repeated parser cursor).2) := by
  fun_induction repeated parser cursor with
  | case1 cursor failure ran =>
    rw [repeated,map,ran]
    rfl
  | case2 cursor value next ran shorter values last again ih =>
    rw [again] at ih
    rw [repeated,map,ran]
    simp only [shorter,if_true,ih,List.map_cons]
  | case3 cursor value next ran idle =>
    rw [repeated,map,ran]
    simp only [idle,if_false,List.map_nil]

theorem withSpan_tiles (advances : parser.Advances) (canonical : cursor.Canonical) :
    Span.Tiles cursor.source cursor.position ((repeated parser.withSpan cursor).1.map Prod.snd)
      (repeated parser.withSpan cursor).2.position := by
  fun_induction repeated parser.withSpan cursor with
  | case1 cursor | case3 cursor => exact .none cursor.position
  | case2 cursor value next ran shorter values last again ih =>
    obtain ⟨matched,spanned⟩ := withSpan_eq_ok_iff.mp ran
    have reached := advances matched
    have further := (reached.remaining_lt_iff canonical).mp shorter
    have later := ih (reached.canonical canonical)
    rw [again,reached.source_eq] at later
    rw [List.map_cons,spanned]
    exact .next further later

/-- One row of matches with their spans is behind the three repetitions. -/
theorem exists_spanned (advances : parser.Advances) (canonical : cursor.Canonical) :
    ∃ spanned last, repeated parser.withSpan cursor = (spanned,last) ∧
      repeated parser cursor = (spanned.map Prod.fst,last) ∧
      repeated parser.recognize cursor = ((spanned.map Prod.snd).map Span.text,last) ∧
      Span.Tiles cursor.source cursor.position (spanned.map Prod.snd) last.position := by
  refine ⟨_,_,rfl,?_,?_,withSpan_tiles advances canonical⟩
  · have plain := repeated_map Prod.fst parser.withSpan cursor
    rwa [withSpan_map_fst] at plain
  · rw [List.map_map]
    exact repeated_map _ parser.withSpan cursor

theorem seq_recognize_eq_ok_iff {first : Parser α} {second : Parser β} (advances : first.Advances)
    (continues : second.Advances) (canonical : cursor.Canonical) {text : String} {last : Cursor} :
    (first.seq second).recognize cursor = .ok (text,last) ↔ ∃ left middle right,
      first.recognize cursor = .ok (left,middle) ∧ second.recognize middle = .ok (right,last) ∧
        text = left ++ right := by
  simp only [recognize_eq_ok_iff,seq_eq_ok_iff]
  constructor
  · intro matched
    obtain ⟨⟨value,middle,ran,after⟩,rfl⟩ := matched
    have whole := Span.text_between_append canonical (advances ran) (continues after)
    exact ⟨_,middle,_,⟨⟨value.1,ran⟩,rfl⟩,⟨⟨value.2,after⟩,rfl⟩,whole.symm⟩
  · intro matched
    obtain ⟨_,middle,_,⟨⟨left,ran⟩,rfl⟩,⟨⟨right,after⟩,rfl⟩,rfl⟩ := matched
    have whole := Span.text_between_append canonical (advances ran) (continues after)
    exact ⟨⟨(left,right),middle,ran,after⟩,whole⟩

end Parser

namespace Grammar
variable {α β : Type}
open TamilScript.Parser

/-- Repeated with spans or with texts, a grammar finds the matches it finds without. The spans take a
unit or more each and fill the stretch up to where the repetition ends; the texts in a row are the
text of the whole. So are those of two grammars, the second from where the first ended. -/
theorem spans_tile (grammar : Grammar α) (second : Grammar β) (source : Source) (cursor : Cursor)
    (reached : (Cursor.start source).Reaches cursor) :
    (∃ values spanned texts last,
      grammar.many.run cursor = .ok (values,last) ∧
      grammar.withSpan.many.run cursor = .ok (spanned,last) ∧
      grammar.recognize.many.run cursor = .ok (texts,last) ∧
      grammar.many.recognize.run cursor = .ok (String.join texts,last) ∧
      spanned.map Prod.fst = values ∧
      Span.Tiles source cursor.position (spanned.map Prod.snd) last.position ∧
      (spanned = [] ↔ last.position = cursor.position) ∧
      Span.text? ⟨source,cursor.position,last.position⟩ = some (String.join texts)) ∧
    ∀ text last, (grammar.seq second).recognize.run cursor = .ok (text,last) ↔
      ∃ left middle right, grammar.recognize.run cursor = .ok (left,middle) ∧
        second.recognize.run middle = .ok (right,last) ∧ text = left ++ right := by
  have canonical := reached.canonical_of_start
  have same := reached.source_of_start
  have advances := grammar.run_advances
  refine ⟨?_,fun _ _ => seq_recognize_eq_ok_iff advances second.run_advances canonical⟩
  obtain ⟨spanned,last,found,plain,told,tiles⟩ := exists_spanned advances canonical
  have onward := repeated_reaches advances cursor
  rw [plain] at onward
  have inRange := Span.between_inRange canonical onward
  have joined := tiles.join_texts
  have none := tiles.eq_nil_iff
  have whole : grammar.many.run cursor = .ok (spanned.map Prod.fst,last) := congrArg Except.ok plain
  refine ⟨_,spanned,_,last,whole,congrArg Except.ok found,congrArg Except.ok told,
    recognize_eq_ok_iff.mpr ⟨⟨_,whole⟩,joined⟩,rfl,?_,?_,?_⟩
  · rwa [same] at tiles
  · rwa [List.map_eq_nil_iff] at none
  · rw [joined,same]
    exact Span.text?_eq_some (same ▸ inRange)

theorem syllable_spans_tile :
    let source := Source.ofString "xகாகy"
    let grammar := (oneOf ['க']).seq (exactly 'ா').optional
    let cursor := (Cursor.start source).next
    let last := Cursor.valid source 4
    (∃ spanned, grammar.withSpan.many.run cursor = .ok (spanned,last) ∧
      Span.Tiles source 1 (spanned.map Prod.snd) 4) ∧
    grammar.recognize.many.run cursor = .ok (["கா","க"],last) ∧
    grammar.many.recognize.run cursor = .ok ("காக",last) ∧
    (grammar.seq any).recognize.run cursor = .ok ("காக",last) := by
  intro source grammar cursor last
  have ran : grammar.recognize.many.run cursor = .ok (["கா","க"],last) := by decide +kernel
  obtain ⟨⟨_,spanned,texts,stop,_,found,told,whole,_,tiles,_⟩,pair⟩ :=
    spans_tile grammar any source cursor (.next _)
  obtain ⟨rfl,rfl⟩ := Prod.mk.inj (Except.ok.inj (told.symm.trans ran))
  refine ⟨⟨spanned,found,tiles⟩,ran,whole,(pair _ _).mpr ?_⟩
  exact ⟨"கா",.valid source 3,"க",by decide +kernel,by decide +kernel,rfl⟩

end Grammar

end TamilScript
