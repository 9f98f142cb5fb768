import TamilScript.Proofs.Matching
import TamilScript.Grammar.Access

/-! Matches move forward by steps. A match of any grammar ends at a cursor that steps alone reach from
its start, so a run that begins at the start of a source never leaves that source, never turns
back and never meets a cursor whose position disagrees with its state. -/
namespace TamilScript

namespace Parser
variable {α β : Type}

def Advances (parser : Parser α) : Prop :=
  ∀ ⦃cursor value last⦄, parser cursor = .ok (value,last) → cursor.Reaches last

theorem read_advances : Advances Cursor.read := by
  intro cursor unit last ran
  obtain ⟨_,rfl⟩ := read_eq_ok_iff.mp ran
  exact .next cursor

theorem whitespace_advances : Advances whitespace := by
  intro cursor unit last ran
  exact read_advances (filter_eq_ok_iff.mp ran).1

theorem literalFrom_reaches {whole : String} {expected : List Char} {cursor last : Cursor}
    (ran : literalFrom whole expected cursor = .ok last) : cursor.Reaches last := by
  induction expected generalizing cursor with
  | nil =>
    obtain rfl := Except.ok.inj ran
    exact .refl cursor
  | cons unit rest ih =>
    rw [literalFrom] at ran
    cases read : cursor.read with
    | error => simp [read] at ran
    | ok found =>
      obtain ⟨found,next⟩ := found
      by_cases same : found = unit
      · simp only [read,same,if_true] at ran
        exact (read_advances read).trans (ih ran)
      · simp [read,same] at ran

theorem repeated_reaches {parser : Parser α} (advances : parser.Advances) (cursor : Cursor) :
    cursor.Reaches (repeated parser cursor).2 := by
  fun_induction repeated parser cursor with
  | case1 => exact .refl _
  | case2 cursor value next ran _ values last again ih =>
    rw [again] at ih
    exact (advances ran).trans ih
  | case3 => exact .refl _

theorem attempts_reached {parser : Parser α} (advances : parser.Advances) {cursor tried : Cursor}
    (member : tried ∈ attempts parser cursor) : cursor.Reaches tried := by
  fun_induction attempts parser cursor with
  | case1 => exact List.mem_singleton.mp member ▸ .refl _
  | case2 cursor value next ran _ ih =>
    rcases List.mem_cons.mp member with rfl | later
    · exact .refl _
    · exact (advances ran).trans (ih later)
  | case3 => exact List.mem_singleton.mp member ▸ .refl _

/-- The loop as a test of positions: a match that ends where it began is dropped. -/
theorem repeated_eq {parser : Parser α} (advances : parser.Advances) {cursor : Cursor}
    (canonical : cursor.Canonical) : repeated parser cursor = match parser cursor with
      | .error _ => ([],cursor)
      | .ok (value,next) =>
        if next.position = cursor.position then ([],cursor)
        else (value :: (repeated parser next).1,(repeated parser next).2) := by
  rw [repeated]
  cases ran : parser cursor with
  | error => rfl
  | ok found =>
    obtain ⟨value,next⟩ := found
    have reached := advances ran
    have forward := reached.position_le canonical
    have progress : next.remaining < cursor.remaining ↔ ¬next.position = cursor.position := by
      rw [reached.remaining_lt_iff canonical]
      omega
    simp only [progress,ite_not]

end Parser

namespace Grammar
variable {α : Type}
open TamilScript.Parser

theorem run_advances (grammar : Grammar α) : Advances grammar.run := by
  intro cursor value last ran
  induction grammar generalizing cursor last with
  | any => exact read_advances ran
  | exactly => exact read_advances (exactly_eq_ok_iff.mp ran).1
  | oneOf => exact read_advances (oneOf_eq_ok_iff.mp ran).1
  | endOfSource =>
    obtain ⟨_,rfl⟩ := endOfSource_eq_ok_iff.mp ran
    exact .refl _
  | literal => exact literalFrom_reaches (literal_eq_ok_iff.mp ran).1
  | succeed =>
    obtain ⟨_,rfl⟩ := Prod.mk.inj (Except.ok.inj ran)
    exact .refl _
  | fail | unimplemented => cases ran
  | filter _ _ _ ih => exact ih (filter_eq_ok_iff.mp ran).1
  | map _ _ ih =>
    obtain ⟨_,matched,_⟩ := map_eq_ok_iff.mp ran
    exact ih matched
  | bind _ _ ih continued =>
    obtain ⟨_,_,matched,after⟩ := bind_eq_ok_iff.mp ran
    exact (ih matched).trans (continued _ after)
  | seq _ _ ih after =>
    obtain ⟨_,matched,second⟩ := seq_eq_ok_iff.mp ran
    exact (ih matched).trans (after second)
  | orElse _ _ ih other =>
    rcases orElse_eq_ok_iff.mp ran with matched | ⟨_,matched⟩
    · exact ih matched
    · exact other matched
  | alternatives nth ih =>
    obtain ⟨before,chosen,after,split,matched,_⟩ := choice_eq_ok_iff.mp ran
    have member : chosen ∈ (nth 0).run :: List.ofFn fun i => (nth i.succ).run := by simp [split]
    rw [← List.ofFn_succ (f := fun i => (nth i).run)] at member
    obtain ⟨i,rfl⟩ := List.mem_ofFn.mp member
    exact ih i matched
  | many _ ih =>
    have reached := repeated_reaches ih cursor
    rwa [many_eq_ok_iff.mp ran] at reached
  | many1 _ ih =>
    obtain ⟨_,middle,_,matched,again,_⟩ := many1_eq_ok_iff.mp ran
    have reached := repeated_reaches ih middle
    rw [again] at reached
    exact (ih matched).trans reached
  | optional _ ih =>
    rcases optional_eq_ok_iff.mp ran with ⟨_,matched,_⟩ | ⟨_,_,rfl⟩
    · exact ih matched
    · exact .refl _
  | notFollowedBy =>
    obtain ⟨_,rfl⟩ := notFollowedBy_eq_ok_iff.mp ran
    exact .refl _
  | lookAhead =>
    obtain ⟨_,rfl⟩ := lookAhead_eq_ok_iff.mp ran
    exact .refl _
  | label _ _ ih => exact ih (label_eq_ok_iff.mp ran)
  | withSpan _ ih => exact ih (withSpan_eq_ok_iff.mp ran).1
  | recognize _ ih =>
    obtain ⟨⟨_,matched⟩,_⟩ := recognize_eq_ok_iff.mp ran
    exact ih matched
  | lexeme _ ih =>
    obtain ⟨middle,matched,rfl⟩ := lexeme_eq_ok_iff.mp ran
    exact (ih matched).trans (repeated_reaches whitespace_advances middle)

end Grammar

end TamilScript
