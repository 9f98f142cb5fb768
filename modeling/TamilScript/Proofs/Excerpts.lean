import Mathlib.Data.List.Basic
import TamilScript.Failure
import TamilScript.Proofs.Places

/-! What a report shows of the source. The lines around a location stand in their order behind their
numbers, and below the line of the location a pointer stands at the unit there. The margin makes a
printed line longer by its own width, so the pointer is moved by as much; what the printed line has
from the pointer on is what was left unread of that line. Neither the place that ends a message nor
a printed line reads as a pointer, so a report has no second one below its message. -/
namespace TamilScript

theorem notMem_of_mem_lines {units line : List Char} (member : line ∈ lines units) :
    '\n' ∉ line := by
  induction units generalizing line with
  | nil => simp_all [lines]
  | cons unit units ih =>
    rw [lines] at member
    split at member
    · rcases List.mem_cons.mp member with rfl | later
      · exact List.not_mem_nil
      · exact ih later
    · next goes =>
      obtain ⟨first,others,split⟩ := exists_lines_eq units
      rw [split,List.modifyHead_cons] at member
      rw [split] at ih
      rcases List.mem_cons.mp member with rfl | later
      · intro inside
        rcases List.mem_cons.mp inside with same | onward
        · exact goes (endsLine_iff.mpr same.symm)
        · exact ih List.mem_cons_self onward
      · exact ih (List.mem_cons_of_mem _ later)

theorem first_line_eq {units rest : List Char} {later : List (List Char)}
    (cut : lines units = rest :: later) : rest = units.takeWhile fun unit => !endsLine unit := by
  induction units generalizing rest later with
  | nil => exact (List.cons.inj cut).1.symm
  | cons unit units ih =>
    rw [lines] at cut
    split at cut
    · next ended =>
      rw [List.takeWhile_cons_of_neg (by simp [ended])]
      exact (List.cons.inj cut).1.symm
    · next goes =>
      obtain ⟨first,others,split⟩ := exists_lines_eq units
      rw [split,List.modifyHead_cons] at cut
      rw [List.takeWhile_cons_of_pos (by simp [goes]),← ih split]
      exact (List.cons.inj cut).1.symm

/-- The line of a source with the number, from one; empty where it has no such line. -/
def Source.nthLine (source : Source) (number : Nat) : List Char :=
  (source.lines[number - 1]?).getD []

theorem Source.notMem_nthLine (source : Source) (number : Nat) : '\n' ∉ source.nthLine number := by
  unfold nthLine
  cases found : source.lines[number - 1]? with
  | none => exact List.not_mem_nil
  | some line => exact notMem_of_mem_lines (List.mem_of_getElem? found)

theorem Source.zipIdx_lines (source : Source) : source.lines.zipIdx 1 =
    (List.range' 1 source.lines.length).map fun number => (source.nthLine number,number) := by
  apply List.ext_getElem
  · simp
  · intro i left right
    have bound : i < source.lines.length := by simpa using left
    simp [nthLine,bound]

theorem range'_cut {start middle stop : Nat} (forward : start ≤ middle) (onward : middle ≤ stop) :
    List.range' start (stop - start) =
      List.range' start (middle - start) ++ List.range' middle (stop - middle) := by
  have joined := List.range'_append_1 (s := start) (m := middle - start) (n := stop - middle)
  rw [Nat.add_sub_cancel' forward] at joined
  rw [joined]
  congr 1
  omega

theorem splitOn_feed (before after : List Char) :
    (before ++ '\n' :: after).splitOn '\n' = before.splitOn '\n' ++ after.splitOn '\n' :=
  List.splitOnP_append_cons before after (beq_self_eq_true '\n')

/-- Texts that a line feed ends are the lines, and behind the last feed there is an empty one. -/
theorem splitOn_ended {texts : List (List Char)} (each : ∀ text ∈ texts, '\n' ∉ text) :
    (texts.flatMap (· ++ ['\n'])).splitOn '\n' = texts ++ [[]] := by
  induction texts with
  | nil => rfl
  | cons text texts ih =>
    obtain ⟨first,others⟩ := List.forall_mem_cons.mp each
    rw [List.flatMap_cons,List.append_assoc,List.singleton_append,splitOn_feed,
      List.splitOn_eq_singleton first,ih others]
    rfl

/-- Where only one item from a place on is of a kind, nothing else of the kind is found there. -/
theorem index_of_only {α : Type} {kind : α → Prop} {far near back : List α} {item found : α}
    {index : Nat} (at_index : (far ++ (near ++ item :: back))[index]? = some found)
    (is_kind : kind found) (beside : ∀ other ∈ near ++ back, ¬kind other) :
    index < far.length ∨ index = far.length + near.length ∧ found = item := by
  rcases Nat.lt_or_ge index far.length with early | late
  · exact Or.inl early
  · rw [List.getElem?_append_right late] at at_index
    rcases Nat.lt_or_ge (index - far.length) near.length with before | beyond
    · rw [List.getElem?_append_left before] at at_index
      have member := List.mem_append_left back (List.mem_of_getElem? at_index)
      exact absurd is_kind (beside found member)
    · rw [List.getElem?_append_right beyond] at at_index
      cases rest : index - far.length - near.length with
      | zero =>
        rw [rest] at at_index
        exact Or.inr ⟨by omega,(Option.some.inj at_index).symm⟩
      | succ more =>
        rw [rest,List.getElem?_cons_succ] at at_index
        have member := List.mem_append_right near (List.mem_of_getElem? at_index)
        exact absurd is_kind (beside found member)

theorem feed_notMem_digits (number : Nat) : '\n' ∉ Nat.toDigits 10 number := by
  intro member
  have digit := Nat.isDigit_of_mem_toDigits (by omega) (by omega) member
  exact absurd digit (by decide)

theorem Place.feed_notMem_text (place : Place) : '\n' ∉ place.text.toList := by
  simp [text,toString,feed_notMem_digits]

theorem Place.comma_mem_text (place : Place) : ',' ∈ place.text.toList := by simp [text]

namespace Location

section Margins
variable (marked : Bool) (number : Nat)

theorem toList_margin : (margin marked number).toList =
    (if marked then "  > ".toList else "    ".toList) ++ Nat.toDigits 10 number ++ " | ".toList := by
  cases marked <;> simp [margin,toString]

theorem feed_notMem_margin : '\n' ∉ (margin marked number).toList := by
  rw [toList_margin]
  cases marked <;> simp [feed_notMem_digits]

theorem bar_mem_margin : '|' ∈ (margin marked number).toList := by
  rw [toList_margin]
  exact List.mem_append_right _ (by decide)

theorem toList_pointer (column : Nat) :
    (pointer column).toList = List.replicate column ' ' ++ "^--- here".toList := by
  simp [pointer]

theorem feed_notMem_pointer (column : Nat) : '\n' ∉ (pointer column).toList := by
  rw [toList_pointer]
  simp

theorem pointer_injective : Function.Injective pointer := by
  intro column other same
  have widths := congrArg (fun text => text.toList.length) same
  simpa [toList_pointer] using widths

/-- The line is a pointer at some column. -/
def IsPointer (line : List Char) : Prop := ∃ column, line = (pointer column).toList

theorem not_isPointer_nil : ¬IsPointer [] := by
  rintro ⟨column,same⟩
  rw [toList_pointer] at same
  simp at same

theorem not_isPointer_of_mem {line : List Char} {unit : Char} (member : unit ∈ line)
    (other : unit ∉ ' ' :: "^--- here".toList) : ¬IsPointer line := by
  rintro ⟨column,rfl⟩
  rw [toList_pointer] at member
  rcases List.mem_append.mp member with blank | arrow
  · exact other (List.eq_of_mem_replicate blank ▸ List.mem_cons_self)
  · exact other (List.mem_cons_of_mem ' ' arrow)

end Margins

/-- A line of the source behind its number. -/
def printed (source : Source) (marked : Bool) (number : Nat) : String :=
  margin marked number ++ String.ofList (source.nthLine number)

section Printed
variable (source : Source) (marked : Bool) (number : Nat)

theorem toList_printed : (printed source marked number).toList =
    (margin marked number).toList ++ source.nthLine number := by simp [printed]

theorem feed_notMem_printed : '\n' ∉ (printed source marked number).toList := by
  rw [toList_printed,List.mem_append,not_or]
  exact ⟨feed_notMem_margin marked number,source.notMem_nthLine number⟩

theorem printed_not_isPointer : ¬IsPointer (printed source marked number).toList := by
  have bar : '|' ∈ (printed source marked number).toList := by
    rw [toList_printed]
    exact List.mem_append_left _ (bar_mem_margin marked number)
  exact not_isPointer_of_mem bar (by decide)

theorem not_marked_printed : ¬"  > ".toList <+: (printed source false number).toList := by
  rw [toList_printed,toList_margin]
  simp

end Printed

section Excerpt
variable (location : Location)

/-- The first line that is shown, by its number. -/
def earliest : Nat := max 1 (location.place.line - 2)

/-- The last line that is shown, by its number. -/
def latest : Nat := min location.source.lines.length (location.place.line + 2)

/-- The column of the caret on the printed line. -/
def column : Nat := (margin true location.place.line).length + location.place.offset

def above : List String :=
  (List.range' location.earliest (location.place.line - location.earliest)).map
    (printed location.source false)

def below : List String :=
  (List.range' (location.place.line + 1) (location.latest - location.place.line)).map
    (printed location.source false)

theorem line_between : 1 ≤ location.earliest ∧ location.earliest ≤ location.place.line ∧
    location.place.line ≤ location.latest ∧ location.latest ≤ location.source.lines.length := by
  obtain ⟨closed,opened,rest,later,parts⟩ := location.exists_parts
  have line := parts.line_eq
  have total : location.source.lines.length = closed.length + (1 + later.length) := by
    rw [parts.cut,List.length_append,List.length_cons,Nat.add_comm later.length]
  unfold earliest latest
  omega

/-- What an excerpt has for the line with the number. -/
def shown (number : Nat) : List String :=
  if number + reach < location.place.line ∨ location.place.line + reach < number then []
  else if number = location.place.line then
    [printed location.source true number,pointer location.column]
  else [printed location.source false number]

theorem excerpt_eq_shown :
    location.excerpt = (List.range' 1 location.source.lines.length).flatMap location.shown := by
  unfold excerpt
  rw [Source.zipIdx_lines,List.flatMap_map]
  apply List.flatMap_congr
  intro number _
  unfold shown printed column
  dsimp only
  split_ifs with _ here
  · rfl
  · rw [here]
  · rfl

theorem shown_near {number : Nat} (first : location.earliest ≤ number)
    (last : number ≤ location.latest) (other : number ≠ location.place.line) :
    location.shown number = [printed location.source false number] := by
  unfold earliest at first
  unfold latest at last
  unfold shown reach
  rw [if_neg (by omega),if_neg other]

theorem shown_here : location.shown location.place.line =
    [printed location.source true location.place.line,pointer location.column] := by
  unfold shown
  rw [if_neg (by omega),if_pos rfl]

theorem flatMap_shown_far {start count : Nat} (positive : 1 ≤ start)
    (within : start + count ≤ location.source.lines.length + 1)
    (far : start + count ≤ location.earliest ∨ location.latest < start) :
    (List.range' start count).flatMap location.shown = [] := by
  apply List.flatMap_eq_nil_iff.mpr
  intro number member
  obtain ⟨after,before⟩ := List.mem_range'_1.mp member
  unfold earliest latest at far
  unfold shown reach
  rw [if_pos (by omega)]

theorem flatMap_shown_near {start count : Nat} (first : location.earliest ≤ start)
    (last : start + count ≤ location.latest + 1)
    (other : start + count ≤ location.place.line ∨ location.place.line < start) :
    (List.range' start count).flatMap location.shown =
      (List.range' start count).map (printed location.source false) := by
  rw [List.map_eq_flatMap]
  apply List.flatMap_congr
  intro number member
  obtain ⟨after,before⟩ := List.mem_range'_1.mp member
  exact location.shown_near (by omega) (by omega) (by omega)

/-- The numbers of all lines: those too far above, those above, the line, those below, the rest. -/
theorem range'_lines : List.range' 1 location.source.lines.length =
    List.range' 1 (location.earliest - 1) ++
      (List.range' location.earliest (location.place.line - location.earliest) ++
        (location.place.line ::
          (List.range' (location.place.line + 1) (location.latest - location.place.line) ++
            List.range' (location.latest + 1)
              (location.source.lines.length - location.latest)))) := by
  obtain ⟨positive,before,after,within⟩ := location.line_between
  have first := range'_cut positive (by omega : location.earliest ≤ location.source.lines.length + 1)
  have second := range'_cut before
    (by omega : location.place.line ≤ location.source.lines.length + 1)
  have third := range'_cut (Nat.le_add_right location.place.line 1)
    (by omega : location.place.line + 1 ≤ location.source.lines.length + 1)
  have fourth := range'_cut (Nat.add_le_add_right after 1)
    (by omega : location.latest + 1 ≤ location.source.lines.length + 1)
  rw [Nat.add_sub_cancel] at first
  rw [Nat.add_sub_cancel_left,List.range'_one,List.singleton_append] at third
  simp only [Nat.add_sub_add_right] at third fourth
  rw [first,second,third,fourth]

/-- The excerpt is the lines from the first to the last in their order; that of the location is
marked and has the pointer below it. -/
theorem excerpt_eq : location.excerpt =
    location.above ++ [printed location.source true location.place.line,pointer location.column] ++
      location.below := by
  obtain ⟨positive,before,after,within⟩ := location.line_between
  rw [excerpt_eq_shown,range'_lines]
  simp only [List.flatMap_append,List.flatMap_cons]
  rw [location.flatMap_shown_far (Nat.le_refl 1) (by omega) (Or.inl (by omega)),
    location.flatMap_shown_near (Nat.le_refl _) (by omega) (Or.inl (by omega)),shown_here,
    location.flatMap_shown_near (by omega) (by omega) (Or.inr (by omega)),
    location.flatMap_shown_far (by omega) (by omega) (Or.inr (by omega))]
  simp [above,below]

variable {location} {text : String}

theorem exists_printed_of_mem (around : text ∈ location.above ++ location.below) :
    ∃ number, text = printed location.source false number := by
  rcases List.mem_append.mp around with before | after
  · obtain ⟨number,_,same⟩ := List.mem_map.mp before
    exact ⟨number,same.symm⟩
  · obtain ⟨number,_,same⟩ := List.mem_map.mp after
    exact ⟨number,same.symm⟩

theorem feed_notMem_of_mem (member : text ∈ location.excerpt) : '\n' ∉ text.toList := by
  rw [excerpt_eq,List.append_assoc,List.mem_append,List.cons_append,List.cons_append,
    List.nil_append,List.mem_cons,List.mem_cons] at member
  rcases member with before | rfl | rfl | after
  · obtain ⟨number,rfl⟩ := exists_printed_of_mem (List.mem_append_left _ before)
    exact feed_notMem_printed _ false number
  · exact feed_notMem_printed _ true _
  · exact feed_notMem_pointer _
  · obtain ⟨number,rfl⟩ := exists_printed_of_mem (List.mem_append_right _ after)
    exact feed_notMem_printed _ false number

theorem not_isPointer_of_mem_around (around : text ∈ location.above ++ location.below) :
    ¬IsPointer text.toList := by
  obtain ⟨number,rfl⟩ := exists_printed_of_mem around
  exact printed_not_isPointer _ false number

end Excerpt

section Caret
variable {location : Location}

/-- What the printed line has from the caret on is what is left of the line in the text. -/
theorem drop_column (inside : location.position ≤ location.source.size) :
    (printed location.source true location.place.line).toList.drop location.column =
      location.remaining.takeWhile fun unit => !endsLine unit := by
  obtain ⟨closed,opened,rest,later,parts⟩ := location.exists_parts
  have line : location.source.nthLine location.place.line = opened ++ rest := by
    unfold Source.nthLine
    rw [parts.getElem?_lines]
    rfl
  rw [toList_printed,line,column,parts.offset_eq inside,← String.length_toList,
    List.drop_length_add_append,List.drop_left,first_line_eq parts.ahead]

theorem head?_remaining (location : Location) :
    location.remaining.head? = location.source.units[location.position]? := by
  simp [remaining,Source.suffix]

theorem getElem?_column (inside : location.position ≤ location.source.size) :
    (printed location.source true location.place.line).toList[location.column]? =
      location.source.units[location.position]?.filter fun unit => !endsLine unit := by
  rw [← List.head?_drop,drop_column inside,List.head?_takeWhile,head?_remaining]

theorem column_le (inside : location.position ≤ location.source.size) :
    location.column ≤ (printed location.source true location.place.line).toList.length := by
  obtain ⟨line,found,bound⟩ := location.offset_le inside
  rw [toList_printed,List.length_append,String.length_toList,Source.nthLine,found]
  exact Nat.add_le_add_left bound _

theorem column_eq_length (inside : location.position ≤ location.source.size)
    (last : ∀ unit ∈ location.source.units[location.position]?, unit = '\n') :
    location.column = (printed location.source true location.place.line).toList.length := by
  apply Nat.le_antisymm (column_le inside)
  apply List.getElem?_eq_none_iff.mp
  rw [getElem?_column inside,Option.filter_eq_none_iff]
  intro unit found
  simp [endsLine_iff.mpr (last unit found)]

end Caret

end Location

namespace Failure

/-- A message ends with the place of its failure, in brackets for a rule without conditions. -/
theorem message_place (failure : Failure) : ∃ complaint close,
    failure.message = complaint ++ failure.location.place.text ++ close ∧
      (close = "" ∨ close = ")") := by
  induction failure with
  | endOfSource location =>
    refine ⟨"unexpected end of source at ","",?_,Or.inl rfl⟩
    rw [message_endOfSource,String.append_empty]
    rfl
  | unsatisfied condition location =>
    refine ⟨condition ++ " at ","",?_,Or.inl rfl⟩
    rw [message_unsatisfied,String.append_empty]
    rfl
  | exhausted last ih =>
    obtain ⟨complaint,close,told,closed⟩ := ih
    refine ⟨"no alternative matched: " ++ complaint,close,?_,closed⟩
    rw [message_exhausted,told,← String.append_assoc,← String.append_assoc]
    rfl
  | unimplemented rule location =>
    exact ⟨rule ++ " is not implemented (at ",")",message_unimplemented rule location,Or.inr rfl⟩

/-- The last line of a message has the place of the failure. -/
theorem exists_message_lines (failure : Failure) : ∃ earlier last,
    failure.message.toList.splitOn '\n' = earlier ++ [last] ∧ ',' ∈ last := by
  obtain ⟨complaint,close,told,closed⟩ := failure.message_place
  let ending := failure.location.place.text ++ close
  obtain ⟨earlier,opened,reached⟩ := Line.exists_reached complaint.toList
  have single : lines ending.toList = [ending.toList] := by
    have feeds : '\n' ∉ ending.toList := by
      rcases closed with rfl | rfl <;> simp [ending,Place.feed_notMem_text]
    exact (lines_eq_splitOnP _).trans (List.splitOn_eq_singleton feeds)
  refine ⟨earlier,opened ++ ending.toList,?_,?_⟩
  · rw [told,String.append_assoc,String.toList_append]
    exact (lines_eq_splitOnP _).symm.trans (lines_append reached.cut single)
  · simp [ending,Place.comma_mem_text]

theorem report_lines (failure : Failure) : failure.report.toList.splitOn '\n' =
    failure.message.toList.splitOn '\n' ++
      [] :: failure.location.excerpt.map String.toList ++ [[]] := by
  have each : ∀ text ∈ failure.location.excerpt.map String.toList, '\n' ∉ text := by
    intro text member
    obtain ⟨shown,inside,rfl⟩ := List.mem_map.mp member
    exact Location.feed_notMem_of_mem inside
  have told : failure.report.toList = failure.message.toList ++ '\n' :: ([] ++ '\n' ::
      (failure.location.excerpt.map String.toList).flatMap (· ++ ['\n'])) := by
    simp [report,String.toList_join,List.flatMap_map]
  rw [told,splitOn_feed,splitOn_feed,splitOn_ended each,List.append_assoc]
  rfl

/-- Below the lines of a message before its last one a report has one pointer, at one column. -/
theorem report_pointer (failure : Failure) {index column : Nat}
    (found : (failure.report.toList.splitOn '\n')[index]? =
      some (Location.pointer column).toList) :
    index + 1 < (failure.message.toList.splitOn '\n').length ∨
      index = (failure.message.toList.splitOn '\n').length + 1 +
        failure.location.above.length + 1 ∧ column = failure.location.column := by
  -- Nothing is known of the lines before the last one of the message: they are text of a condition.
  obtain ⟨earlier,last,said,comma⟩ := failure.exists_message_lines
  let marked := Location.printed failure.location.source true failure.location.place.line
  let near := last :: [] :: failure.location.above.map String.toList ++ [marked.toList]
  let back := failure.location.below.map String.toList ++ [[]]
  have split : failure.report.toList.splitOn '\n' = earlier ++
      (near ++ (Location.pointer failure.location.column).toList :: back) := by
    rw [report_lines,said,Location.excerpt_eq]
    simp [near,back,marked]
  have beside : ∀ other ∈ near ++ back, ¬Location.IsPointer other := by
    intro other member
    simp only [near,back,List.mem_append,List.mem_cons,List.mem_map,List.not_mem_nil,or_false]
      at member
    rcases member with ((rfl | rfl | ⟨text,above,rfl⟩) | rfl) | ⟨text,below,rfl⟩ | rfl
    · exact Location.not_isPointer_of_mem comma (by decide)
    · exact Location.not_isPointer_nil
    · exact Location.not_isPointer_of_mem_around (List.mem_append_left _ above)
    · exact Location.printed_not_isPointer _ true _
    · exact Location.not_isPointer_of_mem_around (List.mem_append_right _ below)
    · exact Location.not_isPointer_nil
  rw [split] at found
  rcases index_of_only found ⟨column,rfl⟩ beside with early | ⟨place,same⟩
  · left
    rw [said,List.length_append,List.length_singleton]
    omega
  · right
    refine ⟨?_,Location.pointer_injective (String.toList_inj.mp same)⟩
    rw [place,said]
    simp [near]
    omega

/-- A report is the message, which ends with the place of the failure, a blank line and an excerpt,
each of its texts on a line of its own. The excerpt has the lines from two above the place of the
failure to two below it, as far as there are such, in order and once each behind their numbers. The
line of the failure alone is marked, and a pointer follows it, the only one that the report has below
the first lines of a message with line feeds. On the marked line its caret is below the unit at the
failure, or past the last unit where there is none on the line, and from there on the marked line is
what was left unread of the line. -/
theorem report_points_at_unit (failure : Failure)
    (inside : failure.position ≤ failure.location.source.size) :
    let source := failure.location.source
    let place := failure.location.place
    let earliest := max 1 (place.line - 2)
    let latest := min source.lines.length (place.line + 2)
    let numbered (mark : String) (number : Nat) :=
      mark ++ toString number ++ " | " ++ String.ofList ((source.lines[number - 1]?).getD [])
    let above := (List.range' earliest (place.line - earliest)).map (numbered "    ")
    let marked := numbered "  > " place.line
    let below := (List.range' (place.line + 1) (latest - place.line)).map (numbered "    ")
    let column := ("  > " ++ toString place.line ++ " | ").length + place.offset
    let pointer (column : Nat) := String.ofList (List.replicate column ' ') ++ "^--- here"
    let excerpt := above ++ [marked,pointer column] ++ below
    let said := failure.message.toList.splitOn '\n'
    let told := failure.report.toList.splitOn '\n'
    source.lines = source.units.toList.splitOn '\n' ∧
    (1 ≤ earliest ∧ earliest ≤ place.line ∧ place.line ≤ latest ∧ latest ≤ source.lines.length) ∧
    (∃ complaint close, failure.message = complaint ++
      ("line " ++ toString place.line ++ ", offset " ++ toString place.offset) ++ close ∧
      (close = "" ∨ close = ")")) ∧
    failure.report = failure.message ++ "\n\n" ++ String.join (excerpt.map (· ++ "\n")) ∧
    told = said ++ [] :: excerpt.map String.toList ++ [[]] ∧
    (∀ text ∈ above ++ below, ¬"  > ".toList <+: text.toList) ∧
    (∀ other, (pointer other).toList = List.replicate other ' ' ++ "^--- here".toList) ∧
    (∀ index other, told[index]? = some (pointer other).toList →
      index + 1 < said.length ∨ index = said.length + 1 + above.length + 1 ∧ other = column) ∧
    (∀ unit, source.units[failure.position]? = some unit → unit ≠ '\n' →
      marked.toList[column]? = some unit) ∧
    (source.units[failure.position]? = some '\n' ∨ failure.position = source.size →
      column = marked.toList.length) ∧
    marked.toList.drop column = failure.remaining.takeWhile fun unit => unit != '\n' := by
  intro source place earliest latest numbered above marked below column pointer excerpt said told
  have within : failure.location.position ≤ failure.location.source.size := inside
  have caret := Location.getElem?_column within
  have shown : failure.location.excerpt = excerpt := failure.location.excerpt_eq
  refine ⟨source.lines_eq_splitOn,failure.location.line_between,failure.message_place,?_,?_,?_,
    Location.toList_pointer,fun _ _ => failure.report_pointer,?_,?_,Location.drop_column within⟩
  · rw [report,shown]
  · rw [← shown]
    exact failure.report_lines
  · intro text around
    obtain ⟨number,rfl⟩ := Location.exists_printed_of_mem around
    exact Location.not_marked_printed source number
  · intro unit found other
    have goes : (!endsLine unit) = true := by simp [endsLine,other]
    exact caret.trans ((congrArg _ found).trans (Option.filter_some_pos goes))
  · intro last
    apply Location.column_eq_length within
    intro unit found
    rcases last with feed | ends
    · exact Option.some.inj (found.symm.trans feed)
    · have beyond : source.units[failure.position]? = none :=
        Array.getElem?_eq_none (Nat.le_of_eq ends.symm)
      exact absurd (beyond.symm.trans found) (by simp)

theorem report_of_tenth_line :
    let source := Source.ofString "அ\nஆ\nஇ\nஈ\nஉ\nஊ\nஎ\nஏ\nஐ\nபகை\nஒ\nஓ\nஔ"
    let failure := exhausted (unsatisfied "expected uyir" ⟨source,19⟩)
    failure.position ≤ source.size ∧ source.units[19]? = some 'க' ∧
    failure.message = "no alternative matched: expected uyir at line 10, offset 1" ∧
    failure.report = failure.message ++ "\n\n" ++
      String.join (["    8 | ஏ","    9 | ஐ","  > 10 | பகை","          ^--- here",
        "    11 | ஒ","    12 | ஓ"].map (· ++ "\n")) ∧
    "  > 10 | பகை".toList[10]? = some 'க' ∧
    (Location.pointer 10).toList = List.replicate 10 ' ' ++ "^--- here".toList ∧
    ∀ index other, (failure.report.toList.splitOn '\n')[index]? =
      some (Location.pointer other).toList → index = 5 ∧ other = 10 := by
  intro source failure
  have inside : failure.position ≤ source.size := by decide
  obtain ⟨_,_,_,report,_,_,pointer,only,under,_,_⟩ := report_points_at_unit failure inside
  have place : failure.location.place = ⟨10,1⟩ := by decide +kernel
  have found : source.units[19]? = some 'க' := by decide
  have message : failure.message = "no alternative matched: expected uyir at line 10, offset 1" := by
    decide +kernel
  have column : ("  > " ++ toString 10 ++ " | ").length + 1 = 10 := by decide +kernel
  have tenth : failure.location.source.lines[10 - 1]? = some "பகை".toList := by decide +kernel
  have said : (failure.message.toList.splitOn '\n').length = 1 := by
    rw [message]
    decide +kernel
  rw [place] at report only under
  dsimp only at only under
  rw [column,tenth] at under
  refine ⟨inside,found,message,report.trans ?_,under 'க' found (by decide),pointer 10,?_⟩
  · decide +kernel
  · intro index other shown
    have here := only index other shown
    rw [said,column,List.length_map,List.length_range'] at here
    omega

end Failure

end TamilScript
