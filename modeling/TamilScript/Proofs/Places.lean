import Mathlib.Algebra.GroupWithZero.Nat
import Mathlib.Data.List.Induction
import Mathlib.Data.Prod.Lex
import TamilScript.Location

/-! Line and offset of a position. Of the units before a position, each line feed closes a line and the
rest are on the line of the position; what follows completes that line and adds more. The walk over
those units keeps the number and the start of the line that is open, so the position is the start of
its line and the offset on it, and neither of the two can be had without going on in the text. -/
namespace TamilScript

theorem lines_append {before after opened rest : List Char} {closed later : List (List Char)}
    (reached : lines before = closed ++ [opened]) (ahead : lines after = rest :: later) :
    lines (before ++ after) = closed ++ (opened ++ rest) :: later := by
  induction before generalizing closed opened with
  | nil =>
    have single : [] ++ [[]] = closed ++ [opened] := reached
    obtain ⟨rfl,same⟩ := List.append_inj' single rfl
    obtain rfl := List.singleton_inj.mp same
    exact ahead
  | cons unit before ih =>
    rw [List.cons_append,lines]
    rw [lines] at reached
    split at reached
    · next ended =>
      rw [if_pos ended]
      cases closed with
      | nil => exact absurd (List.cons.inj reached).2 (lines_ne_nil before)
      | cons first closed =>
        obtain ⟨rfl,inner⟩ := List.cons.inj reached
        rw [ih inner]
        rfl
    · next goes =>
      rw [if_neg goes]
      obtain ⟨first,others,split⟩ := exists_lines_eq before
      rw [split,List.modifyHead_cons] at reached
      cases closed with
      | nil =>
        obtain ⟨rfl,rfl⟩ := List.cons.inj reached
        have inner : lines before = [] ++ [first] := split
        rw [ih inner]
        rfl
      | cons front closed =>
        obtain ⟨rfl,rfl⟩ := List.cons.inj reached
        have inner : lines before = (first :: closed) ++ [opened] := split
        rw [ih inner]
        rfl

theorem lines_eq_splitOnP (units : List Char) : lines units = units.splitOnP endsLine := by
  induction units with
  | nil => rfl
  | cons unit rest ih => rw [lines,List.splitOnP_cons_eq_if_modifyHead,ih]

theorem Source.lines_eq_splitOn (source : Source) :
    source.lines = source.units.toList.splitOn '\n' := lines_eq_splitOnP _

namespace Line

/-- The units are closed lines, each with its line feed, and the part of a line that is open. -/
structure Reached (units : List Char) (line : Line) (closed : List (List Char))
    (opened : List Char) : Prop where
  cut : lines units = closed ++ [opened]
  number : line.number = closed.length + 1
  start : line.start = (closed.map fun whole => whole.length + 1).sum
  width : line.start + opened.length = units.length
  feeds : units.count '\n' = closed.length

namespace Reached
variable {units opened : List Char} {line : Line} {closed : List (List Char)} {unit : Char}

theorem past_feed (reached : Reached units line closed opened) (ended : endsLine unit = true) :
    Reached (units ++ [unit]) (line.past unit units.length) (closed ++ [opened]) [] := by
  have width := reached.width
  have start := reached.start
  have more : lines [unit] = [] :: [[]] := by simp [lines,ended]
  obtain rfl := endsLine_iff.mp ended
  rw [past,if_pos ended]
  constructor
  · rw [lines_append reached.cut more,List.append_nil,List.append_assoc]
    rfl
  · simp [reached.number]
  · simp only [List.map_append,List.map_cons,List.map_nil,List.sum_append,List.sum_singleton]
    omega
  · simp
  · simp [reached.feeds]

theorem past_other (reached : Reached units line closed opened) (goes : endsLine unit = false) :
    Reached (units ++ [unit]) (line.past unit units.length) closed (opened ++ [unit]) := by
  have width := reached.width
  have more : lines [unit] = [unit] :: [] := by simp [lines,goes]
  have other : unit ≠ '\n' := by
    intro same
    rw [endsLine_iff.mpr same] at goes
    contradiction
  rw [past,goes]
  constructor
  · exact lines_append reached.cut more
  · exact reached.number
  · exact reached.start
  · rw [List.length_append,List.length_append,← width,Nat.add_assoc]
    rfl
  · rw [List.count_append,reached.feeds,List.count_singleton]
    simp [other]

end Reached

theorem after_concat (units : List Char) (unit : Char) :
    after (units ++ [unit]) = (after units).past unit units.length := by
  simp [after,List.zipIdx_append]

theorem exists_reached (units : List Char) :
    ∃ closed opened, Reached units (after units) closed opened := by
  induction units using List.reverseRecOn with
  | nil => exact ⟨[],[],rfl,rfl,rfl,rfl,rfl⟩
  | append_singleton units unit ih =>
    obtain ⟨closed,opened,reached⟩ := ih
    rw [after_concat]
    cases ended : endsLine unit with
    | false => exact ⟨closed,opened ++ [unit],reached.past_other ended⟩
    | true => exact ⟨closed ++ [opened],[],reached.past_feed ended⟩

end Line

namespace Location

/-- The line of a location is a part in front of it and a part from it on, and has lines on both sides. -/
structure Parts (location : Location) (closed : List (List Char)) (opened rest : List Char)
    (later : List (List Char)) : Prop where
  reached : Line.Reached (location.source.units.toList.take location.position) location.line
    closed opened
  ahead : lines location.remaining = rest :: later
  cut : location.source.lines = closed ++ (opened ++ rest) :: later

theorem exists_parts (location : Location) :
    ∃ closed opened rest later, location.Parts closed opened rest later := by
  obtain ⟨closed,opened,reached⟩ :=
    Line.exists_reached (location.source.units.toList.take location.position)
  obtain ⟨rest,later,ahead⟩ := exists_lines_eq location.remaining
  refine ⟨closed,opened,rest,later,reached,ahead,?_⟩
  rw [← lines_append reached.cut ahead]
  exact congrArg lines (List.take_append_drop _ _).symm

namespace Parts
variable {location : Location} {closed later : List (List Char)} {opened rest : List Char}

theorem line_eq (parts : location.Parts closed opened rest later) :
    location.place.line = closed.length + 1 := parts.reached.number

theorem line_sub_one (parts : location.Parts closed opened rest later) :
    location.place.line - 1 = closed.length := Nat.sub_eq_of_eq_add parts.line_eq

theorem getElem?_lines (parts : location.Parts closed opened rest later) :
    location.source.lines[location.place.line - 1]? = some (opened ++ rest) := by
  rw [parts.cut,parts.line_sub_one]
  simp

theorem offset_eq (parts : location.Parts closed opened rest later)
    (inside : location.position ≤ location.source.size) :
    location.place.offset = opened.length := by
  have width := parts.reached.width
  have size : location.source.units.toList.length = location.source.size := Array.length_toList
  rw [List.length_take,size,Nat.min_eq_left inside] at width
  show location.position - location.line.start = opened.length
  omega

end Parts

theorem place_line (location : Location) : location.place.line =
    (location.source.units.toList.take location.position).count '\n' + 1 := by
  obtain ⟨closed,opened,rest,later,parts⟩ := location.exists_parts
  rw [parts.reached.feeds]
  exact parts.line_eq

theorem line_start_le (location : Location) : location.line.start ≤ location.position := by
  obtain ⟨closed,opened,rest,later,parts⟩ := location.exists_parts
  have width := parts.reached.width
  rw [List.length_take] at width
  omega

/-- The lines before the line of a location take what its offset does not count. -/
theorem line_start_eq (location : Location) : location.line.start =
    ((location.source.lines.take (location.place.line - 1)).map fun line => line.length + 1).sum := by
  obtain ⟨closed,opened,rest,later,parts⟩ := location.exists_parts
  rw [parts.cut,parts.line_sub_one,List.take_left]
  exact parts.reached.start

theorem position_eq (location : Location) : location.position = location.place.offset +
    ((location.source.lines.take (location.place.line - 1)).map fun line => line.length + 1).sum := by
  rw [← location.line_start_eq]
  exact (Nat.sub_add_cancel location.line_start_le).symm

theorem offset_le (location : Location) (inside : location.position ≤ location.source.size) :
    ∃ line, location.source.lines[location.place.line - 1]? = some line ∧
      location.place.offset ≤ line.length := by
  obtain ⟨closed,opened,rest,later,parts⟩ := location.exists_parts
  refine ⟨opened ++ rest,parts.getElem?_lines,?_⟩
  rw [parts.offset_eq inside,List.length_append]
  exact Nat.le_add_right _ _

end Location

/-- Places in the order of the text: by line, and on one line by offset. -/
def Place.rank (place : Place) : ℕ ×ₗ ℕ := toLex (place.line,place.offset)

namespace Source
variable (source : Source)

def placeAt (position : Nat) : Place := Location.place ⟨source,position⟩

theorem line_placeAt_mono {first second : Nat} (before : first ≤ second) :
    (source.placeAt first).line ≤ (source.placeAt second).line := by
  rw [placeAt,placeAt,Location.place_line,Location.place_line]
  have fewer : (source.units.toList.take first).Sublist (source.units.toList.take second) :=
    (List.take_prefix_take_left before).sublist
  exact Nat.add_le_add_right (fewer.count_le '\n') 1

theorem rank_placeAt_strictMono : StrictMono fun position => (source.placeAt position).rank := by
  intro first second before
  apply Prod.Lex.toLex_lt_toLex.mpr
  rcases Nat.lt_or_eq_of_le (source.line_placeAt_mono (Nat.le_of_lt before)) with above | same
  · exact Or.inl above
  · apply Or.inr
    refine ⟨same,?_⟩
    -- On one line the lines before are the same, so only the offsets can differ.
    have near : first = _ := Location.position_eq ⟨source,first⟩
    have far : second = _ := Location.position_eq ⟨source,second⟩
    unfold placeAt at same ⊢
    rw [same] at near
    dsimp only at near far ⊢
    omega

end Source

/-- A location is shown as a line and an offset. The line counts the line feeds before the position,
the offset what the lines before it leave over, and no line start lies behind its position; this
holds of positions beyond the end, too. Positions in the text and their places stand in the same
order, so no two positions have one place, and the offset of a position in the text is no longer
than its line. -/
theorem place_of_position (source : Source) :
    (∀ position, let place := source.placeAt position
      Location.text ⟨source,position⟩ =
        "line " ++ toString place.line ++ ", offset " ++ toString place.offset ∧
      place.line - 1 = (source.units.toList.take position).count '\n' ∧ 1 ≤ place.line ∧
      (Location.line ⟨source,position⟩).start ≤ position ∧
      position = place.offset +
        ((source.lines.take (place.line - 1)).map fun line => line.length + 1).sum ∧
      (position ≤ source.size → ∃ line, source.lines[place.line - 1]? = some line ∧
        place.offset ≤ line.length)) ∧
    Function.Injective source.placeAt ∧
    StrictMono fun position => (source.placeAt position).rank := by
  have ordered := source.rank_placeAt_strictMono
  refine ⟨?_,fun _ _ same => ordered.injective (congrArg Place.rank same),ordered⟩
  intro position place
  have line : place.line = _ := Location.place_line ⟨source,position⟩
  refine ⟨rfl,by rw [line]; rfl,by rw [line]; exact Nat.le_add_left _ _,
    Location.line_start_le _,Location.position_eq ⟨source,position⟩,?_⟩
  exact Location.offset_le ⟨source,position⟩

theorem place_past_blank_line :
    let source := Source.ofString "கல்\n\nஆறு"
    source.placeAt 7 = ⟨3,2⟩ ∧ source.placeAt 12 = ⟨3,7⟩ ∧ 7 ≤ source.size ∧
    Location.text ⟨source,7⟩ = "line 3, offset 2" ∧
    (source.units.toList.take 7).count '\n' = 2 ∧
    (∃ line, source.lines[2]? = some line ∧ 2 ≤ line.length) ∧
    (source.placeAt 4).rank < (source.placeAt 5).rank ∧
    source.placeAt 4 ≠ source.placeAt 5 := by
  intro source
  obtain ⟨each,apart,ordered⟩ := place_of_position source
  obtain ⟨shown,feeds,_,_,_,within⟩ := each 7
  have place : source.placeAt 7 = ⟨3,2⟩ := by decide
  rw [place] at shown feeds within
  exact ⟨place,by decide,by decide,shown,feeds.symm,within (by decide),ordered (by decide),
    apart.ne (by decide)⟩

end TamilScript
