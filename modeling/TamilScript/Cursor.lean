import TamilScript.Failure

/-! Cursors over a source. A cursor is a value: whoever keeps one can return to it. It stands before a
unit or past them all, and stepping over the last unit turns the one into the other. The type alone
does not keep the position of a valid cursor inside its source; stepping from the start does. -/
namespace TamilScript

inductive Cursor where
  | valid (source : Source) (position : Nat)
  | ended (source : Source)
  deriving DecidableEq

namespace Cursor

def start (source : Source) : Cursor := if source.isEmpty then ended source else valid source 0

def source : Cursor → Source
  | valid source _ => source
  | ended source => source

def position : Cursor → Nat
  | valid _ position => position
  | ended source => source.size

def location (cursor : Cursor) : Location := ⟨cursor.source,cursor.position⟩

def unread (cursor : Cursor) : List Char := cursor.source.suffix cursor.position

/-- The number of units left; repetition is bounded by it. -/
def remaining (cursor : Cursor) : Nat := cursor.source.size - cursor.position

inductive State where
  | valid
  | ended
  deriving DecidableEq, Repr

def state : Cursor → State
  | valid .. => .valid
  | ended _ => .ended

/-- The unit at the cursor. A valid cursor indexes its source, which must have a unit there. -/
def value : Cursor → Except Failure Char
  | valid source position => .ok source.units[position]!
  | ended source => .error (.endOfSource ⟨source,source.size⟩)

def atEnd (cursor : Cursor) : Bool := !cursor.value.isOk

def next : Cursor → Cursor
  | valid source position =>
    if source.size ≤ position + 1 then ended source else valid source (position + 1)
  | ended source => ended source

def read (cursor : Cursor) : Except Failure (Char × Cursor) :=
  match cursor.value with
  | .ok unit => .ok (unit,cursor.next)
  | .error failure => .error failure

/-- Positions and distances are words of 64 bits. -/
def wordLimit : Nat := UInt64.size

/-- The position `distance` units ahead, none where no word holds it. -/
def ahead? (cursor : Cursor) (distance : Nat) : Option Nat :=
  if cursor.position + distance < wordLimit then some (cursor.position + distance) else none

/-- The unit `distance` units ahead, none from the end of the source on. -/
def peek (cursor : Cursor) (distance : Nat) : Option Char :=
  (cursor.ahead? distance).bind fun index => cursor.source.units[index]?

def skip (cursor : Cursor) : Nat → Cursor
  | 0 => cursor
  | steps + 1 => cursor.next.skip steps

/-- A valid cursor stands before a unit of its source. -/
def Canonical : Cursor → Prop
  | valid source position => position < source.size
  | ended _ => True

instance : DecidablePred Canonical
  | valid source position => inferInstanceAs (Decidable (position < source.size))
  | ended _ => isTrue trivial

/-- Steps alone lead from the first cursor to the last. -/
def Reaches (first last : Cursor) : Prop := ∃ steps, last = first.skip steps

@[simp] theorem source_start (source : Source) : (start source).source = source := by
  unfold start
  split <;> rfl

@[simp] theorem position_start (source : Source) : (start source).position = 0 := by
  unfold start
  split
  · next empty => simpa [position,Source.size,Source.isEmpty] using empty
  · rfl

theorem location_start (source : Source) : (start source).location = ⟨source,0⟩ := by
  rw [location,source_start,position_start]

theorem start_canonical (source : Source) : (start source).Canonical := by
  unfold start
  split
  · trivial
  · next full => simpa [Canonical,Source.size,Source.isEmpty,Nat.pos_iff_ne_zero] using full

@[simp] theorem unread_start (source : Source) : (start source).unread = source.units.toList := by
  simp [unread,Source.suffix]

theorem next_canonical (cursor : Cursor) : cursor.next.Canonical := by
  cases cursor with
  | valid source position =>
    simp only [next]
    split
    · trivial
    · exact Nat.lt_of_not_le ‹_›
  | ended => trivial

@[simp] theorem source_next (cursor : Cursor) : cursor.next.source = cursor.source := by
  cases cursor with
  | valid => simp only [next]; split <;> rfl
  | ended => rfl

@[simp] theorem unread_next (cursor : Cursor) : cursor.next.unread = cursor.unread.tail := by
  cases cursor with
  | valid source position =>
    simp only [next,unread,Source.suffix,List.tail_drop]
    split
    · next last =>
      rw [List.drop_eq_nil_of_le,List.drop_eq_nil_of_le]
      · simpa [Cursor.source,Cursor.position,Source.size] using last
      · simp [Cursor.source,Cursor.position,Source.size]
    · rfl
  | ended source => simp [next,unread,Source.suffix,Cursor.source,Cursor.position,Source.size]

@[simp] theorem length_unread (cursor : Cursor) : cursor.unread.length = cursor.remaining := by
  simp [unread,remaining]

theorem getElem?_unread (cursor : Cursor) (distance : Nat) :
    cursor.unread[distance]? = cursor.source.units[cursor.position + distance]? := by
  simp [unread,Source.suffix]

namespace Canonical
variable {cursor : Cursor}

theorem position_le (canonical : cursor.Canonical) : cursor.position ≤ cursor.source.size := by
  cases cursor with
  | valid => exact Nat.le_of_lt canonical
  | ended => exact Nat.le_refl _

theorem position_add_remaining (canonical : cursor.Canonical) :
    cursor.position + cursor.remaining = cursor.source.size :=
  Nat.add_sub_cancel' canonical.position_le

theorem state_position (canonical : cursor.Canonical) :
    cursor.state = .valid ∧ cursor.position < cursor.source.size ∨
      cursor.state = .ended ∧ cursor.position = cursor.source.size := by
  cases cursor with
  | valid => exact Or.inl ⟨rfl,canonical⟩
  | ended => exact Or.inr ⟨rfl,rfl⟩

theorem atEnd_iff (canonical : cursor.Canonical) :
    cursor.atEnd = true ↔ cursor.position = cursor.source.size := by
  cases cursor with
  | valid source position =>
    have inside : position < source.size := canonical
    simp [atEnd,value,Except.isOk,Except.toBool,Cursor.position,Cursor.source,Nat.ne_of_lt inside]
  | ended => simp [atEnd,value,Except.isOk,Except.toBool,Cursor.position,Cursor.source]

theorem eq_of_position {other : Cursor} (canonical : cursor.Canonical) (also : other.Canonical)
    (sources : cursor.source = other.source) (positions : cursor.position = other.position) :
    cursor = other := by
  cases cursor with
  | valid source position =>
    cases other with
    | valid =>
      obtain rfl : source = _ := sources
      obtain rfl : position = _ := positions
      rfl
    | ended source =>
      obtain rfl : _ = source := sources
      exact absurd positions (Nat.ne_of_lt canonical)
  | ended source =>
    cases other with
    | valid source position =>
      obtain rfl : _ = source := sources
      exact absurd positions.symm (Nat.ne_of_lt also)
    | ended => exact congrArg ended sources

theorem eq_ended (canonical : cursor.Canonical) (exhausted : cursor.unread = []) :
    cursor = ended cursor.source := by
  cases cursor with
  | valid source position =>
    have inside : position < source.size := canonical
    have unread : source.suffix position = source.units[position] :: source.suffix (position + 1) :=
      Source.suffix_eq_cons inside
    exact absurd (unread.symm.trans exhausted) (List.cons_ne_nil _ _)
  | ended => rfl

theorem position_next (canonical : cursor.Canonical) :
    cursor.next.position = min (cursor.position + 1) cursor.source.size := by
  cases cursor with
  | valid source position =>
    have inside : position < source.size := canonical
    simp only [next]
    split <;> simp only [Cursor.position,Cursor.source] <;> omega
  | ended => simp [next,Cursor.position,Cursor.source]

/-- Reading is decided by the unread units alone. -/
theorem read_eq (canonical : cursor.Canonical) : cursor.read = match cursor.unread with
    | unit :: _ => .ok (unit,cursor.next)
    | [] => .error (.endOfSource ⟨cursor.source,cursor.source.size⟩) := by
  cases cursor with
  | valid source position =>
    have inside : position < source.size := canonical
    have unread : (valid source position).unread =
        source.units[position] :: source.suffix (position + 1) := Source.suffix_eq_cons inside
    rw [unread]
    simp [read,value,getElem!_pos source.units position inside]
  | ended source =>
    have unread : (ended source).unread = [] := List.drop_eq_nil_of_le (Nat.le_refl _)
    rw [unread]
    rfl

theorem skip (canonical : cursor.Canonical) (steps : Nat) : (cursor.skip steps).Canonical := by
  induction steps generalizing cursor with
  | zero => exact canonical
  | succ steps ih => exact ih (next_canonical cursor)

theorem position_skip (canonical : cursor.Canonical) (steps : Nat) :
    (cursor.skip steps).position = min (cursor.position + steps) cursor.source.size := by
  induction steps generalizing cursor with
  | zero =>
    have bound := canonical.position_le
    simp only [Cursor.skip]
    omega
  | succ steps ih =>
    simp only [Cursor.skip,ih (next_canonical cursor),canonical.position_next,source_next]
    omega

end Canonical

@[simp] theorem source_skip (cursor : Cursor) (steps : Nat) :
    (cursor.skip steps).source = cursor.source := by
  induction steps generalizing cursor with
  | zero => rfl
  | succ steps ih => simp [skip,ih]

theorem Canonical.location_skip {cursor : Cursor} (canonical : cursor.Canonical) {steps : Nat}
    (within : steps ≤ cursor.remaining) :
    (cursor.skip steps).location = ⟨cursor.source,cursor.position + steps⟩ := by
  have whole := canonical.position_add_remaining
  rw [location,source_skip,canonical.position_skip,Nat.min_eq_left]
  omega

@[simp] theorem unread_skip (cursor : Cursor) (steps : Nat) :
    (cursor.skip steps).unread = cursor.unread.drop steps := by
  induction steps generalizing cursor with
  | zero => rfl
  | succ steps ih => simp [skip,ih]

theorem Canonical.location_past {cursor : Cursor} (canonical : cursor.Canonical)
    {passed rest : List Char} (unread : cursor.unread = passed ++ rest) :
    (cursor.skip passed.length).location = ⟨cursor.source,cursor.position + passed.length⟩ := by
  apply canonical.location_skip
  rw [← cursor.length_unread,unread,List.length_append]
  exact Nat.le_add_right _ _

theorem skip_start_size (source : Source) : (start source).skip source.size = ended source := by
  have done : ((start source).skip source.size).unread = [] := by simp [Source.size]
  have last := ((start_canonical source).skip source.size).eq_ended done
  rwa [source_skip,source_start] at last

theorem skip_skip (cursor : Cursor) (first second : Nat) :
    (cursor.skip first).skip second = cursor.skip (first + second) := by
  induction first generalizing cursor with
  | zero => simp [skip]
  | succ first ih => rw [Nat.add_right_comm]; exact ih cursor.next

namespace Reaches
variable {first middle last : Cursor}

theorem refl (cursor : Cursor) : cursor.Reaches cursor := ⟨0,rfl⟩

theorem next (cursor : Cursor) : cursor.Reaches cursor.next := ⟨1,rfl⟩

theorem trans (before : first.Reaches middle) (after : middle.Reaches last) :
    first.Reaches last := by
  obtain ⟨steps,rfl⟩ := before
  obtain ⟨more,rfl⟩ := after
  exact ⟨steps + more,skip_skip first steps more⟩

theorem source_eq (reached : first.Reaches last) : last.source = first.source := by
  obtain ⟨steps,rfl⟩ := reached
  exact source_skip first steps

theorem canonical (reached : first.Reaches last) (canonical : first.Canonical) :
    last.Canonical := by
  obtain ⟨steps,rfl⟩ := reached
  exact canonical.skip steps

theorem position_le (reached : first.Reaches last) (canonical : first.Canonical) :
    first.position ≤ last.position := by
  obtain ⟨steps,rfl⟩ := reached
  have bound := canonical.position_le
  rw [canonical.position_skip]
  omega

theorem position_add_remaining (reached : first.Reaches last) (canonical : first.Canonical) :
    last.position + last.remaining = first.position + first.remaining := by
  rw [(reached.canonical canonical).position_add_remaining,reached.source_eq,
    canonical.position_add_remaining]

theorem canonical_of_start {source : Source} (reached : (start source).Reaches last) :
    last.Canonical := reached.canonical (start_canonical source)

theorem source_of_start {source : Source} (reached : (start source).Reaches last) :
    last.source = source := reached.source_eq.trans (source_start source)

theorem remaining_lt_iff (reached : first.Reaches last) (canonical : first.Canonical) :
    last.remaining < first.remaining ↔ first.position < last.position := by
  have kept := reached.position_add_remaining canonical
  omega

end Reaches

end Cursor

end TamilScript
