import TamilScript.Span

/-! The same place with more text in front. Putting units before a source moves what is said about
it to the right and changes nothing else: not what is unread, nor what a failure complains of. -/
namespace TamilScript

namespace Source
variable (prior source : Source)

instance : Append Source where
  append first second := ⟨first.units ++ second.units⟩

@[simp] theorem units_append : (prior ++ source).units = prior.units ++ source.units := rfl

@[simp] theorem size_append : (prior ++ source).size = prior.size + source.size :=
  Array.size_append

theorem suffix_append (position : Nat) :
    (prior ++ source).suffix (prior.size + position) = source.suffix position := by
  simp [suffix,size,List.drop_append]

theorem unit_append (position : Nat) :
    (prior ++ source).units[prior.size + position]! = source.units[position]! := by
  have same : (prior ++ source).units[prior.size + position]? = source.units[position]? := by
    simp [size,Array.getElem?_append_right]
  rw [getElem!_def,getElem!_def,same]

theorem between_append (start stop : Nat) :
    (prior ++ source).between (prior.size + start) (prior.size + stop) =
      source.between start stop := by
  rw [between_eq,between_eq,suffix_append,Nat.add_sub_add_left]

end Source

def Location.behind (prior : Source) (location : Location) : Location :=
  ⟨prior ++ location.source,prior.size + location.position⟩

def Cursor.behind (prior : Source) : Cursor → Cursor
  | valid source position => valid (prior ++ source) (prior.size + position)
  | ended source => ended (prior ++ source)

namespace Failure

def behind (prior : Source) : Failure → Failure
  | endOfSource location => endOfSource (location.behind prior)
  | unsatisfied condition location => unsatisfied condition (location.behind prior)
  | exhausted last => exhausted (last.behind prior)
  | unimplemented rule location => unimplemented rule (location.behind prior)

/-- The same complaint, and the same below it, a distance further on. -/
inductive Displaced (distance : Nat) : Failure → Failure → Prop
  | endOfSource {near far : Location} (moved : far.position = distance + near.position) :
      Displaced distance (.endOfSource near) (.endOfSource far)
  | unsatisfied {near far : Location} (condition : String)
      (moved : far.position = distance + near.position) :
      Displaced distance (.unsatisfied condition near) (.unsatisfied condition far)
  | exhausted {near far : Failure} (displaced : Displaced distance near far) :
      Displaced distance (.exhausted near) (.exhausted far)
  | unimplemented {near far : Location} (rule : String)
      (moved : far.position = distance + near.position) :
      Displaced distance (.unimplemented rule near) (.unimplemented rule far)

theorem behind_displaced (prior : Source) (failure : Failure) :
    Displaced prior.size failure (failure.behind prior) := by
  induction failure with
  | endOfSource => exact .endOfSource rfl
  | unsatisfied condition => exact .unsatisfied condition rfl
  | exhausted _ ih => exact .exhausted ih
  | unimplemented rule => exact .unimplemented rule rfl

theorem exhaust_behind (prior : Source) (failure : Failure) :
    (failure.behind prior).exhaust = failure.exhaust.behind prior := by cases failure <;> rfl

end Failure

namespace Cursor
variable (prior : Source) (cursor : Cursor)

@[simp] theorem source_behind : (cursor.behind prior).source = prior ++ cursor.source := by
  cases cursor <;> rfl

@[simp] theorem position_behind :
    (cursor.behind prior).position = prior.size + cursor.position := by
  cases cursor with
  | valid => rfl
  | ended source => exact Source.size_append prior source

@[simp] theorem location_behind : (cursor.behind prior).location = cursor.location.behind prior := by
  simp [location,Location.behind]

@[simp] theorem remaining_behind : (cursor.behind prior).remaining = cursor.remaining := by
  simp [remaining,Nat.add_sub_add_left]

theorem value_behind :
    (cursor.behind prior).value = cursor.value.mapError (Failure.behind prior) := by
  cases cursor with
  | valid source position => exact congrArg Except.ok (Source.unit_append prior source position)
  | ended source =>
    exact congrArg (fun size => Except.error (Failure.endOfSource ⟨prior ++ source,size⟩))
      (Source.size_append prior source)

theorem next_behind : (cursor.behind prior).next = cursor.next.behind prior := by
  cases cursor with
  | valid source position =>
    have last : (prior ++ source).size ≤ prior.size + position + 1 ↔ source.size ≤ position + 1 := by
      rw [Source.size_append]
      omega
    simp only [behind,next,last]
    split <;> rfl
  | ended => rfl

variable {cursor} in
theorem Canonical.behind (canonical : cursor.Canonical) : (cursor.behind prior).Canonical := by
  cases cursor with
  | valid source position =>
    have inside : position < source.size := canonical
    show prior.size + position < (prior ++ source).size
    rw [Source.size_append]
    omega
  | ended => trivial

end Cursor

theorem Span.text_between_behind (prior : Source) (first last : Cursor) :
    (Span.between (first.behind prior) (last.behind prior)).text = (Span.between first last).text := by
  simp [Span.text,Span.units,Span.between,Source.between_append]

end TamilScript
