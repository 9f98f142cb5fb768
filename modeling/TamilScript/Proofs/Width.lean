import TamilScript.Proofs.Advance

/-! Recognizers told by the unread units alone. A width says of unread units how many of them are
taken, or that nothing matches; widths are put together as recognizers are. A recognizer of texts
yields just the units it takes, so its width says all about its matches. -/
namespace TamilScript

abbrev Width := List Char → Option Nat

namespace Width

def one (pass : Char → Bool) : Width
  | [] => none
  | unit :: _ => if pass unit then some 1 else none

def single (letters : List Char) : Width := one fun unit => unit ∈ letters

def andThen (first second : Width) : Width := fun units =>
  (first units).bind fun taken => (second (units.drop taken)).map (taken + ·)

def optional (width : Width) : Width := fun units => some ((width units).getD 0)

def absent (width : Width) : Width := fun units => if (width units).isSome then none else some 0

def either (first second : Width) : Width := fun units => (first units).or (second units)

def marked (letters marks : List Char) : Width := (single letters).andThen (single marks)

/-- A letter, with a mark if there is one, and no guard after them. -/
def carrying (letters marks guards : List Char) : Width :=
  ((single letters).andThen (single marks).optional).andThen (single guards).absent

theorem one_eq_some_iff {pass : Char → Bool} {units : List Char} {taken : Nat} :
    one pass units = some taken ↔
      ∃ unit rest, units = unit :: rest ∧ pass unit = true ∧ taken = 1 := by
  cases units with
  | nil => simp [one]
  | cons unit rest =>
    by_cases passed : pass unit = true
    · simp [one,passed,eq_comm (a := 1)]
    · simp [one,passed]

@[simp] theorem single_nil (letters : List Char) : single letters [] = none := rfl

@[simp] theorem single_cons (letters rest : List Char) (unit : Char) :
    single letters (unit :: rest) = if unit ∈ letters then some 1 else none := by
  simp [single,one]

theorem andThen_eq_some_iff {first second : Width} {units : List Char} {total : Nat} :
    first.andThen second units = some total ↔ ∃ taken more, first units = some taken ∧
      second (units.drop taken) = some more ∧ total = taken + more := by
  simp only [andThen,Option.bind_eq_some_iff,Option.map_eq_some_iff]
  grind

section Evaluation
variable {letters marks guards rest : List Char} {letter mark : Char}

theorem single_of_head {units : List Char} (free : ∀ unit ∈ units.head?, unit ∉ letters) :
    single letters units = none := by
  cases units with
  | nil => rfl
  | cons unit after => simpa using free unit rfl

@[simp] theorem marked_nil : marked letters marks [] = none := rfl

@[simp] theorem marked_singleton : marked letters marks [letter] = none := by
  by_cases sounds : letter ∈ letters <;> simp [marked,andThen,sounds]

@[simp] theorem marked_cons_cons : marked letters marks (letter :: mark :: rest) =
    if letter ∈ letters ∧ mark ∈ marks then some 2 else none := by
  by_cases sounds : letter ∈ letters
  · by_cases carried : mark ∈ marks <;> simp [marked,andThen,sounds,carried]
  · simp [marked,andThen,sounds]

@[simp] theorem carrying_nil : carrying letters marks guards [] = none := rfl

theorem marked_of_notMem (other : letter ∉ letters) :
    marked letters marks (letter :: rest) = none := by simp [marked,andThen,other]

theorem marked_of_head (free : ∀ unit ∈ rest.head?, unit ∉ marks) :
    marked letters marks (letter :: rest) = none := by
  cases rest with
  | nil => exact marked_singleton
  | cons unit after => simp [free unit rfl]

theorem marked_shape {units : List Char} (taken : (marked letters marks units).isSome = true) :
    ∃ letter ∈ letters, ∃ mark ∈ marks, ∃ rest, units = letter :: mark :: rest := by
  match units, taken with
  | [letter], taken => simp at taken
  | letter :: mark :: rest, taken =>
    obtain ⟨sounds,carried⟩ : letter ∈ letters ∧ mark ∈ marks := by simpa using taken
    exact ⟨letter,sounds,mark,carried,rest,rfl⟩

theorem carrying_of_notMem (other : letter ∉ letters) :
    carrying letters marks guards (letter :: rest) = none := by simp [carrying,andThen,other]

theorem carrying_bare (sounds : letter ∈ letters) (free : single marks rest = none) :
    carrying letters marks guards (letter :: rest) =
      if (single guards rest).isSome then none else some 1 := by
  cases guarded : single guards rest <;>
    simp [carrying,andThen,optional,absent,sounds,free,guarded]

theorem carrying_marked (sounds : letter ∈ letters) (carried : mark ∈ marks) :
    carrying letters marks guards (letter :: mark :: rest) =
      if (single guards rest).isSome then none else some 2 := by
  cases guarded : single guards rest <;>
    simp [carrying,andThen,optional,absent,sounds,carried,guarded]

end Evaluation

end Width

namespace Parser
variable {α β : Type}

/-- From a canonical cursor the recognizer moves on by the width of the unread units. -/
def HasWidth (parser : Parser α) (width : Width) : Prop :=
  ∀ ⦃cursor : Cursor⦄, cursor.Canonical → ∀ last, (∃ value, parser cursor = .ok (value,last)) ↔
    ∃ taken, width cursor.unread = some taken ∧ last = cursor.skip taken

/-- The recognizer has a width and yields the units it takes. -/
def HasText (parser : Parser String) (width : Width) : Prop :=
  ∀ ⦃cursor : Cursor⦄, cursor.Canonical → ∀ text last, parser cursor = .ok (text,last) ↔
    ∃ taken, width cursor.unread = some taken ∧
      text = String.ofList (cursor.unread.take taken) ∧ last = cursor.skip taken

theorem read_eq_ok_iff_unread {cursor last : Cursor} (canonical : cursor.Canonical) {unit : Char} :
    cursor.read = .ok (unit,last) ↔ ∃ rest, cursor.unread = unit :: rest ∧ last = cursor.next := by
  rw [canonical.read_eq]
  cases cursor.unread with
  | nil => simp
  | cons first rest => simp [eq_comm]

namespace HasWidth
variable {parser : Parser α} {second : Parser β} {width other : Width} {cursor : Cursor}

theorem isOk_eq (has : parser.HasWidth width) (canonical : cursor.Canonical) :
    (parser cursor).isOk = (width cursor.unread).isSome := by
  rw [Bool.eq_iff_iff,isOk_iff,Option.isSome_iff_exists]
  simp only [has canonical]
  constructor
  · intro matched
    obtain ⟨last,taken,present,_⟩ := matched
    exact ⟨taken,present⟩
  · intro some
    obtain ⟨taken,present⟩ := some
    exact ⟨cursor.skip taken,taken,present,rfl⟩

theorem eq_none_of_error (has : parser.HasWidth width) (canonical : cursor.Canonical)
    {failure : Failure} (failed : parser cursor = .error failure) : width cursor.unread = none := by
  have ok := has.isOk_eq canonical
  rw [failed] at ok
  exact Option.isNone_iff_eq_none.mp (Option.isSome_eq_false_iff.mp ok.symm)

theorem satisfy (pass : Char → Bool) (condition : String) :
    (Parser.satisfy pass condition).HasWidth (.one pass) := by
  intro cursor canonical last
  simp only [Parser.satisfy,any,filter_eq_ok_iff,read_eq_ok_iff_unread canonical,
    Width.one_eq_some_iff]
  constructor
  · intro matched
    obtain ⟨unit,⟨rest,unread,rfl⟩,passed⟩ := matched
    exact ⟨1,⟨unit,rest,unread,passed,rfl⟩,rfl⟩
  · intro matched
    obtain ⟨_,⟨unit,rest,unread,passed,rfl⟩,rfl⟩ := matched
    exact ⟨unit,⟨rest,unread,rfl⟩,passed⟩

theorem oneOf (letters : List Char) : (Parser.oneOf letters).HasWidth (.single letters) := by
  intro cursor canonical last
  have same := satisfy (fun unit => unit ∈ letters) "" canonical last
  simp only [Parser.satisfy,any,filter_eq_ok_iff,decide_eq_true_eq] at same
  simp only [oneOf_eq_ok_iff]
  exact same

theorem exactly (expected : Char) : (Parser.exactly expected).HasWidth (.single [expected]) := by
  intro cursor canonical last
  rw [← oneOf [expected] canonical last]
  simp only [exactly_eq_ok_iff,oneOf_eq_ok_iff,List.mem_singleton]

theorem seq (has : parser.HasWidth width) (also : second.HasWidth other) :
    (parser.seq second).HasWidth (width.andThen other) := by
  intro cursor canonical last
  simp only [seq_eq_ok_iff,Prod.exists,Width.andThen_eq_some_iff]
  constructor
  · intro found
    obtain ⟨left,right,middle,first,next⟩ := found
    obtain ⟨taken,here,rfl⟩ := (has canonical middle).mp ⟨left,first⟩
    obtain ⟨more,after,rfl⟩ := (also (canonical.skip taken) last).mp ⟨right,next⟩
    rw [Cursor.unread_skip] at after
    exact ⟨taken + more,⟨taken,more,here,after,rfl⟩,Cursor.skip_skip cursor taken more⟩
  · intro found
    obtain ⟨_,⟨taken,more,here,after,rfl⟩,rfl⟩ := found
    rw [← Cursor.unread_skip] at after
    rw [← Cursor.skip_skip]
    obtain ⟨left,first⟩ := (has canonical _).mpr ⟨taken,here,rfl⟩
    obtain ⟨right,next⟩ := (also (canonical.skip taken) _).mpr ⟨more,after,rfl⟩
    exact ⟨left,right,cursor.skip taken,first,next⟩

theorem optional (has : parser.HasWidth width) : parser.optional.HasWidth width.optional := by
  intro cursor canonical last
  have ok := has.isOk_eq canonical
  simp only [optional_eq_ok_iff,Width.optional,Option.some.injEq]
  cases present : width cursor.unread with
  | none =>
    rw [present] at ok
    have missing (value : α) : parser cursor ≠ .ok (value,last) := by
      intro matched
      simp [matched,Except.isOk,Except.toBool] at ok
    simp [ok,missing,Cursor.skip]
  | some taken =>
    rw [present] at ok
    have matched := has canonical last
    rw [present] at matched
    simp only [Option.some.injEq] at matched
    simp only [ok,Option.isSome_some,Bool.true_eq_false,false_and,or_false,Option.getD_some]
    rw [← matched]
    grind

theorem notFollowedBy (has : parser.HasWidth width) :
    parser.notFollowedBy.HasWidth width.absent := by
  intro cursor canonical last
  simp only [notFollowedBy_eq_ok_iff,exists_const,has.isOk_eq canonical,Width.absent]
  cases width cursor.unread <;> simp [Cursor.skip]

theorem label (has : parser.HasWidth width) (what : String) :
    (parser.label what).HasWidth width := by
  intro cursor canonical last
  simp only [label_eq_ok_iff]
  exact has canonical last

theorem recognize (has : parser.HasWidth width) : parser.recognize.HasText width := by
  intro cursor canonical text last
  rw [recognize_eq_ok_iff,has canonical]
  have between (taken : Nat) : (Span.between cursor (cursor.skip taken)).text =
      String.ofList (cursor.unread.take taken) := by
    have bound := canonical.position_le
    have long : cursor.unread.length = cursor.source.size - cursor.position := cursor.length_unread
    simp only [Span.text,Span.units,Span.between,Source.between_eq,canonical.position_skip]
    rw [← Cursor.unread]
    apply congrArg String.ofList
    rw [List.take_eq_take_iff]
    omega
  constructor
  · intro matched
    obtain ⟨⟨taken,present,rfl⟩,rfl⟩ := matched
    exact ⟨taken,present,between taken,rfl⟩
  · intro matched
    obtain ⟨taken,present,rfl,rfl⟩ := matched
    exact ⟨⟨taken,present,rfl⟩,(between taken).symm⟩

end HasWidth

namespace HasText
variable {parser second : Parser String} {width other : Width} {cursor last : Cursor}

theorem hasWidth (has : parser.HasText width) : parser.HasWidth width := by
  intro cursor canonical last
  constructor
  · intro matched
    obtain ⟨text,ran⟩ := matched
    obtain ⟨taken,present,_,moved⟩ := (has canonical text last).mp ran
    exact ⟨taken,present,moved⟩
  · intro matched
    obtain ⟨taken,present,moved⟩ := matched
    exact ⟨_,(has canonical _ last).mpr ⟨taken,present,rfl,moved⟩⟩

theorem label (has : parser.HasText width) (what : String) :
    (parser.label what).HasText width := by
  intro cursor canonical text last
  rw [label_eq_ok_iff]
  exact has canonical text last

theorem choice_nil (has : parser.HasText width) : (choice parser []).HasText width := by
  intro cursor canonical text last
  rw [← has canonical text last,choice,mapError_eq_ok_iff,firstMatch]

theorem choice_cons {rest : List (Parser String)} (has : parser.HasText width)
    (also : (choice second rest).HasText other) :
    (choice parser (second :: rest)).HasText (width.either other) := by
  intro cursor canonical text last
  have ok := has.hasWidth.isOk_eq canonical
  rw [choice,mapError_eq_ok_iff,firstMatch]
  cases ran : parser cursor with
  | error failure =>
    rw [ran] at ok
    have absent : width cursor.unread = none :=
      Option.isNone_iff_eq_none.mp (Option.isSome_eq_false_iff.mp ok.symm)
    have later := also canonical text last
    rw [choice,mapError_eq_ok_iff] at later
    simpa only [Width.either,absent,Option.none_or] using later
  | ok found =>
    rw [ran] at ok
    obtain ⟨taken,present⟩ := Option.isSome_iff_exists.mp ok.symm
    have matched := has canonical text last
    rw [ran] at matched
    simpa only [Width.either,present,Option.some_or] using matched

/-- A lookahead after a text leaves the text and its end alone. -/
theorem guarded {guard : Parser α} (has : parser.HasText width) (also : guard.HasWidth other) :
    ((parser.seq guard.notFollowedBy).map Prod.fst).HasText (width.andThen other.absent) := by
  intro cursor canonical text last
  simp only [map_eq_ok_iff,seq_eq_ok_iff,notFollowedBy_eq_ok_iff,Width.andThen_eq_some_iff]
  constructor
  · intro found
    obtain ⟨⟨_,_⟩,⟨middle,matched,free,rfl⟩,rfl⟩ := found
    obtain ⟨taken,present,written,rfl⟩ := (has canonical _ _).mp matched
    rw [also.isOk_eq (canonical.skip taken),Cursor.unread_skip] at free
    exact ⟨taken,⟨taken,0,present,by simp [Width.absent,free],rfl⟩,written,rfl⟩
  · intro found
    obtain ⟨_,⟨taken,more,present,free,rfl⟩,rfl,rfl⟩ := found
    have none : (other (cursor.unread.drop taken)).isSome = false ∧ more = 0 := by
      unfold Width.absent at free
      split at free <;> simp_all
    obtain ⟨none,rfl⟩ := none
    rw [← Cursor.unread_skip,← also.isOk_eq (canonical.skip taken)] at none
    exact ⟨(_,()),⟨_,(has canonical _ _).mpr ⟨taken,present,rfl,rfl⟩,none,rfl⟩,rfl⟩

end HasText

end Parser

namespace Grammar
variable {α : Type} {grammar : Grammar α} {width : Width}

/-- A text opens with what has a width exactly when its units have that width. -/
theorem opens_eq (has : grammar.run.HasWidth width) (text : String) :
    grammar.opens text = (width text.toList).isSome := by
  have start := Cursor.start_canonical (Source.ofString text)
  rw [Grammar.opens,Grammar.parse,has.isOk_eq start]
  simp

theorem opens_ofList (has : grammar.run.HasWidth width) (units : List Char) :
    grammar.opens (String.ofList units) = (width units).isSome := by
  rw [opens_eq has,String.toList_ofList]

end Grammar

end TamilScript
