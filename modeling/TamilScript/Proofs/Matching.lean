import TamilScript.Grammar

/-! When a combinator matches, told by the matches of its parts. The value and the cursor of a match
are fixed by these laws alone; which failure is kept otherwise is not their concern. -/
namespace TamilScript.Parser
variable {α β : Type} {parser : Parser α} {cursor last : Cursor}

theorem isOk_iff {outcome : Outcome α} :
    outcome.isOk = true ↔ ∃ last value, outcome = .ok (value,last) := by
  cases outcome with
  | error => simp [Except.isOk,Except.toBool]
  | ok found => exact iff_of_true rfl ⟨found.2,found.1,rfl⟩

theorem isOk_eq_false_iff {outcome : Outcome α} :
    outcome.isOk = false ↔ ∃ failure, outcome = .error failure := by
  cases outcome with
  | error failure => exact iff_of_true rfl ⟨failure,rfl⟩
  | ok => simp [Except.isOk,Except.toBool]

theorem read_eq_ok_iff {unit : Char} :
    cursor.read = .ok (unit,last) ↔ cursor.value = .ok unit ∧ last = cursor.next := by
  unfold Cursor.read
  cases cursor.value <;> simp [eq_comm]

theorem exactly_eq_ok_iff {expected unit : Char} :
    exactly expected cursor = .ok (unit,last) ↔
      cursor.read = .ok (unit,last) ∧ unit = expected := by
  unfold exactly
  cases ran : cursor.read with
  | error => simp
  | ok found =>
    obtain ⟨found,next⟩ := found
    by_cases same : found = expected <;> simp [same,refuse] <;> grind

theorem oneOf_eq_ok_iff {letters : List Char} {unit : Char} :
    oneOf letters cursor = .ok (unit,last) ↔ cursor.read = .ok (unit,last) ∧ unit ∈ letters := by
  unfold oneOf
  cases ran : cursor.read with
  | error => simp
  | ok found =>
    obtain ⟨found,next⟩ := found
    by_cases member : found ∈ letters <;> simp [member,refuse] <;> grind

theorem endOfSource_eq_ok_iff {value : Unit} :
    endOfSource cursor = .ok (value,last) ↔ cursor.atEnd = true ∧ last = cursor := by
  unfold endOfSource Cursor.atEnd
  cases cursor.value <;> simp [refuse,Except.isOk,Except.toBool,eq_comm]

theorem literal_eq_ok_iff {whole text : String} :
    literal whole cursor = .ok (text,last) ↔
      literalFrom whole whole.toList cursor = .ok last ∧ text = whole := by
  unfold literal
  cases literalFrom whole whole.toList cursor <;> simp [eq_comm,and_comm]

theorem filter_eq_ok_iff {pass : α → Bool} {condition : String} {value : α} :
    parser.filter pass condition cursor = .ok (value,last) ↔
      parser cursor = .ok (value,last) ∧ pass value = true := by
  unfold filter
  cases ran : parser cursor with
  | error => simp
  | ok found =>
    obtain ⟨found,next⟩ := found
    by_cases passed : pass found = true <;> simp [passed,refuse] <;> grind

theorem map_eq_ok_iff {change : α → β} {value : β} :
    parser.map change cursor = .ok (value,last) ↔
      ∃ found, parser cursor = .ok (found,last) ∧ change found = value := by
  unfold map
  cases ran : parser cursor with
  | error => simp
  | ok found =>
    obtain ⟨found,next⟩ := found
    simp only [Except.ok.injEq,Prod.mk.injEq]
    constructor
    · intro matched
      obtain ⟨rfl,rfl⟩ := matched
      exact ⟨found,⟨rfl,rfl⟩,rfl⟩
    · intro matched
      obtain ⟨_,⟨rfl,rfl⟩,rfl⟩ := matched
      exact ⟨rfl,rfl⟩

theorem bind_eq_ok_iff {continuation : α → Parser β} {value : β} :
    parser.bind continuation cursor = .ok (value,last) ↔
      ∃ found middle, parser cursor = .ok (found,middle) ∧
        continuation found middle = .ok (value,last) := by
  unfold bind
  cases ran : parser cursor with
  | error => simp
  | ok found =>
    obtain ⟨found,middle⟩ := found
    constructor
    · intro continued
      exact ⟨found,middle,rfl,continued⟩
    · intro matched
      obtain ⟨_,_,same,continued⟩ := matched
      obtain ⟨rfl,rfl⟩ := Prod.mk.inj (Except.ok.inj same)
      exact continued

theorem seq_eq_ok_iff {second : Parser β} {value : α × β} :
    parser.seq second cursor = .ok (value,last) ↔
      ∃ middle, parser cursor = .ok (value.1,middle) ∧ second middle = .ok (value.2,last) := by
  obtain ⟨left,right⟩ := value
  unfold seq
  cases ran : parser cursor with
  | error => simp
  | ok found =>
    obtain ⟨found,middle⟩ := found
    simp only [Except.ok.injEq,Prod.mk.injEq]
    constructor
    · intro continued
      cases after : second middle with
      | error => simp [after] at continued
      | ok pair =>
        simp only [after,Except.ok.injEq,Prod.mk.injEq] at continued
        obtain ⟨⟨rfl,rfl⟩,rfl⟩ := continued
        exact ⟨middle,⟨rfl,rfl⟩,after⟩
    · intro matched
      obtain ⟨_,⟨rfl,rfl⟩,after⟩ := matched
      rw [after]

theorem mapError_eq_ok_iff {outcome : Outcome α} {found : α × Cursor} :
    outcome.mapError Failure.exhaust = .ok found ↔ outcome = .ok found := by
  cases outcome with
  | error => exact ⟨nofun,nofun⟩
  | ok => rfl

theorem orElse_eq_ok_iff {second : Parser α} {found : α × Cursor} :
    parser.orElse second cursor = .ok found ↔ parser cursor = .ok found ∨
      (parser cursor).isOk = false ∧ second cursor = .ok found := by
  unfold orElse
  cases parser cursor with
  | error => simp [mapError_eq_ok_iff,Except.isOk,Except.toBool]
  | ok => simp [Except.isOk,Except.toBool]

private theorem firstMatch_eq_ok_iff {rest : List (Parser α)} {found : α × Cursor} :
    firstMatch parser rest cursor = .ok found ↔ ∃ before chosen after,
      parser :: rest = before ++ chosen :: after ∧ chosen cursor = .ok found ∧
        ∀ earlier ∈ before, (earlier cursor).isOk = false := by
  induction rest generalizing parser with
  | nil =>
    simp only [firstMatch]
    constructor
    · intro matched
      exact ⟨[],parser,[],rfl,matched,by simp⟩
    · intro matched
      obtain ⟨before,chosen,after,split,matched,_⟩ := matched
      cases before with
      | nil => exact (List.cons.inj split).1 ▸ matched
      | cons first others => simp at split
  | cons second rest ih =>
    rw [firstMatch]
    cases ran : parser cursor with
    | ok value =>
      dsimp only
      constructor
      · intro same
        exact ⟨[],parser,second :: rest,rfl,ran.trans same,by simp⟩
      · intro matched
        obtain ⟨before,chosen,after,split,matched,failed⟩ := matched
        cases before with
        | nil => exact ran.symm.trans ((List.cons.inj split).1 ▸ matched)
        | cons first others =>
          have missed := failed parser (by simp [(List.cons.inj split).1])
          simp [ran,Except.isOk,Except.toBool] at missed
    | error failure =>
      simp only [ih]
      constructor
      · intro matched
        obtain ⟨before,chosen,after,split,matched,failed⟩ := matched
        refine ⟨parser :: before,chosen,after,by simp [split],matched,?_⟩
        intro earlier member
        rcases List.mem_cons.mp member with rfl | inside
        · simp [ran,Except.isOk,Except.toBool]
        · exact failed earlier inside
      · intro matched
        obtain ⟨before,chosen,after,split,matched,failed⟩ := matched
        cases before with
        | nil =>
          obtain ⟨rfl,_⟩ := List.cons.inj split
          exact absurd (ran.symm.trans matched) (by simp)
        | cons first others =>
          refine ⟨others,chosen,after,(List.cons.inj split).2,matched,?_⟩
          intro earlier member
          exact failed earlier (List.mem_cons_of_mem _ member)

theorem choice_eq_ok_iff {rest : List (Parser α)} {found : α × Cursor} :
    choice parser rest cursor = .ok found ↔ ∃ before chosen after,
      parser :: rest = before ++ chosen :: after ∧ chosen cursor = .ok found ∧
        ∀ earlier ∈ before, (earlier cursor).isOk = false := by
  rw [choice,mapError_eq_ok_iff,firstMatch_eq_ok_iff]

theorem many_eq_ok_iff {values : List α} :
    parser.many cursor = .ok (values,last) ↔ repeated parser cursor = (values,last) := by
  simp [many]

theorem many1_eq_ok_iff {values : List α} :
    parser.many1 cursor = .ok (values,last) ↔ ∃ first middle others,
      parser cursor = .ok (first,middle) ∧ repeated parser middle = (others,last) ∧
        values = first :: others := by
  unfold many1
  cases ran : parser cursor with
  | error => simp
  | ok found =>
    obtain ⟨first,middle⟩ := found
    simp only [Except.ok.injEq,Prod.mk.injEq]
    constructor
    · intro matched
      obtain ⟨rfl,rfl⟩ := matched
      exact ⟨first,middle,_,⟨rfl,rfl⟩,rfl,rfl⟩
    · intro matched
      obtain ⟨_,_,_,⟨rfl,rfl⟩,again,rfl⟩ := matched
      simp [again]

theorem optional_eq_ok_iff {value : Option α} :
    parser.optional cursor = .ok (value,last) ↔
      (∃ found, parser cursor = .ok (found,last) ∧ value = some found) ∨
        (parser cursor).isOk = false ∧ value = none ∧ last = cursor := by
  unfold optional
  cases ran : parser cursor with
  | error => simp [Except.isOk,Except.toBool,eq_comm]
  | ok found =>
    obtain ⟨found,next⟩ := found
    simp only [Except.ok.injEq,Prod.mk.injEq,Except.isOk,Except.toBool]
    grind

theorem notFollowedBy_eq_ok_iff {value : Unit} :
    parser.notFollowedBy cursor = .ok (value,last) ↔
      (parser cursor).isOk = false ∧ last = cursor := by
  unfold notFollowedBy
  cases parser cursor <;> simp [refuse,Except.isOk,Except.toBool,eq_comm]

theorem lookAhead_eq_ok_iff {value : α} :
    parser.lookAhead cursor = .ok (value,last) ↔
      (∃ next, parser cursor = .ok (value,next)) ∧ last = cursor := by
  unfold lookAhead
  cases parser cursor with
  | error => simp
  | ok found =>
    obtain ⟨found,next⟩ := found
    simp only [Except.ok.injEq,Prod.mk.injEq]
    grind

theorem label_eq_ok_iff {what : String} {found : α × Cursor} :
    parser.label what cursor = .ok found ↔ parser cursor = .ok found := by
  unfold label
  cases parser cursor with
  | error failure => cases failure <;> simp [refuse]
  | ok => simp

theorem withSpan_eq_ok_iff {value : α × Span} :
    parser.withSpan cursor = .ok (value,last) ↔
      parser cursor = .ok (value.1,last) ∧ value.2 = Span.between cursor last := by
  unfold withSpan
  cases parser cursor with
  | error => simp
  | ok found =>
    obtain ⟨found,next⟩ := found
    obtain ⟨inner,span⟩ := value
    simp only [Except.ok.injEq,Prod.mk.injEq]
    grind

theorem recognize_eq_ok_iff {text : String} :
    parser.recognize cursor = .ok (text,last) ↔
      (∃ value, parser cursor = .ok (value,last)) ∧ text = (Span.between cursor last).text := by
  unfold recognize
  rw [map_eq_ok_iff]
  constructor
  · intro matched
    obtain ⟨⟨value,span⟩,ran,rfl⟩ := matched
    obtain ⟨matched,rfl⟩ := withSpan_eq_ok_iff.mp ran
    exact ⟨⟨value,matched⟩,rfl⟩
  · intro matched
    obtain ⟨⟨value,matched⟩,rfl⟩ := matched
    exact ⟨(value,Span.between cursor last),withSpan_eq_ok_iff.mpr ⟨matched,rfl⟩,rfl⟩

theorem skipWhitespace_eq_ok_iff {value : Unit} :
    skipWhitespace cursor = .ok (value,last) ↔ last = (repeated whitespace cursor).2 := by
  simp only [skipWhitespace,map_eq_ok_iff,many_eq_ok_iff]
  constructor
  · intro matched
    obtain ⟨blanks,ran,_⟩ := matched
    rw [ran]
  · intro same
    subst same
    exact ⟨_,rfl,trivial⟩

theorem lexeme_eq_ok_iff {value : α} :
    parser.lexeme cursor = .ok (value,last) ↔ ∃ middle,
      parser cursor = .ok (value,middle) ∧ last = (repeated whitespace middle).2 := by
  simp only [lexeme,map_eq_ok_iff,seq_eq_ok_iff,skipWhitespace_eq_ok_iff]
  constructor
  · intro matched
    obtain ⟨⟨found,_⟩,⟨middle,ran,after⟩,rfl⟩ := matched
    exact ⟨middle,ran,after⟩
  · intro matched
    obtain ⟨middle,ran,after⟩ := matched
    exact ⟨(value,()),⟨middle,ran,after⟩,rfl⟩

end TamilScript.Parser
