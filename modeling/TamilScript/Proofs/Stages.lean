import TamilScript.Parser

/-! Recognizers in stages. Most combinators run a recognizer, hand on its failure and go on from what
it found; what they do then may look back at the cursor they started from. -/
namespace TamilScript.Parser
variable {α β : Type} {parser : Parser α}

def andThen (parser : Parser α) (following : Cursor → α → Cursor → Outcome β) : Parser β :=
  fun cursor => match parser cursor with
    | .error failure => .error failure
    | .ok (value,next) => following cursor value next

theorem exactly_eq_andThen (expected : Char) :
    exactly expected = andThen any fun cursor found next =>
      if found = expected then .ok (found,next)
      else refuse cursor ("expected '" ++ toString expected ++ "', found '" ++ toString found ++ "'") := by
  funext cursor
  unfold exactly andThen any
  cases cursor.read <;> rfl

theorem oneOf_eq_andThen (letters : List Char) :
    oneOf letters = andThen any fun cursor found next =>
      if found ∈ letters then .ok (found,next)
      else refuse cursor ("'" ++ toString found ++ "' is not one of " ++ String.ofList letters) := by
  funext cursor
  unfold oneOf andThen any
  cases cursor.read <;> rfl

theorem filter_eq_andThen (pass : α → Bool) (condition : String) :
    parser.filter pass condition = parser.andThen fun cursor value next =>
      if pass value then .ok (value,next) else refuse cursor condition :=
  rfl

theorem map_eq_andThen (change : α → β) :
    parser.map change = parser.andThen fun _ value next => .ok (change value,next) :=
  rfl

theorem bind_eq_andThen (continuation : α → Parser β) :
    parser.bind continuation = parser.andThen fun _ value next => continuation value next :=
  rfl

theorem seq_eq_andThen (second : Parser β) :
    parser.seq second = parser.andThen fun _ left middle =>
      (second.map fun right => (left,right)) middle :=
  rfl

theorem many1_eq_andThen :
    parser.many1 = parser.andThen fun _ value next =>
      .ok (value :: (repeated parser next).1,(repeated parser next).2) :=
  rfl

theorem lookAhead_eq_andThen :
    parser.lookAhead = parser.andThen fun cursor value _ => .ok (value,cursor) := by
  funext cursor
  unfold lookAhead andThen
  cases parser cursor <;> rfl

theorem withSpan_eq_andThen :
    parser.withSpan = parser.andThen fun cursor value next =>
      .ok ((value,Span.between cursor next),next) :=
  rfl

theorem recognize_eq_andThen :
    parser.recognize = parser.andThen fun cursor _ next =>
      .ok ((Span.between cursor next).text,next) := by
  funext cursor
  unfold recognize map withSpan andThen
  cases parser cursor <;> rfl

theorem lexeme_eq_andThen : parser.lexeme = parser.andThen fun _ value next =>
    .ok (value,(repeated whitespace next).2) := by
  funext cursor
  unfold lexeme map seq andThen
  cases parser cursor <;> rfl

end TamilScript.Parser
