import TamilScript.Span

/-! Recognizers as functions on cursors, and the ways to combine them. A recognizer yields a value
and the cursor past what it matched, or a failure. The operations fix only what happens to values,
cursors and failures; which recognizers are expressible is a matter of `TamilScript.Grammar`. -/
namespace TamilScript

abbrev Outcome (α : Type) := Except Failure (α × Cursor)

abbrev Parser (α : Type) := Cursor → Outcome α

namespace Parser
variable {α β : Type}

def refuse (cursor : Cursor) (condition : String) : Outcome α :=
  .error (.unsatisfied condition cursor.location)

def succeed (value : α) : Parser α := fun cursor => .ok (value,cursor)

def fail (condition : String) : Parser α := fun cursor => refuse cursor condition

def unimplemented (rule : String) : Parser α := fun cursor =>
  .error (.unimplemented rule cursor.location)

def any : Parser Char := Cursor.read

def exactly (expected : Char) : Parser Char := fun cursor =>
  match cursor.read with
  | .error failure => .error failure
  | .ok (found,next) =>
    if found = expected then .ok (found,next)
    else refuse cursor ("expected '" ++ toString expected ++ "', found '" ++ toString found ++ "'")

def oneOf (letters : List Char) : Parser Char := fun cursor =>
  match cursor.read with
  | .error failure => .error failure
  | .ok (found,next) =>
    if found ∈ letters then .ok (found,next)
    else refuse cursor ("'" ++ toString found ++ "' is not one of " ++ String.ofList letters)

def endOfSource : Parser Unit := fun cursor =>
  match cursor.value with
  | .error _ => .ok ((),cursor)
  | .ok found => refuse cursor ("expected end of source, found '" ++ toString found ++ "'")

/-- Matches the expected units in turn. The failure names the first unit that differs and the
whole literal; a source that ends too early is told as such. -/
def literalFrom (whole : String) : List Char → Cursor → Except Failure Cursor
  | [], cursor => .ok cursor
  | expected :: rest, cursor =>
    match cursor.read with
    | .error _ => .error (.endOfSource cursor.location)
    | .ok (found,next) =>
      if found = expected then literalFrom whole rest next
      else .error (.unsatisfied ("expected '" ++ toString expected ++ "', found '" ++
        toString found ++ "' while matching '" ++ whole ++ "'") cursor.location)

def literal (whole : String) : Parser String := fun cursor =>
  match literalFrom whole whole.toList cursor with
  | .error failure => .error failure
  | .ok next => .ok (whole,next)

/-- Keeps the values that pass; a value that does not is refused where its match began. -/
def filter (pass : α → Bool) (condition : String) (parser : Parser α) : Parser α := fun cursor =>
  match parser cursor with
  | .error failure => .error failure
  | .ok (value,next) => if pass value then .ok (value,next) else refuse cursor condition

def map (change : α → β) (parser : Parser α) : Parser β := fun cursor =>
  match parser cursor with
  | .error failure => .error failure
  | .ok (value,next) => .ok (change value,next)

def bind (parser : Parser α) (continuation : α → Parser β) : Parser β := fun cursor =>
  match parser cursor with
  | .error failure => .error failure
  | .ok (value,next) => continuation value next

def seq (first : Parser α) (second : Parser β) : Parser (α × β) := fun cursor =>
  match first cursor with
  | .error failure => .error failure
  | .ok (left,middle) =>
    match second middle with
    | .error failure => .error failure
    | .ok (right,next) => .ok ((left,right),next)

/-- Tries the second where the first began, however far the first came. -/
def orElse (first second : Parser α) : Parser α := fun cursor =>
  match first cursor with
  | .ok found => .ok found
  | .error _ => (second cursor).mapError Failure.exhaust

def firstMatch (first : Parser α) : List (Parser α) → Parser α
  | [], cursor => first cursor
  | second :: rest, cursor =>
    match first cursor with
    | .ok found => .ok found
    | .error _ => firstMatch second rest cursor

/-- Ordered choice: every alternative starts from the same cursor and the first match wins. -/
def choice (first : Parser α) (rest : List (Parser α)) : Parser α := fun cursor =>
  (firstMatch first rest cursor).mapError Failure.exhaust

/-- Matches in a row, each of at least one unit. It stops at the first failure and at the first
match that does not advance, whose value is dropped; so every step uses up the source. -/
def repeated (parser : Parser α) (cursor : Cursor) : List α × Cursor :=
  match parser cursor with
  | .error _ => ([],cursor)
  | .ok (value,next) =>
    if next.remaining < cursor.remaining then
      let (values,last) := repeated parser next
      (value :: values,last)
    else ([],cursor)
termination_by cursor.remaining

def many (parser : Parser α) : Parser (List α) := fun cursor => .ok (repeated parser cursor)

def many1 (parser : Parser α) : Parser (List α) := fun cursor =>
  match parser cursor with
  | .error failure => .error failure
  | .ok (value,next) =>
    let (values,last) := repeated parser next
    .ok (value :: values,last)

def optional (parser : Parser α) : Parser (Option α) := fun cursor =>
  match parser cursor with
  | .ok (value,next) => .ok (some value,next)
  | .error _ => .ok (none,cursor)

def notFollowedBy (parser : Parser α) : Parser Unit := fun cursor =>
  match parser cursor with
  | .ok _ => refuse cursor "negative lookahead failed: unexpected match"
  | .error _ => .ok ((),cursor)

def lookAhead (parser : Parser α) : Parser α := fun cursor =>
  match parser cursor with
  | .ok (value,_) => .ok (value,cursor)
  | .error failure => .error failure

/-- Tells a failure as the expectation of `what` at the first cursor. Truncated input and rules
without conditions keep their own failures. -/
def label (what : String) (parser : Parser α) : Parser α := fun cursor =>
  match parser cursor with
  | .ok found => .ok found
  | .error (.endOfSource location) => .error (.endOfSource location)
  | .error (.unimplemented rule location) => .error (.unimplemented rule location)
  | .error (.unsatisfied ..) | .error (.exhausted _) => refuse cursor ("expected " ++ what)

def withSpan (parser : Parser α) : Parser (α × Span) := fun cursor =>
  match parser cursor with
  | .error failure => .error failure
  | .ok (value,next) => .ok ((value,Span.between cursor next),next)

def recognize (parser : Parser α) : Parser String := map (fun (_,span) => span.text) (withSpan parser)

def satisfy (pass : Char → Bool) (condition : String) : Parser Char := filter pass condition any

def whitespace : Parser Char := satisfy isBlank "expected whitespace"

def skipWhitespace : Parser Unit := map (fun _ => ()) (many whitespace)

def lexeme (parser : Parser α) : Parser α := map Prod.fst (seq parser skipWhitespace)

end Parser

end TamilScript
