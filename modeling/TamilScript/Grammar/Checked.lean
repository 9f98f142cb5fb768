import TamilScript.Grammar.Limited

/-! Runs that check what they ask for. The unit at a valid cursor and the text of a stretch are looked
up, and a run in which the source does not have what was asked for has no outcome. Nothing here
indexes a source, and all that recognizers make of a unit comes out of the look-up. -/
namespace TamilScript

/-- The unit at the cursor and the cursor past it, none where a valid cursor has no unit. -/
def Cursor.read? (cursor : Cursor) : Option (Outcome Char) :=
  match cursor with
  | valid source position => source.units[position]?.map fun unit => .ok (unit,cursor.next)
  | ended source => some (.error (.endOfSource ⟨source,source.size⟩))

namespace Parser
variable {α : Type}

def exactlyChecked (expected : Char) (cursor : Cursor) : Option (Outcome Char) :=
  Outcome.onward cursor.read? fun found next => some <|
    if found = expected then .ok (found,next)
    else refuse cursor ("expected '" ++ toString expected ++ "', found '" ++ toString found ++ "'")

def oneOfChecked (letters : List Char) (cursor : Cursor) : Option (Outcome Char) :=
  Outcome.onward cursor.read? fun found next => some <|
    if found ∈ letters then .ok (found,next)
    else refuse cursor ("'" ++ toString found ++ "' is not one of " ++ String.ofList letters)

def endOfSourceChecked (cursor : Cursor) : Option (Outcome Unit) := cursor.read?.map fun
  | .error _ => .ok ((),cursor)
  | .ok (found,_) => refuse cursor ("expected end of source, found '" ++ toString found ++ "'")

def literalChecked (whole : String) : List Char → Cursor → Option (Except Failure Cursor)
  | [], cursor => some (.ok cursor)
  | expected :: rest, cursor => cursor.read?.bind fun
    | .error _ => some (.error (.endOfSource cursor.location))
    | .ok (found,next) =>
      if found = expected then literalChecked whole rest next
      else some (.error (.unsatisfied ("expected '" ++ toString expected ++ "', found '" ++
        toString found ++ "' while matching '" ++ whole ++ "'") cursor.location))

def whitespaceChecked (cursor : Cursor) : Option (Outcome Char) :=
  judged (filter isBlank "expected whitespace") cursor cursor.read?

def repeatedChecked (parser : Cursor → Option (Outcome α)) (cursor : Cursor) :
    Option (List α × Cursor) :=
  (parser cursor).bind fun
    | .error _ => some ([],cursor)
    | .ok (value,next) =>
      if next.remaining < cursor.remaining then
        (repeatedChecked parser next).map fun (values,last) => (value :: values,last)
      else some ([],cursor)
termination_by cursor.remaining

end Parser

namespace Grammar
open TamilScript.Parser

/-- The outcome of a run, none where it asks for what its source does not have. -/
def runChecked : {α : Type} → Grammar α → Cursor → Option (Outcome α)
  | _, any, cursor => cursor.read?
  | _, exactly expected, cursor => exactlyChecked expected cursor
  | _, oneOf letters, cursor => oneOfChecked letters cursor
  | _, endOfSource, cursor => endOfSourceChecked cursor
  | _, literal whole, cursor => (literalChecked whole whole.toList cursor).map fun
    | .error failure => .error failure
    | .ok next => .ok (whole,next)
  | _, succeed value, cursor => some (Parser.succeed value cursor)
  | _, fail condition, cursor => some (Parser.fail condition cursor)
  | _, unimplemented rule, cursor => some (Parser.unimplemented rule cursor)
  | _, bind grammar continuation, cursor =>
    Outcome.onward (grammar.runChecked cursor) fun value next => (continuation value).runChecked next
  | _, seq first second, cursor =>
    Outcome.onward (first.runChecked cursor) fun left middle =>
      Outcome.onward (second.runChecked middle) fun right next => some (.ok ((left,right),next))
  | _, orElse first second, cursor => (first.runChecked cursor).bind fun
    | .ok found => some (.ok found)
    | .error _ => (second.runChecked cursor).map (Except.mapError Failure.exhaust)
  | _, alternatives nth, cursor =>
    (firstMatchWithin ((nth ⟨0,Nat.succ_pos _⟩).runChecked cursor)
      (List.ofFn fun i => (nth i.succ).runChecked cursor)).map (Except.mapError Failure.exhaust)
  | _, many grammar, cursor => (repeatedChecked grammar.runChecked cursor).map .ok
  | _, many1 grammar, cursor =>
    Outcome.onward (grammar.runChecked cursor) fun value next =>
      (repeatedChecked grammar.runChecked next).map fun (values,last) => .ok (value :: values,last)
  | _, lexeme grammar, cursor =>
    Outcome.onward (grammar.runChecked cursor) fun value next =>
      (repeatedChecked whitespaceChecked next).map fun (_,last) => .ok (value,last)
  | _, recognize grammar, cursor =>
    Outcome.onward (grammar.runChecked cursor) fun _ next =>
      (Span.between cursor next).text?.map fun text => .ok (text,next)
  | _, filter pass condition grammar, cursor =>
    judged (Parser.filter pass condition) cursor (grammar.runChecked cursor)
  | _, map change grammar, cursor => judged (Parser.map change) cursor (grammar.runChecked cursor)
  | _, optional grammar, cursor => judged Parser.optional cursor (grammar.runChecked cursor)
  | _, notFollowedBy grammar, cursor =>
    judged Parser.notFollowedBy cursor (grammar.runChecked cursor)
  | _, lookAhead grammar, cursor => judged Parser.lookAhead cursor (grammar.runChecked cursor)
  | _, label what grammar, cursor => judged (Parser.label what) cursor (grammar.runChecked cursor)
  | _, withSpan grammar, cursor => judged Parser.withSpan cursor (grammar.runChecked cursor)

end Grammar

end TamilScript
