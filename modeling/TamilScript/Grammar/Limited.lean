import TamilScript.Grammar

/-! Runs with a limit on repetition. A repetition, at whatever depth, may run its recognizer as often
as the limit says; a run in which one asks for more has no outcome. The loop here goes on while
its recognizer ends at another position, and nothing in it promises that it comes to an end. -/
namespace TamilScript

/-- What was found goes on; a failure stands, and so does a missing outcome. -/
def Outcome.onward {α β : Type} (outcome : Option (Outcome α))
    (following : α → Cursor → Option (Outcome β)) : Option (Outcome β) :=
  outcome.bind fun
    | .error failure => some (.error failure)
    | .ok (value,next) => following value next

namespace Parser
variable {α β : Type}

def repeatedWithin (parser : Cursor → Option (Outcome α)) : Nat → Cursor → Option (List α × Cursor)
  | 0, _ => none
  | turns + 1, cursor => (parser cursor).bind fun
    | .error _ => some ([],cursor)
    | .ok (value,next) =>
      if next.position = cursor.position then some ([],cursor)
      else (repeatedWithin parser turns next).map fun (values,last) => (value :: values,last)

def firstMatchWithin (first : Option (Outcome α)) : List (Option (Outcome α)) → Option (Outcome α)
  | [] => first
  | second :: rest => first.bind fun
    | .ok found => some (.ok found)
    | .error _ => firstMatchWithin second rest

/-- What a combinator makes of the outcome of its part, which was run once, where the whole began. -/
def judged (judge : Parser α → Parser β) (cursor : Cursor) (outcome : Option (Outcome α)) :
    Option (Outcome β) :=
  outcome.map fun found => judge (fun _ => found) cursor

end Parser

namespace Grammar
open TamilScript.Parser

/-- The outcome of a run in which no repetition takes more turns than the limit. -/
def runWithin (limit : Nat) : {α : Type} → Grammar α → Cursor → Option (Outcome α)
  | _, any, cursor => some (Parser.any cursor)
  | _, exactly expected, cursor => some (Parser.exactly expected cursor)
  | _, oneOf letters, cursor => some (Parser.oneOf letters cursor)
  | _, endOfSource, cursor => some (Parser.endOfSource cursor)
  | _, literal whole, cursor => some (Parser.literal whole cursor)
  | _, succeed value, cursor => some (Parser.succeed value cursor)
  | _, fail condition, cursor => some (Parser.fail condition cursor)
  | _, unimplemented rule, cursor => some (Parser.unimplemented rule cursor)
  | _, bind grammar continuation, cursor =>
    Outcome.onward (grammar.runWithin limit cursor) fun value next =>
      (continuation value).runWithin limit next
  | _, seq first second, cursor =>
    Outcome.onward (first.runWithin limit cursor) fun left middle =>
      Outcome.onward (second.runWithin limit middle) fun right next => some (.ok ((left,right),next))
  | _, orElse first second, cursor => (first.runWithin limit cursor).bind fun
    | .ok found => some (.ok found)
    | .error _ => (second.runWithin limit cursor).map (Except.mapError Failure.exhaust)
  | _, alternatives nth, cursor =>
    (firstMatchWithin ((nth ⟨0,Nat.succ_pos _⟩).runWithin limit cursor)
      (List.ofFn fun i => (nth i.succ).runWithin limit cursor)).map (Except.mapError Failure.exhaust)
  | _, many grammar, cursor => (repeatedWithin (grammar.runWithin limit) limit cursor).map .ok
  | _, many1 grammar, cursor =>
    Outcome.onward (grammar.runWithin limit cursor) fun value next =>
      (repeatedWithin (grammar.runWithin limit) limit next).map fun (values,last) =>
        .ok (value :: values,last)
  | _, lexeme grammar, cursor =>
    Outcome.onward (grammar.runWithin limit cursor) fun value next =>
      (repeatedWithin (fun place => some (Parser.whitespace place)) limit next).map fun (_,last) =>
        .ok (value,last)
  | _, filter pass condition grammar, cursor =>
    judged (Parser.filter pass condition) cursor (grammar.runWithin limit cursor)
  | _, map change grammar, cursor => judged (Parser.map change) cursor (grammar.runWithin limit cursor)
  | _, optional grammar, cursor => judged Parser.optional cursor (grammar.runWithin limit cursor)
  | _, notFollowedBy grammar, cursor =>
    judged Parser.notFollowedBy cursor (grammar.runWithin limit cursor)
  | _, lookAhead grammar, cursor => judged Parser.lookAhead cursor (grammar.runWithin limit cursor)
  | _, label what grammar, cursor => judged (Parser.label what) cursor (grammar.runWithin limit cursor)
  | _, withSpan grammar, cursor => judged Parser.withSpan cursor (grammar.runWithin limit cursor)
  | _, recognize grammar, cursor => judged Parser.recognize cursor (grammar.runWithin limit cursor)

end Grammar

end TamilScript
