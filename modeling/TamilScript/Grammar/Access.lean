import TamilScript.Grammar

/-! What a run asks of the units of a source. Two operations stop the program when they are asked
outside it: the unit at a valid cursor and the text of a span. The accesses follow the run, so they
include those of failed alternatives, of lookahead and of the attempt that ends a repetition. -/
namespace TamilScript

inductive Access where
  | unit (source : Source) (position : Nat)
  | stretch (span : Span)
  deriving DecidableEq

def Access.InRange : Access → Prop
  | unit source position => position < source.size
  | stretch span => span.InRange

instance : DecidablePred Access.InRange
  | .unit source position => inferInstanceAs (Decidable (position < source.size))
  | .stretch span => inferInstanceAs (Decidable span.InRange)

def Cursor.accesses : Cursor → List Access
  | valid source position => [.unit source position]
  | ended _ => []

def Outcome.after {α β : Type} (outcome : Outcome α) (following : α → Cursor → List β) : List β :=
  match outcome with
  | .ok (value,next) => following value next
  | .error _ => []

namespace Parser
variable {α : Type}

/-- The cursors at which a repetition runs its recognizer. -/
def attempts (parser : Parser α) (cursor : Cursor) : List Cursor :=
  match parser cursor with
  | .error _ => [cursor]
  | .ok (_,next) =>
    if next.remaining < cursor.remaining then cursor :: attempts parser next else [cursor]
termination_by cursor.remaining

def literalAccesses : List Char → Cursor → List Access
  | [], _ => []
  | expected :: rest, cursor => cursor.accesses ++ Outcome.after cursor.read fun found next =>
    if found = expected then literalAccesses rest next else []

end Parser

namespace Grammar

def accesses : {α : Type} → Grammar α → Cursor → List Access
  | _, any, cursor => cursor.accesses
  | _, exactly _, cursor => cursor.accesses
  | _, oneOf _, cursor => cursor.accesses
  | _, endOfSource, cursor => cursor.accesses
  | _, literal whole, cursor => Parser.literalAccesses whole.toList cursor
  | _, succeed _, _ => []
  | _, fail _, _ => []
  | _, unimplemented _, _ => []
  | _, filter _ _ grammar, cursor => grammar.accesses cursor
  | _, map _ grammar, cursor => grammar.accesses cursor
  | _, bind grammar continuation, cursor => grammar.accesses cursor ++
    (grammar.run cursor).after fun value next => (continuation value).accesses next
  | _, seq first second, cursor => first.accesses cursor ++
    (first.run cursor).after fun _ next => second.accesses next
  | _, orElse first second, cursor => first.accesses cursor ++
    if (first.run cursor).isOk then [] else second.accesses cursor
  | _, alternatives nth, cursor =>
    ((List.finRange _).filter fun i => ∀ j < i, ((nth j).run cursor).isOk = false).flatMap
      fun i => (nth i).accesses cursor
  | _, many grammar, cursor => (Parser.attempts grammar.run cursor).flatMap grammar.accesses
  | _, many1 grammar, cursor => grammar.accesses cursor ++
    (grammar.run cursor).after fun _ next =>
      (Parser.attempts grammar.run next).flatMap grammar.accesses
  | _, optional grammar, cursor => grammar.accesses cursor
  | _, notFollowedBy grammar, cursor => grammar.accesses cursor
  | _, lookAhead grammar, cursor => grammar.accesses cursor
  | _, label _ grammar, cursor => grammar.accesses cursor
  | _, withSpan grammar, cursor => grammar.accesses cursor
  | _, recognize grammar, cursor => grammar.accesses cursor ++
    (grammar.run cursor).after fun _ next => [.stretch (Span.between cursor next)]
  | _, lexeme grammar, cursor => grammar.accesses cursor ++
    (grammar.run cursor).after fun _ next =>
      (Parser.attempts Parser.whitespace next).flatMap Cursor.accesses

end Grammar

end TamilScript
