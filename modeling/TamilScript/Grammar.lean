import TamilScript.Parser

/-! Recognizers as expressions. A grammar is a finite tree of primitives and combinators; the only
functions inside it are those on values and the continuations of `bind`. Its meaning is the
recognizer `Grammar.run`, so a statement about every expression is one induction over the tree. -/
namespace TamilScript

inductive Grammar : Type → Type 1 where
  | any : Grammar Char
  | exactly (expected : Char) : Grammar Char
  | oneOf (letters : List Char) : Grammar Char
  | endOfSource : Grammar Unit
  | literal (whole : String) : Grammar String
  | succeed {α : Type} (value : α) : Grammar α
  | fail {α : Type} (condition : String) : Grammar α
  | unimplemented {α : Type} (rule : String) : Grammar α
  | filter {α : Type} (pass : α → Bool) (condition : String) (grammar : Grammar α) : Grammar α
  | map {α β : Type} (change : α → β) (grammar : Grammar α) : Grammar β
  | bind {α β : Type} (grammar : Grammar α) (continuation : α → Grammar β) : Grammar β
  | seq {α β : Type} (first : Grammar α) (second : Grammar β) : Grammar (α × β)
  | orElse {α : Type} (first second : Grammar α) : Grammar α
  /-- Alternatives in order, at least one. -/
  | alternatives {α : Type} {more : Nat} (nth : Fin (more + 1) → Grammar α) : Grammar α
  | many {α : Type} (grammar : Grammar α) : Grammar (List α)
  | many1 {α : Type} (grammar : Grammar α) : Grammar (List α)
  | optional {α : Type} (grammar : Grammar α) : Grammar (Option α)
  | notFollowedBy {α : Type} (grammar : Grammar α) : Grammar Unit
  | lookAhead {α : Type} (grammar : Grammar α) : Grammar α
  | label {α : Type} (what : String) (grammar : Grammar α) : Grammar α
  | withSpan {α : Type} (grammar : Grammar α) : Grammar (α × Span)
  | recognize {α : Type} (grammar : Grammar α) : Grammar String
  | lexeme {α : Type} (grammar : Grammar α) : Grammar α

namespace Grammar

def run : {α : Type} → Grammar α → Parser α
  | _, any => Parser.any
  | _, exactly expected => Parser.exactly expected
  | _, oneOf letters => Parser.oneOf letters
  | _, endOfSource => Parser.endOfSource
  | _, literal whole => Parser.literal whole
  | _, succeed value => Parser.succeed value
  | _, fail condition => Parser.fail condition
  | _, unimplemented rule => Parser.unimplemented rule
  | _, filter pass condition grammar => grammar.run.filter pass condition
  | _, map change grammar => grammar.run.map change
  | _, bind grammar continuation => grammar.run.bind fun value => (continuation value).run
  | _, seq first second => first.run.seq second.run
  | _, orElse first second => first.run.orElse second.run
  | _, alternatives nth => Parser.choice (nth 0).run (List.ofFn fun i => (nth i.succ).run)
  | _, many grammar => grammar.run.many
  | _, many1 grammar => grammar.run.many1
  | _, optional grammar => grammar.run.optional
  | _, notFollowedBy grammar => grammar.run.notFollowedBy
  | _, lookAhead grammar => grammar.run.lookAhead
  | _, label what grammar => grammar.run.label what
  | _, withSpan grammar => grammar.run.withSpan
  | _, recognize grammar => grammar.run.recognize
  | _, lexeme grammar => grammar.run.lexeme

def choice {α : Type} (first : Grammar α) (rest : List (Grammar α)) : Grammar α :=
  alternatives fun i : Fin (rest.length + 1) => (first :: rest).get i

def satisfy (pass : Char → Bool) (condition : String) : Grammar Char := filter pass condition any

def whitespace : Grammar Char := satisfy isBlank "expected whitespace"

def skipWhitespace : Grammar Unit := map (fun _ => ()) (many whitespace)

def word (text : String) : Grammar String := lexeme (literal text)

def parse {α : Type} (grammar : Grammar α) (source : Source) : Outcome α :=
  grammar.run (Cursor.start source)

/-- Whether a grammar matches at the start of a text; what follows the match is context. -/
def opens {α : Type} (grammar : Grammar α) (text : String) : Bool :=
  (grammar.parse (Source.ofString text)).isOk

@[simp] theorem run_choice {α : Type} (first : Grammar α) (rest : List (Grammar α)) :
    (choice first rest).run = Parser.choice first.run (rest.map run) := by
  simp only [choice,run]
  congr 1
  apply List.ext_getElem <;> simp

@[simp] theorem run_skipWhitespace : skipWhitespace.run = Parser.skipWhitespace := rfl

end Grammar

end TamilScript
