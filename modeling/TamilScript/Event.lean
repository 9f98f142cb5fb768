import TamilScript.Cluster
import TamilScript.Duration

/-! What the library reports while it works. Every look-up of a duration tells which rule decided it,
or that none did; a split into clusters tells where it broke off, and nothing when it succeeds. -/
namespace TamilScript

inductive Event where
  | ruleMatched (text rule : String) (duration : Duration)
  | noRule (text : String)
  | notClusters (position : Nat)
  deriving DecidableEq

inductive Event.Level where
  | trace
  | debug
  deriving DecidableEq, Repr

namespace Event

def level : Event → Level
  | ruleMatched .. => .trace
  | noRule _ => .debug
  | notClusters _ => .debug

def message : Event → String
  | ruleMatched .. => "kurukkam rule matched"
  | noRule _ => "no duration rule applies"
  | notClusters _ => "fragment is not a sequence of clusters"

end Event

def Duration.observe (text : String) : Option Duration × Event :=
  match Duration.ruleFor? text with
  | some rule => (some rule.duration,.ruleMatched text rule.name rule.duration)
  | none => (none,.noRule text)

def Cluster.observe (source : Source) : Except Failure (List String) × List Event :=
  match Cluster.clusters source with
  | .ok found => (.ok found,[])
  | .error failure => (.error failure,[.notClusters failure.position])

theorem Duration.observe_fst (text : String) : (observe text).1 = ofText? text := by
  unfold observe ofText?
  cases ruleFor? text <;> rfl

theorem Cluster.observe_fst (source : Source) : (observe source).1 = clusters source := by
  unfold observe
  cases clusters source <;> rfl

end TamilScript
