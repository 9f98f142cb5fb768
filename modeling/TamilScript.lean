import TamilScript.Event
import TamilScript.Proofs.Bounds
import TamilScript.Proofs.Concatenation
import TamilScript.Proofs.FailurePlaces
import TamilScript.Proofs.Rejection
import TamilScript.Proofs.Relocation
import TamilScript.Proofs.Rewording
import TamilScript.Proofs.Termination
import TamilScript.Proofs.Voicing
import TamilScript.Proofs.Repetition
import TamilScript.Proofs.Bracketing
import TamilScript.Proofs.Tiling
import TamilScript.Proofs.Literals
import TamilScript.Proofs.Places
import TamilScript.Proofs.Lookahead
import TamilScript.Proofs.Excerpts
import TamilScript.Proofs.Truncation
import TamilScript.Proofs.Exclusion
import TamilScript.Proofs.RuleOrder
import TamilScript.Proofs.CutOut
import TamilScript.Proofs.Saturation
import TamilScript.Proofs.Classes
import TamilScript.Proofs.Decoding
