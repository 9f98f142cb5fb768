import TamilScript.Source

/-! Sources that arrive as bytes. A delivery is the list of pieces in which a stream hands its
bytes over. Pieces are joined before decoding, so a unit may straddle any number of them; the
joined bytes are UTF-8 or nothing is read. A byte order mark is an ordinary unit. -/
namespace TamilScript.Source

/-- The bytes do not encode any sequence of scalar values. -/
inductive DecodeError where
  | invalidData
  deriving DecidableEq, Repr

/-- Pieces of at most `limit` bytes, in order and none of them empty. A stream that hands over no
byte has ended, so with limit zero nothing is delivered at all. -/
def pieces : Nat → List UInt8 → List (List UInt8)
  | 0, _ => []
  | _ + 1, [] => []
  | more + 1, byte :: rest => (byte :: rest.take more) :: pieces (more + 1) (rest.drop more)
termination_by _ bytes => bytes.length
decreasing_by simp only [List.length_cons,List.length_drop]; omega

@[simp] theorem flatten_pieces {limit : Nat} (positive : 0 < limit) (bytes : List UInt8) :
    (pieces limit bytes).flatten = bytes := by
  fun_induction pieces limit bytes with
  | case1 => omega
  | case2 => rfl
  | case3 more byte rest ih => simp [ih positive]

theorem length_le_of_mem_pieces {limit : Nat} {bytes piece : List UInt8}
    (member : piece ∈ pieces limit bytes) : 0 < piece.length ∧ piece.length ≤ limit := by
  fun_induction pieces limit bytes with
  | case1 | case2 => simp at member
  | case3 more byte rest ih =>
    rcases List.mem_cons.mp member with rfl | later
    · simp only [List.length_cons,List.length_take]
      omega
    · exact ih later

/-- The source whose UTF-8 encoding is the concatenation of the delivered pieces. -/
def ofDelivery (delivery : List (List UInt8)) : Except DecodeError Source :=
  match String.fromUTF8? ⟨delivery.flatten.toArray⟩ with
  | some text => .ok (.ofString text)
  | none => .error .invalidData

/-- What is read depends on the bytes alone, not on how a stream that delivers them cuts them. -/
theorem ofDelivery_pieces {limit : Nat} (positive : 0 < limit) (bytes : List UInt8) :
    ofDelivery (pieces limit bytes) = ofDelivery [bytes] := by simp [ofDelivery,positive]

end TamilScript.Source
