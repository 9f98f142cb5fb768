import Mathlib.Tactic.Ring
import TamilScript.Source.Delivery
import TamilScript.Source.Encoding

/-! What arrives as bytes. No unit has two spellings, and no spelling begins another one. So bytes spell
one row of units or none, and which of the two holds shows from the front: units are read off until
nothing is left, or until a fault stands where the next one should begin. How a stream cuts its bytes
into pieces is no matter, since they are joined before a unit is read. -/
namespace TamilScript

namespace Encoding
variable {more high number : Nat} {bytes : List UInt8}

/-- The following bytes complete the number whose lowest groups they hold, whatever stands behind. -/
theorem complete?_following (more high number : Nat) (rest : List UInt8) :
    complete? more high (following more number ++ rest) =
      some (high * 64 ^ more + number % 64 ^ more) := by
  induction more generalizing high with
  | zero => simp [complete?,Nat.mod_one]
  | succ more ih =>
    have group : number / 64 ^ more % 64 < 64 := Nat.mod_lt _ (by decide)
    have byte : (UInt8.ofNat (0x80 + number / 64 ^ more % 64)).toNat =
        0x80 + number / 64 ^ more % 64 := UInt8.toNat_ofNat_of_lt' (show _ < 256 by omega)
    rw [following,List.cons_append,complete?,byte,if_pos (by omega),ih,Nat.add_sub_cancel_left,
      Nat.mod_pow_succ,Nat.pow_succ]
    apply congrArg some
    ring

/-- A completed number is read off bytes that spell its lowest groups below the bits known before. -/
theorem exists_following (done : complete? more high bytes = some number) :
    ∃ rest, bytes = following more number ++ rest ∧ number / 64 ^ more = high := by
  fun_induction complete? more high bytes with
  | case1 number bytes =>
    obtain rfl := Option.some.inj done
    exact ⟨bytes,rfl,Nat.div_one _⟩
  | case2 => cases done
  | case3 more high byte bytes follows ih =>
    obtain ⟨rest,rfl,upper⟩ := ih done
    have group : 0x80 + number / 64 ^ more % 64 = byte.toNat := by omega
    refine ⟨rest,?_,?_⟩
    · rw [following,group,UInt8.ofNat_toNat,List.cons_append]
    · rw [Nat.pow_succ,← Nat.div_div_eq_div_mul,upper]
      omega
  | case4 => cases done

namespace Shape
variable {shape : Shape} {first : UInt8}

/-- The number is none of a shorter shape, and its highest bits have room in the first byte. -/
structure Holds (shape : Shape) (number : Nat) : Prop where
  least_le : shape.least ≤ number
  lt_room : number / 64 ^ shape.more < shape.room

theorem ofFirst?_eq_some_iff : ofFirst? first = some shape ↔
    shape ∈ all ∧ shape.mark ≤ first.toNat ∧ first.toNat < shape.mark + shape.room := by
  constructor
  · intro found
    have announced := List.find?_some found
    exact ⟨List.mem_of_find?_eq_some found,of_decide_eq_true announced⟩
  · intro announced
    obtain ⟨listed,marked,below⟩ := announced
    simp only [all,List.mem_cons,List.not_mem_nil,or_false] at listed
    -- The bytes of two marks do not overlap, so no earlier shape is found.
    rcases listed with rfl | rfl | rfl | rfl <;>
      simp only [one,two,three,four] at marked below <;>
      simp [ofFirst?,all,one,two,three,four] <;> omega

theorem holds_ofNumber (number : Nat) (bound : number < 0x110000) :
    ofNumber number ∈ all ∧ (ofNumber number).Holds number := by
  -- A shape ends where the next one begins, and the last of them holds more than there are units.
  have last : number < 64 ^ four.more * four.room := Nat.lt_of_lt_of_le bound (by decide)
  unfold ofNumber
  split_ifs with narrow wide wider
  · exact ⟨by decide,Nat.zero_le _,Nat.div_lt_of_lt_mul narrow⟩
  · exact ⟨by decide,Nat.le_of_not_lt narrow,Nat.div_lt_of_lt_mul wide⟩
  · exact ⟨by decide,Nat.le_of_not_lt wide,Nat.div_lt_of_lt_mul wider⟩
  · exact ⟨by decide,Nat.le_of_not_lt wider,Nat.div_lt_of_lt_mul last⟩

theorem Holds.ofNumber_eq (holds : shape.Holds number) (listed : shape ∈ all) :
    ofNumber number = shape := by
  have least := holds.least_le
  have below := Nat.lt_mul_of_div_lt holds.lt_room (Nat.pow_pos (by decide))
  simp only [all,List.mem_cons,List.not_mem_nil,or_false] at listed
  rcases listed with rfl | rfl | rfl | rfl
  · exact if_pos below
  · rw [ofNumber,if_neg (Nat.not_lt.mpr least)]
    exact if_pos below
  · have narrow : two.least ≤ number := Nat.le_trans (by decide) least
    rw [ofNumber,if_neg (Nat.not_lt.mpr narrow),if_neg (Nat.not_lt.mpr least)]
    exact if_pos below
  · have wide : three.least ≤ number := Nat.le_trans (by decide) least
    have narrow : two.least ≤ number := Nat.le_trans (by decide) wide
    rw [ofNumber,if_neg (Nat.not_lt.mpr narrow),if_neg (Nat.not_lt.mpr wide),
      if_neg (Nat.not_lt.mpr least)]

/-- The first byte of a spelling shows the highest bits above the mark of its shape. -/
theorem Holds.toNat_first (holds : shape.Holds number) (listed : shape ∈ all) :
    (UInt8.ofNat (shape.mark + number / 64 ^ shape.more)).toNat =
      shape.mark + number / 64 ^ shape.more := by
  have room : ∀ shape ∈ all, shape.mark + shape.room ≤ 256 := by decide
  have bound := room shape listed
  have fits := holds.lt_room
  exact UInt8.toNat_ofNat_of_lt' (show _ < 256 by omega)

end Shape

theorem fault?_encodeUnit (unit : Char) (rest : List UInt8) :
    fault? (encodeUnit unit ++ rest) = none := by
  have valid : unit.toNat < 0xD800 ∨ 0xDFFF < unit.toNat ∧ unit.toNat < 0x110000 := unit.valid
  obtain ⟨listed,holds⟩ := Shape.holds_ofNumber unit.toNat (by omega)
  have first := holds.toNat_first listed
  have announced := Shape.ofFirst?_eq_some_iff.mpr ⟨listed,first.symm ▸ Nat.le_add_right _ _,
    first.symm ▸ Nat.add_lt_add_left holds.lt_room _⟩
  have least := holds.least_le
  simp only [encodeUnit,Shape.spell,List.cons_append,fault?,announced,first,Nat.add_sub_cancel_left,
    complete?_following,Nat.div_add_mod']
  rw [if_neg (by omega),if_neg (by omega),if_neg (by omega)]

/-- Where nothing keeps a unit from being read, the bytes begin with the spelling of one. -/
theorem exists_encodeUnit {first : UInt8} {rest : List UInt8}
    (readable : fault? (first :: rest) = none) :
    ∃ unit after, first :: rest = encodeUnit unit ++ after := by
  simp only [fault?] at readable
  split at readable
  · cases readable
  · next shape announced =>
    obtain ⟨listed,marked,below⟩ := Shape.ofFirst?_eq_some_iff.mp announced
    split at readable
    · cases readable
    · next number done =>
      obtain ⟨after,rfl,upper⟩ := exists_following done
      split_ifs at readable with short half above
      have valid : number < 0xD800 ∨ 0xDFFF < number ∧ number < 0x110000 := by omega
      have fits : shape.Holds number := ⟨Nat.le_of_not_lt short,by omega⟩
      have same : shape.mark + number / 64 ^ shape.more = first.toNat := by omega
      have scalar : (Char.ofNatAux number valid).toNat = number := rfl
      refine ⟨.ofNatAux number valid,after,?_⟩
      rw [encodeUnit,scalar,fits.ofNumber_eq listed,Shape.spell,same,UInt8.ofNat_toNat,
        List.cons_append]

example : [[0xBF],[0xE0,0xAE],[0xC1,0xBF],[0xED,0xA0,0x80],[0xF4,0x90,0x80,0x80]].map fault? =
    [some .stray,some .truncated,some .overlong,some .surrogate,some .beyond] := by decide

theorem encodeUnit_ne_nil (unit : Char) : encodeUnit unit ≠ [] := List.cons_ne_nil _ _

/-- The spelling is the one that texts are stored in. -/
theorem utf8EncodeChar_eq (unit : Char) : String.utf8EncodeChar unit = encodeUnit unit := by
  have bound : unit.toNat < 0x200000 := by
    have valid : unit.toNat < 0xD800 ∨ 0xDFFF < unit.toNat ∧ unit.toNat < 0x110000 := unit.valid
    omega
  unfold String.utf8EncodeChar encodeUnit
  rw [← Char.toNat]
  generalize unit.toNat = number at bound ⊢
  dsimp only
  split_ifs with narrow wide wider
  · have highest : number / 64 ^ 0 < 0x80 := Nat.div_lt_of_lt_mul (Nat.lt_succ_of_le narrow)
    have shape : Shape.ofNumber number = .one :=
      Shape.Holds.ofNumber_eq ⟨Nat.zero_le _,highest⟩ (by decide)
    rw [shape]
    simp only [Shape.spell,Shape.one,following,Nat.pow_zero,Nat.div_one,Nat.zero_add]
  · have highest : number / 64 < 0x20 := by omega
    have shape : Shape.ofNumber number = .two :=
      Shape.Holds.ofNumber_eq ⟨show 0x80 ≤ number by omega,highest⟩ (by decide)
    rw [shape,Nat.mod_eq_of_lt highest]
    simp only [Shape.spell,Shape.two,following,Nat.pow_zero,Nat.pow_one,Nat.div_one,Nat.add_comm]
  · have highest : number / 4096 < 0x10 := by omega
    have shape : Shape.ofNumber number = .three :=
      Shape.Holds.ofNumber_eq ⟨show 0x800 ≤ number by omega,highest⟩ (by decide)
    rw [shape,Nat.mod_eq_of_lt highest]
    simp only [Shape.spell,Shape.three,following,Nat.pow_zero,Nat.pow_one,Nat.div_one,Nat.add_comm,
      Nat.reducePow]
  · have highest : number / 262144 < 0x08 := by omega
    have shape : Shape.ofNumber number = .four :=
      Shape.Holds.ofNumber_eq ⟨show 0x10000 ≤ number by omega,highest⟩ (by decide)
    rw [shape,Nat.mod_eq_of_lt highest]
    simp only [Shape.spell,Shape.four,following,Nat.pow_zero,Nat.pow_one,Nat.div_one,Nat.add_comm,
      Nat.reducePow]

theorem encode_eq (units : List Char) : encode units = units.flatMap String.utf8EncodeChar := by
  rw [encode,funext utf8EncodeChar_eq]

theorem encodeUnit_append_inj {unit other : Char} {rest after : List UInt8}
    (same : encodeUnit unit ++ rest = encodeUnit other ++ after) : unit = other ∧ rest = after := by
  have read := congrArg (fun bytes => bytes.toByteArray.utf8DecodeChar? 0) same
  simp only [← utf8EncodeChar_eq,List.toByteArray_append,
    ByteArray.utf8DecodeChar?_utf8EncodeChar_append,Option.some.injEq] at read
  subst read
  exact ⟨rfl,List.append_cancel_left same⟩

/-- Units are spelled up to the end, or up to a place where a fault shows. -/
theorem encoded_or_faulty (bytes : List UInt8) : (∃ units, bytes = encode units) ∨
    ∃ units rest fault, bytes = encode units ++ rest ∧ fault? rest = some fault := by
  induction size : bytes.length using Nat.strong_induction_on generalizing bytes with
  | _ length ih =>
    cases bytes with
    | nil => exact Or.inl ⟨[],rfl⟩
    | cons first rest =>
      cases found : fault? (first :: rest) with
      | some fault => exact Or.inr ⟨[],first :: rest,fault,rfl,found⟩
      | none =>
        obtain ⟨unit,after,split⟩ := exists_encodeUnit found
        have shorter : after.length < length := by
          have longer := List.length_pos_iff.mpr (encodeUnit_ne_nil unit)
          rw [← size,split,List.length_append]
          omega
        rcases ih after.length shorter after rfl with ⟨units,rfl⟩ | ⟨units,last,fault,rfl,faulty⟩
        · exact Or.inl ⟨unit :: units,split⟩
        · refine Or.inr ⟨unit :: units,last,fault,?_,faulty⟩
          rw [split,encode,encode,List.flatMap_cons,List.append_assoc]

/-- Behind spelled units a fault is not the beginning of another spelling. -/
theorem encode_append_ne {rest : List UInt8} {fault : Fault} (faulty : fault? rest = some fault)
    (units others : List Char) : encode units ++ rest ≠ encode others := by
  intro same
  induction units generalizing others with
  | nil =>
    cases others with
    | nil =>
      obtain rfl : rest = [] := same
      cases faulty
    | cons other later =>
      obtain rfl : rest = encodeUnit other ++ encode later := same
      rw [fault?_encodeUnit] at faulty
      cases faulty
  | cons unit units ih =>
    cases others with
    | nil => simp [encode,encodeUnit_ne_nil] at same
    | cons other later =>
      simp only [encode,List.flatMap_cons,List.append_assoc] at same
      exact ih later (encodeUnit_append_inj same).2

end Encoding

namespace Source
open Encoding

/-- Texts are decoded from their spellings and from nothing else. -/
theorem fromUTF8?_eq_some_iff {bytes : List UInt8} {text : String} :
    String.fromUTF8? ⟨bytes.toArray⟩ = some text ↔ bytes = encode text.toList := by
  have stored (text : String) : text.toByteArray = ⟨(encode text.toList).toArray⟩ := by
    rw [← String.utf8Encode_toList,List.utf8Encode,← encode_eq,← List.data_toByteArray]
  unfold String.fromUTF8?
  constructor
  · intro decoded
    split at decoded
    · next valid =>
      obtain rfl := Option.some.inj decoded
      have same := congrArg ByteArray.data (stored (String.fromUTF8 ⟨bytes.toArray⟩ valid))
      exact congrArg Array.toList same
    · cases decoded
  · intro spelled
    subst spelled
    rw [dif_pos (stored text ▸ text.isValidUTF8),Option.some.injEq,← String.toByteArray_inj]
    exact (stored text).symm

/-- A delivery becomes the source whose units its bytes spell. -/
theorem ofDelivery_eq_ok_iff {delivery : List (List UInt8)} {source : Source} :
    ofDelivery delivery = .ok source ↔ delivery.flatten = encode source.units.toList := by
  have units : source.text.toList = source.units.toList := String.toList_ofList
  rw [← units,← fromUTF8?_eq_some_iff]
  unfold ofDelivery
  cases String.fromUTF8? ⟨delivery.flatten.toArray⟩ with
  | none => simp
  | some text =>
    rw [Except.ok.injEq,Option.some.injEq]
    constructor
    · rintro rfl
      exact (text_ofString text).symm
    · rintro rfl
      exact ofString_text source

theorem ofDelivery_eq_error_iff {delivery : List (List UInt8)} :
    ofDelivery delivery = .error .invalidData ↔ ∀ units, delivery.flatten ≠ encode units := by
  constructor
  · intro failed units spelled
    have read : ofDelivery delivery = .ok ⟨units.toArray⟩ := ofDelivery_eq_ok_iff.mpr spelled
    cases failed.symm.trans read
  · intro unspelled
    cases read : ofDelivery delivery with
    | ok source => exact absurd (ofDelivery_eq_ok_iff.mp read) (unspelled _)
    | error failure =>
      cases failure
      rfl

/-- Bytes that arrive in pieces, each of one byte or more up to a limit, are read as the units they
spell and as nothing else, and however they are cut they are read as if they came in one piece: a byte
order mark is one of the units, and no unit is changed. They are refused exactly when they spell no
units, which is when a fault stands at the front or behind units that are spelled. -/
theorem delivery_decoded (bytes : List UInt8) (limit : Nat) (positive : 0 < limit) :
    (pieces limit bytes).flatten = bytes ∧
    (∀ piece ∈ pieces limit bytes, 0 < piece.length ∧ piece.length ≤ limit) ∧
    ofDelivery (pieces limit bytes) = ofDelivery [bytes] ∧
    (∀ source, ofDelivery (pieces limit bytes) = .ok source ↔ bytes = encode source.units.toList) ∧
    (∀ text : String, bytes = encode text.toList →
      ofDelivery (pieces limit bytes) = .ok (.ofString text)) ∧
    (ofDelivery (pieces limit bytes) = .error .invalidData ↔ ∀ units, bytes ≠ encode units) ∧
    (ofDelivery (pieces limit bytes) = .error .invalidData ↔
      ∃ units rest fault, bytes = encode units ++ rest ∧ fault? rest = some fault) := by
  have joined := flatten_pieces positive bytes
  have decoded (source : Source) : ofDelivery (pieces limit bytes) = .ok source ↔
      bytes = encode source.units.toList := by rw [ofDelivery_eq_ok_iff,joined]
  have refused : ofDelivery (pieces limit bytes) = .error .invalidData ↔
      ∀ units, bytes ≠ encode units := by rw [ofDelivery_eq_error_iff,joined]
  refine ⟨joined,fun _ => length_le_of_mem_pieces,ofDelivery_pieces positive bytes,decoded,?_,
    refused,?_⟩
  · intro text spelled
    exact (decoded (.ofString text)).mpr spelled
  · rw [refused]
    constructor
    · intro unspelled
      rcases encoded_or_faulty bytes with ⟨units,spelled⟩ | faulty
      · exact absurd spelled (unspelled units)
      · exact faulty
    · rintro ⟨units,rest,fault,rfl,faulty⟩
      exact encode_append_ne faulty units

theorem mark_kept_and_overlong_refused :
    let marked : List UInt8 := [0xEF,0xBB,0xBF,0xE0,0xAE,0x95,0xE0,0xAF,0x86,0xE0,0xAE,0xBE]
    let overlong : List UInt8 := [0xE0,0xAE,0x95,0xC0,0x80]
    0 < 2 ∧ (pieces 2 marked).length = 6 ∧ (pieces 2 marked).flatten = marked ∧
    ofDelivery (pieces 2 marked) = .ok (.ofString "\uFEFFக\u0BC6\u0BBE") ∧
    0 < 4 ∧ fault? [0xC0,0x80] = some .overlong ∧
    ofDelivery (pieces 4 overlong) = .error .invalidData := by
  intro marked overlong
  obtain ⟨joined,_,_,_,read,_⟩ := delivery_decoded marked 2 (by decide)
  obtain ⟨_,_,_,_,_,_,refused⟩ := delivery_decoded overlong 4 (by decide)
  have faulty : fault? [0xC0,0x80] = some .overlong := by decide
  refine ⟨by decide,by decide +kernel,joined,read _ (by decide +kernel),by decide,faulty,?_⟩
  exact refused.mpr ⟨['க'],[0xC0,0x80],.overlong,by decide,faulty⟩

end Source

end TamilScript
