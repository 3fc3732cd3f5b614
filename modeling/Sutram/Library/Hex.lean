/-
Hexadecimal digits, and bytes as hexadecimal text.

Lower-case digits are written; both cases are read.
-/
import Mathlib.Algebra.GroupWithZero.Nat
import Mathlib.Data.List.Basic

namespace Hex

-- One proof for the literals of `Fin 16` in every module.
instance neZero_sixteen : NeZero 16 := ⟨Nat.succ_ne_zero 15⟩

def digit (d : Fin 16) : Char :=
  ['0', '1', '2', '3', '4', '5', '6', '7', '8', '9', 'a', 'b', 'c', 'd', 'e', 'f'].get d

def value (c : Char) : Option (Fin 16) :=
  if h : '0'.toNat ≤ c.toNat ∧ c.toNat ≤ '9'.toNat then
    some ⟨c.toNat - '0'.toNat, by
      have h9 : '9'.toNat = '0'.toNat + 9 := rfl
      omega⟩
  else if h : 'a'.toNat ≤ c.toNat ∧ c.toNat ≤ 'f'.toNat then
    some ⟨c.toNat - 'a'.toNat + 10, by
      have hf : 'f'.toNat = 'a'.toNat + 5 := rfl
      omega⟩
  else if h : 'A'.toNat ≤ c.toNat ∧ c.toNat ≤ 'F'.toNat then
    some ⟨c.toNat - 'A'.toNat + 10, by
      have hF : 'F'.toNat = 'A'.toNat + 5 := rfl
      omega⟩
  else none

theorem value_digit : ∀ d, value (digit d) = some d := by
  decide

def encode (ds : List (Fin 16)) : List Char := ds.map digit

def decode : List Char → Option (List (Fin 16))
  | [] => some []
  | c :: rest =>
    match value c, decode rest with
    | some d, some ds => some (d :: ds)
    | _, _ => none

theorem decode_encode (ds : List (Fin 16)) : decode (encode ds) = some ds := by
  induction ds with
  | nil => rfl
  | cons d rest ih =>
    rw [encode, List.map_cons, decode, value_digit]
    rw [encode] at ih
    rw [ih]

theorem length_encode (ds : List (Fin 16)) : (encode ds).length = ds.length :=
  List.length_map _

/-! ## Bytes -/

/-- The digits of a byte, the high one first. -/
def byteDigits (b : UInt8) : List (Fin 16) :=
  [⟨b.toNat / 16, Nat.div_lt_of_lt_mul b.toNat_lt⟩, ⟨b.toNat % 16, Nat.mod_lt _ (by decide)⟩]

/-- Two digits for each byte. -/
def ofBytes (bytes : List UInt8) : List Char := encode (bytes.flatMap byteDigits)

def isSpace (c : Char) : Bool := c = ' ' ∨ ('\t'.toNat ≤ c.toNat ∧ c.toNat ≤ '\r'.toNat)

/-- The bytes of a text.  White space may stand before the two digits of a byte. -/
def toBytes : List Char → Option (List UInt8)
  | [] => some []
  | [c] => if isSpace c then some [] else none
  | c :: d :: rest =>
    if isSpace c then toBytes (d :: rest)
    else
      (value c).bind fun x => (value d).bind fun y =>
        (toBytes rest).map fun bytes => UInt8.ofNat (16 * x.val + y.val) :: bytes

theorem isSpace_digit : ∀ d, isSpace (digit d) = false := by
  decide

theorem toBytes_ofBytes (bytes : List UInt8) : toBytes (ofBytes bytes) = some bytes := by
  induction bytes with
  | nil => rfl
  | cons b rest ih =>
    have hbyte : UInt8.ofNat (16 * (b.toNat / 16) + b.toNat % 16) = b := by
      rw [Nat.div_add_mod, UInt8.ofNat_toNat]
    rw [ofBytes, encode] at ih
    rw [ofBytes, encode, List.flatMap_cons, byteDigits, List.cons_append, List.cons_append,
      List.nil_append, List.map_cons, List.map_cons, toBytes, isSpace_digit, value_digit,
      value_digit, ih]
    simp only [Bool.false_eq_true, if_false, Option.bind_some, Option.map_some, hbyte]

end Hex
