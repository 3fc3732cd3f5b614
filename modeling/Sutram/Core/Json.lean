/-
JSON values and their text.

`json.dumps` with its default separators and `ensure_ascii`, as the stream encoder
calls it.  A float is kept as the text `float.__repr__` gives for it, which is what
`dumps` writes for a finite float.
-/
import Mathlib.Data.Nat.Notation

namespace Sutram.Core

inductive Json where
  | null
  | bool (b : Bool)
  | int (n : Int)
  | float (repr : String)
  | str (s : String)
  | list (xs : List Json)
  | dict (kvs : List (String × Json))
deriving Repr, Inhabited

namespace Json

/-! ## Equality -/

mutual
def decEq : (a b : Json) → Decidable (a = b)
  | .null, .null => isTrue rfl
  | .bool a, .bool b => decidable_of_iff (a = b) (by simp)
  | .int a, .int b => decidable_of_iff (a = b) (by simp)
  | .float a, .float b => decidable_of_iff (a = b) (by simp)
  | .str a, .str b => decidable_of_iff (a = b) (by simp)
  | .list xs, .list ys =>
    match decEqList xs ys with
    | isTrue h => isTrue (by rw [h])
    | isFalse h => isFalse (by simpa using h)
  | .dict xs, .dict ys =>
    match decEqDict xs ys with
    | isTrue h => isTrue (by rw [h])
    | isFalse h => isFalse (by simpa using h)
  | .null, .bool _ | .null, .int _ | .null, .float _ | .null, .str _ | .null, .list _
  | .null, .dict _ | .bool _, .null | .bool _, .int _ | .bool _, .float _ | .bool _, .str _
  | .bool _, .list _ | .bool _, .dict _ | .int _, .null | .int _, .bool _ | .int _, .float _
  | .int _, .str _ | .int _, .list _ | .int _, .dict _ | .float _, .null | .float _, .bool _
  | .float _, .int _ | .float _, .str _ | .float _, .list _ | .float _, .dict _ | .str _, .null
  | .str _, .bool _ | .str _, .int _ | .str _, .float _ | .str _, .list _ | .str _, .dict _
  | .list _, .null | .list _, .bool _ | .list _, .int _ | .list _, .float _ | .list _, .str _
  | .list _, .dict _ | .dict _, .null | .dict _, .bool _ | .dict _, .int _ | .dict _, .float _
  | .dict _, .str _ | .dict _, .list _ => isFalse (by simp)

def decEqList : (xs ys : List Json) → Decidable (xs = ys)
  | [], [] => isTrue rfl
  | [], _ :: _ | _ :: _, [] => isFalse (by simp)
  | x :: xs, y :: ys =>
    match decEq x y, decEqList xs ys with
    | isTrue hx, isTrue hxs => isTrue (by rw [hx, hxs])
    | isFalse hx, _ => isFalse (by simp [hx])
    | _, isFalse hxs => isFalse (by simp [hxs])

def decEqDict : (xs ys : List (String × Json)) → Decidable (xs = ys)
  | [], [] => isTrue rfl
  | [], _ :: _ | _ :: _, [] => isFalse (by simp)
  | (k, x) :: xs, (l, y) :: ys =>
    if hk : k = l then
      match decEq x y, decEqDict xs ys with
      | isTrue hx, isTrue hxs => isTrue (by rw [hk, hx, hxs])
      | isFalse hx, _ => isFalse (by simp [hx])
      | _, isFalse hxs => isFalse (by simp [hxs])
    else isFalse (by simp [hk])
end

instance : DecidableEq Json := decEq

/-! ## `json.dumps` -/

def hexDigit (n : Nat) : Char :=
  if n < 10 then Char.ofNat (48 + n) else Char.ofNat (87 + n)

/-- `\uXXXX` for one UTF-16 code unit. -/
def escapeUnit (n : Nat) : List Char :=
  ['\\', 'u', hexDigit (n / 4096 % 16), hexDigit (n / 256 % 16), hexDigit (n / 16 % 16),
    hexDigit (n % 16)]

/-- A character outside ASCII is written as its UTF-16 code units. -/
def escapeChar (c : Char) : List Char :=
  if c = '"' then ['\\', '"']
  else if c = '\\' then ['\\', '\\']
  else if c = '\n' then ['\\', 'n']
  else if c = '\r' then ['\\', 'r']
  else if c = '\t' then ['\\', 't']
  else if c.toNat = 8 then ['\\', 'b']
  else if c.toNat = 12 then ['\\', 'f']
  else if 32 ≤ c.toNat ∧ c.toNat < 127 then [c]
  else if c.toNat < 65536 then escapeUnit c.toNat
  else
    escapeUnit (55296 + (c.toNat - 65536) / 1024) ++
      escapeUnit (56320 + (c.toNat - 65536) % 1024)

def quote (s : String) : String :=
  String.ofList (['"'] ++ s.toList.flatMap escapeChar ++ ['"'])

mutual
def dumps : Json → String
  | .null => "null"
  | .bool b => if b then "true" else "false"
  | .int n => toString n
  | .float r => r
  | .str s => quote s
  | .list xs => "[" ++ dumpsItems xs ++ "]"
  | .dict kvs => "\x7b" ++ dumpsEntries kvs ++ "\x7d"

def dumpsItems : List Json → String
  | [] => ""
  | [x] => dumps x
  | x :: y :: xs => dumps x ++ ", " ++ dumpsItems (y :: xs)

def dumpsEntries : List (String × Json) → String
  | [] => ""
  | [(k, x)] => quote k ++ ": " ++ dumps x
  | (k, x) :: e :: es => quote k ++ ": " ++ dumps x ++ ", " ++ dumpsEntries (e :: es)
end

/-! ## `json.dumps` with other separators -/

mutual
def dumpsWith (item key : String) : Json → String
  | .null => "null"
  | .bool b => if b then "true" else "false"
  | .int n => toString n
  | .float r => r
  | .str s => quote s
  | .list xs => "[" ++ dumpsItemsWith item key xs ++ "]"
  | .dict kvs => "\x7b" ++ dumpsEntriesWith item key kvs ++ "\x7d"

def dumpsItemsWith (item key : String) : List Json → String
  | [] => ""
  | [x] => dumpsWith item key x
  | x :: y :: xs => dumpsWith item key x ++ item ++ dumpsItemsWith item key (y :: xs)

def dumpsEntriesWith (item key : String) : List (String × Json) → String
  | [] => ""
  | [(k, x)] => quote k ++ key ++ dumpsWith item key x
  | (k, x) :: e :: es =>
    quote k ++ key ++ dumpsWith item key x ++ item ++ dumpsEntriesWith item key (e :: es)
end

mutual
/-- The default separators. -/
theorem dumpsWith_default : (j : Json) → dumpsWith ", " ": " j = dumps j
  | .null | .bool _ | .int _ | .float _ | .str _ => by simp only [dumpsWith, dumps]
  | .list xs => by rw [dumpsWith, dumps, dumpsItemsWith_default xs]
  | .dict kvs => by rw [dumpsWith, dumps, dumpsEntriesWith_default kvs]

theorem dumpsItemsWith_default : (xs : List Json) → dumpsItemsWith ", " ": " xs = dumpsItems xs
  | [] => by rw [dumpsItemsWith, dumpsItems]
  | [x] => by rw [dumpsItemsWith, dumpsItems, dumpsWith_default x]
  | x :: y :: xs => by
    rw [dumpsItemsWith, dumpsItems, dumpsWith_default x, dumpsItemsWith_default (y :: xs)]

theorem dumpsEntriesWith_default :
    (kvs : List (String × Json)) → dumpsEntriesWith ", " ": " kvs = dumpsEntries kvs
  | [] => by rw [dumpsEntriesWith, dumpsEntries]
  | [(k, x)] => by rw [dumpsEntriesWith, dumpsEntries, dumpsWith_default x]
  | (k, x) :: e :: es => by
    rw [dumpsEntriesWith, dumpsEntries, dumpsWith_default x, dumpsEntriesWith_default (e :: es)]
end

end Json

end Sutram.Core
