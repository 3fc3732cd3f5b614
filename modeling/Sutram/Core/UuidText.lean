/-
`uuid.UUID` of a text.

It accepts more than a field of type UUID does.  Prefixes, braces and hyphens are taken
out, and the 32 characters that must be left go through `int(hex, 16)`, which allows
blanks around the number, a sign, `0x`, single underscores and the decimal digits of
any script.
-/
import Mathlib.Data.List.DropRight
import Sutram.Core.Uuid

namespace Sutram.Core.Uuid

/-- `str.replace(pattern, "")`.  The first argument counts the characters of an occurrence
that are still to be left out. -/
def removeAll (pattern : List Char) : Nat → List Char → List Char
  | _, [] => []
  | skip + 1, _ :: rest => removeAll pattern skip rest
  | 0, c :: rest =>
    if pattern.isPrefixOf (c :: rest) then removeAll pattern (pattern.length - 1) rest
    else c :: removeAll pattern 0 rest

/-- `str.strip` -/
def strip (p : Char → Bool) (cs : List Char) : List Char := (cs.dropWhile p).rdropWhile p

def isBrace (c : Char) : Bool := c ∈ ['{', '}']

def isSpace (c : Char) : Bool := c ∈ ['\t', '\n', '\x0b', '\x0c', '\r', ' ']

/-- Digits with single underscores between them. -/
def readDigits : List Char → Option (List (Fin 16))
  | [] => none
  | [c] => (Hex.value c).map fun d => [d]
  | c :: '_' :: rest =>
    match Hex.value c, readDigits rest with
    | some d, some ds => some (d :: ds)
    | _, _ => none
  | c :: rest =>
    match Hex.value c, readDigits rest with
    | some d, some ds => some (d :: ds)
    | _, _ => none

def dropSign : List Char → List Char
  | '+' :: rest => rest
  | cs => cs

/-- An underscore may follow the base. -/
def dropBase : List Char → List Char
  | '0' :: x :: rest =>
    if x = 'x' ∨ x = 'X' then
      match rest with
      | '_' :: rest => rest
      | rest => rest
    else '0' :: x :: rest
  | cs => cs

/-- How `int` reads the characters outside ASCII: a decimal digit as that of ASCII, a blank
as a space, and anything else as what is no digit. -/
structure Unicode where
  toAscii : Char → Char
  toAscii_of_ascii : ∀ c, c.toNat < 128 → toAscii c = c

variable (unicode : Unicode)

/-- The digits of `int(hex, 16)`.  There is no minus, since hyphens have been taken out. -/
def readInt (hex : List Char) : Option (List (Fin 16)) :=
  readDigits (dropBase (dropSign (strip isSpace (hex.map unicode.toAscii))))

/-- The 128 bits of a number of at most 32 digits. -/
def ofDigits (ds : List (Fin 16)) : Option Uuid :=
  if h : ds.length ≤ 32 then
    some ⟨List.replicate (32 - ds.length) 0 ++ ds, by
      rw [List.length_append, List.length_replicate]
      omega⟩
  else none

/-- `uuid.UUID(hex)`, `none` where it raises `ValueError`. -/
def ofHex (hex : String) : Option Uuid :=
  let cs := removeAll "uuid:".toList 0 (removeAll "urn:".toList 0 hex.toList)
  let cs := (strip isBrace cs).filter (· ≠ '-')
  if cs.length = 32 then (readInt unicode cs).bind ofDigits else none

/-! ## The canonical text -/

theorem removeAll_eq_self {p : Char} {pattern cs : List Char} (h : p ∉ cs) :
    removeAll (p :: pattern) 0 cs = cs := by
  induction cs with
  | nil => rfl
  | cons c rest ih =>
    rw [List.mem_cons, not_or] at h
    rw [removeAll, if_neg, ih h.2]
    simp [List.isPrefixOf, h.1]

theorem strip_eq_self {p : Char → Bool} {cs : List Char} (h : ∀ c ∈ cs, p c = false) :
    strip p cs = cs := by
  have hdrop : cs.dropWhile p = cs := by
    cases cs with
    | nil => rfl
    | cons c rest => rw [List.dropWhile_cons_of_neg (by simp [h c])]
  rw [strip, hdrop]
  refine List.rdropWhile_eq_self_iff.mpr fun hne => ?_
  rw [h _ (List.getLast_mem hne)]
  decide

/-- A character that is no digit does not occur in the digits. -/
theorem notMem_encode {c : Char} (h : ∀ d, Hex.digit d ≠ c) (ds : List (Fin 16)) :
    c ∉ Hex.encode ds := by
  intro hmem
  obtain ⟨d, -, hd⟩ := List.mem_map.mp hmem
  exact h d hd

theorem readDigits_encode (d : Fin 16) (ds : List (Fin 16)) :
    readDigits (Hex.encode (d :: ds)) = some (d :: ds) := by
  induction ds generalizing d with
  | nil => simp [Hex.encode, readDigits, Hex.value_digit]
  | cons e ds ih =>
    have hnot : Hex.digit e ≠ '_' := by
      revert e
      decide
    have hrest := ih e
    rw [Hex.encode, List.map_cons] at hrest ⊢
    rw [List.map_cons, readDigits, Hex.value_digit]
    · simp only [hrest]
    · intro h
      cases h
    · intro rest h
      exact hnot (List.cons.inj h).1

theorem filter_hyphenate {cs : List Char} (h : '-' ∉ cs) :
    (hyphenate cs).filter (· ≠ '-') = cs := by
  have hkeep (part : List Char) (hpart : part.Sublist cs) : part.filter (· ≠ '-') = part := by
    refine List.filter_eq_self.mpr fun c hc => decide_eq_true ?_
    rintro rfl
    exact h (hpart.subset hc)
  have hcut (n : Nat) : (cs.drop n).take 4 ++ cs.drop (n + 4) = cs.drop n := by
    rw [← List.drop_drop, List.take_append_drop]
  have htake (n m : Nat) : ((cs.drop n).take m).Sublist cs :=
    (List.take_sublist m _).trans (List.drop_sublist n cs)
  have hhyphen (part : List Char) :
      ('-' :: part).filter (· ≠ '-') = part.filter (· ≠ '-') := by simp
  rw [hyphenate, List.append_assoc, List.append_assoc, List.append_assoc, List.filter_append,
    List.filter_append, List.filter_append, List.filter_append, hkeep _ (List.take_sublist 8 cs)]
  simp only [hhyphen, hkeep _ (htake _ _), hkeep _ (List.drop_sublist 20 cs)]
  rw [hcut 16, hcut 12, hcut 8, List.take_append_drop]

theorem dropSign_encode (ds : List (Fin 16)) : dropSign (Hex.encode ds) = Hex.encode ds := by
  have hplus := notMem_encode (c := '+') (by decide) ds
  unfold dropSign
  split
  · rename_i rest heq
    rw [heq] at hplus
    exact absurd List.mem_cons_self hplus
  · rfl

theorem dropBase_encode (ds : List (Fin 16)) : dropBase (Hex.encode ds) = Hex.encode ds := by
  have hlower := notMem_encode (c := 'x') (by decide) ds
  have hupper := notMem_encode (c := 'X') (by decide) ds
  unfold dropBase
  split
  · rename_i x rest heq
    rw [heq] at hlower hupper
    have hx : ¬(x = 'x' ∨ x = 'X') := by
      rintro (rfl | rfl)
      · exact hlower (by simp)
      · exact hupper (by simp)
    rw [if_neg hx, heq]
  · rfl

theorem readInt_encode {ds : List (Fin 16)} (h : ds ≠ []) :
    readInt unicode (Hex.encode ds) = some ds := by
  have hdigits : ∀ c ∈ Hex.encode ds, unicode.toAscii c = id c ∧ isSpace c = false := by
    have hall : ∀ d, (Hex.digit d).toNat < 128 ∧ isSpace (Hex.digit d) = false := by decide
    intro c hc
    obtain ⟨d, -, rfl⟩ := List.mem_map.mp hc
    exact ⟨unicode.toAscii_of_ascii _ (hall d).1, (hall d).2⟩
  rw [readInt, List.map_congr_left fun c hc => (hdigits c hc).1, List.map_id,
    strip_eq_self fun c hc => (hdigits c hc).2, dropSign_encode, dropBase_encode]
  cases ds with
  | nil => exact absurd rfl h
  | cons d ds => exact readDigits_encode d ds

/-- The canonical text denotes its UUID. -/
theorem ofHex_str (u : Uuid) : ofHex unicode u.str = some u := by
  have hhyphen := notMem_encode (c := '-') (by decide) u.digits
  have hnot {c : Char} (hdigit : ∀ d, Hex.digit d ≠ c) (hne : c ≠ '-') :
      c ∉ hyphenate (Hex.encode u.digits) := by
    intro hc
    have hmem : c ∈ (hyphenate (Hex.encode u.digits)).filter (· ≠ '-') :=
      List.mem_filter.mpr ⟨hc, decide_eq_true hne⟩
    rw [filter_hyphenate hhyphen] at hmem
    exact notMem_encode hdigit u.digits hmem
  have hu : 'u' ∉ hyphenate (Hex.encode u.digits) := hnot (by decide) (by decide)
  have hbrace : ∀ c ∈ hyphenate (Hex.encode u.digits), isBrace c = false := by
    intro c hc
    have hopen : c ≠ '{' := fun h => hnot (c := '{') (by decide) (by decide) (h ▸ hc)
    have hclose : c ≠ '}' := fun h => hnot (c := '}') (by decide) (by decide) (h ▸ hc)
    simp [isBrace, hopen, hclose]
  have hlength : (Hex.encode u.digits).length = 32 := by rw [Hex.length_encode, u.length_eq]
  have hne : u.digits ≠ [] := List.ne_nil_of_length_eq_add_one u.length_eq
  have hvalue : ofDigits u.digits = some u := by
    obtain ⟨digits, hdigits⟩ := u
    simp [ofDigits, hdigits]
  have hurn : removeAll "urn:".toList 0 (hyphenate (Hex.encode u.digits)) =
      hyphenate (Hex.encode u.digits) := removeAll_eq_self hu
  have huuid : removeAll "uuid:".toList 0 (hyphenate (Hex.encode u.digits)) =
      hyphenate (Hex.encode u.digits) := removeAll_eq_self hu
  simp only [ofHex, str, String.toList_ofList, hurn, huuid, strip_eq_self hbrace,
    filter_hyphenate hhyphen]
  rw [if_pos hlength, readInt_encode unicode hne, Option.bind_some, hvalue]

end Sutram.Core.Uuid
