/-
UUIDs and their text.

`str` is the canonical form of `str(uuid.UUID)`.  `parse` is what a pydantic field of
type UUID accepts from a string: 32 digits, the hyphenated form, and the hyphenated
form in braces or behind `urn:uuid:`.
-/
import Sutram.Library.Hex

namespace Sutram.Core

/-- A UUID as its 32 hexadecimal digits, the most significant first. -/
structure Uuid where
  digits : List (Fin 16)
  length_eq : digits.length = 32
deriving DecidableEq

namespace Uuid

def ofChars (cs : List Char) : Option Uuid :=
  match Hex.decode cs with
  | some ds => if h : ds.length = 32 then some ⟨ds, h⟩ else none
  | none => none

def hyphenate (cs : List Char) : List Char :=
  cs.take 8 ++ '-' :: (cs.drop 8).take 4 ++ '-' :: (cs.drop 12).take 4 ++
    '-' :: (cs.drop 16).take 4 ++ '-' :: cs.drop 20

def str (u : Uuid) : String := String.ofList (hyphenate (Hex.encode u.digits))

def parseHyphenated (cs : List Char) : Option Uuid :=
  if cs.length = 36 ∧ cs[8]? = some '-' ∧ cs[13]? = some '-' ∧ cs[18]? = some '-' ∧
      cs[23]? = some '-' then
    ofChars (cs.take 8 ++ (cs.drop 9).take 4 ++ (cs.drop 14).take 4 ++ (cs.drop 19).take 4 ++
      cs.drop 24)
  else none

def parse (s : String) : Option Uuid :=
  let cs := s.toList
  if cs.length = 32 then ofChars cs
  else if cs.length = 36 then parseHyphenated cs
  else if cs.length = 38 ∧ cs.head? = some '{' ∧ cs.getLast? = some '}' then
    parseHyphenated (cs.drop 1).dropLast
  else if cs.length = 45 ∧ cs.take 9 = "urn:uuid:".toList then parseHyphenated (cs.drop 9)
  else none

theorem ofChars_encode (u : Uuid) : ofChars (Hex.encode u.digits) = some u := by
  rw [ofChars, Hex.decode_encode]
  exact dif_pos u.length_eq

theorem length_hyphenate {cs : List Char} (h : cs.length = 32) : (hyphenate cs).length = 36 := by
  simp only [hyphenate, List.length_append, List.length_cons, List.length_take, List.length_drop, h]
  omega

/-- Thirty-two characters, cut where the hyphens go. -/
theorem split_groups {cs : List Char} (h : cs.length = 32) :
    ∃ a b c d e, cs = a ++ (b ++ (c ++ (d ++ e))) ∧ a.length = 8 ∧ b.length = 4 ∧
      c.length = 4 ∧ d.length = 4 ∧ e.length = 12 := by
  have hcut : ∀ n, (cs.drop n).take 4 ++ cs.drop (n + 4) = cs.drop n := by
    intro n
    rw [← List.drop_drop, List.take_append_drop]
  refine ⟨cs.take 8, (cs.drop 8).take 4, (cs.drop 12).take 4, (cs.drop 16).take 4, cs.drop 20,
    ?_, ?_, ?_, ?_, ?_, ?_⟩
  · rw [hcut 16, hcut 12, hcut 8, List.take_append_drop]
  all_goals simp [h]

/-- Taking the hyphens out again gives the digits back. -/
theorem parseHyphenated_hyphenate {cs : List Char} (h : cs.length = 32) :
    parseHyphenated (hyphenate cs) = ofChars cs := by
  have hlen := length_hyphenate h
  obtain ⟨a, b, c, d, e, rfl, ha, hb, hc, hd, he⟩ := split_groups h
  have hform : hyphenate (a ++ (b ++ (c ++ (d ++ e)))) =
      a ++ '-' :: (b ++ '-' :: (c ++ '-' :: (d ++ '-' :: e))) := by
    simp [hyphenate, List.drop_append, ha, hb, hc, hd, List.drop_of_length_le]
  rw [hform] at hlen ⊢
  unfold parseHyphenated
  simp [hlen, List.drop_append, ha, hb, hc, hd, List.drop_of_length_le]

theorem parse_str (u : Uuid) : parse (str u) = some u := by
  have hlen : (Hex.encode u.digits).length = 32 := by rw [Hex.length_encode, u.length_eq]
  have hlong := length_hyphenate hlen
  rw [parse, str, String.toList_ofList]
  simp only [hlong]
  rw [if_neg (by omega), if_pos trivial, parseHyphenated_hyphenate hlen, ofChars_encode]

theorem str_injective {u v : Uuid} (h : u.str = v.str) : u = v := by
  have hparse := parse_str u
  rw [h, parse_str] at hparse
  exact (Option.some.inj hparse).symm

theorem length_str (u : Uuid) : u.str.toList.length = 36 := by
  rw [str, String.toList_ofList]
  exact length_hyphenate (by rw [Hex.length_encode, u.length_eq])

/-- The text has a fixed length, so it can be read off a key that begins with it. -/
theorem begins_iff {front back : String} {t u : Uuid} {key : List Char}
    (h : (front ++ u.str ++ back).toList <+: key) :
    (front ++ t.str ++ back).toList <+: key ↔ t = u := by
  refine ⟨fun hkey => ?_, fun heq => heq ▸ h⟩
  have hlength (v : Uuid) :
      (front ++ v.str ++ back).toList.length = front.toList.length + (36 + back.toList.length) := by
    simp [length_str]
  have hsame := List.prefix_of_prefix_length_le hkey h (Nat.le_of_eq (by rw [hlength, hlength]))
  have heq := String.toList_injective (hsame.eq_of_length (by rw [hlength, hlength]))
  exact str_injective ((String.append_right_inj _).mp ((String.append_left_inj _).mp heq))

/-- The text has digits and hyphens only. -/
theorem mem_str {u : Uuid} {c : Char} (h : c ∈ u.str.toList) : c = '-' ∨ ∃ d, c = Hex.digit d := by
  have hdigits : ∀ c ∈ Hex.encode u.digits, ∃ d, c = Hex.digit d := fun c hc => by
    obtain ⟨d, -, rfl⟩ := List.mem_map.mp hc
    exact ⟨d, rfl⟩
  have htake {n m : Nat} (hc : c ∈ ((Hex.encode u.digits).drop n).take m) :
      ∃ d, c = Hex.digit d := hdigits c (List.mem_of_mem_drop (List.mem_of_mem_take hc))
  rw [str, String.toList_ofList, hyphenate] at h
  simp only [List.mem_append, List.mem_cons, or_assoc] at h
  rcases h with hc | rfl | hc | rfl | hc | rfl | hc | rfl | hc
  · exact .inr (hdigits c (List.mem_of_mem_take hc))
  · exact .inl rfl
  · exact .inr (htake hc)
  · exact .inl rfl
  · exact .inr (htake hc)
  · exact .inl rfl
  · exact .inr (htake hc)
  · exact .inl rfl
  · exact .inr (hdigits c (List.mem_of_mem_drop hc))

/-- The UUID whose 32 digits are all `d`. -/
def repdigit (d : Fin 16) : Uuid := ⟨List.replicate 32 d, List.length_replicate⟩

/-- The nil UUID. -/
def nil : Uuid := repdigit 0

end Uuid

end Sutram.Core
