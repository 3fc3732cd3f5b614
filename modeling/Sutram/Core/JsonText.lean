/-
`json.loads`.

The decoder of the standard library: white space between tokens, and the last value of a
key that comes twice.  What `dumps` writes, with any separators it is given here, is read
back as it was.
-/
import Mathlib.Data.Bool.AllAny
import Sutram.Core.JsonScan

namespace Sutram.Core.Json

/-! ## Values -/

def isSpace (c : Char) : Bool := c = ' ' ∨ c = '\t' ∨ c = '\n' ∨ c = '\r'

def skipSpace (cs : List Char) : List Char := cs.dropWhile isSpace

/-- The words of the decoder. -/
def literals : List (List Char × Json) :=
  [("null".toList, .null), ("true".toList, .bool true), ("false".toList, .bool false),
    ("NaN".toList, .float "nan"), ("Infinity".toList, .float "inf"),
    ("-Infinity".toList, .float "-inf")]

/-- The text behind a delimiter, if it stands there. -/
def expect (d : Char) (cs : List Char) : Option (List Char) :=
  match cs with
  | [] => none
  | c :: rest => if c = d then some rest else none

section Parse

variable (float : String → String)

mutual
/-- A value in front of the text, and what is left.  The first argument bounds the
recursion. -/
def parseValue : Nat → List Char → Option (Json × List Char)
  | 0, _ => none
  | _ + 1, [] => none
  | n + 1, c :: cs =>
    if c = '"' then (scanString cs).map fun r => (.str r.1, r.2)
    else if c = '[' then
      match expect ']' (skipSpace cs) with
      | some rest => some (.list [], rest)
      | none => (parseItems n (skipSpace cs)).map fun r => (.list r.1, r.2)
    else if c = '\x7b' then
      match expect '\x7d' (skipSpace cs) with
      | some rest => some (.dict [], rest)
      | none =>
        (parseEntries n (skipSpace cs)).map fun r => (.dict (Dict.ofPairs r.1).entries, r.2)
    else
      match literals.find? fun l => l.1.isPrefixOf (c :: cs) with
      | some l => some (l.2, (c :: cs).drop l.1.length)
      | none => scanNumber float (c :: cs)

/-- The items of a list and its end. -/
def parseItems : Nat → List Char → Option (List Json × List Char)
  | 0, _ => none
  | n + 1, cs =>
    (parseValue n cs).bind fun r =>
      match expect ']' (skipSpace r.2) with
      | some rest => some ([r.1], rest)
      | none =>
        (expect ',' (skipSpace r.2)).bind fun rest =>
          (parseItems n (skipSpace rest)).map fun s => (r.1 :: s.1, s.2)

/-- The entries of a dict and its end. -/
def parseEntries : Nat → List Char → Option (List (String × Json) × List Char)
  | 0, _ => none
  | n + 1, cs =>
    (expect '"' cs).bind fun cs => (scanString cs).bind fun k =>
      (expect ':' (skipSpace k.2)).bind fun cs => (parseValue n (skipSpace cs)).bind fun r =>
        match expect '\x7d' (skipSpace r.2) with
        | some rest => some ([(k.1, r.1)], rest)
        | none =>
          (expect ',' (skipSpace r.2)).bind fun rest =>
            (parseEntries n (skipSpace rest)).map fun s => ((k.1, r.1) :: s.1, s.2)
end

def loads (text : String) : Option Json :=
  (parseValue float (text.toList.length + 1) (skipSpace text.toList)).bind fun r =>
    if skipSpace r.2 = [] then some r.1 else none

end Parse

/-! ## What is read back -/

mutual
/-- A value whose floats are finite and whose dicts have no key twice. -/
def Plain (float : String → String) : Json → Prop
  | .null | .bool _ | .int _ | .str _ => True
  | .float r => FloatText r ∧ float r = r
  | .list xs => PlainItems float xs
  | .dict kvs => (kvs.map Prod.fst).Nodup ∧ PlainEntries float kvs

def PlainItems (float : String → String) : List Json → Prop
  | [] => True
  | x :: xs => Plain float x ∧ PlainItems float xs

def PlainEntries (float : String → String) : List (String × Json) → Prop
  | [] => True
  | (_, x) :: es => Plain float x ∧ PlainEntries float es
end

mutual
/-- How deep the parser goes. -/
def size : Json → Nat
  | .null | .bool _ | .int _ | .float _ | .str _ => 1
  | .list xs => 1 + sizeItems xs
  | .dict kvs => 1 + sizeEntries kvs

def sizeItems : List Json → Nat
  | [] => 0
  | x :: xs => 1 + size x + sizeItems xs

def sizeEntries : List (String × Json) → Nat
  | [] => 0
  | (_, x) :: es => 1 + size x + sizeEntries es
end

/-- Separators that the decoder takes: the delimiter and white space. -/
structure Separators (item key : String) : Prop where
  item : ∃ ws, item.toList = ',' :: ws ∧ ∀ c ∈ ws, isSpace c
  key : ∃ ws, key.toList = ':' :: ws ∧ ∀ c ∈ ws, isSpace c

/-- A text that begins with a value. -/
def Opens (cs : List Char) : Prop := ∃ c rest, cs = c :: rest ∧ isSpace c = false ∧ c ≠ ']'

variable {float : String → String} {item key : String}

/-! ### Beginnings -/

theorem skipSpace_of_opens {cs : List Char} (h : Opens cs) : skipSpace cs = cs := by
  obtain ⟨c, rest, rfl, hc, -⟩ := h
  simp [skipSpace, hc]

theorem skipSpace_append {ws cs : List Char} (hws : ∀ c ∈ ws, isSpace c) (h : Opens cs) :
    skipSpace (ws ++ cs) = cs := by
  rw [skipSpace, List.dropWhile_append_of_pos hws]
  exact skipSpace_of_opens h

theorem Opens.append {cs : List Char} (h : Opens cs) (rest : List Char) : Opens (cs ++ rest) := by
  obtain ⟨c, tail, rfl, hc⟩ := h
  exact ⟨c, tail ++ rest, rfl, hc⟩

theorem toList_quote (s : String) :
    (quote s).toList = '"' :: (s.toList.flatMap escapeChar ++ ['"']) := by
  simp [quote]

theorem opens_quote (s : String) : Opens (quote s).toList := by
  rw [toList_quote]
  exact ⟨'"', _, rfl, by decide, by decide⟩

theorem opens_digit {c : Char} (h : c.isDigit) (rest : List Char) : Opens (c :: rest) := by
  refine ⟨c, rest, rfl, ?_, ?_⟩
  · have hspace : ∀ d, d = ' ' ∨ d = '\t' ∨ d = '\n' ∨ d = '\r' → ¬ d.isDigit := by
      rintro d (rfl | rfl | rfl | rfl) <;> decide
    exact decide_eq_false fun hc => hspace c hc h
  · rintro rfl
    exact absurd h (by decide)

theorem opens_number {sign whole rest : List Char} (hsign : sign = [] ∨ sign = ['-'])
    (hwhole : WholeText whole) : Opens (sign ++ (whole ++ rest)) := by
  rcases hsign with rfl | rfl
  · cases whole with
    | nil => exact absurd rfl hwhole.ne_nil
    | cons c ds => exact opens_digit (hwhole.digits c List.mem_cons_self) _
  · exact ⟨'-', whole ++ rest, rfl, by decide, by decide⟩

/-- The text of an integer. -/
theorem toList_toString_int (n : Int) : ∃ sign whole, (toString n).toList = sign ++ (whole ++ []) ∧
    (sign = [] ∨ sign = ['-']) ∧ WholeText whole := by
  cases n with
  | ofNat m =>
    refine ⟨[], Nat.toDigits 10 m, ?_, .inl rfl, wholeText_toDigits m⟩
    rw [List.nil_append, List.append_nil, ← Nat.toList_repr]
    rfl
  | negSucc m =>
    refine ⟨['-'], Nat.toDigits 10 (m + 1), ?_, .inr rfl, wholeText_toDigits (m + 1)⟩
    rw [List.append_nil, ← Nat.toList_repr, Int.toString_eq_repr, Int.repr_eq_if,
      if_neg (Int.negSucc_not_nonneg m).mp, String.toList_append]
    rfl

theorem opens_dumpsWith {j : Json} (h : Plain float j) : Opens (dumpsWith item key j).toList := by
  cases j with
  | null =>
    rw [dumpsWith]
    exact ⟨'n', "ull".toList, rfl, by decide, by decide⟩
  | bool b =>
    rw [dumpsWith]
    cases b
    · exact ⟨'f', "alse".toList, rfl, by decide, by decide⟩
    · exact ⟨'t', "rue".toList, rfl, by decide, by decide⟩
  | int n =>
    obtain ⟨sign, whole, htext, hsign, hwhole⟩ := toList_toString_int n
    rw [dumpsWith, htext]
    exact opens_number hsign hwhole
  | float r =>
    rw [Plain] at h
    obtain ⟨⟨sign, whole, frac, exp, htext, hsign, hwhole, -⟩, -⟩ := h
    rw [dumpsWith, htext]
    exact opens_number hsign hwhole
  | str s =>
    rw [dumpsWith]
    exact opens_quote s
  | list xs =>
    rw [dumpsWith]
    simp only [String.toList_append]
    exact ⟨'[', _, rfl, by decide, by decide⟩
  | dict kvs =>
    rw [dumpsWith]
    simp only [String.toList_append]
    exact ⟨'\x7b', _, rfl, by decide, by decide⟩

/-! ### Single values -/

theorem parseValue_quote (n : Nat) (s : String) (rest : List Char) :
    parseValue float (n + 1) ((quote s).toList ++ rest) = some (.str s, rest) := by
  have hscan := scanString_quote s rest
  rw [toList_quote]
  simp [parseValue, hscan]

theorem parseValue_number (n : Nat) {sign whole rest : List Char} (hsign : sign = [] ∨ sign = ['-'])
    (hwhole : WholeText whole) :
    parseValue float (n + 1) (sign ++ (whole ++ rest)) =
      scanNumber float (sign ++ (whole ++ rest)) := by
  cases whole with
  | nil => exact absurd rfl hwhole.ne_nil
  | cons d ds =>
    have hd := hwhole.digits d List.mem_cons_self
    have hne : ∀ c, ¬ c.isDigit → d ≠ c := by
      rintro c hc rfl
      exact hc hd
    rcases hsign with rfl | rfl
    · have hnone : (literals.find? fun l => l.1.isPrefixOf (d :: (ds ++ rest))) = none := by
        rw [List.find?_eq_none]
        intro l hl
        simp only [literals, List.mem_cons, List.not_mem_nil, or_false] at hl
        rcases hl with rfl | rfl | rfl | rfl | rfl | rfl <;>
          simp [List.isPrefixOf, (hne _ _).symm]
      simp only [List.nil_append, List.cons_append, parseValue, hnone]
      rw [if_neg (hne _ (by decide)), if_neg (hne _ (by decide)), if_neg (hne _ (by decide))]
    · have hnone : (literals.find? fun l => l.1.isPrefixOf ('-' :: d :: (ds ++ rest))) = none := by
        rw [List.find?_eq_none]
        intro l hl
        simp only [literals, List.mem_cons, List.not_mem_nil, or_false] at hl
        rcases hl with rfl | rfl | rfl | rfl | rfl | rfl <;>
          simp [List.isPrefixOf]
        exact fun hI => absurd hI.symm (hne 'I' (by decide))
      simp [parseValue, hnone]

/-- A word that is no number. -/
theorem parseValue_literal (n : Nat) {l : List Char × Json} (hl : l ∈ literals.take 3)
    (rest : List Char) : parseValue float (n + 1) (l.1 ++ rest) = some (l.2, rest) := by
  simp only [literals, List.take, List.mem_cons, List.not_mem_nil, or_false] at hl
  rcases hl with rfl | rfl | rfl <;> simp [parseValue, literals, List.isPrefixOf]

/-! ### Lists and dicts -/

theorem ends_cons {c : Char} (hc : ¬ c.isDigit ∧ c ≠ '.' ∧ c ≠ 'e' ∧ c ≠ 'E') (cs : List Char) :
    Ends (c :: cs) := by
  intro d hd
  obtain rfl : c = d := by simpa using hd
  exact hc

theorem ends_item (hsep : Separators item key) (cs : List Char) : Ends (item.toList ++ cs) := by
  obtain ⟨ws, hitem, -⟩ := hsep.item
  rw [hitem]
  exact ends_cons (by decide) _

theorem expect_self (d : Char) (cs : List Char) : expect d (d :: cs) = some cs := by
  simp [expect]

/-- Behind an item: the separator, and the next one. -/
theorem expect_item (hsep : Separators item key) {d : Char} (hd : d ≠ ',') {cs : List Char}
    (hcs : Opens cs) :
    expect d (skipSpace (item.toList ++ cs)) = none ∧
      ∃ rest, expect ',' (skipSpace (item.toList ++ cs)) = some rest ∧ skipSpace rest = cs := by
  obtain ⟨ws, hitem, hws⟩ := hsep.item
  have hskip : skipSpace (item.toList ++ cs) = ',' :: (ws ++ cs) := by
    rw [hitem]
    exact skipSpace_of_opens ⟨',', _, rfl, by decide, by decide⟩
  rw [hskip]
  exact ⟨if_neg (Ne.symm hd), ws ++ cs, expect_self ',' _, skipSpace_append hws hcs⟩

theorem expect_key (hsep : Separators item key) {cs : List Char} (hcs : Opens cs) :
    ∃ rest, expect ':' (skipSpace (key.toList ++ cs)) = some rest ∧ skipSpace rest = cs := by
  obtain ⟨ws, hkey, hws⟩ := hsep.key
  have hskip : skipSpace (key.toList ++ cs) = ':' :: (ws ++ cs) := by
    rw [hkey]
    exact skipSpace_of_opens ⟨':', _, rfl, by decide, by decide⟩
  rw [hskip]
  exact ⟨ws ++ cs, expect_self ':' _, skipSpace_append hws hcs⟩

theorem skipSpace_cons {d : Char} (hd : isSpace d = false) (cs : List Char) :
    skipSpace (d :: cs) = d :: cs := by
  simp [skipSpace, hd]

theorem opens_items {x : Json} {xs : List Json} (h : Plain float x) :
    Opens (dumpsItemsWith item key (x :: xs)).toList := by
  cases xs with
  | nil =>
    rw [dumpsItemsWith]
    exact opens_dumpsWith h
  | cons y xs =>
    rw [dumpsItemsWith]
    simp only [String.toList_append, List.append_assoc]
    exact (opens_dumpsWith h).append _

/-- The entries begin with the quote of the first key. -/
theorem toList_entries (item key : String) (e : String × Json) (es : List (String × Json)) :
    ∃ tail, (dumpsEntriesWith item key (e :: es)).toList = '"' :: tail := by
  cases es <;> exact ⟨_, by simp only [dumpsEntriesWith, String.toList_append, toList_quote]; rfl⟩

theorem opens_entries (e : String × Json) (es : List (String × Json)) :
    Opens (dumpsEntriesWith item key (e :: es)).toList := by
  obtain ⟨tail, htail⟩ := toList_entries item key e es
  rw [htail]
  exact ⟨'"', tail, rfl, by decide, by decide⟩

theorem parseValue_list (n : Nat) (cs : List Char) :
    parseValue float (n + 1) ('[' :: cs) =
      match expect ']' (skipSpace cs) with
      | some rest => some (.list [], rest)
      | none => (parseItems float n (skipSpace cs)).map fun r => (.list r.1, r.2) := by
  rw [parseValue, if_neg (by decide), if_pos rfl]

theorem parseValue_dict (n : Nat) (cs : List Char) :
    parseValue float (n + 1) ('\x7b' :: cs) =
      match expect '\x7d' (skipSpace cs) with
      | some rest => some (.dict [], rest)
      | none =>
        (parseEntries float n (skipSpace cs)).map fun r =>
          (.dict (Dict.ofPairs r.1).entries, r.2) := by
  rw [parseValue, if_neg (by decide), if_neg (by decide), if_pos rfl]

/-- One item has been read, and the list ends. -/
theorem parseItems_last {n : Nat} {cs rest : List Char} {x : Json}
    (hx : parseValue float n cs = some (x, ']' :: rest)) :
    parseItems float (n + 1) cs = some ([x], rest) := by
  simp only [parseItems, hx, Option.bind_some, skipSpace_cons (d := ']') (by decide), expect_self]

/-- One item has been read, and the next one follows. -/
theorem parseItems_more (hsep : Separators item key) {n : Nat} {cs rest more : List Char} {x : Json}
    {xs : List Json} (hx : parseValue float n cs = some (x, item.toList ++ more))
    (hmore : Opens more) (hxs : parseItems float n more = some (xs, rest)) :
    parseItems float (n + 1) cs = some (x :: xs, rest) := by
  obtain ⟨hend, tail, hitem, htail⟩ := expect_item hsep (d := ']') (by decide) hmore
  simp only [parseItems, hx, Option.bind_some, hend, hitem, htail, hxs, Option.map_some]

/-- The key of an entry has been read, and its value follows. -/
theorem parseEntries_key (hsep : Separators item key) (n : Nat) (k : String) {cs : List Char}
    (hcs : Opens cs) :
    parseEntries float (n + 1) ((quote k).toList ++ (key.toList ++ cs)) =
      (parseValue float n cs).bind fun r =>
        match expect '\x7d' (skipSpace r.2) with
        | some rest => some ([(k, r.1)], rest)
        | none =>
          (expect ',' (skipSpace r.2)).bind fun rest =>
            (parseEntries float n (skipSpace rest)).map fun s => ((k, r.1) :: s.1, s.2) := by
  obtain ⟨tail, hkey, htail⟩ := expect_key hsep hcs
  have hscan := scanString_quote k (key.toList ++ cs)
  rw [toList_quote]
  simp only [List.cons_append, List.append_assoc, List.nil_append, parseEntries, expect_self,
    Option.bind_some, hscan, hkey, htail]

mutual
/-- A value that has been written is read back, and what stands behind it is left. -/
theorem parse_dumpsWith (hsep : Separators item key) : (j : Json) → Plain float j →
    ∀ {n : Nat}, size j ≤ n → ∀ {rest : List Char}, Ends rest →
      parseValue float n ((dumpsWith item key j).toList ++ rest) = some (j, rest)
  | .null, _, n, hn, rest, _ => by
    obtain ⟨n, rfl⟩ : ∃ m, n = m + 1 := ⟨n - 1, by rw [size] at hn; omega⟩
    rw [dumpsWith]
    exact parseValue_literal n (l := ("null".toList, .null)) (by simp [literals]) rest
  | .bool b, _, n, hn, rest, _ => by
    obtain ⟨n, rfl⟩ : ∃ m, n = m + 1 := ⟨n - 1, by rw [size] at hn; omega⟩
    rw [dumpsWith]
    cases b
    · exact parseValue_literal n (l := ("false".toList, .bool false)) (by simp [literals]) rest
    · exact parseValue_literal n (l := ("true".toList, .bool true)) (by simp [literals]) rest
  | .int k, _, n, hn, rest, hrest => by
    obtain ⟨n, rfl⟩ : ∃ m, n = m + 1 := ⟨n - 1, by rw [size] at hn; omega⟩
    obtain ⟨sign, whole, htext, hsign, hwhole⟩ := toList_toString_int k
    rw [dumpsWith, ← scanNumber_int float k hrest, htext]
    simp only [List.append_assoc]
    exact parseValue_number n hsign hwhole
  | .float r, h, n, hn, rest, hrest => by
    obtain ⟨n, rfl⟩ : ∃ m, n = m + 1 := ⟨n - 1, by rw [size] at hn; omega⟩
    rw [Plain] at h
    obtain ⟨sign, whole, frac, exp, htext, hsign, hwhole, -⟩ := h.1
    rw [dumpsWith, ← scanNumber_float h.1 h.2 hrest, htext]
    simp only [List.append_assoc]
    exact parseValue_number n hsign hwhole
  | .str s, _, n, hn, rest, _ => by
    obtain ⟨n, rfl⟩ : ∃ m, n = m + 1 := ⟨n - 1, by rw [size] at hn; omega⟩
    rw [dumpsWith]
    exact parseValue_quote n s rest
  | .list [], _, n, hn, rest, _ => by
    obtain ⟨n, rfl⟩ : ∃ m, n = m + 1 := ⟨n - 1, by rw [size] at hn; omega⟩
    have htext : (dumpsWith item key (.list [])).toList ++ rest = '[' :: ']' :: rest := by
      simp [dumpsWith, dumpsItemsWith]
    rw [htext, parseValue_list, skipSpace_cons (d := ']') (by decide), expect_self]
  | .list (x :: xs), h, n, hn, rest, _ => by
    obtain ⟨n, rfl⟩ : ∃ m, n = m + 1 := ⟨n - 1, by rw [size] at hn; omega⟩
    have htext : (dumpsWith item key (.list (x :: xs))).toList ++ rest =
        '[' :: ((dumpsItemsWith item key (x :: xs)).toList ++ ']' :: rest) := by
      simp [dumpsWith]
    rw [Plain] at h
    have hopens : Opens ((dumpsItemsWith item key (x :: xs)).toList ++ ']' :: rest) :=
      (opens_items (by rw [PlainItems] at h; exact h.1)).append _
    have hitems := parse_dumpsItemsWith hsep x xs h (n := n)
      (by simp only [size, sizeItems] at hn ⊢; omega) rest
    have hnone : expect ']' ((dumpsItemsWith item key (x :: xs)).toList ++ ']' :: rest) = none := by
      obtain ⟨c, tail, hcons, -, hc⟩ := hopens
      rw [hcons]
      exact if_neg hc
    rw [htext, parseValue_list, skipSpace_of_opens hopens, hnone]
    simp only [hitems, Option.map_some]
  | .dict [], _, n, hn, rest, _ => by
    obtain ⟨n, rfl⟩ : ∃ m, n = m + 1 := ⟨n - 1, by rw [size] at hn; omega⟩
    have htext : (dumpsWith item key (.dict [])).toList ++ rest = '\x7b' :: '\x7d' :: rest := by
      simp [dumpsWith, dumpsEntriesWith]
    rw [htext, parseValue_dict, skipSpace_cons (d := '\x7d') (by decide), expect_self]
  | .dict (e :: es), h, n, hn, rest, _ => by
    obtain ⟨n, rfl⟩ : ∃ m, n = m + 1 := ⟨n - 1, by rw [size] at hn; omega⟩
    have htext : (dumpsWith item key (.dict (e :: es))).toList ++ rest =
        '\x7b' :: ((dumpsEntriesWith item key (e :: es)).toList ++ '\x7d' :: rest) := by
      simp [dumpsWith]
    rw [Plain] at h
    have hopens : Opens ((dumpsEntriesWith item key (e :: es)).toList ++ '\x7d' :: rest) :=
      (opens_entries e es).append _
    have hentries := parse_dumpsEntriesWith hsep e es h.2 (n := n)
      (by simp only [size] at hn; omega) rest
    have hnone : expect '\x7d' ((dumpsEntriesWith item key (e :: es)).toList ++ '\x7d' :: rest) =
        none := by
      obtain ⟨tail, htail⟩ := toList_entries item key e es
      rw [htail]
      simp [expect]
    rw [htext, parseValue_dict, skipSpace_of_opens hopens, hnone]
    simp only [hentries, Option.map_some, Dict.ofPairs_entries h.1]

theorem parse_dumpsItemsWith (hsep : Separators item key) : (x : Json) → (xs : List Json) →
    PlainItems float (x :: xs) → ∀ {n : Nat}, sizeItems (x :: xs) ≤ n → ∀ rest : List Char,
      parseItems float n ((dumpsItemsWith item key (x :: xs)).toList ++ ']' :: rest) =
        some (x :: xs, rest)
  | x, [], h, n, hn, rest => by
    obtain ⟨n, rfl⟩ : ∃ m, n = m + 1 := ⟨n - 1, by rw [sizeItems] at hn; omega⟩
    rw [PlainItems] at h
    rw [dumpsItemsWith]
    simp only [sizeItems] at hn
    exact parseItems_last (parse_dumpsWith hsep x h.1 (by omega) (ends_cons (by decide) _))
  | x, y :: xs, h, n, hn, rest => by
    obtain ⟨n, rfl⟩ : ∃ m, n = m + 1 := ⟨n - 1, by rw [sizeItems] at hn; omega⟩
    rw [PlainItems] at h
    rw [sizeItems] at hn
    rw [dumpsItemsWith]
    simp only [String.toList_append, List.append_assoc]
    have hopens : Opens ((dumpsItemsWith item key (y :: xs)).toList ++ ']' :: rest) :=
      (opens_items (by have := h.2; rw [PlainItems] at this; exact this.1)).append _
    exact parseItems_more hsep (parse_dumpsWith hsep x h.1 (by omega) (ends_item hsep _)) hopens
      (parse_dumpsItemsWith hsep y xs h.2 (by omega) rest)

theorem parse_dumpsEntriesWith (hsep : Separators item key) : (e : String × Json) →
    (es : List (String × Json)) → PlainEntries float (e :: es) →
    ∀ {n : Nat}, sizeEntries (e :: es) ≤ n → ∀ rest : List Char,
      parseEntries float n ((dumpsEntriesWith item key (e :: es)).toList ++ '\x7d' :: rest) =
        some (e :: es, rest)
  | (k, x), [], h, n, hn, rest => by
    obtain ⟨n, rfl⟩ : ∃ m, n = m + 1 := ⟨n - 1, by rw [sizeEntries] at hn; omega⟩
    rw [PlainEntries] at h
    rw [sizeEntries] at hn
    have hend : Ends ('\x7d' :: rest) := ends_cons (by decide) rest
    have hx := parse_dumpsWith hsep x h.1 (n := n) (by omega) hend
    rw [dumpsEntriesWith]
    simp only [String.toList_append, List.append_assoc]
    rw [parseEntries_key hsep n k ((opens_dumpsWith h.1).append _)]
    simp only [hx, Option.bind_some, skipSpace_cons (d := '\x7d') (by decide), expect_self]
  | (k, x), e :: es, h, n, hn, rest => by
    obtain ⟨n, rfl⟩ : ∃ m, n = m + 1 := ⟨n - 1, by rw [sizeEntries] at hn; omega⟩
    rw [PlainEntries] at h
    rw [sizeEntries] at hn
    have hopens : Opens ((dumpsEntriesWith item key (e :: es)).toList ++ '\x7d' :: rest) :=
      (opens_entries e es).append _
    have hx := parse_dumpsWith hsep x h.1 (n := n) (by omega) (ends_item hsep
      ((dumpsEntriesWith item key (e :: es)).toList ++ '\x7d' :: rest))
    have hes := parse_dumpsEntriesWith hsep e es h.2 (n := n) (by omega) rest
    obtain ⟨hend, tail, hitem, htail⟩ := expect_item hsep (d := '\x7d') (by decide) hopens
    rw [dumpsEntriesWith]
    simp only [String.toList_append, List.append_assoc]
    rw [parseEntries_key hsep n k ((opens_dumpsWith h.1).append _)]
    simp only [hx, Option.bind_some, hend, hitem, htail, hes, Option.map_some]
end

/-! ### The bound -/

theorem length_pos_of_opens {cs : List Char} (h : Opens cs) : 1 ≤ cs.length := by
  obtain ⟨c, rest, rfl, -⟩ := h
  exact Nat.succ_le_succ (Nat.zero_le _)

mutual
/-- The parser goes no deeper than the text is long. -/
theorem size_le (hsep : Separators item key) : (j : Json) → Plain float j →
    size j ≤ (dumpsWith item key j).toList.length
  | .null, h => length_pos_of_opens (opens_dumpsWith h)
  | .bool _, h => length_pos_of_opens (opens_dumpsWith h)
  | .int _, h => length_pos_of_opens (opens_dumpsWith h)
  | .float _, h => length_pos_of_opens (opens_dumpsWith h)
  | .str _, h => length_pos_of_opens (opens_dumpsWith h)
  | .list xs, h => by
    rw [Plain] at h
    have := sizeItems_le hsep xs h
    simp only [size, dumpsWith, String.toList_append, List.length_append]
    have hopen : "[".toList.length = 1 := rfl
    have hclose : "]".toList.length = 1 := rfl
    omega
  | .dict kvs, h => by
    rw [Plain] at h
    have := sizeEntries_le hsep kvs h.2
    simp only [size, dumpsWith, String.toList_append, List.length_append]
    have hopen : "\x7b".toList.length = 1 := rfl
    have hclose : "\x7d".toList.length = 1 := rfl
    omega

theorem sizeItems_le (hsep : Separators item key) : (xs : List Json) → PlainItems float xs →
    sizeItems xs ≤ (dumpsItemsWith item key xs).toList.length + 1
  | [], _ => by simp [sizeItems]
  | [x], h => by
    rw [PlainItems] at h
    have := size_le hsep x h.1
    simp only [sizeItems, dumpsItemsWith]
    omega
  | x :: y :: xs, h => by
    rw [PlainItems] at h
    have hx := size_le hsep x h.1
    have hxs := sizeItems_le hsep (y :: xs) h.2
    obtain ⟨ws, hitem, -⟩ := hsep.item
    rw [sizeItems]
    simp only [dumpsItemsWith, String.toList_append, List.length_append, hitem, List.length_cons]
    omega

theorem sizeEntries_le (hsep : Separators item key) : (es : List (String × Json)) →
    PlainEntries float es → sizeEntries es ≤ (dumpsEntriesWith item key es).toList.length + 1
  | [], _ => by simp [sizeEntries]
  | [(k, x)], h => by
    rw [PlainEntries] at h
    have := size_le hsep x h.1
    simp only [sizeEntries, dumpsEntriesWith, String.toList_append, List.length_append]
    omega
  | (k, x) :: e :: es, h => by
    rw [PlainEntries] at h
    have hx := size_le hsep x h.1
    have hes := sizeEntries_le hsep (e :: es) h.2
    obtain ⟨ws, hitem, -⟩ := hsep.item
    rw [sizeEntries]
    simp only [dumpsEntriesWith, String.toList_append, List.length_append, hitem, List.length_cons]
    omega
end

/-- What has been written with the separators is read back. -/
theorem loads_dumpsWith (hsep : Separators item key) {j : Json} (h : Plain float j) :
    loads float (dumpsWith item key j) = some j := by
  have hopens : Opens (dumpsWith item key j).toList := opens_dumpsWith h
  have hend : Ends [] := nofun
  have hparse := parse_dumpsWith hsep j h (n := (dumpsWith item key j).toList.length + 1)
    (Nat.le_succ_of_le (size_le hsep j h)) hend
  rw [List.append_nil] at hparse
  rw [loads, skipSpace_of_opens hopens, hparse]
  rfl

/-- The default separators, and those of the webhook bodies. -/
theorem separators_default : Separators ", " ": " where
  item := ⟨[' '], rfl, List.all_iff_forall_prop.mp (by decide)⟩
  key := ⟨[' '], rfl, List.all_iff_forall_prop.mp (by decide)⟩

theorem separators_compact : Separators "," ":" where
  item := ⟨[], rfl, nofun⟩
  key := ⟨[], rfl, nofun⟩

theorem loads_dumps {j : Json} (h : Plain float j) : loads float (dumps j) = some j := by
  rw [← dumpsWith_default]
  exact loads_dumpsWith separators_default h

/-! ## ASCII -/

/-- The characters of what is written: `ensure_ascii`, and no control character. -/
def Printable (c : Char) : Prop := 32 ≤ c.toNat ∧ c.toNat < 127

instance : DecidablePred Printable := fun _ => inferInstanceAs (Decidable (_ ∧ _))

theorem printable_hexDigit : ∀ d : Fin 16, Printable (hexDigit d.val) := by decide

theorem printable_escapeUnit {n : Nat} {c : Char} (h : c ∈ escapeUnit n) : Printable c := by
  have hdigit (m : Nat) : Printable (hexDigit (m % 16)) := printable_hexDigit ⟨m % 16, by omega⟩
  simp only [escapeUnit, List.mem_cons, List.not_mem_nil, or_false] at h
  rcases h with rfl | rfl | rfl | rfl | rfl | rfl
  · decide
  · decide
  · exact hdigit _
  · exact hdigit _
  · exact hdigit _
  · exact hdigit _

theorem printable_escapeChar {c d : Char} (h : d ∈ escapeChar c) : Printable d := by
  have hshort : ∀ e, Printable e → d ∈ ['\\', e] → Printable d := by
    intro e he hd
    simp only [List.mem_cons, List.not_mem_nil, or_false] at hd
    rcases hd with rfl | rfl
    · decide
    · exact he
  unfold escapeChar at h
  split at h
  · exact hshort _ (by decide) h
  split at h
  · exact hshort _ (by decide) h
  split at h
  · exact hshort _ (by decide) h
  split at h
  · exact hshort _ (by decide) h
  split at h
  · exact hshort _ (by decide) h
  split at h
  · exact hshort _ (by decide) h
  split at h
  · exact hshort _ (by decide) h
  split at h
  · rename_i hprint
    rw [List.mem_singleton.mp h]
    exact hprint
  split at h
  · exact printable_escapeUnit h
  · rcases List.mem_append.mp h with h | h <;> exact printable_escapeUnit h

theorem printable_quote {s : String} {c : Char} (h : c ∈ (quote s).toList) : Printable c := by
  rw [toList_quote] at h
  simp only [List.mem_cons, List.mem_append, List.mem_flatMap, List.not_mem_nil, or_false] at h
  rcases h with rfl | ⟨d, -, hd⟩ | rfl
  · decide
  · exact printable_escapeChar hd
  · decide

theorem printable_digit {c : Char} (h : c.isDigit) : Printable c := by
  have hdigit := Char.isDigit_iff_toNat.mp h
  have hzero : '0'.toNat = 48 := rfl
  have hnine : '9'.toNat = 57 := rfl
  exact ⟨by omega, by omega⟩

/-- A sign and digits. -/
theorem printable_signed {sign ds : List Char} (hsign : sign = [] ∨ sign = ['-'] ∨ sign = ['+'])
    (hds : ∀ c ∈ ds, c.isDigit) {c : Char} (h : c ∈ sign ++ ds) : Printable c := by
  rcases List.mem_append.mp h with h | h
  · rcases hsign with rfl | rfl | rfl
    · cases h
    · rw [List.mem_singleton.mp h]
      decide
    · rw [List.mem_singleton.mp h]
      decide
  · exact printable_digit (hds c h)

theorem printable_float {r : String} (h : FloatText r) {c : Char} (hc : c ∈ r.toList) :
    Printable c := by
  obtain ⟨sign, whole, frac, exp, htext, hsign, hwhole, hfrac, hexp, -⟩ := h
  rw [htext, ← List.append_assoc] at hc
  rcases List.mem_append.mp hc with hc | hc
  · exact printable_signed (hsign.imp_right .inl) hwhole.digits hc
  rcases List.mem_append.mp hc with hc | hc
  · rcases hfrac.text with rfl | ⟨ds, rfl, -, hds⟩
    · cases hc
    rcases List.mem_cons.mp hc with rfl | hc
    · decide
    · exact printable_digit (hds c hc)
  · rcases hexp.text with rfl | ⟨sign', ds, rfl, hsign', -, hds⟩
    · cases hc
    rcases List.mem_cons.mp hc with rfl | hc
    · decide
    · exact printable_signed (.inr hsign') hds hc

mutual
theorem printable_dumps : (j : Json) → Plain float j → ∀ c ∈ (dumps j).toList, Printable c
  | .null, _ => by
    rw [dumps]
    exact List.all_iff_forall_prop.mp (by decide)
  | .bool b, _ => by
    rw [dumps]
    cases b <;> exact List.all_iff_forall_prop.mp (by decide)
  | .int n, _ => by
    intro c hc
    obtain ⟨sign, whole, htext, hsign, hwhole⟩ := toList_toString_int n
    rw [dumps, htext, List.append_nil] at hc
    exact printable_signed (hsign.imp_right .inl) hwhole.digits hc
  | .float r, h => by
    intro c hc
    rw [Plain] at h
    rw [dumps] at hc
    exact printable_float h.1 hc
  | .str s, _ => by
    intro c hc
    rw [dumps] at hc
    exact printable_quote hc
  | .list xs, h => by
    intro c hc
    rw [Plain] at h
    simp only [dumps, String.toList_append, List.mem_append] at hc
    rcases hc with (hc | hc) | hc
    · have hopen : ∀ c ∈ "[".toList, Printable c := List.all_iff_forall_prop.mp (by decide)
      exact hopen c hc
    · exact printable_dumpsItems xs h c hc
    · have hclose : ∀ c ∈ "]".toList, Printable c := List.all_iff_forall_prop.mp (by decide)
      exact hclose c hc
  | .dict kvs, h => by
    intro c hc
    rw [Plain] at h
    simp only [dumps, String.toList_append, List.mem_append] at hc
    rcases hc with (hc | hc) | hc
    · have hopen : ∀ c ∈ "\x7b".toList, Printable c := List.all_iff_forall_prop.mp (by decide)
      exact hopen c hc
    · exact printable_dumpsEntries kvs h.2 c hc
    · have hclose : ∀ c ∈ "\x7d".toList, Printable c := List.all_iff_forall_prop.mp (by decide)
      exact hclose c hc

theorem printable_dumpsItems : (xs : List Json) → PlainItems float xs →
    ∀ c ∈ (dumpsItems xs).toList, Printable c
  | [], _ => by
    rw [dumpsItems]
    exact List.all_iff_forall_prop.mp (by decide)
  | [x], h => by
    rw [PlainItems] at h
    rw [dumpsItems]
    exact printable_dumps x h.1
  | x :: y :: xs, h => by
    intro c hc
    rw [PlainItems] at h
    simp only [dumpsItems, String.toList_append, List.mem_append] at hc
    rcases hc with (hc | hc) | hc
    · exact printable_dumps x h.1 c hc
    · have hitem : ∀ c ∈ ", ".toList, Printable c := List.all_iff_forall_prop.mp (by decide)
      exact hitem c hc
    · exact printable_dumpsItems (y :: xs) h.2 c hc

theorem printable_dumpsEntries : (es : List (String × Json)) → PlainEntries float es →
    ∀ c ∈ (dumpsEntries es).toList, Printable c
  | [], _ => by
    rw [dumpsEntries]
    exact List.all_iff_forall_prop.mp (by decide)
  | [(k, x)], h => by
    intro c hc
    rw [PlainEntries] at h
    simp only [dumpsEntries, String.toList_append, List.mem_append] at hc
    rcases hc with (hc | hc) | hc
    · exact printable_quote hc
    · have hkey : ∀ c ∈ ": ".toList, Printable c := List.all_iff_forall_prop.mp (by decide)
      exact hkey c hc
    · exact printable_dumps x h.1 c hc
  | (k, x) :: e :: es, h => by
    intro c hc
    rw [PlainEntries] at h
    simp only [dumpsEntries, String.toList_append, List.mem_append] at hc
    have hseparators : ∀ c ∈ ": ".toList ++ ", ".toList, Printable c :=
      List.all_iff_forall_prop.mp (by decide)
    rcases hc with (((hc | hc) | hc) | hc) | hc
    · exact printable_quote hc
    · exact hseparators c (List.mem_append_left _ hc)
    · exact printable_dumps x h.1 c hc
    · exact hseparators c (List.mem_append_right _ hc)
    · exact printable_dumpsEntries (e :: es) h.2 c hc
end

theorem plainEntries_iff {entries : List (String × Json)} :
    PlainEntries float entries ↔ ∀ e ∈ entries, Plain float e.2 := by
  induction entries with
  | nil => simp [PlainEntries]
  | cons e entries ih => rw [PlainEntries, ih, List.forall_mem_cons]

/-- A dict of texts. -/
theorem plain_strs {entries : List (String × String)} (h : (entries.map Prod.fst).Nodup) :
    Plain float (.dict (entries.map fun e => (e.1, .str e.2))) := by
  rw [Plain, List.map_map, plainEntries_iff]
  refine ⟨h, fun e he => ?_⟩
  obtain ⟨entry, -, rfl⟩ := List.mem_map.mp he
  trivial

end Sutram.Core.Json
