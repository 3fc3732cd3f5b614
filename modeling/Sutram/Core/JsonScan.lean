/-
The strings and numbers of `json.loads`.

Escapes and surrogate pairs in strings, and the grammar of numbers.  A float is read as
the `repr` of what its text stands for.
-/
import Sutram.Core.Json
import Sutram.Library.Dict
import Sutram.Library.Hex

namespace Sutram.Core.Json

/-! ## Strings -/

def hexUnit (a b c d : Char) : Option Nat := do
  let ds ← Hex.decode [a, b, c, d]
  return ds.foldl (fun n x => n * 16 + x.val) 0

def simpleEscape (c : Char) : Option Nat :=
  if c = '"' then some 34
  else if c = '\\' then some 92
  else if c = '/' then some 47
  else if c = 'b' then some 8
  else if c = 'f' then some 12
  else if c = 'n' then some 10
  else if c = 'r' then some 13
  else if c = 't' then some 9
  else none

/-- The code units up to the closing quote.  A character that is not escaped stands for
itself and is no control character. -/
def scanUnits : List Char → Option (List Nat × List Char)
  | [] => none
  | c :: rest =>
    if c = '"' then some ([], rest)
    else if c = '\\' then
      match rest with
      | [] => none
      | e :: rest =>
        if e = 'u' then
          match rest with
          | x :: y :: z :: w :: rest =>
            (hexUnit x y z w).bind fun u => (scanUnits rest).map fun r => (u :: r.1, r.2)
          | _ => none
        else (simpleEscape e).bind fun u => (scanUnits rest).map fun r => (u :: r.1, r.2)
    else if c.toNat < 32 then none
    else (scanUnits rest).map fun r => (c.toNat :: r.1, r.2)

/-- The two halves of a character outside the first plane are joined.  Half of a pair is
no character here. -/
def joinUnits : List Nat → Option (List Char)
  | [] => some []
  | u :: rest =>
    if 55296 ≤ u ∧ u < 56320 then
      match rest with
      | v :: rest =>
        if 56320 ≤ v ∧ v < 57344 then
          (joinUnits rest).map (Char.ofNat (65536 + (u - 55296) * 1024 + (v - 56320)) :: ·)
        else none
      | [] => none
    else if 56320 ≤ u ∧ u < 57344 then none
    else (joinUnits rest).map (Char.ofNat u :: ·)

/-- A string, from behind its opening quote on. -/
def scanString (cs : List Char) : Option (String × List Char) :=
  (scanUnits cs).bind fun r => (joinUnits r.1).map fun s => (String.ofList s, r.2)

/-! ## Strings are read back -/

/-- The code units of a character. -/
def units (c : Char) : List Nat :=
  if c.toNat < 65536 then [c.toNat]
  else [55296 + (c.toNat - 65536) / 1024, 56320 + (c.toNat - 65536) % 1024]

theorem value_hexDigit : ∀ d : Fin 16, Hex.value (hexDigit d.val) = some d := by decide

theorem scan_escapeUnit {n : Nat} (h : n < 65536) (cs : List Char) :
    scanUnits (escapeUnit n ++ cs) = (scanUnits cs).map fun r => (n :: r.1, r.2) := by
  have hvalue (m : Nat) : Hex.value (hexDigit (m % 16)) = some ⟨m % 16, by omega⟩ :=
    value_hexDigit ⟨m % 16, by omega⟩
  have hunit : hexUnit (hexDigit (n / 4096 % 16)) (hexDigit (n / 256 % 16))
      (hexDigit (n / 16 % 16)) (hexDigit (n % 16)) = some n := by
    simp only [hexUnit, Hex.decode, hvalue]
    show some _ = some n
    congr 1
    simp only [List.foldl_cons, List.foldl_nil]
    omega
  simp [escapeUnit, scanUnits, hunit]

theorem toNat_lt (c : Char) : c.toNat < 1114112 := by
  rcases c.valid with h | h
  · exact Nat.lt_of_lt_of_le h (by omega)
  · exact h.2

/-- A character is no half of a pair. -/
theorem not_surrogate (c : Char) : c.toNat < 55296 ∨ 57344 ≤ c.toNat := by
  rcases c.valid with h | h
  · exact .inl h
  · exact .inr (by have := h.1; exact this)

/-- A short escape of a character. -/
theorem scan_short {c e : Char} (he : simpleEscape e = some c.toNat) (hu : e ≠ 'u')
    (hlt : c.toNat < 65536) (cs : List Char) :
    scanUnits ('\\' :: e :: cs) = (scanUnits cs).map fun r => (units c ++ r.1, r.2) := by
  rw [scanUnits.eq_def]
  simp [hu, he, units, hlt]

theorem scan_escapeChar (c : Char) (cs : List Char) :
    scanUnits (escapeChar c ++ cs) = (scanUnits cs).map fun r => (units c ++ r.1, r.2) := by
  unfold escapeChar
  split
  · subst c
    exact scan_short rfl (by decide) (by decide) cs
  split
  · subst c
    exact scan_short rfl (by decide) (by decide) cs
  split
  · subst c
    exact scan_short rfl (by decide) (by decide) cs
  split
  · subst c
    exact scan_short rfl (by decide) (by decide) cs
  split
  · subst c
    exact scan_short rfl (by decide) (by decide) cs
  split
  · rename_i hb
    exact scan_short (by rw [hb]; rfl) (by decide) (by omega) cs
  split
  · rename_i hf
    exact scan_short (by rw [hf]; rfl) (by decide) (by omega) cs
  split
  · -- a printable ASCII character stands for itself
    rename_i hquote hslash _ _ _ _ _ hprint
    have hcontrol : ¬ c.toNat < 32 := by omega
    have hlt : c.toNat < 65536 := by omega
    rw [List.singleton_append, scanUnits.eq_def]
    simp [hquote, hslash, hcontrol, units, hlt]
  split
  · rename_i hlt
    rw [scan_escapeUnit hlt, units, if_pos hlt]
    rfl
  · rename_i hlt
    have := toNat_lt c
    rw [List.append_assoc, scan_escapeUnit (by omega), scan_escapeUnit (by omega), units,
      if_neg hlt, Option.map_map]
    rfl

theorem join_units (c : Char) (us : List Nat) :
    joinUnits (units c ++ us) = (joinUnits us).map (c :: ·) := by
  have hself : Char.ofNat c.toNat = c := Char.ofNat_toNat c
  unfold units
  split
  · have hhigh : ¬ (55296 ≤ c.toNat ∧ c.toNat < 56320) := by have := not_surrogate c; omega
    have hlow : ¬ (56320 ≤ c.toNat ∧ c.toNat < 57344) := by have := not_surrogate c; omega
    rw [List.singleton_append, joinUnits.eq_def]
    simp [hhigh, hlow, hself]
  · have := toNat_lt c
    have hhigh : 55296 ≤ 55296 + (c.toNat - 65536) / 1024 ∧
        55296 + (c.toNat - 65536) / 1024 < 56320 := by omega
    have hlow : 56320 ≤ 56320 + (c.toNat - 65536) % 1024 ∧
        56320 + (c.toNat - 65536) % 1024 < 57344 := by omega
    have hpair : 65536 + (55296 + (c.toNat - 65536) / 1024 - 55296) * 1024 +
        (56320 + (c.toNat - 65536) % 1024 - 56320) = c.toNat := by omega
    simp only [List.cons_append, List.nil_append, joinUnits, if_pos hhigh, if_pos hlow, hpair,
      hself]

/-- What `quote` writes is read back. -/
theorem scanString_quote (s : String) (rest : List Char) :
    scanString (s.toList.flatMap escapeChar ++ '"' :: rest) = some (s, rest) := by
  have hunits : ∀ cs : List Char, scanUnits (cs.flatMap escapeChar ++ '"' :: rest) =
      some (cs.flatMap units, rest) := by
    intro cs
    induction cs with
    | nil =>
      rw [List.flatMap_nil, List.nil_append, scanUnits.eq_def]
      simp
    | cons c cs ih => simp [scan_escapeChar, ih]
  have hjoin : ∀ cs : List Char, joinUnits (cs.flatMap units) = some cs := by
    intro cs
    induction cs with
    | nil => rfl
    | cons c cs ih => simp [join_units, ih]
  simp [scanString, hunits, hjoin]

/-! ## Numbers -/

/-- The digits in front. -/
def scanDigits (cs : List Char) : List Char × List Char :=
  (cs.takeWhile Char.isDigit, cs.dropWhile Char.isDigit)

def scanSign : List Char → List Char × List Char
  | [] => ([], [])
  | c :: rest => if c = '-' then (['-'], rest) else ([], c :: rest)

/-- A zero, or digits that begin with no zero. -/
def scanInt (cs : List Char) : List Char × List Char :=
  match cs with
  | [] => ([], [])
  | c :: rest => if c = '0' then (['0'], rest) else scanDigits cs

/-- A point with digits behind it, or nothing. -/
def scanFrac (cs : List Char) : List Char × List Char :=
  match cs with
  | [] => ([], [])
  | c :: rest =>
    let (ds, rest) := scanDigits rest
    if c = '.' ∧ ds ≠ [] then (c :: ds, rest) else ([], cs)

/-- An exponent with digits, or nothing. -/
def scanExp (cs : List Char) : List Char × List Char :=
  match cs with
  | [] => ([], [])
  | c :: rest =>
    let (sign, rest) := match rest with
      | [] => ([], [])
      | x :: rest => if x = '-' ∨ x = '+' then ([x], rest) else ([], x :: rest)
    let (ds, rest) := scanDigits rest
    if (c = 'e' ∨ c = 'E') ∧ ds ≠ [] then (c :: sign ++ ds, rest) else ([], cs)

def intValue (sign digits : List Char) : Int :=
  let n : Int := (Nat.ofDigitChars 10 digits 0 : Nat)
  if sign = [] then n else -n

/-- A number.  `float` is the `repr` of the float that a text stands for. -/
def scanNumber (float : String → String) (cs : List Char) : Option (Json × List Char) :=
  let (sign, cs) := scanSign cs
  let (whole, cs) := scanInt cs
  let (frac, cs) := scanFrac cs
  let (exp, cs) := scanExp cs
  if whole = [] then none
  else if frac = [] ∧ exp = [] then some (.int (intValue sign whole), cs)
  else some (.float (float (String.ofList (sign ++ whole ++ frac ++ exp))), cs)

/-- What may stand behind a number: no more of it. -/
def Ends (cs : List Char) : Prop := ∀ c ∈ cs.head?, ¬ c.isDigit ∧ c ≠ '.' ∧ c ≠ 'e' ∧ c ≠ 'E'

/-- What may stand behind digits. -/
def NoDigit (cs : List Char) : Prop := ∀ c ∈ cs.head?, ¬ c.isDigit

theorem scanDigits_append {ds cs : List Char} (hds : ∀ c ∈ ds, c.isDigit) (hcs : NoDigit cs) :
    scanDigits (ds ++ cs) = (ds, cs) := by
  rw [scanDigits, List.takeWhile_append_of_pos hds, List.dropWhile_append_of_pos hds]
  cases cs with
  | nil => simp
  | cons c cs => simp [hcs c rfl]

/-- The digits of a whole number. -/
structure WholeText (ds : List Char) : Prop where
  digits : ∀ c ∈ ds, c.isDigit
  start : ds = ['0'] ∨ ∃ c rest, ds = c :: rest ∧ c ≠ '0'

structure FracText (fs : List Char) : Prop where
  text : fs = [] ∨ ∃ ds, fs = '.' :: ds ∧ ds ≠ [] ∧ ∀ c ∈ ds, c.isDigit

structure ExpText (es : List Char) : Prop where
  text : es = [] ∨ ∃ sign ds, es = 'e' :: (sign ++ ds) ∧ (sign = ['-'] ∨ sign = ['+']) ∧
    ds ≠ [] ∧ ∀ c ∈ ds, c.isDigit

theorem scanInt_append {ds cs : List Char} (h : WholeText ds) (hcs : NoDigit cs) :
    scanInt (ds ++ cs) = (ds, cs) := by
  rcases h.start with rfl | ⟨c, rest, rfl, hc⟩
  · rfl
  · have hscan := scanDigits_append h.digits hcs
    simpa [scanInt, hc] using hscan

theorem scanFrac_append {fs cs : List Char} (h : FracText fs)
    (hcs : ∀ c ∈ cs.head?, ¬ c.isDigit ∧ c ≠ '.') : scanFrac (fs ++ cs) = (fs, cs) := by
  rcases h.text with rfl | ⟨ds, rfl, hne, hds⟩
  · cases cs with
    | nil => rfl
    | cons c cs => simp [scanFrac, (hcs c rfl).2]
  · have hscan := scanDigits_append hds fun c hc => (hcs c hc).1
    simp [scanFrac, hscan, hne]

theorem scanExp_append {es cs : List Char} (h : ExpText es) (hcs : Ends cs) :
    scanExp (es ++ cs) = (es, cs) := by
  rcases h.text with rfl | ⟨sign, ds, rfl, hsign, hne, hds⟩
  · cases cs with
    | nil => rfl
    | cons c cs => simp [scanExp, (hcs c rfl).2.2.1, (hcs c rfl).2.2.2]
  · have hscan := scanDigits_append hds fun c hc => (hcs c hc).1
    rcases hsign with rfl | rfl <;> simp [scanExp, hscan, hne]

/-- What `float.__repr__` writes for a finite float: a point or an exponent stands in it. -/
def FloatText (r : String) : Prop :=
  ∃ sign whole frac exp, r.toList = sign ++ (whole ++ (frac ++ exp)) ∧
    (sign = [] ∨ sign = ['-']) ∧ WholeText whole ∧ FracText frac ∧ ExpText exp ∧
    (frac ≠ [] ∨ exp ≠ [])

theorem ends_exp {es cs : List Char} (h : ExpText es) (hcs : Ends cs) :
    ∀ c ∈ (es ++ cs).head?, ¬ c.isDigit ∧ c ≠ '.' := by
  rcases h.text with rfl | ⟨sign, ds, rfl, -⟩
  · exact fun c hc => ⟨(hcs c hc).1, (hcs c hc).2.1⟩
  · intro c hc
    obtain rfl : 'e' = c := by simpa using hc
    decide

theorem noDigit_frac {fs cs : List Char} (h : FracText fs) (hcs : NoDigit cs) :
    NoDigit (fs ++ cs) := by
  rcases h.text with rfl | ⟨ds, rfl, -⟩
  · exact hcs
  · intro c hc
    obtain rfl : '.' = c := by simpa using hc
    decide

theorem WholeText.ne_nil {ds : List Char} (h : WholeText ds) : ds ≠ [] := by
  rcases h.start with rfl | ⟨c, rest, rfl, -⟩ <;> simp

/-- A sign is read off digits. -/
theorem scanSign_append {sign ds cs : List Char} (hsign : sign = [] ∨ sign = ['-'])
    (h : WholeText ds) : scanSign (sign ++ (ds ++ cs)) = (sign, ds ++ cs) := by
  rcases hsign with rfl | rfl
  · cases ds with
    | nil => exact absurd rfl h.ne_nil
    | cons c ds =>
      have hc : c ≠ '-' := by
        rintro rfl
        exact absurd (h.digits '-' List.mem_cons_self) (by decide)
      simp [scanSign, hc]
  · rfl

theorem scanNumber_append (float : String → String) {sign whole frac exp cs : List Char}
    (hsign : sign = [] ∨ sign = ['-']) (hwhole : WholeText whole) (hfrac : FracText frac)
    (hexp : ExpText exp) (hcs : Ends cs) :
    scanNumber float (sign ++ (whole ++ (frac ++ (exp ++ cs)))) =
      if frac = [] ∧ exp = [] then some (.int (intValue sign whole), cs)
      else some (.float (float (String.ofList (sign ++ whole ++ frac ++ exp))), cs) := by
  have hafter := ends_exp hexp hcs
  rw [scanNumber, scanSign_append hsign hwhole]
  simp only
  rw [scanInt_append hwhole (noDigit_frac hfrac fun c hc => (hafter c hc).1)]
  simp only
  rw [scanFrac_append hfrac hafter]
  simp only
  rw [scanExp_append hexp hcs]
  simp only
  rw [if_neg hwhole.ne_nil]

theorem scanNumber_float {float : String → String} {r : String} (h : FloatText r)
    (hcanonical : float r = r) {cs : List Char} (hcs : Ends cs) :
    scanNumber float (r.toList ++ cs) = some (.float r, cs) := by
  obtain ⟨sign, whole, frac, exp, htext, hsign, hwhole, hfrac, hexp, hpart⟩ := h
  have hnot : ¬ (frac = [] ∧ exp = []) := by
    rintro ⟨rfl, rfl⟩
    simp at hpart
  have hofList : String.ofList (sign ++ whole ++ frac ++ exp) = r := by
    simp only [List.append_assoc]
    rw [← htext, String.ofList_toList]
  rw [htext]
  simp only [List.append_assoc]
  rw [scanNumber_append float hsign hwhole hfrac hexp hcs, if_neg hnot, hofList, hcanonical]

theorem wholeText_toDigits (n : Nat) : WholeText (Nat.toDigits 10 n) := by
  refine ⟨fun c hc => Nat.isDigit_of_mem_toDigits (by omega) (by omega) hc, ?_⟩
  by_cases hn : n = 0
  · subst hn
    exact .inl rfl
  · refine .inr ?_
    induction n using Nat.strongRecOn with
    | ind n ih =>
      by_cases hlt : n < 10
      · rw [Nat.toDigits_of_lt_base hlt]
        have hdigit : ∀ d : Fin 10, d.val ≠ 0 → d.val.digitChar ≠ '0' := by decide
        exact ⟨_, [], rfl, hdigit ⟨n, hlt⟩ hn⟩
      · rw [Nat.toDigits_of_base_le (by omega) (by omega)]
        obtain ⟨c, rest, hdigits, hc⟩ := ih (n / 10) (by omega) (by omega)
        exact ⟨c, rest ++ [(n % 10).digitChar], by rw [hdigits]; rfl, hc⟩

theorem scanNumber_int (float : String → String) (n : Int) {cs : List Char} (hcs : Ends cs) :
    scanNumber float ((toString n).toList ++ cs) = some (.int n, cs) := by
  have hfrac : FracText [] := ⟨.inl rfl⟩
  have hexp : ExpText [] := ⟨.inl rfl⟩
  have hvalue (m : Nat) : Nat.ofDigitChars 10 (Nat.toDigits 10 m) 0 = m :=
    Nat.ofDigitChars_ten_toDigits
  cases n with
  | ofNat m =>
    have htext : (toString (Int.ofNat m)).toList = Nat.toDigits 10 m := by
      rw [← Nat.toList_repr]
      rfl
    have hscan := scanNumber_append float (.inl rfl) (wholeText_toDigits m) hfrac hexp hcs
    rw [htext]
    simpa [intValue, hvalue] using hscan
  | negSucc m =>
    have htext : (toString (Int.negSucc m)).toList = '-' :: Nat.toDigits 10 (m + 1) := by
      rw [Int.toString_eq_repr, Int.repr_eq_if, if_neg (Int.negSucc_not_nonneg m).mp]
      rw [String.toList_append, ← Nat.toList_repr]
      rfl
    have hscan := scanNumber_append float (.inr rfl) (wholeText_toDigits (m + 1)) hfrac hexp hcs
    rw [htext]
    simpa [intValue, hvalue, Int.negSucc_eq] using hscan

end Sutram.Core.Json
