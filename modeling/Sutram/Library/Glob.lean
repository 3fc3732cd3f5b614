/-
The patterns by which a store lists its keys.

`*` stands for any characters, `?` for one, and a backslash takes the character after it
for itself.  Character classes in brackets are left out.
-/
import Mathlib.Data.List.Infix

namespace Glob

/-- Does the pattern describe all of the text? -/
def accepts : List Char → List Char → Bool
  | [], text => text.isEmpty
  | '*' :: pattern, text => text.tails.any fun rest => accepts pattern rest
  | '?' :: pattern, text => !text.isEmpty && accepts pattern text.tail
  | '\\' :: c :: pattern, text => text.head? = some c && accepts pattern text.tail
  | c :: pattern, text => text.head? = some c && accepts pattern text.tail

/-- A character that stands for itself. -/
def IsLiteral (c : Char) : Prop := c ≠ '*' ∧ c ≠ '?' ∧ c ≠ '\\'

instance (c : Char) : Decidable (IsLiteral c) := inferInstanceAs (Decidable (_ ∧ _))

theorem accepts_star (text : List Char) : accepts ['*'] text = true := by
  rw [accepts, List.any_eq_true]
  exact ⟨[], (List.mem_tails _ _).mpr List.nil_suffix, rfl⟩

theorem accepts_literal {c : Char} (hc : IsLiteral c) (pattern text : List Char) :
    accepts (c :: pattern) text = (text.head? = some c && accepts pattern text.tail) := by
  obtain ⟨hstar, hquestion, hback⟩ := hc
  rw [accepts] <;> simp_all

/-- Literals before a star: the texts that begin with them. -/
theorem accepts_prefix {literals : List Char} (h : ∀ c ∈ literals, IsLiteral c)
    (text : List Char) : accepts (literals ++ ['*']) text = true ↔ literals <+: text := by
  induction literals generalizing text with
  | nil => simp [accepts_star]
  | cons c literals ih =>
    obtain ⟨hc, hliterals⟩ := List.forall_mem_cons.mp h
    rw [List.cons_append, accepts_literal hc, Bool.and_eq_true, decide_eq_true_eq, ih hliterals]
    cases text with
    | nil => simp
    | cons d text =>
      rw [List.head?_cons, List.tail_cons, Option.some.injEq, List.cons_prefix_cons]
      exact and_congr_left fun _ => eq_comm

end Glob
