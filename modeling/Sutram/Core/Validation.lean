/-
Validation of the fields of a model against texts.

Every field is read by its name and coerced from a string.  An error does not stop the
validation: the errors of all fields are collected in the order of the fields.
-/
import Sutram.Library.Dict
import Sutram.Core.Uuid

namespace Sutram.Core

/-- One entry of a validation error: the field and the type of the error. -/
structure FieldError where
  loc : String
  type : String
deriving DecidableEq, Repr

/-- A validated value, or every error that was found. -/
abbrev Checked (α : Type) := Except (List FieldError) α

/-- What a field accepts: a value for the text, or the type of the error. -/
abbrev Coerce (α : Type) := String → Except String α

namespace Checked

variable {α β : Type}

def build (a : α) : Checked α := .ok a

/-- Errors of both sides are kept. -/
def seq : Checked (α → β) → Checked α → Checked β
  | .ok f, .ok a => .ok (f a)
  | .ok _, .error es => .error es
  | .error es, .ok _ => .error es
  | .error es, .error es' => .error (es ++ es')

@[simp] theorem build_eq (a : α) : build a = .ok a := rfl

@[simp] theorem seq_ok (f : α → β) (a : α) : seq (.ok f) (.ok a) = .ok (f a) := rfl

theorem seq_eq_ok_iff {f : Checked (α → β)} {x : Checked α} {b : β} :
    seq f x = .ok b ↔ ∃ g a, f = .ok g ∧ x = .ok a ∧ g a = b := by
  cases f with
  | error es => cases x <;> simp [seq]
  | ok g => cases x <;> simp [seq]

theorem isOk_seq (f : Checked (α → β)) (x : Checked α) : (seq f x).isOk = (f.isOk && x.isOk) := by
  cases f <;> cases x <;> rfl

end Checked

/-! ## Fields -/

section Fields

variable {α : Type} (data : Dict String String) (name : String)

def coerceField (coerce : Coerce α) (text : String) : Checked α :=
  match coerce text with
  | .ok a => .ok a
  | .error type => .error [⟨name, type⟩]

def required (coerce : Coerce α) : Checked α :=
  match data.get? name with
  | some text => coerceField name coerce text
  | none => .error [⟨name, "missing"⟩]

/-- A field with a default, which is not validated itself. -/
def optional (default : α) (coerce : Coerce α) : Checked α :=
  match data.get? name with
  | some text => coerceField name coerce text
  | none => .ok default

variable {data name}

theorem coerceField_eq_ok_iff {text : String} {coerce : Coerce α} {a : α} :
    coerceField name coerce text = .ok a ↔ coerce text = .ok a := by
  unfold coerceField
  cases coerce text <;> simp

theorem required_eq_ok_iff {coerce : Coerce α} {a : α} :
    required data name coerce = .ok a ↔
      ∃ text, data.get? name = some text ∧ coerce text = .ok a := by
  unfold required
  cases data.get? name with
  | none => simp
  | some text => simp [coerceField_eq_ok_iff]

/-- A field that is present, required or not, is read by its coercion. -/
theorem required_of_get {text : String} {coerce : Coerce α} {a : α}
    (hget : data.get? name = some text) (hok : coerce text = .ok a) :
    required data name coerce = .ok a := by
  rw [required, hget]
  exact coerceField_eq_ok_iff.mpr hok

theorem optional_of_some {text : String} {default : α} {coerce : Coerce α}
    (hget : data.get? name = some text) :
    optional data name default coerce = coerceField name coerce text := by
  rw [optional, hget]

theorem optional_of_get {text : String} {default a : α} {coerce : Coerce α}
    (hget : data.get? name = some text) (hok : coerce text = .ok a) :
    optional data name default coerce = .ok a := by
  rw [optional_of_some hget]
  exact coerceField_eq_ok_iff.mpr hok

/-- Whether a field is accepted does not depend on its default. -/
theorem isOk_optional (default default' : α) (coerce : Coerce α) :
    (optional data name default coerce).isOk = (optional data name default' coerce).isOk := by
  unfold optional
  cases data.get? name <;> rfl

end Fields

/-! ## Coercions -/

namespace Coerce

def str : Coerce String := .ok

def literal (expected : String) : Coerce Unit := fun text =>
  if text = expected then .ok () else .error "literal_error"

def uuid : Coerce Uuid := fun text =>
  match Uuid.parse text with
  | some u => .ok u
  | none => .error "uuid_parsing"

/-- `str` of a bool. -/
def ofBool (b : Bool) : String := if b then "True" else "False"

def bool : Coerce Bool := fun text =>
  let lowered := String.ofList (text.toList.map Char.toLower)
  if lowered ∈ ["1", "on", "t", "true", "y", "yes"] then .ok true
  else if lowered ∈ ["0", "off", "f", "false", "n", "no"] then .ok false
  else .error "bool_parsing"

/-- The member of the enumeration that stands for the text. -/
def enum {α : Type} (all : List α) (value : α → String) : Coerce α := fun text =>
  match all.find? fun a => value a = text with
  | some a => .ok a
  | none => .error "enum"

/-- A string is no dict. -/
def dict {α : Type} : Coerce α := fun _ => .error "dict_type"

theorem str_eq (text : String) : str text = .ok text := rfl

theorem literal_self (expected : String) : literal expected expected = .ok () := if_pos rfl

theorem uuid_eq_ok_iff {text : String} {u : Uuid} :
    uuid text = .ok u ↔ Uuid.parse text = some u := by
  unfold uuid
  cases Uuid.parse text <;> simp

theorem uuid_str (u : Uuid) : uuid u.str = .ok u := uuid_eq_ok_iff.mpr (Uuid.parse_str u)

theorem bool_ofBool (b : Bool) : bool (ofBool b) = .ok b := by
  cases b <;> rfl

end Coerce

end Sutram.Core
