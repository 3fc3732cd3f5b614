/-
The reader of an event stream.

A browser's EventSource reads `text/event-stream` line by line, a line ending in CRLF, LF
or CR, and dispatches what it has gathered at every empty line.  The reader here takes one
character at a time, so that it does not matter in which pieces the text comes.  The last
event id and the reconnection time are no part of it.
-/
import Mathlib.Data.Bool.AllAny

namespace EventSource

structure Event where
  name : String
  data : String
deriving DecidableEq, Repr

/-- The line so far, the fields gathered, and what has been dispatched. -/
structure Reader where
  line : List Char := []
  afterCr : Bool := false
  name : List Char := []
  data : List Char := []
  events : List Event := []
deriving DecidableEq

/-- What stands before the first colon of a line, and what behind it without its space. -/
def splitField (line : List Char) : List Char × List Char :=
  let value := (line.dropWhile (· ≠ ':')).drop 1
  (line.takeWhile (· ≠ ':'), if value.head? = some ' ' then value.drop 1 else value)

def field (r : Reader) (line : List Char) : Reader :=
  let (name, value) := splitField line
  if name = "event".toList then { r with name := value }
  else if name = "data".toList then { r with data := r.data ++ value ++ ['\n'] }
  else r

/-- Nothing is dispatched without data; the last line feed is no part of them. -/
def dispatch (r : Reader) : Reader :=
  if r.data = [] then { r with name := [] }
  else { r with
    name := []
    data := []
    events := r.events ++ [⟨if r.name = [] then "message" else String.ofList r.name,
      String.ofList r.data.dropLast⟩] }

def endLine (r : Reader) : Reader :=
  if r.line = [] then dispatch r else { field r r.line with line := [] }

def step (r : Reader) (c : Char) : Reader :=
  if c = '\n' then (if r.afterCr then { r with afterCr := false } else endLine r)
  else if c = '\r' then { endLine r with afterCr := true }
  else { r with line := r.line ++ [c], afterCr := false }

def read (r : Reader) (text : List Char) : Reader := text.foldl step r

/-- The reader goes on where it was. -/
theorem read_append (r : Reader) (text more : List Char) :
    read r (text ++ more) = read (read r text) more :=
  List.foldl_append

/-! ## One event -/

/-- Text that fits in a line. -/
def OneLine (text : List Char) : Prop := ∀ c ∈ text, c ≠ '\n' ∧ c ≠ '\r'

instance (text : List Char) : Decidable (OneLine text) :=
  inferInstanceAs (Decidable (∀ c ∈ text, _))

/-- What an event is written as. -/
def frame (name data : String) : String := "event: " ++ name ++ "\ndata: " ++ data ++ "\n\n"

/-- A reader at the start of an event. -/
def Ready (r : Reader) : Prop := r.line = [] ∧ r.afterCr = false ∧ r.name = [] ∧ r.data = []

theorem read_line {r : Reader} {text : List Char} (h : OneLine text) (hcr : r.afterCr = false) :
    read r text = { r with line := r.line ++ text } := by
  induction text generalizing r with
  | nil => simp [read]
  | cons c text ih =>
    obtain ⟨hc, hrest⟩ := List.forall_mem_cons.mp h
    have hstep : step r c = { r with line := r.line ++ [c], afterCr := false } := by
      simp [step, hc]
    have hread := ih (r := step r c) hrest (by rw [hstep])
    rw [read, List.foldl_cons, ← read, hread, hstep]
    simp [hcr]

/-- A whole line that is not empty. -/
theorem read_field {r : Reader} {text : List Char} (h : OneLine text) (hne : text ≠ [])
    (hline : r.line = []) (hcr : r.afterCr = false) (rest : List Char) :
    read r (text ++ '\n' :: rest) = read { field r text with line := [] } rest := by
  obtain ⟨line, afterCr, name, data, events⟩ := r
  obtain rfl : line = [] := hline
  obtain rfl : afterCr = false := hcr
  have hread := read_line (r := ⟨[], false, name, data, events⟩) h rfl
  rw [read] at hread ⊢
  rw [List.foldl_append, hread, List.nil_append, List.foldl_cons]
  have hstep : step ⟨text, false, name, data, events⟩ '\n' =
      { field ⟨text, false, name, data, events⟩ text with line := [] } := by
    simp [step, endLine, hne]
  rw [hstep]
  congr 1
  -- The fields of an event are gathered whatever the line so far.
  unfold field
  split
  split
  · rfl
  · split <;> rfl

theorem splitField_of_notMem {name : List Char} (h : ':' ∉ name) (value : List Char) :
    splitField (name ++ ':' :: ' ' :: value) = (name, value) := by
  have hname : ∀ c ∈ name, decide (c ≠ ':') := fun c hc => by
    simp only [decide_eq_true_eq]
    rintro rfl
    exact h hc
  rw [splitField, List.takeWhile_append_of_pos hname, List.dropWhile_append_of_pos hname]
  simp

theorem field_event (r : Reader) (value : List Char) :
    field r ("event".toList ++ ':' :: ' ' :: value) = { r with name := value } := by
  rw [field, splitField_of_notMem (by decide)]
  rfl

theorem field_data (r : Reader) (value : List Char) :
    field r ("data".toList ++ ':' :: ' ' :: value) =
      { r with data := r.data ++ value ++ ['\n'] } := by
  rw [field, splitField_of_notMem (by decide)]
  rfl

theorem OneLine.field {name value : List Char} (hname : OneLine name) (hvalue : OneLine value) :
    OneLine (name ++ ':' :: ' ' :: value) := by
  intro c hc
  simp only [List.mem_append, List.mem_cons] at hc
  rcases hc with hc | rfl | rfl | hc
  · exact hname c hc
  · decide
  · decide
  · exact hvalue c hc

/-- An event whose name and data fit in a line each is dispatched as it was written. -/
theorem read_frame {r : Reader} (hr : Ready r) {name data : String} (hname : OneLine name.toList)
    (hdata : OneLine data.toList) :
    read r (frame name data).toList =
      { r with events := r.events ++ [⟨if name = "" then "message" else name, data⟩] } := by
  obtain ⟨line, afterCr, rname, rdata, events⟩ := r
  obtain ⟨rfl, rfl, rfl, rfl⟩ := hr
  have htext : (frame name data).toList = ("event".toList ++ ':' :: ' ' :: name.toList) ++
      '\n' :: (("data".toList ++ ':' :: ' ' :: data.toList) ++ '\n' :: ['\n']) := by
    simp [frame]
  have hevent : OneLine "event".toList := List.all_iff_forall_prop.mp (by decide)
  have hdataName : OneLine "data".toList := List.all_iff_forall_prop.mp (by decide)
  rw [htext, read_field (hevent.field hname) (by simp) rfl rfl, field_event,
    read_field (hdataName.field hdata) (by simp) rfl rfl, field_data]
  simp [read, step, endLine, dispatch]

end EventSource
