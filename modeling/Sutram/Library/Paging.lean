/-
Rows fetched page by page, with a query of its own for each page.

A page is a window on an answer, and each answer may order rows of equal keys in its own
way.  The pages have each row once, whatever the answers, when a page is as long as the
step from one to the next and no rows of one key lie on two pages.
-/
import Sutram.Library.OrderBy

namespace Paging

open OrderBy

variable {α β κ : Type}

/-- The pages from an offset on, up to the first that is empty.  A fetch may fail. -/
inductive Fetches (fetch : Nat → Option (List α)) (step : Nat) : Nat → List (List α) → Prop
  | last {offset : Nat} (h : fetch offset = some []) : Fetches fetch step offset []
  | next {offset : Nat} {page : List α} {pages : List (List α)} (h : fetch offset = some page)
      (hpage : page ≠ []) (rest : Fetches fetch step (offset + step) pages) :
      Fetches fetch step offset (page :: pages)

/-- `LIMIT count OFFSET offset` -/
def window (count offset : Nat) (xs : List α) : List α := (xs.drop offset).take count

theorem Fetches.unique {fetch : Nat → Option (List α)} {step offset : Nat}
    {pages pages' : List (List α)} (h : Fetches fetch step offset pages)
    (h' : Fetches fetch step offset pages') : pages = pages' := by
  induction h generalizing pages' with
  | last h =>
    cases h' with
    | last => rfl
    | next h' hpage =>
      rw [h, Option.some_inj] at h'
      exact absurd h'.symm hpage
  | next h hpage rest ih =>
    cases h' with
    | last h' =>
      rw [h, Option.some_inj] at h'
      exact absurd h' hpage
    | next h' _ rest' =>
      rw [h, Option.some_inj] at h'
      rw [h', ih rest']

/-- The first fetch has not failed. -/
theorem Fetches.isSome {fetch : Nat → Option (List α)} {step offset : Nat}
    {pages : List (List α)} (h : Fetches fetch step offset pages) : (fetch offset).isSome := by
  cases h with
  | last h => simp [h]
  | next h => simp [h]

/-! ## Windows on answers of one length -/

section Windows

variable {answers : Nat → List α} {n step count offset : Nat} {pages : List (List α)}

/-- The fetch of a window on the answer for its offset. -/
def fetchWindow (answers : Nat → List α) (count offset : Nat) : Option (List α) :=
  some (window count offset (answers offset))

theorem length_window (count offset : Nat) (xs : List α) :
    (window count offset xs).length = min count (xs.length - offset) := by
  rw [window, List.length_take, List.length_drop]

theorem window_of_length_le {xs : List α} (h : xs.length ≤ offset) :
    window count offset xs = [] := by
  rw [window, List.drop_of_length_le h, List.take_nil]

theorem getElem?_window {xs : List α} {i : Nat} (hi : i < count) :
    (window count offset xs)[i]? = xs[offset + i]? := by
  rw [window, List.getElem?_take_of_lt hi, List.getElem?_drop]

theorem exists_fetches (count : Nat) (hn : ∀ o, (answers o).length = n) (hstep : 0 < step)
    (offset : Nat) : ∃ pages, Fetches (fetchWindow answers count) step offset pages := by
  induction hleft : n - offset using Nat.strong_induction_on generalizing offset with
  | _ left ih =>
    by_cases hempty : window count offset (answers offset) = []
    · exact ⟨[], .last (congrArg some hempty)⟩
    · have hoffset : offset < n := by
        by_contra hle
        exact hempty (window_of_length_le ((hn offset).trans_le (not_lt.mp hle)))
      obtain ⟨pages, hpages⟩ := ih (n - (offset + step)) (by omega) (offset + step) rfl
      exact ⟨_, .next rfl hempty hpages⟩

/-- What the pages have at a place is what the answer for the page there has. -/
theorem Fetches.getElem?_flatten (hn : ∀ o, (answers o).length = n) (hstep : 0 < step)
    (h : Fetches (fetchWindow answers step) step offset pages) (i : Nat) :
    pages.flatten[i]? = (answers (offset + i / step * step))[offset + i]? := by
  have hend {o j : Nat} (hj : n ≤ j) : (answers o)[j]? = none :=
    List.getElem?_eq_none ((hn o).trans_le hj)
  induction h generalizing i with
  | @last offset h =>
    have hlength := congrArg List.length (Option.some_inj.mp h)
    rw [length_window, hn, List.length_nil] at hlength
    rw [hend (by omega), List.flatten_nil, List.getElem?_nil]
  | @next offset page pages h hpage rest ih =>
    obtain rfl : window step offset (answers offset) = page := Option.some_inj.mp h
    have hlength := length_window step offset (answers offset)
    rw [hn] at hlength
    rw [List.flatten_cons]
    rcases Nat.lt_or_ge i (n - offset) with hin | hout
    · rcases Nat.lt_or_ge i step with hi | hi
      · -- The place is on this page.
        rw [List.getElem?_append_left (by omega), getElem?_window hi, Nat.div_eq_of_lt hi,
          Nat.zero_mul, Nat.add_zero]
      · obtain ⟨k, rfl⟩ := Nat.exists_eq_add_of_le hi
        have hfull : (window step offset (answers offset)).length = step := by omega
        have hpage : offset + step + k / step * step = offset + (k / step * step + step) := by
          omega
        rw [List.getElem?_append_right (by omega), ih, hfull, Nat.add_sub_cancel_left,
          Nat.add_div_left k hstep, Nat.succ_mul, hpage, Nat.add_assoc]
    · rw [List.getElem?_append_right (by omega), ih, hend (by omega), hend (by omega)]

theorem Fetches.length_flatten_le (hn : ∀ o, (answers o).length = n) (hcount : count ≤ step)
    (h : Fetches (fetchWindow answers count) step offset pages) :
    pages.flatten.length ≤ n - offset := by
  induction h with
  | last h => exact Nat.zero_le _
  | @next offset page pages h hpage rest ih =>
    obtain rfl : window count offset (answers offset) = page := Option.some_inj.mp h
    rw [List.flatten_cons, List.length_append, length_window, hn]
    omega

theorem Fetches.length_flatten (hn : ∀ o, (answers o).length = n)
    (hstep : 0 < step) (h : Fetches (fetchWindow answers step) step offset pages) :
    pages.flatten.length = n - offset := by
  induction h with
  | @last offset h =>
    have hlength := congrArg List.length (Option.some_inj.mp h)
    rw [length_window, hn, List.length_nil] at hlength
    rw [List.flatten_nil, List.length_nil]
    omega
  | @next offset page pages h hpage rest ih =>
    obtain rfl : window step offset (answers offset) = page := Option.some_inj.mp h
    rw [List.flatten_cons, List.length_append, length_window, hn]
    omega

/-- Windows shorter than the step leave rows out, unless the first has them all. -/
theorem Fetches.length_flatten_lt (hn : ∀ o, (answers o).length = n) (hcount : count < step)
    (h : Fetches (fetchWindow answers count) step offset pages) (hleft : offset + count < n) :
    pages.flatten.length < n - offset := by
  cases h with
  | last h =>
    rw [List.flatten_nil, List.length_nil]
    omega
  | @next _ page pages h hpage rest =>
    obtain rfl : window count offset (answers offset) = page := Option.some_inj.mp h
    have hrest := rest.length_flatten_le hn hcount.le
    rw [List.flatten_cons, List.length_append, length_window, hn]
    omega

/-- A window that holds a whole answer is the only page. -/
theorem Fetches.flatten_eq (hn : ∀ o, (answers o).length = n) (hcount : n ≤ count)
    (hstep : n ≤ step) (h : Fetches (fetchWindow answers count) step 0 pages) :
    pages.flatten = answers 0 := by
  have hall : window count 0 (answers 0) = answers 0 := by
    rw [window, List.drop_zero, List.take_of_length_le ((hn 0).trans_le hcount)]
  cases h with
  | last h =>
    rw [← hall, Option.some_inj.mp h, List.flatten_nil]
  | @next _ page pages h hpage rest =>
    have hnone : window count (0 + step) (answers (0 + step)) = [] :=
      window_of_length_le ((hn _).trans_le (by omega))
    rw [rest.unique (.last (congrArg some hnone)), List.flatten_singleton,
      ← Option.some_inj.mp h, hall]

end Windows

/-! ## Windows on the answers to one query -/

section Rows

variable [LinearOrder κ] (key : α → κ) (rows : List α)

/-- No two rows of one key lie on different pages. -/
def TiesOnOnePage (step : Nat) : Prop :=
  ∀ r ∈ rows, before key rows r / step = (through key rows r - 1) / step

instance (step : Nat) : Decidable (TiesOnOnePage key rows step) :=
  inferInstanceAs (Decidable (∀ r ∈ rows, _))

/-- Whatever the answers, the pages show each row once. -/
def ShowsEachOnce (render : α → β) (count step : Nat) : Prop :=
  ∀ answers : Nat → List α, (∀ o, Answers key rows (answers o)) →
    ∃ pages, Fetches (fetchWindow (fun o => (answers o).map render) count) step 0 pages ∧
      pages.flatten.Perm (rows.map render)

variable {key rows} {render : α → β} {count step : Nat}

theorem length_map_answer {answer : List α} (h : Answers key rows answer) :
    (answer.map render).length = rows.length := by
  rw [List.length_map, h.perm.length_eq]

/-- At each place the pages have what the answer for the page there has. -/
theorem getElem?_pages {answers : Nat → List α} {pages : List (List β)}
    (hanswers : ∀ o, Answers key rows (answers o)) (hstep : 0 < step)
    (hpages : Fetches (fetchWindow (fun o => (answers o).map render) step) step 0 pages) (i : Nat) :
    pages.flatten[i]? = (answers (i / step * step))[i]?.map render := by
  have hat := hpages.getElem?_flatten (fun o => length_map_answer (hanswers o)) hstep i
  rwa [Nat.zero_add, Nat.zero_add, List.getElem?_map] at hat

/-- Answers that show a row in front of the page of the last place of its key, and again at
the top of that page. -/
theorem exists_torn (hstep : 0 < step) {r : α} (hr : r ∈ rows)
    (hne : before key rows r / step ≠ (through key rows r - 1) / step) :
    ∃ (answers : Nat → List α) (b : Nat), (∀ o, Answers key rows (answers o)) ∧
      (answers (b / step * step))[b]? = some r ∧
      (answers ((b + 1) / step * step))[b + 1]? = some r := by
  have hlt : before key rows r < through key rows r := before_lt_through hr
  obtain ⟨top, htop⟩ : ∃ top, top = (through key rows r - 1) / step * step := ⟨_, rfl⟩
  have hbefore : before key rows r < top := by
    rw [htop, ← Nat.div_lt_iff_lt_mul hstep]
    exact lt_of_le_of_ne (Nat.div_le_div_right (by omega)) hne
  have hthrough : top ≤ through key rows r - 1 := htop ▸ Nat.div_mul_le_self _ _
  obtain ⟨early, hearly, hearlyAt⟩ :=
    exists_answer_at hr (Nat.le_sub_one_of_lt hbefore) (by omega)
  obtain ⟨late, hlate, hlateAt⟩ := exists_answer_at hr hbefore.le (by omega)
  refine ⟨fun o => if o < top then early else late, top - 1, fun o => ?_, ?_, ?_⟩
  · dsimp only
    split
    · exact hearly
    · exact hlate
  · have hpage : (top - 1) / step * step < top := (Nat.div_mul_le_self _ _).trans_lt (by omega)
    dsimp only
    rw [if_pos hpage, hearlyAt]
  · have hpage : top / step * step = top := by rw [htop, Nat.mul_div_cancel _ hstep]
    dsimp only
    rw [Nat.sub_add_cancel (Nat.one_le_of_lt hbefore), hpage, if_neg (lt_irrefl top), hlateAt]

theorem ties_of_showsEachOnce (hrows : (rows.map render).Nodup) (hstep : 0 < step)
    (h : ShowsEachOnce key rows render step step) : TiesOnOnePage key rows step := by
  intro r hr
  by_contra hne
  obtain ⟨answers, b, hanswers, hfirst, hsecond⟩ := exists_torn hstep hr hne
  obtain ⟨pages, hpages, hperm⟩ := h answers hanswers
  have hat := getElem?_pages hanswers hstep hpages
  have hfirst' : pages.flatten[b]? = some (render r) := by rw [hat, hfirst, Option.map_some]
  have hsecond' : pages.flatten[b + 1]? = some (render r) := by
    rw [hat, hsecond, Option.map_some]
  have hsame := (List.getElem?_inj (List.getElem?_eq_some_iff.mp hfirst').1
    (hperm.nodup_iff.mpr hrows)).mp (hfirst'.trans hsecond'.symm)
  omega

/-- All places of a row, in whichever answer, are on one page. -/
theorem TiesOnOnePage.page_eq (hties : TiesOnOnePage key rows step) {answer : List α}
    (hanswer : Answers key rows answer) {i : Nat} {r : α} (hi : answer[i]? = some r) :
    r ∈ rows ∧ i / step = before key rows r / step := by
  have hr := hanswer.perm.mem_iff.mp (List.mem_of_getElem? hi)
  obtain ⟨hbefore, hthrough⟩ := hanswer.places hi
  have hle : i / step ≤ (through key rows r - 1) / step := Nat.div_le_div_right (by omega)
  refine ⟨hr, le_antisymm ?_ (Nat.div_le_div_right hbefore)⟩
  rwa [hties r hr]

section Complete

variable {answers : Nat → List α} {pages : List (List β)}

/-- No row is on two pages: its places are on one, and an answer has it at one place. -/
theorem TiesOnOnePage.nodup_pages (hties : TiesOnOnePage key rows step)
    (hrows : (rows.map render).Nodup) (hanswers : ∀ o, Answers key rows (answers o))
    (hat : ∀ i, pages.flatten[i]? = (answers (i / step * step))[i]?.map render) :
    pages.flatten.Nodup := by
  rw [List.nodup_iff_getElem?_ne_getElem?]
  intro i j hij hj heq
  obtain ⟨b, hb⟩ : ∃ b, pages.flatten[j]? = some b := ⟨_, List.getElem?_eq_getElem hj⟩
  rw [hb] at heq
  rw [hat, Option.map_eq_some_iff] at hb heq
  obtain ⟨s, hs, hsb⟩ := hb
  obtain ⟨r, hr, hrb⟩ := heq
  obtain ⟨hrmem, hrpage⟩ := hties.page_eq (hanswers _) hr
  obtain ⟨hsmem, hspage⟩ := hties.page_eq (hanswers _) hs
  obtain rfl : r = s := List.inj_on_of_nodup_map hrows hrmem hsmem (hrb.trans hsb.symm)
  rw [hrpage.trans hspage.symm] at hr
  have hanswer : (answers (j / step * step)).Nodup :=
    (hanswers _).perm.nodup_iff.mpr hrows.of_map
  exact hij.ne ((List.getElem?_inj (List.getElem?_eq_some_iff.mp hr).1 hanswer).mp
    (hr.trans hs.symm))

theorem pages_subset (hanswers : ∀ o, Answers key rows (answers o))
    (hat : ∀ i, pages.flatten[i]? = (answers (i / step * step))[i]?.map render) :
    pages.flatten ⊆ rows.map render := by
  intro b hb
  obtain ⟨i, hi⟩ := List.getElem?_of_mem hb
  rw [hat, Option.map_eq_some_iff] at hi
  obtain ⟨r, hr, rfl⟩ := hi
  exact List.mem_map_of_mem ((hanswers _).perm.mem_iff.mp (List.mem_of_getElem? hr))

end Complete

theorem showsEachOnce_of_ties (hrows : (rows.map render).Nodup) (hstep : 0 < step)
    (hties : TiesOnOnePage key rows step) : ShowsEachOnce key rows render step step := by
  intro answers hanswers
  have hn (o : Nat) : ((answers o).map render).length = rows.length :=
    length_map_answer (hanswers o)
  obtain ⟨pages, hpages⟩ := exists_fetches step hn hstep 0
  have hat := getElem?_pages hanswers hstep hpages
  have hnodup := hties.nodup_pages hrows hanswers hat
  refine ⟨pages, hpages, (hnodup.subperm (pages_subset hanswers hat)).perm_of_length_le ?_⟩
  rw [hpages.length_flatten hn hstep, List.length_map, Nat.sub_zero]

theorem ties_of_length_le (h : rows.length ≤ step) : TiesOnOnePage key rows step := by
  intro r hr
  have hlt : before key rows r < through key rows r := before_lt_through hr
  have hle : through key rows r ≤ rows.length := through_le_length r
  rw [Nat.div_eq_of_lt (by omega), Nat.div_eq_of_lt (by omega)]

/-- Rows that fit one page are complete with it. -/
theorem showsEachOnce_of_length_le (hstep : 0 < step) (hcount : count ≤ step)
    (h : rows.length ≤ count) : ShowsEachOnce key rows render count step := by
  intro answers hanswers
  have hn (o : Nat) : ((answers o).map render).length = rows.length :=
    length_map_answer (hanswers o)
  obtain ⟨pages, hpages⟩ := exists_fetches count hn hstep 0
  refine ⟨pages, hpages, ?_⟩
  rw [hpages.flatten_eq hn h (h.trans hcount)]
  exact (hanswers 0).perm.map render

theorem showsEachOnce_iff (hrows : (rows.map render).Nodup) (hstep : 0 < step)
    (hcount : count ≤ step) :
    ShowsEachOnce key rows render count step ↔
      (count = step ∨ rows.length ≤ count) ∧ TiesOnOnePage key rows step := by
  constructor
  · intro h
    rcases hcount.eq_or_lt with rfl | hlt
    · exact ⟨.inl rfl, ties_of_showsEachOnce hrows hstep h⟩
    · have hshort : rows.length ≤ count := by
        by_contra hlong
        have hanswer : Answers key rows _ := .of_insertionSort (.refl rows)
        obtain ⟨pages, hpages, hperm⟩ := h _ fun _ => hanswer
        have hlength := hpages.length_flatten_lt (fun _ => length_map_answer hanswer) hlt
          (by omega)
        rw [hperm.length_eq, List.length_map] at hlength
        omega
      exact ⟨.inr hshort, ties_of_length_le (hshort.trans hcount)⟩
  · rintro ⟨rfl | hshort, hties⟩
    · exact showsEachOnce_of_ties hrows hstep hties
    · exact showsEachOnce_of_length_le hstep hcount hshort

end Rows

end Paging
