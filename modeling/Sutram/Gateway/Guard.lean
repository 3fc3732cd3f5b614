/-
Which requests the gateway checks for duplicates.

The check reads the end of the decoded path as it came in; the endpoint is decided by
the path that the HTTP client sends, cut at the first `?` or `#` and without dot segments.
-/
import Sutram.Gateway.Url
import Sutram.Library.Segments

namespace Sutram.Gateway

open Segments

/-! ## The gateway's side -/

/-- The methods of the catch-all route. -/
inductive Method where
  | get | post | put | patch | delete
deriving DecidableEq, Repr

/-- `str.rstrip("/")`. -/
def rstripSlash (text : Text) : Text := text.rdropWhile (· = '/')

def isExecuteEndpoint (fullPath : Text) : Bool :=
  "/execute".toList.isSuffixOf (rstripSlash fullPath)

def isMemoryItemsPost (fullPath : Text) : Bool := rstripSlash fullPath = "/v1/memory/items".toList

def idempotencyApplies (method : Method) (path : Text) : Bool :=
  method = .post && (isExecuteEndpoint (fullPath path) || isMemoryItemsPost (fullPath path))

/-! ## The downstream side -/

inductive Endpoint where
  | execute | memoryItems
deriving DecidableEq, Repr

/-- The paths of the two guarded endpoints, up to trailing slashes.  The path is compared as
it is sent, with its escapes. -/
def Endpoint.Serves (path : Text) : Endpoint → Prop
  | execute => ∃ id, id ≠ [] ∧ '/' ∉ id ∧
      rstripSlash path = "/v1/workflows/".toList ++ id ++ "/execute".toList
  | memoryItems => rstripSlash path = "/v1/memory/items".toList

/-- The request that is sent for the path goes to the endpoint. -/
def Reaches (settings : APIGatewaySettings) (path : Text) (e : Endpoint) : Prop :=
  e.Serves (httpxUrl (downstreamUrl (fullPath path) settings)).path

/-- Every POST request to a guarded endpoint is checked. -/
def Guarded (settings : APIGatewaySettings) (path : Text) : Prop :=
  (∃ e, Reaches settings path e) → idempotencyApplies .post path

/-! ## How the path has to be spelled -/

/-- What follows the path: everything from the first `?` or `#` on. -/
def afterPath (path : Text) : Text := path.dropWhile fun c => c ≠ '?' ∧ c ≠ '#'

def IsDots (s : Text) : Prop := s = ['.'] ∨ s = ['.', '.']

instance (s : Text) : Decidable (IsDots s) := inferInstanceAs (Decidable (_ ∨ _))

/-- Nothing follows the path, and it ends in no dot segment (execute) or has none (memory
items); or what follows it happens to end in `/execute`. -/
def Endpoint.Spelled (path : Text) (e : Endpoint) : Prop :=
  match afterPath path, e with
  | [], execute => ∀ s ∈ (strip (path.splitOn '/')).getLast?, ¬ IsDots s
  | [], memoryItems => ∀ s ∈ path.splitOn '/', ¬ IsDots s
  | rest, _ => isExecuteEndpoint rest

/-! ## By segments -/

theorem ordinary_iff (s : Text) : DotSegments.Ordinary slashDots s ↔ ¬ IsDots s := by
  simp [DotSegments.Ordinary, IsDots, slashDots]

theorem not_mem_remove {path s : Text}
    (h : s ∈ DotSegments.remove slashDots ("v1".toList :: segments path)) : '/' ∉ s := by
  rcases DotSegments.mem_remove slashDots h with h | rfl
  · rcases List.mem_cons.mp h with rfl | h
    · decide
    · exact not_mem_of_mem_splitOn h
  · exact List.not_mem_nil

/-- The segments of the path that is sent. -/
def sent (path : Text) : List Text :=
  strip (DotSegments.remove slashDots ("v1".toList :: segments path))

theorem rstripSlash_sent (settings : APIGatewaySettings) (path : Text) :
    rstripSlash (httpxUrl (downstreamUrl (fullPath path) settings)).path =
      join '/' (sent path) := by
  rw [httpxUrl_downstream]
  have hne : DotSegments.remove slashDots ("v1".toList :: segments path) ≠ [] :=
    DotSegments.remove_ne_nil slashDots (List.cons_ne_nil _ _)
  rw [cons_intercalate hne]
  exact rdropWhile_join fun s hs => not_mem_remove hs

theorem reaches_memoryItems_iff (settings : APIGatewaySettings) (path : Text) :
    Reaches settings path .memoryItems ↔
      sent path = ["v1".toList, "memory".toList, "items".toList] := by
  have hitems : ∀ s ∈ ["v1".toList, "memory".toList, "items".toList], '/' ∉ s := by decide
  unfold Reaches Endpoint.Serves
  rw [rstripSlash_sent]
  exact join_inj (fun s hs => not_mem_remove (mem_of_mem_strip hs)) hitems

theorem reaches_execute_iff (settings : APIGatewaySettings) (path : Text) :
    Reaches settings path .execute ↔
      ∃ id ≠ [], sent path = ["v1".toList, "workflows".toList, id, "execute".toList] := by
  unfold Reaches Endpoint.Serves
  rw [rstripSlash_sent]
  have hsent : ∀ s ∈ sent path, '/' ∉ s := fun s hs => not_mem_remove (mem_of_mem_strip hs)
  constructor
  · rintro ⟨id, hid, hslash, heq⟩
    refine ⟨id, hid, (join_inj hsent ?_).mp (heq.trans (by simp [join]))⟩
    simpa using hslash
  · rintro ⟨id, hid, heq⟩
    refine ⟨id, hid, hsent id (by simp [heq]), ?_⟩
    rw [heq]
    simp [join]

/-- The segments of the path as it came in. -/
def raw (path : Text) : List Text := strip ("v1".toList :: path.splitOn '/')

theorem not_mem_raw {path s : Text} (h : s ∈ "v1".toList :: path.splitOn '/') : '/' ∉ s := by
  rcases List.mem_cons.mp h with rfl | h
  · decide
  · exact not_mem_of_mem_splitOn h

theorem rstripSlash_raw (path : Text) : rstripSlash (fullPath path) = join '/' (raw path) := by
  have hjoin : fullPath path = join '/' ("v1".toList :: path.splitOn '/') := by
    rw [join_cons, join_splitOn]
    rfl
  rw [hjoin]
  exact rdropWhile_join fun s hs => not_mem_raw hs

theorem isExecuteEndpoint_iff (path : Text) :
    isExecuteEndpoint (fullPath path) ↔ (raw path).getLast? = some "execute".toList := by
  rw [isExecuteEndpoint, List.isSuffixOf_iff_suffix, rstripSlash_raw]
  exact suffix_join_iff (by decide) fun s hs => not_mem_raw (mem_of_mem_strip hs)

theorem isMemoryItemsPost_iff (path : Text) :
    isMemoryItemsPost (fullPath path) ↔
      raw path = ["v1".toList, "memory".toList, "items".toList] := by
  have hitems : ∀ s ∈ ["v1".toList, "memory".toList, "items".toList], '/' ∉ s := by decide
  rw [isMemoryItemsPost, decide_eq_true_eq, rstripSlash_raw]
  exact join_inj (fun s hs => not_mem_raw (mem_of_mem_strip hs)) hitems

theorem idempotencyApplies_iff (path : Text) :
    idempotencyApplies .post path ↔ (raw path).getLast? = some "execute".toList ∨
      raw path = ["v1".toList, "memory".toList, "items".toList] := by
  rw [← isExecuteEndpoint_iff, ← isMemoryItemsPost_iff]
  simp [idempotencyApplies]

/-! ## Nothing follows the path -/

/-- The last segment of a path, when it is no dot segment, is the last one sent. -/
theorem getLast?_strip_remove {segs : List Text} {s : Text} (hs : (strip segs).getLast? = some s)
    (hdots : ¬ IsDots s) :
    (strip (DotSegments.remove slashDots segs)).getLast? = some s := by
  obtain ⟨init, hinit⟩ := List.getLast?_eq_some_iff.mp hs
  obtain ⟨rest, hsegs, hrest⟩ := exists_eq_strip_append segs
  have hordinary : ∀ t ∈ s :: rest, DotSegments.Ordinary slashDots t := by
    intro t ht
    rw [ordinary_iff]
    rcases List.mem_cons.mp ht with rfl | ht
    · exact hdots
    · rw [hrest t ht]
      simp [IsDots]
  rw [hsegs, hinit, List.append_assoc, List.singleton_append,
    DotSegments.remove_append_ordinary slashDots (List.cons_ne_nil s rest) hordinary,
    List.append_cons, strip_append_nils hrest, strip_concat, if_neg (ne_nil_of_getLast?_strip hs),
    List.getLast?_concat]

theorem segments_of_afterPath {path : Text} (h : afterPath path = []) :
    segments path = path.splitOn '/' := by
  have hcut : path.takeWhile (fun c => c ≠ '?' ∧ c ≠ '#') = path := by
    conv_rhs => rw [← List.takeWhile_append_dropWhile (p := fun c => c ≠ '?' ∧ c ≠ '#') (l := path)]
    rw [afterPath] at h
    rw [h, List.append_nil]
  rw [segments, hcut]

theorem raw_eq (path : Text) : raw path = "v1".toList :: strip (path.splitOn '/') :=
  strip_cons (by decide) _

/-- The last segment that came in is the last one sent, unless it is a dot segment. -/
theorem getLast?_sent {path s : Text} (hpath : afterPath path = [])
    (hs : (raw path).getLast? = some s) (hdots : ¬ IsDots s) :
    (sent path).getLast? = some s := by
  rw [sent, segments_of_afterPath hpath]
  exact getLast?_strip_remove hs hdots

theorem execute_applies_iff {path id : Text} (hpath : afterPath path = [])
    (hsent : sent path = ["v1".toList, "workflows".toList, id, "execute".toList]) :
    idempotencyApplies .post path ↔
      ∀ s ∈ (strip (path.splitOn '/')).getLast?, ¬ IsDots s := by
  rw [idempotencyApplies_iff]
  constructor
  · intro happlies s hs
    have hlast : (raw path).getLast? = some s := by
      rw [raw_eq, List.getLast?_cons, Option.mem_def.mp hs]
      rfl
    rcases happlies with h | h
    · rw [h] at hlast
      cases hlast
      decide
    · rw [h] at hlast
      cases hlast
      decide
  · intro hspelled
    obtain ⟨s, hs⟩ : ∃ s, (raw path).getLast? = some s := by
      rw [raw_eq, List.getLast?_cons]
      exact ⟨_, rfl⟩
    have hdots : ¬ IsDots s := by
      rw [raw_eq, List.getLast?_cons] at hs
      cases hlast : (strip (path.splitOn '/')).getLast? with
      | none =>
        rw [hlast] at hs
        cases hs
        decide
      | some t =>
        rw [hlast] at hs
        cases hs
        exact hspelled t hlast
    have hexecute := getLast?_sent hpath hs hdots
    rw [hsent] at hexecute
    cases hexecute
    exact .inl hs

theorem memoryItems_applies_iff {path : Text} (hpath : afterPath path = [])
    (hsent : sent path = ["v1".toList, "memory".toList, "items".toList]) :
    idempotencyApplies .post path ↔ ∀ s ∈ path.splitOn '/', ¬ IsDots s := by
  rw [idempotencyApplies_iff]
  constructor
  · rintro (h | h) s hs
    · -- A last segment `execute` would be sent last.
      have hlast := getLast?_sent hpath h (by decide)
      rw [hsent] at hlast
      cases hlast
    · obtain ⟨rest, hsegs, hrest⟩ := exists_eq_strip_append ("v1".toList :: path.splitOn '/')
      have hmem : s ∈ raw path ++ rest := by
        rw [raw, ← hsegs]
        exact List.mem_cons_of_mem _ hs
      rw [h] at hmem
      rcases List.mem_append.mp hmem with hmem | hmem
      · have hplain : ∀ t ∈ ["v1".toList, "memory".toList, "items".toList],
            t ≠ ['.'] ∧ t ≠ ['.', '.'] := by decide
        exact not_or.mpr (hplain s hmem)
      · rw [hrest s hmem]
        simp [IsDots]
  · intro hspelled
    have hordinary : ∀ s ∈ "v1".toList :: path.splitOn '/', DotSegments.Ordinary slashDots s := by
      intro s hs
      rw [ordinary_iff]
      rcases List.mem_cons.mp hs with rfl | hs
      · decide
      · exact hspelled s hs
    rw [sent, segments_of_afterPath hpath, DotSegments.remove_ordinary slashDots hordinary] at hsent
    exact .inr hsent

/-! ## Something follows the path -/

/-- With something behind the path, only that is looked at. -/
theorem applies_of_afterPath {path rest : Text} {c : Char} (h : afterPath path = c :: rest) :
    idempotencyApplies .post path ↔ isExecuteEndpoint (afterPath path) := by
  have hc : c ≠ '/' ∧ c ∉ "/execute".toList ∧ c ∉ "/v1/memory/items".toList := by
    have hstop := List.head?_dropWhile_not (fun c : Char => decide (c ≠ '?' ∧ c ≠ '#')) path
    rw [show path.dropWhile _ = c :: rest from h] at hstop
    have hor : c = '?' ∨ c = '#' := by
      by_contra hne
      rw [not_or] at hne
      simp [hne.1, hne.2] at hstop
    rcases hor with rfl | rfl <;> decide
  obtain ⟨rest', hrest⟩ : ∃ rest', rstripSlash (c :: rest) = c :: rest' := by
    have hprefix := List.rdropWhile_prefix (fun x : Char => decide (x = '/')) (c :: rest)
    have hne : rstripSlash (c :: rest) ≠ [] := by
      intro hnil
      have hall := List.rdropWhile_eq_nil_iff.mp hnil c List.mem_cons_self
      exact hc.1 (by simpa using hall)
    cases hstrip : rstripSlash (c :: rest) with
    | nil => exact absurd hstrip hne
    | cons x rest' =>
      rw [rstripSlash] at hstrip
      rw [hstrip] at hprefix
      exact ⟨rest', by rw [(List.cons_prefix_cons.mp hprefix).1]⟩
  have hfull : rstripSlash (fullPath path) =
      ("/v1/".toList ++ path.takeWhile fun c => c ≠ '?' ∧ c ≠ '#') ++ c :: rest' := by
    rw [← hrest, rstripSlash, rstripSlash,
      ← rdropWhile_append_of_neg (by rw [← rstripSlash, hrest]; exact List.cons_ne_nil c rest'),
      ← h, List.append_assoc, afterPath, List.takeWhile_append_dropWhile, fullPath]
  rw [h, isExecuteEndpoint, List.isSuffixOf_iff_suffix, hrest,
    ← suffix_append_iff hc.2.1 ("/v1/".toList ++ path.takeWhile fun c => c ≠ '?' ∧ c ≠ '#'),
    ← hfull]
  have hitems : isMemoryItemsPost (fullPath path) = false := by
    rw [isMemoryItemsPost, decide_eq_false_iff_not, hfull]
    exact fun heq => hc.2.2 (by rw [← heq]; simp)
  simp [idempotencyApplies, hitems, isExecuteEndpoint]

/-! ## The guard -/

theorem applies_iff_spelled {settings : APIGatewaySettings} {path : Text} {e : Endpoint}
    (h : Reaches settings path e) : idempotencyApplies .post path ↔ e.Spelled path := by
  cases hpath : afterPath path with
  | nil =>
    cases e with
    | execute =>
      obtain ⟨id, -, hsent⟩ := (reaches_execute_iff settings path).mp h
      simp only [Endpoint.Spelled, hpath]
      exact execute_applies_iff hpath hsent
    | memoryItems =>
      simp only [Endpoint.Spelled, hpath]
      exact memoryItems_applies_iff hpath ((reaches_memoryItems_iff settings path).mp h)
  | cons c rest =>
    rw [applies_of_afterPath hpath, hpath]
    simp only [Endpoint.Spelled, hpath]

/-- A request to a guarded endpoint is checked exactly when its path is spelled so. -/
theorem guarded_iff (settings : APIGatewaySettings) (path : Text) :
    Guarded settings path ↔ ∀ e, Reaches settings path e → e.Spelled path := by
  constructor
  · intro h e he
    exact (applies_iff_spelled he).mp (h ⟨e, he⟩)
  · rintro h ⟨e, he⟩
    exact (applies_iff_spelled he).mpr (h e he)

/-- An encoded question mark behind `execute`, a dot segment behind it, and one inside the
path of the memory items. -/
theorem guarded_endpoints_unchecked :
    ¬ Guarded defaultSettings "workflows/7/execute?x".toList ∧
      ¬ Guarded defaultSettings "workflows/7/execute/.".toList ∧
      ¬ Guarded defaultSettings "memory/./items".toList := by
  refine ⟨fun h => ?_, fun h => ?_, fun h => ?_⟩
  · have happlies := h ⟨.execute, "7".toList, by decide, by decide, by decide +kernel⟩
    revert happlies
    decide +kernel
  · have happlies := h ⟨.execute, "7".toList, by decide, by decide, by decide +kernel⟩
    revert happlies
    decide +kernel
  · have happlies := h ⟨.memoryItems, by unfold Reaches Endpoint.Serves; decide +kernel⟩
    revert happlies
    decide +kernel

end Sutram.Gateway
