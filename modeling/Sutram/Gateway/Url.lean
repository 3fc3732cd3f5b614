/-
The downstream URL of a proxied request.

The gateway chooses a service by prefix checks on the decoded path and appends the
path to the service's URL.  The HTTP client parses that text again: the path ends at
the first `?` or `#` and its dot segments are removed.
-/
import Sutram.Library.DotSegments

namespace Sutram.Gateway

/-- Text of a URL, by characters. -/
abbrev Text := List Char

/-! ## The gateway's side -/

/-- The base URL of a service: a scheme and an authority that a parser reads back. -/
structure ServiceUrl where
  scheme : Text
  authority : Text
  scheme_colon : ':' ∉ scheme
  authority_end : ∀ c ∈ authority, c ≠ '/' ∧ c ≠ '?' ∧ c ≠ '#'

def ServiceUrl.text (u : ServiceUrl) : Text := u.scheme ++ "://".toList ++ u.authority

structure APIGatewaySettings where
  workflowServiceUrl : ServiceUrl
  memoryServiceUrl : ServiceUrl
  observabilityServiceUrl : ServiceUrl

/-- The default of every service URL. -/
def defaultSettings : APIGatewaySettings where
  workflowServiceUrl := ⟨"http".toList, "workflow-service:8001".toList, by decide, by simp⟩
  memoryServiceUrl := ⟨"http".toList, "memory-service:8002".toList, by decide, by simp⟩
  observabilityServiceUrl :=
    ⟨"http".toList, "observability-service:8003".toList, by decide, by simp⟩

def startsWith (path : Text) (pre : String) : Bool := pre.toList.isPrefixOf path

/-- Map a path to the service base URL and the path. -/
def downstreamUrl (path : Text) (settings : APIGatewaySettings) : Text :=
  if startsWith path "/v1/memory" then settings.memoryServiceUrl.text ++ path
  else if startsWith path "/v1/traces" || startsWith path "/v1/metrics" ||
      startsWith path "/v1/audit" then
    settings.observabilityServiceUrl.text ++ path
  else settings.workflowServiceUrl.text ++ path

/-- The service whose URL `downstreamUrl` takes. -/
def chosenService (path : Text) (settings : APIGatewaySettings) : ServiceUrl :=
  if startsWith path "/v1/memory" then settings.memoryServiceUrl
  else if startsWith path "/v1/traces" || startsWith path "/v1/metrics" ||
      startsWith path "/v1/audit" then
    settings.observabilityServiceUrl
  else settings.workflowServiceUrl

theorem downstreamUrl_eq (path : Text) (settings : APIGatewaySettings) :
    downstreamUrl path settings = (chosenService path settings).text ++ path := by
  unfold downstreamUrl chosenService
  split
  · rfl
  · split <;> rfl

/-- `full_path` of the catch-all route. -/
def fullPath (path : Text) : Text := "/v1/".toList ++ path

/-! ## The client library's side -/

structure Url where
  scheme : Text
  authority : Text
  path : Text
deriving DecidableEq, Repr

def slashDots : DotSegments.Dots Text := ⟨['.'], ['.', '.'], []⟩

/-- Dot segments of an absolute path are removed segment by segment. -/
def normalizePath (path : Text) : Text :=
  match path with
  | '/' :: rest =>
    '/' :: [('/' : Char)].intercalate (DotSegments.remove slashDots (rest.splitOn '/'))
  | _ => path

/-- What is requested for a URL text, before any redirect.  Dot segments are removed as
RFC 3986 has it; the library itself leaves no slash behind a final dot segment. -/
def httpxUrl (text : Text) : Url :=
  let scheme := text.takeWhile (· ≠ ':')
  let afterScheme := text.drop (scheme.length + 3)
  let authority := afterScheme.takeWhile fun c => c ≠ '/' ∧ c ≠ '?' ∧ c ≠ '#'
  let path := (afterScheme.drop authority.length).takeWhile fun c => c ≠ '?' ∧ c ≠ '#'
  ⟨scheme, authority, normalizePath path⟩

/-- The request stays under `/v1/` of the chosen service. -/
def StaysInside (settings : APIGatewaySettings) (path : Text) : Prop :=
  let url := httpxUrl (downstreamUrl (fullPath path) settings)
  url.authority = (chosenService (fullPath path) settings).authority ∧ "/v1/".toList <+: url.path

instance (settings : APIGatewaySettings) (path : Text) : Decidable (StaysInside settings path) :=
  inferInstanceAs (Decidable (_ ∧ _))

/-! ## What the client library reads -/

/-- The segments of the route's path, up to the first `?` or `#`. -/
def segments (path : Text) : List Text := (path.takeWhile fun c => c ≠ '?' ∧ c ≠ '#').splitOn '/'

theorem takeWhile_append_stop {α : Type} {p : α → Bool} {l : List α} {a : α} {rest : List α}
    (hl : ∀ x ∈ l, p x) (ha : p a = false) : (l ++ a :: rest).takeWhile p = l := by
  rw [List.takeWhile_append_of_pos hl, List.takeWhile_cons_of_neg (by simp [ha]), List.append_nil]

theorem httpxUrl_downstream (settings : APIGatewaySettings) (path : Text) :
    httpxUrl (downstreamUrl (fullPath path) settings) =
      ⟨(chosenService (fullPath path) settings).scheme,
        (chosenService (fullPath path) settings).authority,
        '/' :: [('/' : Char)].intercalate
          (DotSegments.remove slashDots ("v1".toList :: segments path))⟩ := by
  rw [downstreamUrl_eq]
  generalize chosenService (fullPath path) settings = u
  have hscheme : (u.text ++ fullPath path).takeWhile (· ≠ ':') = u.scheme := by
    rw [ServiceUrl.text, List.append_assoc, List.append_assoc]
    refine takeWhile_append_stop (fun c hc => ?_) (by decide)
    have hne : c ≠ ':' := fun h => u.scheme_colon (by rwa [← h])
    simpa using hne
  have hdrop : (u.text ++ fullPath path).drop (u.scheme.length + 3) =
      u.authority ++ fullPath path := by
    rw [ServiceUrl.text, List.append_assoc, List.append_assoc, List.drop_append]
    simp
  have hauthority : (u.authority ++ fullPath path).takeWhile
      (fun c => c ≠ '/' ∧ c ≠ '?' ∧ c ≠ '#') = u.authority := by
    refine takeWhile_append_stop (fun c hc => ?_) (by decide)
    simpa using u.authority_end c hc
  have hpath : (fullPath path).takeWhile (fun c => c ≠ '?' ∧ c ≠ '#') =
      '/' :: ("v1".toList ++ '/' :: path.takeWhile fun c => c ≠ '?' ∧ c ≠ '#') := rfl
  unfold httpxUrl
  simp only [hscheme, hdrop, hauthority, List.drop_left, hpath, normalizePath]
  rw [List.splitOn_append_cons_self_of_not_mem (by decide)]
  rfl

theorem not_mem_of_mem_splitOn {s text : Text} (h : s ∈ text.splitOn '/') : '/' ∉ s := by
  induction text generalizing s with
  | nil =>
    obtain rfl : s = [] := by simpa using h
    exact List.not_mem_nil
  | cons c rest ih =>
    rw [List.splitOn_cons_eq_if_modifyHead] at h
    split at h
    · rcases List.mem_cons.mp h with rfl | h
      · exact List.not_mem_nil
      · exact ih h
    · rename_i hc
      cases hsplit : rest.splitOn '/' with
      | nil => exact absurd hsplit (List.splitOn_ne_nil '/' rest)
      | cons first others =>
        rw [hsplit, List.modifyHead_cons, List.mem_cons] at h
        rcases h with rfl | h
        · have hfirst : '/' ∉ first := ih (by rw [hsplit]; exact List.mem_cons_self)
          rw [List.mem_cons, not_or]
          exact ⟨fun heq => hc (by rw [heq, beq_self_eq_true]), hfirst⟩
        · exact ih (by rw [hsplit]; exact List.mem_cons_of_mem first h)

/-- A joined path starts with `/v1/` when `v1` is its first segment of several. -/
theorem starts_v1_iff {out : List Text} (hout : ∀ s ∈ out, '/' ∉ s) :
    "/v1/".toList <+: '/' :: [('/' : Char)].intercalate out ↔
      ∃ x rest, out = "v1".toList :: x :: rest := by
  show '/' :: ("v1".toList ++ ['/']) <+: _ ↔ _
  rw [List.cons_prefix_cons, and_iff_right rfl]
  constructor
  · rintro ⟨tail, htail⟩
    match out with
    | [] => simp [List.intercalate] at htail
    | [s] =>
      have hs : '/' ∈ s := by
        rw [show s = [('/' : Char)].intercalate [s] by simp [List.intercalate], ← htail]
        simp
      exact absurd hs (hout s List.mem_cons_self)
    | s :: x :: rest =>
      have hjoin : "v1".toList ++ '/' :: tail =
          s ++ '/' :: [('/' : Char)].intercalate (x :: rest) := by
        simpa [List.intercalate] using htail
      have hv1 : ("v1".toList ++ '/' :: tail).takeWhile (· ≠ '/') = "v1".toList :=
        takeWhile_append_stop (by simp) (by simp)
      have hs : (s ++ '/' :: [('/' : Char)].intercalate (x :: rest)).takeWhile (· ≠ '/') = s := by
        refine takeWhile_append_stop (fun c hc => ?_) (by decide)
        have hne : c ≠ '/' := fun heq => hout s List.mem_cons_self (by rwa [← heq])
        simpa using hne
      rw [← hjoin, hv1] at hs
      exact ⟨x, rest, by rw [← hs]⟩
  · rintro ⟨x, rest, rfl⟩
    simp [List.intercalate]

/-- The condition on the decoded path: some `v1`, the route's own or a later one, has
all earlier segments taken back by `..`, is not the last segment, and is never
reached by a `..` after it. -/
theorem staysInside_iff (settings : APIGatewaySettings) (path : Text) :
    StaysInside settings path ↔
      DotSegments.Inside slashDots "v1".toList ("v1".toList :: segments path) := by
  have hout : ∀ s ∈ DotSegments.remove slashDots ("v1".toList :: segments path), '/' ∉ s := by
    intro s hs
    rcases DotSegments.mem_remove slashDots hs with h | rfl
    · rcases List.mem_cons.mp h with rfl | h
      · decide
      · exact not_mem_of_mem_splitOn h
    · exact List.not_mem_nil
  unfold StaysInside
  rw [httpxUrl_downstream, ← DotSegments.remove_starts, ← starts_v1_iff hout]
  exact and_iff_right rfl

theorem internal_route_requested :
    httpxUrl (downstreamUrl (fullPath "../internal/tenants/7".toList) defaultSettings) =
        ⟨"http".toList, "workflow-service:8001".toList, "/internal/tenants/7".toList⟩ ∧
      ¬ StaysInside defaultSettings "../internal/tenants/7".toList := by
  decide +kernel

end Sutram.Gateway
