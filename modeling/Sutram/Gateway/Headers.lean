/-
Request headers through the gateway.

The gateway keeps the client's headers in a Python dict, whose keys are compared as
they are, and adds its own under capitalised names.  The downstream services look a
header up without regard to case and take the first one.
-/
import Sutram.Core.Validation

namespace Sutram.Gateway

open Sutram.Core

/-- Headers in the order they are sent. -/
abbrev Headers := List (String × String)

/-- `str.lower` on a header name, which is an ASCII token. -/
def lower (s : String) : String := String.ofList (s.toList.map Char.toLower)

theorem lower_lower (s : String) : lower (lower s) = lower s := by
  have hchar : ∀ c : Char, c.toLower.toLower = c.toLower := by
    intro c
    unfold Char.toLower
    grind
  simp [lower, Function.comp_def, hchar]

/-! ## The gateway -/

/-- `request.headers.items()`: every header, with its name in lower case. -/
def requestItems (raw : Headers) : Headers := raw.map fun h => (lower h.1, h.2)

/-- Headers that must not be forwarded downstream. -/
def hopByHop : List String :=
  ["connection", "content-length", "keep-alive", "transfer-encoding", "te", "trailer", "upgrade",
    "proxy-authorization", "proxy-authenticate"]

def forwarded (k : String) : Bool := lower k ∉ hopByHop ∧ lower k ≠ "authorization"

/-- The dict handed to httpx, which sends every entry of it in order. -/
def buildForwardHeaders (raw : Headers) (tenantId : Uuid) (internalToken : String) :
    Dict String String :=
  ((Dict.ofPairs ((requestItems raw).filter fun h => forwarded h.1)).set
    "X-Internal-Token" internalToken).set "X-Tenant-ID" tenantId.str

/-! ## The downstream services -/

/-- The first header with the name, in any case. -/
def header (name : String) (hs : Headers) : Option String :=
  (hs.find? fun h => lower h.1 = lower name).map Prod.snd

inductive HTTPError where
  | validation (errors : List FieldError)
  | unauthorized (detail : String)
  | internal
deriving DecidableEq, Repr

def isAscii (s : String) : Bool := s.toList.all fun c => c.toNat < 128

/-- `hmac.compare_digest` refuses strings with other than ASCII characters. -/
def verifyInternalToken (token expected : String) : Except HTTPError Unit :=
  if isAscii token ∧ isAscii expected then
    if token = expected then .ok () else .error (.unauthorized "Invalid internal auth token")
  else .error .internal

def requireHeader {α : Type} (name : String) (coerce : Coerce α) (hs : Headers) : Checked α :=
  match header name hs with
  | some value => coerceField name coerce value
  | none => .error [⟨name, "missing"⟩]

/-- The dependency every downstream service takes its tenant from. -/
def tenantDependency (expected : String) (hs : Headers) : Except HTTPError Uuid :=
  match (Checked.build Prod.mk).seq (requireHeader "X-Internal-Token" Coerce.str hs)
    |>.seq (requireHeader "X-Tenant-ID" Coerce.uuid hs) with
  | .error errors => .error (.validation errors)
  | .ok (token, tenantId) =>
    match verifyInternalToken token expected with
    | .ok () => .ok tenantId
    | .error e => .error e

namespace WorkflowService

def getTenantIdFromHeader : String → Headers → Except HTTPError Uuid := tenantDependency

end WorkflowService

namespace MemoryService

def getTenantId : String → Headers → Except HTTPError Uuid := tenantDependency

end MemoryService

namespace ObservabilityService

def getTenant : String → Headers → Except HTTPError Uuid := tenantDependency

end ObservabilityService

inductive Service where
  | workflow
  | memory
  | observability
deriving DecidableEq, Repr

/-- The tenant a service acts for. -/
def Service.tenant : Service → String → Headers → Except HTTPError Uuid
  | .workflow => WorkflowService.getTenantIdFromHeader
  | .memory => MemoryService.getTenantId
  | .observability => ObservabilityService.getTenant

/-! ## What a lookup finds in the forwarded headers -/

/-- The value the dict keeps of a client header: the last one. -/
def clientValue (name : String) (raw : Headers) : Option String :=
  Dict.lastValue name (requestItems raw)

theorem lower_of_mem_items {raw : Headers} {h : String × String} (hmem : h ∈ requestItems raw) :
    lower h.1 = h.1 := by
  obtain ⟨h', -, rfl⟩ := List.mem_map.mp hmem
  exact lower_lower h'.1

section Lookup

variable (raw : Headers) (tenantId : Uuid) (internalToken : String)

/-- The client's part of the dict. -/
def clientDict : Dict String String :=
  Dict.ofPairs ((requestItems raw).filter fun h => forwarded h.1)

theorem lower_of_mem_clientDict {h : String × String} (hmem : h ∈ (clientDict raw).entries) :
    lower h.1 = h.1 :=
  lower_of_mem_items (List.mem_filter.mp (Dict.key_mem_of_ofPairs hmem)).1

/-- The injected names are capitalised, so the client's entries stay in front. -/
theorem buildForwardHeaders_entries :
    (buildForwardHeaders raw tenantId internalToken).entries = (clientDict raw).entries ++
      [("X-Internal-Token", internalToken), ("X-Tenant-ID", tenantId.str)] := by
  have hnew : ∀ name, lower name ≠ name → ∀ h ∈ (clientDict raw).entries, h.1 ≠ name := by
    intro name hname h hmem heq
    exact hname (by rw [← heq]; exact lower_of_mem_clientDict raw hmem)
  have htoken : ((clientDict raw).set "X-Internal-Token" internalToken).entries =
      (clientDict raw).entries ++ [("X-Internal-Token", internalToken)] :=
    Dict.set_entries_of_new (hnew _ (by decide))
  have htenant : (buildForwardHeaders raw tenantId internalToken).entries =
      ((clientDict raw).set "X-Internal-Token" internalToken).entries ++
        [("X-Tenant-ID", tenantId.str)] := by
    refine Dict.set_entries_of_new fun h hmem => ?_
    have hmem : h ∈ (clientDict raw).entries ++ [("X-Internal-Token", internalToken)] := by
      rw [← htoken]
      exact hmem
    rcases List.mem_append.mp hmem with hmem | hmem
    · exact hnew _ (by decide) h hmem
    · obtain rfl := List.mem_singleton.mp hmem
      show "X-Internal-Token" ≠ "X-Tenant-ID"
      decide
  rw [htenant, htoken, List.append_assoc]
  rfl

theorem header_clientDict {name : String} (hname : forwarded (lower name)) :
    header name (clientDict raw).entries = clientValue (lower name) raw := by
  have hget : (clientDict raw).get? (lower name) = clientValue (lower name) raw := by
    rw [clientDict, Dict.get?_ofPairs, Dict.lastValue_filter forwarded hname]
    rfl
  rw [← hget, header, Dict.get?]
  refine congrArg (Option.map Prod.snd) (List.find?_congr fun h hmem => ?_)
  simp only [lower_of_mem_clientDict raw hmem]

/-- A client header of the same name hides the injected one. -/
theorem header_forwarded {name : String} (hname : forwarded (lower name)) :
    header name (buildForwardHeaders raw tenantId internalToken).entries =
      (clientValue (lower name) raw).or (header name
        [("X-Internal-Token", internalToken), ("X-Tenant-ID", tenantId.str)]) := by
  rw [buildForwardHeaders_entries, header, List.find?_append, Option.map_or,
    ← header_clientDict raw hname]
  rfl

/-- A lookup of an injected header, when the client may have sent one too. -/
theorem header_forwarded_eq (name : String) {value expected : String}
    (hname : forwarded (lower name)) (hinjected : header name
      [("X-Internal-Token", internalToken), ("X-Tenant-ID", tenantId.str)] = some value) :
    header name (buildForwardHeaders raw tenantId internalToken).entries = some expected ↔
      (clientValue (lower name) raw).getD value = expected := by
  rw [header_forwarded raw tenantId internalToken hname, hinjected]
  cases clientValue (lower name) raw with
  | none => exact Option.some_inj
  | some v => exact Option.some_inj

end Lookup

/-! ## The tenant a service derives -/

theorem verifyInternalToken_eq_ok_iff {token expected : String} :
    verifyInternalToken token expected = .ok () ↔ token = expected ∧ isAscii expected := by
  unfold verifyInternalToken
  constructor
  · intro h
    split at h
    · rename_i hascii
      split at h
      · rename_i heq
        exact ⟨heq, hascii.2⟩
      · cases h
    · cases h
  · rintro ⟨rfl, hascii⟩
    rw [if_pos ⟨hascii, hascii⟩, if_pos rfl]

theorem requireHeader_eq_ok_iff {α : Type} {name : String} {coerce : Coerce α} {hs : Headers}
    {a : α} :
    requireHeader name coerce hs = .ok a ↔
      ∃ value, header name hs = some value ∧ coerce value = .ok a := by
  unfold requireHeader
  cases header name hs with
  | none => simp
  | some value => simp [coerceField_eq_ok_iff]

theorem tenantDependency_ok_iff {expected : String} {hs : Headers} {tenantId : Uuid} :
    tenantDependency expected hs = .ok tenantId ↔
      header "X-Internal-Token" hs = some expected ∧ isAscii expected ∧
        ∃ value, header "X-Tenant-ID" hs = some value ∧ Uuid.parse value = some tenantId := by
  unfold tenantDependency
  constructor
  · intro h
    split at h
    · cases h
    · rename_i token u hpair
      obtain ⟨g, u', hg, hu, hpair⟩ := Checked.seq_eq_ok_iff.mp hpair
      obtain ⟨_, token', hbuild, ht, rfl⟩ := Checked.seq_eq_ok_iff.mp hg
      cases hbuild
      cases hpair
      obtain ⟨_, htoken, hstr⟩ := requireHeader_eq_ok_iff.mp ht
      obtain ⟨value, hvalue, huuid⟩ := requireHeader_eq_ok_iff.mp hu
      cases hstr
      split at h
      · rename_i hverify
        obtain ⟨rfl, hascii⟩ := verifyInternalToken_eq_ok_iff.mp hverify
        cases h
        exact ⟨htoken, hascii, value, hvalue, Coerce.uuid_eq_ok_iff.mp huuid⟩
      · cases h
  · rintro ⟨htoken, hascii, value, hvalue, hparse⟩
    have ht : requireHeader "X-Internal-Token" Coerce.str hs = .ok expected :=
      requireHeader_eq_ok_iff.mpr ⟨expected, htoken, rfl⟩
    have hu : requireHeader "X-Tenant-ID" Coerce.uuid hs = .ok tenantId :=
      requireHeader_eq_ok_iff.mpr ⟨value, hvalue, Coerce.uuid_eq_ok_iff.mpr hparse⟩
    simp only [ht, hu, Checked.build_eq, Checked.seq_ok,
      verifyInternalToken_eq_ok_iff.mpr ⟨rfl, hascii⟩]

/-- A service acts for the authenticated tenant exactly when the client sent no header
of an injected name, or sent the very token and a text of the very tenant. -/
theorem tenant_forwarded_iff (s : Service) (raw : Headers) (tenantId : Uuid)
    (internalToken : String) :
    s.tenant internalToken (buildForwardHeaders raw tenantId internalToken).entries =
        .ok tenantId ↔
      isAscii internalToken ∧
        (∀ v, clientValue "x-internal-token" raw = some v → v = internalToken) ∧
        ∀ v, clientValue "x-tenant-id" raw = some v → Uuid.parse v = some tenantId := by
  have hservice : s.tenant = tenantDependency := by cases s <;> rfl
  have htoken : header "X-Internal-Token"
      [("X-Internal-Token", internalToken), ("X-Tenant-ID", tenantId.str)] =
        some internalToken := by
    simp [header]
  have htenant : header "X-Tenant-ID"
      [("X-Internal-Token", internalToken), ("X-Tenant-ID", tenantId.str)] =
        some tenantId.str := by
    have hne : lower "X-Internal-Token" ≠ lower "X-Tenant-ID" := by decide
    simp [header, hne]
  rw [hservice, tenantDependency_ok_iff,
    header_forwarded_eq raw tenantId internalToken "X-Internal-Token" (by decide) htoken]
  simp only [header_forwarded_eq raw tenantId internalToken "X-Tenant-ID" (by decide) htenant]
  have hsameToken : (clientValue "x-internal-token" raw).getD internalToken = internalToken ↔
      ∀ v, clientValue "x-internal-token" raw = some v → v = internalToken := by
    cases clientValue "x-internal-token" raw <;> simp
  have hsameTenant : (∃ value, (clientValue "x-tenant-id" raw).getD tenantId.str = value ∧
        Uuid.parse value = some tenantId) ↔
      ∀ v, clientValue "x-tenant-id" raw = some v → Uuid.parse v = some tenantId := by
    cases clientValue "x-tenant-id" raw <;> simp [Uuid.parse_str]
  show (clientValue "x-internal-token" raw).getD internalToken = internalToken ∧ _ ∧
    (∃ value, (clientValue "x-tenant-id" raw).getD tenantId.str = value ∧ _) ↔ _
  rw [hsameToken, hsameTenant, and_left_comm]

theorem tenant_impersonated :
    Service.workflow.tenant "internal-secret" (buildForwardHeaders
        [("X-TENANT-ID", "22222222-2222-2222-2222-222222222222")] (Uuid.repdigit 1)
        "internal-secret").entries = .ok (Uuid.repdigit 2) ∧
      Uuid.repdigit 2 ≠ Uuid.repdigit 1 := by
  decide +kernel

end Sutram.Gateway
