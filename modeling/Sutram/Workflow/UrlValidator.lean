/-
Webhook URL validation.

`validate_webhook_url` refuses a URL whose hostname resolves, at the time of the call,
to an address in one of the blocked networks.  Parsing a URL, reading an address from
its text and the resolver are given; the resolver is any function of hostname and time.
-/
import Mathlib.Algebra.Group.Nat.Defs

namespace Sutram.Workflow

/-! ## Addresses -/

inductive IpVersion where
  | v4 | v6
deriving DecidableEq, Repr

def IpVersion.width : IpVersion → Nat
  | v4 => 32
  | v6 => 128

structure IpAddress where
  version : IpVersion
  value : Nat
  value_lt : value < 2 ^ version.width
deriving DecidableEq

structure IpNetwork where
  version : IpVersion
  base : Nat
  prefixlen : Nat
deriving DecidableEq, Repr

namespace IpNetwork

def ofV4 (a b c d prefixlen : Nat) : IpNetwork :=
  ⟨.v4, ((a * 256 + b) * 256 + c) * 256 + d, prefixlen⟩

def ofV6 (base prefixlen : Nat) : IpNetwork := ⟨.v6, base, prefixlen⟩

/-- `ip in network`: the same version, and the same leading bits. -/
def contains (net : IpNetwork) (ip : IpAddress) : Bool :=
  ip.version = net.version ∧
    ip.value / 2 ^ (net.version.width - net.prefixlen) =
      net.base / 2 ^ (net.version.width - net.prefixlen)

end IpNetwork

/-- RFC 1918 private ranges, loopback, link-local and metadata services. -/
def blockedNetworks : List IpNetwork :=
  [.ofV4 10 0 0 0 8,
    .ofV4 172 16 0 0 12,
    .ofV4 192 168 0 0 16,
    -- loopback
    .ofV4 127 0 0 0 8,
    -- link-local / AWS IMDS
    .ofV4 169 254 0 0 16,
    -- unspecified address
    .ofV4 0 0 0 0 32,
    -- IPv6 loopback
    .ofV6 1 128,
    -- IPv6 private
    .ofV6 (0xfc00 * 2 ^ 112) 7,
    -- IPv6 link-local
    .ofV6 (0xfe80 * 2 ^ 112) 10,
    -- IPv4-mapped IPv6
    .ofV6 (0xffff * 2 ^ 32) 96]

def IpAddress.isBlocked (ip : IpAddress) : Bool := blockedNetworks.any fun net => net.contains ip

/-! ## Validation -/

structure ParsedUrl where
  scheme : String
  hostname : Option String
deriving DecidableEq, Repr

/-- The library functions of the validator.  `none` is a call that raises. -/
structure UrlLibrary where
  urlparse : String → Option ParsedUrl
  ipAddress : String → Option IpAddress
  /-- The address texts the resolver answers at a time. -/
  getaddrinfo : String → Nat → Option (List String)
  repr : String → String

inductive WebhookURLError where
  | invalid (url : String)
  | scheme (scheme : String)
  | noHostname
  | unresolved (hostname : String)
  | blocked (ip : String)
deriving DecidableEq, Repr

def WebhookURLError.message (lib : UrlLibrary) : WebhookURLError → String
  | invalid url => "Invalid URL: " ++ lib.repr url
  | scheme s => "Webhook URL must use https:// scheme, got: " ++ lib.repr s
  | noHostname => "Webhook URL must include a hostname"
  | unresolved hostname => "Webhook hostname could not be resolved: " ++ lib.repr hostname
  | blocked ip =>
    "Webhook URL resolves to a private/internal IP address (" ++ ip ++
      ") and cannot be used as a webhook endpoint"

/-- An address text that cannot be read is passed over. -/
def isBlockedText (lib : UrlLibrary) (text : String) : Bool :=
  match lib.ipAddress text with
  | some ip => ip.isBlocked
  | none => false

def validateWebhookUrl (lib : UrlLibrary) (now : Nat) (url : String) :
    Except WebhookURLError Unit :=
  match lib.urlparse url with
  | none => .error (.invalid url)
  | some parsed =>
    let hostname := parsed.hostname.getD ""
    if parsed.scheme ∉ ["https", "http"] then .error (.scheme parsed.scheme)
    else if hostname = "" then .error .noHostname
    else
      match lib.getaddrinfo hostname now with
      | none => .error (.unresolved hostname)
      | some results =>
        match results.find? (isBlockedText lib) with
        | some text => .error (.blocked text)
        | none => .ok ()

/-! ## What is accepted -/

/-- What the URL's text alone says: its scheme is http or https and it has this
hostname. -/
structure HasHost (lib : UrlLibrary) (url hostname : String) : Prop where
  parsed : ∃ scheme ∈ ["https", "http"], lib.urlparse url = some ⟨scheme, some hostname⟩
  nonempty : hostname ≠ ""

/-- The hostname resolves at the time, and to no blocked address. -/
def ResolvesOutside (lib : UrlLibrary) (now : Nat) (hostname : String) : Prop :=
  ∃ results, lib.getaddrinfo hostname now = some results ∧
    ∀ text ∈ results, ∀ ip, lib.ipAddress text = some ip → ip.isBlocked = false

theorem isBlockedText_eq_false {lib : UrlLibrary} {text : String} :
    isBlockedText lib text = false ↔ ∀ ip, lib.ipAddress text = some ip → ip.isBlocked = false := by
  unfold isBlockedText
  cases lib.ipAddress text <;> simp

theorem hasHost_iff {lib : UrlLibrary} {url hostname : String} {parsed : ParsedUrl}
    (hparsed : lib.urlparse url = some parsed) :
    HasHost lib url hostname ↔
      parsed.scheme ∈ ["https", "http"] ∧ parsed.hostname = some hostname ∧ hostname ≠ "" := by
  constructor
  · intro h
    obtain ⟨scheme, hscheme, hurl⟩ := h.parsed
    obtain rfl : parsed = ⟨scheme, some hostname⟩ := by simpa [hparsed] using hurl
    exact ⟨hscheme, rfl, h.nonempty⟩
  · intro h
    refine ⟨⟨parsed.scheme, h.1, ?_⟩, h.2.2⟩
    rw [hparsed, ← h.2.1]

theorem resolvesOutside_iff {lib : UrlLibrary} {now : Nat} {hostname : String}
    {results : List String} (hresults : lib.getaddrinfo hostname now = some results) :
    ResolvesOutside lib now hostname ↔ results.find? (isBlockedText lib) = none := by
  rw [List.find?_eq_none]
  constructor
  · intro h text htext
    obtain ⟨results', hresults', hout⟩ := h
    obtain rfl : results = results' := by simpa [hresults] using hresults'
    have hfalse := isBlockedText_eq_false.mpr (hout text htext)
    simp [hfalse]
  · intro h
    refine ⟨results, hresults, fun text htext => isBlockedText_eq_false.mp ?_⟩
    simpa using h text htext

/-- The validator accepts a URL with a host that resolves outside the blocked networks. -/
theorem validateWebhookUrl_ok_iff (lib : UrlLibrary) (now : Nat) (url : String) :
    validateWebhookUrl lib now url = .ok () ↔
      ∃ hostname, HasHost lib url hostname ∧ ResolvesOutside lib now hostname := by
  unfold validateWebhookUrl
  cases hparsed : lib.urlparse url with
  | none =>
    constructor
    · intro h
      cases h
    · intro h
      obtain ⟨hostname, hhost, -⟩ := h
      obtain ⟨scheme, -, hurl⟩ := hhost.parsed
      rw [hparsed] at hurl
      cases hurl
  | some parsed =>
    simp only [hasHost_iff hparsed]
    by_cases hscheme : parsed.scheme ∈ ["https", "http"]
    · rw [if_neg (not_not_intro hscheme)]
      cases hhostname : parsed.hostname with
      | none => simp
      | some hostname =>
        rw [Option.getD_some]
        simp only [Option.some.injEq, and_assoc]
        by_cases hempty : hostname = ""
        · rw [if_pos hempty]
          simp [hempty]
        · rw [if_neg hempty]
          cases hresults : lib.getaddrinfo hostname now with
          | none => simp [hempty, ResolvesOutside, hresults]
          | some results =>
            have houtside := resolvesOutside_iff hresults
            cases hfind : results.find? (isBlockedText lib) <;> rw [hfind] at houtside <;>
              simp [hscheme, hempty, houtside, hfind]
    · rw [if_pos hscheme]
      simp [hscheme]

end Sutram.Workflow
