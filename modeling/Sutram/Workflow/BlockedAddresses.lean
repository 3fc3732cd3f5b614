/-
The addresses behind the blocked networks.

`insideRanges` lists the addresses a webhook must not reach, of both versions alike: the
unspecified, loopback, link-local and private ones, and the IPv6 forms of IPv4 addresses.
The blocked networks are these ranges but for one address, the unspecified one of IPv6.
-/
import Mathlib.Data.List.Basic
import Sutram.Workflow.UrlValidator

namespace Sutram.Workflow

/-! ## Ranges -/

structure AddressRange where
  version : IpVersion
  first : Nat
  last : Nat
deriving DecidableEq, Repr

namespace AddressRange

def holds (r : AddressRange) (ip : IpAddress) : Prop :=
  ip.version = r.version ∧ r.first ≤ ip.value ∧ ip.value ≤ r.last

instance (r : AddressRange) (ip : IpAddress) : Decidable (r.holds ip) :=
  inferInstanceAs (Decidable (_ ∧ _))

end AddressRange

def dotted (a b c d : Nat) : Nat := ((a * 256 + b) * 256 + c) * 256 + d

/-- `::` -/
def unspecified6 : IpAddress := ⟨.v6, 0, by decide⟩

def unspecifiedRange : AddressRange := ⟨.v6, 0, 0⟩

/-- The addresses of the local host and of private networks. -/
def insideRanges : List AddressRange :=
  [
    -- unspecified, loopback, link-local
    ⟨.v4, dotted 0 0 0 0, dotted 0 0 0 0⟩,
    ⟨.v4, dotted 127 0 0 0, dotted 127 255 255 255⟩,
    ⟨.v4, dotted 169 254 0 0, dotted 169 254 255 255⟩,
    -- RFC 1918
    ⟨.v4, dotted 10 0 0 0, dotted 10 255 255 255⟩,
    ⟨.v4, dotted 172 16 0 0, dotted 172 31 255 255⟩,
    ⟨.v4, dotted 192 168 0 0, dotted 192 168 255 255⟩,
    -- unspecified, loopback, unique-local, link-local, IPv4-mapped
    unspecifiedRange,
    ⟨.v6, 1, 1⟩,
    ⟨.v6, 0xfc00 * 2 ^ 112, 0xfe00 * 2 ^ 112 - 1⟩,
    ⟨.v6, 0xfe80 * 2 ^ 112, 0xfec0 * 2 ^ 112 - 1⟩,
    ⟨.v6, 0xffff * 2 ^ 32, 0x10000 * 2 ^ 32 - 1⟩]

/-- The address reaches the local host or a private network. -/
def IpAddress.ReachesInside (ip : IpAddress) : Prop := ∃ r ∈ insideRanges, r.holds ip

instance (ip : IpAddress) : Decidable ip.ReachesInside :=
  inferInstanceAs (Decidable (∃ r ∈ insideRanges, r.holds ip))

theorem unspecifiedRange_holds {ip : IpAddress} :
    unspecifiedRange.holds ip ↔ ip = unspecified6 := by
  obtain ⟨version, value, hvalue⟩ := ip
  simp [AddressRange.holds, unspecifiedRange, unspecified6]

/-! ## Networks as ranges -/

namespace IpNetwork

/-- The addresses with the network's leading bits. -/
def range (net : IpNetwork) : AddressRange :=
  let hosts := 2 ^ (net.version.width - net.prefixlen)
  ⟨net.version, net.base / hosts * hosts, (net.base / hosts + 1) * hosts - 1⟩

theorem contains_iff (net : IpNetwork) (ip : IpAddress) :
    net.contains ip ↔ net.range.holds ip := by
  have hpos : 0 < 2 ^ (net.version.width - net.prefixlen) := Nat.two_pow_pos _
  have heq (q m : Nat) : q = m ↔ m ≤ q ∧ q < m + 1 := by omega
  have hlast (q m : Nat) (hm : 0 < m) : q < m ↔ q ≤ m - 1 := by omega
  rw [contains, decide_eq_true_iff, heq, Nat.le_div_iff_mul_le hpos, Nat.div_lt_iff_lt_mul hpos,
    hlast _ _ (Nat.mul_pos (Nat.succ_pos _) hpos)]
  rfl

end IpNetwork

/-- One range has no network. -/
theorem blockedNetworks_ranges :
    (blockedNetworks.map IpNetwork.range).Perm (insideRanges.erase unspecifiedRange) := by
  decide +kernel

theorem IpAddress.isBlocked_iff (ip : IpAddress) :
    ip.isBlocked ↔ ip.ReachesInside ∧ ip ≠ unspecified6 := by
  have hranges : ip.isBlocked ↔ ∃ r ∈ insideRanges.erase unspecifiedRange, r.holds ip := by
    simp only [isBlocked, List.any_eq_true, IpNetwork.contains_iff,
      ← blockedNetworks_ranges.mem_iff, List.mem_map, exists_exists_and_eq_and]
  have hnodup : insideRanges.Nodup := by decide +kernel
  rw [hranges]
  constructor
  · intro ⟨r, hr, hholds⟩
    refine ⟨⟨r, List.mem_of_mem_erase hr, hholds⟩, ?_⟩
    rintro rfl
    have hnone : ∀ r ∈ insideRanges.erase unspecifiedRange, ¬ r.holds unspecified6 := by
      decide +kernel
    exact hnone r hr hholds
  · intro ⟨⟨r, hr, hholds⟩, hne⟩
    refine ⟨r, (hnodup.mem_erase_iff).mpr ⟨?_, hr⟩, hholds⟩
    rintro rfl
    exact hne (unspecifiedRange_holds.mp hholds)

/-! ## The validator -/

/-- The resolver answers with the texts of these addresses. -/
def Resolves (lib : UrlLibrary) (now : Nat) (hostname : String) (ips : List IpAddress) : Prop :=
  ∃ results, lib.getaddrinfo hostname now = some results ∧
    results.map lib.ipAddress = ips.map some

theorem validateWebhookUrl_ok_of_resolves {lib : UrlLibrary} {now : Nat} {url hostname : String}
    {ips : List IpAddress} (hhost : HasHost lib url hostname)
    (hresolves : Resolves lib now hostname ips) :
    validateWebhookUrl lib now url = .ok () ↔ ∀ ip ∈ ips, ip.isBlocked = false := by
  obtain ⟨results, hresults, htexts⟩ := hresolves
  have hread (ip : IpAddress) : ip ∈ ips ↔ ∃ text ∈ results, lib.ipAddress text = some ip := by
    have hmem : some ip ∈ ips.map some ↔ ip ∈ ips := by simp
    rw [← hmem, ← htexts, List.mem_map]
  rw [validateWebhookUrl_ok_iff]
  constructor
  · intro ⟨hostname', hhost', results', hresults', hout⟩ ip hip
    obtain ⟨scheme, -, hurl⟩ := hhost.parsed
    obtain ⟨-, hname, -⟩ := (hasHost_iff hurl).mp hhost'
    obtain rfl : hostname = hostname' := Option.some.inj hname
    obtain rfl : results = results' := Option.some.inj (hresults.symm.trans hresults')
    obtain ⟨text, htext, hip⟩ := (hread ip).mp hip
    exact hout text htext ip hip
  · intro hout
    refine ⟨hostname, hhost, results, hresults, fun text htext ip hip => ?_⟩
    exact hout ip ((hread ip).mpr ⟨text, htext, hip⟩)

/-- A URL is accepted just when none of its addresses reaches inside, exactly as long as
the unspecified address of IPv6 is not the only one that does. -/
theorem validateWebhookUrl_inside_iff {lib : UrlLibrary} {now : Nat} {url hostname : String}
    {ips : List IpAddress} (hhost : HasHost lib url hostname)
    (hresolves : Resolves lib now hostname ips) :
    (validateWebhookUrl lib now url = .ok () ↔ ∀ ip ∈ ips, ¬ ip.ReachesInside) ↔
      (unspecified6 ∈ ips → ∃ ip ∈ ips, ip.ReachesInside ∧ ip ≠ unspecified6) := by
  have hinside : unspecified6.ReachesInside := by decide +kernel
  have hblocked (ip : IpAddress) :
      ip.isBlocked = false ↔ ¬ (ip.ReachesInside ∧ ip ≠ unspecified6) := by
    rw [← ip.isBlocked_iff, Bool.not_eq_true]
  simp only [validateWebhookUrl_ok_of_resolves hhost hresolves, hblocked]
  constructor
  · intro h hmem
    by_contra hnone
    have hout : ∀ ip ∈ ips, ¬ (ip.ReachesInside ∧ ip ≠ unspecified6) :=
      fun ip hip hboth => hnone ⟨ip, hip, hboth⟩
    exact h.mp hout unspecified6 hmem hinside
  · intro h
    constructor
    · intro hout ip hip hreaches
      by_cases hne : ip = unspecified6
      · subst hne
        obtain ⟨ip', hip', hboth⟩ := h hip
        exact hout ip' hip' hboth
      · exact hout ip hip ⟨hreaches, hne⟩
    · intro hout ip hip hboth
      exact hout ip hip hboth.1

/-- A library for one URL, whose hostname resolves to the given texts. -/
def libraryOf (results : List String) : UrlLibrary where
  urlparse url :=
    if url = "http://hooks.example/in" then some ⟨"http", some "hooks.example"⟩ else none
  ipAddress text :=
    if text = "::" then some unspecified6
    else if text = "10.0.0.1" then some ⟨.v4, dotted 10 0 0 1, by decide⟩
    else none
  getaddrinfo hostname _ := if hostname = "hooks.example" then some results else none
  repr s := "'" ++ s ++ "'"

theorem libraryOf_hasHost (results : List String) :
    HasHost (libraryOf results) "http://hooks.example/in" "hooks.example" :=
  ⟨⟨"http", by simp, rfl⟩, by decide⟩

/-- The hostname resolves to `::`, which connects to the local host. -/
theorem unspecified6_accepted :
    HasHost (libraryOf ["::"]) "http://hooks.example/in" "hooks.example" ∧
      Resolves (libraryOf ["::"]) 0 "hooks.example" [unspecified6] ∧
      unspecified6.ReachesInside ∧
      validateWebhookUrl (libraryOf ["::"]) 0 "http://hooks.example/in" = .ok () :=
  ⟨libraryOf_hasHost _, ⟨["::"], rfl, rfl⟩, by decide +kernel, by decide +kernel⟩

theorem unspecified6_beside_private :
    validateWebhookUrl (libraryOf ["::", "10.0.0.1"]) 0 "http://hooks.example/in" ≠ .ok () := by
  have hresolves : Resolves (libraryOf ["::", "10.0.0.1"]) 0 "hooks.example"
      [unspecified6, ⟨.v4, dotted 10 0 0 1, by decide⟩] := ⟨["::", "10.0.0.1"], rfl, rfl⟩
  have hiff := (validateWebhookUrl_inside_iff (libraryOf_hasHost _) hresolves).mpr
    (by decide +kernel)
  exact fun hok => hiff.mp hok unspecified6 List.mem_cons_self (by decide +kernel)

end Sutram.Workflow
