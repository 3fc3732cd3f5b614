/-
The client through which the gateway sends.

All requests share one `AsyncClient(follow_redirects=True)` of httpx.  It keeps the cookies
that responses set, whomever they answer, and adds those it has for a URL to a request; and
it follows a redirect with a request of its own, up to `max_redirects` times.
-/
import Sutram.Gateway.Proxy

namespace Sutram.Gateway

open Sutram.Core

/-! ## Redirects -/

/-- There is a header with the name, in any case. -/
def hasHeader (name : String) (headers : Headers) : Bool :=
  headers.any fun h => lower h.1 = lower name

/-- `has_redirect_location` of httpx. -/
def hasRedirectLocation (statusCode : Nat) (headers : Headers) : Bool :=
  statusCode ∈ [301, 302, 303, 307, 308] ∧ hasHeader "Location" headers

/-- The default of httpx, which `init_clients` leaves. -/
def maxRedirects : Nat := 20

/-! ## Cookies -/

/-- `Cookies.set_cookie_header` of httpx: a `Cookie` header that the request has stays. -/
def setCookieHeader (cookies : Option String) (headers : Dict String String) :
    Dict String String :=
  match cookies with
  | some value =>
    if hasHeader "Cookie" headers.entries then headers else headers.set "Cookie" value
  | none => headers

/-- A response as the client sees it, and when it comes. -/
structure UpstreamReply where
  time : Nat
  url : Text
  statusCode : Nat
  headers : Headers

def UpstreamReply.setsCookies (r : UpstreamReply) : Bool := hasHeader "Set-Cookie" r.headers

def UpstreamReply.redirects (r : UpstreamReply) : Bool := hasRedirectLocation r.statusCode r.headers

/-! ## The client -/

/-- What httpx makes of redirects and of cookies. -/
structure Httpx where
  /-- `_build_redirect_request` without cookies, `none` if it raises.  A `Cookie` header of the
  request is dropped, so those that the jar had for it do not matter. -/
  redirectRequest : Proxy.UpstreamRequest → UpstreamReply → Option Proxy.UpstreamRequest
  /-- What the jar has for a URL at a time, after these responses. -/
  cookieHeader : List UpstreamReply → Nat → Text → Option String
  cookieHeader_eq_none : ∀ {replies : List UpstreamReply} (now : Nat) (url : Text),
    (∀ r ∈ replies, r.setsCookies = false) → cookieHeader replies now url = none

/-- A request as it is asked for, and as it goes downstream. -/
structure Built where
  request : Proxy.UpstreamRequest
  sent : Proxy.UpstreamRequest
  sent_eq : ∃ cookies, sent = { request with headers := setCookieHeader cookies request.headers }
deriving DecidableEq

namespace Httpx

/-- `build_request` of httpx, after these responses. -/
def build (h : Httpx) (replies : List UpstreamReply) (now : Nat)
    (request : Proxy.UpstreamRequest) : Built where
  request := request
  sent := { request with
    headers := setCookieHeader (h.cookieHeader replies now request.url) request.headers }
  sent_eq := ⟨_, rfl⟩

/-- The client if it kept no cookies. -/
def cookieless (h : Httpx) : Httpx where
  redirectRequest := h.redirectRequest
  cookieHeader _ _ _ := none
  cookieHeader_eq_none _ _ _ := rfl

end Httpx

/-- The request without the cookies of the jar. -/
def Built.bare (b : Built) : Built := ⟨b.request, b.request, none, rfl⟩

variable {h : Httpx} {replies : List UpstreamReply}

theorem bare_build (others : List UpstreamReply) (now now' : Nat)
    (request : Proxy.UpstreamRequest) :
    (h.build replies now request).bare = h.cookieless.build others now' request := rfl

/-- Where no response sets a cookie, requests go downstream as they are asked for. -/
theorem bare_build_eq_self (hreplies : ∀ r ∈ replies, r.setsCookies = false) (now : Nat)
    (request : Proxy.UpstreamRequest) :
    (h.build replies now request).bare = h.build replies now request := by
  simp only [Httpx.build, h.cookieHeader_eq_none now request.url hreplies]
  rfl

end Sutram.Gateway
