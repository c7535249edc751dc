/-
  What a guarded request finds outside: URL parsing and joining, the text form of addresses, name
  resolution and HTTP.

  Parsing is a `Platform` of arbitrary functions.  Resolution and HTTP are operations (`NetOp`), answered
  by whoever controls the names and the servers.
-/
import FavlGateway.Library.IpAddress
import FavlGateway.Library.Prog
import FavlGateway.Library.Text

namespace FavlGateway.Security

open FavlGateway.Library

/-- The exceptions of a guarded request. -/
inductive Exc where
  /-- `SSRFBlocked` -/
  | blocked (reason : String) (detail : PyStr)
  | tooManyRedirects
  | contentTypeRejected (contentType : PyStr)
  | responseTooLarge
  | valueError
  | typeError
  | attributeError
  /-- `httpx.InvalidURL` -/
  | invalidUrl
  /-- what escaped `socket.getaddrinfo`, `client.request`, `response.aclose` or the body's stream -/
  | escaped
  deriving DecidableEq

/-! ## URLs -/

/-- What `urlparse` makes of a URL. -/
structure ParsedUrl where
  scheme : PyStr
  hostname : Option PyStr
  username : Option PyStr
  password : Option PyStr
  /-- `none` where reading it raises `ValueError` -/
  port : Option (Option Nat)
  /-- `parsed._replace(netloc=…).geturl()` -/
  withNetloc : PyStr → PyStr

structure Platform where
  unicode : Unicode
  /-- `none` where it raises `ValueError` -/
  urlparse : PyStr → Option ParsedUrl
  /-- `ipaddress.ip_address`; `none` where it raises `ValueError` -/
  ipAddress : PyStr → Option IpAddress
  /-- `str` of an address -/
  ipText : IpAddress → PyStr
  /-- `str(httpx.URL(url).join(location))`; `none` where it raises -/
  join : PyStr → PyStr → Option PyStr
  /-- `httpx.URL(url).host`; `none` where it raises -/
  urlHost : PyStr → Option PyStr

/-! ## Operations -/

/-- How `socket.getaddrinfo` ends. -/
inductive Lookup where
  /-- the addresses of the answers, in order -/
  | infos (addresses : List PyStr)
  | gaierror (text : PyStr)
  | raised

/-- The arguments of `client.request`. -/
structure Call where
  method : PyStr
  url : PyStr
  headers : List (PyStr × PyStr)
  json : Json PyStr
  content : Option (List UInt8)
  timeout : ℚ
  connectTimeout : ℚ
  readTimeout : ℚ
  followRedirects : Bool
  sniHostname : PyStr

/-- A response: its body arrives in chunks, and the stream may fail after them. -/
structure HttpResponse where
  statusCode : Nat
  /-- `response.headers.get` -/
  header : String → Option PyStr
  /-- `dict(response.headers)` -/
  headers : List (PyStr × PyStr)
  chunks : List (List UInt8)
  streamFails : Bool

inductive NetOp : Type → Type where
  /-- `socket.getaddrinfo(host, port, proto=socket.IPPROTO_TCP)` -/
  | getaddrinfo (host : PyStr) (port : Nat) : NetOp Lookup
  /-- `client.request`; `none` where it raises -/
  | request (call : Call) : NetOp (Option HttpResponse)
  /-- `response.aclose()`; `false` where it raises -/
  | aclose : NetOp Bool

/-- Code that makes guarded requests. -/
abbrev Outbound := Prog NetOp Exc

/-- `await o` -/
def await {β : Type} (o : NetOp β) : Outbound β := Prog.perform o

/-- What a sequence returns its second part returns, on what the first returned. -/
theorem of_bind {ε α β : Type} {x : Except ε α} {f : α → Except ε β} {b : β}
    (h : x >>= f = .ok b) : ∃ a, x = .ok a ∧ f a = .ok b := by
  cases x with
  | error e => cases h
  | ok a => exact ⟨a, rfl, h⟩

end FavlGateway.Security
