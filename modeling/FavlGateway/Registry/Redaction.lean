/-
  Redaction of connector configuration on every outbound path (`app/security/redaction.py`).

  Anything that leaves the service passes through `redactConfig`.  The three mutually recursive
  functions of the source thread the key's sensitivity inward through dicts and lists; here they
  are one structural recursion over the nested value, with its list and member cases as companions.
-/
import FavlGateway.Library.Json

namespace FavlGateway.Registry

open FavlGateway.Library

/-- `REDACTED` -/
def redacted : Json String := .str "[redacted]"

/-! ## Key names -/

/-- The letter a character stands for under `re.IGNORECASE`: ASCII letters fold, and so do the four
    non-ASCII characters Python pairs with `i`, `s` and `k`. -/
def foldCase (c : Char) : Char :=
  if 'A' ≤ c ∧ c ≤ 'Z' then Char.ofNat (c.toNat + 32)
  else if c.toNat = 0x130 ∨ c.toNat = 0x131 then 'i'
  else if c.toNat = 0x17F then 's'
  else if c.toNat = 0x212A then 'k'
  else c

/-- `str.lower()`, exact on every character whose lower case is ASCII (the Kelvin sign among them);
    it is only ever compared with ASCII names. -/
def lowerChar (c : Char) : Char :=
  if 'A' ≤ c ∧ c ≤ 'Z' then Char.ofNat (c.toNat + 32)
  else if c.toNat = 0x212A then 'k'
  else c

def lower (s : String) : List Char := s.toList.map lowerChar

/-- `needle in haystack` -/
def containsSub (needle : List Char) : List Char → Bool
  | [] => needle.isEmpty
  | c :: cs => needle.isPrefixOf (c :: cs) || containsSub needle cs

/-- The alternatives of `SENSITIVE_KEY`, the optional separators written out. -/
def sensitiveNames : List String :=
  ["secret", "token", "password", "passwd", "credential", "apikey", "api_key", "api-key",
    "privatekey", "private_key", "private-key", "authorization", "auth", "bearer", "signature",
    "salt", "session"]

/-- `SENSITIVE_KEY.search(key)` -/
def sensitiveKey (key : String) : Bool :=
  sensitiveNames.any fun n => containsSub n.toList (key.toList.map foldCase)

/-- Keys that are structural rather than sensitive. -/
def structuralKeys : List String :=
  ["base_url", "target_url", "health_url", "allowed_hosts", "allowed_schemes",
    "allowed_content_types", "service", "operation", "method", "health_method", "path", "kind",
    "max_redirects", "max_response_bytes", "connect_timeout", "read_timeout", "timeout_seconds",
    "idempotency_header", "signing_secret_ref"]

def structuralKey (key : String) : Bool := structuralKeys.any fun k => k.toList = lower key

/-- A reference is safe to publish; a value never is. -/
def isReference : Json String → Bool
  | .str s => "secret://".toList.isPrefixOf s.toList
  | _ => false

/-! ## Values -/

def redactValue (key : String) (value : Json String) (parentSensitive : Bool) : Json String :=
  if isReference value then value
  else if parentSensitive || sensitiveKey key then redacted
  else match value with
    | .str _ => if structuralKey key then value else redacted
    -- non-string scalars cannot carry a credential
    | v => v

/-- Header NAMES stay visible; literal VALUES never do. -/
def redactHeaders (headers : Dict String) : Dict String :=
  headers.map fun h => (h.1, if isReference h.2 then h.2 else redacted)

mutual

/-- Redact a value of any shape, carrying the key's sensitivity inward. -/
def redactAny (key : String) (parentSensitive : Bool) : Json String → Json String
  | .obj ms =>
    if lower key = "headers".toList then .obj (redactHeaders ms)
    else .obj (redactMembers (parentSensitive || sensitiveKey key) ms)
  | .arr xs => .arr (redactItems key (parentSensitive || sensitiveKey key) xs)
  | .null => redactValue key .null (parentSensitive || sensitiveKey key)
  | .bool b => redactValue key (.bool b) (parentSensitive || sensitiveKey key)
  | .number n => redactValue key (.number n) (parentSensitive || sensitiveKey key)
  | .str s => redactValue key (.str s) (parentSensitive || sensitiveKey key)

def redactItems (key : String) (parentSensitive : Bool) : List (Json String) → List (Json String)
  | [] => []
  | x :: xs => redactAny key parentSensitive x :: redactItems key parentSensitive xs

def redactMembers (parentSensitive : Bool) : List (String × Json String) → List (String × Json String)
  | [] => []
  | (k, x) :: ms => (k, redactAny k parentSensitive x) :: redactMembers parentSensitive ms

end

/-- Deep-redact a connector configuration for publication. -/
def redactConfig (config : Dict String) : Dict String := redactMembers false config

end FavlGateway.Registry
