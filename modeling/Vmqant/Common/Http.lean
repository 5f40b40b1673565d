import Vmqant.Common.Printf

/-!
# HTTP requests

What a handler sees of a request of `net/http`, and the access to its header: a key is put into its canonical
form first, with a capital letter at its start and after each hyphen.
-/

namespace Http

open Printf (ascii)

/-- A `map[string][]string`, with the order that the next `range` takes. -/
abbrev Values := AList fun _ : List UInt8 => List (List UInt8)

/-- `url.URL`: its path, `String()` and `Query()`. -/
structure URL where
  path : List UInt8
  string : List UInt8
  query : Values

/-- `http.Request`. The body is what can be read of it. -/
structure Request where
  method : List UInt8
  url : URL
  header : Values
  host : List UInt8
  remoteAddr : List UInt8
  body : Option (List UInt8)

def IsUpper (c : UInt8) : Prop := 'A'.toUInt8 ≤ c ∧ c ≤ 'Z'.toUInt8

def IsLower (c : UInt8) : Prop := 'a'.toUInt8 ≤ c ∧ c ≤ 'z'.toUInt8

instance : DecidablePred IsUpper := fun _ => inferInstanceAs (Decidable (_ ∧ _))
instance : DecidablePred IsLower := fun _ => inferInstanceAs (Decidable (_ ∧ _))

/-- A byte that may stand in a key. -/
def TokenByte (c : UInt8) : Prop :=
  IsUpper c ∨ IsLower c ∨ ('0'.toUInt8 ≤ c ∧ c ≤ '9'.toUInt8) ∨ c ∈ ascii "!#$%&'*+-.^_\x60|~"

instance : DecidablePred TokenByte := fun _ => inferInstanceAs (Decidable (_ ∨ _))

/-- The letters of a key; `upper` tells that a word starts. -/
def title (upper : Bool) : List UInt8 → List UInt8
  | [] => []
  | c :: s =>
    let c := if upper ∧ IsLower c then c - 0x20 else if ¬ upper ∧ IsUpper c then c + 0x20 else c
    c :: title (c = '-'.toUInt8) s

/-- `textproto.CanonicalMIMEHeaderKey`. -/
def canonicalKey (key : List UInt8) : List UInt8 :=
  if ∀ c ∈ key, TokenByte c then title true key else key

/-- `Header.Get`. -/
def getHeader (h : Values) (key : List UInt8) : List UInt8 := ((h.lookup (canonicalKey key)).getD []).headD []

/-- `Header.Set`. -/
def setHeader (h : Values) (key value : List UInt8) : Values := h.insert (canonicalKey key) [value]

end Http
