import Vmqant.Common.GoMap
import Vmqant.Common.HostPort
import Vmqant.Common.Http

/-!
# Requests of the HTTP gateway

Reference: `httpgateway/api/util.go`, lines 13-97; `httpgateway/proto/api.proto`, lines 5-21.

`RequestToProto` fills the header of its message in three passes: the forwarded address, the host, and all
headers of the request. A later pass replaces the values of a pair that is there.
-/

namespace Vmqant.HttpGateway

open Printf (ascii)
open HostPort Http

/-- What `net/http` and `mime` do with a request: `parseForm` gives the `PostForm` that `ParseForm` leaves,
and `parseMediaType` the media type. -/
structure Parsers where
  parseForm : Http.Request → Except (List UInt8) Values
  parseMediaType : List UInt8 → Except (List UInt8) (List UInt8)

/-- `Pair`. -/
structure Pair where
  key : List UInt8
  values : List (List UInt8)
deriving DecidableEq

abbrev Pairs := AList fun _ : List UInt8 => Pair

/-- `api.Request`. -/
structure ProtoRequest where
  method : List UInt8
  path : List UInt8
  header : Pairs
  get : Pairs
  post : Pairs
  body : List UInt8
  url : List UInt8

def xForwardedFor : List UInt8 := ascii "X-Forwarded-For"
def contentType : List UInt8 := ascii "Content-Type"
def hostKey : List UInt8 := ascii "Host"

theorem canonicalKey_contentType : canonicalKey contentType = contentType := by
  decide +kernel

/-- The content type of a request without a valid one. -/
def defaultType : List UInt8 := ascii "text/plain; charset=UTF-8"

/-- One round of a loop over a map: the pair of the key is made if there is none, and gets the values. -/
def setValues (pairs : Pairs) (key : List UInt8) (vals : List (List UInt8)) : Pairs :=
  match pairs.lookup key with
  | some header => pairs.insert key { header with values := vals }
  | none => pairs.insert key ⟨key, vals⟩

/-- The prior addresses and the remote host. -/
def forwardedFor (header : Values) (ip : List UInt8) : List UInt8 :=
  match header.lookup xForwardedFor with
  | some prior => List.intercalate (ascii ", ") prior ++ ascii ", " ++ ip
  | none => ip

/-- The first pass. -/
def setForwardedFor (r : Http.Request) (pairs : Pairs) : Pairs :=
  match splitHostPort r.remoteAddr with
  | .ok (ip, _) => pairs.insert xForwardedFor ⟨xForwardedFor, [forwardedFor r.header ip]⟩
  | .error _ => pairs

/-- The header after the first two passes. -/
def firstPasses (r : Http.Request) : Pairs := (setForwardedFor r ∅).insert hostKey ⟨hostKey, [r.host]⟩

/-- The content type, which is set where it does not parse. -/
def normalize (parsers : Parsers) (r : Http.Request) : List UInt8 × Http.Request :=
  match parsers.parseMediaType (getHeader r.header contentType) with
  | .ok ct => (ct, r)
  | .error _ => (defaultType, { r with header := setHeader r.header contentType defaultType })

/-- `RequestToProto`. -/
def requestToProto (parsers : Parsers) (r : Http.Request) : Except (List UInt8) ProtoRequest :=
  match parsers.parseForm r with
  | .error err => .error (ascii "Error parsing form: " ++ err)
  | .ok postForm =>
    let (ct, r) := normalize parsers r
    .ok
      { method := r.method
        path := r.url.path
        url := r.url.string
        body :=
          match r.body with
          | none => []
          | some data => if ct = ascii "application/x-www-form-urlencoded" then [] else data
        get := r.url.query.foldl setValues ∅
        post := postForm.foldl setValues ∅
        header := r.header.foldl setValues (firstPasses r) }

/-! ## What a loop leaves -/

theorem lookup_setValues (pairs : Pairs) (key key' : List UInt8) (vals : List (List UInt8)) :
    (setValues pairs key vals).lookup key' =
      if key' = key then some ⟨((pairs.lookup key).map Pair.key).getD key, vals⟩
      else pairs.lookup key' := by
  unfold setValues
  cases pairs.lookup key with
  | none => exact GoMap.lookup_insert pairs key key' ⟨key, vals⟩
  | some header => exact GoMap.lookup_insert pairs key key' ⟨header.key, vals⟩

/-- A key of the map has its values in the end, and the pairs of the other keys stay. -/
theorem lookup_foldl_setValues (entries : Values) (pairs : Pairs) (key : List UInt8) :
    (entries.foldl setValues pairs).lookup key =
      ((entries.lookup key).map (Pair.mk (((pairs.lookup key).map Pair.key).getD key))).or
        (pairs.lookup key) := by
  apply GoMap.lookup_foldl (fun old vals =>
    (vals.map (Pair.mk ((old.map Pair.key).getD key))).or old)
  · intro old
    rfl
  · intro pairs key' vals
    rw [lookup_setValues]
    split
    · next heq =>
      subst heq
      rfl
    · rfl

theorem lookup_foldl_setValues_empty (entries : Values) (key : List UInt8) :
    (entries.foldl setValues ∅).lookup key = (entries.lookup key).map (Pair.mk key) := by
  rw [lookup_foldl_setValues, AList.lookup_empty, Option.or_none]
  rfl

/-! ## What is forwarded -/

/-- The message has the forwarded address, all other headers of the request, and its forms. -/
structure Forwards (parsers : Parsers) (r : Http.Request) (ip : List UInt8) (req : ProtoRequest) : Prop where
  address : req.header.lookup xForwardedFor = some ⟨xForwardedFor, [forwardedFor r.header ip]⟩
  headers : ∀ key vals, key ≠ xForwardedFor → r.header.lookup key = some vals →
    req.header.lookup key = some ⟨key, vals⟩
  get : ∀ key, req.get.lookup key = (r.url.query.lookup key).map (Pair.mk key)
  post : ∀ postForm, parsers.parseForm r = .ok postForm →
    ∀ key, req.post.lookup key = (postForm.lookup key).map (Pair.mk key)

/-- The content type of the request parses. -/
def Typed (parsers : Parsers) (r : Http.Request) : Prop :=
  ∃ ct, parsers.parseMediaType (getHeader r.header contentType) = .ok ct

/-- The same, where a content type that does not parse is replaced, for requests that come without a forwarded
address. -/
structure ForwardsTyped (parsers : Parsers) (r : Http.Request) (ip : List UInt8) (req : ProtoRequest) : Prop where
  address : r.header.lookup xForwardedFor = none →
    req.header.lookup xForwardedFor = some ⟨xForwardedFor, [ip]⟩
  untyped : ¬ Typed parsers r → req.header.lookup contentType = some ⟨contentType, [defaultType]⟩
  headers : ∀ key vals, key ≠ xForwardedFor → (key = contentType → Typed parsers r) →
    r.header.lookup key = some vals → req.header.lookup key = some ⟨key, vals⟩
  get : ∀ key, req.get.lookup key = (r.url.query.lookup key).map (Pair.mk key)
  post : ∀ postForm, parsers.parseForm r = .ok postForm →
    ∀ key, req.post.lookup key = (postForm.lookup key).map (Pair.mk key)

variable {parsers : Parsers} {r : Http.Request} {req : ProtoRequest}

theorem normalize_untyped (h : ¬ Typed parsers r) :
    normalize parsers r =
      (defaultType, { r with header := setHeader r.header contentType defaultType }) := by
  unfold normalize
  cases hct : parsers.parseMediaType (getHeader r.header contentType) with
  | ok ct => exact absurd ⟨ct, hct⟩ h
  | error err => rfl

theorem normalize_typed (h : Typed parsers r) : (normalize parsers r).2 = r := by
  obtain ⟨ct, hct⟩ := h
  unfold normalize
  rw [hct]

/-- Nothing but the content type is set. -/
theorem lookup_normalize {key : List UInt8} (hkey : key = contentType → Typed parsers r) :
    (normalize parsers r).2.header.lookup key = r.header.lookup key := by
  by_cases htyped : Typed parsers r
  · rw [normalize_typed htyped]
  · have hne : key ≠ contentType := fun h => htyped (hkey h)
    rw [normalize_untyped htyped, setHeader, canonicalKey_contentType]
    exact AList.lookup_insert_ne hne

theorem normalize_fields :
    (normalize parsers r).2.remoteAddr = r.remoteAddr ∧ (normalize parsers r).2.url = r.url := by
  unfold normalize
  split <;> exact ⟨rfl, rfl⟩

theorem lookup_firstPasses {ip port : List UInt8} (hsplit : splitHostPort r.remoteAddr = .ok (ip, port))
    (key : List UInt8) :
    (firstPasses r).lookup key =
      if key = hostKey then some ⟨hostKey, [r.host]⟩
      else if key = xForwardedFor then some ⟨xForwardedFor, [forwardedFor r.header ip]⟩
      else none := by
  unfold firstPasses setForwardedFor
  rw [hsplit, GoMap.lookup_insert, GoMap.lookup_insert, AList.lookup_empty]

/-- The pairs of the first two passes stand under their own keys. -/
theorem key_firstPasses {ip port : List UInt8} (hsplit : splitHostPort r.remoteAddr = .ok (ip, port))
    (key : List UInt8) : (((firstPasses r).lookup key).map Pair.key).getD key = key := by
  rw [lookup_firstPasses hsplit]
  split
  · next hhost => exact hhost.symm
  · split
    · next hfor => exact hfor.symm
    · rfl

/-- The maps of the message. -/
theorem requestToProto_spec (hreq : requestToProto parsers r = .ok req) :
    req.header = (normalize parsers r).2.header.foldl setValues (firstPasses (normalize parsers r).2) ∧
      req.get = r.url.query.foldl setValues ∅ ∧
      ∃ postForm, parsers.parseForm r = .ok postForm ∧ req.post = postForm.foldl setValues ∅ := by
  have hurl : (normalize parsers r).2.url = r.url := normalize_fields.2
  unfold requestToProto at hreq
  cases hform : parsers.parseForm r with
  | error err =>
    rw [hform] at hreq
    cases hreq
  | ok postForm =>
    rw [hform] at hreq
    obtain rfl := Except.ok.inj hreq
    exact ⟨rfl, congrArg (fun url => url.query.foldl setValues ∅) hurl, postForm, rfl, rfl⟩

/-- What the three passes leave under a key: the values of the request, or else what the first two set. -/
theorem lookup_header {ip port : List UInt8} (hreq : requestToProto parsers r = .ok req)
    (hsplit : splitHostPort r.remoteAddr = .ok (ip, port)) (key : List UInt8) :
    req.header.lookup key =
      (((normalize parsers r).2.header.lookup key).map (Pair.mk key)).or
        ((firstPasses (normalize parsers r).2).lookup key) := by
  have hremote : (normalize parsers r).2.remoteAddr = r.remoteAddr := normalize_fields.1
  rw [(requestToProto_spec hreq).1, lookup_foldl_setValues, key_firstPasses (hremote ▸ hsplit)]

/-- **What the gateway forwards**: of every request that it takes, whose remote address splits. -/
theorem requestToProto_forwards (parsers : Parsers) (r : Http.Request) (req : ProtoRequest) (ip port : List UInt8)
    (hreq : requestToProto parsers r = .ok req) (hsplit : splitHostPort r.remoteAddr = .ok (ip, port)) :
    ForwardsTyped parsers r ip req where
  address hnone := by
    have hremote : (normalize parsers r).2.remoteAddr = r.remoteAddr := normalize_fields.1
    have hlookup : (normalize parsers r).2.header.lookup xForwardedFor = none := by
      rw [lookup_normalize fun h => absurd h (by decide), hnone]
    rw [lookup_header hreq hsplit, hlookup, lookup_firstPasses (hremote ▸ hsplit), if_neg (by decide),
      if_pos rfl, forwardedFor, hlookup]
    rfl
  untyped htyped := by
    have hlookup : (normalize parsers r).2.header.lookup contentType = some [defaultType] := by
      rw [normalize_untyped htyped, setHeader, canonicalKey_contentType]
      exact AList.lookup_insert _
    rw [lookup_header hreq hsplit, hlookup]
    rfl
  headers key vals _ htyped hvals := by
    rw [lookup_header hreq hsplit, lookup_normalize htyped, hvals]
    rfl
  get key := by
    rw [(requestToProto_spec hreq).2.1, lookup_foldl_setValues_empty]
  post postForm hform key := by
    obtain ⟨postForm', hform', hpost⟩ := (requestToProto_spec hreq).2.2
    obtain rfl := Except.ok.inj (hform.symm.trans hform')
    rw [hpost, lookup_foldl_setValues_empty]

/-! A browser at 203.0.113.7, which asks through a proxy or sends a content type that is none. -/

def sampleParsers : Parsers where
  parseForm _ := .ok ∅
  parseMediaType s :=
    if s = ascii "application/json" then .ok s else .error (ascii "mime: no media type")

def sampleRequest (header : Values) : Http.Request where
  method := ascii "GET"
  url := ⟨ascii "/foo/bar", ascii "/foo/bar?param1=value1", AList.singleton (ascii "param1") [ascii "value1"]⟩
  header := header
  host := ascii "localhost"
  remoteAddr := ascii "203.0.113.7:4711"
  body := none

def sampleTyped : Http.Request :=
  sampleRequest (AList.singleton contentType [ascii "application/json"])

set_option maxRecDepth 4000 in
theorem requestToProto_forwards_sample :
    ∃ req, requestToProto sampleParsers sampleTyped = .ok req ∧
      splitHostPort sampleTyped.remoteAddr = .ok (ascii "203.0.113.7", ascii "4711") ∧
      ForwardsTyped sampleParsers sampleTyped (ascii "203.0.113.7") req :=
  ⟨_, rfl, by decide, requestToProto_forwards sampleParsers sampleTyped _ (ascii "203.0.113.7") (ascii "4711") rfl
    (by decide)⟩

set_option maxRecDepth 4000 in
/-- The address of the proxy replaces the joined one, and a content type that does not parse is not
forwarded. -/
theorem not_forwards_proxied_untyped :
    (∃ req, requestToProto sampleParsers
        (sampleRequest (AList.singleton xForwardedFor [ascii "198.51.100.2"])) = .ok req ∧
      splitHostPort (ascii "203.0.113.7:4711") = .ok (ascii "203.0.113.7", ascii "4711") ∧
      req.header.lookup xForwardedFor = some ⟨xForwardedFor, [ascii "198.51.100.2"]⟩ ∧
      ¬ Forwards sampleParsers (sampleRequest (AList.singleton xForwardedFor [ascii "198.51.100.2"]))
        (ascii "203.0.113.7") req) ∧
    ∃ req, requestToProto sampleParsers (sampleRequest (AList.singleton contentType [ascii "/"])) = .ok req ∧
      req.header.lookup contentType = some ⟨contentType, [defaultType]⟩ ∧
      ¬ Forwards sampleParsers (sampleRequest (AList.singleton contentType [ascii "/"]))
        (ascii "203.0.113.7") req := by
  refine ⟨⟨_, rfl, by decide, by decide +kernel, fun h => ?_⟩, _, rfl, by decide +kernel, fun h => ?_⟩
  · have haddress := h.address
    revert haddress
    decide +kernel
  · have hheader := h.headers contentType [ascii "/"] (by decide) (by decide +kernel)
    revert hheader
    decide +kernel

end Vmqant.HttpGateway
