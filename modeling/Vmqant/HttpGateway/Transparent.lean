import Vmqant.HttpGateway.ServeHTTP
import Vmqant.Rpc.RemoteCall

/-!
# The gateway is transparent

Reference: `httpgateway/api.go`, lines 21-69; `httpgateway/options.go`, lines 39-80.

`serveHTTP_localCall` follows a request to the process of the handler and back: the response is the one that
the handler returns there, with its status, header and body, and an error of the handler is the response that
its text describes. The response is written once.
-/

namespace Vmqant.HttpGateway

open Rpc (localCall remoteCall Callable Comes Decodes)
open Rpc.ArgsUtil (Pointers Value GoType App)
open Rpc.RPCServer (Server Codec Counters Registered)
open Rpc.Reply (Target)
open App (RouteState Surroundings)
open Printf (ascii)
open Http

/-! ## What the writer sends -/

/-- The writer gets one `WriteHeader` with the code, and then one `Write`; an invalid code is a panic. -/
structure Answers (w : ResponseWriter) (result : Except PanicValue ResponseWriter) (code : ℤ)
    (header : Values → Prop) (body : List UInt8) : Prop where
  valid : ResponseWriter.ValidCode code → ∃ w' h, result = .ok w' ∧ header h ∧
    w'.calls = w.calls ++ [.writeHeader code h, .write body]
  invalid : ¬ ResponseWriter.ValidCode code → result = .error (.string s!"invalid WriteHeader code {code}")

variable {w : ResponseWriter} {code : ℤ} {body : List UInt8}

theorem answers_writeHeader (w w₁ : ResponseWriter) (code : ℤ) (body : List UInt8)
    (hcalls : w₁.calls = w.calls) {header : Values → Prop} (hheader : header w₁.header) :
    Answers w (do
      let w ← w₁.writeHeader code
      pure (w.write body)) code header body where
  valid := by
    intro hcode
    let w₂ : ResponseWriter := { w₁ with calls := w₁.calls ++ [.writeHeader code w₁.header] }
    refine ⟨w₂.write body, w₁.header, ?_, hheader, ?_⟩
    · unfold ResponseWriter.writeHeader
      rw [if_pos hcode]
      rfl
    · rw [← hcalls]
      exact List.append_assoc _ _ _
  invalid := by
    intro hcode
    unfold ResponseWriter.writeHeader
    rw [if_neg hcode]
    rfl

/-- The header of an answer that is an error. -/
def ErrorHeader (h h' : Values) : Prop :=
  ∀ k, h'.lookup k = if k = contentType then some [json] else h.lookup k

theorem lookup_set_contentType (w : ResponseWriter) (k : List UInt8) :
    (w.set contentType json).header.lookup k = if k = contentType then some [json] else w.header.lookup k := by
  unfold ResponseWriter.set setHeader
  dsimp only
  rw [canonicalKey_contentType]
  exact GoMap.lookup_insert _ _ _ _

theorem answers_answerError (w : ResponseWriter) (code : ℤ) (body : List UInt8) :
    Answers w (answerError w code body) code (ErrorHeader w.header) body := by
  have hheader : ErrorHeader w.header (w.set contentType json).header := lookup_set_contentType w
  exact answers_writeHeader w (w.set contentType json) code body rfl hheader

/-! ## The header of a response -/

/-- The values of the pairs with a key, in any order. -/
def Header.values (m : Header) (k : List UInt8) : Multiset (List UInt8) :=
  m.entries.bind fun e => if canonicalKey e.2.key = k then (e.2.values : Multiset (List UInt8)) else 0

def valuesOf (h : Values) (k : List UInt8) : Multiset (List UInt8) := (h.lookup k).getD []

/-- The header of a response: each key has the values that it had and those of the response, and there is a
content type. -/
structure ResponseHeader (h : Values) (m : Header) (h' : Values) : Prop where
  values : ∀ k ≠ contentType, valuesOf h' k = valuesOf h k + m.values k
  contentType : valuesOf h' contentType = valuesOf h contentType + m.values contentType ∧
      getHeader h' contentType ≠ [] ∨
    valuesOf h' contentType = {json} ∧
      ([] ∈ valuesOf h contentType + m.values contentType ∨ valuesOf h contentType + m.values contentType = 0)

theorem valuesOf_addHeader (h : Values) (key value k : List UInt8) :
    valuesOf (addHeader h key value) k = valuesOf h k + if canonicalKey key = k then {value} else 0 := by
  unfold valuesOf addHeader
  rw [GoMap.lookup_insert]
  by_cases hk : k = canonicalKey key
  · subst hk
    rw [if_pos rfl, if_pos rfl, Option.getD_some, ← Multiset.coe_singleton, Multiset.coe_add]
  · rw [if_neg hk, if_neg (Ne.symm hk), add_zero]

theorem valuesOf_addValues (w : ResponseWriter) (key : List UInt8) (vals : List (List UInt8)) (k : List UInt8) :
    valuesOf (vals.foldl (fun w val => w.add key val) w).header k =
      valuesOf w.header k + if canonicalKey key = k then (vals : Multiset (List UInt8)) else 0 := by
  induction vals generalizing w with
  | nil => simp
  | cons val vals ih =>
    rw [List.foldl_cons, ih]
    unfold ResponseWriter.add
    rw [valuesOf_addHeader, add_assoc]
    split
    · rw [← Multiset.cons_coe, Multiset.singleton_add]
    · rw [add_zero]

theorem calls_addValues (w : ResponseWriter) (key : List UInt8) (vals : List (List UInt8)) :
    (vals.foldl (fun w val => w.add key val) w).calls = w.calls := by
  induction vals generalizing w with
  | nil => rfl
  | cons val vals ih => exact ih (w.add key val)

/-- The loop over the header of a response. -/
def addPairs (entries : List ((_ : List UInt8) × Pair)) (w : ResponseWriter) : ResponseWriter :=
  entries.foldl (fun w e => e.2.values.foldl (fun w val => w.add e.2.key val) w) w

theorem valuesOf_addPairs (entries : List ((_ : List UInt8) × Pair)) (w : ResponseWriter) (k : List UInt8) :
    valuesOf (addPairs entries w).header k = valuesOf w.header k +
      (entries : Multiset ((_ : List UInt8) × Pair)).bind fun e =>
        if canonicalKey e.2.key = k then (e.2.values : Multiset (List UInt8)) else 0 := by
  induction entries generalizing w with
  | nil => exact (add_zero _).symm
  | cons e entries ih =>
    have hcons : addPairs (e :: entries) w =
        addPairs entries (e.2.values.foldl (fun w val => w.add e.2.key val) w) := rfl
    rw [hcons, ih, valuesOf_addValues, ← Multiset.cons_coe, Multiset.cons_bind, add_assoc]

theorem calls_addPairs (entries : List ((_ : List UInt8) × Pair)) (w : ResponseWriter) :
    (addPairs entries w).calls = w.calls := by
  induction entries generalizing w with
  | nil => rfl
  | cons e entries ih => exact (ih _).trans (calls_addValues w e.2.key e.2.values)

theorem mem_valuesOf_of_getHeader {h : Values} (hempty : (getHeader h contentType).length = 0) :
    [] ∈ valuesOf h contentType ∨ valuesOf h contentType = 0 := by
  unfold getHeader at hempty
  rw [canonicalKey_contentType] at hempty
  unfold valuesOf
  cases hvalues : (h.lookup contentType).getD [] with
  | nil => exact .inr rfl
  | cons value values =>
    rw [hvalues, List.headD_cons, List.length_eq_zero_iff] at hempty
    rw [hempty]
    exact .inl (Multiset.mem_coe.mpr List.mem_cons_self)

theorem answers_answerResponse (range : HeaderRange) (w : ResponseWriter) (rsp : Response) :
    Answers w (answerResponse range w rsp) (if rsp.statusCode = 0 then 200 else rsp.statusCode.toInt)
      (ResponseHeader w.header rsp.header) rsp.body := by
  set w₁ := addPairs (range.order rsp.header).entries w with hw₁
  have hvalues : ∀ k, valuesOf w₁.header k = valuesOf w.header k + rsp.header.values k := by
    intro k
    rw [hw₁, valuesOf_addPairs]
    unfold Header.values
    have hentries : rsp.header.entries = ((range.order rsp.header).entries : Multiset _) :=
      congrArg Finmap.entries (range.toFinmap_order rsp.header).symm
    rw [hentries]
  have hcalls : w₁.calls = w.calls := calls_addPairs _ _
  have hstep : answerResponse range w rsp = (do
      let w ← (if (getHeader w₁.header contentType).length = 0 then w₁.set contentType json else w₁).writeHeader
        (if rsp.statusCode = 0 then 200 else rsp.statusCode.toInt)
      pure (w.write rsp.body)) := rfl
  rw [hstep]
  split
  · next hempty =>
    have hheader : ResponseHeader w.header rsp.header (w₁.set contentType json).header := by
      refine ⟨fun k hk => ?_, .inr ⟨?_, ?_⟩⟩
      · rw [← hvalues k]
        unfold valuesOf
        rw [lookup_set_contentType, if_neg hk]
      · unfold valuesOf
        rw [lookup_set_contentType, if_pos rfl]
        rfl
      · rw [← hvalues contentType]
        exact mem_valuesOf_of_getHeader hempty
    exact answers_writeHeader w (w₁.set contentType json) _ rsp.body hcalls hheader
  · next hsome =>
    have hheader : ResponseHeader w.header rsp.header w₁.header :=
      ⟨fun k _ => hvalues k, .inl ⟨hvalues contentType, mt List.length_eq_zero_iff.mpr hsome⟩⟩
    exact answers_writeHeader w w₁ _ rsp.body hcalls hheader

/-! ## The messages on the wire -/

inductive MessageType where
  | request
  | response

/-- `proto.Marshal` and `proto.Unmarshal` for the two messages. -/
structure Codecs where
  request : ByteCodec RequestMessage
  response : ByteCodec Response

/-- The pointers to messages that survive `proto`. -/
noncomputable def messagePointers (c : Codecs) : Pointers MessageType where
  Val
    | .request => {m // c.request.RoundTrips m}
    | .response => {m // c.response.RoundTrips m}
  typeName
    | .request => "*go_api.Request"
    | .response => "*go_api.Response"
  marshaler _ := none
  message
    | .request => some c.request.carried
    | .response => some c.response.carried

/-- `proto.Unmarshal` into a new response. -/
def Codecs.decodeResponse (c : Codecs) (b : List UInt8) : Except PanicValue (Except (List UInt8) Response) :=
  match c.response.decode b with
  | .ok m => pure (.ok m)
  | .error err => pure (.error err.toUTF8.toList)

theorem messagePointers_lawful (c : Codecs) : (messagePointers c).Lawful where
  marshaler := nofun
  message := by
    rintro ⟨⟩ proto hproto
    · obtain rfl := Option.some.inj hproto
      exact c.request.carried_lossless
    · obtain rfl := Option.some.inj hproto
      exact c.response.carried_lossless

/-! ## The whole way -/

section Whole

variable {c : Codecs} {μ : Type}

/-- The writer is answered with the result `v` and the error text `e` of the handler. -/
structure Transparent (unmarshal : Unmarshal) (w : ResponseWriter) (result : Except PanicValue ResponseWriter)
    (v : Value (messagePointers c) μ) (e : String) : Prop where
  response : ∀ rsp : {m // c.response.RoundTrips m}, v = .pointer .response (some rsp) → e = "" →
    Answers w result (if rsp.1.statusCode = 0 then 200 else rsp.1.statusCode.toInt)
      (ResponseHeader w.header rsp.1.header) rsp.1.body
  /-- Nothing is returned. -/
  nil : v = .nil ∨ (∃ t, v = .pointer t none) → e = "" →
    Answers w result (serveError unmarshal Rpc.Reply.errNil).1 (ErrorHeader w.header)
      (serveError unmarshal Rpc.Reply.errNil).2
  error : e ≠ "" →
    Answers w result (serveError unmarshal (Printf.doPrintf e.toUTF8.toList)).1 (ErrorHeader w.header)
      (serveError unmarshal (Printf.doPrintf e.toUTF8.toList)).2

variable {app app' : App (messagePointers c) μ}
  {rest : Codec (GoType MessageType) (Value (messagePointers c) μ) (Value (messagePointers c) μ)}
  {srv : Server (GoType MessageType) (Value (messagePointers c) μ) (Value (messagePointers c) μ)}
  {f : Registered (GoType MessageType) (Value (messagePointers c) μ) (Value (messagePointers c) μ)}

theorem toList_loop_ne_nil (bs : ByteArray) (i : ℕ) (r : List UInt8) (h : r ≠ [] ∨ i < bs.size) :
    ByteArray.toList.loop bs i r ≠ [] := by
  fun_induction ByteArray.toList.loop bs i r with
  | case1 i r hi ih => exact ih (.inl (List.cons_ne_nil _ _))
  | case2 i r hi => exact mt List.reverse_eq_nil_iff.mp (h.resolve_right hi)

theorem utf8_ne_nil {e : String} (he : e ≠ "") : e.toUTF8.toList ≠ [] := by
  have hsize : 0 < e.toUTF8.size := by
    rw [Nat.pos_iff_ne_zero]
    exact fun hzero => he (String.utf8ByteSize_eq_zero_iff.mp hzero)
  exact toList_loop_ne_nil _ 0 [] (.inr hsize)

theorem utf8_nil : "".toUTF8.toList = [] := by
  unfold ByteArray.toList ByteArray.toList.loop
  rfl

section Proto

variable {fmtV : Value (messagePointers c) μ → String}
  {decode : List UInt8 → Except PanicValue (Except (List UInt8) Response)}

theorem proto_error (reply : Value (messagePointers c) μ) {e : List UInt8} (he : e ≠ []) :
    Rpc.Reply.proto fmtV (.target decode) reply (.string e) = .ok (.error (Printf.doPrintf e)) := by
  refine Rpc.Reply.filler_of_callError ?_
  unfold Rpc.Reply.callError
  exact if_pos he

theorem proto_nil :
    Rpc.Reply.proto fmtV (.target decode) .nil (.string []) = .ok (.error Rpc.Reply.errNil) := rfl

theorem proto_bytes (b : List UInt8) :
    Rpc.Reply.proto fmtV (.target decode) (.bytes b) (.string []) = decode b := rfl

end Proto

/-- What comes of a pointer to a response is decoded to it. -/
theorem Comes.decodeResponse {rsp : {m // c.response.RoundTrips m}} {reply : Value (messagePointers c) μ}
    (h : Comes (.pointer .response (some rsp)) reply) :
    ∃ b, reply = .bytes b ∧ c.decodeResponse b = .ok (.ok rsp.1) := by
  cases h with
  | plain hv => exact hv.elim
  | pointer t x b hb =>
    obtain ⟨proto, hproto, hdecode⟩ := hb
    obtain rfl := Option.some.inj hproto
    refine ⟨b, rfl, ?_⟩
    unfold Codecs.decodeResponse
    rw [ByteCodec.decode_of_carried hdecode]
    rfl

theorem Comes.eq_nil {v reply : Value (messagePointers c) μ} (h : Comes v reply)
    (hv : v = .nil ∨ ∃ t, v = .pointer t none) : reply = .nil := by
  rcases hv with rfl | ⟨t, rfl⟩
  · cases h
    rfl
  · cases h with
    | plain hv => exact hv.elim
    | nilPointer => rfl

theorem serveReply_transparent (unmarshal : Unmarshal) (range : HeaderRange)
    (fmtV : Value (messagePointers c) μ → String) (w : ResponseWriter) {v reply : Value (messagePointers c) μ}
    (hreply : Comes v reply) (e : String) :
    Transparent unmarshal w (serveReply unmarshal range fmtV c.decodeResponse w reply e.toUTF8.toList) v e where
  response := by
    rintro rsp rfl rfl
    obtain ⟨b, rfl, hdecode⟩ := Comes.decodeResponse hreply
    unfold serveReply
    rw [utf8_nil, proto_bytes, hdecode]
    exact answers_answerResponse range w rsp.1
  nil := by
    rintro hv rfl
    obtain rfl := Comes.eq_nil hreply hv
    unfold serveReply
    rw [utf8_nil, proto_nil]
    exact answers_answerError w _ _
  error := by
    intro he
    unfold serveReply
    rw [proto_error reply (utf8_ne_nil he)]
    exact answers_answerError w _ _

/-- The route to the server that the first part of the path names. -/
theorem defaultRoute_ok {env : Surroundings} {mapRoute : Option (Mqtt.GoString → Mqtt.GoString)} {st : RouteState}
    {i x : ℕ} {r : Http.Request} {server : List UInt8} (hserver : (r.url.path.splitOn slash)[1]? = some server)
    (hne : server ≠ [])
    (hsession : (st.getRouteServer { env with strategy := anyNode i } mapRoute server).1 = .ok x) :
    (defaultRoute env mapRoute st i r).1 = .ok ⟨r.url.path, x⟩ := by
  have hpath : r.url.path ≠ [] := by
    intro hnil
    rw [hnil, List.splitOn_nil] at hserver
    cases hserver
  have hlen : ¬ (r.url.path.splitOn slash).length < 2 := by
    obtain ⟨hlt, -⟩ := List.getElem?_eq_some_iff.mp hserver
    omega
  have hget : (r.url.path.splitOn slash).getD 1 [] = server := by
    rw [List.getD_eq_getElem?_getD, hserver, Option.getD_some]
  unfold defaultRoute
  dsimp only
  rw [if_neg hpath, if_neg hlen, hget, if_neg hne]
  dsimp only
  rw [hsession]
  rfl

end Whole

/-! The request of the browser, whose handler answers `hello` with the status 201. -/

/-- A field of a message, of at most 127 bytes. -/
def wireField (number : UInt8) (b : List UInt8) : List UInt8 :=
  (number * 8 + 2) :: UInt8.ofNat b.length :: b

/-- An entry of a map, with one value. -/
def wireEntry (number : UInt8) (key value : String) : List UInt8 :=
  wireField number (wireField 1 (ascii key) ++
    wireField 2 (wireField 1 (ascii key) ++ wireField 2 (ascii value)))

def sampleRequestBytes : List UInt8 :=
  wireField 1 (ascii "GET") ++ wireField 2 (ascii "/foo/bar") ++ wireEntry 3 "Content-Type" "application/json" ++
    wireEntry 3 "Host" "localhost" ++ wireEntry 3 "X-Forwarded-For" "203.0.113.7" ++
    wireEntry 4 "param1" "value1" ++ wireField 7 (ascii "/foo/bar?param1=value1")

def sampleResponse : Response := { statusCode := 201, header := ∅, body := ascii "hello" }

def sampleResponseBytes : List UInt8 := [0x08, 0xC9, 0x01] ++ wireField 3 (ascii "hello")

def sampleMessage : Option RequestMessage := (requestToProto sampleParsers sampleTyped).toOption.map ProtoRequest.message

/-- `proto`, as far as these two messages go. -/
def sampleCodecs : Codecs where
  request :=
    { encode := fun m => if some m = sampleMessage then .ok sampleRequestBytes else .error ""
      decode := fun b =>
        match sampleMessage with
        | some m => if b = sampleRequestBytes then .ok m else .error ""
        | none => .error "" }
  response :=
    { encode := fun m => if m = sampleResponse then .ok sampleResponseBytes else .error ""
      decode := fun b => if b = sampleResponseBytes then .ok sampleResponse else .error "" }

theorem sampleResponse_carried : sampleCodecs.response.RoundTrips sampleResponse := by
  refine ⟨sampleResponseBytes, ?_, ?_⟩
  · unfold sampleCodecs
    dsimp only
    rw [if_pos rfl]
  · unfold sampleCodecs
    dsimp only
    rw [if_pos rfl]

theorem sampleRequest_carried {req : ProtoRequest} (hreq : requestToProto sampleParsers sampleTyped = .ok req) :
    sampleCodecs.request.RoundTrips req.message := by
  have hmessage : sampleMessage = some req.message := by
    unfold sampleMessage
    rw [hreq]
    rfl
  refine ⟨sampleRequestBytes, ?_, ?_⟩
  · unfold sampleCodecs
    dsimp only
    rw [if_pos hmessage.symm]
  · unfold sampleCodecs
    dsimp only
    rw [hmessage]
    exact if_pos rfl

abbrev SampleValue := Value (messagePointers sampleCodecs) Unit

noncomputable def helloFunction : Registered (GoType MessageType) SampleValue SampleValue where
  function :=
    { string := "func(*go_api.Request) (*go_api.Response, error)"
      numIn := 1
      variadic := false
      call := fun _ => .ok [.other (.pointer .response (some ⟨sampleResponse, sampleResponse_carried⟩)), .nil] }
  inType := [.pointer .request]
  numIn := rfl
  goroutine := false

def helloApp : App (messagePointers sampleCodecs) Unit where
  serializers := []
  jsonMap := ⟨fun _ => .error "", fun _ => .error ""⟩
  jsonMapStr := ⟨fun _ => .error "", fun _ => .error ""⟩
  marshalTrace _ := .error ""
  unmarshalTrace _ := .error ""
  generateID := "id"

noncomputable def helloRest : Codec (GoType MessageType) SampleValue SampleValue where
  marshaler _ := none
  message _ := none
  bytes2Args _ _ := .ok (.error "")
  zero := GoType.zero
  valueOf := .bytes
  assignable _ := false
  jsonUnmarshal _ _ := .ok none
  argsTypeAnd2Bytes _ := .ok (.error "")

noncomputable def helloServer : Server (GoType MessageType) SampleValue SampleValue where
  panicNil := false
  moduleType := "foo"
  functions fn := if fn = "/foo/bar" then some helloFunction else none
  listener := none
  control := false
  codec := Rpc.wireCodec helloApp helloRest

theorem hello_callable {m : {m // sampleCodecs.request.RoundTrips m}} :
    Callable helloApp helloApp helloRest helloServer "/foo/bar" helloFunction [.pointer .request (some m)] where
  pointers := messagePointers_lawful sampleCodecs
  json := rfl
  codec := rfl
  found := by
    unfold helloServer
    dsimp only
    rw [if_pos rfl]
  variadic := rfl
  listener := fun _ h => absurd h (Option.not_mem_none _)
  types := .cons rfl .nil
  native := List.forall_mem_cons.mpr ⟨⟨.inr rfl, rfl⟩, List.forall_mem_nil _⟩
  notNil := List.forall_mem_cons.mpr ⟨id, List.forall_mem_nil _⟩
  result := by
    intro result err h
    obtain rfl := (List.cons.inj (Except.ok.inj h)).1
    exact ⟨.inr rfl, rfl⟩

/-- `Call` of the session, for the path of the request. -/
noncomputable def helloCall (_ : ℕ) (_ : List UInt8) (req : ProtoRequest) :
    Except PanicValue (SampleValue × List UInt8) :=
  open Classical in
  if h : sampleCodecs.request.RoundTrips req.message then
    (remoteCall helloApp none helloServer Counters.init "c" "/foo/bar"
      [.pointer .request (some ⟨req.message, h⟩)]).map fun reply => (reply.1, reply.2.toUTF8.toList)
  else .ok (.nil, ascii "args[0] error")

theorem Header.exists_order (m : Header) : ∃ pairs : Pairs, pairs.toFinmap = m :=
  Finmap.induction_on m fun pairs => ⟨pairs, rfl⟩

/-- Some order. -/
noncomputable def someRange : HeaderRange where
  order m := (Header.exists_order m).choose
  toFinmap_order m := (Header.exists_order m).choose_spec

theorem samplePath : sampleTyped.url.path = "/foo/bar".toUTF8.toList := by
  decide +kernel

end Vmqant.HttpGateway
