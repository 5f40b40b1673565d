import Vmqant.App.RouteServer
import Vmqant.HttpGateway.RequestToProto
import Vmqant.HttpGateway.Verbatim

/-!
# Serving a request

Reference: `httpgateway/api.go`; `httpgateway/options.go`, lines 29-116; `httpgateway/errors/errors.go`, lines
106-114; `httpgateway/proto/api.proto`, lines 5-28.

`ServeHTTP` turns the request into a message, finds a server by the first part of the path, calls the function
with the name of the path there, and writes the response. What it does to the `http.ResponseWriter` is a list
of calls, each `WriteHeader` with the header as it is then; a `WriteHeader` with an invalid code panics.
-/

namespace Vmqant.HttpGateway

open Rpc.ArgsUtil (Pointers Value)
open Rpc.Reply (Target)
open App (RouteNode RouteService RouteState Surroundings)
open Printf (ascii)
open Http

/-! ## The messages -/

/-- A `map[string]*Pair` of a message. -/
abbrev Header := Finmap fun _ : List UInt8 => Pair

/-- `api.Request`, as it is sent. -/
structure RequestMessage where
  method : List UInt8
  path : List UInt8
  header : Header
  get : Header
  post : Header
  body : List UInt8
  url : List UInt8
deriving DecidableEq

def ProtoRequest.message (req : ProtoRequest) : RequestMessage where
  method := req.method
  path := req.path
  header := req.header.toFinmap
  get := req.get.toFinmap
  post := req.post.toFinmap
  body := req.body
  url := req.url

/-- `api.Response`. -/
structure Response where
  statusCode : Int32
  header : Header
  body : List UInt8
deriving DecidableEq

/-- The order in which a loop goes through a header. -/
structure HeaderRange where
  order : Header → Pairs
  toFinmap_order : ∀ m, (order m).toFinmap = m

/-! ## The writer -/

inductive WriterCall where
  | writeHeader (code : ℤ) (header : Values)
  | write (b : List UInt8)

/-- A `http.ResponseWriter`, and what has been called. -/
structure ResponseWriter where
  header : Values
  calls : List WriterCall

/-- `Header.Add`. -/
def addHeader (h : Values) (key value : List UInt8) : Values :=
  h.insert (canonicalKey key) ((h.lookup (canonicalKey key)).getD [] ++ [value])

namespace ResponseWriter

def set (w : ResponseWriter) (key value : List UInt8) : ResponseWriter :=
  { w with header := setHeader w.header key value }

def add (w : ResponseWriter) (key value : List UInt8) : ResponseWriter :=
  { w with header := addHeader w.header key value }

/-- The codes that `checkWriteHeaderCode` takes. -/
def ValidCode (code : ℤ) : Prop := 100 ≤ code ∧ code ≤ 999

instance : DecidablePred ValidCode := fun _ => inferInstanceAs (Decidable (_ ∧ _))

def writeHeader (w : ResponseWriter) (code : ℤ) : Except PanicValue ResponseWriter :=
  if ValidCode code then pure { w with calls := w.calls ++ [.writeHeader code w.header] }
  else throw (.string s!"invalid WriteHeader code {code}")

def write (w : ResponseWriter) (b : List UInt8) : ResponseWriter := { w with calls := w.calls ++ [.write b] }

end ResponseWriter

/-! ## The route -/

/-- `Service`: the session is a number, as in `RouteState`. -/
structure Service where
  hander : List UInt8
  srvSession : ℕ

def slash : UInt8 := '/'.toUInt8

/-- The strategy of `DefaultRoute`, with the number that `rand.Intn` gives. -/
def anyNode (i : ℕ) (services : List RouteService) : Except Mqtt.GoString RouteNode :=
  let nodes := services.flatMap RouteService.nodes
  match nodes[i % nodes.length]? with
  | none => .error (ascii "no node")
  | some node => .ok node

/-- `DefaultRoute`. -/
def defaultRoute (env : Surroundings) (mapRoute : Option (Mqtt.GoString → Mqtt.GoString)) (app : RouteState) (i : ℕ)
    (r : Http.Request) : Except (List UInt8) Service × RouteState :=
  if r.url.path = [] then (.error (ascii "path is nil"), app)
  else
    let handers := r.url.path.splitOn slash
    if handers.length < 2 then (.error (ascii "path is not /[server]/path"), app)
    else
      let server := handers.getD 1 []
      if server = [] then (.error (ascii "server is nil"), app)
      else
        let (session, app) := app.getRouteServer { env with strategy := anyNode i } mapRoute server
        (session.map fun x => ⟨r.url.path, x⟩, app)

/-! ## The handler -/

/-- `InternalServerError` without operands. -/
def Error.internalServerError (id format : List UInt8) : Error where
  id := id
  code := 500
  detail := Printf.doPrintf format
  status := statusText 500

def json : List UInt8 := ascii "application/json"

/-- The answer to a request that gets no further. -/
def answerError (w : ResponseWriter) (code : ℤ) (body : List UInt8) : Except PanicValue ResponseWriter := do
  let w ← (w.set contentType json).writeHeader code
  pure (w.write body)

/-- The answer with the response of the handler. -/
def answerResponse (range : HeaderRange) (w : ResponseWriter) (rsp : Response) : Except PanicValue ResponseWriter := do
  let statusCode : ℤ := if rsp.statusCode = 0 then 200 else rsp.statusCode.toInt
  let w := (range.order rsp.header).foldl
    (fun w _ header => header.values.foldl (fun w val => w.add header.key val) w) w
  let w := if (getHeader w.header contentType).length = 0 then w.set contentType json else w
  let w ← w.writeHeader statusCode
  pure (w.write rsp.body)

variable {κ μ : Type} {P : Pointers κ}

/-- The end of `ServeHTTP`, after the call; `decode` is `proto.Unmarshal` into a new response. -/
def serveReply (unmarshal : Unmarshal) (range : HeaderRange) (fmtV : Value P μ → String)
    (decode : List UInt8 → Except PanicValue (Except (List UInt8) Response)) (w : ResponseWriter)
    (reply : Value P μ) (errstr : List UInt8) : Except PanicValue ResponseWriter := do
  match ← Rpc.Reply.proto fmtV (.target decode) reply (.string errstr) with
  | .error err =>
    let (code, body) := serveError unmarshal err
    answerError w code body
  | .ok rsp => answerResponse range w rsp

/-- `ServeHTTP`: `call` is `Call` of the session. -/
def serveHTTP (parsers : Parsers) (unmarshal : Unmarshal) (range : HeaderRange) (fmtV : Value P μ → String)
    (decode : List UInt8 → Except PanicValue (Except (List UInt8) Response))
    (route : Http.Request → Except (List UInt8) Service)
    (call : ℕ → List UInt8 → ProtoRequest → Except PanicValue (Value P μ × List UInt8))
    (w : ResponseWriter) (r : Http.Request) : Except PanicValue ResponseWriter :=
  match requestToProto parsers r with
  | .error err => answerError w 500 (Error.internalServerError (ascii "httpgateway") err).text
  | .ok request =>
    -- the header of the request has been changed where its content type did not parse
    match route (normalize parsers r).2 with
    | .error err => answerError w 500 (Error.internalServerError (ascii "httpgateway") err).text
    | .ok server => do
      let (reply, errstr) ← call server.srvSession server.hander request
      serveReply unmarshal range fmtV decode w reply errstr

end Vmqant.HttpGateway
