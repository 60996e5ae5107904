import Workgraph.Engine.Process
import Workgraph.Http.Address
import Workgraph.Value.Json
/-!
# Calls over HTTP

A call becomes a request, which a network answers or fails to answer. Answers that point elsewhere
are followed, a limited number of times. The body of the last answer is a value if it is JSON, and
otherwise its text.
-/

namespace Workgraph.Http

/-- A request on its way. -/
structure Request where
  method : String
  address : Address
  headers : List (String × String)
  content : Option String

/-- What comes back for a request. -/
structure Response where
  status : Int
  headers : List (String × String)
  content : String

/-- Why nothing comes back. -/
inductive Failure where
  /-- Nothing came in time. -/
  | timedOut (name : String)
  /-- The connection or the exchange failed. -/
  | failed (name words : String)
  /-- Something else went wrong. -/
  | defect (cause : Defect)
deriving DecidableEq, Repr

namespace Failure

/-- The names of failures to answer in time. -/
def timeoutNames : List String :=
  ["TimeoutException", "ConnectTimeout", "ReadTimeout", "WriteTimeout", "PoolTimeout"]

/-- The names of failures of connections and exchanges. -/
def exchangeNames : List String :=
  ["HTTPError", "RequestError", "TransportError", "NetworkError", "ConnectError", "ReadError",
    "WriteError", "CloseError", "ProxyError", "UnsupportedProtocol", "ProtocolError",
    "LocalProtocolError", "RemoteProtocolError", "DecodingError", "TooManyRedirects",
    "HTTPStatusError"]

/-- The failure of a name. -/
def ofName (name words : String) : Failure :=
  if timeoutNames.contains name then timedOut name
  else if exchangeNames.contains name then failed name words
  else defect (.raised name words)

end Failure

/-- Whatever answers requests. -/
abbrev Network := Request → Except Failure Response

/-- Texts that stand under a name in any case, as one text. -/
def header? (headers : List (String × String)) (name : String) : Option String :=
  let lower (s : String) : String := String.ofList (s.toList.map Char.toLower)
  match headers.filter fun h => lower h.1 = lower name with
  | [] => none
  | found => some (", ".intercalate (found.map Prod.snd))

/-- A client of a network, and the seconds it waits, as a text. -/
structure Client where
  timeout : String
  network : Network

/-- The request of a call. -/
def Request.ofCall (call : CallRequest) : Except Defect Request := do
  let address ← Address.read call.url
  let address ← if address.isAbsolute then pure address else address.detached
  for (name, value) in call.headers do
    for text in [name, value] do
      if text.toList.any fun c => c.toNat ≥ 128 then throw (.headerText text)
  return ⟨String.ofList (call.method.toList.map Char.toUpper), address, call.headers, call.body⟩

/-- The most answers that are followed elsewhere. -/
def maxRedirects : Nat := 20

/-- The place to which an answer points, if it points elsewhere. -/
def Response.location? (r : Response) : Option String :=
  if [301, 302, 303, 307, 308].contains r.status then header? r.headers "location" else none

/-- The address of a place that an answer to a request points to. -/
def redirectAddress (start : Address) (location : String) : Except Failure Address :=
  match Address.read location with
  | .error d =>
    .error (.failed "RemoteProtocolError" ("Invalid URL in location header: " ++ d.message ++ "."))
  | .ok a =>
    let a := if a.scheme ≠ "" && a.host = "" then { a with host := start.host } else a
    match pathFault? (a.scheme ≠ "") (a.host ≠ "") a.path with
    | some words => .error (.defect (.address words))
    | none =>
      let a := if a.isAbsolute then a else start.join a
      if (a.fragment.getD "") = "" && (start.fragment.getD "") ≠ "" then
        .ok { a with fragment := start.fragment }
      else .ok a

/-- The method with which an answer is followed: most answers turn a request into a plain one. -/
def redirectMethod (status : Int) (method : String) : String :=
  if (status = 303 || status = 302) && method ≠ "HEAD" then "GET"
  else if status = 301 && method = "POST" then "GET"
  else method

/-- The request that follows an answer. Its content is dropped when it becomes a plain one. -/
def redirect (r : Request) (status : Int) (location : String) : Except Failure Request := do
  let address ← redirectAddress r.address location
  let method := redirectMethod status r.method
  let content := if method ≠ r.method && method = "GET" then none else r.content
  return { r with method, address, content }

/-- Sends a request and follows the answers, at most so many of them. Gives the requests in order
and what came of the last one. -/
def follow (network : Network) : Nat → Request → List Request × Except Failure Response
  | left, r =>
    match network r with
    | .error f => ([r], .error f)
    | .ok answer =>
      match answer.location? with
      | none => ([r], .ok answer)
      | some location =>
        match redirect r answer.status location, left with
        | .error f, _ => ([r], .error f)
        | .ok _, 0 =>
          ([r], .error (.failed "TooManyRedirects" "Exceeded maximum allowed redirects."))
        | .ok next, n + 1 =>
          let (requests, result) := follow network n next
          (r :: requests, result)

/-- The value of the body of an answer: none, JSON, or a text. -/
def bodyValue (content : String) : Value :=
  if content = "" then .null
  else
    match Json.decode (Json.withoutMark content) with
    | .ok v => v
    | .error _ => .text content

namespace Client

/-- The fault of a call that got no answer. -/
def fault (c : Client) (call : CallRequest) : Failure → Fault
  | .timedOut name =>
    .transport call.method call.url ("timed out after " ++ c.timeout ++ "s") (some name)
  | .failed name words =>
    .transport call.method call.url (if words = "" then name else words) (some name)
  | .defect d => .defect d

/-- Makes a call. Gives the requests that were sent and what came of the call. -/
def exchange (c : Client) (call : CallRequest) : List Request × Except Fault CallAnswer :=
  match Request.ofCall call with
  | .error d => ([], .error (.defect d))
  | .ok r =>
    match follow c.network maxRedirects r with
    | (requests, .error f) => (requests, .error (c.fault call f))
    | (requests, .ok answer) => (requests, .ok ⟨answer.status, bodyValue answer.content⟩)

/-- A client as what answers the calls of an engine. -/
def transport (c : Client) : Transport := fun call =>
  ⟨Binary64.zero false, (c.exchange call).2⟩

end Client

/-- The schemes that a network serves. -/
def servedSchemes : List String := ["http", "https", "ws", "wss"]

/-- A network without any connection. -/
def disconnected : Network := fun r =>
  let scheme := r.address.scheme
  .error (
    if scheme = "" then
      .failed "UnsupportedProtocol"
        "Request URL is missing an 'http://' or 'https://' protocol."
    else if servedSchemes.contains scheme then
      .failed "ConnectError" "All connection attempts failed"
    else
      .failed "UnsupportedProtocol"
        ("Request URL has an unsupported protocol '" ++ scheme ++ "://'."))

end Workgraph.Http
