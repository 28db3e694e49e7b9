import Scenario.Http.Cookie
import Scenario.Http.Request

/-!
# The client

A `Client` keeps the cookies of a run. `Client.send` puts a request together, adds the cookies,
follows redirections and gives back the last answer.

* A redirection with 301 or 302 turns `POST` into `GET`, one with 303 every method but `HEAD`; the
  body is dropped then. One with 307 or 308 repeats the message as it was.
* At most ten redirections are followed.
* What would give away the user is not sent on to another host.
-/

namespace Scenario

namespace Http

universe u

/-- What comes back for a message. -/
inductive Incoming where
  | reply (status : Nat) (headers : List (String × String)) (body : ByteArray)
  /-- There is nobody to connect to. -/
  | refused
  /-- The connection ends without a reply. -/
  | broken
  /-- No reply comes. -/
  | silent

/-- How messages are answered, by something that has a state. -/
abbrev Wire (ρ : Type u) := Outgoing → ρ → Incoming × ρ

/-- The last answer to a request. The names of headers are in lower case. -/
structure Answer where
  status : Nat
  headers : List (String × String)
  text : String

/-- A client. -/
structure Client where
  jar : Jar := []
  /-- The seconds after which a request is given up. -/
  patience : Binary64

/-- The most redirections that are followed. -/
def redirectLimit : Nat := 10

/-! ### Redirections -/

/-- Headers that are kept from other hosts. -/
def sensitiveHeaders : List String :=
  ["authorization", "cookie", "cookie2", "proxy-authorization", "www-authenticate"]

/-- Headers that describe a body. -/
def bodyHeaders : List String :=
  ["content-type", "content-length", "content-encoding", "transfer-encoding"]

/-- The headers without some. -/
def withoutHeaders (names : List String) (headers : List (String × String)) :
    List (String × String) :=
  headers.filter fun header => !(header.1 ∈ names)

/-- The port of a URL, also where it is not written. -/
def Url.knownPort (url : Url) : Option Nat :=
  match url.port with
  | some port => some port
  | none => Url.defaultPort? url.scheme

/-- Whether two URLs lead to the same server. -/
def sameServer (a b : Url) : Bool :=
  a.host = b.host && a.knownPort = b.knownPort

/-- The address of the page before, as it is told to the next server. -/
def referrer (previous next : Url) : List (String × String) :=
  if previous.scheme = "https" && next.scheme = "http" then [] else [("referer", previous.target)]

/-- The headers for the next server. -/
def redirectHeaders (headers : List (String × String)) (previous next : Url) :
    List (String × String) :=
  let kept := if sameServer previous next then headers else withoutHeaders sensitiveHeaders headers
  match referrer previous next with
  | [] => kept
  | added => withoutHeaders ["referer"] kept ++ added

/-- Whether a redirection with a status turns a method into `GET`. -/
def becomesGet (status : Nat) (method : String) : Bool :=
  if status = 303 then method ≠ "HEAD" else (status = 301 || status = 302) && method = "POST"

/-- Whether a redirection with a status repeats the message. -/
def repeatsMessage (status : Nat) (method : String) : Bool :=
  status = 307 || status = 308 || ((status = 301 || status = 302) && method ≠ "POST") ||
    (status = 303 && method = "HEAD")

/-- Where an answer sends the client. -/
def location? (url : Url) (headers : List (String × String)) : Option Url :=
  match headers.find? fun header => header.1 = "location" with
  | some (_, place) => (url.join place).toOption
  | none => none

/-- The message that follows a redirection, if the answer is one. -/
def redirected? (message : Outgoing) (status : Nat) (headers : List (String × String)) :
    Option Outgoing :=
  (location? message.url headers).bind fun next =>
    -- the headers that describe a body go with it
    if becomesGet status message.method then
      some {
        method := "GET"
        url := next
        headers := redirectHeaders (withoutHeaders bodyHeaders message.headers) message.url next
        body := "" }
    -- a body that is read once cannot be sent again
    else if repeatsMessage status message.method && message.repeatable then
      some { message with
        url := next
        headers := redirectHeaders message.headers message.url next }
    else none

/-! ### Sending -/

/-- The message with the cookies for its URL, unless it has some of its own. -/
def withCookies (jar : Jar) (now : Instant) (message : Outgoing) : Outgoing :=
  match jar.header? message.url now with
  | some cookies => { message with headers := withDefault message.headers "cookie" cookies }
  | none => message

/-- The headers of a reply, names in lower case and values without blanks around them. -/
def plainHeaders (headers : List (String × String)) : List (String × String) :=
  headers.map fun (name, value) =>
    (Text.asciiLower name,
      Text.trimEnd (fun c => c = ' ' || c = '\t') (Text.trimStart (fun c => c = ' ' || c = '\t') value))

/-- The values of all headers with a name. -/
def headerValues (name : String) (headers : List (String × String)) : List String :=
  (headers.filter fun header => header.1 = name).map Prod.snd

/-- Whether a reply has no body whatever follows its head. -/
def isBodiless (method : String) (status : Nat) : Bool :=
  method = "HEAD" || status = 204 || status = 304

/-- Sends a message and follows up to `left` redirections. -/
def Client.exchange {ρ : Type u} (wire : Wire ρ) (now : Instant) (client : Client) (left : Nat)
    (message : Outgoing) (outside : ρ) : Except Trouble Answer × Client × ρ :=
  match wire (withCookies client.jar now message) outside with
  | (.refused, outside) => (.error (.notConnected message.url.text), client, outside)
  | (.broken, outside) => (.error (.broken message.url.text), client, outside)
  | (.silent, outside) => (.error (.timedOut message.url.text client.patience), client, outside)
  | (.reply status raw body, outside) =>
    let headers := plainHeaders raw
    let jar := (headerValues "set-cookie" headers).foldl
      (fun jar header => jar.store message.url now header) client.jar
    let client := { client with jar := jar }
    -- a redirection sets its cookies too, before it is followed
    match redirected? message status headers with
    | some next =>
      if next.url.scheme = "http" || next.url.scheme = "https" then
        match left with
        | 0 => (.error (.tooManyRedirects message.url.text), client, outside)
        | n + 1 => client.exchange wire now n next outside
      else (.error (.badScheme next.url.text), client, outside)
    | none =>
      let text := if isBodiless message.method status then "" else Text.ofBytes body
      (.ok ⟨status, headers, text⟩, client, outside)
termination_by structural left

/-- **Sending a request.** -/
def Client.send {ρ : Type u} (wire : Wire ρ) (now : Instant) (client : Client) (request : Request)
    (outside : ρ) : Except Trouble Answer × Client × ρ :=
  match request.prepare with
  | .error trouble => (.error trouble, client, outside)
  | .ok message => client.exchange wire now redirectLimit message outside

end Http

end Scenario
