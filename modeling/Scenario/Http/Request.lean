import Scenario.Http.Trouble
import Scenario.Http.Url
import Scenario.Json.Printer
import Scenario.Text.Base64
import Scenario.Text.Blank
import Scenario.Text.Utf8

/-!
# Requests

A `Request` says what shall be sent; `Request.prepare` puts the `Outgoing` message together, which is
what a server gets to see. A request that cannot be put together never leaves the client.
-/

namespace Scenario

namespace Http

/-- What a request carries. -/
inductive Payload where
  | empty
  | json (v : Json.Value)
  | text (s : String)
  | form (pairs : List (String × String))
  /-- Form fields as parts of one body. -/
  | parts (pairs : List (String × String))

/-- A request. -/
structure Request where
  method : String
  address : String
  headers : List (String × String) := []
  /-- Pairs to append to the query of the address. -/
  params : Option (List (String × String)) := none
  payload : Payload := .empty

/-- A message as it leaves the client. The names of headers are in lower case. -/
structure Outgoing where
  method : String
  url : Url
  headers : List (String × String)
  body : String
  /-- Whether the body can be sent a second time. -/
  repeatable : Bool := true

/-! ### Headers -/

/-- Whether a character may stand in the name of a header or in a method. -/
def isTokenChar (c : Char) : Bool :=
  c.isAlphanum || c ∈ ['!', '#', '$', '%', '&', '\x27', '*', '+', '-', '.', '^', '_', '\x60', '|', '~']

/-- Whether a text can be a method. -/
def isMethod (text : String) : Bool :=
  text ≠ "" && text.toList.all isTokenChar

/-- Whether a character may stand in the value of a header. -/
def isValueChar (c : Char) : Bool :=
  c = '\t' || (0x20 ≤ c.toNat && c ≠ '\x7f')

/-- A header in its sent form, if it is one. -/
def header? (name value : String) : Option (String × String) :=
  if name ≠ "" && name.toList.all isTokenChar && value.toList.all isValueChar then
    some (Text.asciiLower name, value)
  else none

/-- Whether a header is among others. -/
def hasHeader (name : String) (headers : List (String × String)) : Bool :=
  headers.any fun header => header.1 = name

/-- The headers with one more, unless its name is there already. -/
def withDefault (headers : List (String × String)) (name value : String) :
    List (String × String) :=
  if hasHeader name headers then headers else headers ++ [(name, value)]

/-- The header that tells the user of a URL. -/
def authorization (url : Url) : List (String × String) :=
  if url.username = "" && url.password = "" then []
  else
    let plain (s : String) : String := Text.ofBytes ⟨(Percent.decodeBytes s.toList).toArray⟩
    [("authorization",
      "Basic " ++ Text.Base64.encode (plain url.username ++ ":" ++ plain url.password))]

/-! ### Bodies -/

/-- The name of a form field in the head of its part. -/
def partName (name : String) : String :=
  let encoded := Percent.encode Percent.inPartName name
  if encoded = name then "name=\"" ++ name ++ "\"" else "name*=utf-8''" ++ encoded

/-- One part. -/
def part (boundary : String) (pair : String × String) : String :=
  "--" ++ boundary ++ "\r\nContent-Disposition: form-data; " ++ partName pair.1 ++ "\r\n\r\n" ++
    pair.2 ++ "\r\n"

/-- The body of form fields as parts; without fields it is empty. -/
def partsBody (boundary : String) (pairs : List (String × String)) : String :=
  if pairs.isEmpty then ""
  else String.join (pairs.map (part boundary)) ++ "--" ++ boundary ++ "--\r\n"

/-- The first of the candidates `BOUNDARY`, `BOUNDARY0`, `BOUNDARY00`, … that occurs in no field. -/
def freshBoundary (pairs : List (String × String)) (candidate : String) : Nat → String
  | 0 => candidate
  | n + 1 =>
    if pairs.any fun pair => Text.contains pair.1 candidate || Text.contains pair.2 candidate then
      freshBoundary pairs (candidate ++ "0") n
    else candidate

/-- The boundary between the parts of a body. -/
def boundaryFor (pairs : List (String × String)) : String :=
  let length := (pairs.map fun pair => pair.1.length + pair.2.length).foldl (· + ·) 0
  freshBoundary pairs "BOUNDARY" (length + 1)

/-- The headers of a message with the payload's own, and its body. -/
def Payload.pack (headers : List (String × String)) : Payload → List (String × String) × String
  | empty => (headers, "")
  | json v => (withDefault headers "content-type" "application/json", v.compact)
  | text s => (headers, s)
  | form pairs =>
    (withDefault headers "content-type" "application/x-www-form-urlencoded",
      Percent.formEncode pairs)
  | parts pairs =>
    let boundary := boundaryFor pairs
    (headers ++ [("content-type", "multipart/form-data; boundary=" ++ boundary)],
      partsBody boundary pairs)

/-! ### Putting together -/

/-- **The message of a request.** Address and headers have to be well-formed, and the address has to
be one of the web. -/
def Request.prepare (request : Request) : Except Trouble Outgoing :=
  match Url.ofText request.address, request.headers.mapM fun (name, value) => header? name value with
  | .ok url, some headers =>
    let (headers, body) := request.payload.pack (authorization url ++ headers)
    let url := match request.params with
      | some pairs => url.withPairs pairs
      | none => url
    if url.scheme = "http" || url.scheme = "https" then
      .ok {
        method := request.method
        -- the user has become a header
        url := { url with username := "", password := "" }
        headers, body
        -- the parts of a form are written out while they are sent
        repeatable := match request.payload with
          | .parts _ => false
          | _ => true }
    else .error (.badScheme url.text)
  | _, _ => .error .unbuildable

end Http

end Scenario
