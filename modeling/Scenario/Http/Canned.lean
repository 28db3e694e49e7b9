import Scenario.Http.Client

/-!
# Prepared replies

A `CannedServer` answers messages from a list of prepared replies, so that a case can be rehearsed
without a network. The first reply that fits a message is given and used up, unless it repeats.
-/

namespace Scenario

namespace Http

/-- What a prepared reply does. -/
inductive CannedManner where
  /-- It is given. -/
  | given
  /-- The connection ends in its place. -/
  | dropped
  /-- Nothing comes. -/
  | withheld
deriving DecidableEq, Repr

/-- A prepared reply. -/
structure CannedReply where
  status : Nat := 200
  headers : List (String × String) := []
  body : ByteArray := .empty
  /-- The path it is for; any, if none is given. -/
  path : Option String := none
  /-- The method it is for; any, if none is given. -/
  method : Option String := none
  repeats : Bool := false
  manner : CannedManner := .given

/-- A server with prepared replies. -/
structure CannedServer where
  replies : List CannedReply := []
  /-- The messages that have come, in order. -/
  received : List Outgoing := []
  /-- Whether there is a connection at all. -/
  reachable : Bool := true

namespace CannedServer

/-- Whether a reply is for a message. -/
def fits (message : Outgoing) (reply : CannedReply) : Bool :=
  (reply.path.all fun path => path = message.url.path) &&
    reply.method.all fun method => method = message.method

/-- The first reply for a message, and the replies that are left. -/
def choose (message : Outgoing) : List CannedReply → Option CannedReply × List CannedReply
  | [] => (none, [])
  | reply :: rest =>
    if fits message reply then (some reply, if reply.repeats then reply :: rest else rest)
    else
      let (chosen, left) := choose message rest
      (chosen, reply :: left)

/-- What comes back for a prepared reply. -/
def incoming : Option CannedReply → Incoming
  | none => .reply 404 [] "no reply".toUTF8
  | some reply =>
    match reply.manner with
    | .given => .reply reply.status reply.headers reply.body
    | .dropped => .broken
    | .withheld => .silent

/-- **Answering a message.** Only plain connections are served. -/
def answer (message : Outgoing) (server : CannedServer) : Incoming × CannedServer :=
  if server.reachable && message.url.scheme = "http" then
    let (chosen, replies) := choose message server.replies
    (incoming chosen, { server with replies, received := server.received ++ [message] })
  else (.refused, server)

end CannedServer

end Http

end Scenario
