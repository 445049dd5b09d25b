import Bundleless.Load.Request
import Bundleless.Table
import Bundleless.Url.Parser

/-! # Networks

    Where replies come from. A scripted network answers every request after
    the same delay, from a list of replies for its URL and method; the last
    reply of a list is given again and again. A network that refuses answers
    at once, because no request leaves it.
-/

namespace Bundleless

/-- A reply of a scripted network. -/
inductive ScriptedReply where
  | response (r : Response)
  | unreachable
deriving DecidableEq, Repr, Inhabited

/-- The replies for a URL, by method. -/
structure NetworkRoute where
  head : List ScriptedReply
  get : List ScriptedReply
deriving DecidableEq, Repr, Inhabited

/-- A network. -/
inductive Network where
  /-- One that answers from a script, after a delay in milliseconds. -/
  | scripted (routes : Table NetworkRoute) (delay : Nat)
  /-- One that sends nothing. -/
  | refusing
deriving DecidableEq, Repr, Inhabited

namespace Network

/-- How long a reply takes, in milliseconds. -/
def delay : Network → Nat
  | scripted _ ms => ms
  | refusing => 0

/-- The next reply of a list, and the list after it. -/
def pop : List ScriptedReply → Option ScriptedReply × List ScriptedReply
  | [] => (none, [])
  | [r] => (some r, [r])
  | r :: rest => (some r, rest)

/-- The reply to a request for a URL. -/
def replyOf (url : String) : Option ScriptedReply → Reply
  | some (.response r) => .ok r
  | some .unreachable => .error (.network ("unreachable: " ++ url))
  | none => .ok ⟨404, ""⟩

/-- The schemes of requests. -/
def schemes : List String := ["http", "https"]

/-- The URL as a request names it: name and password are sent apart from it, if they stand for
    text. -/
def requestUrl (u : Url) : Url :=
  match u.authority with
  | none => u
  | some a =>
    let isText (cs : List Char) : Bool := (Url.textOfBytes? (Url.percentDecode cs)).isSome
    let name := a.userinfo.takeWhile (· != ':')
    let password := (a.userinfo.dropWhile (· != ':')).drop 1
    if isText name && !(name.isEmpty && !isText password) then
      { u with authority := some { a with userinfo := [] } }
    else u

/-- Why a request is not sent: its URL is none, or is not one of a request, or there is no
    connection. -/
def refusal (url : String) : Failure :=
  match Url.parse url with
  | .error e => .network ("builder error: " ++ e.message)
  | .ok u =>
    let named := (requestUrl u).href
    if schemes.contains (String.ofList u.scheme) then
      .network ("error sending request for url (" ++ named ++ ")")
    else .network ("builder error for url (" ++ named ++ "): URL scheme is not allowed")

/-- The reply to a request, and the network after it. -/
def take (n : Network) (method : Method) (url : String) : Reply × Network :=
  match n with
  | refusing => (.error (refusal url), n)
  | scripted routes ms =>
    match routes.get? url with
    -- Nothing is said of this URL: there is nothing.
    | none => (replyOf url none, n)
    | some route =>
      match method with
      | .head =>
        let (r, rest) := pop route.head
        (replyOf url r, scripted (routes.insert url { route with head := rest }) ms)
      | .get =>
        let (r, rest) := pop route.get
        (replyOf url r, scripted (routes.insert url { route with get := rest }) ms)

end Network

end Bundleless
