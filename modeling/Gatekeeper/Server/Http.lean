import Gatekeeper.Text.Bytes

namespace Gatekeeper.Http

structure Request where
  method : String
  target : String
  chunks : List Bytes := []
  brokenOff : Bool := false
deriving Inhabited

def endsPath (c : Char) : Bool := c == '?' || c == '#'

def endsAuthority (c : Char) : Bool := c == '/' || endsPath c

/-- What stands behind the scheme of a target, if it has one: letters, digits and `+`, `-`, `.` up to
`://`. -/
def afterScheme? (target : List Char) : Option (List Char) :=
  match target.dropWhile fun c ↦ c.isAlphanum || c == '+' || c == '-' || c == '.' with
  | ':' :: '/' :: '/' :: rest => some rest
  | _ => none

/-- The path a request asks for. A target that starts with a slash is a path with perhaps a query; `*`
stands for the server as a whole; behind a scheme and an authority there is at least the root; and an
authority alone has no path. -/
def Request.path (r : Request) : String :=
  let target := r.target.toList
  let upToQuery (cs : List Char) := String.ofList (cs.takeWhile fun c ↦ !endsPath c)
  if target.head? = some '/' ∨ r.target = "*" then upToQuery target
  else
    match afterScheme? target with
    | none => ""
    | some rest =>
      let path := upToQuery (rest.dropWhile fun c ↦ !endsAuthority c)
      if path.isEmpty then "/" else path

structure Response where
  status : Nat
  headers : List (String × String)
  body : Bytes
deriving DecidableEq, Inhabited

inductive BodyFault where
  | tooLarge
  | unreadable
deriving DecidableEq, Repr

/-- The body of a request, if it is complete and at most `limit` bytes long; a piece over the limit is
noticed as soon as it arrives. -/
def readBody (limit : Nat) (brokenOff : Bool) : List Bytes → Except BodyFault Bytes
  | [] => if brokenOff then .error .unreadable else .ok []
  | chunk :: chunks =>
    if limit < chunk.length then .error .tooLarge
    else (readBody (limit - chunk.length) brokenOff chunks).map (chunk ++ ·)

def reason : Nat → String
  | 200 => "OK"
  | 400 => "Bad Request"
  | 404 => "Not Found"
  | 405 => "Method Not Allowed"
  | 413 => "Payload Too Large"
  | 500 => "Internal Server Error"
  | 502 => "Bad Gateway"
  | 503 => "Service Unavailable"
  | _ => "<unknown status code>"

def statusText (status : Nat) : String :=
  let words := reason status
  s!"{status} {words}"

namespace Response

def withBody (status : Nat) (headers : List (String × String)) (body : Bytes) : Response where
  status := status
  headers := headers ++ [("content-length", toString body.length)]
  body := body

def plain (status : Nat) (message : String) : Response :=
  withBody status [("content-type", "text/plain; charset=utf-8")] (Bytes.ofString message)

def json (body : Bytes) : Response := withBody 200 [("content-type", "application/json")] body

def octets (body : Bytes) : Response :=
  withBody 200 [("content-type", "application/octet-stream"), ("content-transfer-encoding", "utf-8")]
    body

/-- The answer to a path nothing is known by; where there is no path to speak of, it tells its length. -/
def notFound (path : String) : Response :=
  if path.toList.head? = some '/' then { status := 404, headers := [], body := [] } else withBody 404 [] []

def notAllowed (methods : String) : Response := withBody 405 [("allow", methods)] []

def withoutBody (r : Response) : Response := { r with body := [] }

end Response

end Gatekeeper.Http
