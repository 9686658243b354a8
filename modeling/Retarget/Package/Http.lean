import Retarget.Json.Reader
import Retarget.Package.Error
import Retarget.Package.Version

/-
  This file reads what a feed answers over HTTP: a status,
  and an index of the versions of one package.

  Key definitions include:
    * `Http.reason?`
    * `Http.Response`
    * `Http.Response.versions`
-/

namespace Retarget.Http

/- The usual phrase for a status. -/
def reason? : Nat → Option String
  | 100 => some "Continue"
  | 101 => some "Switching Protocols"
  | 102 => some "Processing"
  | 103 => some "Early Hints"
  | 200 => some "OK"
  | 201 => some "Created"
  | 202 => some "Accepted"
  | 203 => some "Non Authoritative Information"
  | 204 => some "No Content"
  | 205 => some "Reset Content"
  | 206 => some "Partial Content"
  | 207 => some "Multi-Status"
  | 208 => some "Already Reported"
  | 226 => some "IM Used"
  | 300 => some "Multiple Choices"
  | 301 => some "Moved Permanently"
  | 302 => some "Found"
  | 303 => some "See Other"
  | 304 => some "Not Modified"
  | 305 => some "Use Proxy"
  | 307 => some "Temporary Redirect"
  | 308 => some "Permanent Redirect"
  | 400 => some "Bad Request"
  | 401 => some "Unauthorized"
  | 402 => some "Payment Required"
  | 403 => some "Forbidden"
  | 404 => some "Not Found"
  | 405 => some "Method Not Allowed"
  | 406 => some "Not Acceptable"
  | 407 => some "Proxy Authentication Required"
  | 408 => some "Request Timeout"
  | 409 => some "Conflict"
  | 410 => some "Gone"
  | 411 => some "Length Required"
  | 412 => some "Precondition Failed"
  | 413 => some "Payload Too Large"
  | 414 => some "URI Too Long"
  | 415 => some "Unsupported Media Type"
  | 416 => some "Range Not Satisfiable"
  | 417 => some "Expectation Failed"
  | 418 => some "I'm a teapot"
  | 421 => some "Misdirected Request"
  | 422 => some "Unprocessable Entity"
  | 423 => some "Locked"
  | 424 => some "Failed Dependency"
  | 425 => some "Too Early"
  | 426 => some "Upgrade Required"
  | 428 => some "Precondition Required"
  | 429 => some "Too Many Requests"
  | 431 => some "Request Header Fields Too Large"
  | 451 => some "Unavailable For Legal Reasons"
  | 500 => some "Internal Server Error"
  | 501 => some "Not Implemented"
  | 502 => some "Bad Gateway"
  | 503 => some "Service Unavailable"
  | 504 => some "Gateway Timeout"
  | 505 => some "HTTP Version Not Supported"
  | 506 => some "Variant Also Negotiates"
  | 507 => some "Insufficient Storage"
  | 508 => some "Loop Detected"
  | 510 => some "Not Extended"
  | 511 => some "Network Authentication Required"
  | _ => none

def statusText (status : Nat) : String :=
  "HTTP " ++ toString status ++ " " ++
    ((reason? status).getD "<unknown status code>")

structure Response where
  status : Nat
  body : String
  deriving Repr, DecidableEq, Inhabited

namespace Response

def isSuccess (r : Response) : Bool :=
  200 ≤ r.status && r.status < 300

/- The server is in trouble or asks for patience. -/
def isTransient (r : Response) : Bool :=
  r.status == 429 || r.status == 408 ||
    (500 ≤ r.status && r.status < 600)

/- The index of a package: a record with its versions. -/
def readIndex : Json.Reader (List String) := do
  let fields ← Json.readRecord ["versions"]
    (fun _ _ => Json.readArray Json.readText) []
  fields.require ["versions"]

/- The readable versions in an answer about a package. -/
def versions (r : Response) (feed package : String) :
    Except FeedError (List PackageVersion) :=
  if r.isSuccess then
    match Json.readWhole readIndex r.body with
    | .ok texts => .ok (texts.filterMap PackageVersion.parse?)
    | .error _ => .error (.unexpected feed)
  else if r.status == 404 then .error (.notFound feed package)
  else if r.isTransient then
    .error (.transient feed (statusText r.status))
  else .error (.http feed (statusText r.status) (some r.status))

end Response

end Retarget.Http
