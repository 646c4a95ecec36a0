import FluxRest.Py.Url
import FluxRest.Py.Exc

/-! The part of `http.server` a request handler works with: the parsed request, and the
response head it buffers and then hands to the connection together with the body. -/
namespace Py.Http

/-- A request whose line and headers have been parsed, and the connection it came on. -/
structure Request where
  command : Str
  /-- `self.path`, the request target. -/
  path : Str
  /-- The version that the request line names, if it names one. -/
  version : Option Str := some "HTTP/1.1".toList
  headers : List (Str × Str) := []
  /-- The bytes the client sends after the headers. -/
  body : Bytes := []
  /-- The client closes its sending side after `body`; otherwise it goes silent. -/
  halfCloses : Bool := true
  /-- What every write to the connection raises, when the client has gone away. -/
  writeError : Option Exc := none

/-- `self.request_version` is `HTTP/0.9`, which a line without a version stands for as well: the
response has no head. -/
def Request.http09 (req : Request) : Bool :=
  req.version.getD "HTTP/0.9".toList = "HTTP/0.9".toList

theorem Request.version_ne_none {req : Request} (hv : req.http09 = false) : req.version ≠ none := by
  intro hnone
  simp [Request.http09, hnone] at hv

/-- `self.headers.get(name)`. -/
def Request.header (req : Request) (name : Str) : Option Str :=
  (req.headers.find? (lower ·.1 = lower name)).map Prod.snd

/-- `self.rfile.read(n)`: short only at the end of the stream, and `TimeoutError` once the
connection's timeout has run out. -/
def Request.read (req : Request) (n : ℕ) : Except Exc Bytes :=
  if n ≤ req.body.length then .ok (req.body.take n)
  else if req.halfCloses then .ok req.body
  else .error (.ofClass .timeoutError "timed out".toList)

structure Head where
  status : ℕ
  reason : Str
  fields : List (Str × Str)
  deriving DecidableEq

/-- What one `wfile.write` hands to the connection. -/
inductive Wire where
  | head (h : Head)
  | data (bs : Bytes)
  deriving DecidableEq

/-- The reason phrase `send_response` supplies for a status. -/
def reasonPhrase : ℕ → Str
  | 200 => "OK".toList
  | 201 => "Created".toList
  | 202 => "Accepted".toList
  | 400 => "Bad Request".toList
  | 401 => "Unauthorized".toList
  | 403 => "Forbidden".toList
  | 404 => "Not Found".toList
  | 409 => "Conflict".toList
  | 500 => "Internal Server Error".toList
  | 501 => "Not Implemented".toList
  | 503 => "Service Unavailable".toList
  | 504 => "Gateway Timeout".toList
  | _ => []

/-- The text of the head, up to and including the blank line. -/
def Head.text (h : Head) : Str :=
  "HTTP/1.0 ".toList ++ natStr h.status ++ ' ' :: h.reason ++ "\r\n".toList ++
    h.fields.flatMap (fun f => f.1 ++ ": ".toList ++ f.2 ++ "\r\n".toList) ++ "\r\n".toList

def Wire.bytes : Wire → Bytes
  | .head h => h.text.map fun c => UInt8.ofNat c.toNat
  | .data bs => bs

end Py.Http
