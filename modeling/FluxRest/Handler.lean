import FluxRest.Routes

/-! The request handler: `_send` and the three `do_*` methods. -/
namespace FluxRest
open Py Py.Http

variable (F : Flux) (site : Site)

/-- The head `_send` buffers. -/
def sendHead (status length : ℕ) (headers : Option (List (Str × Str))) : Head where
  status := status
  reason := reasonPhrase status
  fields := [
    ("Server".toList, SERVER_NAME ++ " Python/".toList ++ site.pythonVersion),
    ("Date".toList, site.date),
    ("Content-Type".toList, "application/json".toList),
    ("Content-Length".toList, natStr length)] ++ headers.getD []

/-- `self.wfile.write`. -/
def write (req : Request) (x : Wire) : Proc (World F) Unit := do
  modify fun w => { w with wire := w.wire ++ [x] }
  match req.writeError with
  | some err => throw err
  | none => return ()

/-- `send_header` for the route's own headers, and `end_headers`: nothing at all for a request
without a version, and a header outside Latin-1 is an error before anything is written. -/
def endHeaders (req : Request) (head : Head) (headers : Option (List (Str × Str))) :
    Proc (World F) Unit :=
  if req.http09 then return ()
  else if (headers.getD []).all fun f => isLatin1 f.1 && isLatin1 f.2 then write F req (.head head)
  else throw (.ofClass .unicodeEncodeError "'latin-1' codec can't encode characters".toList)

/-- The bytes of a JSON response body. -/
def bodyBytes (body : Json) : Bytes := encode (body.dumps ++ ['\n'])

/-- `_send(status, body, headers)`. -/
def send (req : Request) (reply : Reply) : Proc (World F) Unit :=
  let data := bodyBytes reply.body
  tryCatch
    (do
      endHeaders F req (sendHead site reply.status data.length reply.headers) reply.headers
      write F req (.data data))
    fun err => if err.isA .brokenPipeError then return () else throw err

/-- `log_error("unhandled exception in %s: %s", path, err)`. -/
def logUnhandled (path : Str) (err : Exc) : Proc (World F) Unit :=
  modify fun w => { w with stderr := w.stderr ++
    ["unhandled exception in ".toList ++ path ++ ": ".toList ++ err.message] }

def unavailable (err : Exc) : Reply :=
  ⟨503, .obj [("error".toList, .str "flux unavailable".toList),
    ("detail".toList, .str err.message)], none⟩

def internalError : Reply := .error 500 "internal error".toList

def notFound (path : Str) : Reply :=
  ⟨404, .obj [("error".toList, .str "not found".toList), ("path".toList, .str path)], none⟩

/-- The `try` statement each method runs its route in. -/
def guardRoute (path : Str) (call : RouteCall F) (route : Proc (World F) Reply) :
    Proc (World F) Reply :=
  tryCatch
    (do
      modify fun w => w.log (.route call)
      route)
    fun err =>
      if err.isA .osError then return unavailable err
      else do
        logUnhandled F path err
        return internalError

/-- `status, body = route()`, which takes no third component. -/
def unpackPair (route : Proc (World F) Reply) : Proc (World F) Reply := do
  let reply ← route
  match reply.headers with
  | none => return reply
  | some _ => throw (.ofClass .valueError "too many values to unpack (expected 2)".toList)

/-- `functools.partial(None, jobid)`. -/
def notCallable : Exc := .ofClass .typeError "the first argument must be callable".toList

/-- `None(jobid, reason)`. -/
def noneNotCallable : Exc := .ofClass .typeError "'NoneType' object is not callable".toList

variable (tbl : Tables F)

/-- `do_GET`. -/
def doGET (req : Request) : Proc (World F) Unit := do
  let path := before '?' req.path
  match lookup path tbl.routes with
  | some route => send F site req (← guardRoute F path (.get path) (unpackPair F route))
  | none =>
    match parseJobPath F path with
    | .error message => send F site req (.error 400 message)
    | .ok none => send F site req (notFound path)
    | .ok (some jobid) =>
      match tbl.getJobRoute with
      | none => throw notCallable
      | some route =>
        send F site req (← guardRoute F path (.getJob jobid) (unpackPair F (route jobid)))

/-- What reading a request body came to. -/
inductive Framed where
  | refused (reply : Reply)
  | body (fields : List (Str × Json))

def malformed : Framed := .refused (.error 400 "malformed request".toList)

/-- `json.loads(raw)` under the `except` clause of `do_POST`, and the check that it gave an
object. An exception the clause does not name leaves the method. -/
def loadBody (raw : Bytes) : Except Exc Framed :=
  match site.loads raw with
  | .error err =>
    if err.exc.isA .jsonDecodeError || err.exc.isA .valueError then .ok malformed
    else .error err.exc
  | .ok (.obj fields) => .ok (.body fields)
  | .ok _ => .ok (.refused (.error 400 "request body must be a JSON object".toList))

/-- `self.rfile.read(length) if length else b"{}"`. -/
def rawOf (req : Request) (length : ℕ) : Except Exc Bytes :=
  if length ≠ 0 then req.read length else .ok (encode "\x7b\x7d".toList)

/-- The first `try` statement of `do_POST`. -/
def readBody (req : Request) : Except Exc Framed :=
  match int site.intLimit ((req.header "Content-Length".toList).getD ['0']) with
  | none => .ok malformed
  | some length =>
    if length < 0 then .ok malformed
    else if (MAX_BODY_SIZE : ℤ) < length then
      .ok (.refused (.error 400 "request body too large".toList))
    else
      match rawOf req length.toNat with
      | .error err =>
        if err.isA .jsonDecodeError || err.isA .valueError then .ok malformed else .error err
      | .ok raw => loadBody site raw

/-- `do_POST`. -/
def doPOST (req : Request) : Proc (World F) Unit := do
  let path := before '?' req.path
  match lookup path tbl.postRoutes with
  | none => send F site req (notFound path)
  | some route =>
    match readBody site req with
    | .error err => throw err
    | .ok (.refused reply) => send F site req reply
    | .ok (.body fields) =>
      send F site req (← guardRoute F path (.post path fields) (route fields))

/-- `do_DELETE`. -/
def doDELETE (req : Request) : Proc (World F) Unit := do
  match urlsplit site.hostError req.path with
  | .error message => throw (.ofClass .valueError message)
  | .ok parsed =>
    let path := parsed.path
    let reason := parseQsFirst "reason".toList parsed.query
    match parseJobPath F path with
    | .error message => send F site req (.error 400 message)
    | .ok none => send F site req (notFound path)
    | .ok (some jobid) =>
      match tbl.deleteJobRoute with
      | none => do
        logUnhandled F path noneNotCallable
        send F site req internalError
      | some route =>
        send F site req (← guardRoute F path (.deleteJob jobid reason) (route jobid reason))

/-- `send_error(code, message)`, where `self.command` is `command`. -/
def sendError (req : Request) (command : Option Str) (code : ℕ) (message : Str) :
    Proc (World F) Unit := do
  let data := encode (site.errorPage code message)
  endHeaders F req ⟨code, message, [
    ("Server".toList, SERVER_NAME ++ " Python/".toList ++ site.pythonVersion),
    ("Date".toList, site.date),
    ("Connection".toList, "close".toList),
    ("Content-Type".toList, "text/html;charset=utf-8".toList),
    ("Content-Length".toList, natStr data.length)]⟩ none
  if command ≠ some "HEAD".toList ∧ data ≠ [] then write F req (.data data) else return ()

/-- `handle_one_request`, once the request line and the headers are read: a line without a
version can only ask for `GET`, and is refused before `self.command` is set. The methods are
those the handler has. -/
def handleOneRequest (req : Request) : Proc (World F) Unit :=
  if req.version = none ∧ req.command ≠ "GET".toList then
    sendError F site req none 400
      ("Bad HTTP/0.9 request type (".toList ++ site.repr req.command ++ [')'])
  else if req.command = "GET".toList then doGET F site tbl req
  else if req.command = "POST".toList then doPOST F site tbl req
  else if req.command = "DELETE".toList then doDELETE F site tbl req
  else sendError F site req (some req.command) 501
    ("Unsupported method (".toList ++ site.repr req.command ++ [')'])

/-! The method that a request comes to. -/

variable {F site tbl} {req : Request}

/-- What holds of each method, and of the two ways to refuse one, holds of the handler. -/
theorem handleOneRequest_rule {P : Proc (World F) Unit → Prop}
    (hget : req.command = "GET".toList → P (doGET F site tbl req))
    (hpost : req.command = "POST".toList → req.version ≠ none → P (doPOST F site tbl req))
    (hdelete : req.command = "DELETE".toList → req.version ≠ none → P (doDELETE F site tbl req))
    (herror : ∀ command, ∀ code ∈ [400, 501], ∀ message, P (sendError F site req command code message)) :
    P (handleOneRequest F site tbl req) := by
  unfold handleOneRequest
  have hversion : req.command ≠ "GET".toList →
      ¬ (req.version = none ∧ req.command ≠ "GET".toList) → req.version ≠ none :=
    fun hne hnot hv => hnot ⟨hv, hne⟩
  split_ifs with hold hg hp hd
  · exact herror none 400 (by decide) _
  · exact hget hg
  · exact hpost hp (hversion hg hold)
  · exact hdelete hd (hversion hg hold)
  · exact herror _ 501 (by decide) _

theorem handleOneRequest_get (hget : req.command = "GET".toList) :
    handleOneRequest F site tbl req = doGET F site tbl req := by
  unfold handleOneRequest
  rw [if_neg fun hold => hold.2 hget, if_pos hget]

theorem handleOneRequest_unversioned (hv : req.version = none) (hget : req.command ≠ "GET".toList) :
    handleOneRequest F site tbl req = sendError F site req none 400
      ("Bad HTTP/0.9 request type (".toList ++ site.repr req.command ++ [')']) := by
  unfold handleOneRequest
  rw [if_pos ⟨hv, hget⟩]

theorem handleOneRequest_post (hpost : req.command = "POST".toList) (hv : req.version ≠ none) :
    handleOneRequest F site tbl req = doPOST F site tbl req := by
  unfold handleOneRequest
  rw [if_neg (by simp [hv]), hpost, if_neg (by decide), if_pos rfl]

theorem handleOneRequest_delete (hdelete : req.command = "DELETE".toList) (hv : req.version ≠ none) :
    handleOneRequest F site tbl req = doDELETE F site tbl req := by
  unfold handleOneRequest
  rw [if_neg (by simp [hv]), hdelete, if_neg (by decide), if_neg (by decide), if_pos rfl]

end FluxRest
