import FluxRest.Ensure
import FluxRest.Py.Head
import FluxRest.Py.Rules

/-! The helper's `EnsureHandler`, with what it runs, what it writes to its connection and what it
logs. -/
namespace FluxRest.Ensure
open Py Py.Http

/-- What `http.server` adds to a response: the interpreter's version and the date, which stay within
their lines, and the page of an error. -/
structure Interpreter where
  version : Str
  date : Str
  errorPage : ℕ → Str → Str
  isLine_version : IsLine version
  isLine_date : IsLine date

/-- A request as the handler sees it. -/
structure Call extends Request where
  requestline : Str
  /-- The host in `client_address`, where that is a tuple. -/
  client : Option Str := none

structure State where
  /-- The commands that `subprocess.run` was called with. -/
  commands : List (List Str) := []
  wire : List Wire := []
  stderr : List Str := []

variable (interp : Interpreter) (call : Call)

/-- `self.wfile.write`. -/
def write (x : Wire) : Proc State Unit := do
  modify fun s => { s with wire := s.wire ++ [x] }
  match call.writeError with
  | some err => throw err
  | none => return ()

/-- `address_string`. -/
def addressString : Str := call.client.getD "unix".toList

/-- `log_message`, once the arguments have been formatted. -/
def logMessage (text : Str) : Proc State Unit :=
  modify fun s => { s with
    stderr := s.stderr ++ [addressString call ++ " - ".toList ++ text ++ ['\n']] }

/-- `log_error(format)`. -/
def logError (format : Str) : Proc State Unit := do
  let text ← Proc.ofExcept (percent format)
  logMessage call text

/-- The fields that `send_response` sets. -/
def responseFields : List (Str × Str) := [
  ("Server".toList, "flux-rest-server-ensure/0.1.0 Python/".toList ++ interp.version),
  ("Date".toList, interp.date)]

/-- `send_response(head.status, head.reason)`, `send_header` for the fields, and `end_headers`. -/
def sendHead (head : Head) : Proc State Unit := do
  logMessage call ('"' :: call.requestline ++ "\" ".toList ++ natStr head.status ++ " -".toList)
  if call.http09 then return ()
  else do
    let _ ← Proc.ofExcept (encodeLatin1 (head.statusLine ++ "\r\n".toList))
    write call (.head head)

def errorHead (code : ℕ) (message : Str) (length : ℕ) : Head where
  status := code
  reason := message
  fields := responseFields interp ++ [
    ("Connection".toList, "close".toList),
    ("Content-Type".toList, "text/html;charset=utf-8".toList),
    ("Content-Length".toList, natStr length)]

/-- `send_error(code, message)`. -/
def sendError (code : ℕ) (message : Str) : Proc State Unit := do
  logMessage call ("code ".toList ++ natStr code ++ ", message ".toList ++ message)
  let data := encode (interp.errorPage code message)
  sendHead call (errorHead interp code message data.length)
  write call (.data data)

def okHead : Head where
  status := 200
  reason := reasonPhrase 200
  fields := responseFields interp ++ [("Content-Type".toList, "text/plain".toList)]

/-- `subprocess.run(command, ...)`. -/
def subprocessRun (run : List Str → Completed) (command : List Str) : Proc State Completed := do
  modify fun s => { s with commands := s.commands ++ [command] }
  return run command

/-- The `except Exception` clause. -/
def unexpected (err : Exc) : Proc State Unit := do
  logError call ("Unexpected error: ".toList ++ err.message)
  sendError interp call 500 ("Internal error: ".toList ++ err.message)

/-- What the `try` statement does once `systemctl` has exited. -/
def answer (unitName : Str) (returncode : ℤ) (stderr : Bytes) : Proc State Unit :=
  if returncode ≠ 0 then do
    let stderr := decode stderr
    logError call ("systemctl start ".toList ++ unitName ++ " failed: ".toList ++ stderr)
    sendError interp call 500 ("Failed to start ".toList ++ unitName ++ ": ".toList ++ stderr)
  else do
    sendHead call (okHead interp)
    write call (.data (encode "OK\n".toList))

/-- The `try` statement, from what `subprocess.run` comes to; only it raises `TimeoutExpired`. -/
def completed (unitName : Str) : Completed → Proc State Unit
  | .timeoutExpired => sendError interp call 504 ("Timeout starting ".toList ++ unitName)
  | .raised err => unexpected interp call err
  | .exited returncode stderr =>
    tryCatch (answer interp call unitName returncode stderr) fun err => unexpected interp call err

/-- The header's value, without the white space around it. -/
def remoteUser : Str := strip ((call.header "X-Remote-User".toList).getD [])

def startCommand (user : Str) : List Str := ["systemctl".toList, "start".toList, socketUnit user]

/-- `do_GET`, given what a command comes to. -/
def doGET (run : List Str → Completed) : Proc State Unit :=
  if remoteUser call = [] then sendError interp call 401 "No authenticated user".toList
  else if !USERNAME_PATTERN.isMatch (remoteUser call) then
    sendError interp call 403 ("Invalid username format: ".toList ++ remoteUser call)
  else do
    let c ← subprocessRun run (startCommand (remoteUser call))
    completed interp call (socketUnit (remoteUser call)) c

/-! What each of them writes, and how it ends. -/

variable {interp call}

variable {Q : List Wire → Except Exc Unit → Prop}

/-- A message to the log writes nothing to the connection. -/
theorem emits_after_log (text : Str) {x : Proc State Unit} (hx : Proc.Emits State.wire Q x) :
    Proc.Emits State.wire Q (do logMessage call text; x) :=
  fun s => hx { s with
    stderr := s.stderr ++ [addressString call ++ " - ".toList ++ text ++ ['\n']] }

theorem emits_after_logError {format text : Str} (h : percent format = .ok text)
    {x : Proc State Unit} (hx : Proc.Emits State.wire Q x) :
    Proc.Emits State.wire Q (do logError call format; x) := by
  have hlog : logError call format = logMessage call text := by
    unfold logError
    rw [h]
    rfl
  rw [hlog]
  exact emits_after_log text hx

theorem run_logError_error {format : Str} {err : Exc} (h : percent format = .error err)
    (x : Proc State Unit) (s : State) :
    ((do logError call format; x) : Proc State Unit).run s = (.error err, s) := by
  unfold logError
  rw [h]
  rfl

theorem emits_write (x : Wire) : Proc.Emits State.wire
    (fun l r => l = [x] ∧ (call.writeError = none → r = .ok ())) (write call x) := by
  intro s
  refine ⟨[x], ?_, rfl, ?_⟩
  · cases h : call.writeError <;> simp [write, Proc.run_bind, h]
  · intro hw
    simp [write, Proc.run_bind, hw]

theorem isLatin1_sent {head : Head} :
    isLatin1 (head.statusLine ++ "\r\n".toList) = true ↔ isLatin1 head.reason = true := by
  have hend : isLatin1 "\r\n".toList = true := by decide
  rw [isLatin1_append, and_iff_left hend, Head.isLatin1_statusLine]

theorem emits_sendHead (hv : call.http09 = false) {head : Head} (hl : isLatin1 head.reason = true) :
    Proc.Emits State.wire (fun l r => l = [.head head] ∧ (call.writeError = none → r = .ok ()))
      (sendHead call head) := by
  have hencode := encodeLatin1_ok (isLatin1_sent.mpr hl)
  refine emits_after_log _ ?_
  rw [if_neg (by simp [hv]), hencode]
  exact emits_write (.head head)

/-- A reason outside Latin-1 is refused before anything is written. -/
theorem emits_sendHead_refused (hv : call.http09 = false) {head : Head}
    (hl : isLatin1 head.reason = false) : Proc.Emits State.wire
      (fun l r => l = [] ∧ ∃ err, r = .error err ∧ isTame err.message = true) (sendHead call head) := by
  have hsent : isLatin1 (head.statusLine ++ "\r\n".toList) = false := by
    rw [← Bool.not_eq_true, isLatin1_sent, hl]
    decide
  obtain ⟨err, hencode, htame⟩ := encodeLatin1_error hsent
  refine emits_after_log _ ?_
  rw [if_neg (by simp [hv]), hencode]
  exact .throw ⟨rfl, err, rfl, htame⟩

theorem emits_sendHead_http09 (hv : call.http09 = true) (head : Head) :
    Proc.Emits State.wire (fun l r => l = [] ∧ r = .ok ()) (sendHead call head) := by
  refine emits_after_log _ ?_
  rw [if_pos hv]
  exact .pure ⟨rfl, rfl⟩

/-- A head and a body. -/
theorem emits_head_body (hv : call.http09 = false) (head : Head) (hl : isLatin1 head.reason = true)
    (body : Bytes) : Proc.Emits State.wire
      (fun l r => l.head? = some (.head head) ∧
        (call.writeError = none → l = [.head head, .data body] ∧ r = .ok ()))
      (do sendHead call head; write call (.data body)) := by
  refine (emits_sendHead hv hl).seq ?_ ?_
  · intro l err h
    refine ⟨by simp [h.1], ?_⟩
    intro hw
    cases h.2 hw
  · intro l _ h
    refine (emits_write (.data body)).imp ?_
    intro l' r h'
    refine ⟨by simp [h.1], ?_⟩
    intro hw
    exact ⟨by rw [h.1, h'.1]; rfl, h'.2 hw⟩

theorem emits_sendError (hv : call.http09 = false) (code : ℕ) {message : Str}
    (hl : isLatin1 message = true) :
    let body := encode (interp.errorPage code message)
    Proc.Emits State.wire
      (fun l r => l.head? = some (.head (errorHead interp code message body.length)) ∧
        (call.writeError = none →
          l = [.head (errorHead interp code message body.length), .data body] ∧ r = .ok ()))
      (sendError interp call code message) :=
  emits_after_log _ (emits_head_body hv _ hl _)

theorem emits_sendError_refused (hv : call.http09 = false) (code : ℕ) {message : Str}
    (hl : isLatin1 message = false) : Proc.Emits State.wire
      (fun l r => l = [] ∧ ∃ err, r = .error err ∧ isTame err.message = true)
      (sendError interp call code message) := by
  refine emits_after_log _ ((emits_sendHead_refused hv hl).seq (fun l err h => h) ?_)
  intro l _ h
  obtain ⟨-, err, herr, -⟩ := h
  cases herr

/-! A request without a version gets bodies only. -/

def Bare (l : List Wire) : Prop := ∀ x ∈ l, ∃ bs, x = .data bs

theorem bare_append (l l' : List Wire) (h : Bare l) (h' : Bare l') : Bare (l ++ l') := by
  simp only [Bare, List.forall_mem_append]
  exact ⟨h, h'⟩

/-- Whatever the outcome, only bodies are written. -/
abbrev WritesBare (x : Proc State Unit) : Prop := Proc.Emits State.wire (fun l _ => Bare l) x

theorem bare_head_body (hv : call.http09 = true) (head : Head) (body : Bytes) :
    WritesBare (do sendHead call head; write call (.data body)) := by
  refine .append_seq bare_append ((emits_sendHead_http09 hv head).imp ?_) fun _ =>
    (emits_write _).imp ?_
  · intro l r h
    simp [Bare, h.1]
  · intro l r h
    simp [Bare, h.1]

theorem bare_sendError (hv : call.http09 = true) (code : ℕ) (message : Str) :
    WritesBare (sendError interp call code message) :=
  emits_after_log _ (bare_head_body hv _ _)

theorem bare_logError (format : Str) : WritesBare (logError call format) := by
  intro s
  refine ⟨[], ?_, by simp [Bare]⟩
  unfold logError
  cases h : percent format <;> simp [Proc.run_bind, logMessage]

theorem bare_unexpected (hv : call.http09 = true) (err : Exc) :
    WritesBare (unexpected interp call err) :=
  .append_seq bare_append (bare_logError _) fun _ => bare_sendError hv _ _

theorem bare_answer (hv : call.http09 = true) (unitName : Str) (returncode : ℤ) (stderr : Bytes) :
    WritesBare (answer interp call unitName returncode stderr) := by
  unfold answer
  split_ifs
  · exact .append_seq bare_append (bare_logError _) fun _ => bare_sendError hv _ _
  · exact bare_head_body hv _ _

theorem bare_completed (hv : call.http09 = true) (unitName : Str) (c : Completed) :
    WritesBare (completed interp call unitName c) := by
  cases c with
  | timeoutExpired => exact bare_sendError hv _ _
  | raised err => exact bare_unexpected hv err
  | exited returncode stderr =>
    exact .append_tryCatch bare_append (bare_answer hv unitName returncode stderr) fun err =>
      bare_unexpected hv err

theorem bare_doGET (hv : call.http09 = true) (run : List Str → Completed) :
    WritesBare (doGET interp call run) := by
  unfold doGET
  split_ifs
  · exact bare_sendError hv _ _
  · exact bare_sendError hv _ _
  · intro s
    exact bare_completed hv _ (run (startCommand (remoteUser call)))
      { s with commands := s.commands ++ [startCommand (remoteUser call)] }

end FluxRest.Ensure
