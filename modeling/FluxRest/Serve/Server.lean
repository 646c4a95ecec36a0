import FluxRest.Py.Json
import FluxRest.Queue
import Mathlib.Algebra.Order.Field.Rat

/-! The attributes of `_Server` and what its methods do to them. -/
namespace FluxRest
open Py

/-- An accepted connection, numbered in the order of `accept`. -/
abbrev Sock := ℕ

/-- Seconds a refused connection is held before the deferred close. -/
def REFUSE_LINGER : ℚ := 1

/-- Refused connections held at once. -/
def REFUSE_MAX : ℕ := 16

/-- Seconds an in-flight request is given to finish. -/
def STOP_GRACE : ℚ := 5

/-- The body of `_FORBIDDEN`. -/
def forbiddenBody : Bytes := encode ((Json.obj [("error".toList, .str "forbidden".toList),
  ("detail".toList, .str "peer uid is not permitted to connect".toList)]).dumps ++ ['\n'])

def FORBIDDEN : Bytes :=
  encode ("HTTP/1.0 403 Forbidden\r\nServer: flux-rest-server\r\n".toList ++
    "Content-Type: application/json\r\nContent-Length: ".toList ++
    natStr forbiddenBody.length ++ "\r\nConnection: close\r\n\r\n".toList) ++ forbiddenBody

structure Server where
  allowedPeerUid : Option ℕ := none
  idleTimeout : Option ℚ := none
  /-- How long `handle_request` waits. -/
  timeout : Option ℚ := none
  idle : Bool := false
  stopping : Bool := false
  inRequest : Bool := false
  /-- Connections awaiting a deferred close, with its time. -/
  refused : List (Sock × ℚ) := []

namespace Server

variable (srv : Server)

/-- `_serve_timeout()`. -/
def serveTimeout (now : ℚ) : Option ℚ :=
  match srv.refused with
  | [] => srv.idleTimeout
  | (_, deadline) :: _ =>
    let linger := max 0 (deadline - now)
    match srv.idleTimeout with
    | none => some linger
    | some t => some (min t linger)

/-- `_reap()`, once the entries that are due are closed. -/
def reap (now : ℚ) : Server := { srv with refused := Queue.pending now srv.refused }

/-- `_refused.append(...)`. -/
def hold (s : Sock) (now : ℚ) : Server :=
  { srv with refused := srv.refused ++ [(s, now + REFUSE_LINGER)] }

def isRefused (s : Sock) : Bool := srv.refused.any fun e => e.1 = s

/-- `verify_request`, given the uid `SO_PEERCRED` reports, if it reports one. -/
def verifyRequest (peer : Option ℕ) : Bool :=
  match srv.allowedPeerUid with
  | none => true
  | some uid => peer = some uid

/-- Whether `_stop` raises. -/
def stopRaises : Bool := srv.stopping || !srv.inRequest

end Server

end FluxRest
