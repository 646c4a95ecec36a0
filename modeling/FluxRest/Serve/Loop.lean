import FluxRest.Serve.Server
import FluxRest.Machine

/-! `serve()` and the parts of `socketserver` it drives, one step of the main thread at a time,
with signals between any two of them. -/
namespace FluxRest
open Py

/-- Where the main thread is: what it does next. -/
inductive Pc where
  /-- The loop condition of `serve`. -/
  | test
  | serveTimeout
  /-- `handle_request`, on entry. -/
  | handleRequest
  | select (start : ℚ) (timeout : Option ℚ)
  | handleTimeout
  /-- `get_request`: the reaping, and then the call of `accept`. -/
  | reap
  | accept
  | verify (s : Sock) (peer : Option ℕ)
  /-- `_refuse`: the 403, the entry in the queue, the eviction. -/
  | refuse (s : Sock)
  | hold (s : Sock)
  | evict (s : Sock)
  | shutdownRefused (s : Sock)
  /-- `verify_request` has returned; the `try` of `_handle_request_noblock` is not entered. -/
  | admitted (s : Sock)
  /-- `process_request`: the flag, the handler, the close, the flag again. -/
  | setInRequest (s : Sock)
  | read (s : Sock)
  | route (s : Sock)
  | write (s : Sock) (rest : Bytes)
  | shutdown (s : Sock)
  | clear (s : Sock)
  /-- The handler has raised an `Exception`. -/
  | clearRaised (s : Sock)
  | handleError (s : Sock)
  | shutdownRaised (s : Sock)
  /-- A `KeyboardInterrupt` is on its way out of `process_request`. -/
  | clearUnwound (s : Sock)
  | shutdownUnwound (s : Sock)
  | loopDone
  /-- The `finally` clause of `serve`; `raised` says whether by a `KeyboardInterrupt`. -/
  | disarm (raised : Bool)
  | serverClose (raised : Bool)
  | exited (raised : Bool)
  deriving DecidableEq

namespace Pc

/-- Between the set and the clear of `_in_request`. -/
def inWindow : Pc → Bool
  | read _ | route _ | write .. | shutdown _ | clear _ | clearRaised _ | clearUnwound _ => true
  | _ => false

/-- On the way out of `serve`. -/
def leaving : Pc → Bool
  | clearUnwound _ | shutdownUnwound _ | loopDone | disarm _ | serverClose _ | exited _ => true
  | _ => false

/-- Where a `KeyboardInterrupt` raised at this point arrives. -/
def interrupted : Pc → Pc
  | setInRequest s | clear s | clearRaised s | clearUnwound s => shutdownUnwound s
  | read s | route s | write s _ | shutdown s => clearUnwound s
  | disarm _ | serverClose _ => exited true
  | exited raised => exited raised
  | _ => disarm true

end Pc

inductive Signal where
  | term
  | int
  | alrm
  deriving DecidableEq

/-- Why the server closes a connection. -/
inductive Why where
  | reaped
  | evicted
  | shutdown
  deriving DecidableEq

inductive Obs where
  | waitBegan (t : ℚ)
  | accepted (s : Sock) (peer : Option ℕ) (t : ℚ)
  | forbidden (s : Sock) (response : Bytes)
  | refused (s : Sock) (deadline : ℚ)
  | closed (s : Sock) (why : Why) (t : ℚ)
  /-- `_in_request` is set and the connection handed to the handler. -/
  | began (s : Sock)
  | ran (s : Sock)
  | answer (s : Sock) (response : Bytes)
  | sent (s : Sock) (bytes : Bytes)
  | writeFailed (s : Sock)
  /-- `_stop` has run; `timer` says that the interval timer sent the signal. -/
  | handled (signal : Signal) (timer raised inWindow : Bool)
  deriving DecidableEq

structure Cfg where
  srv : Server
  pc : Pc := .test
  now : ℚ := 0
  /-- When the interval timer goes off. -/
  armed : Option ℚ := none
  listening : Bool := true
  /-- `SIGINT` was ignored when `serve` began, and still is. -/
  sigintIgnored : Bool := false
  next : Sock := 0
  /-- What has happened, the latest first. -/
  log : List Obs := []

/-- What the steps of the main thread leave open. -/
inductive Choice where
  | next
  | ready
  | elapsed
  | accept (peer : Option ℕ)
  | acceptFails
  | request
  | respond (response : Bytes)
  | quit
  | raises
  | send (n : ℕ)
  /-- A write fails; `swallowed` says whether the handler catches the exception. -/
  | writeFails (swallowed : Bool)

inductive Input where
  | tick (d : ℚ)
  | signal (signal : Signal)
  | main (choice : Choice)

namespace Cfg

variable (c : Cfg)

/-- `_reap()`. -/
def reap : Cfg :=
  { c with
    srv := c.srv.reap c.now
    log := ((Queue.due c.now c.srv.refused).map fun e => .closed e.1 .reaped c.now).reverse ++ c.log }

/-- `shutdown_request(s)`. -/
def shutdownRequest (s : Sock) : Cfg :=
  if c.srv.isRefused s then c else { c with log := .closed s .shutdown c.now :: c.log }

/-- Whether a signal is the interval timer going off. -/
def byTimer (signal : Signal) : Bool := signal = .alrm && c.armed.any (· ≤ c.now)

/-- `_stop`, run between two steps of the main thread. -/
def stop (signal : Signal) : Cfg :=
  let log := .handled signal (c.byTimer signal) c.srv.stopRaises c.pc.inWindow :: c.log
  let srv := { c.srv with stopping := true }
  if c.srv.stopRaises then
    { c with srv, log, armed := if c.byTimer signal then none else c.armed, pc := c.pc.interrupted }
  else { c with srv, log, armed := some (c.now + STOP_GRACE) }

/-- A signal, once `serve` has installed its handlers and until it returns. -/
def deliver (signal : Signal) : Cfg :=
  match c.pc with
  | .exited _ => c
  | _ => if signal = .int ∧ c.sigintIgnored then c else c.stop signal

/-- One step of the main thread. -/
def advance : Choice → Option Cfg := fun choice =>
  match c.pc, choice with
  | .test, .next =>
    some { c with pc := if c.srv.stopping || c.srv.idle then .loopDone else .serveTimeout }
  | .serveTimeout, .next =>
    some { c with srv := { c.srv with timeout := c.srv.serveTimeout c.now }, pc := .handleRequest }
  | .handleRequest, .next =>
    some { c with pc := .select c.now c.srv.timeout, log := .waitBegan c.now :: c.log }
  | .select _ _, .ready => some { c with pc := .reap }
  | .select start (some timeout), .elapsed =>
    if start + timeout ≤ c.now then some { c with pc := .handleTimeout } else none
  | .handleTimeout, .next =>
    if c.srv.refused = [] then
      some { c with srv := { c.srv with idle := true }, pc := .test }
    else some { c.reap with pc := .test }
  | .reap, .next => some { c.reap with pc := .accept }
  | .accept, .accept peer =>
    some { c with
      pc := .verify c.next peer, next := c.next + 1, log := .accepted c.next peer c.now :: c.log }
  | .accept, .acceptFails => some { c with pc := .test }
  | .verify s peer, .next =>
    some { c with pc := if c.srv.verifyRequest peer then .admitted s else .refuse s }
  | .refuse s, .next => some { c with pc := .hold s, log := .forbidden s FORBIDDEN :: c.log }
  | .hold s, .next =>
    some { c with
      srv := c.srv.hold s c.now, pc := .evict s, log := .refused s (c.now + REFUSE_LINGER) :: c.log }
  | .evict s, .next =>
    match c.srv.refused with
    | (s', _) :: rest =>
      if REFUSE_MAX < rest.length + 1 then
        some { c with
          srv := { c.srv with refused := rest }, log := .closed s' .evicted c.now :: c.log }
      else some { c with pc := .shutdownRefused s }
    | [] => some { c with pc := .shutdownRefused s }
  | .shutdownRefused s, .next => some { c.shutdownRequest s with pc := .test }
  | .admitted s, .next => some { c with pc := .setInRequest s }
  | .setInRequest s, .next =>
    some { c with
      srv := { c.srv with inRequest := true }, pc := .read s, log := .began s :: c.log }
  | .read s, .request => some { c with pc := .route s, log := .ran s :: c.log }
  | .read s, .respond response =>
    some { c with pc := .write s response, log := .answer s response :: c.log }
  | .read s, .quit => some { c with pc := .shutdown s }
  | .read s, .raises => some { c with pc := .clearRaised s }
  | .route s, .respond response =>
    some { c with pc := .write s response, log := .answer s response :: c.log }
  | .route s, .raises => some { c with pc := .clearRaised s }
  | .write s rest, .send n =>
    if 0 < n ∧ n ≤ rest.length then
      some { c with pc := .write s (rest.drop n), log := .sent s (rest.take n) :: c.log }
    else none
  | .write s [], .next => some { c with pc := .shutdown s }
  | .write s _, .writeFails swallowed =>
    some { c with
      pc := if swallowed then .shutdown s else .clearRaised s, log := .writeFailed s :: c.log }
  | .shutdown s, .next => some { c.shutdownRequest s with pc := .clear s }
  | .clear _, .next => some { c with srv := { c.srv with inRequest := false }, pc := .test }
  | .clearRaised s, .next =>
    some { c with srv := { c.srv with inRequest := false }, pc := .handleError s }
  | .handleError s, .next => some { c with pc := .shutdownRaised s }
  | .shutdownRaised s, .next => some { c.shutdownRequest s with pc := .test }
  | .clearUnwound s, .next =>
    some { c with srv := { c.srv with inRequest := false }, pc := .shutdownUnwound s }
  | .shutdownUnwound s, .next => some { c.shutdownRequest s with pc := .disarm true }
  | .loopDone, .next => some { c with pc := .disarm false }
  | .disarm raised, .next => some { c with armed := none, pc := .serverClose raised }
  | .serverClose raised, .next => some { c with listening := false, pc := .exited raised }
  | _, _ => none

def step : Input → Option Cfg
  | .tick d => if 0 ≤ d then some { c with now := c.now + d } else none
  | .signal signal => some (c.deliver signal)
  | .main choice => c.advance choice

/-- The steps that change nothing but the place. -/
inductive Moves : Pc → Prop where
  | loop (h : c.pc = .test) (hs : c.srv.stopping = false) (hi : c.srv.idle = false) :
      Moves .serveTimeout
  | done (h : c.pc = .test) (hd : c.srv.stopping = true ∨ c.srv.idle = true) : Moves .loopDone
  | ready {start timeout} (h : c.pc = .select start timeout) : Moves .reap
  | elapsed {start timeout} (h : c.pc = .select start (some timeout))
      (ht : start + timeout ≤ c.now) : Moves .handleTimeout
  | acceptFails (h : c.pc = .accept) : Moves .test
  | permit {s peer} (h : c.pc = .verify s peer) (hv : c.srv.verifyRequest peer = true) :
      Moves (.admitted s)
  | reject {s peer} (h : c.pc = .verify s peer) (hv : c.srv.verifyRequest peer = false) :
      Moves (.refuse s)
  | evicted {s} (h : c.pc = .evict s) (hl : c.srv.refused.length ≤ REFUSE_MAX) :
      Moves (.shutdownRefused s)
  | enter {s} (h : c.pc = .admitted s) : Moves (.setInRequest s)
  | quit {s} (h : c.pc = .read s) : Moves (.shutdown s)
  | raises {s} (h : c.pc = .read s ∨ c.pc = .route s) : Moves (.clearRaised s)
  | written {s} (h : c.pc = .write s []) : Moves (.shutdown s)
  | report {s} (h : c.pc = .handleError s) : Moves (.shutdownRaised s)
  | finish (h : c.pc = .loopDone) : Moves (.disarm false)

/-- What one step of the main thread can do. -/
inductive Advances : Cfg → Prop where
  | moves {pc} (h : c.Moves pc) : Advances { c with pc }
  | serveTimeout (h : c.pc = .serveTimeout) : Advances { c with
      srv := { c.srv with timeout := c.srv.serveTimeout c.now }, pc := .handleRequest }
  | wait (h : c.pc = .handleRequest) : Advances { c with
      pc := .select c.now c.srv.timeout, log := .waitBegan c.now :: c.log }
  | idle (h : c.pc = .handleTimeout) (hr : c.srv.refused = []) : Advances { c with
      srv := { c.srv with idle := true }, pc := .test }
  | reapTimeout (h : c.pc = .handleTimeout) (hr : c.srv.refused ≠ []) :
      Advances { c.reap with pc := .test }
  | reap (h : c.pc = .reap) : Advances { c.reap with pc := .accept }
  | accept (h : c.pc = .accept) (peer : Option ℕ) : Advances { c with
      pc := .verify c.next peer, next := c.next + 1, log := .accepted c.next peer c.now :: c.log }
  | forbid {s} (h : c.pc = .refuse s) : Advances { c with
      pc := .hold s, log := .forbidden s FORBIDDEN :: c.log }
  | hold {s} (h : c.pc = .hold s) : Advances { c with
      srv := c.srv.hold s c.now, pc := .evict s, log := .refused s (c.now + REFUSE_LINGER) :: c.log }
  | evict {s e rest} (h : c.pc = .evict s) (hr : c.srv.refused = e :: rest)
      (hl : REFUSE_MAX < rest.length + 1) : Advances { c with
      srv := { c.srv with refused := rest }, log := .closed e.1 .evicted c.now :: c.log }
  | shutdownRefused {s} (h : c.pc = .shutdownRefused s) :
      Advances { c.shutdownRequest s with pc := .test }
  | begin {s} (h : c.pc = .setInRequest s) : Advances { c with
      srv := { c.srv with inRequest := true }, pc := .read s, log := .began s :: c.log }
  | request {s} (h : c.pc = .read s) : Advances { c with pc := .route s, log := .ran s :: c.log }
  | respond {s} (h : c.pc = .read s ∨ c.pc = .route s) (response : Bytes) : Advances { c with
      pc := .write s response, log := .answer s response :: c.log }
  | send {s rest} (h : c.pc = .write s rest) (n : ℕ) (hn : 0 < n ∧ n ≤ rest.length) :
      Advances { c with pc := .write s (rest.drop n), log := .sent s (rest.take n) :: c.log }
  | writeFails {s rest pc} (h : c.pc = .write s rest) (hpc : pc = .shutdown s ∨ pc = .clearRaised s) :
      Advances { c with pc, log := .writeFailed s :: c.log }
  | shutdown {s} (h : c.pc = .shutdown s) : Advances { c.shutdownRequest s with pc := .clear s }
  | clear {s} (h : c.pc = .clear s) : Advances { c with
      srv := { c.srv with inRequest := false }, pc := .test }
  | clearRaised {s} (h : c.pc = .clearRaised s) : Advances { c with
      srv := { c.srv with inRequest := false }, pc := .handleError s }
  | shutdownRaised {s} (h : c.pc = .shutdownRaised s) :
      Advances { c.shutdownRequest s with pc := .test }
  | clearUnwound {s} (h : c.pc = .clearUnwound s) : Advances { c with
      srv := { c.srv with inRequest := false }, pc := .shutdownUnwound s }
  | shutdownUnwound {s} (h : c.pc = .shutdownUnwound s) :
      Advances { c.shutdownRequest s with pc := .disarm true }
  | disarm {raised} (h : c.pc = .disarm raised) : Advances { c with
      armed := none, pc := .serverClose raised }
  | serverClose {raised} (h : c.pc = .serverClose raised) : Advances { c with
      listening := false, pc := .exited raised }

variable {c}

theorem advances_of_advance {c' : Cfg} {choice : Choice} (h : c.advance choice = some c') :
    c.Advances c' := by
  unfold advance at h
  split at h
  · next hpc =>
    cases h
    cases hs : c.srv.stopping with
    | true => exact .moves (.done hpc (Or.inl hs))
    | false =>
      cases hi : c.srv.idle with
      | true => exact .moves (.done hpc (Or.inr hi))
      | false => exact .moves (.loop hpc hs hi)
  · next hpc =>
    cases h
    exact .serveTimeout hpc
  · next hpc =>
    cases h
    exact .wait hpc
  · next hpc =>
    cases h
    exact .moves (.ready hpc)
  · next hpc =>
    split_ifs at h with ht
    cases h
    exact .moves (.elapsed hpc ht)
  · next hpc =>
    split_ifs at h with hr
    · cases h
      exact .idle hpc hr
    · cases h
      exact .reapTimeout hpc hr
  · next hpc =>
    cases h
    exact .reap hpc
  · next hpc =>
    cases h
    exact .accept hpc _
  · next hpc =>
    cases h
    exact .moves (.acceptFails hpc)
  · next hpc =>
    cases h
    cases hv : c.srv.verifyRequest _ with
    | true => exact .moves (.permit hpc hv)
    | false => exact .moves (.reject hpc hv)
  · next hpc =>
    cases h
    exact .forbid hpc
  · next hpc =>
    cases h
    exact .hold hpc
  · next hpc =>
    split at h
    · next s' d rest hr =>
      split_ifs at h with hl
      · cases h
        exact .evict hpc hr hl
      · cases h
        refine .moves (.evicted hpc ?_)
        rw [hr]
        exact Nat.le_of_not_lt hl
    · next hr =>
      cases h
      refine .moves (.evicted hpc ?_)
      rw [hr]
      exact Nat.zero_le _
  · next hpc =>
    cases h
    exact .shutdownRefused hpc
  · next hpc =>
    cases h
    exact .moves (.enter hpc)
  · next hpc =>
    cases h
    exact .begin hpc
  · next hpc =>
    cases h
    exact .request hpc
  · next hpc =>
    cases h
    exact .respond (Or.inl hpc) _
  · next hpc =>
    cases h
    exact .moves (.quit hpc)
  · next hpc =>
    cases h
    exact .moves (.raises (Or.inl hpc))
  · next hpc =>
    cases h
    exact .respond (Or.inr hpc) _
  · next hpc =>
    cases h
    exact .moves (.raises (Or.inr hpc))
  · next hpc =>
    split_ifs at h with hn
    cases h
    exact .send hpc _ hn
  · next hpc =>
    cases h
    exact .moves (.written hpc)
  · next swallowed hpc =>
    cases h
    refine .writeFails hpc ?_
    cases swallowed with
    | true => exact Or.inl rfl
    | false => exact Or.inr rfl
  · next hpc =>
    cases h
    exact .shutdown hpc
  · next hpc =>
    cases h
    exact .clear hpc
  · next hpc =>
    cases h
    exact .clearRaised hpc
  · next hpc =>
    cases h
    exact .moves (.report hpc)
  · next hpc =>
    cases h
    exact .shutdownRaised hpc
  · next hpc =>
    cases h
    exact .clearUnwound hpc
  · next hpc =>
    cases h
    exact .shutdownUnwound hpc
  · next hpc =>
    cases h
    exact .moves (.finish hpc)
  · next hpc =>
    cases h
    exact .disarm hpc
  · next hpc =>
    cases h
    exact .serverClose hpc
  · cases h

end Cfg

end FluxRest
