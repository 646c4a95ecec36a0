import FluxRest.Serve.Peer

/-! `main()` up to `serve()`: which socket the server listens on and whom it will serve. -/
namespace FluxRest
open Py

def AF_UNIX : ℕ := 1
def AF_INET : ℕ := 2
def EADDRINUSE : ℤ := 98

/-- A Flux standard duration. -/
inductive Fsd where
  | infinity
  | seconds (t : ℚ)

/-- The command line, once parsed. -/
structure Args where
  host : Str := "127.0.0.1".toList
  port : Option ℤ := none
  socket : Option Str := none
  allowUser : Option Str := none
  idleTimeout : Option Fsd := none

/-- What file descriptor 3 is, and how the calls on it end. -/
structure Inherited where
  /-- The real address family. -/
  family : ℕ
  /-- `socket.socket(fileno=os.dup(fd))`. -/
  probe : Except Exc Unit := .ok ()
  /-- `getsockopt(SOL_SOCKET, SO_DOMAIN)`. -/
  domain : Except Exc ℕ
  /-- `socket.socket(family=family, fileno=fd)`. -/
  wrap : Except Exc Unit := .ok ()
  getsockname : Except Exc Unit := .ok ()

/-- What `main` finds when it is started. -/
structure Launch where
  /-- `os.getuid()`. -/
  uid : ℕ
  pid : ℕ
  listenPid : Option Str := none
  listenFds : Option Str := none
  intLimit : Option ℕ := some 4300
  /-- `repr` of a text. -/
  repr : Str → Str := fun s => '\'' :: s ++ ['\'']
  /-- `pwd.getpwnam(name).pw_uid`; `none` is its `KeyError`. -/
  getpwnam : Str → Option ℕ
  /-- The members of `socket.AddressFamily`. -/
  addressFamilies : List ℕ := [AF_UNIX, AF_INET]
  fd3 : Inherited
  /-- `_Server(("", 0), Handler, bind_and_activate=False)`. -/
  newServer : Except Exc Unit := .ok ()
  /-- `_Server((host, port), Handler)`. -/
  bindAddress : Str → ℤ → Except Exc Unit
  /-- `_flux().attr_get("rundir")`. -/
  rundir : Except Exc Str
  /-- `os.unlink(path)`. -/
  unlink : Str → Except Exc Unit
  /-- Create, bind, `chmod` to 0600 and listen. -/
  bindPath : Str → Except Exc Unit
  /-- `getsockname()` of the socket bound to a path. -/
  nameOfPath : Str → Except Exc Unit := fun _ => .ok ()

/-- The listening socket. -/
inductive Listener where
  | inherited (family : ℕ)
  | address (host : Str) (port : ℤ)
  | path (path : Str)
  deriving DecidableEq

namespace Listener

/-- Its real address family. -/
def family : Listener → ℕ
  | inherited family => family
  | address .. => AF_INET
  | path _ => AF_UNIX

def selfCreated : Listener → Bool
  | inherited _ => false
  | _ => true

end Listener

/-- How `main` goes on: it exits, or an exception leaves it, or it enters `serve`. -/
inductive Started where
  | exits (code : ℕ) (stderr : List Str)
  | raises (err : Exc)
  | serves (listener : Listener) (allowedPeerUid : Option ℕ) (idleTimeout : Option ℚ)
      (stderr : List Str)

variable (l : Launch) (a : Args)

/-- A text option that Python takes for true. -/
def given (option : Option Str) : Option Str :=
  match option with
  | none | some [] => none
  | some s => some s

/-- `_listen_socket(3)`: the family the socket object is given. -/
def listenSocket : Except Exc ℕ := do
  l.fd3.probe
  let domain ← l.fd3.domain
  if domain ∈ l.addressFamilies then
    l.fd3.wrap
    return domain
  else
    throw (.ofClass .valueError (natStr domain ++ " is not a valid AddressFamily".toList))

/-- `server_on_socket(listen_sock)`: the `address_family` of the server. -/
def serverOnSocket (family : ℕ) (getsockname : Except Exc Unit) : Except Exc ℕ := do
  l.newServer
  getsockname
  return family

/-- `_socket_activated()`. -/
def socketActivated : Except Exc Bool :=
  if l.listenPid = some (natStr l.pid) then
    let fds := l.listenFds.getD ['0']
    match intText l.intLimit fds with
    | none => .error (.ofClass .valueError (intError l.intLimit l.repr fds))
    | some n => .ok (1 ≤ n)
  else .ok false

/-- `server_on_unix_socket(socket_path)`. -/
def serverOnUnixSocket (path : Str) : Except Exc ℕ := do
  match l.unlink path with
  | .ok () => pure ()
  | .error err => if err.isA .fileNotFoundError then pure () else throw err
  l.bindPath path
  serverOnSocket l AF_UNIX (l.nameOfPath path)

/-- `os.path.join(rundir, "rest")`. -/
def joinRest (rundir : Str) : Str :=
  if rundir = [] ∨ rundir.getLast? = some '/' then rundir ++ "rest".toList
  else rundir ++ "/rest".toList

def socketPath : Except Exc Str :=
  match given a.socket with
  | some path => .ok path
  | none => l.rundir.map joinRest

/-- The server `main` has made, or the messages it exits with. -/
inductive Bound where
  | exits (stderr : List Str)
  | server (listener : Listener) (addressFamily : ℕ)

/-- The `try` statement of `main`. An error comes with `socket_path`, if that is assigned. -/
def bindServer (allowedUid : ℕ) : Except (Exc × Option Str) Bound :=
  match socketActivated l with
  | .error err => .error (err, none)
  | .ok true =>
    match listenSocket l >>= fun family => serverOnSocket l family l.fd3.getsockname with
    | .error err => .error (err, none)
    | .ok family => .ok (.server (.inherited l.fd3.family) family)
  | .ok false =>
    match a.port with
    | some port =>
      match l.bindAddress a.host port with
      | .error err => .error (err, none)
      | .ok () => .ok (.server (.address a.host port) AF_INET)
    | none =>
      if allowedUid ≠ l.uid then
        .ok (.exits ["error: --allow-user requires socket activation; a self-created socket is owner-only".toList])
      else
        match socketPath l a with
        | .error err =>
          if err.isA .osError then
            .ok (.exits ["error: cannot get flux rundir: ".toList ++ err.message,
              "hint: use --port for TCP mode outside a flux instance".toList])
          else .error (err, none)
        | .ok path =>
          match serverOnUnixSocket l path with
          | .error err => .error (err, some path)
          | .ok family => .ok (.server (.path path) family)

/-- The address the `except` clause names; it may find `socket_path` unassigned. -/
def failedAddress (path : Option Str) : Except Exc Str :=
  match a.port with
  | some port => .ok (a.host ++ [':'] ++ intStr port)
  | none =>
    match given a.socket with
    | some s => .ok s
    | none =>
      match path with
      | some s => .ok s
      | none => .error (.ofClass .exception "cannot access local variable 'socket_path'".toList)

/-- The `except OSError` clause of `main`. -/
def bindFailed (err : Exc) (path : Option Str) : Started :=
  if err.errno = some EADDRINUSE then
    match failedAddress a path with
    | .error err => .raises err
    | .ok addr => .exits 1 ["error: address ".toList ++ addr ++ " already in use".toList]
  else if err.errno = some EACCES then
    match failedAddress a path with
    | .error err => .raises err
    | .ok addr => .exits 1 ["error: permission denied binding to ".toList ++ addr]
  else .exits 1 ["error: failed to bind socket: ".toList ++ err.message]

/-- The idle timeout; `none` where `parser.error` rejects it. -/
def idleTimeout : Option (Option ℚ) :=
  match a.idleTimeout with
  | none | some .infinity => some none
  | some (.seconds t) => if t ≤ 0 then none else some (some t)

/-- The uid to allow; an error is the name nobody has. -/
def allowedUid : Except Str ℕ :=
  match given a.allowUser with
  | none => .ok l.uid
  | some name =>
    match l.getpwnam name with
    | some uid => .ok uid
    | none => .error name

/-- `main()`. -/
def main : Started :=
  match idleTimeout a with
  | none => .exits 2 ["--idle-timeout must be a positive duration".toList]
  | some idle =>
    match allowedUid l a with
    | .error name => .exits 1 ["error: unknown user: ".toList ++ name]
    | .ok uid =>
      match bindServer l a uid with
      | .error (err, path) => if err.isA .osError then bindFailed a err path else .raises err
      | .ok (.exits stderr) => .exits 1 stderr
      | .ok (.server listener family) =>
        if family = AF_UNIX then .serves listener (some uid) idle []
        else if (given a.allowUser).isSome then
          .serves listener none idle
            ["warning: --allow-user has no effect on a TCP socket (SO_PEERCRED unavailable)".toList]
        else .serves listener none idle []

variable {l a}

/-! What is known of a server that was made. -/

theorem ok_of_bind {ε α β : Type} {x : Except ε α} {f : α → Except ε β} {b : β}
    (h : x >>= f = .ok b) : ∃ a, x = .ok a ∧ f a = .ok b := by
  cases x with
  | error err => cases h
  | ok a => exact ⟨a, rfl, h⟩

theorem serverOnSocket_ok {family family' : ℕ} {getsockname : Except Exc Unit}
    (h : serverOnSocket l family getsockname = .ok family') : family' = family := by
  obtain ⟨-, -, h⟩ := ok_of_bind h
  obtain ⟨-, -, h⟩ := ok_of_bind h
  cases h
  rfl

theorem listenSocket_ok {family : ℕ} (h : listenSocket l = .ok family) :
    l.fd3.domain = .ok family := by
  obtain ⟨-, -, h⟩ := ok_of_bind h
  obtain ⟨domain, hdomain, h⟩ := ok_of_bind h
  split_ifs at h
  obtain ⟨-, -, h⟩ := ok_of_bind h
  cases h
  exact hdomain

theorem serverOnUnixSocket_ok {path : Str} {family : ℕ}
    (h : serverOnUnixSocket l path = .ok family) : family = AF_UNIX := by
  have hrest : ∀ x : Except Exc Unit, (x >>= fun _ => l.bindPath path >>= fun _ =>
      serverOnSocket l AF_UNIX (l.nameOfPath path)) = .ok family → family = AF_UNIX := by
    intro x hx
    obtain ⟨-, -, hx⟩ := ok_of_bind hx
    obtain ⟨-, -, hx⟩ := ok_of_bind hx
    exact serverOnSocket_ok hx
  unfold serverOnUnixSocket at h
  cases hu : l.unlink path with
  | ok u =>
    rw [hu] at h
    exact hrest (pure ()) h
  | error err =>
    rw [hu] at h
    dsimp only at h
    split_ifs at h
    · exact hrest (pure ()) h
    · cases h

/-- The server is made for the real family of its socket, and a path is bound for the server's own
uid only. -/
theorem bindServer_server {uid family : ℕ} {listener : Listener}
    (hdomain : ∀ d, l.fd3.domain = .ok d → d = l.fd3.family)
    (h : bindServer l a uid = .ok (.server listener family)) :
    family = listener.family ∧ (∀ path, listener = .path path → uid = l.uid) := by
  unfold bindServer at h
  split at h
  · cases h
  · split at h
    · cases h
    · next family' hok =>
      cases h
      obtain ⟨domain, hlisten, hserver⟩ := ok_of_bind hok
      rw [serverOnSocket_ok hserver]
      exact ⟨hdomain domain (listenSocket_ok hlisten), nofun⟩
  · split at h
    · split at h
      · cases h
      · cases h
        exact ⟨rfl, nofun⟩
    · split_ifs at h with huid
      · cases h
      · split at h
        · split_ifs at h
          cases h
        · split at h
          · cases h
          · next family' hok =>
            cases h
            exact ⟨serverOnUnixSocket_ok hok, fun _ _ => not_not.mp huid⟩

theorem main_serves {listener : Listener} {uid : Option ℕ} {T : Option ℚ} {stderr : List Str}
    (h : main l a = .serves listener uid T stderr) :
    ∃ allowed family, idleTimeout a = some T ∧ allowedUid l a = .ok allowed ∧
      bindServer l a allowed = .ok (.server listener family) ∧
      uid = if family = AF_UNIX then some allowed else none := by
  unfold main at h
  split at h
  · cases h
  · next idle hidle =>
    split at h
    · cases h
    · next allowed hallowed =>
      split at h
      · split_ifs at h
        unfold bindFailed at h
        split_ifs at h
        · split at h <;> cases h
        · split at h <;> cases h
      · cases h
      · next listener' family hbind =>
        split_ifs at h with hfamily
        · cases h
          exact ⟨allowed, family, hidle, hallowed, hbind, (if_pos hfamily).symm⟩
        · cases h
          exact ⟨allowed, family, hidle, hallowed, hbind, (if_neg hfamily).symm⟩
        · cases h
          exact ⟨allowed, family, hidle, hallowed, hbind, (if_neg hfamily).symm⟩

theorem allowedUid_ok {u : ℕ} (h : allowedUid l a = .ok u) :
    (∀ name, given a.allowUser = some name → l.getpwnam name = some u) ∧
      (given a.allowUser = none → u = l.uid) := by
  unfold allowedUid at h
  cases hg : given a.allowUser with
  | none =>
    rw [hg] at h
    cases h
    exact ⟨nofun, fun _ => rfl⟩
  | some name =>
    rw [hg] at h
    dsimp only at h
    refine ⟨?_, nofun⟩
    intro name' hname
    cases hname
    cases hu : l.getpwnam name with
    | none =>
      rw [hu] at h
      cases h
    | some uid =>
      rw [hu] at h
      cases h
      rfl

/-- Whatever the environment, the inherited socket and the options: where `main` comes to serve a
unix socket, it allows one uid only, that of `--allow-user` if a name is given and its own otherwise
and on a socket it made itself; and in every run of `serve` it serves connections of that uid
only. -/
theorem main_servesOnly {listener : Listener} {uid : Option ℕ} {T : Option ℚ} {stderr : List Str}
    (hdomain : ∀ d, l.fd3.domain = .ok d → d = l.fd3.family)
    (h : main l a = .serves listener uid T stderr) (hunix : listener.family = AF_UNIX) :
    ∃ u, uid = some u ∧ (∀ name, given a.allowUser = some name → l.getpwnam name = some u) ∧
      (given a.allowUser = none → u = l.uid) ∧ (listener.selfCreated = true → u = l.uid) ∧
      ∀ c, Cfg.Reached uid T c → Cfg.ServesOnly u c := by
  obtain ⟨u, family, -, hallowed, hbind, huid⟩ := main_serves h
  obtain ⟨hfamily, hpath⟩ := bindServer_server hdomain hbind
  rw [if_pos (hfamily.trans hunix)] at huid
  obtain ⟨hnamed, hunnamed⟩ := allowedUid_ok hallowed
  refine ⟨u, huid, hnamed, hunnamed, ?_, ?_⟩
  · intro hself
    cases listener with
    | inherited family => cases hself
    | address host port => cases hunix
    | path path => exact hpath path rfl
  · intro c hc
    rw [huid] at hc
    exact hc.servesOnly

/-- A host where `alice` has the uid 1001 and the server runs as uid 1000. -/
def Launch.fixed : Launch where
  uid := 1000
  pid := 77
  getpwnam name := if name = "alice".toList then some 1001 else none
  fd3 := { family := AF_UNIX, domain := .ok AF_UNIX }
  bindAddress _ _ := .ok ()
  rundir := .ok "/run/flux".toList
  unlink _ := .error (osError ENOENT "No such file or directory".toList)
  bindPath _ := .ok ()

/-- The same host, where the server is started for a socket set up beforehand. -/
def Launch.activated : Launch :=
  { Launch.fixed with listenPid := some "77".toList, listenFds := some ['1'] }

def Args.alice : Args := { allowUser := some "alice".toList }

/-- A client whose credentials cannot be read, and then one of uid 1001. -/
def strangerThenAlice : List Input :=
  [.main .next, .main .next, .main .next, .main .ready, .main .next, .main (.accept none),
    .main .next, .main .next, .main .next, .main .next, .main .next, .main .next, .main .next,
    .main .next, .main .ready, .main .next, .main (.accept (some 1001)), .main .next, .main .next,
    .main .next, .main .request]

theorem main_servesOnly_alice :
    ∃ c, Machine.run Cfg.step (.serve (some 1001) none 0 false) strangerThenAlice = some c ∧
      .ran 1 ∈ c.log ∧ ∃ u, some 1001 = some u ∧ Cfg.ServesOnly u c := by
  have hrun : (Machine.run Cfg.step (.serve (some 1001) none 0 false) strangerThenAlice).map
      (fun c => decide (.ran 1 ∈ c.log)) = some true := by
    decide +kernel
  obtain ⟨c, hc, hran⟩ := Option.map_eq_some_iff.mp hrun
  have hmain : main .activated .alice = .serves (.inherited AF_UNIX) (some 1001) none [] := by
    rfl
  have hdomain : ∀ d, Launch.activated.fd3.domain = .ok d → d = Launch.activated.fd3.family := by
    intro d hd
    cases hd
    rfl
  obtain ⟨u, hu, -, -, -, hserves⟩ := main_servesOnly hdomain hmain rfl
  exact ⟨c, hc, of_decide_eq_true hran, u, hu, hserves c ⟨0, false, strangerThenAlice, hc⟩⟩

def Args.emptyUser : Args := { allowUser := some [], socket := some "/run/rest".toList }

def Args.tcp : Args := { port := some 8080 }

/-- An empty `--allow-user` is no user at all, and a TCP socket is served without a check. -/
theorem emptyUser_allowsOwner :
    main .fixed .emptyUser = .serves (.path "/run/rest".toList) (some 1000) none [] ∧
      Args.emptyUser.allowUser = some [] ∧
      (¬ ∃ u, Launch.fixed.getpwnam [] = some u ∧ some 1000 = some u) ∧
      main .fixed .tcp = .serves (.address "127.0.0.1".toList 8080) none none [] ∧
      (Listener.address "127.0.0.1".toList 8080).selfCreated = true ∧
      none ≠ some Launch.fixed.uid := by
  refine ⟨rfl, rfl, ?_, rfl, rfl, nofun⟩
  intro h
  obtain ⟨u, hu, -⟩ := h
  cases hu

end FluxRest
