import FluxRest.Serve.Progress
import FluxRest.Serve.Main
import FluxRest.Ensure.Front

/-! The whole deployment: nginx, the helper that starts the socket units, and the users' servers. -/
namespace FluxRest
open Py Py.Http

/-- The environment in which systemd starts a service on a socket that it has set up. -/
structure BySystemd (webUser : Str) (web : ℕ) (l : Launch) : Prop where
  listenPid : l.listenPid = some (natStr l.pid)
  listenFds : intText l.intLimit (l.listenFds.getD ['0']) = some 1
  socket : l.fd3 = { family := AF_UNIX, domain := .ok AF_UNIX }
  addressFamilies : AF_UNIX ∈ l.addressFamilies
  newServer : l.newServer = .ok ()
  named : webUser ≠ []
  getpwnam : l.getpwnam webUser = some web

/-- The command line of `flux-rest-server@.service`. -/
def execStart (webUser : Str) : Args where
  allowUser := some webUser
  idleTimeout := some (.seconds 300)

/-- The service of a unit serves the web-server account and no other. -/
theorem main_execStart {webUser : Str} {web : ℕ} {l : Launch} (h : BySystemd webUser web l) :
    main l (execStart webUser) = .serves (.inherited AF_UNIX) (some web) (some 300) [] := by
  have hgiven : given (execStart webUser).allowUser = some webUser := by
    obtain ⟨c, cs, rfl⟩ := List.exists_cons_of_ne_nil h.named
    rfl
  have hallowed : allowedUid l (execStart webUser) = .ok web := by
    unfold allowedUid
    rw [hgiven]
    dsimp only
    rw [h.getpwnam]
  have hactivated : socketActivated l = .ok true := by
    unfold socketActivated
    rw [if_pos h.listenPid]
    dsimp only
    rw [h.listenFds]
    rfl
  have hlisten : listenSocket l = .ok AF_UNIX := by
    unfold listenSocket
    rw [h.socket]
    exact if_pos h.addressFamilies
  have hserver : serverOnSocket l AF_UNIX l.fd3.getsockname = .ok AF_UNIX := by
    unfold serverOnSocket
    rw [h.newServer, h.socket]
    rfl
  have hmade : (listenSocket l >>= fun family => serverOnSocket l family l.fd3.getsockname) =
      .ok AF_UNIX := by
    rw [hlisten]
    exact hserver
  have hbind : bindServer l (execStart webUser) web = .ok (.server (.inherited AF_UNIX) AF_UNIX) := by
    unfold bindServer
    rw [hactivated]
    dsimp only
    rw [hmade, h.socket]
  have hpositive : ¬ (300 : ℚ) ≤ 0 := by norm_num
  have hidle : idleTimeout (execStart webUser) = some (some 300) := by
    unfold idleTimeout execStart
    exact if_neg hpositive
  unfold main
  rw [hidle]
  dsimp only
  rw [hallowed]
  dsimp only
  rw [hbind]
  rfl

/-- What a connection to a user's socket has been made for. -/
inductive Origin where
  /-- A request that nginx hands on. -/
  | request (asked : Asked)
  /-- The subrequest of `auth_request`, meant for the helper. -/
  | subrequest
  /-- Another account of the host has connected. -/
  | stranger
  deriving DecidableEq

/-- What may come to the socket of `i`. -/
def Origin.Suits (i : Str) : Origin → Prop
  | request asked => asked.user = some i
  | subrequest => i = "ensure".toList
  | stranger => True

structure Arrival where
  origin : Origin
  client : Client

/-- Whether it is a connection of that origin: nginx connects as its own account, and names `HTTP/1.x` in
what it sends. -/
def Arrival.comes (web : ℕ) (origin : Origin) (x : Arrival) : Bool :=
  x.origin = origin &&
    match origin with
    | .request _ => x.client.peer = some web && x.client.request.all fun req => !req.http09
    | .subrequest => x.client.peer = some web && x.client.request.all fun req =>
        !req.http09 && req.command = "GET".toList && req.path = "/_ensure".toList
    | .stranger => x.client.peer ≠ some web

/-- The units by the instance that they are of. -/
structure Deployment (F : Flux) where
  units : Str → Option (Activation F) := fun _ => none
  /-- The path of the helper's socket is the one of the unit of `ensure`, which was set up later. -/
  taken : Bool := false

namespace Deployment

variable {F : Flux} (site : Str → Site) (launch : Str → Launch) (webUser : Str) (web : ℕ)
  (arrivals : Str → ℕ → Arrival)

inductive Event (F : Flux) where
  /-- A request that nginx passes on, if it does, to the socket of `i`; `run` is what comes of
  `systemctl`, and `flux` what Flux is as a unit is started. -/
  | request (asked : Asked) (run : List Str → Completed) (flux : F.State) (i : Str)
  /-- A connection to the helper that is no subrequest: of an account of the host, or of nginx, with a
  request of a user `ensure`. -/
  | helper (peer : Option ℕ) (header : Option Str) (run : List Str → Completed) (flux : F.State)
  /-- The socket of the helper is set up anew, on its path. -/
  | helperSocket
  /-- The socket unit of `i` is started by other means than the helper, or after it has given up. -/
  | start (i : Str) (flux : F.State)
  /-- Another account connects to the socket of `i`. -/
  | connect (i : Str)
  | unit (i : Str) (e : Activation.Event F)

def queue (i : Str) (n : ℕ) : Client := (arrivals i n).client

/-- Whether the commands start the socket unit of `i`. -/
def starts (run : List Str → Completed) (commands : List (List Str)) (i : Str) : Bool :=
  commands.any fun command => command = ["systemctl".toList, "start".toList, socketUnit i] &&
    match run command with
    | .exited 0 _ => true
    | _ => false

variable (d : Deployment F)

/-- A unit that is started already stays as it is. -/
def start (started : Str → Bool) (flux : F.State) : Deployment F where
  units i :=
    match d.units i with
    | some a => some a
    | none => if started i then some { now := 0, flux } else none
  taken := d.taken || (d.units "ensure".toList).isNone && started "ensure".toList

def set (i : Str) (a : Activation F) : Deployment F :=
  { d with units := fun j => if j = i then some a else d.units j }

/-- One connection more to the socket of `i`. -/
def arrive (i : Str) (origin : Origin) : Option (Deployment F) :=
  match d.units i with
  | some a =>
    if (arrivals i a.arrived).comes web origin then some (d.set i { a with arrived := a.arrived + 1 })
    else none
  | none => none

/-- What happens in the unit of `i`, where `main` comes to serve. -/
def unit (i : Str) (a : Activation F) (e : Activation.Event F) : Option (Activation F) :=
  match main (launch i) (execStart webUser) with
  | .serves _ uid T _ => a.step (site i) uid T (queue arrivals i) e
  | _ => none

/-- nginx goes on with a request to `socket`, where the unit of `i` listens, unless none does or the
helper has the path. -/
def handOn (asked : Asked) (i socket : Str) : Option (Deployment F) :=
  if listenStream (socketUnit i) ≠ socket then none
  else if (d.units i).isNone ∨ i = "ensure".toList ∧ d.taken = false then some d
  else d.arrive web arrivals i (.request asked)

def step : Event F → Option (Deployment F)
  | .request asked run flux i =>
    let located := asked.location run
    if located.subrequest.isNone then some d
    -- a server of the user `ensure` answers 404, and nginx does not go on
    else if d.taken then d.arrive web arrivals "ensure".toList .subrequest
    else
      let d := d.start (starts run located.commands) flux
      match located.front with
      | .denied _ => some d
      | .proxied socket => d.handOn web arrivals asked i socket
  | .helper peer header run flux => some (d.start (starts run (helperCommands web peer run header)) flux)
  | .helperSocket => some { d with taken := false }
  | .start i flux => some (d.start (· = i) flux)
  | .connect i => d.arrive web arrivals i .stranger
  | .unit i e =>
    match d.units i with
    | some a => if e matches .connect then none else (unit site launch webUser arrivals i a e).map (d.set i)
    | none => none

/-- The states that the deployment goes through, from when no unit is started. -/
def Reached (d : Deployment F) : Prop :=
  Machine.Reaches (step site launch webUser web arrivals) {} d

variable {site} {launch} {webUser} {web} {arrivals} {d}

/-- What holds of the deployment at any time. -/
structure Kept (site : Str → Site) (web : ℕ) (arrivals : Str → ℕ → Arrival) (d : Deployment F) : Prop where
  reached : ∀ i a, d.units i = some a →
    Activation.Reached (site i) (some web) (some 300) (queue arrivals i) a
  origin : ∀ i a, d.units i = some a → ∀ n < a.arrived,
    ∃ origin : Origin, origin.Suits i ∧ (arrivals i n).comes web origin = true

theorem Kept.start (hI : Kept site web arrivals d) (started : Str → Bool) (flux : F.State) :
    Kept site web arrivals (d.start started flux) := by
  have hunit : ∀ i a, (d.start started flux).units i = some a →
      d.units i = some a ∨ a = { now := 0, flux } := by
    intro i a ha
    simp only [Deployment.start] at ha
    cases hd : d.units i with
    | some a' =>
      rw [hd] at ha
      exact Or.inl ha
    | none =>
      rw [hd] at ha
      dsimp only at ha
      split_ifs at ha
      exact Or.inr (Option.some.inj ha).symm
  constructor
  · intro i a ha
    obtain ha | rfl := hunit i a ha
    · exact hI.reached i a ha
    · exact ⟨0, flux, [], rfl⟩
  · intro i a ha n hn
    obtain ha | rfl := hunit i a ha
    · exact hI.origin i a ha n hn
    · exact absurd hn (Nat.not_lt_zero n)

theorem Kept.set (hI : Kept site web arrivals d) {i : Str} {a : Activation F}
    (hreached : Activation.Reached (site i) (some web) (some 300) (queue arrivals i) a)
    (horigin : ∀ n < a.arrived,
      ∃ origin : Origin, origin.Suits i ∧ (arrivals i n).comes web origin = true) :
    Kept site web arrivals (d.set i a) := by
  constructor
  · intro j b hb
    simp only [Deployment.set] at hb
    split_ifs at hb with hj
    · cases hb
      rw [hj]
      exact hreached
    · exact hI.reached j b hb
  · intro j b hb
    simp only [Deployment.set] at hb
    split_ifs at hb with hj
    · cases hb
      rw [hj]
      exact horigin
    · exact hI.origin j b hb

theorem arrive_of_some {i : Str} {origin : Origin} {d' : Deployment F}
    (h : d.arrive web arrivals i origin = some d') : ∃ a, d.units i = some a ∧
      (arrivals i a.arrived).comes web origin = true ∧ d' = d.set i { a with arrived := a.arrived + 1 } := by
  unfold arrive at h
  cases ha : d.units i with
  | none =>
    rw [ha] at h
    cases h
  | some a =>
    simp only [ha] at h
    split_ifs at h with hcomes
    exact ⟨a, rfl, hcomes, (Option.some.inj h).symm⟩

/-- One more connection, of an origin that suits the unit. -/
theorem Kept.arrive (hI : Kept site web arrivals d) {i : Str} {origin : Origin} {d' : Deployment F}
    (h : d.arrive web arrivals i origin = some d') (ho : origin.Suits i) : Kept site web arrivals d' := by
  obtain ⟨a, ha, hcomes, rfl⟩ := arrive_of_some h
  apply hI.set
  · exact (hI.reached i a ha).next (e := .connect) rfl
  · intro n hn
    obtain hlt | rfl := Nat.lt_succ_iff_lt_or_eq.mp hn
    · exact hI.origin i a ha n hlt
    · exact ⟨origin, ho, hcomes⟩

/-- What a request comes to: nginx refuses it, its subrequest goes to the unit of `ensure`, or units are
started for it and it may arrive at the socket of its user. -/
inductive Comes (web : ℕ) (arrivals : Str → ℕ → Arrival) (d d' : Deployment F) (asked : Asked)
    (run : List Str → Completed) (flux : F.State) (i : Str) : Prop
  | still (h : d' = d)
  | subrequest (h : d.arrive web arrivals "ensure".toList .subrequest = some d')
  | started (h : d' = d.start (starts run (asked.location run).commands) flux)
  | arrives (huser : asked.user = some i)
      (h : (d.start (starts run (asked.location run).commands) flux).arrive web arrivals i
        (.request asked) = some d')

theorem comes_of_step {asked : Asked} {run : List Str → Completed} {flux : F.State} {i : Str}
    {d' : Deployment F} (h : d.step site launch webUser web arrivals (.request asked run flux i) = some d') :
    Comes web arrivals d d' asked run flux i := by
  simp only [Deployment.step] at h
  split_ifs at h with hnone htaken
  · exact .still (Option.some.inj h).symm
  · exact .subrequest h
  · split at h
    · exact .started (Option.some.inj h).symm
    · next socket hproxied =>
      unfold handOn at h
      split_ifs at h with hlisten hnowhere
      · exact .started (Option.some.inj h).symm
      · obtain ⟨u, huser, hsocket⟩ := Asked.user_of_proxied hproxied
        rw [listenStream_socketUnit, hsocket, not_not] at hlisten
        rw [← sock_inj hlisten] at huser
        exact .arrives huser h

/-- What happens in a unit leaves the others. -/
theorem unit_of_step {i : Str} {e : Activation.Event F} {d' : Deployment F}
    (h : d.step site launch webUser web arrivals (.unit i e) = some d') :
    ∃ a b, d.units i = some a ∧ e ≠ .connect ∧ unit site launch webUser arrivals i a e = some b ∧
      d' = d.set i b := by
  simp only [Deployment.step] at h
  cases ha : d.units i with
  | none =>
    rw [ha] at h
    cases h
  | some a =>
    simp only [ha] at h
    split_ifs at h with hconnect
    obtain ⟨b, hb, hd⟩ := Option.map_eq_some_iff.mp h
    refine ⟨a, b, rfl, ?_, hb, hd.symm⟩
    intro he
    rw [he] at hconnect
    exact hconnect rfl

theorem Kept.step (hI : Kept site web arrivals d) (hsystemd : ∀ i, BySystemd webUser web (launch i))
    {e : Event F} {d' : Deployment F} (h : d.step site launch webUser web arrivals e = some d') :
    Kept site web arrivals d' := by
  cases e with
  | request asked run flux i =>
    cases comes_of_step h with
    | still h =>
      rw [h]
      exact hI
    | subrequest h => exact hI.arrive h rfl
    | started h =>
      rw [h]
      exact hI.start _ flux
    | arrives huser h => exact (hI.start _ flux).arrive h huser
  | helper peer header run flux =>
    cases h
    exact hI.start _ flux
  | helperSocket =>
    cases h
    exact ⟨hI.reached, hI.origin⟩
  | start i flux =>
    cases h
    exact hI.start _ flux
  | connect i => exact hI.arrive h trivial
  | unit i e =>
    obtain ⟨a, b, ha, hne, hb, rfl⟩ := unit_of_step h
    unfold Deployment.unit at hb
    rw [main_execStart (hsystemd i)] at hb
    apply hI.set ((hI.reached i a ha).next hb)
    rw [Activation.step_arrived hne hb]
    exact hI.origin i a ha

theorem Reached.kept (hsystemd : ∀ i, BySystemd webUser web (launch i))
    (h : Reached site launch webUser web arrivals d) : Kept site web arrivals d := by
  apply h.invariant
  · constructor
    · intro i a ha
      cases ha
    · intro i a ha
      cases ha
  · intro u e v _ hI hv
    exact hI.step hsystemd hv

/-! What brings a unit up. -/

theorem command_of_starts {run : List Str → Completed} {commands : List (List Str)} {i : Str}
    (h : starts run commands i = true) : ["systemctl".toList, "start".toList, socketUnit i] ∈ commands ∧
      ∃ stderr, run ["systemctl".toList, "start".toList, socketUnit i] = .exited 0 stderr := by
  obtain ⟨command, hmem, hstarts⟩ := List.any_eq_true.mp h
  obtain ⟨hcommand, hrun⟩ := Bool.and_eq_true_iff.mp hstarts
  obtain rfl := of_decide_eq_true hcommand
  refine ⟨hmem, ?_⟩
  split at hrun
  · next stderr hexited => exact ⟨stderr, hexited⟩
  · cases hrun

/-- The event starts the unit of `i`: with authority of its own, for a request that nginx has from
that user, or because the account of nginx asks the helper itself, be it with a request of a user `ensure`
that nginx hands to the helper's socket. -/
inductive Event.Starts (web : ℕ) (i : Str) : Event F → Prop
  | others {flux} : Starts web i (.start i flux)
  | request {asked run flux j u stderr} (hname : IsName i) (huser : asked.user = some u)
      (hu : u = i ∨ u = i ++ ['\n'])
      (hrun : run ["systemctl".toList, "start".toList, socketUnit i] = .exited 0 stderr) :
      Starts web i (.request asked run flux j)
  | helper {header run flux stderr} (hname : IsName i) (hheader : strip header = i)
      (hrun : run ["systemctl".toList, "start".toList, socketUnit i] = .exited 0 stderr) :
      Starts web i (.helper (some web) (some header) run flux)

theorem units_start {started : Str → Bool} {flux : F.State} {i : Str}
    (h : ((d.start started flux).units i).isSome = true) : (d.units i).isSome = true ∨ started i = true := by
  simp only [Deployment.start] at h
  cases hd : d.units i with
  | some a => exact Or.inl rfl
  | none =>
    rw [hd] at h
    dsimp only at h
    split_ifs at h with hstarted
    · exact Or.inr hstarted
    · cases h

theorem units_set {i j : Str} {a b : Activation F} (ha : d.units i = some a)
    (h : ((d.set i b).units j).isSome = true) : (d.units j).isSome = true := by
  simp only [Deployment.set] at h
  split_ifs at h with hj
  · rw [hj, ha]
    rfl
  · exact h

theorem units_arrive {i j : Str} {origin : Origin} {d' : Deployment F}
    (h : d.arrive web arrivals i origin = some d') (hup : (d'.units j).isSome = true) :
    (d.units j).isSome = true := by
  obtain ⟨a, ha, -, rfl⟩ := arrive_of_some h
  exact units_set ha hup

theorem starts_of_step {e : Event F} {d' : Deployment F} {i : Str}
    (h : d.step site launch webUser web arrivals e = some d') (hdown : ¬ (d.units i).isSome = true)
    (hup : (d'.units i).isSome = true) : e.Starts web i := by
  have hstarted : ∀ started flux, ((d.start started flux).units i).isSome = true → started i = true :=
    fun started flux hsome => (units_start hsome).resolve_left hdown
  cases e with
  | request asked run flux j =>
    have hstart : ((d.start (starts run (asked.location run).commands) flux).units i).isSome = true →
        (Event.request asked run flux j).Starts web i := by
      intro hsome
      obtain ⟨hcommand, stderr, hrun⟩ := command_of_starts (hstarted _ _ hsome)
      obtain ⟨hname, u, huser, hu⟩ := Asked.user_of_command hcommand
      exact .request hname huser hu hrun
    cases comes_of_step h with
    | still h =>
      rw [h] at hup
      exact absurd hup hdown
    | subrequest h => exact absurd (units_arrive h hup) hdown
    | started h =>
      rw [h] at hup
      exact hstart hup
    | arrives _ h => exact hstart (units_arrive h hup)
  | helperSocket =>
    cases h
    exact absurd hup hdown
  | helper peer header run flux =>
    cases h
    obtain ⟨hcommand, stderr, hrun⟩ := command_of_starts (hstarted _ _ hup)
    unfold helperCommands at hcommand
    split_ifs at hcommand with hpeer
    · obtain ⟨hname, hcommand⟩ := commands_ensureDoGET hcommand
      have hunit : socketUnit i = socketUnit (strip (header.getD [])) := by
        simpa only [List.cons.injEq, true_and, and_true] using hcommand
      rw [← socketUnit_inj hunit] at hname
      cases header with
      | none => cases hname.chars.1 (socketUnit_inj hunit)
      | some header =>
        cases peer with
        | none => cases hpeer
        | some peer =>
          rw [of_decide_eq_true hpeer]
          exact .helper hname (socketUnit_inj hunit).symm hrun
    · cases hcommand
  | start j flux =>
    cases h
    obtain rfl := of_decide_eq_true (hstarted _ _ hup)
    exact .others
  | connect j => exact absurd (units_arrive h hup) hdown
  | unit j e =>
    obtain ⟨a, b, ha, -, -, rfl⟩ := unit_of_step h
    exact absurd (units_set ha hup) hdown

end Deployment

/-- The server of a user answers 404 to a subrequest, which nginx takes for a failure. -/
theorem status_subrequest {F : Flux} (site : Site) {req : Request} (hv : req.http09 = false)
    (hget : req.command = "GET".toList) (hpath : req.path = "/_ensure".toList) (w : World F) :
    status (handler F site req) w = some 404 ∧ authRequest 404 ensureSock = .denied 500 := by
  refine ⟨?_, rfl⟩
  have hbefore : before '?' req.path = "/_ensure".toList := by
    rw [hpath]
    rfl
  have hroutes : lookup "/_ensure".toList (tables F site).routes = none := rfl
  have hjob : parseJobPath F "/_ensure".toList = .ok none := rfl
  rw [handler, handleOneRequest_get hget, doGET, hbefore, hroutes]
  dsimp only
  rw [hjob]
  exact status_send site hv (plain_of_none rfl) w

theorem Client.exists_of_asks {k : Client} {p : Request → Bool} (h : k.request.all p = true) {req : Request}
    (hreq : k.asks = some req) : ∃ req', p req' = true ∧ req = { req' with writeError := none } := by
  obtain ⟨req', hreq', hsame⟩ := Option.map_eq_some_iff.mp hreq
  rw [hreq'] at h
  exact ⟨req', h, hsame.symm⟩

theorem Arrival.comes_permitted {web : ℕ} {origin : Origin} {x : Arrival} (h : x.comes web origin = true)
    (hpeer : x.client.peer = some web) : x.origin = origin ∧ origin ≠ .stranger ∧
      ∀ req, x.client.asks = some req → req.http09 = false ∧
        (origin = .subrequest → req.command = "GET".toList ∧ req.path = "/_ensure".toList) := by
  obtain ⟨ho, hcomes⟩ := Bool.and_eq_true_iff.mp h
  refine ⟨of_decide_eq_true ho, ?_⟩
  cases origin with
  | request asked =>
    obtain ⟨-, hrequest⟩ := Bool.and_eq_true_iff.mp hcomes
    refine ⟨Origin.noConfusion, ?_⟩
    intro req hreq
    obtain ⟨req', hversion, rfl⟩ := Client.exists_of_asks hrequest hreq
    exact ⟨(Bool.not_eq_true' _).mp hversion, Origin.noConfusion⟩
  | subrequest =>
    obtain ⟨-, hrequest⟩ := Bool.and_eq_true_iff.mp hcomes
    refine ⟨Origin.noConfusion, ?_⟩
    intro req hreq
    obtain ⟨req', hall, rfl⟩ := Client.exists_of_asks hrequest hreq
    obtain ⟨hall, hpath⟩ := Bool.and_eq_true_iff.mp hall
    obtain ⟨hversion, hget⟩ := Bool.and_eq_true_iff.mp hall
    exact ⟨(Bool.not_eq_true' _).mp hversion, fun _ => ⟨of_decide_eq_true hget, of_decide_eq_true hpath⟩⟩
  | stranger => exact absurd hpeer (of_decide_eq_true hcomes)

/-- In every run of the whole deployment, whatever requests come to nginx, whatever other accounts do
and however the services come and go: what the server of a user does in Flux is, one for one and in this
order, what it tells in its responses, each to a request that was authenticated as that user; the server
of a user `ensure` may also be sent subrequests, to which it answers 404. -/
theorem own_jobs {F : Flux} {site : Str → Site} {launch : Str → Launch} {webUser : Str} {web : ℕ}
    {arrivals : Str → ℕ → Arrival} {d : Deployment F} (hsystemd : ∀ i, BySystemd webUser web (launch i))
    (h : Deployment.Reached site launch webUser web arrivals d) {i : Str} {a : Activation F}
    (ha : d.units i = some a) (hcut : ∀ sys ∈ a.services, ¬ CutShort sys.cfg.log)
    (hkilled : ∀ sys ∈ a.past, ∀ s, sys.cfg.pc ≠ .route s) :
    serviceUser (serviceOf (socketUnit i)) = i ∧
      ∃ shifts, Activation.InTurn (site i) (some web) (Deployment.queue arrivals i) a.services shifts ∧
        List.Forall₂ Names (Activation.doneBy a.services)
          ((Activation.servedBy a.services shifts).reverse.filter tells) ∧
        ∀ e ∈ Activation.servedBy a.services shifts,
          (∃ asked, (arrivals i e.1).origin = .request asked ∧ asked.user = some i) ∨
            (arrivals i e.1).origin = .subrequest ∧ i = "ensure".toList ∧
              e.2.head?.bind Wire.status? = some 404 ∧ tells e = false := by
  have hI := h.kept hsystemd
  have hreached := hI.reached i a ha
  obtain ⟨shifts, hshifts⟩ := hreached.inTurn hcut hkilled
  -- what is known of a connection that was served
  have hserved : ∀ e ∈ Activation.servedBy a.services shifts, ∃ origin : Origin, origin.Suits i ∧
      (arrivals i e.1).origin = origin ∧ origin ≠ .stranger ∧
      ∀ req, (arrivals i e.1).client.asks = some req → req.http09 = false ∧
        (origin = .subrequest → req.command = "GET".toList ∧ req.path = "/_ensure".toList) := by
    intro e he
    have hlt : e.1 < a.arrived := (hshifts.accepted e he).trans_le hreached.kept.waiting
    obtain ⟨origin, hsuits, hcomes⟩ := hI.origin i a ha e.1 hlt
    exact ⟨origin, hsuits, Arrival.comes_permitted hcomes (of_decide_eq_true (hshifts.permitted e he))⟩
  refine ⟨serviceUser_socketUnit i, shifts, hshifts, ?_, ?_⟩
  · apply hshifts.told
    intro e he req hreq
    obtain ⟨origin, -, -, -, hrequest⟩ := hserved e he
    exact (hrequest req hreq).1
  · intro e he
    obtain ⟨origin, hsuits, ho, hstranger, hrequest⟩ := hserved e he
    cases origin with
    | request asked => exact Or.inl ⟨asked, ho, hsuits⟩
    | subrequest =>
      right
      obtain ⟨w, w', req, hreq, -, hwires⟩ := hshifts.worked.handled he
      obtain ⟨hv, hensure⟩ := hrequest req hreq
      obtain ⟨hget, hpath⟩ := hensure rfl
      have hstatus : e.2.head?.bind Wire.status? = some 404 := by
        rw [← hwires]
        exact (status_subrequest (site i) hv hget hpath w).1
      refine ⟨ho, hsuits, hstatus, ?_⟩
      rw [tells, hstatus]
      rfl
    | stranger => exact absurd rfl hstranger

/-- A host where the web-server account has the uid 1000. -/
def Launch.forUnit : Launch :=
  { Launch.activated with getpwnam := fun name => if name = "www-data".toList then some 1000 else none }

theorem bySystemd_forUnit : BySystemd "www-data".toList 1000 Launch.forUnit where
  listenPid := by decide
  listenFds := by decide
  socket := rfl
  addressFamilies := by decide
  newServer := rfl
  named := by decide
  getpwnam := by decide

/-- nginx passes on a job that `alice` submits, and then another account connects to her socket. -/
def aliceThenStranger (_ : Str) : ℕ → Arrival
  | 0 => ⟨.request (.direct "alice".toList), submissionClient⟩
  | _ => ⟨.stranger, ⟨some 2000, some { command := "DELETE".toList, path := "/api/v1/jobs/f1".toList }⟩⟩

def aliceServed : List (Deployment.Event (.fixed {})) :=
  let response := submissionClient.asks.elim [] fun req =>
    (written (handler (.fixed {}) .fixed req) { flux := () }).flatMap Wire.bytes
  let alice := "alice".toList
  let turn := fun choice => Deployment.Event.unit alice (.turn (.main choice))
  [.request (.direct alice) (fun _ => .exited 0 []) () alice, .connect alice, .unit alice .activate,
    turn .next, turn .next, turn .next, turn .ready, turn .next, turn (.accept (some 1000)), turn .next,
    turn .next, turn .next, turn .request, turn (.respond response), turn (.send response.length),
    turn .next, turn .next, turn .next, turn .next, turn .next, turn .next, turn .ready, turn .next,
    turn (.accept (some 2000)), turn .next, turn .next]

theorem own_jobs_alice : ∃ d a, Machine.run (Deployment.step (fun _ => .fixed) (fun _ => .forUnit)
        "www-data".toList 1000 aliceThenStranger) {} aliceServed = some d ∧
      d.units "alice".toList = some a ∧ accepted a.services = 2 ∧
      serviceUser (serviceOf (socketUnit "alice".toList)) = "alice".toList ∧
      ∃ shifts, Activation.InTurn .fixed (some 1000) (Deployment.queue aliceThenStranger "alice".toList)
          a.services shifts ∧
        List.Forall₂ Names (Activation.doneBy a.services)
          ((Activation.servedBy a.services shifts).reverse.filter tells) ∧
        ∀ e ∈ Activation.servedBy a.services shifts,
          (∃ asked, (aliceThenStranger "alice".toList e.1).origin = .request asked ∧
            asked.user = some "alice".toList) ∨
          (aliceThenStranger "alice".toList e.1).origin = .subrequest ∧ "alice".toList = "ensure".toList ∧
            e.2.head?.bind Wire.status? = some 404 ∧ tells e = false := by
  have hruns : (Machine.run (Deployment.step (fun _ => .fixed) (fun _ => .forUnit) "www-data".toList 1000
      aliceThenStranger) {} aliceServed).any (fun d => (d.units "alice".toList).any fun a =>
        accepted a.services = 2 && a.past.isEmpty && (∀ sys ∈ a.services, ¬ CutShort sys.cfg.log)) = true := by
    decide +kernel
  obtain ⟨d, hrun, hunit⟩ := (Option.any_eq_true _ _).mp hruns
  obtain ⟨a, ha, hall⟩ := (Option.any_eq_true _ _).mp hunit
  obtain ⟨hall, hcut⟩ := Bool.and_eq_true_iff.mp hall
  obtain ⟨htwo, hpast⟩ := Bool.and_eq_true_iff.mp hall
  have hreached : Deployment.Reached (fun _ => .fixed) (fun _ => .forUnit) "www-data".toList 1000
      aliceThenStranger d := ⟨aliceServed, hrun⟩
  refine ⟨d, a, hrun, ha, of_decide_eq_true htwo,
    own_jobs (fun _ => bySystemd_forUnit) hreached ha (of_decide_eq_true hcut) ?_⟩
  intro sys hmem
  rw [List.isEmpty_iff.mp hpast] at hmem
  cases hmem

/-- No unit comes up but by the authority to start units, for a request of its user, or because the
account of nginx asks the helper for it, as it does with what a user `ensure` sends to the helper's path:
whoever else connects to the helper starts nothing. -/
theorem unit_started {F : Flux} {site : Str → Site} {launch : Str → Launch} {webUser : Str} {web : ℕ}
    {arrivals : Str → ℕ → Arrival} {d : Deployment F} {es : List (Deployment.Event F)}
    (h : Machine.run (Deployment.step site launch webUser web arrivals) {} es = some d) {i : Str}
    {a : Activation F} (ha : d.units i = some a) : ∃ e ∈ es, e.Starts web i := by
  have hdown : ¬ (({} : Deployment F).units i).isSome = true := Bool.false_ne_true
  have hup : (d.units i).isSome = true := by
    rw [ha]
    rfl
  obtain ⟨e, he, u, v, hstep, hu, hv⟩ :=
    Machine.run_brings (P := fun d => (d.units i).isSome = true) hdown h hup
  exact ⟨e, he, Deployment.starts_of_step hstep hu hv⟩

/-- Another account asks the helper for the unit of `bob`, and then `alice` sends a request. -/
def strangerThenRequest : List (Deployment.Event (.fixed {})) :=
  [.helper (some 2000) (some "bob".toList) (fun _ => .exited 0 []) (),
    .request (.direct "alice".toList) (fun _ => .exited 0 []) () "alice".toList]

theorem unit_started_alice : ∃ d a, Machine.run (Deployment.step (fun _ => .fixed) (fun _ => .forUnit)
      "www-data".toList 1000 aliceThenStranger) {} strangerThenRequest = some d ∧
    d.units "alice".toList = some a ∧ (d.units "bob".toList).isNone = true ∧
    ∃ e ∈ strangerThenRequest, e.Starts 1000 "alice".toList := by
  have hruns : (Machine.run (Deployment.step (fun _ => .fixed) (fun _ => .forUnit) "www-data".toList 1000
      aliceThenStranger) {} strangerThenRequest).any (fun d =>
        (d.units "alice".toList).isSome && (d.units "bob".toList).isNone) = true := by
    decide +kernel
  obtain ⟨d, hrun, hall⟩ := (Option.any_eq_true _ _).mp hruns
  obtain ⟨halice, hbob⟩ := Bool.and_eq_true_iff.mp hall
  obtain ⟨a, ha⟩ := Option.isSome_iff_exists.mp halice
  exact ⟨d, a, hrun, ha, hbob, unit_started hrun ha⟩

/-- A request of a plain user comes, where `systemctl` starts the user's unit, to that unit's socket, and
every way of going on there comes to where a service of the user is through with it, and has answered it,
if the services of the user were not disturbed before. No server of a user `ensure` has the helper's path,
nor does the helper keep it, where the user is that one. -/
theorem request_answered {F : Flux} {site : Str → Site} {launch : Str → Launch} {webUser : Str} {web : ℕ}
    {arrivals : Str → ℕ → Arrival} {d d' : Deployment F} (hsystemd : ∀ i, BySystemd webUser web (launch i))
    (h : Deployment.Reached site launch webUser web arrivals d) {u : Str} (hname : IsName u)
    (htaken : d.taken = false) (hensure : u = "ensure".toList → d.units u = none)
    {run : List Str → Completed} {stderr : Bytes}
    (hrun : run ["systemctl".toList, "start".toList, socketUnit u] = .exited 0 stderr) {asked : Asked}
    (hasked : asked = .direct u ∨ asked = .proxied "SUCCESS".toList (some u)) {flux : F.State}
    (hd : d.step site launch webUser web arrivals (.request asked run flux u) = some d') :
    ∃ a n, d'.units u = some a ∧ a.arrived = n + 1 ∧ (arrivals u n).origin = .request asked ∧
      (arrivals u n).client.peer = some web ∧
      Machine.Leads (Activation.Moves (site u) (some web) (some 300) (Deployment.queue arrivals u))
        (fun b => Activation.Through (n + 1) b ∧ (a.Undisturbed →
          Activation.Answered (site u) (some web) (Deployment.queue arrivals u) (n + 1) b)) a := by
  have hI : Deployment.Kept site web arrivals d' := (h.kept hsystemd).step hsystemd hd
  have hstarted : Deployment.starts run [["systemctl".toList, "start".toList, socketUnit u]] u = true := by
    rw [Deployment.starts, List.any_cons, decide_eq_true rfl, hrun]
    rfl
  let started := Deployment.starts run [["systemctl".toList, "start".toList, socketUnit u]]
  have hup : ¬ (((d.start started flux).units u).isNone = true ∨
      u = "ensure".toList ∧ (d.start started flux).taken = false) := by
    rintro (hnone | ⟨rfl, hfree⟩)
    · simp only [Deployment.start] at hnone
      split at hnone
      · cases hnone
      · rw [if_pos hstarted] at hnone
        cases hnone
    · simp only [Deployment.start, hensure rfl, started, hstarted, Option.isNone_none, Bool.and_self,
        Bool.or_true, Bool.true_eq_false] at hfree
  simp only [Deployment.step, Asked.location_of_name hname hrun hasked, htaken, Deployment.handOn] at hd
  rw [if_neg (by simp), if_neg (by simp), if_neg (not_not.mpr (listenStream_socketUnit u)), if_neg hup] at hd
  obtain ⟨a, ha, hcomes, rfl⟩ := Deployment.arrive_of_some hd
  have hset : ((d.start started flux).set u { a with arrived := a.arrived + 1 }).units u =
      some { a with arrived := a.arrived + 1 } := if_pos rfl
  obtain ⟨ho, hclient⟩ := Bool.and_eq_true_iff.mp hcomes
  have hpeer : (arrivals u a.arrived).client.peer = some web :=
    of_decide_eq_true (Bool.and_eq_true_iff.mp hclient).1
  exact ⟨_, a.arrived, hset, rfl, of_decide_eq_true ho, hpeer,
    (hI.reached u _ hset).leads_answered (le_refl _)⟩

/-- The unit of `alice` is started for a request from an upstream. -/
theorem request_answered_alice :
    let asked := Asked.proxied "SUCCESS".toList (some "alice".toList)
    ∃ d', Deployment.step (fun _ => .fixed) (fun _ => .forUnit) "www-data".toList 1000
        (fun _ _ => ⟨.request asked, submissionClient⟩) ({} : Deployment (.fixed {}))
        (.request asked (fun _ => .exited 0 []) () "alice".toList) = some d' ∧
      ∃ a n, d'.units "alice".toList = some a ∧ a.arrived = n + 1 ∧
        Machine.Leads (Activation.Moves .fixed (some 1000) (some 300) fun _ => submissionClient)
          (fun b => Activation.Through (n + 1) b ∧ (a.Undisturbed →
            Activation.Answered .fixed (some 1000) (fun _ => submissionClient) (n + 1) b)) a := by
  intro asked
  have hname : IsName "alice".toList := ⟨'a', "lice".toList, rfl, by decide, List.all_eq_true.mp (by decide)⟩
  have hpasses : (Deployment.step (fun _ => .fixed) (fun _ => .forUnit) "www-data".toList 1000
      (fun _ _ => ⟨.request asked, submissionClient⟩) ({} : Deployment (.fixed {}))
      (.request asked (fun _ => .exited 0 []) () "alice".toList)).isSome = true := by
    decide +kernel
  obtain ⟨d', hd⟩ := Option.isSome_iff_exists.mp hpasses
  have hother : "alice".toList ≠ "ensure".toList := by decide
  obtain ⟨a, n, ha, harrived, -, -, hleads⟩ :=
    request_answered (fun _ => bySystemd_forUnit) ⟨[], rfl⟩ hname rfl (fun h => absurd h hother) rfl
      (Or.inr rfl) hd
  exact ⟨d', hd, a, n, ha, harrived, hleads⟩

end FluxRest
