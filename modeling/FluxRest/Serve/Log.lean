import FluxRest.Serve.Serially
import FluxRest.Effects
import FluxRest.Replies

/-! Whole runs of the server and its error log: what is reported there against what the clients were
answered. -/
namespace FluxRest
open Py Py.Http

variable {F : Flux} {site : Site} {clients : Sock → Client} {uid : Option ℕ} {T : Option ℚ}

/-- The path that a report of a failure names. -/
def Reported (site : Site) (req : Request) (path : Str) : Prop :=
  path = before '?' req.path ∨ ∃ parsed, urlsplit site.hostError req.path = .ok parsed ∧ path = parsed.path

def report (path : Str) (err : Exc) : Str :=
  "unhandled exception in ".toList ++ path ++ ": ".toList ++ err.message

/-- What a method reports goes with what it answers: a failure is reported, in one line, where the
answer is an internal error, and nothing is reported where it is not. -/
inductive Logs (site : Site) (req : Request) (x : Proc (World F) Unit) (w : World F) : Prop
  | quiet (hstatus : status x w ≠ some 500) (hlog : (x.run w).2.stderr = w.stderr)
  | failed {path err} (hpath : Reported site req path) (herr : err.isA .osError = false)
      (hanswer : written x w = sent site req internalError)
      (hlog : (x.run w).2.stderr = w.stderr ++ [report path err])

/-! A response leaves the log as it is. -/

theorem ignoresCalls_stderr : IgnoresCalls (World.stderr (F := F)) :=
  ⟨⟨fun _ _ => rfl, fun _ _ _ _ => rfl⟩, fun _ _ _ => rfl⟩

theorem keeps_stderr_write (req : Request) (x : Wire) : Proc.Keeps World.stderr (write F req x) := by
  refine .bind (.modify fun _ => rfl) fun _ => ?_
  cases req.writeError with
  | some err => exact .throw err
  | none => exact .pure ()

theorem keeps_stderr_endHeaders (req : Request) (head : Head) (headers : Option (List (Str × Str))) :
    Proc.Keeps World.stderr (endHeaders F req head headers) := by
  unfold endHeaders
  split_ifs
  · exact .pure ()
  · exact keeps_stderr_write req _
  · exact .throw _

theorem keeps_stderr_send (site : Site) (req : Request) (reply : Reply) :
    Proc.Keeps World.stderr (send F site req reply) := by
  refine .tryCatch ?_ fun err => ?_
  · exact .bind (keeps_stderr_endHeaders req _ _) fun _ => keeps_stderr_write req _
  · split_ifs
    · exact .pure ()
    · exact .throw err

theorem keeps_stderr_sendError (site : Site) (req : Request) (command : Option Str) (code : ℕ)
    (message : Str) : Proc.Keeps World.stderr (sendError F site req command code message) := by
  refine .bind (keeps_stderr_endHeaders req _ _) fun _ => ?_
  split_ifs
  · exact keeps_stderr_write req _
  · exact .pure ()

/-! No route returns an internal error of its own. -/

theorem Op.Replies.status_ne {op : Op F} {reply : Reply} (h : op.Replies site reply) :
    reply.status ≠ 500 := by
  cases h with
  | failed hstatus =>
    rintro rfl
    exact absurd hstatus (by decide)
  | root | rejected | created | state | unknown | cancelled =>
    intro h
    cases h

section Methods

variable {req : Request}

theorem logs_send {reply : Reply} (hp : Plain reply) (h : reply.status ≠ 500) (w : World F) :
    Logs site req (send F site req reply) w := by
  refine .quiet ?_ (keeps_stderr_send site req reply w)
  rw [status, written_send site req hp, status_sent]
  split_ifs
  · exact (Option.some_ne_none _).symm
  · exact fun heq => h (Option.some.inj heq)

theorem logs_sendError (command : Option Str) {code : ℕ} (h : code ≠ 500) (message : Str)
    (w : World F) : Logs site req (sendError F site req command code message) w := by
  refine .quiet ?_ (keeps_stderr_sendError site req command code message w)
  rw [status_sendError]
  split_ifs
  · exact (Option.some_ne_none _).symm
  · exact fun heq => h (Option.some.inj heq)

theorem logs_throw (err : Exc) (w : World F) : Logs site req (throw err) w := by
  refine .quiet ?_ rfl
  rw [status_eq_none rfl]
  exact (Option.some_ne_none _).symm

theorem logs_guarded {path : Str} (hpath : Reported site req path) (call : RouteCall F)
    {route : Proc (World F) Reply} (hwire : Proc.Keeps World.wire route)
    (hstderr : Proc.Keeps World.stderr route) (hp : Proc.Returns Plain route)
    (hr : Proc.Returns (fun reply => reply.status ≠ 500) route) (w : World F) :
    Logs site req (do send F site req (← guardRoute F path call route)) w := by
  have hwritten := written_guarded site req path call hwire hp w
  have hlog : ∀ reply w', (guardRoute F path call route).run w = (.ok reply, w') →
      ((do send F site req (← guardRoute F path call route) : Proc (World F) Unit).run w).2.stderr =
        w'.stderr := by
    intro reply w' hg
    rw [Proc.run_bind_ok hg]
    exact keeps_stderr_send site req reply w'
  have hrun := run_guardRoute path call route w
  have hkept := hstderr (w.log (.route call))
  have hreturns := hr (w.log (.route call))
  rcases hroute : route.run (w.log (.route call)) with ⟨err | reply, w'⟩
  · rw [hroute] at hrun hkept hwritten
    dsimp only at hrun hkept
    cases hos : err.isA .osError with
    | true =>
      have hreply : afterRoute (.error err) = unavailable err := if_pos hos
      rw [if_pos hos] at hrun
      refine .quiet ?_ ((hlog _ _ hrun).trans hkept)
      rw [status, hwritten, status_sent, hreply]
      split_ifs
      · exact (Option.some_ne_none _).symm
      · intro heq
        cases heq
    | false =>
      have hnot : ¬ err.isA .osError = true := Bool.eq_false_iff.mp hos
      have hreply : afterRoute (.error err) = internalError := if_neg hnot
      rw [if_neg hnot] at hrun
      rw [hreply] at hwritten
      refine .failed hpath hos hwritten ((hlog _ _ hrun).trans ?_)
      dsimp only
      rw [hkept]
      rfl
  · rw [hroute] at hrun hkept hwritten hreturns
    dsimp only at hrun hkept
    refine .quiet ?_ ((hlog _ _ hrun).trans hkept)
    rw [status, hwritten, status_sent]
    split_ifs
    · exact (Option.some_ne_none _).symm
    · exact fun heq => hreturns reply rfl (Option.some.inj heq)

theorem logs_op {path : Str} (hpath : Reported site req path) (op : Op F) (w : World F) :
    Logs site req (do send F site req (← guardRoute F path op.call (op.route site))) w := by
  apply logs_guarded hpath op.call (op.keeps_route site) _ (op.plain_route site)
  · intro w' reply hr
    exact (Op.returns_route site op w' reply hr).status_ne
  · have hq := (ignoresCalls_stderr (F := F)).toIgnoresQueries
    cases op with
    | root => exact keeps_root site hq
    | submit fields => exact keeps_jobsSubmit site ignoresCalls_stderr fields
    | state jobid => exact keeps_jobsState hq jobid
    | cancel jobid reason => exact keeps_jobsCancel ignoresCalls_stderr jobid reason

theorem logs_doGET (w : World F) : Logs site req (doGET F site (tables F site) req) w := by
  unfold doGET
  dsimp only
  cases hl : lookup (before '?' req.path) (tables F site).routes with
  | some route =>
    have hkey := mem_of_lookup hl
    simp only [tables, List.mem_cons, Prod.mk.injEq, List.not_mem_nil, or_false] at hkey
    dsimp only
    obtain ⟨hpath, rfl⟩ | ⟨-, rfl⟩ := hkey
    · rw [unpackPair_root, hpath]
      exact logs_op (Or.inl hpath.symm) .root w
    · rw [unpackPair_health]
      apply logs_guarded (Or.inl rfl) _ keeps_health keeps_health plain_health
      intro w' reply hr
      rw [(returns_health w' reply hr).1]
      decide
  | none =>
    rcases parseJobPath F (before '?' req.path) with message | _ | jobid
    · exact logs_send (plain_of_none rfl) (by decide : 400 ≠ 500) w
    · exact logs_send (plain_of_none rfl) (by decide : 404 ≠ 500) w
    · dsimp only [tables]
      rw [unpackPair_jobsState]
      exact logs_op (Or.inl rfl) (.state jobid) w

theorem logs_doPOST (w : World F) : Logs site req (doPOST F site (tables F site) req) w := by
  unfold doPOST
  dsimp only
  cases hl : lookup (before '?' req.path) (tables F site).postRoutes with
  | none => exact logs_send (plain_of_none rfl) (by decide : 404 ≠ 500) w
  | some route =>
    obtain ⟨hpath, rfl⟩ := tables_postRoutes hl
    dsimp only
    rcases hr : readBody site req with err | reply | fields
    · exact logs_throw err w
    · obtain ⟨message, rfl⟩ := readBody_refused_plain site hr
      exact logs_send (plain_of_none rfl) (by decide : 400 ≠ 500) w
    · dsimp only
      rw [hpath]
      exact logs_op (Or.inl hpath.symm) (.submit fields) w

theorem logs_doDELETE (w : World F) : Logs site req (doDELETE F site (tables F site) req) w := by
  unfold doDELETE
  rcases hurl : urlsplit site.hostError req.path with message | parsed
  · exact logs_throw _ w
  · dsimp only
    rcases parseJobPath F parsed.path with message | _ | jobid
    · exact logs_send (plain_of_none rfl) (by decide : 400 ≠ 500) w
    · exact logs_send (plain_of_none rfl) (by decide : 404 ≠ 500) w
    · exact logs_op (Or.inr ⟨parsed, hurl, rfl⟩) (.cancel jobid _) w

theorem logs_handler (req : Request) (w : World F) : Logs site req (handler F site req) w := by
  refine handleOneRequest_rule (P := fun x => Logs site req x w) ?_ ?_ ?_ ?_
  · exact fun _ => logs_doGET w
  · exact fun _ _ => logs_doPOST w
  · exact fun _ _ => logs_doDELETE w
  · intro command code hcode message
    apply logs_sendError command _ message w
    simp only [List.mem_cons, List.not_mem_nil, or_false] at hcode
    obtain rfl | rfl := hcode <;> decide

end Methods

/-- The response is an internal error. -/
def failed (e : Sock × List Wire) : Bool := e.2.head?.bind Wire.status? = some 500

/-- The line reports a failure to answer the client. -/
inductive Reports (site : Site) (clients : Sock → Client) : Str → Sock × List Wire → Prop
  | mk {s req path err} (hreq : (clients s).asks = some req) (hpath : Reported site req path)
      (herr : err.isA .osError = false) :
      Reports site clients (report path err) (s, sent site req internalError)

/-- One request adds to the log a report of its failure, and nothing else. -/
theorem log_step (hversion : ∀ s req, (clients s).asks = some req → req.http09 = false) {t u : World F}
    {s : Sock} {wires : List Wire} (h : Handles site clients t s wires u) :
    failed (s, wires) = false ∧ u.stderr = t.stderr ∨
      failed (s, wires) = true ∧ ∃ line, u.stderr = t.stderr ++ [line] ∧
        Reports site clients line (s, wires) := by
  obtain ⟨req, hreq, hrun, rfl⟩ := h
  have hlogs : Logs site req (handler F site req) t := logs_handler req t
  have hu : ((handler F site req).run t).2 = u := by rw [hrun]
  cases hlogs with
  | quiet hstatus hlog =>
    rw [hu] at hlog
    exact Or.inl ⟨decide_eq_false hstatus, hlog⟩
  | failed hpath herr hanswer hlog =>
    rw [hu] at hlog
    right
    rw [hanswer]
    refine ⟨?_, _, hlog, .mk hreq hpath herr⟩
    rw [failed, decide_eq_true_eq, status_sent, hversion s req hreq]
    rfl

/-- In every run of the whole server in which no signal cuts a request short, the log has, one for one
and in this order, a report of each request that is answered with an internal error. -/
theorem failures_reported {w₀ : World F} (hfresh : w₀.stderr = [])
    (hversion : ∀ s req, (clients s).asks = some req → req.http09 = false) {sys : System F}
    (h : System.Reached site clients uid T w₀ sys) (hcut : ¬ CutShort sys.cfg.log) :
    ∃ served, served.Pairwise (fun later earlier => earlier.1 < later.1) ∧
      (∀ s, (clients s).asks.isSome = true → answersTo s sys.cfg.log = responsesTo s served) ∧
      List.Forall₂ (Reports site clients) sys.world.stderr (served.reverse.filter failed) := by
  obtain ⟨served, w, hI⟩ := h.kept
  refine ⟨served, hI.order, hI.answered, ?_⟩
  rw [hI.world.resolve_right hcut]
  exact hI.history.ledger (fun _ _ _ _ _ hr => log_step hversion hr) hfresh

/-- A client that asks for the root, where Flux has a rank that is no number. -/
def rootClient : Client := ⟨some 1000, some { command := "GET".toList, path := "/api/v1/".toList }⟩

def unrankedTurns : List (Turn (.fixed { attrs := .ok ['?'] })) :=
  let response := rootClient.asks.elim [] fun req =>
    (written (handler (.fixed { attrs := .ok ['?'] }) .fixed req) { flux := () }).flatMap Wire.bytes
  [.main .next, .main .next, .main .next, .main .ready, .main .next, .main (.accept (some 1000)),
    .main .next, .main .next, .main .next, .main .request, .main (.respond response),
    .main (.send response.length), .main .next, .main .next, .main .next]

theorem failures_reported_unranked :
    ∃ sys, Machine.run (System.step .fixed fun _ => rootClient)
      { cfg := Cfg.serve (some 1000) none 0 false, world := { flux := () } } unrankedTurns = some sys ∧
    sys.world.stderr.length = 1 ∧
    ∃ served : List (Sock × List Wire), served.Pairwise (fun later earlier => earlier.1 < later.1) ∧
      (∀ s, rootClient.asks.isSome = true → answersTo s sys.cfg.log = responsesTo s served) ∧
      List.Forall₂ (Reports .fixed fun _ => rootClient) sys.world.stderr (served.reverse.filter failed) := by
  have hruns : (Machine.run (System.step .fixed fun _ => rootClient)
      { cfg := Cfg.serve (some 1000) none 0 false, world := { flux := () } } unrankedTurns).any
        (fun sys => sys.world.stderr.length = 1 && ¬ CutShort sys.cfg.log) = true := by
    decide +kernel
  obtain ⟨sys, hrun, hall⟩ := (Option.any_eq_true _ _).mp hruns
  obtain ⟨hone, hcut⟩ := Bool.and_eq_true_iff.mp hall
  refine ⟨sys, hrun, of_decide_eq_true hone, ?_⟩
  refine failures_reported (T := none) rfl ?_ ⟨0, false, _, hrun⟩ (of_decide_eq_true hcut)
  intro s req hreq
  cases hreq
  rfl

end FluxRest
