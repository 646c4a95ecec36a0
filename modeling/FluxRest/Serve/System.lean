import FluxRest.Serve.Answered
import FluxRest.Response
import FluxRest.Trace
import FluxRest.Serial

/-! The whole server: the serve loop with the handler and its state, and the clients it serves. -/
namespace FluxRest
open Py Py.Http

variable {F : Flux} (site : Site)

/-! A handler that raises has done nothing, where the client is there to be answered. -/

/-- A method that returns, or leaves the state as it was. -/
def Clean (x : Proc (World F) Unit) : Prop := ∀ w err, (x.run w).1 = .error err → (x.run w).2 = w

theorem clean_of_ok {x : Proc (World F) Unit} (h : ∀ w, (x.run w).1 = .ok ()) : Clean x := by
  intro w err herr
  rw [h w] at herr
  cases herr

theorem clean_throw (err : Exc) : Clean (throw err : Proc (World F) Unit) := fun _ _ _ => rfl

section Clean

variable {req : Request} (hw : req.writeError = none)
include hw

theorem ok_send {reply : Reply} (hp : Plain reply) (w : World F) :
    ((send F site req reply).run w).1 = .ok () := by
  cases hv : req.http09 with
  | true => rw [run_send_http09 site hw hv]
  | false => rw [run_send site hw hv hp]

theorem ok_guarded {path : Str} {call : RouteCall F} {route : Proc (World F) Reply}
    (hp : Proc.Returns Plain route) (w : World F) :
    ((do send F site req (← guardRoute F path call route) : Proc (World F) Unit).run w).1 = .ok () := by
  obtain ⟨reply, hr⟩ := guardRoute_returns path call route w
  have hplain := plain_guardRoute path call hp w reply hr
  rcases hg : (guardRoute F path call route).run w with ⟨r, w'⟩
  rw [hg] at hr
  subst hr
  rw [Proc.run_bind_ok hg]
  exact ok_send site hw hplain w'

theorem clean_sendError (command : Option Str) (code : ℕ) (message : Str) :
    Clean (sendError F site req command code message) := by
  apply clean_of_ok
  intro w
  have hwrite : ∀ x (w : World F), (write F req x).run w = (.ok (), { w with wire := w.wire ++ [x] }) :=
    fun x w => run_write hw x w
  have hbody : ∀ (c : Prop) [Decidable c] (x : Wire) (w : World F),
      ((if c then write F req x else return () : Proc (World F) Unit).run w).1 = .ok () := by
    intro c _ x w
    split_ifs
    · rw [hwrite]
    · rfl
  simp only [sendError, endHeaders, Option.getD_none, List.all_nil, if_true]
  by_cases hv : req.http09
  · rw [if_pos hv, Proc.run_bind_ok (Proc.run_pure () w)]
    exact hbody _ _ w
  · rw [if_neg hv, Proc.run_bind_ok (hwrite _ w)]
    exact hbody _ _ _

theorem clean_doGET : Clean (doGET F site (tables F site) req) := by
  unfold doGET
  dsimp only
  cases hl : lookup (before '?' req.path) (tables F site).routes with
  | some route =>
    refine clean_of_ok (ok_guarded site hw ?_)
    obtain rfl | rfl := tables_routes hl
    · rw [unpackPair_root]
      exact plain_root site
    · rw [unpackPair_health]
      exact plain_health
  | none =>
    rcases parseJobPath F (before '?' req.path) with message | _ | jobid
    · exact clean_of_ok (ok_send site hw (plain_of_none rfl))
    · exact clean_of_ok (ok_send site hw (plain_of_none rfl))
    · refine clean_of_ok (ok_guarded site hw ?_)
      rw [unpackPair_jobsState]
      exact plain_jobsState jobid

theorem clean_doPOST : Clean (doPOST F site (tables F site) req) := by
  unfold doPOST
  dsimp only
  cases hl : lookup (before '?' req.path) (tables F site).postRoutes with
  | none => exact clean_of_ok (ok_send site hw (plain_of_none rfl))
  | some route =>
    obtain ⟨-, rfl⟩ := tables_postRoutes hl
    rcases hr : readBody site req with err | reply | fields
    · exact clean_throw err
    · obtain ⟨message, rfl⟩ := readBody_refused_plain site hr
      exact clean_of_ok (ok_send site hw (plain_of_none rfl))
    · exact clean_of_ok (ok_guarded site hw (plain_jobsSubmit site fields))

theorem clean_doDELETE : Clean (doDELETE F site (tables F site) req) := by
  unfold doDELETE
  rcases urlsplit site.hostError req.path with message | parsed
  · exact clean_throw _
  · dsimp only
    rcases parseJobPath F parsed.path with message | _ | jobid
    · exact clean_of_ok (ok_send site hw (plain_of_none rfl))
    · exact clean_of_ok (ok_send site hw (plain_of_none rfl))
    · exact clean_of_ok (ok_guarded site hw (plain_jobsCancel jobid _))

theorem clean_handle : Clean (handleOneRequest F site (tables F site) req) :=
  handleOneRequest_rule (fun _ => clean_doGET site hw) (fun _ _ => clean_doPOST site hw)
    (fun _ _ => clean_doDELETE site hw) fun command code _ message => clean_sendError site hw command code message

end Clean

/-! The serve loop, the handler and the clients. -/

/-- What comes over a connection: the uid that `SO_PEERCRED` reports, and the request, where a line
and headers arrive that can be parsed. -/
structure Client where
  peer : Option ℕ
  request : Option Request

/-- The request as the handler meets it: a client that has gone away shows only as the response is
written, which is a step of the serve loop. -/
def Client.asks (k : Client) : Option Request := k.request.map fun req => { req with writeError := none }

structure System (F : Flux) where
  cfg : Cfg
  world : World F

inductive Turn (F : Flux) where
  | tick (d : ℚ)
  /-- `cut` is the state in which the signal leaves a route that it unwinds. -/
  | signal (signal : Signal) (cut : World F)
  | main (choice : Choice)

def Turn.input : Turn F → Input
  | .tick d => .tick d
  | .signal sig _ => .signal sig
  | .main choice => .main choice

/-- The handler for a request. -/
def handler (F : Flux) (site : Site) (req : Request) : Proc (World F) Unit :=
  handleOneRequest F site (tables F site) req

/-- The bytes that the handler has written when it returns. -/
def outcome (req : Request) (w : World F) : Except Exc Bytes :=
  ((handler F site req).run w).1.map fun _ => (written (handler F site req) w).flatMap Wire.bytes

def Choice.isRequest : Choice → Bool
  | .request => true
  | _ => false

/-- Whether the choice is what the handler does with the request, being at `pc`: it reads the
request, and runs a route or answers at once; `handle_one_request` catches the `TimeoutError` of a
client that has gone silent. -/
def acts (req : Request) (w : World F) : Pc → Choice → Bool
  | .read _, .request => !(ran (handler F site req) w).isEmpty
  | pc, choice =>
    (pc matches .route _ || (ran (handler F site req) w).isEmpty) &&
      match choice, outcome site req w with
      | .respond response, .ok bytes => response = bytes
      | .quit, .error err => err.isA .timeoutError
      | .raises, .error err => !err.isA .timeoutError
      | _, _ => false

namespace Client

/-- A client whose request cannot be parsed never comes to a route. -/
def allows (k : Client) (w : World F) (pc : Pc) (choice : Choice) : Bool :=
  match k.asks with
  | some req => acts site req w pc choice
  | none => !choice.isRequest

/-- The state that the handler leaves once it is through with the request. -/
def leaves (k : Client) (w : World F) (choice : Choice) : World F :=
  match k.asks with
  | some req => if choice.isRequest then w else ((handler F site req).run w).2
  | none => w

end Client

namespace System

variable (clients : Sock → Client) (sys : System F)

/-- Whether the clients and the handler do what the turn says of them. -/
def allows (t : Turn F) : Bool :=
  match sys.cfg.pc, t with
  | .accept, .main (.accept peer) => peer = (clients sys.cfg.next).peer
  | .read s, .main choice | .route s, .main choice =>
    (clients s).allows site sys.world sys.cfg.pc choice
  | _, _ => true

/-- The state of the handler after a turn that takes the loop to `cfg`. -/
def after (t : Turn F) (cfg : Cfg) : World F :=
  match sys.cfg.pc, t with
  | .read s, .main choice | .route s, .main choice => (clients s).leaves site sys.world choice
  | .route s, .signal _ cut => if cfg.pc = .route s then sys.world else cut
  | _, _ => sys.world

def step (t : Turn F) : Option (System F) :=
  if sys.allows site clients t then
    (sys.cfg.step t.input).map fun cfg => { cfg, world := sys.after site clients t cfg }
  else none

/-- The states that the server goes through, from the state `w` on. -/
def Reached (uid : Option ℕ) (T : Option ℚ) (w : World F) (sys : System F) : Prop :=
  ∃ now sigintIgnored,
    Machine.Reaches (step site clients) { cfg := Cfg.serve uid T now sigintIgnored, world := w } sys

/-- What a turn can do. -/
inductive Turns (site : Site) (clients : Sock → Client) (sys : System F) : System F → Prop where
  /-- The time passes, or a signal is ignored. -/
  | still {cfg} (hsrv : cfg.srv = sys.cfg.srv) (hpc : cfg.pc = sys.cfg.pc)
      (hlog : cfg.log = sys.cfg.log) (hnext : cfg.next = sys.cfg.next) :
      Turns site clients sys { sys with cfg }
  | stop {signal w} (hw : w = sys.world ∨ sys.cfg.srv.stopRaises = true ∧ sys.cfg.pc.inWindow = true) :
      Turns site clients sys { cfg := sys.cfg.stop signal, world := w }
  /-- The main thread takes a step that answers no request. -/
  | serve {cfg} (h : sys.cfg.Advances cfg)
      (hpeer : ∀ s peer, cfg.pc = .verify s peer → peer = (clients s).peer)
      (hquiet : ∀ s, (clients s).asks.isSome = true → answersTo s cfg.log = answersTo s sys.cfg.log)
      (hraised : ∀ s req, sys.cfg.pc = .read s ∨ sys.cfg.pc = .route s → (clients s).asks = some req →
        cfg.pc = .route s ∨ ∃ err, outcome site req sys.world = .error err) :
      Turns site clients sys { sys with cfg }
  /-- The handler has answered the request of `s`. -/
  | respond {s req w} (hpc : sys.cfg.pc = .read s ∨ sys.cfg.pc = .route s)
      (hreq : (clients s).asks = some req) (hrun : (handler F site req).run sys.world = (.ok (), w)) :
      Turns site clients sys { world := w, cfg := { sys.cfg with
        pc := .write s ((written (handler F site req) sys.world).flatMap Wire.bytes)
        log := .answer s ((written (handler F site req) sys.world).flatMap Wire.bytes) :: sys.cfg.log } }

variable {site} {clients} {sys} {sys' : System F}

/-- A turn of the server is a step of the serve loop. -/
theorem step_cfg {t : Turn F} (h : sys.step site clients t = some sys') :
    sys.cfg.step t.input = some sys'.cfg := by
  unfold step at h
  split_ifs at h
  obtain ⟨cfg, hcfg, rfl⟩ := Option.map_eq_some_iff.mp h
  exact hcfg

/-- Only where a request is read or its route is run is it answered. -/
theorem answersTo_advance {c c' : Cfg} (h : c.Advances c') {s : Sock} (hread : c.pc ≠ .read s)
    (hroute : c.pc ≠ .route s) : answersTo s c'.log = answersTo s c.log := by
  obtain hq | ⟨_, hpc, -⟩ | ⟨rest, n, -, -, hlog⟩ := h.traffic s
  · exact hq.answers
  · exact absurd hpc (not_or.mpr ⟨hread, hroute⟩)
  · rw [hlog]
    rfl

theorem accept_of_verify {c c' : Cfg} (h : c.Advances c') {s : Sock} {peer : Option ℕ}
    (hpc : c'.pc = .verify s peer) : c.pc = .accept ∧ s = c.next := by
  obtain ⟨hp, -⟩ | ⟨haccept, -, hs, -⟩ := h.proceeds (congrArg Pc.sock hpc)
  · exact absurd hpc (hp.ne_verify s peer)
  · exact ⟨haccept, hs⟩

/-- The handler begins to run a route, or is through with the request. -/
theorem acts_cases {req : Request} {w : World F} {pc : Pc} {choice : Choice}
    (h : acts site req w pc choice = true) : choice = .request ∨
      (∃ response, choice = .respond response ∧ outcome site req w = .ok response) ∨
      (choice = .quit ∨ choice = .raises) ∧ ∃ err, outcome site req w = .error err := by
  unfold acts at h
  split at h
  · exact Or.inl rfl
  · have hend := (Bool.and_eq_true_iff.mp h).2
    split at hend
    · next bytes hbytes _ =>
      rw [← of_decide_eq_true hend] at hbytes
      exact Or.inr (Or.inl ⟨_, rfl, hbytes⟩)
    · next err herr _ => exact Or.inr (Or.inr ⟨Or.inl rfl, err, herr⟩)
    · next err herr _ => exact Or.inr (Or.inr ⟨Or.inr rfl, err, herr⟩)
    · cases hend

theorem outcome_ok {req : Request} {w : World F} {response : Bytes}
    (h : outcome site req w = .ok response) :
    (handler F site req).run w = (.ok (), ((handler F site req).run w).2) ∧
      response = (written (handler F site req) w).flatMap Wire.bytes := by
  unfold outcome at h
  rcases hrun : (handler F site req).run w with ⟨err | _, w'⟩
  · rw [hrun] at h
    cases h
  · rw [hrun] at h
    cases h
    exact ⟨rfl, rfl⟩

theorem outcome_error {req : Request} (hw : req.writeError = none) {w : World F} {err : Exc}
    (h : outcome site req w = .error err) : ((handler F site req).run w).2 = w := by
  have hclean : Clean (handler F site req) := clean_handle site hw
  unfold outcome at h
  rcases hrun : ((handler F site req).run w).1 with err' | _
  · exact hclean w err' hrun
  · rw [hrun] at h
    cases h

theorem writeError_of_asks {k : Client} {req : Request} (h : k.asks = some req) :
    req.writeError = none := by
  obtain ⟨req', -, rfl⟩ := Option.map_eq_some_iff.mp h
  rfl

/-- What the main thread does with a request in hand is what the handler does. -/
theorem turns_request {s : Sock} {req : Request} {choice : Choice} {cfg : Cfg}
    (hpc : sys.cfg.pc = .read s ∨ sys.cfg.pc = .route s) (hreq : (clients s).asks = some req)
    (hacts : acts site req sys.world sys.cfg.pc choice = true) (h : sys.cfg.advance choice = some cfg) :
    Turns site clients sys { cfg, world :=
      if choice.isRequest then sys.world else ((handler F site req).run sys.world).2 } := by
  have hadv := Cfg.advances_of_advance h
  have hpeer : ∀ s' peer, cfg.pc = .verify s' peer → peer = (clients s').peer := by
    intro s' peer hverify
    obtain ⟨haccept, -⟩ := accept_of_verify hadv hverify
    rw [haccept] at hpc
    obtain hpc | hpc := hpc <;> cases hpc
  have hsilent : cfg.log = sys.cfg.log ∨ cfg.log = .ran s :: sys.cfg.log →
      ∀ s', (clients s').asks.isSome = true → answersTo s' cfg.log = answersTo s' sys.cfg.log := by
    rintro (hlog | hlog) s' -
    · rw [hlog]
    · rw [hlog]
      rfl
  have hsame : ∀ s' req', sys.cfg.pc = .read s' ∨ sys.cfg.pc = .route s' →
      (clients s').asks = some req' → s' = s ∧ req' = req := by
    intro s' req' hpc' hreq'
    have heq : s' = s := by
      obtain hpc | hpc := hpc
      · rw [hpc] at hpc'
        obtain hpc' | hpc' := hpc'
        · exact (Pc.read.inj hpc').symm
        · cases hpc'
      · rw [hpc] at hpc'
        obtain hpc' | hpc' := hpc'
        · cases hpc'
        · exact (Pc.route.inj hpc').symm
    subst heq
    rw [hreq] at hreq'
    exact ⟨rfl, (Option.some.inj hreq').symm⟩
  obtain rfl | ⟨response, rfl, hok⟩ | ⟨hend, err, herr⟩ := acts_cases hacts
  · obtain hpc | hpc := hpc
    · simp only [Cfg.advance, hpc] at h
      cases h
      refine .serve hadv hpeer (hsilent (Or.inr rfl)) ?_
      intro s' req' hpc' hreq'
      obtain ⟨rfl, -⟩ := hsame s' req' hpc' hreq'
      exact Or.inl rfl
    · simp only [Cfg.advance, hpc] at h
      cases h
  · obtain ⟨hrun, rfl⟩ := outcome_ok hok
    have hcfg : cfg = { sys.cfg with
        pc := .write s ((written (handler F site req) sys.world).flatMap Wire.bytes)
        log := .answer s ((written (handler F site req) sys.world).flatMap Wire.bytes) :: sys.cfg.log } := by
      obtain hpc | hpc := hpc
      · simp only [Cfg.advance, hpc] at h
        cases h
        rfl
      · simp only [Cfg.advance, hpc] at h
        cases h
        rfl
    rw [hcfg]
    exact .respond hpc hreq hrun
  · rw [outcome_error (writeError_of_asks hreq) herr, ite_self]
    have hraised : ∀ s' req', sys.cfg.pc = .read s' ∨ sys.cfg.pc = .route s' →
        (clients s').asks = some req' →
        cfg.pc = .route s' ∨ ∃ err, outcome site req' sys.world = .error err := by
      intro s' req' hpc' hreq'
      obtain ⟨-, rfl⟩ := hsame s' req' hpc' hreq'
      exact Or.inr ⟨err, herr⟩
    refine .serve hadv hpeer (hsilent (Or.inl ?_)) hraised
    obtain hpc | hpc := hpc
    · obtain rfl | rfl := hend
      · simp only [Cfg.advance, hpc] at h
        cases h
        rfl
      · simp only [Cfg.advance, hpc] at h
        cases h
        rfl
    · obtain rfl | rfl := hend
      · simp only [Cfg.advance, hpc] at h
        cases h
      · simp only [Cfg.advance, hpc] at h
        cases h
        rfl

theorem turns_main {choice : Choice} (h : sys.step site clients (.main choice) = some sys') :
    Turns site clients sys sys' := by
  unfold step at h
  split_ifs at h with hallow
  obtain ⟨cfg, hcfg, rfl⟩ := Option.map_eq_some_iff.mp h
  have hadv := Cfg.advances_of_advance hcfg
  by_cases hpc : ∃ s, sys.cfg.pc = .read s ∨ sys.cfg.pc = .route s
  · obtain ⟨s, hpc⟩ := hpc
    have hallow' : (clients s).allows site sys.world sys.cfg.pc choice = true := by
      unfold allows at hallow
      obtain hpc | hpc := hpc
      · rw [hpc] at hallow ⊢
        exact hallow
      · rw [hpc] at hallow ⊢
        exact hallow
    have hafter : sys.after site clients (.main choice) cfg = (clients s).leaves site sys.world choice := by
      unfold after
      obtain hpc | hpc := hpc
      · rw [hpc]
      · rw [hpc]
    rw [hafter]
    unfold Client.allows at hallow'
    unfold Client.leaves
    cases hreq : (clients s).asks with
    | some req =>
      rw [hreq] at hallow'
      exact turns_request hpc hreq hallow' hcfg
    | none =>
      have hother : ∀ s', (clients s').asks.isSome = true → s' ≠ s := by
        rintro s' hasks rfl
        rw [hreq] at hasks
        cases hasks
      have hnot : ∀ s', (clients s').asks.isSome = true →
          sys.cfg.pc ≠ .read s' ∧ sys.cfg.pc ≠ .route s' := by
        intro s' hasks
        have hne := hother s' hasks
        constructor
        · intro hread
          rw [hread] at hpc
          obtain hpc | hpc := hpc
          · exact hne (Pc.read.inj hpc)
          · cases hpc
        · intro hroute
          rw [hroute] at hpc
          obtain hpc | hpc := hpc
          · cases hpc
          · exact hne (Pc.route.inj hpc)
      refine .serve hadv ?_ ?_ ?_
      · intro s' peer hverify
        obtain ⟨haccept, -⟩ := accept_of_verify hadv hverify
        rw [haccept] at hpc
        obtain hpc | hpc := hpc <;> cases hpc
      · intro s' hasks
        exact answersTo_advance hadv (hnot s' hasks).1 (hnot s' hasks).2
      · intro s' req hpc' hreq'
        obtain ⟨hread, hroute⟩ := hnot s' (by rw [hreq']; rfl)
        exact absurd hpc' (not_or.mpr ⟨hread, hroute⟩)
  · have hnot : ∀ s, sys.cfg.pc ≠ .read s ∧ sys.cfg.pc ≠ .route s := by
      intro s
      exact not_or.mp fun h => hpc ⟨s, h⟩
    have hafter : sys.after site clients (.main choice) cfg = sys.world := by
      unfold after
      split
      · next s _ hpc heq => exact absurd hpc (hnot s).1
      · next s _ hpc heq => exact absurd hpc (hnot s).2
      · next heq => cases heq
      · rfl
    rw [hafter]
    refine .serve hadv ?_ (fun s _ => answersTo_advance hadv (hnot s).1 (hnot s).2)
      fun s _ hpc' => absurd hpc' (not_or.mpr (hnot s))
    intro s peer hverify
    obtain ⟨haccept, rfl⟩ := accept_of_verify hadv hverify
    simp only [Turn.input, Cfg.step, Cfg.advance, haccept] at hcfg
    simp only [allows, haccept] at hallow
    cases choice with
    | accept peer' =>
      cases hcfg
      cases hverify
      exact of_decide_eq_true hallow
    | acceptFails =>
      cases hcfg
      cases hverify
    | _ => cases hcfg

theorem turns_signal {signal : Signal} {cut : World F}
    (h : sys.step site clients (.signal signal cut) = some sys') : Turns site clients sys sys' := by
  unfold step at h
  split_ifs at h
  obtain ⟨cfg, hcfg, rfl⟩ := Option.map_eq_some_iff.mp h
  have hafter : sys.after site clients (.signal signal cut) cfg = sys.world ∨
      ∃ s, sys.cfg.pc = .route s ∧ cfg.pc ≠ .route s := by
    unfold after
    split
    · next hpc heq => cases heq
    · next hpc heq => cases heq
    · next s _ cut' hpc heq =>
      split_ifs with hstill
      · exact Or.inl rfl
      · exact Or.inr ⟨s, hpc, hstill⟩
    · exact Or.inl rfl
  generalize sys.after site clients (.signal signal cut) cfg = w at hafter
  have hdeliver : cfg = sys.cfg.deliver signal := (Option.some.inj hcfg).symm
  obtain hd | hd := sys.cfg.deliver_cases signal
  · rw [hdeliver, hd] at hafter ⊢
    obtain rfl | ⟨s, hpc, hne⟩ := hafter
    · exact .still rfl rfl rfl rfl
    · exact absurd hpc hne
  · rw [hdeliver, hd] at hafter ⊢
    refine .stop ?_
    obtain rfl | ⟨s, hpc, hne⟩ := hafter
    · exact Or.inl rfl
    · right
      rw [Cfg.stop_pc] at hne
      split_ifs at hne with hraises
      · rw [hpc]
        exact ⟨hraises, rfl⟩
      · exact absurd hpc hne

theorem after_tick (d : ℚ) (cfg : Cfg) : sys.after site clients (.tick d) cfg = sys.world := by
  unfold after
  split
  · next heq => cases heq
  · next heq => cases heq
  · next heq => cases heq
  · rfl

theorem step_turns {t : Turn F} (h : sys.step site clients t = some sys') :
    Turns site clients sys sys' := by
  cases t with
  | tick d =>
    unfold step at h
    split_ifs at h
    obtain ⟨cfg, hcfg, rfl⟩ := Option.map_eq_some_iff.mp h
    rw [after_tick]
    simp only [Turn.input, Cfg.step] at hcfg
    split_ifs at hcfg
    cases hcfg
    exact .still rfl rfl rfl rfl
  | signal signal cut => exact turns_signal h
  | main choice => exact turns_main h

end System

end FluxRest
