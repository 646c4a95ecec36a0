import FluxRest.Serve.System

/-! What the clients of the whole server see: requests served one after the other, in the order of
`accept`. -/
namespace FluxRest
open Py Py.Http

variable {F : Flux} {site : Site} {clients : Sock → Client} {uid : Option ℕ} {T : Option ℚ}

/-- The handler answers the request of `s`, found in the state `w`. -/
def Handles (site : Site) (clients : Sock → Client) (w : World F) (s : Sock) (wires : List Wire)
    (w' : World F) : Prop :=
  ∃ req, (clients s).asks = some req ∧ (handler F site req).run w = (.ok (), w') ∧
    written (handler F site req) w = wires

/-- A `KeyboardInterrupt` has been raised while a request was in flight. -/
def CutShort (log : List Obs) : Prop := ∃ signal timer, .handled signal timer true true ∈ log

def Obs.cutsShort : Obs → Bool
  | .handled _ _ true true => true
  | _ => false

theorem any_cutsShort {log : List Obs} : log.any Obs.cutsShort = true ↔ CutShort log := by
  rw [List.any_eq_true]
  constructor
  · intro h
    obtain ⟨o, hmem, ho⟩ := h
    unfold Obs.cutsShort at ho
    split at ho
    · exact ⟨_, _, hmem⟩
    · cases ho
  · intro h
    obtain ⟨signal, timer, hmem⟩ := h
    exact ⟨_, hmem, rfl⟩

instance (log : List Obs) : Decidable (CutShort log) := decidable_of_iff _ any_cutsShort

/-- The bytes of the responses to `s`. -/
def responsesTo (s : Sock) (served : List (Sock × List Wire)) : List Bytes :=
  served.filterMap fun e => if e.1 = s then some (e.2.flatMap Wire.bytes) else none

theorem responsesTo_cons_self (s : Sock) (wires : List Wire) (served : List (Sock × List Wire)) :
    responsesTo s ((s, wires) :: served) = wires.flatMap Wire.bytes :: responsesTo s served :=
  List.filterMap_cons_some (if_pos rfl)

theorem responsesTo_cons_ne {s s' : Sock} (h : s ≠ s') (wires : List Wire)
    (served : List (Sock × List Wire)) :
    responsesTo s' ((s, wires) :: served) = responsesTo s' served :=
  List.filterMap_cons_none (if_neg h)

theorem answersTo_cons_ne {s s' : Sock} (h : s ≠ s') (response : Bytes) (log : List Obs) :
    answersTo s' (.answer s response :: log) = answersTo s' log :=
  List.filterMap_cons_none (if_neg h)

/-- The handler raises at the request of `s`, in the state that those served before it have left. -/
def RaisedAt (site : Site) (clients : Sock → Client) (w₀ : World F) (served : List (Sock × List Wire))
    (s : Sock) (req : Request) : Prop :=
  ∃ newer older t err, served = newer ++ older ∧ (∀ e ∈ newer, s < e.1) ∧ (∀ e ∈ older, e.1 < s) ∧
    Serial.Served (Handles site clients) w₀ older t ∧ outcome site req t = .error err

theorem RaisedAt.cons {w₀ : World F} {served : List (Sock × List Wire)} {s s' : Sock} {req : Request}
    (h : RaisedAt site clients w₀ served s req) (hlt : s < s') (wires : List Wire) :
    RaisedAt site clients w₀ ((s', wires) :: served) s req := by
  obtain ⟨newer, older, t, err, rfl, hnewer, hrest⟩ := h
  exact ⟨(s', wires) :: newer, older, t, err, rfl, List.forall_mem_cons.mpr ⟨hlt, hnewer⟩, hrest⟩

/-- What the server has done is what one does that serves the permitted connections that send a
request, one after the other, as they are accepted. -/
structure Serially (site : Site) (clients : Sock → Client) (uid : Option ℕ) (w₀ : World F)
    (sys : System F) (served : List (Sock × List Wire)) (w : World F) : Prop where
  history : Serial.Served (Handles site clients) w₀ served w
  /-- A route that a signal unwinds may leave another state, but nothing is served after it. -/
  world : sys.world = w ∨ CutShort sys.cfg.log ∧ sys.cfg.pc.leaving = true
  order : served.Pairwise fun later earlier => earlier.1 < later.1
  permitted : ∀ e ∈ served, permits uid (clients e.1).peer = true
  answered : ∀ s, (clients s).asks.isSome = true → answersTo s sys.cfg.log = responsesTo s served
  /-- Before a stop signal, each is answered in its turn, unless the handler raises. -/
  complete : sys.cfg.srv.stopping = false → ∀ s req, s < sys.cfg.next →
    sys.cfg.pc.awaiting ≠ some s → (clients s).asks = some req → permits uid (clients s).peer = true →
      (∃ wires, (s, wires) ∈ served) ∨ RaisedAt site clients w₀ served s req
  sent : ∀ s, sentTo s sys.cfg.log <+: (answersTo s sys.cfg.log).flatten

namespace Cfg

variable {c c' : Cfg}

/-- A client has been sent no more than its response. -/
theorem Reached.sent_within (h : Reached uid T c) (s : Sock) :
    sentTo s c.log <+: (answersTo s c.log).flatten := by
  apply h.invariant
  · intro now ign
    exact ⟨[], rfl⟩
  · intro c d _ hI _
    exact hI
  · intro c signal _ hI
    rw [stop_log]
    exact hI
  · intro c c' hr hI hadv
    obtain hq | ⟨response, hpc, -, hlog⟩ | ⟨rest, n, -, hpc', -⟩ := hadv.traffic s
    · rw [hq.answers, hq.sent]
      exact hI
    · have hawaiting : c.pc.awaiting = some s := by
        obtain hpc | hpc := hpc <;> rw [hpc] <;> rfl
      have hsent : sentTo s c'.log = [] := by
        rw [hlog]
        exact ((hr.delivery s).awaiting hawaiting).2
      rw [hsent]
      exact ⟨_, rfl⟩
    · have hdelivery := (hr.delivery s).advance (fun s' hs => hr.sock_lt hs) hadv
      rw [hdelivery.writing _ hpc', List.flatten_singleton]
      exact List.prefix_append _ _

/-- A connection whose response is to be made is refused, or is being handled, as that ends. -/
theorem Advances.of_awaiting (h : c.Advances c') {s : Sock} (hs : c.pc.awaiting = some s) :
    c'.pc.awaiting = some s ∨ (∃ peer, c.pc = .verify s peer ∧ c.srv.verifyRequest peer = false) ∨
      c.pc = .read s ∨ c.pc = .route s := by
  cases h with
  | moves h =>
    cases h with
    | permit h | enter h =>
      rw [h] at hs
      exact Or.inl hs
    | reject h hv =>
      rw [h] at hs
      cases hs
      exact Or.inr (Or.inl ⟨_, h, hv⟩)
    | quit h =>
      rw [h] at hs
      cases hs
      exact Or.inr (Or.inr (Or.inl h))
    | raises h =>
      obtain h | h := h
      · rw [h] at hs
        cases hs
        exact Or.inr (Or.inr (Or.inl h))
      · rw [h] at hs
        cases hs
        exact Or.inr (Or.inr (Or.inr h))
    | _ h =>
      rw [h] at hs
      cases hs
  | begin h | request h =>
    rw [h] at hs
    exact Or.inl hs
  | respond h =>
    obtain h | h := h
    · rw [h] at hs
      cases hs
      exact Or.inr (Or.inr (Or.inl h))
    · rw [h] at hs
      cases hs
      exact Or.inr (Or.inr (Or.inr h))
  | _ h =>
    rw [h] at hs
    cases hs

theorem Advances.of_lt_next (h : c.Advances c') {s : Sock} (hs : s < c'.next) :
    s < c.next ∨ c'.pc.awaiting = some s := by
  cases h with
  | accept h =>
    obtain hlt | rfl := Nat.lt_succ_iff_lt_or_eq.mp hs
    · exact Or.inl hlt
    · exact Or.inr rfl
  | shutdownRefused | shutdown | shutdownRaised | shutdownUnwound =>
    exact Or.inl (hs.trans_eq (shutdownRequest_frame _).2.1)
  | _ => exact Or.inl hs

theorem leaving_stop (signal : Signal) (h : c.pc.leaving = true) :
    (c.stop signal).pc.leaving = true := by
  rw [stop_pc]
  split_ifs
  · exact Pc.leaving_interrupted _
  · exact h

end Cfg

namespace System

variable {w₀ w : World F} {sys sys' : System F} {served : List (Sock × List Wire)}

/-- The server is a serve loop: what holds of every run of the loop holds of it. -/
theorem Reached.cfg (h : Reached site clients uid T w₀ sys) : Cfg.Reached uid T sys.cfg := by
  obtain ⟨now, ign, h⟩ := h
  refine ⟨now, ign, ?_⟩
  exact h.project fun _ _ _ hstep => step_cfg hstep

/-- What is known of the connection in hand and of those served before it. -/
structure Kept (site : Site) (clients : Sock → Client) (uid : Option ℕ) (w₀ : World F)
    (sys : System F) (served : List (Sock × List Wire)) (w : World F) : Prop where
  history : Serial.Served (Handles site clients) w₀ served w
  world : sys.world = w ∨ CutShort sys.cfg.log
  left : CutShort sys.cfg.log → sys.cfg.pc.leaving = true
  order : served.Pairwise fun later earlier => earlier.1 < later.1
  fresh : ∀ e ∈ served, e.1 < sys.cfg.next
  waiting : ∀ s, sys.cfg.pc.awaiting = some s → ∀ e ∈ served, e.1 < s
  answered : ∀ s, (clients s).asks.isSome = true → answersTo s sys.cfg.log = responsesTo s served
  verify : ∀ s peer, sys.cfg.pc = .verify s peer → peer = (clients s).peer
  allowed : ∀ s, sys.cfg.pc.permitted = some s → permits uid (clients s).peer = true
  permitted : ∀ e ∈ served, permits uid (clients e.1).peer = true
  complete : sys.cfg.srv.stopping = false → ∀ s req, s < sys.cfg.next →
    sys.cfg.pc.awaiting ≠ some s → (clients s).asks = some req → permits uid (clients s).peer = true →
      (∃ wires, (s, wires) ∈ served) ∨ RaisedAt site clients w₀ served s req

theorem Kept.world_eq (hI : Kept site clients uid w₀ sys served w) (hloop : sys.cfg.pc.leaving = false) :
    sys.world = w := by
  refine hI.world.resolve_right fun hcut => ?_
  rw [hI.left hcut] at hloop
  cases hloop

theorem Kept.stop (hI : Kept site clients uid w₀ sys served w) {signal : Signal} {w' : World F}
    (hw : w' = sys.world ∨ sys.cfg.srv.stopRaises = true ∧ sys.cfg.pc.inWindow = true) :
    Kept site clients uid w₀ { cfg := sys.cfg.stop signal, world := w' } served w := by
  have hpc : ∀ pc, (sys.cfg.stop signal).pc = pc → pc.leaving = false → sys.cfg.pc = pc := by
    rintro pc rfl hpc
    exact (Cfg.pc_of_stop hpc).symm
  constructor
  · exact hI.history
  · dsimp only
    rw [Cfg.stop_log]
    obtain rfl | ⟨hraises, hwindow⟩ := hw
    · refine hI.world.imp_right ?_
      rintro ⟨signal', timer, hcut⟩
      exact ⟨signal', timer, List.mem_cons_of_mem _ hcut⟩
    · right
      rw [hraises, hwindow]
      exact ⟨signal, _, List.mem_cons_self⟩
  · rintro ⟨signal', timer, hcut⟩
    rw [Cfg.stop_log] at hcut
    obtain hcut | hcut := List.mem_cons.mp hcut
    · obtain ⟨-, -, hraises, -⟩ := Obs.handled.inj hcut
      dsimp only
      rw [Cfg.stop_pc, if_pos hraises.symm]
      exact Pc.leaving_interrupted _
    · exact Cfg.leaving_stop signal (hI.left ⟨signal', timer, hcut⟩)
  · exact hI.order
  · rw [Cfg.stop_next]
    exact hI.fresh
  · intro s hs
    rw [Cfg.stop_pc] at hs
    split_ifs at hs
    · rw [(Pc.interrupted_left _).1] at hs
      cases hs
    · exact hI.waiting s hs
  · intro s hs
    rw [Cfg.stop_log]
    exact hI.answered s hs
  · intro s peer hs
    exact hI.verify s peer (hpc _ hs rfl)
  · intro s hs
    rw [Cfg.stop_pc] at hs
    split_ifs at hs
    · rw [(Pc.interrupted_neither _).1] at hs
      cases hs
    · exact hI.allowed s hs
  · exact hI.permitted
  · intro hstopping
    rw [Cfg.stop_srv] at hstopping
    cases hstopping

theorem Kept.serve (hI : Kept site clients uid w₀ sys served w) (hr : Cfg.Reached uid T sys.cfg)
    {cfg : Cfg} (h : sys.cfg.Advances cfg)
    (hpeer : ∀ s peer, cfg.pc = .verify s peer → peer = (clients s).peer)
    (hquiet : ∀ s, (clients s).asks.isSome = true → answersTo s cfg.log = answersTo s sys.cfg.log)
    (hraised : ∀ s req, sys.cfg.pc = .read s ∨ sys.cfg.pc = .route s → (clients s).asks = some req →
      cfg.pc = .route s ∨ ∃ err, outcome site req sys.world = .error err) :
    Kept site clients uid w₀ { sys with cfg } served w := by
  constructor
  · exact hI.history
  · refine hI.world.imp_right ?_
    rintro ⟨signal, timer, hcut⟩
    exact ⟨signal, timer, h.mem_log hcut⟩
  · rintro ⟨signal, timer, hcut⟩
    obtain hadds | hcut := h.of_mem_log hcut
    · exact hadds.elim
    · exact (h.leaving (hI.left ⟨signal, timer, hcut⟩)).1
  · exact hI.order
  · intro e he
    exact (hI.fresh e he).trans_le h.next_le
  · intro s hs e he
    obtain hs | ⟨-, rfl⟩ := h.awaiting hs
    · exact hI.waiting s hs e he
    · exact hI.fresh e he
  · intro s hs
    exact (hquiet s hs).trans (hI.answered s hs)
  · exact hpeer
  · intro s hs
    obtain hs | ⟨peer, hverify, hpermits⟩ := h.permitted hs
    · exact hI.allowed s hs
    · rw [hr.verifyRequest] at hpermits
      rw [← hI.verify s peer hverify]
      exact hpermits
  · exact hI.permitted
  · intro hstopping s req hlt hnot hreq hpermits
    rw [h.stopping] at hstopping
    by_cases hawaiting : sys.cfg.pc.awaiting = some s
    · obtain hstill | hat := h.of_awaiting hawaiting
      · exact absurd hstill hnot
      · obtain ⟨peer, hverify, hrefused⟩ | hin := hat
        · rw [hr.verifyRequest, hI.verify s peer hverify, hpermits] at hrefused
          cases hrefused
        · obtain hroute | ⟨err, herr⟩ := hraised s req hin hreq
          · rw [hroute] at hnot
            exact absurd rfl hnot
          · right
            have hloop : sys.cfg.pc.leaving = false := by
              obtain hin | hin := hin <;> rw [hin] <;> rfl
            rw [hI.world_eq hloop] at herr
            have hnewer : ∀ e ∈ ([] : List (Sock × List Wire)), s < e.1 := fun _ he => by cases he
            exact ⟨[], served, w, err, rfl, hnewer, hI.waiting s hawaiting, hI.history, herr⟩
    · refine hI.complete hstopping s req ?_ hawaiting hreq hpermits
      obtain hlt' | haccepted := h.of_lt_next hlt
      · exact hlt'
      · exact absurd haccepted hnot

theorem Kept.respond (hI : Kept site clients uid w₀ sys served w) (hr : Cfg.Reached uid T sys.cfg)
    {s : Sock} {req : Request} {w' : World F} (hpc : sys.cfg.pc = .read s ∨ sys.cfg.pc = .route s)
    (hreq : (clients s).asks = some req) (hrun : (handler F site req).run sys.world = (.ok (), w')) :
    Kept site clients uid w₀ { world := w', cfg := { sys.cfg with
        pc := .write s ((written (handler F site req) sys.world).flatMap Wire.bytes)
        log := .answer s ((written (handler F site req) sys.world).flatMap Wire.bytes) :: sys.cfg.log } }
      ((s, written (handler F site req) sys.world) :: served) w' := by
  have hhand : sys.cfg.pc.sock = some s ∧ sys.cfg.pc.awaiting = some s ∧
      sys.cfg.pc.permitted = some s ∧ sys.cfg.pc.leaving = false := by
    obtain hpc | hpc := hpc <;> rw [hpc] <;> exact ⟨rfl, rfl, rfl, rfl⟩
  obtain ⟨hsock, hawaiting, hpermitted, hloop⟩ := hhand
  have hworld : sys.world = w := hI.world_eq hloop
  constructor
  · exact .cons hI.history ⟨req, hreq, hworld ▸ hrun, by rw [hworld]⟩
  · exact Or.inl rfl
  · rintro ⟨signal, timer, hcut⟩
    obtain hcut | hcut := List.mem_cons.mp hcut
    · cases hcut
    · rw [hI.left ⟨signal, timer, hcut⟩] at hloop
      cases hloop
  · exact List.pairwise_cons.mpr ⟨fun e he => hI.waiting s hawaiting e he, hI.order⟩
  · intro e he
    obtain rfl | he := List.mem_cons.mp he
    · exact hr.sock_lt hsock
    · exact hI.fresh e he
  · intro s' hs'
    cases hs'
  · intro s' hs'
    have hold := hI.answered s' hs'
    by_cases heq : s = s'
    · subst heq
      rw [responsesTo_cons_self, answersTo_cons_answer, hold]
    · rw [responsesTo_cons_ne heq, answersTo_cons_ne heq]
      exact hold
  · intro s' peer hs'
    cases hs'
  · intro s' hs'
    cases hs'
  · intro e he
    obtain rfl | he := List.mem_cons.mp he
    · exact hI.allowed s hpermitted
    · exact hI.permitted e he
  · intro hstopping s' req' hlt _ hreq' hpermits
    by_cases heq : s' = s
    · exact Or.inl ⟨_, by rw [heq]; exact List.mem_cons_self⟩
    · have hnot : sys.cfg.pc.awaiting ≠ some s' := by
        rw [hawaiting]
        exact fun h => heq (Option.some.inj h).symm
      obtain ⟨wires, hmem⟩ | hraised := hI.complete hstopping s' req' hlt hnot hreq' hpermits
      · exact Or.inl ⟨wires, List.mem_cons_of_mem _ hmem⟩
      · have hlt' : s' < s := by
          have hlast : sys.cfg.next = s + 1 := hr.sock_last hsock
          rw [hlast] at hlt
          exact lt_of_le_of_ne (Nat.le_of_lt_succ hlt) heq
        exact Or.inr (hraised.cons hlt' _)

theorem Kept.turn (hI : Kept site clients uid w₀ sys served w) (hr : Cfg.Reached uid T sys.cfg)
    (h : Turns site clients sys sys') : ∃ served' w', Kept site clients uid w₀ sys' served' w' := by
  cases h with
  | still hsrv hpc hlog hnext =>
    refine ⟨served, w, ?_⟩
    constructor
    · exact hI.history
    · dsimp only
      rw [hlog]
      exact hI.world
    · dsimp only
      rw [hlog, hpc]
      exact hI.left
    · exact hI.order
    · dsimp only
      rw [hnext]
      exact hI.fresh
    · dsimp only
      rw [hpc]
      exact hI.waiting
    · dsimp only
      rw [hlog]
      exact hI.answered
    · dsimp only
      rw [hpc]
      exact hI.verify
    · dsimp only
      rw [hpc]
      exact hI.allowed
    · exact hI.permitted
    · dsimp only
      rw [hsrv, hpc, hnext]
      exact hI.complete
  | stop hw => exact ⟨served, w, hI.stop hw⟩
  | serve hadv hpeer hquiet hraised => exact ⟨served, w, hI.serve hr hadv hpeer hquiet hraised⟩
  | respond hpc hreq hrun => exact ⟨_, _, hI.respond hr hpc hreq hrun⟩

theorem Reached.kept (h : Reached site clients uid T w₀ sys) :
    ∃ served w, Kept site clients uid w₀ sys served w := by
  obtain ⟨now, ign, hreaches⟩ := h
  apply hreaches.invariant
  · refine ⟨[], w₀, .nil, Or.inl rfl, ?_, .nil, ?_, ?_, ?_, ?_, ?_, ?_, ?_⟩
    · rintro ⟨signal, timer, hcut⟩
      cases hcut
    · intro e he
      cases he
    · intro s hs
      cases hs
    · intro s _
      rfl
    · intro s peer hs
      cases hs
    · intro s hs
      cases hs
    · intro e he
      cases he
    · intro _ s req hlt
      cases hlt
  · intro u t v hu hI hv
    obtain ⟨served, w, hI⟩ := hI
    exact hI.turn (Reached.cfg ⟨now, ign, hu⟩) (step_turns hv)

end System

/-- In every run of the whole server, for all clients and all signals: the permitted connections that
send a request are served one after the other, in the order in which they were accepted, each request
handled once and in the state that those before it left, with none left out before a stop signal comes,
unless the handler raises there; each client has been sent no more than the response that was made for
it. -/
theorem serves_serially {w₀ : World F} {sys : System F} (h : System.Reached site clients uid T w₀ sys) :
    ∃ served w, Serially site clients uid w₀ sys served w := by
  obtain ⟨served, w, hI⟩ := h.kept
  exact ⟨served, w, hI.history, hI.world.imp_right fun hcut => ⟨hcut, hI.left hcut⟩, hI.order,
    hI.permitted, hI.answered, hI.complete, fun s => h.cfg.sent_within s⟩

/-! What a client that may not connect sends plays no part. -/

namespace System

/-- The request of a client bears on a turn only where it is in hand. -/
theorem step_congr {clients clients' : Sock → Client} {sys : System F}
    (hpeer : ∀ s, (clients s).peer = (clients' s).peer)
    (hreq : ∀ s, sys.cfg.pc = .read s ∨ sys.cfg.pc = .route s → (clients s).asks = (clients' s).asks)
    (t : Turn F) : sys.step site clients t = sys.step site clients' t := by
  have hallows : sys.allows site clients t = sys.allows site clients' t := by
    unfold allows
    split
    · rw [hpeer]
    · next _ s choice hpc =>
      unfold Client.allows
      rw [hreq s (Or.inl hpc)]
    · next _ s choice hpc =>
      unfold Client.allows
      rw [hreq s (Or.inr hpc)]
    · rfl
  have hafter : sys.after site clients t = sys.after site clients' t := by
    funext cfg
    unfold after
    split
    · next _ s choice hpc =>
      unfold Client.leaves
      rw [hreq s (Or.inl hpc)]
    · next _ s choice hpc =>
      unfold Client.leaves
      rw [hreq s (Or.inr hpc)]
    · rfl
    · rfl
  unfold step
  rw [hallows, hafter]

end System

/-- The whole server runs alike whatever the clients that may not connect send: every sequence of
turns leads to the same state, of the loop, of Flux, and of what each client was sent. -/
theorem refused_unheard {clients clients' : Sock → Client} (hpeer : ∀ s, (clients s).peer = (clients' s).peer)
    (hreq : ∀ s, permits uid (clients s).peer = true → (clients s).request = (clients' s).request)
    (now : ℚ) (sigintIgnored : Bool) (w₀ : World F) (turns : List (Turn F)) :
    Machine.run (System.step site clients) ⟨Cfg.serve uid T now sigintIgnored, w₀⟩ turns =
      Machine.run (System.step site clients') ⟨Cfg.serve uid T now sigintIgnored, w₀⟩ turns := by
  apply Machine.run_congr
  intro sys t hreaches
  have hreached : System.Reached site clients uid T w₀ sys := ⟨now, sigintIgnored, hreaches⟩
  obtain ⟨served, w, hI⟩ := hreached.kept
  refine System.step_congr hpeer ?_ t
  intro s hpc
  have hpermitted : sys.cfg.pc.permitted = some s := by
    obtain hpc | hpc := hpc <;> rw [hpc] <;> rfl
  rw [Client.asks, Client.asks, hreq s (hI.allowed s hpermitted)]

/-- `GET /api/v1/health` of the user that may connect. -/
def healthClient : Client := ⟨some 1000, some { command := "GET".toList, path := "/api/v1/health".toList }⟩

/-- A connection is accepted and served, and a second one accepted. -/
def healthTurns : List (Turn (.fixed {})) :=
  let health : Request := { command := "GET".toList, path := "/api/v1/health".toList }
  let response := (written (handler (.fixed {}) .fixed health) { flux := () }).flatMap Wire.bytes
  let accept := [.main .next, .main .next, .main .next, .main .ready, .main .next,
    .main (.accept (some 1000)), .main .next, .main .next]
  accept ++ [.main .next, .main .request, .main (.respond response), .main (.send response.length),
    .main .next, .main .next, .main .next] ++ accept

theorem serves_serially_health : ∃ sys, Machine.run (System.step .fixed fun _ => healthClient)
      { cfg := Cfg.serve (some 1000) none 0 false, world := { flux := () } } healthTurns = some sys ∧
    ∃ served w, Serially .fixed (fun _ => healthClient) (some 1000) { flux := () } sys served w := by
  have hruns : (Machine.run (System.step .fixed fun _ => healthClient)
      { cfg := Cfg.serve (some 1000) none 0 false, world := { flux := () } } healthTurns).isSome = true := by
    decide +kernel
  obtain ⟨sys, hrun⟩ := Option.isSome_iff_exists.mp hruns
  exact ⟨sys, hrun, serves_serially (T := none) ⟨0, false, _, hrun⟩⟩

/-- The same from another user, who asks for something else. -/
def strangers (s : Sock) : Client :=
  if s = 0 then ⟨some 2000, some { command := "DELETE".toList, path := "/api/v1/jobs/f1".toList }⟩
  else healthClient

theorem refused_unheard_strangers :
    Machine.run (System.step .fixed strangers)
        ⟨Cfg.serve (some 1000) none 0 false, ({ flux := () } : World (.fixed {}))⟩
        [.main .next, .main .next, .main .next, .main .ready, .main .next, .main (.accept (some 2000)), .main .next] =
      Machine.run (System.step .fixed fun s => { strangers s with
          request := if s = 0 then none else healthClient.request })
        ⟨Cfg.serve (some 1000) none 0 false, { flux := () }⟩
        [.main .next, .main .next, .main .next, .main .ready, .main .next, .main (.accept (some 2000)), .main .next] := by
  refine refused_unheard (fun _ => rfl) (fun s hpermits => ?_) 0 false _ _
  by_cases hs : s = 0
  · subst hs
    cases hpermits
  · simp only [strangers, if_neg hs]

end FluxRest
