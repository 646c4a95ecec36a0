import FluxRest.Serve.Ledger
import FluxRest.Serve.Quiet

/-! The socket unit of a user, and the services that systemd starts for it, one after the other: the
socket stays, and with it the connections that wait. -/
namespace FluxRest
open Py Py.Http

variable {F : Flux} (site : Site) (uid : Option ℕ) (T : Option ℚ) (queue : ℕ → Client)

structure Activation (F : Flux) where
  now : ℚ
  /-- What Flux is while no service runs. -/
  flux : F.State
  /-- How many clients have connected to the socket. -/
  arrived : ℕ := 0
  service : Option (System F) := none
  /-- The services that have ended, the latest first. -/
  past : List (System F) := []

/-- How many connections these services have accepted. -/
def accepted (services : List (System F)) : ℕ := (services.map fun sys => sys.cfg.next).sum

/-- The clients as a service numbers them that begins after `base` connections. -/
def clientsFrom (base : ℕ) (s : Sock) : Client := queue (base + s)

def System.tick (d : ℚ) (sys : System F) : System F :=
  { sys with cfg := { sys.cfg with now := sys.cfg.now + d } }

namespace Activation

inductive Event (F : Flux) where
  | connect
  | tick (d : ℚ)
  /-- Others change what is in Flux. -/
  | others (flux : F.State)
  | activate
  | turn (t : Turn F)
  | exit
  /-- `cut` is the state in which a route that is running is left. -/
  | kill (cut : World F)

variable (a : Activation F)

/-- The services so far, the latest first. -/
def services : List (System F) := a.service.toList ++ a.past

/-- Whether the listening socket lets the service do this: `select` and `accept` see the connections
that wait there. -/
def offers : Turn F → Bool
  | .tick _ => false
  | .main .ready | .main (.accept _) => accepted a.services < a.arrived
  | .main .elapsed => accepted a.services = a.arrived
  | _ => true

/-- What the service leaves as it ends. -/
def ended (sys : System F) : Activation F :=
  { a with flux := sys.world.flux, service := none, past := sys :: a.past }

def step : Event F → Option (Activation F)
  | .connect => some { a with arrived := a.arrived + 1 }
  | .tick d =>
    if 0 ≤ d then some { a with now := a.now + d, service := a.service.map (System.tick d) } else none
  | .others flux => some { a with flux }
  -- systemd starts the service where none runs and a connection waits
  | .activate =>
    if a.service.isNone ∧ accepted a.past < a.arrived then
      some { a with service := some { cfg := .serve uid T a.now false, world := { flux := a.flux } } }
    else none
  | .turn t =>
    match a.service with
    | some sys =>
      if a.offers t then
        (sys.step site (clientsFrom queue (accepted a.past)) t).map fun sys => { a with service := some sys }
      else none
    | none => none
  | .exit =>
    match a.service with
    | some sys => if sys.cfg.pc.done then some (a.ended sys) else none
    | none => none
  | .kill cut =>
    a.service.map fun sys => a.ended { sys with world :=
      match sys.cfg.pc with
      | .route _ => cut
      | _ => sys.world }

/-- The states that the unit goes through, from when the socket is set up. -/
def Reached (a : Activation F) : Prop :=
  ∃ now flux, Machine.Reaches (step site uid T queue) { now, flux } a

/-- Each of the services ran as a server does, on the connections that those before it left; one that
was killed in a route may have left any state. -/
def Chain : List (System F) → Prop
  | [] => True
  | sys :: past => Chain past ∧ ∃ flux world,
    System.Reached site (clientsFrom queue (accepted past)) uid T { flux } { sys with world } ∧
      (world = sys.world ∨ ∃ s, sys.cfg.pc = .route s)

end Activation

/-- The connections that were accepted, the latest first. -/
def accepts (log : List Obs) : List (Sock × Option ℕ) := log.filterMap fun
  | .accepted s peer _ => some (s, peer)
  | _ => none

namespace Cfg

variable {c c' : Cfg}

theorem Advances.accepts (h : c.Advances c') :
    c'.next = c.next ∧ FluxRest.accepts c'.log = FluxRest.accepts c.log ∨
      ∃ peer, c'.pc = .verify c.next peer ∧ c'.next = c.next + 1 ∧
        FluxRest.accepts c'.log = (c.next, peer) :: FluxRest.accepts c.log := by
  have hshutdown : ∀ s, (c.shutdownRequest s).next = c.next ∧
      FluxRest.accepts (c.shutdownRequest s).log = FluxRest.accepts c.log :=
    fun s => ⟨(shutdownRequest_frame s).2.1, c.filterMap_shutdownRequest (fun _ _ _ => rfl) s⟩
  cases h with
  | accept h peer => exact Or.inr ⟨peer, rfl, rfl, rfl⟩
  | reapTimeout | reap => exact Or.inl ⟨rfl, c.filterMap_reap fun _ _ _ => rfl⟩
  | shutdownRefused | shutdown | shutdownRaised | shutdownUnwound => exact Or.inl (hshutdown _)
  | _ => exact Or.inl ⟨rfl, rfl⟩

end Cfg

namespace System

variable {site} {uid} {T} {clients : Sock → Client} {w₀ : World F} {sys : System F}

/-- A server accepts the clients in their order. -/
theorem Reached.accepts (h : Reached site clients uid T w₀ sys) :
    FluxRest.accepts sys.cfg.log =
      ((List.range sys.cfg.next).map fun s => (s, (clients s).peer)).reverse := by
  obtain ⟨now, ign, hreaches⟩ := h
  apply hreaches.invariant
  · rfl
  · intro u t v hu hI hv
    cases step_turns hv with
    | still _ _ hlog hnext =>
      dsimp only
      rw [hlog, hnext]
      exact hI
    | stop =>
      dsimp only
      rw [Cfg.stop_log, Cfg.stop_next]
      exact hI
    | respond => exact hI
    | serve hadv hpeer =>
      obtain ⟨hnext, hlog⟩ | ⟨peer, hpc, hnext, hlog⟩ := hadv.accepts
      · rw [hlog, hnext]
        exact hI
      · rw [hlog, hnext, hI, hpeer _ _ hpc, List.range_succ, List.map_append, List.reverse_append]
        rfl

/-- A server that has come to its end for want of a connection has closed each connection once. -/
theorem Reached.all_closed (h : Reached site clients uid T w₀ sys) (hs : sys.cfg.srv.stopping = false)
    (hpc : sys.cfg.pc.done = true) {s : Sock} (hlt : s < sys.cfg.next) : closes s sys.cfg.log = 1 := by
  have hr : Cfg.Reached uid T sys.cfg := h.cfg
  have hundisturbed : Cfg.Undisturbed sys.cfg.log := by
    intro signal timer inWindow hmem
    rw [hr.haltKept.stopping ⟨_, hmem, rfl⟩] at hs
    cases hs
  have hplace : sys.cfg.pc.leaving = true ∧ sys.cfg.pc.owned = none := by
    cases hexited : sys.cfg.pc with
    | exited raised => exact ⟨rfl, rfl⟩
    | _ =>
      rw [hexited] at hpc
      cases hpc
  have hidle : sys.cfg.srv.idle = true := (hr.idleExit.leaving hplace.1 hs).1
  have hsum := (hr.ledger hundisturbed).balanced s
  rw [(hr.waitKept.exit hidle).1, hplace.2, if_neg nofun, if_pos hlt] at hsum
  exact hsum

variable {sys' : System F}

theorem Reached.next (h : Reached site clients uid T w₀ sys) {t : Turn F}
    (ht : sys.step site clients t = some sys') : Reached site clients uid T w₀ sys' := by
  obtain ⟨now, ign, h⟩ := h
  exact ⟨now, ign, Machine.Reaches.next h ht⟩

theorem step_tick {d : ℚ} (hd : 0 ≤ d) : sys.step site clients (.tick d) = some (sys.tick d) := by
  have hallows : sys.allows site clients (.tick d) = true := by
    unfold allows
    split
    · next heq => cases heq
    · next heq => cases heq
    · next heq => cases heq
    · rfl
  unfold step
  rw [if_pos hallows]
  simp [Turn.input, Cfg.step, hd, tick, after_tick]

/-- One connection more is accepted only by the call of `accept`. -/
theorem step_next {t : Turn F} (h : sys.step site clients t = some sys') :
    sys'.cfg.next = sys.cfg.next ∨
      sys'.cfg.next = sys.cfg.next + 1 ∧ ∃ peer, t = .main (.accept peer) := by
  have hcfg := step_cfg h
  cases t with
  | tick d =>
    simp only [Turn.input, Cfg.step] at hcfg
    split_ifs at hcfg
    left
    rw [← Option.some.inj hcfg]
  | signal signal cut =>
    left
    rw [← Option.some.inj hcfg]
    obtain hd | hd := sys.cfg.deliver_cases signal
    · rw [hd]
    · rw [hd, Cfg.stop_next]
  | main choice =>
    have hadv : sys.cfg.Advances sys'.cfg := Cfg.advances_of_advance hcfg
    obtain ⟨hnext, -⟩ | ⟨peer, hpc, hnext, -⟩ := hadv.accepts
    · exact Or.inl hnext
    · right
      refine ⟨hnext, ?_⟩
      obtain ⟨haccept, -⟩ := accept_of_verify hadv hpc
      simp only [Turn.input, Cfg.step, Cfg.advance, haccept] at hcfg
      cases choice with
      | accept peer' => exact ⟨peer', rfl⟩
      | acceptFails =>
        rw [← Option.some.inj hcfg] at hpc
        cases hpc
      | _ => cases hcfg

end System

theorem accepted_cons (sys : System F) (past : List (System F)) :
    accepted (sys :: past) = accepted past + sys.cfg.next := by
  simp [accepted, Nat.add_comm]

namespace Activation

variable {site} {uid} {T} {queue} {a b : Activation F}

theorem services_of_none (h : a.service = none) : a.services = a.past := by
  rw [services, h]
  rfl

theorem services_of_some {sys : System F} (h : a.service = some sys) : a.services = sys :: a.past := by
  rw [services, h]
  rfl

/-! When an event can happen, and what it leads to. -/

theorem tick_of_step {d : ℚ} (h : a.step site uid T queue (.tick d) = some b) :
    0 ≤ d ∧ b = { a with now := a.now + d, service := a.service.map (System.tick d) } := by
  simp only [step] at h
  split_ifs at h with hd
  exact ⟨hd, (Option.some.inj h).symm⟩

theorem activate_of_step (h : a.step site uid T queue .activate = some b) :
    a.service = none ∧ accepted a.past < a.arrived ∧
      b = { a with service := some { cfg := .serve uid T a.now false, world := { flux := a.flux } } } := by
  simp only [step] at h
  split_ifs at h with hready
  exact ⟨Option.isNone_iff_eq_none.mp hready.1, hready.2, (Option.some.inj h).symm⟩

theorem turn_of_step {t : Turn F} (h : a.step site uid T queue (.turn t) = some b) :
    ∃ sys sys', a.service = some sys ∧ a.offers t = true ∧
      sys.step site (clientsFrom queue (accepted a.past)) t = some sys' ∧
      b = { a with service := some sys' } := by
  simp only [step] at h
  cases hs : a.service with
  | none =>
    rw [hs] at h
    cases h
  | some sys =>
    simp only [hs] at h
    split_ifs at h with hoffers
    obtain ⟨sys', hstep, hb⟩ := Option.map_eq_some_iff.mp h
    exact ⟨sys, sys', rfl, hoffers, hstep, hb.symm⟩

theorem exit_of_step (h : a.step site uid T queue .exit = some b) :
    ∃ sys, a.service = some sys ∧ sys.cfg.pc.done = true ∧ b = a.ended sys := by
  simp only [step] at h
  cases hs : a.service with
  | none =>
    rw [hs] at h
    cases h
  | some sys =>
    simp only [hs] at h
    split_ifs at h with hdone
    exact ⟨sys, rfl, hdone, (Option.some.inj h).symm⟩

/-- What one event can do to the services. -/
inductive Goes (site : Site) (uid : Option ℕ) (T : Option ℚ) (queue : ℕ → Client)
    (a b : Activation F) : Prop where
  | still (hservice : b.service = a.service) (hpast : b.past = a.past) (harrived : a.arrived ≤ b.arrived)
  | start {now flux} (hnone : a.service = none)
      (hservice : b.service = some { cfg := .serve uid T now false, world := { flux } })
      (hpast : b.past = a.past) (harrived : b.arrived = a.arrived)
  | turn {sys sys' t} (hsome : a.service = some sys) (hservice : b.service = some sys')
      (ht : sys.step site (clientsFrom queue (accepted a.past)) t = some sys')
      (hoffers : ∀ peer, t = .main (.accept peer) → accepted a.services < a.arrived)
      (hpast : b.past = a.past) (harrived : b.arrived = a.arrived)
  | ends {sys world} (hsome : a.service = some sys) (hservice : b.service = none)
      (hpast : b.past = { sys with world } :: a.past)
      (hworld : sys.world = world ∨ ∃ s, sys.cfg.pc = .route s) (harrived : b.arrived = a.arrived)

theorem Goes.arrived_le (h : Goes site uid T queue a b) : a.arrived ≤ b.arrived := by
  cases h with
  | still _ _ harrived => exact harrived
  | start _ _ _ harrived | turn _ _ _ _ _ harrived | ends _ _ _ _ harrived => exact harrived.ge

theorem step_goes {e : Event F} (h : a.step site uid T queue e = some b) : Goes site uid T queue a b := by
  cases e with
  | connect =>
    cases h
    exact .still rfl rfl (Nat.le_succ _)
  | others flux =>
    cases h
    exact .still rfl rfl (le_refl _)
  | tick d =>
    obtain ⟨hd, rfl⟩ := tick_of_step h
    cases hs : a.service with
    | none => exact .still (by rw [hs]; rfl) rfl (le_refl _)
    | some sys => exact .turn hs (by rfl) (System.step_tick hd) nofun rfl rfl
  | activate =>
    obtain ⟨hnone, -, rfl⟩ := activate_of_step h
    exact .start hnone rfl rfl rfl
  | turn t =>
    obtain ⟨sys, sys', hs, hoffers, hstep, rfl⟩ := turn_of_step h
    refine .turn hs rfl hstep ?_ rfl rfl
    rintro peer rfl
    exact of_decide_eq_true hoffers
  | exit =>
    obtain ⟨sys, hs, -, rfl⟩ := exit_of_step h
    exact .ends hs rfl rfl (Or.inl rfl) rfl
  | kill cut =>
    obtain ⟨sys, hs, rfl⟩ := Option.map_eq_some_iff.mp h
    refine .ends hs rfl rfl ?_ rfl
    split
    · next s hroute => exact Or.inr ⟨s, hroute⟩
    · exact Or.inl rfl

theorem step_arrived {e : Event F} (he : e ≠ .connect) (h : a.step site uid T queue e = some b) :
    b.arrived = a.arrived := by
  cases e with
  | connect => exact absurd rfl he
  | others flux =>
    cases h
    rfl
  | tick d => rw [(tick_of_step h).2]
  | activate => rw [(activate_of_step h).2.2]
  | turn t =>
    obtain ⟨sys, sys', -, -, -, rfl⟩ := turn_of_step h
    rfl
  | exit =>
    obtain ⟨sys, -, -, rfl⟩ := exit_of_step h
    rfl
  | kill cut =>
    obtain ⟨sys, -, rfl⟩ := Option.map_eq_some_iff.mp h
    rfl

/-- What holds of the unit at any time. -/
structure Kept (site : Site) (uid : Option ℕ) (T : Option ℚ) (queue : ℕ → Client)
    (a : Activation F) : Prop where
  past : Chain site uid T queue a.past
  service : ∀ sys, a.service = some sys →
    ∃ flux, System.Reached site (clientsFrom queue (accepted a.past)) uid T { flux } sys
  waiting : accepted a.services ≤ a.arrived

theorem Kept.goes (hI : Kept site uid T queue a) (h : Goes site uid T queue a b) :
    Kept site uid T queue b := by
  cases h with
  | still hservice hpast harrived =>
    constructor
    · rw [hpast]
      exact hI.past
    · rw [hservice, hpast]
      exact hI.service
    · have hsame : b.services = a.services := by rw [services, services, hservice, hpast]
      rw [hsame]
      exact hI.waiting.trans harrived
  | start hnone hservice hpast harrived =>
    have hwaiting := hI.waiting
    rw [services_of_none hnone] at hwaiting
    constructor
    · rw [hpast]
      exact hI.past
    · intro sys hsys
      rw [hservice] at hsys
      cases hsys
      exact ⟨_, _, false, [], rfl⟩
    · rw [services_of_some hservice, accepted_cons, hpast, harrived]
      exact hwaiting
  | turn hsome hservice ht hoffers hpast harrived =>
    have hwaiting := hI.waiting
    rw [services_of_some hsome, accepted_cons] at hwaiting hoffers
    obtain ⟨flux, hr⟩ := hI.service _ hsome
    constructor
    · rw [hpast]
      exact hI.past
    · intro sys' hsys
      rw [hservice] at hsys
      cases hsys
      rw [hpast]
      exact ⟨flux, hr.next ht⟩
    · rw [services_of_some hservice, accepted_cons, hpast, harrived]
      obtain hnext | ⟨hnext, peer, rfl⟩ := System.step_next ht
      · rw [hnext]
        exact hwaiting
      · rw [hnext]
        exact hoffers peer rfl
  | ends hsome hservice hpast hworld harrived =>
    have hwaiting := hI.waiting
    rw [services_of_some hsome, accepted_cons] at hwaiting
    obtain ⟨flux, hr⟩ := hI.service _ hsome
    constructor
    · rw [hpast]
      exact ⟨hI.past, flux, _, hr, hworld⟩
    · intro sys' hsys
      rw [hservice] at hsys
      cases hsys
    · rw [services_of_none hservice, hpast, accepted_cons, harrived]
      exact hwaiting

theorem Reached.kept (h : Reached site uid T queue a) : Kept site uid T queue a := by
  obtain ⟨now, flux, h⟩ := h
  apply h.invariant
  · refine ⟨trivial, ?_, le_refl _⟩
    intro sys hsys
    cases hsys
  · intro u e v _ hI hv
    exact hI.goes (step_goes hv)

theorem Kept.chain (hI : Kept site uid T queue a) : Chain site uid T queue a.services := by
  cases hs : a.service with
  | none =>
    rw [services_of_none hs]
    exact hI.past
  | some sys =>
    rw [services_of_some hs]
    obtain ⟨flux, hr⟩ := hI.service sys hs
    refine ⟨hI.past, flux, sys.world, ?_, Or.inl rfl⟩
    exact hr

/-! What the services have done, taken together. -/

/-- The peers of the connections accepted, in their order. -/
def peersOf : List (System F) → List (Option ℕ)
  | [] => []
  | sys :: past => peersOf past ++ ((accepts sys.cfg.log).map Prod.snd).reverse

/-- The jobs created and the cancellations requested, in their order. -/
def doneBy : List (System F) → List (FluxCall F)
  | [] => []
  | sys :: past => doneBy past ++ sys.world.done

/-- The responses to the `n`-th client. -/
def answersAt (n : ℕ) : List (System F) → List Bytes
  | [] => []
  | sys :: past => if accepted past ≤ n then answersTo (n - accepted past) sys.cfg.log else answersAt n past

/-- The service that accepted the `n`-th client has still to make its response. -/
def Awaits (n : ℕ) : List (System F) → Prop
  | [] => False
  | sys :: past => if accepted past ≤ n then sys.cfg.pc.awaiting = some (n - accepted past) else Awaits n past

/-- What one service did: Flux as it began, and the requests that it has served. -/
structure Shift (F : Flux) where
  flux : F.State
  served : List (Sock × List Wire)

/-- Each service began without a handle, and has served the requests of its shift one after the other,
each in the state that the ones before it had left. -/
def Worked (site : Site) (queue : ℕ → Client) : List (System F) → List (Shift F) → Prop
  | [], shifts => shifts = []
  | sys :: past, shifts => ∃ shift earlier, shifts = shift :: earlier ∧ Worked site queue past earlier ∧
      Serial.Served (Handles site (clientsFrom queue (accepted past))) { flux := shift.flux }
        shift.served sys.world

/-- The numbers that a service gives its connections, as those of the socket. -/
def numbered (base : ℕ) (served : List (Sock × List Wire)) : List (ℕ × List Wire) :=
  served.map fun e => (base + e.1, e.2)

/-- The requests that the services have served, the latest first. -/
def servedBy : List (System F) → List (Shift F) → List (ℕ × List Wire)
  | _ :: past, shift :: shifts => numbered (accepted past) shift.served ++ servedBy past shifts
  | _, _ => []

/-- The handler raised at the request of the `n`-th client, in the state that those whom the same
service had served before have left. -/
def RaisedIn (site : Site) (queue : ℕ → Client) (n : ℕ) (req : Request) :
    List (System F) → List (Shift F) → Prop
  | _ :: past, shift :: shifts =>
    if accepted past ≤ n then
      RaisedAt site (clientsFrom queue (accepted past)) { flux := shift.flux } shift.served
        (n - accepted past) req
    else RaisedIn site queue n req past shifts
  | _, _ => False

/-- What the services have done is what one does that serves the permitted clients that send a request
one after the other, as they connect. -/
structure InTurn (site : Site) (uid : Option ℕ) (queue : ℕ → Client) (services : List (System F))
    (shifts : List (Shift F)) : Prop where
  worked : Worked site queue services shifts
  order : (servedBy services shifts).Pairwise fun later earlier => earlier.1 < later.1
  accepted : ∀ e ∈ servedBy services shifts, e.1 < accepted services
  permitted : ∀ e ∈ servedBy services shifts, permits uid (queue e.1).peer = true
  answered : ∀ n, (queue n).asks.isSome = true →
    answersAt n services = responsesTo n (servedBy services shifts)
  complete : (∀ sys ∈ services, sys.cfg.srv.stopping = false) → ∀ n req,
    n < FluxRest.accepted services → ¬ Awaits n services → (queue n).asks = some req →
      permits uid (queue n).peer = true →
        (∃ wires, (n, wires) ∈ servedBy services shifts) ∨ RaisedIn site queue n req services shifts
  told : (∀ e ∈ servedBy services shifts, ∀ req, (queue e.1).asks = some req → req.http09 = false) →
    List.Forall₂ Names (doneBy services) ((servedBy services shifts).reverse.filter tells)

theorem Chain.of_mem {past : List (System F)} (h : Chain site uid T queue past) {sys : System F}
    (hmem : sys ∈ past) : ∃ base, ∃ flux : F.State, ∃ world : World F,
      System.Reached site (clientsFrom queue base) uid T { flux } { sys with world } := by
  induction past with
  | nil => cases hmem
  | cons sys' past ih =>
    obtain ⟨hpast, flux, world, hr, -⟩ := h
    obtain rfl | hmem := List.mem_cons.mp hmem
    · exact ⟨_, flux, world, hr⟩
    · exact ih hpast hmem

theorem Chain.peers {services : List (System F)} (h : Chain site uid T queue services) :
    peersOf services = (List.range (accepted services)).map fun n => (queue n).peer := by
  induction services with
  | nil => rfl
  | cons sys past ih =>
    obtain ⟨hpast, flux, world, hr, -⟩ := h
    have haccepts : accepts sys.cfg.log =
        ((List.range sys.cfg.next).map fun s => (s, (queue (accepted past + s)).peer)).reverse := hr.accepts
    rw [peersOf, ih hpast, haccepts, accepted_cons, List.range_add, List.map_append, List.map_reverse,
      List.reverse_reverse, List.map_map, List.map_map]
    rfl

theorem responsesTo_append (n : ℕ) (newer older : List (ℕ × List Wire)) :
    responsesTo n (newer ++ older) = responsesTo n newer ++ responsesTo n older :=
  List.filterMap_append

theorem responsesTo_numbered {base n : ℕ} (h : base ≤ n) (served : List (Sock × List Wire)) :
    responsesTo n (numbered base served) = responsesTo (n - base) served := by
  rw [responsesTo, responsesTo, numbered, List.filterMap_map]
  congr 1
  funext e
  have hiff : ∀ s : ℕ, base + s = n ↔ s = n - base := by
    intro s
    omega
  simp [hiff]

theorem responsesTo_eq_nil {n : ℕ} {served : List (ℕ × List Wire)} (h : ∀ e ∈ served, e.1 ≠ n) :
    responsesTo n served = [] := by
  rw [responsesTo, List.filterMap_eq_nil_iff]
  intro e he
  exact if_neg (h e he)

theorem forall₂_numbered {base : ℕ} {calls : List (FluxCall F)} {served : List (Sock × List Wire)}
    (h : List.Forall₂ Names calls (served.reverse.filter tells)) :
    List.Forall₂ Names calls ((numbered base served).reverse.filter tells) := by
  have hsame : (numbered base served).reverse.filter tells =
      (served.reverse.filter tells).map fun e => (base + e.1, e.2) := by
    rw [numbered, ← List.map_reverse, List.filter_map]
    rfl
  rw [hsame, List.forall₂_map_right_iff]
  refine h.imp ?_
  rintro c e (⟨hstatus, hlocation⟩ | ⟨hstatus⟩)
  · exact .created hstatus hlocation
  · exact .cancelled hstatus

theorem mem_numbered {base : ℕ} {served : List (Sock × List Wire)} {e : ℕ × List Wire}
    (h : e ∈ numbered base served) : ∃ s wires, (s, wires) ∈ served ∧ e = (base + s, wires) := by
  obtain ⟨⟨s, wires⟩, hmem, rfl⟩ := List.mem_map.mp h
  exact ⟨s, wires, hmem, rfl⟩

/-- Each of them was answered by the handler. -/
theorem Worked.handled {services : List (System F)} {shifts : List (Shift F)}
    (h : Worked site queue services shifts) {e : ℕ × List Wire} (he : e ∈ servedBy services shifts) :
    ∃ w w' : World F, Handles site queue w e.1 e.2 w' := by
  induction services generalizing shifts with
  | nil => cases he
  | cons sys past ih =>
    obtain ⟨shift, earlier, rfl, hpast, hserved⟩ := h
    obtain he | he := List.mem_append.mp he
    · obtain ⟨s, wires, hmem, rfl⟩ := mem_numbered he
      obtain ⟨newer, older, hsplit⟩ := List.append_of_mem hmem
      rw [hsplit] at hserved
      obtain ⟨t, v, -, hhandles⟩ := hserved.entry
      exact ⟨t, v, hhandles⟩
    · exact ih hpast he

theorem clientsFrom_sub {base n : ℕ} (h : base ≤ n) : clientsFrom queue base (n - base) = queue n := by
  rw [clientsFrom, Nat.add_sub_cancel' h]

/-- What the latest service answers comes after what those before it did. -/
theorem InTurn.answered_cons {past : List (System F)} {shifts : List (Shift F)}
    (hI : InTurn site uid queue past shifts) {flux : F.State} {sys : System F}
    {latest : List (Sock × List Wire)} {w : World F}
    (hk : System.Kept site (clientsFrom queue (FluxRest.accepted past)) uid { flux } sys latest w) (n : ℕ)
    (hasks : (queue n).asks.isSome = true) :
    answersAt n (sys :: past) = responsesTo n (servedBy (sys :: past) (⟨flux, latest⟩ :: shifts)) := by
  rw [answersAt, servedBy, responsesTo_append]
  split_ifs with hn
  · have holder : responsesTo n (servedBy past shifts) = [] :=
      responsesTo_eq_nil fun e he => ((hI.accepted e he).trans_le hn).ne
    rw [responsesTo_numbered hn, holder, List.append_nil]
    apply hk.answered
    rw [clientsFrom_sub hn]
    exact hasks
  · have hnone : responsesTo n (numbered (FluxRest.accepted past) latest) = [] := by
      apply responsesTo_eq_nil
      intro e he
      obtain ⟨s, wires, -, rfl⟩ := mem_numbered he
      exact fun heq => hn (heq ▸ Nat.le_add_right _ s)
    rw [hnone, List.nil_append]
    exact hI.answered n hasks

theorem InTurn.complete_cons {past : List (System F)} {shifts : List (Shift F)}
    (hI : InTurn site uid queue past shifts) {flux : F.State} {sys : System F}
    {latest : List (Sock × List Wire)} {w : World F}
    (hk : System.Kept site (clientsFrom queue (FluxRest.accepted past)) uid { flux } sys latest w)
    (hstopping : ∀ sys' ∈ sys :: past, sys'.cfg.srv.stopping = false) (n : ℕ) (req : Request)
    (hlt : n < FluxRest.accepted (sys :: past)) (hawaits : ¬ Awaits n (sys :: past))
    (hreq : (queue n).asks = some req) (hpermits : permits uid (queue n).peer = true) :
    (∃ wires, (n, wires) ∈ servedBy (sys :: past) (⟨flux, latest⟩ :: shifts)) ∨
      RaisedIn site queue n req (sys :: past) (⟨flux, latest⟩ :: shifts) := by
  rw [Awaits] at hawaits
  rw [accepted_cons] at hlt
  rw [RaisedIn]
  split_ifs at hawaits ⊢ with hn
  · have hclient : clientsFrom queue (FluxRest.accepted past) (n - FluxRest.accepted past) = queue n :=
      clientsFrom_sub hn
    rw [← hclient] at hreq hpermits
    have hshift := hk.complete (hstopping sys List.mem_cons_self) (n - FluxRest.accepted past) req
      (Nat.sub_lt_left_of_lt_add hn hlt) hawaits hreq hpermits
    obtain ⟨wires, hmem⟩ | hraised := hshift
    · refine Or.inl ⟨wires, List.mem_append_left _ (List.mem_map.mpr ⟨_, hmem, ?_⟩)⟩
      exact Prod.ext (Nat.add_sub_cancel' hn) rfl
    · exact Or.inr hraised
  · have hearlier := hI.complete (fun sys' hmem => hstopping sys' (List.mem_cons_of_mem _ hmem)) n req
      (not_le.mp hn) hawaits hreq hpermits
    obtain ⟨wires, hmem⟩ | hraised := hearlier
    · exact Or.inl ⟨wires, List.mem_append_right _ hmem⟩
    · exact Or.inr hraised

theorem InTurn.cons {past : List (System F)} {shifts : List (Shift F)}
    (hI : InTurn site uid queue past shifts) {flux : F.State} {sys : System F}
    (hr : System.Reached site (clientsFrom queue (FluxRest.accepted past)) uid T { flux } sys)
    (hcut : ¬ CutShort sys.cfg.log) : ∃ shift, InTurn site uid queue (sys :: past) (shift :: shifts) := by
  obtain ⟨latest, w, hk⟩ := hr.kept
  refine ⟨⟨flux, latest⟩, ?_⟩
  constructor
  · refine ⟨_, shifts, rfl, hI.worked, ?_⟩
    rw [hk.world.resolve_right hcut]
    exact hk.history
  · rw [servedBy, List.pairwise_append]
    refine ⟨?_, hI.order, ?_⟩
    · rw [numbered, List.pairwise_map]
      exact hk.order.imp fun h => Nat.add_lt_add_left h _
    · intro e he e' he'
      obtain ⟨s, wires, -, rfl⟩ := mem_numbered he
      exact (hI.accepted e' he').trans_le (Nat.le_add_right _ _)
  · intro e he
    rw [accepted_cons]
    obtain he | he := List.mem_append.mp he
    · obtain ⟨s, wires, hmem, rfl⟩ := mem_numbered he
      exact Nat.add_lt_add_left (hk.fresh _ hmem) _
    · exact (hI.accepted e he).trans_le (Nat.le_add_right _ _)
  · intro e he
    obtain he | he := List.mem_append.mp he
    · obtain ⟨s, wires, hmem, rfl⟩ := mem_numbered he
      exact hk.permitted _ hmem
    · exact hI.permitted e he
  · exact hI.answered_cons hk
  · exact hI.complete_cons hk
  · intro hversion
    rw [doneBy, servedBy, List.reverse_append, List.filter_append]
    have hlatest := hk.told rfl (fun e he => hversion (FluxRest.accepted past + e.1, e.2)
      (List.mem_append_left _ (List.mem_map_of_mem he))) hcut
    have hearlier := hI.told fun e he => hversion e (List.mem_append_right _ he)
    exact List.rel_append hearlier (forall₂_numbered hlatest)

theorem Chain.inTurn {past : List (System F)} (h : Chain site uid T queue past)
    (hcut : ∀ sys ∈ past, ¬ CutShort sys.cfg.log)
    (hkilled : ∀ sys ∈ past, ∀ s, sys.cfg.pc ≠ .route s) :
    ∃ shifts, InTurn site uid queue past shifts := by
  induction past with
  | nil =>
    refine ⟨[], rfl, .nil, nofun, nofun, ?_, ?_, fun _ => .nil⟩
    · intro n _
      rfl
    · intro _ n req hlt
      cases hlt
  | cons sys past ih =>
    obtain ⟨hpast, flux, world, hr, hworld⟩ := h
    obtain ⟨shifts, hI⟩ := ih hpast (fun sys' hmem => hcut sys' (List.mem_cons_of_mem _ hmem))
      fun sys' hmem => hkilled sys' (List.mem_cons_of_mem _ hmem)
    obtain rfl | ⟨s, hroute⟩ := hworld
    · obtain ⟨shift, hshift⟩ := hI.cons hr (hcut sys List.mem_cons_self)
      exact ⟨_, hshift⟩
    · exact absurd hroute (hkilled sys List.mem_cons_self s)

theorem Reached.inTurn (h : Reached site uid T queue a) (hcut : ∀ sys ∈ a.services, ¬ CutShort sys.cfg.log)
    (hkilled : ∀ sys ∈ a.past, ∀ s, sys.cfg.pc ≠ .route s) :
    ∃ shifts, InTurn site uid queue a.services shifts := by
  have hI := h.kept
  cases hs : a.service with
  | none =>
    rw [services_of_none hs] at hcut ⊢
    exact hI.past.inTurn hcut hkilled
  | some sys =>
    rw [services_of_some hs] at hcut ⊢
    obtain ⟨flux, hr⟩ := hI.service sys hs
    obtain ⟨shifts, hshifts⟩ :=
      hI.past.inTurn (fun sys' hmem => hcut sys' (List.mem_cons_of_mem _ hmem)) hkilled
    obtain ⟨shift, hshift⟩ := hshifts.cons hr (hcut sys List.mem_cons_self)
    exact ⟨_, hshift⟩

end Activation

variable {site} {uid} {T} {queue}

/-- Over any number of services that are started for a socket, end on idle, are stopped or are killed:
the clients that may connect and send a request are served one after the other, in the order in which
they connected, each once, and none is left out between two services; and what was done in Flux is what
they were told, if they speak `HTTP/1.x`. -/
theorem served_in_turn {a : Activation F} (h : Activation.Reached site uid T queue a)
    (hcut : ∀ sys ∈ a.services, ¬ CutShort sys.cfg.log)
    (hkilled : ∀ sys ∈ a.past, ∀ s, sys.cfg.pc ≠ .route s) :
    ∃ shifts, Activation.InTurn site uid queue a.services shifts := h.inTurn hcut hkilled

/-- No connection to the socket is lost or taken twice as services come and go: those accepted so far
are the first that connected, in their order, and a service that has ended for want of a connection has
closed each that it accepted, once. -/
theorem accepted_in_turn {a : Activation F} (h : Activation.Reached site uid T queue a) :
    accepted a.services ≤ a.arrived ∧
      Activation.peersOf a.services = (List.range (accepted a.services)).map (fun n => (queue n).peer) ∧
      ∀ sys ∈ a.past, sys.cfg.srv.stopping = false → sys.cfg.pc.done = true →
        ∀ s < sys.cfg.next, closes s sys.cfg.log = 1 := by
  have hI := h.kept
  refine ⟨hI.waiting, hI.chain.peers, ?_⟩
  intro sys hmem hs hpc s hlt
  obtain ⟨base, flux, world, hr⟩ := hI.past.of_mem hmem
  exact hr.all_closed hs hpc hlt

/-- The user submits a job, waits, and asks for the health of the server. -/
def submitsThenAsks : ℕ → Client
  | 0 => submissionClient
  | _ => healthClient

/-- The first is served, the service ends for want of another, and a second service is started. -/
def idleExit : List (Activation.Event (.fixed {})) :=
  let response := submissionClient.asks.elim [] fun req =>
    (written (handler (.fixed {}) .fixed req) { flux := () }).flatMap Wire.bytes
  let next : Activation.Event (.fixed {}) := .turn (.main .next)
  [.connect, .activate, next, next, next, .turn (.main .ready), next, .turn (.main (.accept (some 1000))),
    next, next, next, .turn (.main .request), .turn (.main (.respond response)),
    .turn (.main (.send response.length)), next, next, next, next, next, next, .tick 300,
    .turn (.main .elapsed), next, next, next, next, next, .exit, .connect, .activate, next, next, next,
    .turn (.main .ready), next, .turn (.main (.accept (some 1000)))]

theorem idleExit_runs : ∃ a, Machine.run (Activation.step .fixed (some 1000) (some 300) submitsThenAsks)
      { now := 0, flux := () } idleExit = some a ∧ a.past.length = 1 ∧
    (∀ sys ∈ a.services, ¬ CutShort sys.cfg.log) ∧
    (a.past.all fun sys => sys.cfg.pc.done) = true := by
  have hruns : (Machine.run (Activation.step .fixed (some 1000) (some 300) submitsThenAsks)
      { now := 0, flux := () } idleExit).any (fun a => a.past.length = 1 &&
        (∀ sys ∈ a.services, ¬ CutShort sys.cfg.log) &&
        (a.past.all fun sys => sys.cfg.pc.done)) = true := by
    decide +kernel
  obtain ⟨a, hrun, hall⟩ := (Option.any_eq_true _ _).mp hruns
  obtain ⟨hall, hdone⟩ := Bool.and_eq_true_iff.mp hall
  obtain ⟨hone, hcut⟩ := Bool.and_eq_true_iff.mp hall
  exact ⟨a, hrun, of_decide_eq_true hone, of_decide_eq_true hcut, hdone⟩

theorem accepted_in_turn_idleExit :
    ∃ a, Machine.run (Activation.step .fixed (some 1000) (some 300) submitsThenAsks)
      { now := 0, flux := () } idleExit = some a ∧ accepted a.services ≤ a.arrived ∧
      Activation.peersOf a.services =
        (List.range (accepted a.services)).map (fun n => (submitsThenAsks n).peer) ∧
      ∀ sys ∈ a.past, sys.cfg.srv.stopping = false → sys.cfg.pc.done = true →
        ∀ s < sys.cfg.next, closes s sys.cfg.log = 1 := by
  obtain ⟨a, hrun, -⟩ := idleExit_runs
  have hreached : Activation.Reached .fixed (some 1000) (some 300) submitsThenAsks a :=
    ⟨0, (), idleExit, hrun⟩
  exact ⟨a, hrun, accepted_in_turn hreached⟩

theorem served_in_turn_idleExit :
    ∃ a, Machine.run (Activation.step .fixed (some 1000) (some 300) submitsThenAsks)
      { now := 0, flux := () } idleExit = some a ∧ a.past.length = 1 ∧
      ∃ shifts, Activation.InTurn .fixed (some 1000) submitsThenAsks a.services shifts := by
  obtain ⟨a, hrun, hone, hcut, hdone⟩ := idleExit_runs
  have hreached : Activation.Reached .fixed (some 1000) (some 300) submitsThenAsks a :=
    ⟨0, (), idleExit, hrun⟩
  refine ⟨a, hrun, hone, served_in_turn hreached hcut ?_⟩
  intro sys hmem s hroute
  have hpc := List.all_eq_true.mp hdone sys hmem
  rw [hroute] at hpc
  cases hpc

end FluxRest
