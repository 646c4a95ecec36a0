import FluxRest.Serve.Activation

/-! A connection that waits at the socket is taken up, whatever the service is doing: it may be serving
another, be about to exit for want of a connection, be on its way out, or not run at all. -/
namespace FluxRest
open Py Py.Http

namespace Cfg

variable {c c' : Cfg}

/-- The loop is left, or will be at the next test of its condition. -/
def ending (c : Cfg) : Bool := c.pc.leaving || c.srv.stopping || c.srv.idle

/-- How the service stands to a connection that waits: it takes it up, or comes to do so, or exits; or
it has found none, and may exit for that. -/
def phase (c : Cfg) : ℕ :=
  match c.pc with
  | .reap | .accept => 0
  | .handleTimeout => 4
  | _ => if c.ending then 3 else 1

theorem Advances.of_ending (h : c.Advances c') (hpc : c.pc ≠ .handleTimeout) (he : c'.ending = true) :
    c.ending = true := by
  unfold ending at he ⊢
  rw [h.stopping] at he
  obtain hidle | ⟨htimeout, -⟩ := h.srv_idle
  · rw [hidle] at he
    cases hl : c'.pc.leaving with
    | false =>
      rw [hl, Bool.false_or] at he
      rw [Bool.or_assoc, he, Bool.or_true]
    | true =>
      obtain hleaving | ⟨-, -, -, hdone⟩ := h.of_leaving hl
      · rw [hleaving]
        rfl
      · simp only [Bool.or_eq_true]
        tauto
  · exact absurd htimeout hpc

theorem Advances.of_reap (h : c.Advances c') (hpc : c.pc = .reap) : c'.pc = .accept := by
  cases h with
  | reap => rfl
  | moves h =>
    cases h with
    | raises h => obtain h | h := h <;> rw [hpc] at h <;> cases h
    | _ h =>
      rw [hpc] at h
      cases h
  | respond h => obtain h | h := h <;> rw [hpc] at h <;> cases h
  | _ h =>
    rw [hpc] at h
    cases h

theorem phase_le_four (c : Cfg) : c.phase ≤ 4 := by
  unfold phase
  split
  · omega
  · omega
  · omega
  · split_ifs <;> omega

theorem Advances.phase_le (h : c.Advances c') (hselect : ∀ start timeout, c.pc ≠ .select start timeout)
    (haccept : c.pc ≠ .accept) : c'.phase ≤ c.phase := by
  have hbound : c'.pc = .reap ∨ c'.pc = .accept ∨ c'.phase = if c'.ending then 3 else 1 := by
    cases hpc' : c'.pc with
    | reap => exact Or.inl rfl
    | accept => exact Or.inr (Or.inl rfl)
    | handleTimeout =>
      obtain ⟨start, timeout, hpc, -⟩ := h.to_handleTimeout hpc'
      exact absurd hpc (hselect start _)
    | _ => exact Or.inr (Or.inr (by rw [phase, hpc']))
  have hzero : ∀ {d : Cfg}, d.pc = .reap ∨ d.pc = .accept → d.phase = 0 := by
    intro d hd
    obtain hd | hd := hd <;> rw [phase, hd]
  obtain hpc' | hpc' | hphase := hbound
  · rw [hzero (Or.inl hpc')]
    exact Nat.zero_le _
  · rw [hzero (Or.inr hpc')]
    exact Nat.zero_le _
  · by_cases htimeout : c.pc = .handleTimeout
    · have hfour : c.phase = 4 := by rw [phase, htimeout]
      rw [hfour]
      exact phase_le_four c'
    · by_cases hreap : c.pc = .reap
      · rw [hzero (Or.inr (h.of_reap hreap))]
        exact Nat.zero_le _
      · have hphase' : c.phase = if c.ending then 3 else 1 := by
          unfold phase
          split
          · next hpc => exact absurd hpc hreap
          · next hpc => exact absurd hpc haccept
          · next hpc => exact absurd hpc htimeout
          · rfl
        rw [hphase, hphase']
        cases he : c'.ending with
        | true =>
          rw [h.of_ending htimeout he]
        | false =>
          rw [if_neg Bool.false_ne_true]
          split_ifs <;> omega

/-- What is left to do before the connection is taken up. -/
def effort (c : Cfg) : ℕ ×ₗ ℕ ×ₗ ℕ := toLex (c.phase, toLex (c.pc.rank, c.backlog))

theorem Advances.effort_lt (h : c.Advances c')
    (hselect : (∃ start timeout, c.pc = .select start timeout) → c'.pc = .reap)
    (haccept : c.pc ≠ .accept) : c'.effort < c.effort := by
  unfold effort
  rw [Prod.Lex.toLex_lt_toLex, Prod.Lex.toLex_lt_toLex]
  by_cases hpc : ∃ start timeout, c.pc = .select start timeout
  · left
    have hzero : c'.phase = 0 := by rw [phase, hselect hpc]
    obtain ⟨start, timeout, hpc⟩ := hpc
    have hpos : 0 < c.phase := by
      rw [phase, hpc]
      dsimp only
      split_ifs <;> omega
    rw [hzero]
    exact hpos
  · have hnot : ∀ start timeout, c.pc ≠ .select start timeout :=
      fun start timeout heq => hpc ⟨start, timeout, heq⟩
    have hle := h.phase_le hnot haccept
    obtain hselect' | hrank | ⟨hrank, hbacklog⟩ := h.rank
    · exact absurd hselect' hpc
    · obtain hlt | heq := hle.lt_or_eq
      · exact Or.inl hlt
      · exact Or.inr ⟨heq, Or.inl hrank⟩
    · obtain hlt | heq := hle.lt_or_eq
      · exact Or.inl hlt
      · exact Or.inr ⟨heq, Or.inr ⟨hrank, hbacklog⟩⟩

theorem advance_to_route {choice : Choice} (h : c.advance choice = some c') {s : Sock}
    (hpc : c'.pc = .route s) : c.pc = .read s ∧ choice = .request := by
  have hread : c.pc = .read s := by
    obtain ⟨hproceeds, -⟩ | ⟨-, ⟨peer, hverify⟩, -⟩ :=
      (advances_of_advance h).proceeds (congrArg Pc.sock hpc)
    · rw [hpc] at hproceeds
      generalize c.pc = pc at hproceeds
      cases hproceeds with
      | request => rfl
      | writeFails _ h => obtain h | h := h <;> cases h
    · rw [hpc] at hverify
      cases hverify
  refine ⟨hread, ?_⟩
  cases choice with
  | request => rfl
  | respond | quit | raises =>
    simp only [advance, hread] at h
    rw [← Option.some.inj h] at hpc
    cases hpc
  | _ =>
    simp only [advance, hread] at h
    cases h

end Cfg

namespace System

variable {F : Flux} {site : Site} {uid : Option ℕ} {T : Option ℚ} {clients : Sock → Client}
  {w₀ : World F} {sys sys' : System F}

/-- The request in hand runs a route, which has not run yet. -/
def Running (site : Site) (clients : Sock → Client) (s : Sock) (w : World F) : Prop :=
  ∃ req, (clients s).asks = some req ∧ (ran (handler F site req) w).isEmpty = false

theorem step_running {t : Turn F} (h : sys.step site clients t = some sys') {s : Sock}
    (hpc : sys'.cfg.pc = .route s) (hI : sys.cfg.pc = .route s → Running site clients s sys.world) :
    Running site clients s sys'.world := by
  have hstep := h
  unfold step at hstep
  split_ifs at hstep with hallow
  obtain ⟨cfg, hcfg, rfl⟩ := Option.map_eq_some_iff.mp hstep
  dsimp only at hpc ⊢
  cases t with
  | tick d =>
    simp only [Turn.input, Cfg.step] at hcfg
    split_ifs at hcfg
    cases hcfg
    rw [after_tick]
    exact hI hpc
  | signal signal cut =>
    have hdeliver : cfg = sys.cfg.deliver signal := (Option.some.inj hcfg).symm
    have hroute : sys.cfg.pc = .route s := by
      obtain hd | hd := sys.cfg.deliver_cases signal
      · rw [← hpc, hdeliver, hd]
      · rw [← hpc, hdeliver, hd]
        refine (Cfg.pc_of_stop ?_).symm
        rw [← hd, ← hdeliver, hpc]
        rfl
    simp only [after, hroute, hpc, if_true]
    exact hI hroute
  | main choice =>
    obtain ⟨hread, rfl⟩ := Cfg.advance_to_route hcfg hpc
    simp only [allows, hread, Client.allows] at hallow
    simp only [after, hread, Client.leaves]
    cases hreq : (clients s).asks with
    | none =>
      rw [hreq] at hallow
      cases hallow
    | some req =>
      rw [hreq] at hallow
      refine ⟨req, hreq, ?_⟩
      simpa [acts, Choice.isRequest] using hallow

theorem Reached.running (h : Reached site clients uid T w₀ sys) {s : Sock}
    (hpc : sys.cfg.pc = .route s) : Running site clients s sys.world := by
  obtain ⟨now, ign, h⟩ := h
  revert s
  apply h.invariant
  · intro s hpc
    cases hpc
  · intro u t v _ hI hv s hpc
    exact step_running hv hpc hI

/-- The choices of the handler. -/
def ofHandler : Choice → Bool
  | .request | .respond _ | .quit | .raises => true
  | _ => false

theorem step_main {choice : Choice} (hallow : sys.allows site clients (.main choice) = true)
    {cfg : Cfg} (h : sys.cfg.advance choice = some cfg) :
    ∃ sys', sys.step site clients (.main choice) = some sys' := by
  refine ⟨{ cfg, world := sys.after site clients (.main choice) cfg }, ?_⟩
  unfold step
  rw [if_pos hallow]
  simp [Turn.input, Cfg.step, h]

/-- The handler comes to an end with the request, or to its route. -/
theorem Reached.handles (h : Reached site clients uid T w₀ sys) {s : Sock}
    (hpc : sys.cfg.pc = .read s ∨ sys.cfg.pc = .route s) :
    ∃ choice, ofHandler choice = true ∧ ∃ sys', sys.step site clients (.main choice) = some sys' := by
  obtain hpc | hpc := hpc
  · have hstep : ∀ choice, ofHandler choice = true →
        (clients s).allows site sys.world (.read s) choice = true →
        ∃ choice, ofHandler choice = true ∧ ∃ sys', sys.step site clients (.main choice) = some sys' := by
      intro choice hhandler hallow
      have hadvance : ∃ cfg, sys.cfg.advance choice = some cfg := by
        cases choice with
        | request | respond | quit | raises => simp [Cfg.advance, hpc]
        | _ => cases hhandler
      obtain ⟨cfg, hcfg⟩ := hadvance
      refine ⟨choice, hhandler, step_main ?_ hcfg⟩
      unfold allows
      rw [hpc]
      exact hallow
    cases hreq : (clients s).asks with
    | none =>
      apply hstep .quit rfl
      rw [Client.allows, hreq]
      rfl
    | some req =>
      cases hran : (ran (handler F site req) sys.world).isEmpty with
      | false =>
        apply hstep .request rfl
        simp [Client.allows, hreq, acts, hran]
      | true =>
        cases hout : outcome site req sys.world with
        | ok response =>
          apply hstep (.respond response) rfl
          simp [Client.allows, hreq, acts, hran, hout]
        | error err =>
          cases hquit : err.isA .timeoutError with
          | true =>
            apply hstep .quit rfl
            simp [Client.allows, hreq, acts, hran, hout, hquit]
          | false =>
            apply hstep .raises rfl
            simp [Client.allows, hreq, acts, hran, hout, hquit]
  · obtain ⟨req, hreq, hran⟩ := h.running hpc
    cases hout : outcome site req sys.world with
    | ok response =>
      have hadvance : ∃ cfg, sys.cfg.advance (.respond response) = some cfg := by simp [Cfg.advance, hpc]
      obtain ⟨cfg, hcfg⟩ := hadvance
      refine ⟨.respond response, rfl, step_main ?_ hcfg⟩
      unfold allows
      rw [hpc]
      simp [Client.allows, hreq, acts, hout]
    | error err =>
      -- a handler that raises has run no route
      have hsame := outcome_error (writeError_of_asks hreq) hout
      rw [ran, hsame, List.drop_length] at hran
      cases hran

end System

namespace Activation

variable {F : Flux} {site : Site} {uid : Option ℕ} {T : Option ℚ} {queue : ℕ → Client}
  {a b : Activation F} {n : ℕ}

/-- What systemd and the service do by themselves, where no signal comes and `accept` does not fail. -/
def Event.isOwn : Event F → Bool
  | .activate | .exit => true
  | .turn (.main .acceptFails) => false
  | .turn (.main _) => true
  | _ => false

/-- Any number of clients connect and any time passes, and then systemd or the service takes its next
step. -/
def Moves (site : Site) (uid : Option ℕ) (T : Option ℚ) (queue : ℕ → Client) (a b : Activation F) : Prop :=
  ∃ k d e, e.isOwn = true ∧
    Machine.run (step site uid T queue) a (List.replicate k .connect ++ [.tick d, e]) = some b

/-- The first `n` clients have been accepted, and the service is through with them. -/
def Through (n : ℕ) (a : Activation F) : Prop :=
  n ≤ accepted a.services ∧ ∀ sys, a.service = some sys → sys.cfg.pc.sock = none

/-- What is left to do before the next client that waits is accepted. -/
def effort (a : Activation F) : ℕ ×ₗ ℕ ×ₗ ℕ :=
  match a.service with
  | none => toLex (2, toLex (0, 0))
  | some sys => sys.cfg.effort

def distance (n : ℕ) (a : Activation F) : ℕ ×ₗ ℕ ×ₗ ℕ ×ₗ ℕ := toLex (n - accepted a.services, a.effort)

/-- Clients connect and time passes. -/
def later (a : Activation F) (k : ℕ) (d : ℚ) : Activation F :=
  { a with arrived := a.arrived + k, now := a.now + d, service := a.service.map (System.tick d) }

theorem later_connect (k : ℕ) (d : ℚ) :
    ({ a with arrived := a.arrived + 1 } : Activation F).later k d = a.later (k + 1) d := by
  simp only [later, Nat.add_assoc, Nat.add_comm 1]

theorem run_connect (k : ℕ) (d : ℚ) (e : Event F) :
    Machine.run (step site uid T queue) a (List.replicate k .connect ++ [.tick d, e]) = some b ↔
      0 ≤ d ∧ (a.later k d).step site uid T queue e = some b := by
  induction k generalizing a with
  | zero =>
    rw [List.replicate_zero, List.nil_append, Machine.run_cons]
    simp only [step, Option.ite_none_right_eq_some, Option.some.injEq]
    constructor
    · rintro ⟨t, ⟨hd, rfl⟩, h⟩
      obtain ⟨u, hu, hnil⟩ := Machine.run_cons.mp h
      cases hnil
      exact ⟨hd, hu⟩
    · rintro ⟨hd, h⟩
      exact ⟨_, ⟨hd, rfl⟩, Machine.run_cons.mpr ⟨b, h, rfl⟩⟩
  | succ k ih =>
    rw [List.replicate_succ, List.cons_append, Machine.run_cons]
    constructor
    · rintro ⟨t, ht, h⟩
      cases ht
      rw [ih, later_connect] at h
      exact h
    · intro h
      refine ⟨_, rfl, ?_⟩
      rw [ih, later_connect]
      exact h

theorem Reached.next (h : Reached site uid T queue a) {e : Event F}
    (he : a.step site uid T queue e = some b) : Reached site uid T queue b := by
  obtain ⟨now, flux, h⟩ := h
  exact ⟨now, flux, Machine.Reaches.next h he⟩

theorem Reached.later (h : Reached site uid T queue a) (k : ℕ) {d : ℚ} (hd : 0 ≤ d) :
    Reached site uid T queue (a.later k d) := by
  induction k generalizing a with
  | zero => exact h.next (e := .tick d) (if_pos hd)
  | succ k ih =>
    rw [← later_connect]
    exact ih (h.next (e := .connect) rfl)

theorem accepted_later (k : ℕ) (d : ℚ) : accepted (a.later k d).services = accepted a.services := by
  cases hs : a.service with
  | none => simp [later, services, hs]
  | some sys => simp [later, services, hs, accepted, System.tick]

theorem effort_later (k : ℕ) (d : ℚ) : (a.later k d).effort = a.effort := by
  cases hs : a.service with
  | none => simp [later, effort, hs]
  | some sys =>
    simp only [later, effort, hs, Option.map_some]
    rfl

theorem through_later {k : ℕ} {d : ℚ} : Through n (a.later k d) ↔ Through n a := by
  unfold Through
  rw [accepted_later]
  cases hs : a.service with
  | none => simp [later, hs]
  | some sys => simp [later, hs, System.tick]

/-- A client waits, where those to be accepted have come and the service has none in hand. -/
theorem waits_of_not_through (hn : n ≤ a.arrived) (hnot : ¬ Through n a)
    (hfree : ∀ sys, a.service = some sys → sys.cfg.pc.sock = none) :
    accepted a.services < n ∧ accepted a.services < a.arrived := by
  have hlt : accepted a.services < n := by
    by_contra hle
    exact hnot ⟨not_lt.mp hle, hfree⟩
  exact ⟨hlt, hlt.trans_le hn⟩

/-- The next step of a service that runs brings it closer to the client that waits. -/
theorem turn_effort {sys sys' : System F} {choice : Choice} (hn : n ≤ a.arrived) (hnot : ¬ Through n a)
    (hsome : a.service = some sys) (he : (Event.turn (.main choice) : Event F).isOwn = true)
    (hoffers : a.offers (.main choice) = true)
    (h : sys.step site (clientsFrom queue (accepted a.past)) (.main choice) = some sys') :
    (sys'.cfg.next = sys.cfg.next + 1 ∧ accepted a.services < n) ∨
      sys'.cfg.next = sys.cfg.next ∧ sys'.cfg.effort < sys.cfg.effort := by
  have hcfg : sys.cfg.advance choice = some sys'.cfg := System.step_cfg h
  have hadv : sys.cfg.Advances sys'.cfg := Cfg.advances_of_advance hcfg
  have hwaits : sys.cfg.pc.sock = none → accepted a.services < n ∧ accepted a.services < a.arrived := by
    intro hsock
    apply waits_of_not_through hn hnot
    intro sys'' hsys
    rw [hsome] at hsys
    cases hsys
    exact hsock
  by_cases haccept : sys.cfg.pc = .accept
  · left
    obtain ⟨hlt, -⟩ := hwaits (by rw [haccept]; rfl)
    refine ⟨?_, hlt⟩
    cases choice with
    | accept peer =>
      simp only [Cfg.advance, haccept] at hcfg
      rw [← Option.some.inj hcfg]
    | acceptFails => cases he
    | _ =>
      simp only [Cfg.advance, haccept] at hcfg
      cases hcfg
  · right
    constructor
    · obtain ⟨hnext, -⟩ | ⟨peer, hpc, -⟩ := hadv.accepts
      · exact hnext
      · exact absurd (System.accept_of_verify hadv hpc).1 haccept
    · refine hadv.effort_lt ?_ haccept
      rintro ⟨start, timeout, hpc⟩
      obtain ⟨-, hlt⟩ := hwaits (by rw [hpc]; rfl)
      cases choice with
      | ready =>
        simp only [Cfg.advance, hpc] at hcfg
        rw [← Option.some.inj hcfg]
      | elapsed =>
        have heq : accepted a.services = a.arrived := of_decide_eq_true hoffers
        omega
      | _ =>
        simp only [Cfg.advance, hpc] at hcfg
        cases hcfg

theorem distance_lt {e : Event F} (hn : n ≤ a.arrived) (hnot : ¬ Through n a) (he : e.isOwn = true)
    (h : a.step site uid T queue e = some b) : distance n b < distance n a := by
  unfold distance
  rw [Prod.Lex.toLex_lt_toLex]
  cases e with
  | activate =>
    obtain ⟨hnone, -, rfl⟩ := activate_of_step h
    right
    constructor
    · rw [services_of_none hnone, services_of_some rfl, accepted_cons]
      rfl
    · have heffort : a.effort = toLex (2, toLex (0, 0)) := by rw [effort, hnone]
      rw [heffort]
      exact Prod.Lex.toLex_lt_toLex.mpr (Or.inl (by decide : 1 < 2))
  | exit =>
    obtain ⟨sys, hsome, hdone, rfl⟩ := exit_of_step h
    right
    constructor
    · rw [services_of_some hsome]
      rfl
    · have heffort : a.effort = sys.cfg.effort := by rw [effort, hsome]
      have hphase : sys.cfg.phase = 3 := by
        cases hpc : sys.cfg.pc with
        | exited raised =>
          rw [Cfg.phase, hpc]
          dsimp only
          rw [Cfg.ending, hpc]
          rfl
        | _ =>
          rw [hpc] at hdone
          cases hdone
      rw [heffort, Cfg.effort, hphase]
      exact Prod.Lex.toLex_lt_toLex.mpr (Or.inl (by decide : 2 < 3))
  | turn t =>
    obtain ⟨sys, sys', hsome, hoffers, hstep, rfl⟩ := turn_of_step h
    have heffort : a.effort = sys.cfg.effort := by rw [effort, hsome]
    cases t with
    | main choice =>
      rw [services_of_some (a := { a with service := some sys' }) rfl, services_of_some hsome,
        accepted_cons, accepted_cons]
      obtain ⟨hnext, hlt⟩ | ⟨hnext, heffort'⟩ := turn_effort hn hnot hsome he hoffers hstep
      · left
        rw [services_of_some hsome, accepted_cons] at hlt
        rw [hnext]
        exact Nat.sub_lt_sub_left hlt (Nat.lt_succ_self _)
      · right
        rw [hnext, heffort]
        exact ⟨rfl, heffort'⟩
    | _ => cases he
  | _ => cases he

theorem exists_step (hr : Reached site uid T queue a) (hn : n ≤ a.arrived) (hnot : ¬ Through n a) :
    ∃ e b, e.isOwn = true ∧ a.step site uid T queue e = some b := by
  cases hsome : a.service with
  | none =>
    have hfree : ∀ sys, a.service = some sys → sys.cfg.pc.sock = none := by
      intro sys hsys
      rw [hsome] at hsys
      cases hsys
    obtain ⟨-, hlt⟩ := waits_of_not_through hn hnot hfree
    rw [services_of_none hsome] at hlt
    have hready : a.service.isNone = true ∧ accepted a.past < a.arrived := by
      rw [hsome]
      exact ⟨rfl, hlt⟩
    exact ⟨.activate, _, rfl, if_pos hready⟩
  | some sys =>
    obtain ⟨flux, hsys⟩ := hr.kept.service sys hsome
    have hwaits : sys.cfg.pc.sock = none → accepted a.services < a.arrived := by
      intro hsock
      refine (waits_of_not_through hn hnot ?_).2
      intro sys' hsys'
      rw [hsome] at hsys'
      cases hsys'
      exact hsock
    have hturn : ∀ choice, (Event.turn (.main choice) : Event F).isOwn = true →
        a.offers (.main choice) = true →
        (∃ sys', sys.step site (clientsFrom queue (accepted a.past)) (.main choice) = some sys') →
        ∃ e b, e.isOwn = true ∧ a.step site uid T queue e = some b := by
      rintro choice hown hoffers ⟨sys', hstep⟩
      refine ⟨.turn (.main choice), { a with service := some sys' }, hown, ?_⟩
      simp only [step, hsome]
      rw [if_pos hoffers, hstep]
      rfl
    obtain ⟨cfg, hcfg⟩ | ⟨start, timeout, hpc⟩ | ⟨raised, hpc⟩ := sys.cfg.advance_onward
    · by_cases haccept : sys.cfg.pc = .accept
      · let peer := (clientsFrom queue (accepted a.past) sys.cfg.next).peer
        have hadvance : ∃ cfg, sys.cfg.advance (.accept peer) = some cfg := by simp [Cfg.advance, haccept]
        obtain ⟨cfg', hcfg'⟩ := hadvance
        apply hturn (.accept peer) rfl (decide_eq_true (hwaits (by rw [haccept]; rfl)))
        refine System.step_main ?_ hcfg'
        unfold System.allows
        rw [haccept]
        exact decide_eq_true rfl
      · by_cases hhand : ∃ s, sys.cfg.pc = .read s ∨ sys.cfg.pc = .route s
        · obtain ⟨s, hpc⟩ := hhand
          obtain ⟨choice, hhandler, hstep⟩ := hsys.handles hpc
          refine hturn choice ?_ ?_ hstep
          · cases choice <;> first | rfl | cases hhandler
          · cases choice <;> first | rfl | cases hhandler
        · have honward : sys.cfg.pc.onward = .next ∨ sys.cfg.pc.onward = .writeFails true := by
            cases hpc : sys.cfg.pc with
            | accept => exact absurd hpc haccept
            | read s => exact absurd ⟨s, Or.inl hpc⟩ hhand
            | route s => exact absurd ⟨s, Or.inr hpc⟩ hhand
            | write => exact Or.inr rfl
            | _ => exact Or.inl rfl
          have hallow : sys.allows site (clientsFrom queue (accepted a.past)) (.main sys.cfg.pc.onward) = true := by
            unfold System.allows
            split
            · next hpc heq => exact absurd hpc haccept
            · next s choice hpc heq => exact absurd ⟨s, Or.inl hpc⟩ hhand
            · next s choice hpc heq => exact absurd ⟨s, Or.inr hpc⟩ hhand
            · rfl
          refine hturn sys.cfg.pc.onward ?_ ?_ (System.step_main hallow hcfg)
          · obtain h | h := honward <;> rw [h] <;> rfl
          · obtain h | h := honward <;> rw [h] <;> rfl
    · have hadvance : ∃ cfg, sys.cfg.advance .ready = some cfg := by simp [Cfg.advance, hpc]
      obtain ⟨cfg, hcfg⟩ := hadvance
      apply hturn .ready rfl (decide_eq_true (hwaits (by rw [hpc]; rfl)))
      refine System.step_main ?_ hcfg
      unfold System.allows
      rw [hpc]
    · have hdone : sys.cfg.pc.done = true := by
        rw [hpc]
        rfl
      refine ⟨.exit, a.ended sys, rfl, ?_⟩
      simp only [step, hsome]
      exact if_pos hdone

theorem Reached.leads (h : Reached site uid T queue a) (hn : n ≤ a.arrived) :
    Machine.Leads (Moves site uid T queue) (Through n) a := by
  apply Machine.Leads.of_decreasing_until (m := distance n) wellFounded_lt
    (I := fun a => Reached site uid T queue a ∧ n ≤ a.arrived) _ _ ⟨h, hn⟩
  · intro a b hI hnot hmoves
    obtain ⟨k, d, e, hown, hrun⟩ := hmoves
    obtain ⟨hd, hstep⟩ := (run_connect k d e).mp hrun
    have hlater : Reached site uid T queue (a.later k d) := hI.1.later k hd
    have harrived : n ≤ (a.later k d).arrived := hI.2.trans (Nat.le_add_right _ _)
    have hlt := distance_lt harrived (through_later.not.mpr hnot) hown hstep
    rw [distance, distance, accepted_later, effort_later] at hlt
    exact ⟨⟨hlater.next hstep, harrived.trans (step_goes hstep).arrived_le⟩, Or.inr hlt⟩
  · intro a hI hnot
    have hlater : Reached site uid T queue (a.later 0 0) := hI.1.later 0 (le_refl _)
    obtain ⟨e, b, hown, hstep⟩ := exists_step hlater hI.2 (through_later.not.mpr hnot)
    exact ⟨b, 0, 0, e, hown, (run_connect 0 0 e).mpr ⟨le_refl _, hstep⟩⟩

/-! Where no signal has come and no service was killed, the clients are not only accepted but answered. -/

/-- No service has had a stop signal, and those that have ended came to their end by themselves. -/
def Undisturbed (a : Activation F) : Prop :=
  (∀ sys ∈ a.services, sys.cfg.srv.stopping = false) ∧ ∀ sys ∈ a.past, sys.cfg.pc.done = true

instance (a : Activation F) : Decidable a.Undisturbed := inferInstanceAs (Decidable (_ ∧ _))

theorem Undisturbed.later (h : a.Undisturbed) (k : ℕ) (d : ℚ) : (a.later k d).Undisturbed := by
  refine ⟨?_, h.2⟩
  have hservices := h.1
  cases hs : a.service with
  | none =>
    have hlater : (a.later k d).service = none := by
      simp only [Activation.later, hs, Option.map_none]
    rw [services_of_none hs] at hservices
    rw [services_of_none hlater]
    exact hservices
  | some sys =>
    have hlater : (a.later k d).service = some (sys.tick d) := by
      simp only [Activation.later, hs, Option.map_some]
    rw [services_of_some hs, List.forall_mem_cons] at hservices
    rw [services_of_some hlater, List.forall_mem_cons]
    exact hservices

theorem Undisturbed.step (h : a.Undisturbed) {e : Event F} (he : e.isOwn = true)
    (hstep : a.step site uid T queue e = some b) : b.Undisturbed := by
  obtain ⟨hservices, hpast⟩ := h
  cases e with
  | activate =>
    obtain ⟨hnone, -, rfl⟩ := activate_of_step hstep
    rw [services_of_none hnone] at hservices
    refine ⟨?_, hpast⟩
    rw [services_of_some rfl, List.forall_mem_cons]
    exact ⟨rfl, hservices⟩
  | exit =>
    obtain ⟨sys, hsome, hdone, rfl⟩ := exit_of_step hstep
    rw [services_of_some hsome] at hservices
    refine ⟨?_, List.forall_mem_cons.mpr ⟨hdone, hpast⟩⟩
    rw [services_of_none rfl]
    exact hservices
  | turn t =>
    obtain ⟨sys, sys', hsome, -, hturn, rfl⟩ := turn_of_step hstep
    rw [services_of_some hsome, List.forall_mem_cons] at hservices
    refine ⟨?_, hpast⟩
    rw [services_of_some rfl, List.forall_mem_cons]
    refine ⟨?_, hservices.2⟩
    cases t with
    | main choice =>
      have hadv : sys.cfg.Advances sys'.cfg := Cfg.advances_of_advance (System.step_cfg hturn)
      rw [hadv.stopping]
      exact hservices.1
    | _ => cases he
  | _ => cases he

/-- The permitted clients among the first `n` that send a request are answered, each in its turn,
except where the handler raises. -/
def Answered (site : Site) (uid : Option ℕ) (queue : ℕ → Client) (n : ℕ) (a : Activation F) : Prop :=
  ∃ shifts, InTurn site uid queue a.services shifts ∧ ∀ m < n, ∀ req, (queue m).asks = some req →
    permits uid (queue m).peer = true →
      (∃ wires, (m, wires) ∈ servedBy a.services shifts) ∨ RaisedIn site queue m req a.services shifts

theorem not_awaits {services : List (System F)} (h : ∀ sys ∈ services, sys.cfg.pc.awaiting = none) (m : ℕ) :
    ¬ Awaits m services := by
  induction services with
  | nil => exact id
  | cons sys past ih =>
    rw [List.forall_mem_cons] at h
    unfold Awaits
    split_ifs
    · rw [h.1]
      exact (Option.some_ne_none _).symm
    · exact ih h.2

theorem answered_of_through (hr : Reached site uid T queue a) (hu : a.Undisturbed) (ht : Through n a) :
    Answered site uid queue n a := by
  obtain ⟨hservices, hpast⟩ := hu
  obtain ⟨haccepted, hfree⟩ := ht
  have hdone : ∀ pc : Pc, pc.done = true → pc.sock = none ∧ ∀ s, pc ≠ .route s := by
    intro pc hpc
    cases pc with
    | exited raised =>
      refine ⟨rfl, ?_⟩
      intro s h
      cases h
    | _ => cases hpc
  have huncut : ∀ sys ∈ a.services, ¬ CutShort sys.cfg.log := by
    intro sys hmem hcut
    obtain ⟨signal, timer, hhandled⟩ := hcut
    obtain ⟨base, flux, world, hsys⟩ := hr.kept.chain.of_mem hmem
    have hstopping := hsys.cfg.haltKept.stopping ⟨_, hhandled, rfl⟩
    rw [hservices sys hmem] at hstopping
    cases hstopping
  have hsock : ∀ sys ∈ a.services, sys.cfg.pc.sock = none := by
    cases hs : a.service with
    | none =>
      rw [services_of_none hs]
      exact fun sys hmem => (hdone _ (hpast sys hmem)).1
    | some sys =>
      rw [services_of_some hs, List.forall_mem_cons]
      exact ⟨hfree sys hs, fun sys' hmem => (hdone _ (hpast sys' hmem)).1⟩
  have hawaits : ∀ sys ∈ a.services, sys.cfg.pc.awaiting = none := by
    intro sys hmem
    by_contra hne
    obtain ⟨s, hawaiting⟩ := Option.ne_none_iff_exists'.mp hne
    have hown := Pc.sock_of_awaiting hawaiting
    rw [hsock sys hmem] at hown
    cases hown
  obtain ⟨shifts, hshifts⟩ := hr.inTurn huncut fun sys hmem => (hdone _ (hpast sys hmem)).2
  refine ⟨shifts, hshifts, ?_⟩
  intro m hm req hreq hpermits
  exact hshifts.complete hservices m req (hm.trans_le haccepted) (not_awaits hawaits m) hreq hpermits

theorem Reached.leads_answered (h : Reached site uid T queue a) (hn : n ≤ a.arrived) :
    Machine.Leads (Moves site uid T queue)
      (fun b => Through n b ∧ (a.Undisturbed → Answered site uid queue n b)) a := by
  refine (h.leads hn).strengthen (I := fun b => Reached site uid T queue b ∧ (a.Undisturbed → b.Undisturbed))
    ?_ ?_ ⟨h, id⟩
  · intro b c hI hmoves
    obtain ⟨k, d, e, hown, hrun⟩ := hmoves
    obtain ⟨hd, hstep⟩ := (run_connect k d e).mp hrun
    exact ⟨(hI.1.later k hd).next hstep, fun hu => ((hI.2 hu).later k d).step hown hstep⟩
  · intro b hI ht
    exact ⟨ht, fun hu => answered_of_through hI.1 (hI.2 hu) ht⟩

end Activation

/-- Whatever the unit is doing (a service serves others, has just found no connection and will exit,
exits, or does not run), every way of going on comes to where the clients that have connected are
accepted, the service is through with them, and, if no signal has come, each has been answered. -/
theorem waiting_answered {F : Flux} {site : Site} {uid : Option ℕ} {T : Option ℚ} {queue : ℕ → Client}
    {a : Activation F} (h : Activation.Reached site uid T queue a) {n : ℕ} (hn : n ≤ a.arrived) :
    Machine.Leads (Activation.Moves site uid T queue)
      (fun b => Activation.Through n b ∧ (a.Undisturbed → Activation.Answered site uid queue n b)) a :=
  h.leads_answered hn

/-- A client connects as the service has just found none. -/
def lateArrival : List (Activation.Event (.fixed {})) := idleExit.take 22 ++ [.connect]

theorem waiting_answered_late :
    ∃ a, Machine.run (Activation.step .fixed (some 1000) (some 300) submitsThenAsks)
      { now := 0, flux := () } lateArrival = some a ∧
      a.service.map (fun sys => sys.cfg.pc) = some .handleTimeout ∧ a.Undisturbed ∧
      Machine.Leads (Activation.Moves .fixed (some 1000) (some 300) submitsThenAsks)
        (fun b => Activation.Through 2 b ∧
          (a.Undisturbed → Activation.Answered .fixed (some 1000) submitsThenAsks 2 b)) a := by
  have hruns : (Machine.run (Activation.step .fixed (some 1000) (some 300) submitsThenAsks)
      { now := 0, flux := () } lateArrival).any (fun a =>
        a.service.map (fun sys => sys.cfg.pc) = some .handleTimeout && a.Undisturbed && a.arrived = 2) =
          true := by
    decide +kernel
  obtain ⟨a, hrun, hall⟩ := (Option.any_eq_true _ _).mp hruns
  obtain ⟨hall, harrived⟩ := Bool.and_eq_true_iff.mp hall
  obtain ⟨hpc, hundisturbed⟩ := Bool.and_eq_true_iff.mp hall
  have hn : 2 ≤ a.arrived := (of_decide_eq_true harrived).ge
  have hreached : Activation.Reached .fixed (some 1000) (some 300) submitsThenAsks a :=
    ⟨0, (), lateArrival, hrun⟩
  exact ⟨a, hrun, of_decide_eq_true hpc, of_decide_eq_true hundisturbed, waiting_answered hreached hn⟩

end FluxRest
