import FluxRest.Serve.Halt
import FluxRest.Serve.Idle
import FluxRest.Serve.Refusal
import Mathlib.Data.Prod.Lex
import Mathlib.Data.Rat.Floor

/-! The loop when no further connection and no signal arrives: it does not spin, it does not get
stuck, and it ends with every refused connection closed. -/
namespace FluxRest
open Py

/-- Neither a signal nor a connection to accept. -/
def Input.isQuiet : Input → Bool
  | signal _ | main .ready => false
  | _ => true

/-- A wait of `handle_request` runs out. -/
def Input.isTimeout : Input → Bool
  | main .elapsed => true
  | _ => false

namespace Pc

/-- Between `select` reporting a connection and the next test of the loop condition. -/
def busy : Pc → Bool
  | test | serveTimeout | handleRequest | select .. | handleTimeout => false
  | pc => !pc.leaving

/-- On the way out of `serve` with no exception. -/
def returning : Pc → Bool
  | loopDone | disarm false | serverClose false | exited false => true
  | _ => false

/-- How far the main thread is from its next wait. -/
def rank : Pc → ℕ
  | exited _ => 0
  | serverClose _ => 1
  | disarm _ => 2
  | loopDone | shutdownUnwound _ => 3
  | clearUnwound _ => 4
  | select .. => 5
  | handleRequest => 6
  | serveTimeout => 7
  | test => 8
  | handleTimeout | shutdownRefused _ | clear _ | shutdownRaised _ => 9
  | evict _ | shutdown _ | handleError _ => 10
  | hold _ | clearRaised _ => 11
  | refuse _ | write .. => 12
  | route _ => 13
  | read _ => 14
  | setInRequest _ => 15
  | admitted _ => 16
  | verify .. => 17
  | accept => 18
  | reap => 19

/-- A choice that can be made here. -/
def onward : Pc → Choice
  | accept => .acceptFails
  | read _ => .request
  | route _ => .respond []
  | write .. => .writeFails true
  | _ => .next

end Pc

namespace Server

variable {srv : Server} {now limit : ℚ}

theorem serveTimeout_none (h : srv.serveTimeout now = none) :
    srv.refused = [] ∧ srv.idleTimeout = none := by
  unfold serveTimeout at h
  cases hr : srv.refused with
  | nil =>
    rw [hr] at h
    exact ⟨rfl, h⟩
  | cons e rest =>
    rw [hr] at h
    cases hT : srv.idleTimeout with
    | none =>
      rw [hT] at h
      cases h
    | some t =>
      rw [hT] at h
      cases h

/-- Where the wait comes from: the idle timeout, or the deadline of the head. -/
theorem serveTimeout_some (h : srv.serveTimeout now = some limit) :
    (srv.refused = [] ∧ srv.idleTimeout = some limit) ∨
    ∃ e, e ∈ srv.refused.head? ∧ (e.2 ≤ now + limit ∨ srv.idleTimeout = some limit) := by
  unfold serveTimeout at h
  cases hr : srv.refused with
  | nil =>
    rw [hr] at h
    exact Or.inl ⟨rfl, h⟩
  | cons e rest =>
    have hlinger : e.2 ≤ now + max 0 (e.2 - now) := by
      have hle := le_max_right 0 (e.2 - now)
      linarith
    right
    refine ⟨e, rfl, ?_⟩
    rw [hr] at h
    cases hT : srv.idleTimeout with
    | none =>
      rw [hT] at h
      left
      rw [← Option.some.inj h]
      exact hlinger
    | some t =>
      rw [hT] at h
      have hmin : min t (max 0 (e.2 - now)) = limit := Option.some.inj h
      obtain hcase | hcase := min_choice t (max 0 (e.2 - now))
      · right
        rw [← hmin, hcase]
      · left
        rw [← hmin, hcase]
        exact hlinger

end Server

namespace Cfg

/-- What one step of the main thread does to the round of the loop it is in. -/
inductive Round (c : Cfg) : Cfg → Prop where
  | serve {c'} (h : c.pc.busy = true) (h' : c'.pc.busy = true ∨ c'.pc = .test) : Round c c'
  | leave {c'} (h' : c'.pc.leaving = true) : Round c c'
  | loop {c'} (h : c.pc = .test) (hi : c.srv.idle = false) (h' : c'.pc = .serveTimeout)
      (hr : c'.srv.refused = c.srv.refused) : Round c c'
  | serveTimeout {c'} (h : c.pc = .serveTimeout) (h' : c'.pc = .handleRequest)
      (hr : c'.srv.refused = c.srv.refused) : Round c c'
  | wait {c'} (h : c.pc = .handleRequest) (h' : c'.pc = .select c.now c.srv.timeout)
      (hr : c'.srv.refused = c.srv.refused) : Round c c'
  | woken {c' start timeout} (h : c.pc = .select start timeout) : Round c c'
  | idle {c'} (h : c.pc = .handleTimeout) (h' : c'.pc = .test) (hi : c'.srv.idle = true) : Round c c'
  | reap {c'} (h : c.pc = .handleTimeout) (hne : c.srv.refused ≠ []) (h' : c'.pc = .test)
      (hr : c'.srv.refused = Queue.pending c.now c.srv.refused) : Round c c'

variable {c c' : Cfg}

theorem Advances.round (h : c.Advances c') : c.Round c' := by
  have hbusy : ∀ pc, c.pc = pc → pc.busy = true → c'.pc.busy = true ∨ c'.pc = .test → c.Round c' := by
    intro pc hpc hb h'
    rw [← hpc] at hb
    exact .serve hb h'
  cases h with
  | moves h =>
    cases h with
    | loop h _ hi => exact .loop h hi rfl rfl
    | done => exact .leave rfl
    | ready h => exact .woken h
    | elapsed h => exact .woken h
    | acceptFails h => exact hbusy _ h rfl (Or.inr rfl)
    | raises h => obtain h | h := h <;> exact hbusy _ h rfl (Or.inl rfl)
    | permit h | reject h | evicted h | enter h | quit h | written h | report h =>
      exact hbusy _ h rfl (Or.inl rfl)
    | finish => exact .leave rfl
  | serveTimeout h => exact .serveTimeout h rfl rfl
  | wait h => exact .wait h rfl rfl
  | idle h => exact .idle h rfl rfl
  | reapTimeout h hr => exact .reap h hr rfl rfl
  | evict h => exact hbusy _ h rfl (Or.inl (by rw [h]; rfl))
  | respond h => obtain h | h := h <;> exact hbusy _ h rfl (Or.inl rfl)
  | writeFails h hpc => exact hbusy _ h rfl (Or.inl (by obtain rfl | rfl := hpc <;> rfl))
  | clearUnwound | shutdownUnwound | disarm | serverClose => exact .leave rfl
  | shutdownRefused h | clear h | shutdownRaised h => exact hbusy _ h rfl (Or.inr rfl)
  | reap h | accept h | forbid h | hold h | begin h | request h | send h | shutdown h
  | clearRaised h => exact hbusy _ h rfl (Or.inl rfl)

/-- What is still to be evicted or written, where the main thread stays in its place. -/
def backlog (c : Cfg) : ℕ :=
  c.srv.refused.length + match c.pc with
    | .write _ rest => rest.length
    | _ => 0

/-- Every step of the main thread but the end of a wait brings it closer to the next wait. -/
theorem Advances.rank (h : c.Advances c') : (∃ start timeout, c.pc = .select start timeout) ∨
    c'.pc.rank < c.pc.rank ∨ c'.pc.rank = c.pc.rank ∧ c'.backlog < c.backlog := by
  have hrank : ∀ pc, c.pc = pc → c'.pc.rank < pc.rank →
      (∃ start timeout, c.pc = .select start timeout) ∨
        c'.pc.rank < c.pc.rank ∨ c'.pc.rank = c.pc.rank ∧ c'.backlog < c.backlog := by
    intro pc hpc hlt
    rw [← hpc] at hlt
    exact Or.inr (Or.inl hlt)
  cases h with
  | moves h =>
    cases h with
    | ready h | elapsed h => exact Or.inl ⟨_, _, h⟩
    | raises h => obtain h | h := h <;> exact hrank _ h (by simp [Pc.rank])
    | loop h | done h | acceptFails h | permit h | reject h | evicted h | enter h | quit h
    | written h | report h | finish h => exact hrank _ h (by simp [Pc.rank])
  | evict h hr =>
    right
    right
    refine ⟨rfl, ?_⟩
    simp [backlog, hr]
  | send h n hn =>
    right
    right
    refine ⟨by rw [h]; rfl, ?_⟩
    simp [backlog, h]
    omega
  | respond h => obtain h | h := h <;> exact hrank _ h (by simp [Pc.rank])
  | writeFails h hpc =>
    refine hrank _ h ?_
    obtain rfl | rfl := hpc <;> simp [Pc.rank]
  | serveTimeout h | wait h | idle h | reapTimeout h | reap h | accept h | forbid h | hold h
  | shutdownRefused h | begin h | request h | shutdown h | clear h | clearRaised h
  | shutdownRaised h | clearUnwound h | shutdownUnwound h | disarm h | serverClose h =>
    exact hrank _ h (by simp [Pc.rank])

/-! Where the wait under way comes from. -/

/-- What is known of the rounds that began at `since` or later. -/
structure RoundKept (since : ℚ) (c : Cfg) : Prop where
  past : since ≤ c.now
  computed : c.pc = .handleRequest → ∃ t ≤ c.now, c.srv.timeout = c.srv.serveTimeout t
  waiting : ∀ start timeout, c.pc = .select start timeout →
    since ≤ start ∧ start ≤ c.now ∧ ∃ t ≤ start, timeout = c.srv.serveTimeout t
  expired : c.pc = .handleTimeout → ∃ start limit, since ≤ start ∧ start + limit ≤ c.now ∧
    ∃ t ≤ start, c.srv.serveTimeout t = some limit

variable {since : ℚ}

theorem RoundKept.of_test (h : c.pc = .test) : RoundKept c.now c := by
  refine ⟨le_refl _, ?_, ?_, ?_⟩ <;> rw [h] <;> exact nofun

theorem RoundKept.tick (hI : RoundKept since c) {d : ℚ} (hd : 0 ≤ d) :
    RoundKept since { c with now := c.now + d } := by
  have hnow : c.now ≤ c.now + d := le_add_of_nonneg_right hd
  refine ⟨hI.past.trans hnow, ?_, ?_, ?_⟩
  · intro h
    obtain ⟨t, ht, htimeout⟩ := hI.computed h
    exact ⟨t, ht.trans hnow, htimeout⟩
  · intro start timeout h
    obtain ⟨hsince, hstart, hwait⟩ := hI.waiting start timeout h
    exact ⟨hsince, hstart.trans hnow, hwait⟩
  · intro h
    obtain ⟨start, limit, hsince, hle, hwait⟩ := hI.expired h
    exact ⟨start, limit, hsince, hle.trans hnow, hwait⟩

theorem RoundKept.advance (hI : RoundKept since c) (h : c.Advances c') : RoundKept since c' := by
  have hpast : since ≤ c'.now := by
    rw [h.now]
    exact hI.past
  refine ⟨hpast, ?_, ?_, ?_⟩
  · intro hpc
    rw [h.to_handleRequest hpc, h.now]
    exact ⟨c.now, le_refl _, rfl⟩
  · intro start timeout hpc
    obtain ⟨hpc', rfl, rfl, hsrv, -⟩ := h.to_select hpc
    rw [h.now, hsrv]
    exact ⟨hI.past, le_refl _, hI.computed hpc'⟩
  · intro hpc
    obtain ⟨start, limit, hpc', hle, hsrv, -⟩ := h.to_handleTimeout hpc
    obtain ⟨hsince, -, t, ht, hwait⟩ := hI.waiting start (some limit) hpc'
    rw [h.now, hsrv]
    exact ⟨start, limit, hsince, hle, t, ht, hwait.symm⟩

theorem RoundKept.stop (hI : RoundKept since c) (signal : Signal) :
    RoundKept since (c.stop signal) := by
  have hpc : ∀ pc, (c.stop signal).pc = pc → pc.leaving = false → c.pc = pc := by
    intro pc hpc hl
    rw [← hpc] at hl
    exact (pc_of_stop hl).symm.trans hpc
  constructor
  · rw [stop_now]
    exact hI.past
  · intro h
    rw [stop_now, stop_srv]
    exact hI.computed (hpc _ h rfl)
  · intro start timeout h
    rw [stop_now, stop_srv]
    exact hI.waiting start timeout (hpc _ h rfl)
  · intro h
    rw [stop_now, stop_srv]
    exact hI.expired (hpc _ h rfl)

theorem RoundKept.step (hI : RoundKept since c) {i : Input} (h : c.step i = some c') :
    RoundKept since c' := by
  obtain ⟨d, hd, rfl⟩ | rfl | ⟨signal, rfl⟩ | h := step_cases h
  · exact hI.tick hd
  · exact hI
  · exact hI.stop signal
  · exact hI.advance h

/-- A wait that runs out was the idle timeout, or it lasted to the deadline of the head. -/
theorem RoundKept.timed_out (hI : RoundKept since c) (h : c.pc = .handleTimeout) :
    (c.srv.refused = [] ∧ ∃ T, c.srv.idleTimeout = some T) ∨ ∃ e, e ∈ c.srv.refused.head? ∧
      (e.2 ≤ c.now ∨ ∃ T, c.srv.idleTimeout = some T ∧ since + T ≤ c.now) := by
  obtain ⟨start, limit, hsince, hle, t, ht, hwait⟩ := hI.expired h
  obtain ⟨hr, hT⟩ | ⟨e, he, hdue | hT⟩ := Server.serveTimeout_some hwait
  · exact Or.inl ⟨hr, limit, hT⟩
  · exact Or.inr ⟨e, he, Or.inl (by linarith)⟩
  · exact Or.inr ⟨e, he, Or.inr ⟨limit, hT, by linarith⟩⟩

variable {uid : Option ℕ} {T : Option ℚ}

theorem Reached.roundKept (h : Reached uid T c) : ∃ since, RoundKept since c := by
  obtain ⟨now, ign, inputs, h⟩ := h
  refine ⟨now, ?_⟩
  have hstart : RoundKept (serve uid T now ign).now (serve uid T now ign) := RoundKept.of_test rfl
  apply Machine.run_invariant _ hstart h
  intro c i c' hI hstep
  exact hI.step hstep

theorem Reached.waiting_soon (h : Reached uid T c) : ∀ start timeout,
    c.pc = .select start timeout → ∀ e ∈ c.srv.refused, e.2 ≤ start + REFUSE_LINGER := by
  apply h.invariant
  · intro now ign start timeout hpc
    cases hpc
  · intro c d _ hI _
    exact hI
  · intro c signal _ hI start timeout hpc
    have hsame : (c.stop signal).pc = c.pc := pc_of_stop (by rw [hpc]; rfl)
    rw [stop_srv]
    exact hI start timeout (hsame.symm.trans hpc)
  · intro c c' hr _ h start timeout hpc
    obtain ⟨-, rfl, -, hsrv, -⟩ := h.to_select hpc
    rw [hsrv]
    exact hr.refusalsKept.soon

/-- A refused connection is closed or in the queue. -/
theorem Reached.refusal_closed (h : Reached uid T c) :
    ∀ e ∈ refusals c.log, Closed e.1 c.log ∨ e ∈ c.srv.refused := by
  apply h.invariant
  · intro now ign e he
    cases he
  · intro c d _ hI _
    exact hI
  · intro c signal _ hI e he
    rw [stop_log] at he
    rw [stop_srv, stop_log]
    obtain ⟨why, t, hclosed⟩ | hheld := hI e he
    · exact Or.inl ⟨why, t, List.mem_cons_of_mem _ hclosed⟩
    · exact Or.inr hheld
  · intro c c' _ hI h e he
    have hkept : e ∈ refusals c.log → Closed e.1 c'.log ∨ e ∈ c'.srv.refused := by
      intro he
      obtain hclosed | hheld := hI e he
      · exact Or.inl (h.closed hclosed)
      · exact h.refused hheld
    obtain hsame | ⟨s, -, hnew, hheld⟩ := h.refusals
    · rw [hsame] at he
      exact hkept he
    · rw [hnew] at he
      obtain rfl | he := List.mem_cons.mp he
      · right
        rw [hheld]
        exact List.mem_append_right _ (List.mem_singleton_self _)
      · exact hkept he

theorem Advances.returning (h : c.Advances c') (hpc : c.pc.returning = true) :
    c'.pc.returning = true := by
  cases h with
  | moves h =>
    cases h with
    | finish => rfl
    | raises h => obtain h | h := h <;> rw [h] at hpc <;> cases hpc
    | _ h =>
      rw [h] at hpc
      cases hpc
  | @disarm raised h | @serverClose raised h =>
    rw [h] at hpc
    cases raised with
    | false => rfl
    | true => cases hpc
  | respond h => obtain h | h := h <;> rw [h] at hpc <;> cases hpc
  | _ h =>
    rw [h] at hpc
    cases hpc

/-- Until a signal is handled, the loop ends only by the idle timeout. -/
structure IdleExit (T : Option ℚ) (c : Cfg) : Prop where
  timeout : c.srv.idle = true → ∃ t, T = some t
  leaving : c.pc.leaving = true → c.srv.stopping = false →
    c.srv.idle = true ∧ c.pc.returning = true

theorem IdleExit.advance (hI : IdleExit T c) (hw : WaitKept T c) (h : c.Advances c') :
    IdleExit T c' := by
  constructor
  · intro hi
    obtain hsame | ⟨hpc, hr, -⟩ := h.srv_idle
    · rw [hsame] at hi
      exact hI.timeout hi
    · obtain ⟨-, limit, hT, -⟩ := hw.elapsed hpc hr
      exact ⟨limit, hT⟩
  · intro hl' hs
    rw [h.stopping] at hs
    obtain hl | ⟨-, hpc, hsrv, hstop | hi⟩ := h.of_leaving hl'
    · obtain ⟨hi, hpc⟩ := hI.leaving hl hs
      exact ⟨(h.leaving hl).2.2.trans hi, h.returning hpc⟩
    · rw [hs] at hstop
      cases hstop
    · rw [hsrv, hpc]
      exact ⟨hi, rfl⟩

theorem Reached.idleExit (h : Reached uid T c) : IdleExit T c := by
  apply h.invariant
  · intro now ign
    exact ⟨nofun, nofun⟩
  · intro c d _ hI _
    exact ⟨hI.timeout, hI.leaving⟩
  · intro c signal _ hI
    constructor
    · rw [stop_srv]
      exact hI.timeout
    · intro _ hs
      rw [stop_srv] at hs
      cases hs
  · intro c c' hr hI h
    exact hI.advance hr.waitKept h

/-! The timeouts that are still to come. -/

/-- The most timeouts before the loop ends or blocks. -/
def most (T : Option ℚ) : ℕ := REFUSE_MAX + Queue.periods T REFUSE_LINGER + 1

/-- A bound on the timeouts still to come, where nothing else does. -/
def budget (c : Cfg) : ℕ :=
  match c.pc with
  | .test => if c.srv.idle then 0 else Queue.rounds c.srv.idleTimeout c.now c.srv.refused + 1
  | .serveTimeout | .handleRequest => Queue.rounds c.srv.idleTimeout c.now c.srv.refused + 1
  | .select start _ => Queue.rounds c.srv.idleTimeout start c.srv.refused + 1
  | .handleTimeout =>
    if c.srv.refused = [] then 0
    else Queue.rounds c.srv.idleTimeout c.now (Queue.pending c.now c.srv.refused) + 1
  | pc => if pc.leaving then 0 else most c.srv.idleTimeout

theorem budget_of_busy (h : c.pc.busy = true) : c.budget = most c.srv.idleTimeout := by
  unfold budget
  cases hpc : c.pc <;> rw [hpc] at h <;> first | rfl | cases h

theorem budget_of_leaving (h : c.pc.leaving = true) : c.budget = 0 := by
  unfold budget
  cases hpc : c.pc <;> rw [hpc] at h <;> first | rfl | cases h

/-- In the loop, the queue is short and what is in it will soon be due. -/
theorem rounds_le_most (hT : ∀ t ∈ c.srv.idleTimeout, 0 < t) (hk : c.RefusalsKept)
    (hdue : c.pc.evictionDue = false) {q : List (Sock × ℚ)} (hq : q <:+ c.srv.refused) {now : ℚ}
    (hsoon : ∀ e ∈ c.srv.refused, e.2 ≤ now + REFUSE_LINGER) :
    Queue.rounds c.srv.idleTimeout now q + 1 ≤ most c.srv.idleTimeout := by
  have hlength : q.length ≤ REFUSE_MAX := hq.length_le.trans (hk.capped hdue)
  have hle := Queue.rounds_le_of_soon hT hlength fun e he => hsoon e (hq.mem he)
  unfold most
  omega

theorem Reached.budget_le (h : Reached uid T c) (hT : ∀ t ∈ c.srv.idleTimeout, 0 < t) :
    c.budget ≤ most c.srv.idleTimeout := by
  have hk : c.RefusalsKept := h.refusalsKept
  have hnow : c.pc.evictionDue = false →
      Queue.rounds c.srv.idleTimeout c.now c.srv.refused + 1 ≤ most c.srv.idleTimeout := by
    intro hdue
    exact rounds_le_most hT hk hdue (List.suffix_refl _) hk.soon
  cases hb : c.pc.busy with
  | true => rw [budget_of_busy hb]
  | false =>
    cases hl : c.pc.leaving with
    | true =>
      rw [budget_of_leaving hl]
      exact Nat.zero_le _
    | false =>
      unfold budget
      cases hpc : c.pc with
      | test =>
        dsimp only
        split_ifs
        · exact Nat.zero_le _
        · exact hnow (by rw [hpc]; rfl)
      | serveTimeout | handleRequest => exact hnow (by rw [hpc]; rfl)
      | select start timeout =>
        exact rounds_le_most hT hk (by rw [hpc]; rfl) (List.suffix_refl _)
          (h.waiting_soon start timeout hpc)
      | handleTimeout =>
        dsimp only
        split_ifs
        · exact Nat.zero_le _
        · exact rounds_le_most hT hk (by rw [hpc]; rfl) (hk.sorted.pending_isSuffix c.now) hk.soon
      | _ =>
        rw [hpc] at hb hl
        cases hb <;> cases hl

theorem budget_tick (hT : ∀ t ∈ c.srv.idleTimeout, 0 < t) (hk : c.RefusalsKept) {d : ℚ}
    (hd : 0 ≤ d) : ({ c with now := c.now + d } : Cfg).budget ≤ c.budget := by
  have hnow : c.now ≤ c.now + d := le_add_of_nonneg_right hd
  have hrounds : Queue.rounds c.srv.idleTimeout (c.now + d) c.srv.refused ≤
      Queue.rounds c.srv.idleTimeout c.now c.srv.refused := by
    have hle := Queue.rounds_le hT (List.suffix_refl c.srv.refused) hnow
    omega
  have hpending : Queue.rounds c.srv.idleTimeout (c.now + d)
      (Queue.pending (c.now + d) c.srv.refused) ≤
      Queue.rounds c.srv.idleTimeout c.now (Queue.pending c.now c.srv.refused) := by
    have hsuffix := Queue.pending_isSuffix_pending hk.sorted hnow
    have hle := Queue.rounds_le hT hsuffix hnow
    have hlength := hsuffix.length_le
    omega
  unfold budget
  cases hpc : c.pc with
  | test | handleTimeout =>
    dsimp only
    split_ifs <;> omega
  | serveTimeout | handleRequest => exact Nat.succ_le_succ hrounds
  | _ => exact le_refl _

/-- Nothing but the end of a wait spends a timeout, and nothing adds one. -/
theorem budget_advance (hT : ∀ t ∈ c.srv.idleTimeout, 0 < t) (hk : c'.RefusalsKept)
    (hne : ∀ start timeout, c.pc ≠ .select start timeout) (h : c.Advances c') :
    c'.budget ≤ c.budget := by
  have hT' : ∀ t ∈ c'.srv.idleTimeout, 0 < t := by
    rw [h.limits.2]
    exact hT
  have hbound : c'.pc = .test → c'.budget ≤ most c.srv.idleTimeout := by
    intro hpc
    have hle := rounds_le_most hT' hk (by rw [hpc]; rfl) (List.suffix_refl _) hk.soon
    rw [h.limits.2] at hle
    simp only [budget, hpc, h.limits.2]
    split_ifs
    · exact Nat.zero_le _
    · exact hle
  cases h.round with
  | serve hb hb' =>
    rw [budget_of_busy hb]
    obtain hb' | hpc := hb'
    · rw [budget_of_busy hb', h.limits.2]
    · exact hbound hpc
  | leave hl =>
    rw [budget_of_leaving hl]
    exact Nat.zero_le _
  | loop hpc hi hpc' hr => simp [budget, hpc, hpc', hi, hr, h.limits.2, h.now]
  | serveTimeout hpc hpc' hr => simp [budget, hpc, hpc', hr, h.limits.2, h.now]
  | wait hpc hpc' hr => simp [budget, hpc, hpc', hr, h.limits.2]
  | woken hpc => exact absurd hpc (hne _ _)
  | idle hpc hpc' hi => simp [budget, hpc', hi]
  | reap hpc hne hpc' hr =>
    simp only [budget, hpc, hpc', hr, h.limits.2, h.now]
    rw [if_neg hne]
    split_ifs
    · exact Nat.zero_le _
    · exact le_refl _

/-- A wait that runs out spends a timeout. -/
theorem budget_elapsed (hT : ∀ t ∈ c.srv.idleTimeout, 0 < t) (hk : c.RefusalsKept)
    (hround : RoundKept since c) {start timeout : ℚ} (hpc : c.pc = .select start (some timeout))
    (ht : start + timeout ≤ c.now) :
    ({ c with pc := .handleTimeout } : Cfg).budget < c.budget := by
  obtain ⟨-, hstart, t, hle, hwait⟩ := hround.waiting start (some timeout) hpc
  simp only [budget, hpc]
  split_ifs with hr
  · exact Nat.succ_pos _
  · apply Nat.succ_lt_succ
    obtain ⟨hnil, -⟩ | ⟨e, he, hdue⟩ := Server.serveTimeout_some hwait.symm
    · exact absurd hnil hr
    · apply Queue.rounds_pending_lt hT hk.sorted he hstart
      obtain hdue | hT' := hdue
      · left
        linarith
      · exact Or.inr ⟨timeout, hT', ht⟩

/-- A choice other than of a connection ends a wait, or is made outside of one. -/
theorem quiet_advance {choice : Choice} (h : c.advance choice = some c')
    (hq : (Input.main choice).isQuiet = true) :
    ((Input.main choice).isTimeout = true ∧ ∃ start timeout, c.pc = .select start (some timeout) ∧
      start + timeout ≤ c.now ∧ c' = { c with pc := .handleTimeout }) ∨
    ((Input.main choice).isTimeout = false ∧ ∀ start timeout, c.pc ≠ .select start timeout) := by
  cases hpc : c.pc with
  | select start timeout =>
    left
    cases choice with
    | ready => cases hq
    | elapsed =>
      cases timeout with
      | none => simp [advance, hpc] at h
      | some timeout =>
        simp only [advance, hpc] at h
        split_ifs at h with ht
        exact ⟨rfl, start, timeout, rfl, ht, (Option.some.inj h).symm⟩
    | _ => simp [advance, hpc] at h
  | _ =>
    right
    refine ⟨?_, nofun⟩
    cases choice with
    | elapsed => simp [advance, hpc] at h
    | _ => rfl

/-- The main thread takes its next step, after any time. -/
def Goes (c c' : Cfg) : Prop := ∃ d choice, (Input.main choice).isQuiet = true ∧
  Machine.run step c [.tick d, .main choice] = some c'

/-- `serve` has ended for want of a connection, or it blocks where it never does; and all that it
refused is closed. -/
def AtRest (c : Cfg) : Prop :=
  c.srv.refused = [] ∧ (∀ e ∈ refusals c.log, Closed e.1 c.log) ∧
  match c.srv.idleTimeout with
  | some _ => c.srv.idle = true ∧ c.pc = .exited false
  | none => ∃ start, c.pc = .select start none

theorem run_tick_main {d : ℚ} {choice : Choice} :
    Machine.run step c [.tick d, .main choice] = some c' ↔
      0 ≤ d ∧ ({ c with now := c.now + d } : Cfg).advance choice = some c' := by
  rw [Machine.run_cons]
  simp only [step, Option.ite_none_right_eq_some, Option.some.injEq]
  constructor
  · intro h
    obtain ⟨t, ⟨hd, rfl⟩, h⟩ := h
    obtain ⟨u, hu, hnil⟩ := Machine.run_cons.mp h
    cases hnil
    exact ⟨hd, hu⟩
  · intro h
    exact ⟨_, ⟨h.1, rfl⟩, Machine.run_cons.mpr ⟨c', h.2, rfl⟩⟩

theorem advance_onward (c : Cfg) : (∃ c', c.advance c.pc.onward = some c') ∨
    (∃ start timeout, c.pc = .select start timeout) ∨ ∃ raised, c.pc = .exited raised := by
  unfold advance
  cases hpc : c.pc with
  | select start timeout => exact Or.inr (Or.inl ⟨start, timeout, rfl⟩)
  | exited raised => exact Or.inr (Or.inr ⟨raised, rfl⟩)
  | handleTimeout =>
    left
    dsimp only [Pc.onward]
    split_ifs <;> exact ⟨_, rfl⟩
  | evict s =>
    left
    dsimp only [Pc.onward]
    split
    · split_ifs <;> exact ⟨_, rfl⟩
    · exact ⟨_, rfl⟩
  | _ => exact Or.inl ⟨_, rfl⟩

theorem isQuiet_onward (pc : Pc) : (Input.main pc.onward).isQuiet = true := by
  cases pc <;> rfl

/-- With an empty queue, every refused connection is closed. -/
theorem Reached.all_closed (h : Reached uid T c) (hr : c.srv.refused = []) :
    ∀ e ∈ refusals c.log, Closed e.1 c.log := by
  intro e he
  obtain hclosed | hheld := h.refusal_closed e he
  · exact hclosed
  · rw [hr] at hheld
    cases hheld

/-- A wait without end is a wait for the next connection only. -/
theorem Reached.rests_of_select (h : Reached uid T c) {start : ℚ} (hpc : c.pc = .select start none) :
    c.AtRest := by
  obtain ⟨since, hround⟩ := h.roundKept
  obtain ⟨-, -, t, -, hwait⟩ := hround.waiting start none hpc
  obtain ⟨hr, hT⟩ := Server.serveTimeout_none hwait.symm
  unfold AtRest
  rw [hT]
  exact ⟨hr, h.all_closed hr, start, hpc⟩

theorem Reached.rests_of_exited (h : Reached uid T c) (hs : c.srv.stopping = false) {raised : Bool}
    (hpc : c.pc = .exited raised) : c.AtRest := by
  have hl : c.pc.leaving = true := by
    rw [hpc]
    rfl
  obtain ⟨hi, hreturning⟩ := h.idleExit.leaving hl hs
  obtain ⟨t, hT⟩ := h.idleExit.timeout hi
  have hr : c.srv.refused = [] := (h.waitKept.exit hi).1
  unfold AtRest
  rw [h.limits.2, hT]
  refine ⟨hr, h.all_closed hr, hi, ?_⟩
  rw [hpc] at hreturning ⊢
  cases raised with
  | false => rfl
  | true => cases hreturning

/-- A wait runs out when its time has passed. -/
theorem goes_of_select {start timeout : ℚ} (hpc : c.pc = .select start (some timeout)) :
    ∃ c', c.Goes c' := by
  have hle : start + timeout ≤ c.now + max 0 (start + timeout - c.now) := by
    have hmax := le_max_right 0 (start + timeout - c.now)
    linarith
  have hadvance : ({ c with now := c.now + max 0 (start + timeout - c.now) } : Cfg).advance .elapsed =
      some { c with now := c.now + max 0 (start + timeout - c.now), pc := .handleTimeout } := by
    simp only [advance, hpc]
    rw [if_pos hle]
  exact ⟨_, _, .elapsed, rfl, run_tick_main.mpr ⟨le_max_left _ _, hadvance⟩⟩

theorem Reached.goes_or_rests (h : Reached uid T c) (hs : c.srv.stopping = false) :
    (∃ c', c.Goes c') ∨ c.AtRest := by
  obtain ⟨c', hc'⟩ | ⟨start, timeout, hpc⟩ | ⟨raised, hpc⟩ :=
    advance_onward { c with now := c.now + 0 }
  · exact Or.inl ⟨c', 0, _, isQuiet_onward _, run_tick_main.mpr ⟨le_refl _, hc'⟩⟩
  · cases timeout with
    | none => exact Or.inr (h.rests_of_select hpc)
    | some timeout => exact Or.inl (goes_of_select hpc)
  · exact Or.inr (h.rests_of_exited hs hpc)

/-- A step that is neither a signal nor a connection. -/
theorem Reached.quiet_step (h : Reached uid T c) (hT : ∀ t ∈ T, 0 < t)
    (hs : c.srv.stopping = false) {i : Input} (hq : i.isQuiet = true) (hi : c.step i = some c') :
    (Reached uid T c' ∧ c'.srv.stopping = false) ∧
      c'.budget + (if i.isTimeout then 1 else 0) ≤ c.budget := by
  have hT' : ∀ t ∈ c.srv.idleTimeout, 0 < t := by
    rw [h.limits.2]
    exact hT
  have hr' : Reached uid T c' := h.next hi
  cases i with
  | signal signal => cases hq
  | tick d =>
    simp only [step] at hi
    split_ifs at hi with hd
    cases hi
    exact ⟨⟨hr', hs⟩, budget_tick hT' h.refusalsKept hd⟩
  | main choice =>
    have ha : c.Advances c' := advances_of_advance hi
    refine ⟨⟨hr', ha.stopping.trans hs⟩, ?_⟩
    obtain ⟨htimeout, start, timeout, hpc, hle, rfl⟩ | ⟨htimeout, hne⟩ := quiet_advance hi hq
    · obtain ⟨since, hround⟩ := h.roundKept
      rw [htimeout]
      exact budget_elapsed hT' h.refusalsKept hround hpc hle
    · rw [htimeout]
      exact budget_advance hT' hr'.refusalsKept hne ha

/-- Timeouts still to come, the steps to the next wait, and what is to be done in one place. -/
def distance (c : Cfg) : ℕ ×ₗ ℕ ×ₗ ℕ := toLex (c.budget, toLex (c.pc.rank, c.backlog))

theorem Reached.goes (h : Reached uid T c) (hT : ∀ t ∈ T, 0 < t) (hs : c.srv.stopping = false)
    (hg : c.Goes c') : (Reached uid T c' ∧ c'.srv.stopping = false) ∧ c'.distance < c.distance := by
  obtain ⟨d, choice, hq, hrun⟩ := hg
  obtain ⟨hd, hadvance⟩ := run_tick_main.mp hrun
  have htick : c.step (.tick d) = some { c with now := c.now + d } := if_pos hd
  obtain ⟨⟨hr, hs⟩, hle⟩ := h.quiet_step hT hs rfl htick
  obtain ⟨hkept, hle'⟩ := hr.quiet_step hT hs hq hadvance
  refine ⟨hkept, ?_⟩
  have hbudget : ({ c with now := c.now + d } : Cfg).budget ≤ c.budget := hle
  unfold distance
  rw [Prod.Lex.toLex_lt_toLex, Prod.Lex.toLex_lt_toLex]
  obtain ⟨htimeout, -⟩ | ⟨-, hne⟩ := quiet_advance hadvance hq
  · left
    rw [htimeout, if_pos rfl] at hle'
    exact Nat.lt_of_lt_of_le hle' hbudget
  · have hle'' : c'.budget ≤ c.budget := (Nat.le_of_add_right_le hle').trans hbudget
    obtain ⟨start, timeout, hpc⟩ | hrank | ⟨hrank, hbacklog⟩ := (advances_of_advance hadvance).rank
    · exact absurd hpc (hne start timeout)
    · obtain hlt | heq := hle''.lt_or_eq
      · exact Or.inl hlt
      · exact Or.inr ⟨heq, Or.inl hrank⟩
    · obtain hlt | heq := hle''.lt_or_eq
      · exact Or.inl hlt
      · exact Or.inr ⟨heq, Or.inr ⟨hrank, hbacklog⟩⟩

/-- Every way of going on comes to rest. -/
theorem Reached.leads (h : Reached uid T c) (hT : ∀ t ∈ T, 0 < t) (hs : c.srv.stopping = false) :
    Machine.Leads Goes AtRest c := by
  apply Machine.Leads.of_decreasing (I := fun c => Reached uid T c ∧ c.srv.stopping = false)
    (m := distance) wellFounded_lt _ _ ⟨h, hs⟩
  · intro c c' hI hg
    exact hI.1.goes hT hI.2 hg
  · intro c hI hrest
    obtain hg | hrest' := hI.1.goes_or_rests hI.2
    · exact hg
    · exact absurd hrest' hrest

theorem Reached.timeouts_le (h : Reached uid T c) (hT : ∀ t ∈ T, 0 < t)
    (hs : c.srv.stopping = false) {inputs : List Input} (hrun : Machine.run step c inputs = some c')
    (hquiet : ∀ i ∈ inputs, i.isQuiet = true) : inputs.countP Input.isTimeout ≤ most T := by
  have hle := Machine.run_spends (I := fun c => Reached uid T c ∧ c.srv.stopping = false)
    (m := budget) (p := Input.isTimeout)
    (fun c i c' hI hq hi => hI.1.quiet_step hT hI.2 hq hi) ⟨h, hs⟩ hquiet hrun
  have hbudget : c.budget ≤ most c.srv.idleTimeout := by
    apply h.budget_le
    rw [h.limits.2]
    exact hT
  rw [h.limits.2] at hbudget
  omega

/-- The head of the queue is removed and closed once it is due. -/
theorem reaped (hpc : c.pc = .handleTimeout) {e : Sock × ℚ} {rest : List (Sock × ℚ)}
    (hr : c.srv.refused = e :: rest) (hdue : e.2 ≤ c.now) (h : c.step (.main .next) = some c') :
    e ∉ c'.srv.refused ∧ Closed e.1 c'.log := by
  have hne : c.srv.refused ≠ [] := by
    rw [hr]
    exact List.cons_ne_nil _ _
  simp only [step, advance, hpc, if_neg hne, Option.some.injEq] at h
  subst h
  constructor
  · intro hmem
    exact absurd hdue (not_le.mpr (Queue.mem_pending.mp hmem).2)
  · refine ⟨.reaped, c.now, mem_reap_log.mpr (Or.inl ⟨e, Queue.mem_due.mpr ⟨?_, hdue⟩, rfl⟩)⟩
    rw [hr]
    exact List.mem_cons_self

/-- From one test of the loop condition to the end of a wait: the head of the queue is due, or the
idle timeout has passed. -/
theorem Reached.timed_out (h : Reached uid T c) (hpc : c.pc = .test) {inputs : List Input}
    (hrun : Machine.run step c inputs = some c') (hpc' : c'.pc = .handleTimeout) {e : Sock × ℚ}
    {rest : List (Sock × ℚ)} (hr : c'.srv.refused = e :: rest) :
    e.2 ≤ c'.now ∨ ∃ t, T = some t ∧ c.now + t ≤ c'.now := by
  have hround : RoundKept c.now c' :=
    Machine.run_invariant (fun _ _ _ hI hstep => hI.step hstep) (RoundKept.of_test hpc) hrun
  have hlimit : c'.srv.idleTimeout = T := by
    obtain ⟨now, ign, inputs', hinputs'⟩ := h
    have hreached : Reached uid T c' :=
      ⟨now, ign, _, Machine.run_append.mpr ⟨c, hinputs', hrun⟩⟩
    exact hreached.limits.2
  obtain ⟨hnil, -⟩ | ⟨e', he', hdue⟩ := hround.timed_out hpc'
  · rw [hr] at hnil
    cases hnil
  · rw [hr] at he'
    cases he'
    rw [hlimit] at hdue
    exact hdue

end Cfg

/-- From every state that `serve` reaches with `_stopping` not set, and with neither a signal nor a
further connection to come: it gets to its exit or to a wait without end, with every refused
connection closed; no more waits run out than are needed for the queue to be emptied, and one that
does removes the head or comes a whole `idle_timeout` after the loop was last entered. -/
theorem quiet_settles {uid : Option ℕ} {T : Option ℚ} {c : Cfg} (h : c.Reached uid T)
    (hT : ∀ t, T = some t → 0 < t) (hs : c.srv.stopping = false) :
    Machine.Leads Cfg.Goes Cfg.AtRest c ∧
    (∀ inputs c', Machine.run Cfg.step c inputs = some c' → (∀ i ∈ inputs, i.isQuiet = true) →
      inputs.countP Input.isTimeout ≤ Cfg.most T) ∧
    (c.pc = .test → ∀ inputs c' e rest, Machine.run Cfg.step c inputs = some c' →
      c'.pc = .handleTimeout → c'.srv.refused = e :: rest →
      (∀ c'', c'.step (.main .next) = some c'' → e ∉ c''.srv.refused ∧ Closed e.1 c''.log) ∨
        ∃ t, T = some t ∧ c.now + t ≤ c'.now) := by
  refine ⟨h.leads hT hs, ?_, ?_⟩
  · intro inputs c' hrun hquiet
    exact h.timeouts_le hT hs hrun hquiet
  · intro hpc inputs c' e rest hrun hpc' hr
    obtain hdue | hlate := h.timed_out hpc hrun hpc' hr
    · left
      intro c'' hstep
      exact Cfg.reaped hpc' hr hdue hstep
    · exact Or.inr hlate

/-- A connection is refused at time 0, and the loop goes on. -/
def holding : List Input :=
  [.main .next, .main .next, .main .next, .main .ready, .main .next, .main (.accept (some 2)),
    .main .next, .main .next, .main .next, .main .next, .main .next]

theorem quiet_settles_holding :
    ∃ c, Machine.run Cfg.step (.serve (some 1) (some (1 / 2)) 0 false) holding = some c ∧
      c.srv.refused = [(0, 1)] ∧ Machine.Leads Cfg.Goes Cfg.AtRest c ∧
      (∀ inputs c', Machine.run Cfg.step c inputs = some c' → (∀ i ∈ inputs, i.isQuiet = true) →
        inputs.countP Input.isTimeout ≤ Cfg.most (some (1 / 2))) ∧
      (∀ inputs c' e rest, Machine.run Cfg.step c inputs = some c' → c'.pc = .handleTimeout →
        c'.srv.refused = e :: rest →
        (∀ c'', c'.step (.main .next) = some c'' → e ∉ c''.srv.refused ∧ Closed e.1 c''.log) ∨
          ∃ t, some (1 / 2) = some t ∧ c.now + t ≤ c'.now) := by
  have hrun : (Machine.run Cfg.step (.serve (some 1) (some (1 / 2)) 0 false) holding).map
      (fun c => (c.srv.refused, c.srv.stopping, c.pc)) = some ([(0, 1)], false, .test) := by
    decide +kernel
  obtain ⟨c, hc, hstate⟩ := Option.map_eq_some_iff.mp hrun
  obtain ⟨hr, hstate⟩ := Prod.mk.inj hstate
  obtain ⟨hs, hpc⟩ := Prod.mk.inj hstate
  have hT : ∀ t : ℚ, some (1 / 2) = some t → 0 < t := by
    intro t ht
    rw [← Option.some.inj ht]
    norm_num
  obtain ⟨hleads, hbound, hround⟩ := quiet_settles ⟨0, false, holding, hc⟩ hT hs
  exact ⟨c, hc, hr, hleads, hbound, hround hpc⟩

/-- With `_stopping` set, the loop ends without `_idle`. -/
theorem Cfg.not_leads_of_stopping {c : Cfg} {t : ℚ} (hs : c.srv.stopping = true)
    (hi : c.srv.idle = false) (hT : c.srv.idleTimeout = some t)
    (hpc : c.pc = .test ∨ c.pc.leaving = true) : ¬ Machine.Leads Goes AtRest c := by
  intro h
  induction h with
  | @here c h =>
    have hrest := h.2.2
    rw [hT] at hrest
    rw [hrest.1] at hi
    cases hi
  | @on c hmove _ ih =>
    obtain ⟨c', hg⟩ := hmove
    obtain ⟨d, choice, -, hrun⟩ := id hg
    obtain ⟨-, hadvance⟩ := run_tick_main.mp hrun
    have ha := advances_of_advance hadvance
    have hnext : c'.pc.leaving = true ∧ c'.srv.idle = c.srv.idle := by
      obtain hpc | hl := hpc
      · cases choice <;> simp [advance, hpc, hs] at hadvance
        subst hadvance
        exact ⟨rfl, rfl⟩
      · obtain ⟨hl', -, hi'⟩ := ha.leaving hl
        exact ⟨hl', hi'⟩
    exact ih c' hg (ha.stopping.trans hs) (hnext.2.trans hi) (ha.limits.2.trans hT) (Or.inr hnext.1)

/-- `SIGTERM` comes while a request is served and a refused connection is held. -/
def stoppedHolding : List Input :=
  holding ++ [.main .next, .main .next, .main .next, .main .ready, .main .next,
    .main (.accept (some 1)), .main .next, .main .next, .main .next, .signal .term, .main .request,
    .main (.respond [111]), .main (.send 1), .main .next, .main .next, .main .next]

/-- The loop then neither exits idle nor blocks, and the refused connection is still held. -/
theorem stoppedHolding_not_settled :
    ∃ c, Machine.run Cfg.step (.serve (some 1) (some 300) 0 false) stoppedHolding = some c ∧
      c.srv.refused = [(0, 1)] ∧ ¬ Machine.Leads Cfg.Goes Cfg.AtRest c := by
  have hrun : (Machine.run Cfg.step (.serve (some 1) (some 300) 0 false) stoppedHolding).map
      (fun c => (c.srv.refused, c.srv.stopping, c.srv.idle, c.srv.idleTimeout, c.pc)) =
      some ([(0, 1)], true, false, some 300, .test) := by
    decide +kernel
  obtain ⟨c, hc, hstate⟩ := Option.map_eq_some_iff.mp hrun
  obtain ⟨hr, hstate⟩ := Prod.mk.inj hstate
  obtain ⟨hs, hstate⟩ := Prod.mk.inj hstate
  obtain ⟨hi, hstate⟩ := Prod.mk.inj hstate
  obtain ⟨hT, hpc⟩ := Prod.mk.inj hstate
  exact ⟨c, hc, hr, Cfg.not_leads_of_stopping hs hi hT (Or.inl hpc)⟩

end FluxRest
