import FluxRest.Serve.Runs
import Mathlib.Tactic.Linarith

/-! The idle exit: what has passed when `handle_timeout` sets `_idle`. -/
namespace FluxRest
open Py

/-- The server has closed the connection. -/
def Closed (s : Sock) (log : List Obs) : Prop := ∃ why t, .closed s why t ∈ log

/-- The last wait began at `start`, after every connection accepted earlier was closed, and none has
been accepted since. -/
def Waited (start : ℚ) (log : List Obs) : Prop :=
  ∃ newer rest, log = newer ++ .waitBegan start :: rest ∧ (∀ t, .waitBegan t ∉ newer) ∧
    (∀ s peer t, .accepted s peer t ∉ newer) ∧
    ∀ s peer t, .accepted s peer t ∈ rest → Closed s rest ∧ t ≤ start

theorem Waited.cons {start : ℚ} {log : List Obs} (h : Waited start log) {o : Obs}
    (hwait : ∀ t, o ≠ .waitBegan t) (ho : ∀ s peer t, o ≠ .accepted s peer t) :
    Waited start (o :: log) := by
  obtain ⟨newer, rest, rfl, hlast, hnewer, hrest⟩ := h
  refine ⟨o :: newer, rest, rfl, ?_, ?_, hrest⟩
  · intro t hmem
    obtain hmem | hmem := List.mem_cons.mp hmem
    · exact hwait t hmem.symm
    · exact hlast t hmem
  · intro s peer t hmem
    obtain hmem | hmem := List.mem_cons.mp hmem
    · exact ho s peer t hmem.symm
    · exact hnewer s peer t hmem

/-- The connection in hand, unless it has just been closed. -/
def Pc.unclosed : Pc → Option Sock
  | clear _ => none
  | pc => pc.sock

namespace Cfg

variable {c c' : Cfg}

/-- An accepted connection is closed, or in the queue, or in hand. -/
def Accounted (s : Sock) (c : Cfg) : Prop :=
  Closed s c.log ∨ (∃ d, (s, d) ∈ c.srv.refused) ∨ c.pc.unclosed = some s

theorem Advances.closed (h : c.Advances c') {s : Sock} (hs : Closed s c.log) : Closed s c'.log := by
  obtain ⟨why, t, hs⟩ := hs
  exact ⟨why, t, h.mem_log hs⟩

/-- What leaves the queue is closed. -/
theorem Advances.refused (h : c.Advances c') {s : Sock} {d : ℚ} (hs : (s, d) ∈ c.srv.refused) :
    Closed s c'.log ∨ (s, d) ∈ c'.srv.refused := by
  have hreap : Closed s c.reap.log ∨ (s, d) ∈ c.reap.srv.refused := by
    by_cases hd : d ≤ c.now
    · left
      refine ⟨.reaped, c.now, mem_reap_log.mpr (Or.inl ⟨(s, d), ?_, rfl⟩)⟩
      exact Queue.mem_due.mpr ⟨hs, hd⟩
    · right
      exact Queue.mem_pending.mpr ⟨hs, not_le.mp hd⟩
  cases h with
  | reapTimeout | reap => exact hreap
  | hold => exact Or.inr (List.mem_append_left _ hs)
  | evict _ hr =>
    rw [hr] at hs
    obtain rfl | hs := List.mem_cons.mp hs
    · exact Or.inl ⟨.evicted, c.now, List.mem_cons_self⟩
    · exact Or.inr hs
  | shutdownRefused | shutdown | shutdownRaised | shutdownUnwound =>
    right
    dsimp only
    rw [shutdownRequest_srv]
    exact hs
  | _ => exact Or.inr hs

theorem accounted_shutdownRequest (s : Sock) :
    Closed s (c.shutdownRequest s).log ∨ ∃ d, (s, d) ∈ (c.shutdownRequest s).srv.refused := by
  obtain ⟨hr, hc⟩ | ⟨-, hc⟩ := c.shutdownRequest_cases s
  · right
    rw [hc]
    obtain ⟨e, he, hes⟩ := List.any_eq_true.mp hr
    rw [decide_eq_true_eq] at hes
    rw [← hes]
    exact ⟨e.2, he⟩
  · left
    rw [hc]
    exact ⟨.shutdown, c.now, List.mem_cons_self⟩

/-- The main thread lets go of a connection when it is closed or in the queue, unless a
`KeyboardInterrupt` is on its way out. -/
theorem Advances.unclosed (h : c.Advances c') {s : Sock} (hs : c.pc.unclosed = some s)
    (hl : c'.pc.leaving = false) : c'.Accounted s := by
  cases h with
  | moves h =>
    right
    right
    cases h with
    | permit h | reject h | evicted h | enter h | quit h | written h | report h =>
      rw [h] at hs
      exact hs
    | raises h => obtain h | h := h <;> rw [h] at hs <;> exact hs
    | _ h =>
      rw [h] at hs
      cases hs
  | forbid h | hold h | begin h | request h | send h | clearRaised h =>
    rw [h] at hs
    exact Or.inr (Or.inr hs)
  | evict => exact Or.inr (Or.inr hs)
  | respond h =>
    right
    right
    obtain h | h := h <;> rw [h] at hs <;> exact hs
  | writeFails h hpc =>
    right
    right
    rw [h] at hs
    obtain rfl | rfl := hpc <;> exact hs
  | shutdownRefused h | shutdown h | shutdownRaised h =>
    rw [h] at hs
    cases hs
    obtain hc | hc := accounted_shutdownRequest s
    · exact Or.inl hc
    · exact Or.inr (Or.inl hc)
  | clearUnwound | shutdownUnwound => cases hl
  | _ h =>
    rw [h] at hs
    cases hs

theorem Advances.accounted (h : c.Advances c') {s : Sock} (hs : c.Accounted s)
    (hl : c'.pc.leaving = false) : c'.Accounted s := by
  obtain hs | ⟨d, hs⟩ | hs := hs
  · exact Or.inl (h.closed hs)
  · obtain hs | hs := h.refused hs
    · exact Or.inl hs
    · exact Or.inr (Or.inl ⟨d, hs⟩)
  · exact h.unclosed hs hl

/-! Where a wait comes from and what it leads to. -/

theorem Advances.to_handleRequest (h : c.Advances c') (hpc : c'.pc = .handleRequest) :
    c'.srv = { c.srv with timeout := c.srv.serveTimeout c.now } := by
  cases h with
  | serveTimeout => rfl
  | moves h => cases h <;> cases hpc
  | evict h =>
    rw [h] at hpc
    cases hpc
  | writeFails _ h => obtain rfl | rfl := h <;> cases hpc
  | _ => cases hpc

theorem Advances.to_select (h : c.Advances c') {start : ℚ} {timeout : Option ℚ}
    (hpc : c'.pc = .select start timeout) : c.pc = .handleRequest ∧ start = c.now ∧
      timeout = c.srv.timeout ∧ c'.srv = c.srv ∧ c'.log = .waitBegan c.now :: c.log := by
  cases h with
  | wait h =>
    cases hpc
    exact ⟨h, rfl, rfl, rfl, rfl⟩
  | moves h => cases h <;> cases hpc
  | evict h =>
    rw [h] at hpc
    cases hpc
  | writeFails _ h => obtain rfl | rfl := h <;> cases hpc
  | _ => cases hpc

theorem Advances.to_handleTimeout (h : c.Advances c') (hpc : c'.pc = .handleTimeout) :
    ∃ start timeout, c.pc = .select start (some timeout) ∧ start + timeout ≤ c.now ∧
      c'.srv = c.srv ∧ c'.log = c.log := by
  cases h with
  | moves h =>
    cases h with
    | elapsed h ht => exact ⟨_, _, h, ht, rfl, rfl⟩
    | _ => cases hpc
  | evict h =>
    rw [h] at hpc
    cases hpc
  | writeFails _ h => obtain rfl | rfl := h <;> cases hpc
  | _ => cases hpc

/-- Only `handle_timeout` sets `_idle`, and only where no refused connection is held. -/
theorem Advances.srv_idle (h : c.Advances c') : c'.srv.idle = c.srv.idle ∨
    c.pc = .handleTimeout ∧ c.srv.refused = [] ∧ c'.srv.refused = [] ∧ c'.pc = .test := by
  cases h with
  | idle h hr => exact Or.inr ⟨h, hr, hr, rfl⟩
  | shutdownRefused | shutdown | shutdownRaised | shutdownUnwound =>
    exact Or.inl (congrArg _ (shutdownRequest_srv _))
  | _ => exact Or.inl rfl

theorem Advances.of_idle (h : c.Advances c') (hi : c.srv.idle = true)
    (hpc : c.pc = .test ∨ c.pc.leaving = true) :
    c'.pc.leaving = true ∧ c'.srv.refused = c.srv.refused := by
  obtain hpc | hl := hpc
  · cases h with
    | moves h =>
      cases h with
      | done => exact ⟨rfl, rfl⟩
      | loop _ _ hi' =>
        rw [hi] at hi'
        cases hi'
      | raises h => obtain h | h := h <;> rw [h] at hpc <;> cases hpc
      | _ h =>
        rw [h] at hpc
        cases hpc
    | respond h => obtain h | h := h <;> rw [h] at hpc <;> cases hpc
    | _ h =>
      rw [h] at hpc
      cases hpc
  · obtain ⟨hl', hr, -⟩ := h.leaving hl
    exact ⟨hl', hr⟩

/-- What is known of the wait for the next connection, between any two steps. -/
structure WaitKept (T : Option ℚ) (c : Cfg) : Prop where
  limit : c.srv.idleTimeout = T
  accounted : c.pc.leaving = false → ∀ s peer t, .accepted s peer t ∈ c.log → c.Accounted s
  past : ∀ s peer t, .accepted s peer t ∈ c.log → t ≤ c.now
  timeout : c.pc = .handleRequest → c.srv.refused = [] → c.srv.timeout = T
  select : ∀ start timeout, c.pc = .select start timeout → c.srv.refused = [] →
    timeout = T ∧ Waited start c.log
  elapsed : c.pc = .handleTimeout → c.srv.refused = [] →
    ∃ start limit, T = some limit ∧ start + limit ≤ c.now ∧ Waited start c.log
  exit : c.srv.idle = true → c.srv.refused = [] ∧ (c.pc = .test ∨ c.pc.leaving = true)

variable {T : Option ℚ}

/-- A wait that begins with an empty queue begins after everything was closed. -/
theorem WaitKept.waited (hI : WaitKept T c) (hpc : c.pc = .handleRequest)
    (hr : c.srv.refused = []) : Waited c.now (.waitBegan c.now :: c.log) := by
  refine ⟨[], c.log, rfl, nofun, nofun, ?_⟩
  intro s peer t hmem
  refine ⟨?_, hI.past s peer t hmem⟩
  have hl : c.pc.leaving = false := by
    rw [hpc]
    rfl
  obtain hs | ⟨d, hs⟩ | hs := hI.accounted hl s peer t hmem
  · exact hs
  · rw [hr] at hs
    cases hs
  · rw [hpc] at hs
    cases hs

theorem WaitKept.advance (hI : WaitKept T c) (h : c.Advances c') : WaitKept T c' := by
  constructor
  · rw [h.limits.2]
    exact hI.limit
  · intro hl s peer t hmem
    obtain hadds | hmem := h.of_mem_log hmem
    · obtain ⟨-, hpc', -, -⟩ := hadds
      right
      right
      rw [hpc']
      rfl
    · have hl' : c.pc.leaving = false := by
        rw [← Bool.not_eq_true]
        intro hleaving
        rw [(h.leaving hleaving).1] at hl
        cases hl
      exact h.accounted (hI.accounted hl' s peer t hmem) hl
  · intro s peer t hmem
    rw [h.now]
    obtain hadds | hmem := h.of_mem_log hmem
    · obtain ⟨-, -, -, rfl⟩ := hadds
      exact le_refl _
    · exact hI.past s peer t hmem
  · intro hpc hr
    rw [h.to_handleRequest hpc] at hr ⊢
    have hr' : c.srv.refused = [] := hr
    have htimeout : c.srv.serveTimeout c.now = c.srv.idleTimeout := by
      rw [Server.serveTimeout, hr']
    exact htimeout.trans hI.limit
  · intro start timeout hpc hr
    obtain ⟨hpc', rfl, rfl, hsrv, hlog⟩ := h.to_select hpc
    rw [hsrv] at hr
    rw [hlog]
    exact ⟨hI.timeout hpc' hr, hI.waited hpc' hr⟩
  · intro hpc hr
    obtain ⟨start, timeout, hpc', hle, hsrv, hlog⟩ := h.to_handleTimeout hpc
    rw [hsrv] at hr
    obtain ⟨hT, hwaited⟩ := hI.select start (some timeout) hpc' hr
    rw [hlog, h.now]
    exact ⟨start, timeout, hT.symm, hle, hwaited⟩
  · intro hi
    obtain hsame | ⟨-, -, hr, hpc⟩ := h.srv_idle
    · rw [hsame] at hi
      obtain ⟨hr, hpc⟩ := hI.exit hi
      obtain ⟨hl, hr'⟩ := h.of_idle hi hpc
      exact ⟨hr'.trans hr, Or.inr hl⟩
    · exact ⟨hr, Or.inl hpc⟩

theorem WaitKept.stop (hI : WaitKept T c) (signal : Signal) : WaitKept T (c.stop signal) := by
  have hr : (c.stop signal).srv.refused = c.srv.refused := by rw [stop_srv]
  have hmem : ∀ s peer t, .accepted s peer t ∈ (c.stop signal).log → .accepted s peer t ∈ c.log := by
    intro s peer t h
    rw [stop_log] at h
    obtain h | h := List.mem_cons.mp h
    · cases h
    · exact h
  have hwaited : ∀ start, Waited start c.log → Waited start (c.stop signal).log := by
    intro start h
    rw [stop_log]
    exact h.cons nofun nofun
  constructor
  · rw [stop_srv]
    exact hI.limit
  · intro hl s peer t h
    have hpc' : (c.stop signal).pc = c.pc := pc_of_stop hl
    rw [hpc'] at hl
    obtain ⟨why, t', hs⟩ | hs | hs := hI.accounted hl s peer t (hmem s peer t h)
    · refine Or.inl ⟨why, t', ?_⟩
      rw [stop_log]
      exact List.mem_cons_of_mem _ hs
    · right
      left
      rw [hr]
      exact hs
    · right
      right
      rw [hpc']
      exact hs
  · intro s peer t h
    rw [stop_now]
    exact hI.past s peer t (hmem s peer t h)
  · intro hpc' hr'
    rw [stop_srv] at hr' ⊢
    have hsame : (c.stop signal).pc = c.pc := pc_of_stop (by rw [hpc']; rfl)
    exact hI.timeout (hsame.symm.trans hpc') hr'
  · intro start timeout hpc' hr'
    have hsame : (c.stop signal).pc = c.pc := pc_of_stop (by rw [hpc']; rfl)
    rw [hr] at hr'
    obtain ⟨hT, h⟩ := hI.select start timeout (hsame.symm.trans hpc') hr'
    exact ⟨hT, hwaited start h⟩
  · intro hpc' hr'
    have hsame : (c.stop signal).pc = c.pc := pc_of_stop (by rw [hpc']; rfl)
    rw [hr] at hr'
    obtain ⟨start, limit, hT, hle, h⟩ := hI.elapsed (hsame.symm.trans hpc') hr'
    rw [stop_now]
    exact ⟨start, limit, hT, hle, hwaited start h⟩
  · intro hi
    rw [stop_srv] at hi
    obtain ⟨hr', hpc'⟩ := hI.exit hi
    refine ⟨hr.trans hr', ?_⟩
    rw [stop_pc]
    split_ifs
    · exact Or.inr (Pc.leaving_interrupted _)
    · exact hpc'

theorem WaitKept.tick (hI : WaitKept T c) {d : ℚ} (hd : 0 ≤ d) :
    WaitKept T { c with now := c.now + d } := by
  refine ⟨hI.limit, hI.accounted, ?_, hI.timeout, hI.select, ?_, hI.exit⟩
  · intro s peer t hmem
    have hpast : t ≤ c.now := hI.past s peer t hmem
    dsimp only
    linarith
  · intro hpc hr
    obtain ⟨start, limit, hT, hle, hwaited⟩ := hI.elapsed hpc hr
    refine ⟨start, limit, hT, ?_, hwaited⟩
    dsimp only
    linarith

variable {uid : Option ℕ}

theorem Reached.waitKept (h : Reached uid T c) : WaitKept T c := by
  apply h.invariant
  · intro now ign
    exact ⟨rfl, nofun, nofun, nofun, nofun, nofun, nofun⟩
  · intro c d _ hI hd
    exact hI.tick hd
  · intro c signal _ hI
    exact hI.stop signal
  · intro c c' _ hI h
    exact hI.advance h

end Cfg

/-- In every run of `serve` with an idle timeout, `_idle` is set only at the end of the last wait, which
has lasted at least that long, began after each connection accepted before it was closed and saw none
accepted, so that the last one came at least that long ago; and only while no refused connection is held,
which then stays so to the end. -/
theorem idle_after_wait {uid : Option ℕ} {T : Option ℚ} {c : Cfg} (h : c.Reached uid T) :
    (∀ i c', c.step i = some c' → c.srv.idle = false → c'.srv.idle = true →
      c.srv.refused = [] ∧ ∃ limit newer start rest, T = some limit ∧
        c.log = newer ++ .waitBegan start :: rest ∧ (∀ t, .waitBegan t ∉ newer) ∧
        (∀ s peer t, .accepted s peer t ∉ newer) ∧ start + limit ≤ c.now ∧
        ∀ s peer t, .accepted s peer t ∈ c.log → Closed s rest ∧ t + limit ≤ c.now) ∧
    (c.srv.idle = true → c.srv.refused = []) := by
  have hI : Cfg.WaitKept T c := h.waitKept
  constructor
  · intro i c' hstep hidle hidle'
    have ha : c.Advances c' := by
      obtain ⟨d, -, rfl⟩ | rfl | ⟨signal, rfl⟩ | ha := Cfg.step_cases hstep
      · rw [hidle'] at hidle
        cases hidle
      · rw [hidle'] at hidle
        cases hidle
      · rw [Cfg.stop_srv, hidle] at hidle'
        cases hidle'
      · exact ha
    obtain hsame | ⟨hpc, hr, -, -⟩ := ha.srv_idle
    · rw [hsame, hidle] at hidle'
      cases hidle'
    · refine ⟨hr, ?_⟩
      obtain ⟨start, limit, hT, hle, newer, rest, hlog, hlast, hnewer, hrest⟩ := hI.elapsed hpc hr
      refine ⟨limit, newer, start, rest, hT, hlog, hlast, hnewer, hle, ?_⟩
      intro s peer t hmem
      rw [hlog] at hmem
      obtain hmem | hmem := List.mem_append.mp hmem
      · exact absurd hmem (hnewer s peer t)
      · obtain hmem | hmem := List.mem_cons.mp hmem
        · cases hmem
        · obtain ⟨hclosed, ht⟩ := hrest s peer t hmem
          refine ⟨hclosed, ?_⟩
          linarith
  · intro hidle
    exact (hI.exit hidle).1

/-- A client is served at time 1, and then no other comes for two seconds. -/
def servedOnce : List Input :=
  [.main .next, .main .next, .main .next, .tick 1, .main .ready, .main .next, .main (.accept none),
    .main .next, .main .next, .main .next, .main .request, .main (.respond [111, 107]),
    .main (.send 2), .main .next, .main .next, .main .next, .main .next, .main .next, .main .next,
    .tick 2, .main .elapsed]

theorem idle_after_wait_servedOnce :
    ∃ c c', Machine.run Cfg.step (.serve none (some 2) 0 false) servedOnce = some c ∧
      c.step (.main .next) = some c' ∧ c'.srv.idle = true ∧ c.srv.refused = [] ∧
      ∃ limit newer start rest, some 2 = some limit ∧ c.log = newer ++ .waitBegan start :: rest ∧
        (∀ t, .waitBegan t ∉ newer) ∧ (∀ s peer t, .accepted s peer t ∉ newer) ∧
        start + limit ≤ c.now ∧
        ∀ s peer t, .accepted s peer t ∈ c.log → Closed s rest ∧ t + limit ≤ c.now := by
  have hrun : (Machine.run Cfg.step (.serve none (some 2) 0 false) servedOnce).map
      (fun c => (c.srv.idle, (c.step (.main .next)).map fun c' => c'.srv.idle)) =
      some (false, some true) := by
    decide +kernel
  obtain ⟨c, hc, hidle⟩ := Option.map_eq_some_iff.mp hrun
  obtain ⟨hfalse, htrue⟩ := Prod.mk.inj hidle
  obtain ⟨c', hc', htrue⟩ := Option.map_eq_some_iff.mp htrue
  refine ⟨c, c', hc, hc', htrue, ?_⟩
  exact (idle_after_wait ⟨0, false, servedOnce, hc⟩).1 _ c' hc' hfalse htrue

end FluxRest
