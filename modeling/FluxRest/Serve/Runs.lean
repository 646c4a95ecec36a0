import FluxRest.Serve.Loop

/-! Runs of `serve`: the state it begins in, and induction over what it reaches. -/
namespace FluxRest
open Py

namespace Pc

/-- The accepted connection the main thread is busy with. -/
def sock : Pc → Option Sock
  | verify s _ | refuse s | hold s | evict s | shutdownRefused s | admitted s | setInRequest s
  | read s | route s | write s _ | shutdown s | clear s | clearRaised s | handleError s
  | shutdownRaised s | clearUnwound s | shutdownUnwound s => some s
  | _ => none

theorem sock_interrupted {pc : Pc} {s : Sock} (h : pc.interrupted.sock = some s) :
    pc.sock = some s := by
  cases pc <;> first | exact h | cases h

theorem inWindow_interrupted {pc : Pc} (h : pc.interrupted.inWindow = true) :
    pc.inWindow = true := by
  cases pc <;> first | rfl | cases h

/-- How the main thread goes on with the connection in hand. -/
inductive Proceeds (s : Sock) : Pc → Pc → Prop where
  | permit (peer) : Proceeds s (verify s peer) (admitted s)
  | reject (peer) : Proceeds s (verify s peer) (refuse s)
  | forbid : Proceeds s (refuse s) (hold s)
  | hold : Proceeds s (hold s) (evict s)
  | evict : Proceeds s (evict s) (evict s)
  | evicted : Proceeds s (evict s) (shutdownRefused s)
  | enter : Proceeds s (admitted s) (setInRequest s)
  | begin : Proceeds s (setInRequest s) (read s)
  | request : Proceeds s (read s) (route s)
  | respond {pc} (h : pc = read s ∨ pc = route s) (response) : Proceeds s pc (write s response)
  | quit : Proceeds s (read s) (shutdown s)
  | raises {pc} (h : pc = read s ∨ pc = route s) : Proceeds s pc (clearRaised s)
  | send (rest n) : Proceeds s (write s rest) (write s (rest.drop n))
  | written : Proceeds s (write s []) (shutdown s)
  | writeFails (rest) {pc} (h : pc = shutdown s ∨ pc = clearRaised s) : Proceeds s (write s rest) pc
  | shutdown : Proceeds s (shutdown s) (clear s)
  | clearRaised : Proceeds s (clearRaised s) (handleError s)
  | report : Proceeds s (handleError s) (shutdownRaised s)
  | clearUnwound : Proceeds s (clearUnwound s) (shutdownUnwound s)

variable {s : Sock} {pc pc' : Pc}

theorem Proceeds.sock (h : Proceeds s pc pc') : pc.sock = some s := by
  cases h with
  | respond h | raises h => obtain rfl | rfl := h <;> rfl
  | _ => rfl

theorem leaving_interrupted (pc : Pc) : pc.interrupted.leaving = true := by
  cases pc <;> rfl

end Pc

def Obs.isHandled : Obs → Bool
  | .handled .. => true
  | _ => false

namespace Cfg

/-- `serve()` as it enters its loop, with the attributes `main` has set. -/
def serve (allowedPeerUid : Option ℕ) (idleTimeout : Option ℚ) (now : ℚ) (sigintIgnored : Bool) :
    Cfg :=
  { srv := { allowedPeerUid, idleTimeout }, now, sigintIgnored }

/-- The states a run of `serve` goes through, whatever its clients and the signals do. -/
def Reached (allowedPeerUid : Option ℕ) (idleTimeout : Option ℚ) (c : Cfg) : Prop :=
  ∃ now sigintIgnored, Machine.Reaches step (serve allowedPeerUid idleTimeout now sigintIgnored) c

/-! What `_stop` does, whether it raises or not. -/

variable (c : Cfg) (signal : Signal)

@[simp] theorem stop_srv : (c.stop signal).srv = { c.srv with stopping := true } := by
  unfold stop
  split_ifs <;> rfl

@[simp] theorem stop_log : (c.stop signal).log =
    .handled signal (c.byTimer signal) c.srv.stopRaises c.pc.inWindow :: c.log := by
  unfold stop
  split_ifs <;> rfl

@[simp] theorem stop_now : (c.stop signal).now = c.now := by
  unfold stop
  split_ifs <;> rfl

@[simp] theorem stop_next : (c.stop signal).next = c.next := by
  unfold stop
  split_ifs <;> rfl

theorem stop_pc : (c.stop signal).pc = if c.srv.stopRaises then c.pc.interrupted else c.pc := by
  unfold stop
  split_ifs <;> rfl

theorem deliver_cases : c.deliver signal = c ∨ c.deliver signal = c.stop signal := by
  unfold deliver
  split
  · exact Or.inl rfl
  · split_ifs
    · exact Or.inl rfl
    · exact Or.inr rfl

variable {c c' : Cfg} {signal : Signal}

theorem sock_stop {s : Sock} (h : (c.stop signal).pc.sock = some s) : c.pc.sock = some s := by
  rw [stop_pc] at h
  split_ifs at h
  · exact Pc.sock_interrupted h
  · exact h

/-- Only a `_stop` that does not raise leaves the main thread where it was. -/
theorem pc_of_stop (h : (c.stop signal).pc.leaving = false) : (c.stop signal).pc = c.pc := by
  rw [stop_pc] at h ⊢
  split_ifs at h ⊢
  · rw [Pc.leaving_interrupted] at h
    cases h
  · rfl

/-- The time passes, a signal is handled, or the main thread takes a step. -/
theorem step_cases {c' : Cfg} {i : Input} (h : c.step i = some c') :
    (∃ d, 0 ≤ d ∧ c' = { c with now := c.now + d }) ∨ c' = c ∨
      (∃ signal, c' = c.stop signal) ∨ c.Advances c' := by
  cases i with
  | tick d =>
    simp only [step] at h
    split_ifs at h with hd
    cases h
    exact Or.inl ⟨d, hd, rfl⟩
  | signal signal =>
    simp only [step] at h
    cases h
    rcases c.deliver_cases signal with hc | hc
    · exact Or.inr (Or.inl hc)
    · exact Or.inr (Or.inr (Or.inl ⟨signal, hc⟩))
  | main choice => exact Or.inr (Or.inr (Or.inr (advances_of_advance h)))

theorem Moves.proceeds {pc : Pc} {s : Sock} (h : c.Moves pc) (hs : pc.sock = some s) :
    Pc.Proceeds s c.pc pc := by
  cases h with
  | permit h =>
    cases hs
    rw [h]
    exact .permit _
  | reject h =>
    cases hs
    rw [h]
    exact .reject _
  | evicted h =>
    cases hs
    rw [h]
    exact .evicted
  | enter h =>
    cases hs
    rw [h]
    exact .enter
  | quit h =>
    cases hs
    rw [h]
    exact .quit
  | raises h =>
    cases hs
    exact .raises h
  | written h =>
    cases hs
    rw [h]
    exact .written
  | report h =>
    cases hs
    rw [h]
    exact .report
  | _ => cases hs

theorem Moves.inWindow {pc : Pc} (h : c.Moves pc) (hw : pc.inWindow = true) :
    c.pc.inWindow = true := by
  cases h with
  | quit h | written h =>
    rw [h]
    rfl
  | raises h =>
    obtain h | h := h
    · rw [h]
      rfl
    · rw [h]
      rfl
  | _ => cases hw

/-! A step of the main thread takes no time, and leaves alone what only `_stop` or `main` sets. -/

theorem shutdownRequest_srv (s : Sock) : (c.shutdownRequest s).srv = c.srv := by
  unfold shutdownRequest
  split_ifs <;> rfl

theorem shutdownRequest_frame (s : Sock) : (c.shutdownRequest s).now = c.now ∧
    (c.shutdownRequest s).next = c.next ∧ (c.shutdownRequest s).armed = c.armed := by
  unfold shutdownRequest
  split_ifs <;> exact ⟨rfl, rfl, rfl⟩

theorem Advances.now {c' : Cfg} (h : c.Advances c') : c'.now = c.now := by
  cases h with
  | shutdownRefused | shutdown | shutdownRaised | shutdownUnwound =>
    exact (shutdownRequest_frame _).1
  | _ => rfl

theorem Advances.stopping {c' : Cfg} (h : c.Advances c') : c'.srv.stopping = c.srv.stopping := by
  cases h with
  | shutdownRefused | shutdown | shutdownRaised | shutdownUnwound =>
    exact congrArg Server.stopping (shutdownRequest_srv _)
  | _ => rfl

theorem Advances.limits {c' : Cfg} (h : c.Advances c') :
    c'.srv.allowedPeerUid = c.srv.allowedPeerUid ∧ c'.srv.idleTimeout = c.srv.idleTimeout := by
  cases h with
  | shutdownRefused | shutdown | shutdownRaised | shutdownUnwound =>
    exact ⟨congrArg _ (shutdownRequest_srv _), congrArg _ (shutdownRequest_srv _)⟩
  | _ => exact ⟨rfl, rfl⟩

theorem Advances.armed {c' : Cfg} (h : c.Advances c') : c'.armed = c.armed ∨ c'.armed = none := by
  cases h with
  | shutdownRefused | shutdown | shutdownRaised | shutdownUnwound =>
    exact Or.inl (shutdownRequest_frame _).2.2
  | disarm => exact Or.inr rfl
  | _ => exact Or.inl rfl

/-- A step of the main thread takes up a connection only by accepting it. -/
theorem Advances.proceeds {c' : Cfg} {s : Sock} (h : c.Advances c') (hs : c'.pc.sock = some s) :
    Pc.Proceeds s c.pc c'.pc ∧ c'.next = c.next ∨
      c.pc = .accept ∧ (∃ peer, c'.pc = .verify s peer) ∧ s = c.next ∧ c'.next = c.next + 1 := by
  cases h with
  | moves h => exact Or.inl ⟨h.proceeds hs, rfl⟩
  | accept h peer =>
    cases hs
    exact Or.inr ⟨h, ⟨peer, rfl⟩, rfl, rfl⟩
  | evict h =>
    rw [h] at hs
    cases hs
    dsimp only
    rw [h]
    exact Or.inl ⟨.evict, rfl⟩
  | forbid h =>
    cases hs
    rw [h]
    exact Or.inl ⟨.forbid, rfl⟩
  | hold h =>
    cases hs
    rw [h]
    exact Or.inl ⟨.hold, rfl⟩
  | begin h =>
    cases hs
    rw [h]
    exact Or.inl ⟨.begin, rfl⟩
  | request h =>
    cases hs
    rw [h]
    exact Or.inl ⟨.request, rfl⟩
  | respond h =>
    cases hs
    exact Or.inl ⟨.respond h _, rfl⟩
  | send h n =>
    cases hs
    rw [h]
    exact Or.inl ⟨.send _ n, rfl⟩
  | @writeFails s' rest pc h hpc =>
    have hs' : s' = s := by obtain rfl | rfl := hpc <;> exact Option.some.inj hs
    subst hs'
    rw [h]
    exact Or.inl ⟨.writeFails rest hpc, rfl⟩
  | shutdown h =>
    cases hs
    rw [h]
    exact Or.inl ⟨.shutdown, (shutdownRequest_frame _).2.1⟩
  | clearRaised h =>
    cases hs
    rw [h]
    exact Or.inl ⟨.clearRaised, rfl⟩
  | clearUnwound h =>
    cases hs
    rw [h]
    exact Or.inl ⟨.clearUnwound, rfl⟩
  | serveTimeout | wait | idle | reapTimeout | reap | shutdownRefused | clear | shutdownRaised
  | shutdownUnwound | disarm | serverClose => cases hs

theorem Advances.next_le {c' : Cfg} (h : c.Advances c') : c.next ≤ c'.next := by
  cases h with
  | shutdownRefused | shutdown | shutdownRaised | shutdownUnwound =>
    rw [(shutdownRequest_frame _).2.1]
  | accept => exact Nat.le_succ _
  | _ => exact le_refl _

/-- Once on its way out of `serve`, the main thread stays so, and changes neither the queue nor
`_idle`. -/
theorem Advances.leaving (h : c.Advances c') (hl : c.pc.leaving = true) :
    c'.pc.leaving = true ∧ c'.srv.refused = c.srv.refused ∧ c'.srv.idle = c.srv.idle := by
  cases h with
  | moves h =>
    cases h with
    | finish => exact ⟨rfl, rfl, rfl⟩
    | raises h => obtain h | h := h <;> rw [h] at hl <;> cases hl
    | _ h =>
      rw [h] at hl
      cases hl
  | clearUnwound | disarm | serverClose => exact ⟨rfl, rfl, rfl⟩
  | shutdownUnwound => exact ⟨rfl, congrArg _ (shutdownRequest_srv _), congrArg _ (shutdownRequest_srv _)⟩
  | respond h => obtain h | h := h <;> rw [h] at hl <;> cases hl
  | _ h =>
    rw [h] at hl
    cases hl

/-! The steps that close connections only add to the log. -/

theorem reap_log : c.reap.log =
    ((Queue.due c.now c.srv.refused).map fun e => .closed e.1 .reaped c.now).reverse ++ c.log := rfl

theorem mem_reap_log {o : Obs} : o ∈ c.reap.log ↔
    (∃ e ∈ Queue.due c.now c.srv.refused, o = .closed e.1 .reaped c.now) ∨ o ∈ c.log := by
  rw [reap_log, List.mem_append, List.mem_reverse, List.mem_map]
  constructor
  · intro h
    obtain ⟨e, he, rfl⟩ | h := h
    · exact Or.inl ⟨e, he, rfl⟩
    · exact Or.inr h
  · intro h
    obtain ⟨e, he, rfl⟩ | h := h
    · exact Or.inl ⟨e, he, rfl⟩
    · exact Or.inr h

variable (c) in
/-- Any way of reading the log that passes over closes reads the same after a reaping. -/
theorem filterMap_reap {α : Type} {f : Obs → Option α} (hf : ∀ s why t, f (.closed s why t) = none) :
    c.reap.log.filterMap f = c.log.filterMap f := by
  have hnil : ((Queue.due c.now c.srv.refused).map
      fun e => Obs.closed e.1 .reaped c.now).reverse.filterMap f = [] := by
    rw [List.filterMap_eq_nil_iff]
    intro o ho
    obtain ⟨e, -, rfl⟩ := List.mem_map.mp (List.mem_reverse.mp ho)
    exact hf _ _ _
  rw [reap_log, List.filterMap_append, hnil, List.nil_append]

variable (c) in
theorem shutdownRequest_cases (s : Sock) :
    (c.srv.isRefused s = true ∧ c.shutdownRequest s = c) ∨ (c.srv.isRefused s = false ∧
      c.shutdownRequest s = { c with log := .closed s .shutdown c.now :: c.log }) := by
  unfold shutdownRequest
  cases hr : c.srv.isRefused s with
  | true => exact Or.inl ⟨rfl, if_pos rfl⟩
  | false => exact Or.inr ⟨rfl, if_neg Bool.false_ne_true⟩

variable (c) in
theorem filterMap_shutdownRequest {α : Type} {f : Obs → Option α}
    (hf : ∀ s why t, f (.closed s why t) = none) (s : Sock) :
    (c.shutdownRequest s).log.filterMap f = c.log.filterMap f := by
  obtain ⟨-, h⟩ | ⟨-, h⟩ := c.shutdownRequest_cases s
  · rw [h]
  · rw [h, List.filterMap_cons_none (hf _ _ _)]

variable (c c') in
/-- What a step of the main thread may add to the log, by where it was. -/
def Adds : Obs → Prop
  | .accepted s peer t => c.pc = .accept ∧ c'.pc = .verify s peer ∧ s = c.next ∧ t = c.now
  | .forbidden s _ => c.pc = .refuse s
  | .began s => c.pc = .setInRequest s
  | .ran s => c.pc = .read s
  | .handled .. => False
  | _ => True

theorem Adds.not_handled {o : Obs} (h : c.Adds c' o) : o.isHandled = false := by
  cases o <;> first | rfl | exact h.elim

theorem Advances.log (h : c.Advances c') : ∃ new, c'.log = new ++ c.log ∧ ∀ o ∈ new, c.Adds c' o := by
  have hone : ∀ o, c'.log = o :: c.log → c.Adds c' o →
      ∃ new, c'.log = new ++ c.log ∧ ∀ o ∈ new, c.Adds c' o := by
    intro o hlog ho
    refine ⟨[o], hlog, ?_⟩
    intro o' ho'
    rw [List.mem_singleton.mp ho']
    exact ho
  have hnone : c'.log = c.log → ∃ new, c'.log = new ++ c.log ∧ ∀ o ∈ new, c.Adds c' o :=
    fun hlog => ⟨[], hlog, nofun⟩
  have hreap : c'.log = c.reap.log → ∃ new, c'.log = new ++ c.log ∧ ∀ o ∈ new, c.Adds c' o := by
    intro hlog
    refine ⟨_, hlog, ?_⟩
    intro o ho
    obtain ⟨e, -, rfl⟩ := List.mem_map.mp (List.mem_reverse.mp ho)
    trivial
  have hshutdown : ∀ s, c'.log = (c.shutdownRequest s).log →
      ∃ new, c'.log = new ++ c.log ∧ ∀ o ∈ new, c.Adds c' o := by
    intro s hlog
    obtain ⟨-, hs⟩ | ⟨-, hs⟩ := c.shutdownRequest_cases s
    · rw [hs] at hlog
      exact hnone hlog
    · rw [hs] at hlog
      exact hone _ hlog trivial
  cases h with
  | accept h => exact hone _ rfl ⟨h, rfl, rfl, rfl⟩
  | forbid h | begin h | request h => exact hone _ rfl h
  | wait | hold | evict | respond | send | writeFails => exact hone _ rfl trivial
  | moves | serveTimeout | idle | clear | clearRaised | clearUnwound | disarm | serverClose =>
    exact hnone rfl
  | reapTimeout | reap => exact hreap rfl
  | shutdownRefused | shutdown | shutdownRaised | shutdownUnwound => exact hshutdown _ rfl

theorem Advances.mem_log (h : c.Advances c') {o : Obs} (ho : o ∈ c.log) : o ∈ c'.log := by
  obtain ⟨new, hlog, -⟩ := h.log
  rw [hlog]
  exact List.mem_append_right new ho

theorem Advances.of_mem_log (h : c.Advances c') {o : Obs} (ho : o ∈ c'.log) :
    c.Adds c' o ∨ o ∈ c.log := by
  obtain ⟨new, hlog, hnew⟩ := h.log
  rw [hlog] at ho
  obtain ho | ho := List.mem_append.mp ho
  · exact Or.inl (hnew o ho)
  · exact Or.inr ho

/-- The loop is left by its condition; else a `KeyboardInterrupt` is on its way out already. -/
theorem Advances.of_leaving (h : c.Advances c') (hl' : c'.pc.leaving = true) :
    c.pc.leaving = true ∨ c.pc = .test ∧ c'.pc = .loopDone ∧ c'.srv = c.srv ∧
      (c.srv.stopping = true ∨ c.srv.idle = true) := by
  cases h with
  | moves h =>
    cases h with
    | done h hd => exact Or.inr ⟨h, rfl, rfl, hd⟩
    | finish h =>
      left
      rw [h]
      rfl
    | _ => cases hl'
  | evict h =>
    rw [h] at hl'
    cases hl'
  | writeFails _ h => obtain rfl | rfl := h <;> cases hl'
  | clearUnwound h | shutdownUnwound h | disarm h | serverClose h =>
    left
    rw [h]
    rfl
  | _ => cases hl'

variable {uid : Option ℕ} {T : Option ℚ}

/-- What holds as the loop is entered, and is kept by the time, by `_stop` and by each step of the
main thread, holds of every state reached. -/
theorem Reached.invariant {I : Cfg → Prop} {c : Cfg} (h : Reached uid T c)
    (start : ∀ now sigintIgnored, I (serve uid T now sigintIgnored))
    (tick : ∀ c d, Reached uid T c → I c → 0 ≤ d → I { c with now := c.now + d })
    (stop : ∀ c signal, Reached uid T c → I c → I (c.stop signal))
    (advance : ∀ c c', Reached uid T c → I c → c.Advances c' → I c') : I c := by
  obtain ⟨now, ign, h⟩ := h
  apply h.invariant (start now ign)
  intro u i v hu hI hv
  have hr : Reached uid T u := ⟨now, ign, hu⟩
  rcases step_cases hv with ⟨d, hd, rfl⟩ | rfl | ⟨signal, rfl⟩ | ha
  · exact tick u d hr hI hd
  · exact hI
  · exact stop u signal hr hI
  · exact advance u v hr hI ha

/-- The connection in hand is the one accepted last. -/
theorem Reached.sock_last (h : Reached uid T c) {s : Sock} (hs : c.pc.sock = some s) : c.next = s + 1 := by
  revert s
  apply h.invariant
  · intro now ign s hs
    cases hs
  · intro c d _ ih _ s hs
    exact ih hs
  · intro c signal _ ih s hs
    rw [stop_next]
    exact ih (sock_stop hs)
  · intro c c' _ ih ha s hs
    obtain ⟨hp, hn⟩ | ⟨-, -, hs, hn⟩ := ha.proceeds hs
    · rw [hn]
      exact ih hp.sock
    · rw [hn, hs]

theorem Reached.sock_lt (h : Reached uid T c) {s : Sock} (hs : c.pc.sock = some s) : s < c.next := by
  rw [h.sock_last hs]
  exact Nat.lt_succ_self s

/-- What `main` has set stays as it is. -/
theorem Reached.limits (h : Reached uid T c) :
    c.srv.allowedPeerUid = uid ∧ c.srv.idleTimeout = T := by
  apply h.invariant
  · intro now ign
    exact ⟨rfl, rfl⟩
  · intro c d _ hI _
    exact hI
  · intro c signal _ hI
    rw [stop_srv]
    exact hI
  · intro c c' _ hI h
    rw [h.limits.1, h.limits.2]
    exact hI

end Cfg

end FluxRest
