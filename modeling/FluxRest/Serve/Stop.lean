import FluxRest.Serve.Runs

/-! Stop signals: `_stop` does not raise while a request is in flight unless it has run before, and
so one signal cuts no response short. -/
namespace FluxRest
open Py

namespace Obs

/-- A stop signal that the interval timer did not send. -/
def isStop : Obs → Bool
  | handled _ timer _ _ => !timer
  | _ => false

def sent? (s : Sock) : Obs → Option Bytes
  | sent s' bytes => if s' = s then some bytes else none
  | _ => none

def answer? (s : Sock) : Obs → Option Bytes
  | answer s' response => if s' = s then some response else none
  | _ => none

/-- A raise of `KeyboardInterrupt` between the set and the clear of `_in_request` comes after a
stop signal. -/
def RaisesLate (o : Obs) (older : List Obs) : Prop :=
  ∀ signal timer, o = .handled signal timer true true → ∃ o' ∈ older, o'.isStop = true

end Obs

namespace Input

def isSignal : Input → Bool
  | signal _ => true
  | _ => false

def isAlarm : Input → Bool
  | signal .alrm => true
  | _ => false

def isStop : Input → Bool
  | signal .term | signal .int => true
  | _ => false

end Input

/-- The responses made for a connection. -/
def answersTo (s : Sock) (log : List Obs) : List Bytes := log.filterMap (Obs.answer? s)

/-- What a client has been sent. -/
def sentTo (s : Sock) (log : List Obs) : Bytes := (log.filterMap (Obs.sent? s)).reverse.flatten

theorem sentTo_cons_sent (s : Sock) (bytes : Bytes) (log : List Obs) :
    sentTo s (.sent s bytes :: log) = sentTo s log ++ bytes := by
  simp [sentTo, Obs.sent?]

theorem answersTo_cons_answer (s : Sock) (response : Bytes) (log : List Obs) :
    answersTo s (.answer s response :: log) = response :: answersTo s log := by
  simp [answersTo, Obs.answer?]

namespace Pc

/-- The permitted connection whose response is still to be made. -/
def awaiting : Pc → Option Sock
  | verify s _ | admitted s | setInRequest s | read s | route s => some s
  | _ => none

theorem sock_of_awaiting {pc : Pc} {s : Sock} (h : pc.awaiting = some s) : pc.sock = some s := by
  cases pc <;> first | exact h | cases h

theorem Proceeds.awaiting {s : Sock} {pc pc' : Pc} (h : Proceeds s pc pc')
    (hs : pc'.awaiting = some s) : pc.awaiting = some s := by
  cases h with
  | permit | enter | begin | request => rfl
  | writeFails rest h => obtain rfl | rfl := h <;> cases hs
  | _ => cases hs

theorem interrupted_left (pc : Pc) :
    pc.interrupted.awaiting = none ∧ ∀ s rest, pc.interrupted ≠ .write s rest := by
  cases pc <;> exact ⟨rfl, fun s rest h => nomatch h⟩

end Pc

namespace Cfg

variable {c c' : Cfg}

/-- What the attributes `_stop` reads tell between any two steps. -/
structure StopFlags (c : Cfg) : Prop where
  inRequest : c.pc.inWindow = true → c.srv.inRequest = true
  stopping : c.srv.stopping = true → ∃ o ∈ c.log, o.isStop = true
  armed : c.armed.isSome = true → c.srv.stopping = true
  late : History.Always Obs.RaisesLate c.log

theorem Advances.inRequest (h : c.Advances c')
    (hI : c.pc.inWindow = true → c.srv.inRequest = true) (hw : c'.pc.inWindow = true) :
    c'.srv.inRequest = true := by
  cases h with
  | moves h => exact hI (h.inWindow hw)
  | begin => rfl
  | request h | send h =>
    apply hI
    rw [h]
    rfl
  | respond h =>
    apply hI
    obtain h | h := h
    · rw [h]
      rfl
    · rw [h]
      rfl
  | writeFails h =>
    apply hI
    rw [h]
    rfl
  | shutdown h =>
    rw [shutdownRequest_srv]
    apply hI
    rw [h]
    rfl
  | evict h =>
    rw [h] at hw
    cases hw
  | serveTimeout | wait | idle | reapTimeout | reap | accept | forbid | hold | shutdownRefused
  | clear | clearRaised | shutdownRaised | clearUnwound | shutdownUnwound | disarm | serverClose =>
    cases hw

theorem StopFlags.advance (hI : c.StopFlags) (h : c.Advances c') : c'.StopFlags := by
  obtain ⟨new, hlog, hnew⟩ := h.log
  constructor
  · exact h.inRequest hI.inRequest
  · intro hs
    rw [h.stopping] at hs
    obtain ⟨o, ho, hstop⟩ := hI.stopping hs
    exact ⟨o, h.mem_log ho, hstop⟩
  · intro ha
    rw [h.stopping]
    obtain harmed | harmed := h.armed
    · rw [harmed] at ha
      exact hI.armed ha
    · rw [harmed] at ha
      cases ha
  · rw [hlog]
    apply hI.late.append
    intro o mid ho signal timer heq
    have hadds : c.Adds c' o := hnew o (ho.mem List.mem_cons_self)
    rw [heq] at hadds
    exact hadds.elim

theorem StopFlags.stop (hI : c.StopFlags) (signal : Signal) : (c.stop signal).StopFlags := by
  -- the timer is armed only once a stop signal has been handled
  have hstop : ∃ o ∈ (c.stop signal).log, o.isStop = true := by
    rw [stop_log]
    cases ht : c.byTimer signal with
    | false => exact ⟨_, List.mem_cons_self, rfl⟩
    | true =>
      have harmed : c.armed.isSome = true := by
        cases ha : c.armed with
        | none => simp [byTimer, ha] at ht
        | some t => rfl
      obtain ⟨o, ho, h⟩ := hI.stopping (hI.armed harmed)
      exact ⟨o, List.mem_cons_of_mem _ ho, h⟩
  constructor
  · intro hw
    rw [stop_srv]
    rw [stop_pc] at hw
    split_ifs at hw
    · exact hI.inRequest (Pc.inWindow_interrupted hw)
    · exact hI.inRequest hw
  · intro _
    exact hstop
  · intro _
    rw [stop_srv]
  · rw [stop_log]
    refine ⟨?_, hI.late⟩
    intro signal' timer heq
    obtain ⟨-, -, hraised, hwindow⟩ := Obs.handled.inj heq
    have hin : c.srv.inRequest = true := hI.inRequest hwindow
    rw [Server.stopRaises, hin, Bool.not_true, Bool.or_false] at hraised
    exact hI.stopping hraised

variable {uid : Option ℕ} {T : Option ℚ}

theorem Reached.stopFlags (h : Reached uid T c) : c.StopFlags := by
  apply h.invariant
  · intro now ign
    constructor
    · intro hw
      cases hw
    · intro hs
      cases hs
    · intro ha
      cases ha
    · trivial
  · intro c d _ hI _
    exact ⟨hI.inRequest, hI.stopping, hI.armed, hI.late⟩
  · intro c signal _ hI
    exact hI.stop signal
  · intro c c' _ hI h
    exact hI.advance h

theorem Advances.window (h : c.Advances c')
    (hI : c.srv.inRequest = true → c.pc.inWindow = true ∨ c.pc.leaving = true)
    (hr : c'.srv.inRequest = true) : c'.pc.inWindow = true ∨ c'.pc.leaving = true := by
  cases h with
  | begin | request | respond | send | shutdown => exact Or.inl rfl
  | clearUnwound | shutdownUnwound | disarm | serverClose => exact Or.inr rfl
  | clear | clearRaised => cases hr
  | writeFails _ hpc =>
    left
    obtain rfl | rfl := hpc <;> rfl
  | moves h =>
    cases h with
    | quit | raises | written => exact Or.inl rfl
    | done | finish => exact Or.inr rfl
    | _ h =>
      have hpc := hI hr
      rw [h] at hpc
      obtain hpc | hpc := hpc <;> cases hpc
  | shutdownRefused h | shutdownRaised h =>
    rw [shutdownRequest_srv] at hr
    have hpc := hI hr
    rw [h] at hpc
    obtain hpc | hpc := hpc <;> cases hpc
  | _ h =>
    have hpc := hI hr
    rw [h] at hpc
    obtain hpc | hpc := hpc <;> cases hpc

/-- `_in_request` is set only while a request is served, unless `serve` is being left. -/
theorem Reached.window (h : Reached uid T c) :
    c.srv.inRequest = true → c.pc.inWindow = true ∨ c.pc.leaving = true := by
  apply h.invariant
  · intro now ign hr
    cases hr
  · intro c d _ hI _
    exact hI
  · intro c signal _ hI hr
    rw [stop_srv] at hr
    rw [stop_pc]
    split_ifs
    · exact Or.inr (Pc.leaving_interrupted _)
    · exact hI hr
  · intro c c' _ hI h
    exact h.window hI

/-! What a client has been sent, step by step. -/

/-- A step that sends nothing to `s` and makes no response for it. -/
structure Quiet (s : Sock) (c c' : Cfg) : Prop where
  answers : answersTo s c'.log = answersTo s c.log
  sent : sentTo s c'.log = sentTo s c.log
  pc : ∀ rest, c'.pc ≠ .write s rest
  done : ∀ rest, c.pc = .write s rest → rest = [] ∨ .writeFailed s ∈ c'.log

theorem Moves.quiet {pc : Pc} (h : c.Moves pc) (s : Sock) : Quiet s c { c with pc } := by
  constructor
  · rfl
  · rfl
  · intro rest hpc
    cases h <;> cases hpc
  · intro rest hpc
    cases h with
    | written h =>
      rw [hpc] at h
      cases h
      exact Or.inl rfl
    | raises h =>
      rw [hpc] at h
      obtain h | h := h <;> cases h
    | _ h =>
      rw [hpc] at h
      cases h

/-- Only a response made at `read s` or `route s`, and a send at `write s`, bear on what is sent
to `s`. -/
theorem Advances.traffic (h : c.Advances c') (s : Sock) :
    Quiet s c c' ∨
    (∃ response, (c.pc = .read s ∨ c.pc = .route s) ∧ c'.pc = .write s response ∧
      c'.log = .answer s response :: c.log) ∨
    (∃ rest n, c.pc = .write s rest ∧ c'.pc = .write s (rest.drop n) ∧
      c'.log = .sent s (rest.take n) :: c.log) := by
  have hquiet : c'.log.filterMap (Obs.answer? s) = c.log.filterMap (Obs.answer? s) →
      c'.log.filterMap (Obs.sent? s) = c.log.filterMap (Obs.sent? s) →
      (∀ rest, c'.pc ≠ .write s rest) →
      (∀ rest, c.pc = .write s rest → rest = [] ∨ .writeFailed s ∈ c'.log) → Quiet s c c' := by
    intro ha hs hpc hdone
    exact ⟨ha, congrArg (fun l => l.reverse.flatten) hs, hpc, hdone⟩
  cases h with
  | moves h => exact Or.inl (h.quiet s)
  | @respond s' h response =>
    by_cases hs : s' = s
    · subst hs
      exact Or.inr (Or.inl ⟨response, h, rfl, rfl⟩)
    · left
      refine hquiet (List.filterMap_cons_none (if_neg hs)) rfl ?_ ?_
      · intro rest hpc
        cases hpc
        exact hs rfl
      · intro rest hpc
        rw [hpc] at h
        obtain h | h := h <;> cases h
  | @send s' rest' h n =>
    by_cases hs : s' = s
    · subst hs
      exact Or.inr (Or.inr ⟨rest', n, h, rfl, rfl⟩)
    · left
      refine hquiet rfl (List.filterMap_cons_none (if_neg hs)) ?_ ?_
      · intro rest hpc
        cases hpc
        exact hs rfl
      · intro rest hpc
        rw [h] at hpc
        cases hpc
        exact absurd rfl hs
  | @writeFails s' rest' pc h hpc =>
    left
    refine hquiet rfl rfl ?_ ?_
    · intro rest hwrite
      obtain rfl | rfl := hpc <;> cases hwrite
    · intro rest hwrite
      rw [h] at hwrite
      cases hwrite
      exact Or.inr List.mem_cons_self
  | reapTimeout h | reap h =>
    left
    refine hquiet (c.filterMap_reap fun _ _ _ => rfl) (c.filterMap_reap fun _ _ _ => rfl)
      (fun rest hpc => nomatch hpc) ?_
    intro rest hpc
    rw [h] at hpc
    cases hpc
  | shutdownRefused h | shutdown h | shutdownRaised h | shutdownUnwound h =>
    left
    refine hquiet (c.filterMap_shutdownRequest (fun _ _ _ => rfl) _)
      (c.filterMap_shutdownRequest (fun _ _ _ => rfl) _) (fun rest hpc => nomatch hpc) ?_
    intro rest hpc
    rw [h] at hpc
    cases hpc
  | evict h =>
    left
    refine hquiet rfl rfl ?_ ?_
    · intro rest hpc
      rw [h] at hpc
      cases hpc
    · intro rest hpc
      rw [h] at hpc
      cases hpc
  | _ h =>
    left
    refine hquiet rfl rfl (fun rest hpc => nomatch hpc) ?_
    intro rest hpc
    rw [h] at hpc
    cases hpc

theorem Advances.awaiting (h : c.Advances c') {s : Sock} (hs : c'.pc.awaiting = some s) :
    c.pc.awaiting = some s ∨ c.pc = .accept ∧ s = c.next := by
  obtain ⟨hp, -⟩ | ⟨haccept, -, hs, -⟩ := h.proceeds (Pc.sock_of_awaiting hs)
  · exact Or.inl (hp.awaiting hs)
  · exact Or.inr ⟨haccept, hs⟩

/-- What a client has been sent when no more will follow: nothing, all of its response, or what
it got before it went away or a stop signal was handled that raised. -/
def Settled (s : Sock) (log : List Obs) : Prop :=
  sentTo s log = [] ∨ answersTo s log = [sentTo s log] ∨ .writeFailed s ∈ log ∨
    ∃ signal timer, .handled signal timer true true ∈ log

/-- How much of its response a connection has been sent, at any point of a run. -/
structure Delivery (s : Sock) (c : Cfg) : Prop where
  fresh : c.next ≤ s → answersTo s c.log = [] ∧ sentTo s c.log = []
  awaiting : c.pc.awaiting = some s → answersTo s c.log = [] ∧ sentTo s c.log = []
  writing : ∀ rest, c.pc = .write s rest → answersTo s c.log = [sentTo s c.log ++ rest]
  settled : (∀ rest, c.pc ≠ .write s rest) → Settled s c.log

theorem Settled.of_eq {s : Sock} {log log' : List Obs} (h : Settled s log)
    (ha : answersTo s log' = answersTo s log) (hs : sentTo s log' = sentTo s log)
    (hmem : ∀ o ∈ log, o ∈ log') : Settled s log' := by
  unfold Settled
  rw [ha, hs]
  obtain h | h | h | ⟨signal, timer, h⟩ := h
  · exact Or.inl h
  · exact Or.inr (Or.inl h)
  · exact Or.inr (Or.inr (Or.inl (hmem _ h)))
  · exact Or.inr (Or.inr (Or.inr ⟨signal, timer, hmem _ h⟩))

theorem Delivery.of_quiet {s : Sock} (hI : Delivery s c) (h : c.Advances c') (hq : Quiet s c c') :
    Delivery s c' := by
  constructor
  · intro hs
    rw [hq.answers, hq.sent]
    exact hI.fresh (h.next_le.trans hs)
  · intro hs
    rw [hq.answers, hq.sent]
    obtain hs | ⟨-, rfl⟩ := h.awaiting hs
    · exact hI.awaiting hs
    · exact hI.fresh (le_refl _)
  · intro rest hpc
    exact absurd hpc (hq.pc rest)
  · intro _
    by_cases hw : ∃ rest, c.pc = .write s rest
    · obtain ⟨rest, hw⟩ := hw
      obtain rfl | hfailed := hq.done rest hw
      · have hall : answersTo s c.log = [sentTo s c.log] := by
          rw [hI.writing [] hw, List.append_nil]
        right
        left
        rw [hq.answers, hq.sent]
        exact hall
      · exact Or.inr (Or.inr (Or.inl hfailed))
    · have hs : Settled s c.log := hI.settled fun rest hpc => hw ⟨rest, hpc⟩
      exact hs.of_eq hq.answers hq.sent fun o ho => h.mem_log ho

theorem Delivery.advance {s : Sock} (hI : Delivery s c) (hlt : ∀ s', c.pc.sock = some s' → s' < c.next)
    (h : c.Advances c') : Delivery s c' := by
  obtain hq | ⟨response, hpc, hpc', hlog⟩ | ⟨rest, n, hpc, hpc', hlog⟩ := h.traffic s
  · exact hI.of_quiet h hq
  · have hempty : answersTo s c.log = [] ∧ sentTo s c.log = [] := by
      apply hI.awaiting
      obtain hpc | hpc := hpc <;> rw [hpc] <;> rfl
    have hs : s < c'.next := by
      refine (hlt s ?_).trans_le h.next_le
      obtain hpc | hpc := hpc <;> rw [hpc] <;> rfl
    constructor
    · intro hle
      exact absurd hle (not_le.mpr hs)
    · intro hs
      rw [hpc'] at hs
      cases hs
    · intro rest hw
      rw [hpc'] at hw
      cases hw
      have hsent : sentTo s c'.log = [] := by
        rw [hlog]
        exact hempty.2
      rw [hsent, hlog, answersTo_cons_answer, hempty.1]
      rfl
    · intro hw
      exact absurd hpc' (hw _)
  · have hs : s < c'.next := by
      refine (hlt s ?_).trans_le h.next_le
      rw [hpc]
      rfl
    constructor
    · intro hle
      exact absurd hle (not_le.mpr hs)
    · intro hs
      rw [hpc'] at hs
      cases hs
    · intro rest' hw
      rw [hpc'] at hw
      cases hw
      have hanswers : answersTo s c'.log = answersTo s c.log := by
        rw [hlog]
        rfl
      rw [hanswers, hlog, sentTo_cons_sent, List.append_assoc, List.take_append_drop]
      exact hI.writing rest hpc
    · intro hw
      exact absurd hpc' (hw _)

theorem Delivery.stop {s : Sock} (hI : Delivery s c) (signal : Signal) :
    Delivery s (c.stop signal) := by
  have ha : answersTo s (c.stop signal).log = answersTo s c.log := by
    rw [stop_log]
    rfl
  have hs : sentTo s (c.stop signal).log = sentTo s c.log := by
    rw [stop_log]
    rfl
  constructor
  · rw [ha, hs, stop_next]
    exact hI.fresh
  · intro hw
    rw [ha, hs]
    rw [stop_pc] at hw
    split_ifs at hw
    · rw [(Pc.interrupted_left _).1] at hw
      cases hw
    · exact hI.awaiting hw
  · intro rest hw
    rw [ha, hs]
    rw [stop_pc] at hw
    split_ifs at hw
    · exact absurd hw ((Pc.interrupted_left _).2 s rest)
    · exact hI.writing rest hw
  · intro hw
    by_cases hwrite : ∃ rest, c.pc = .write s rest
    · -- the response is cut short here only if `_stop` raises
      obtain ⟨rest, hwrite⟩ := hwrite
      have hr : c.srv.stopRaises = true := by
        by_contra hr
        apply hw rest
        rw [stop_pc, if_neg hr, hwrite]
      refine Or.inr (Or.inr (Or.inr ⟨signal, c.byTimer signal, ?_⟩))
      rw [stop_log, hr, hwrite]
      exact List.mem_cons_self
    · have hsettled : Settled s c.log := hI.settled fun rest hpc => hwrite ⟨rest, hpc⟩
      apply hsettled.of_eq ha hs
      intro o ho
      rw [stop_log]
      exact List.mem_cons_of_mem _ ho

theorem Reached.delivery (h : Reached uid T c) (s : Sock) : Delivery s c := by
  apply h.invariant
  · intro now ign
    constructor
    · intro _
      exact ⟨rfl, rfl⟩
    · intro hs
      cases hs
    · intro rest hw
      cases hw
    · intro _
      exact Or.inl rfl
  · intro c d _ hI _
    exact ⟨hI.fresh, hI.awaiting, hI.writing, hI.settled⟩
  · intro c signal _ hI
    exact hI.stop signal
  · intro c c' hr hI h
    exact hI.advance (fun s' hs => hr.sock_lt hs) h

/-- The log holds no more of what `_stop` notes than there were signals. -/
theorem countP_log_le {p : Obs → Bool} {q : Input → Bool}
    (hp : ∀ o, p o = true → o.isHandled = true)
    (hq : ∀ signal timer raised inWindow, p (.handled signal timer raised inWindow) = true →
      q (.signal signal) = true)
    {inputs : List Input} (h : Machine.run step c inputs = some c') :
    c'.log.countP p ≤ c.log.countP p + inputs.countP q := by
  apply Machine.run_countP_le (m := fun c : Cfg => c.log.countP p) _ h
  intro c i c' hstep
  cases i with
  | tick d =>
    simp only [step] at hstep
    split_ifs at hstep
    cases hstep
    exact Nat.le_add_right _ _
  | signal signal =>
    simp only [step] at hstep
    cases hstep
    obtain hc | hc := deliver_cases c signal
    · rw [hc]
      exact Nat.le_add_right _ _
    · rw [hc, stop_log, List.countP_cons]
      split_ifs with hnoted hsignal
      · exact le_refl _
      · exact absurd (hq _ _ _ _ hnoted) hsignal
      · omega
      · exact le_refl _
  | main choice =>
    obtain ⟨new, hlog, hnew⟩ := (advances_of_advance hstep).log
    have hzero : new.countP p = 0 := by
      rw [List.countP_eq_zero]
      intro o ho hnoted
      have hnot := (hnew o ho).not_handled
      rw [hp o hnoted] at hnot
      cases hnot
    rw [hlog, List.countP_append, hzero, Nat.zero_add]
    exact Nat.le_add_right _ _

/-- `_stop` runs at most once for each signal. -/
theorem handled_le {inputs : List Input} (h : Machine.run step c inputs = some c') :
    c'.log.countP Obs.isHandled ≤ c.log.countP Obs.isHandled + inputs.countP Input.isSignal :=
  countP_log_le (fun _ ho => ho) (fun _ _ _ _ _ => rfl) h

/-- Where `_stop` ran once at most, it did not raise while a request was in flight. -/
theorem StopFlags.not_raised (hI : c.StopFlags) (hone : c.log.countP Obs.isHandled ≤ 1)
    (signal : Signal) (timer : Bool) : .handled signal timer true true ∉ c.log := by
  intro hmem
  obtain ⟨newer, older, hlog⟩ := List.append_of_mem hmem
  have hlate : History.Always Obs.RaisesLate (newer ++ .handled signal timer true true :: older) := by
    rw [← hlog]
    exact hI.late
  obtain ⟨o, ho, hstop⟩ := hlate.entry signal timer rfl
  have hpos : 0 < older.countP Obs.isHandled := by
    rw [List.countP_pos_iff]
    refine ⟨o, ho, ?_⟩
    cases o <;> first | rfl | cases hstop
  have htwo : c.log.countP Obs.isHandled =
      newer.countP Obs.isHandled + (older.countP Obs.isHandled + 1) := by
    rw [hlog, List.countP_append, List.countP_cons]
    rfl
  omega

end Cfg

/-- In every run of `serve`, `_stop` raises between the set and the clear of `_in_request` only
after a stop signal that it handled earlier; and where at most one stop signal comes and the alarm
does not, a client that keeps reading has been sent the whole of its one response or nothing, unless
the response is being written at this moment. -/
theorem stop_spares_response {uid : Option ℕ} {T : Option ℚ} {now : ℚ} {sigintIgnored : Bool}
    {inputs : List Input} {c : Cfg}
    (h : Machine.run Cfg.step (.serve uid T now sigintIgnored) inputs = some c) :
    (∀ newer older signal timer, c.log = newer ++ .handled signal timer true true :: older →
      ∃ o ∈ older, o.isStop = true) ∧
    (inputs.countP Input.isStop ≤ 1 → (∀ i ∈ inputs, i.isAlarm = false) →
      ∀ s, .writeFailed s ∉ c.log → (∀ rest, c.pc ≠ .write s rest) →
        sentTo s c.log = [] ∨ answersTo s c.log = [sentTo s c.log]) := by
  have hreached : Cfg.Reached uid T c := ⟨now, sigintIgnored, inputs, h⟩
  constructor
  · intro newer older signal timer hlog
    have hlate : History.Always Obs.RaisesLate c.log := hreached.stopFlags.late
    rw [hlog] at hlate
    exact hlate.entry signal timer rfl
  · intro hstop halarm s hwrites hpc
    have hsignals : inputs.countP Input.isSignal = inputs.countP Input.isStop := by
      apply List.countP_congr
      intro i hi
      have ha : i.isAlarm = false := halarm i hi
      cases i with
      | signal signal =>
        cases signal with
        | alrm => cases ha
        | _ => exact Iff.rfl
      | _ => exact Iff.rfl
    have hone : c.log.countP Obs.isHandled ≤ 1 := by
      have hle := Cfg.handled_le h
      have hzero : (Cfg.serve uid T now sigintIgnored).log.countP Obs.isHandled = 0 := rfl
      omega
    obtain hs | hs | hs | ⟨signal, timer, hs⟩ := (hreached.delivery s).settled hpc
    · exact Or.inl hs
    · exact Or.inr hs
    · exact absurd hs hwrites
    · exact absurd hs (hreached.stopFlags.not_raised hone signal timer)

/-- A client is accepted, its request run, and `SIGTERM` comes with half of the response sent. -/
def stoppedMidway : List Input :=
  [.main .next, .main .next, .main .next, .main .ready, .main .next, .main (.accept none),
    .main .next, .main .next, .main .next, .main .request, .main (.respond [111, 107]),
    .main (.send 1), .signal .term, .main (.send 1), .main .next, .main .next, .main .next,
    .main .next, .main .next, .main .next, .main .next]

theorem stop_spares_response_midway :
    ∃ c, Machine.run Cfg.step (.serve none none 0 false) stoppedMidway = some c ∧
      c.pc = .exited false ∧ sentTo 0 c.log = [111, 107] ∧
      (sentTo 0 c.log = [] ∨ answersTo 0 c.log = [sentTo 0 c.log]) := by
  refine ⟨_, rfl, rfl, rfl, ?_⟩
  apply (@stop_spares_response none none 0 false stoppedMidway _ rfl).2
  · decide
  · decide
  · decide
  · intro rest hpc
    cases hpc

end FluxRest
