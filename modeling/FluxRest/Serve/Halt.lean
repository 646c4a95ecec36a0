import FluxRest.Serve.Stop

/-! Once `_stop` has run: no request is begun, and what it raises leaves the loop. -/
namespace FluxRest
open Py

/-- Where the main thread can be once `_stopping` is set. -/
def Pc.halting : Pc → Bool
  | test | handleError _ | shutdownRaised _ => true
  | pc => pc.inWindow || pc.leaving

theorem Pc.halting_of {pc : Pc} (h : pc.inWindow = true ∨ pc.leaving = true) : pc.halting = true := by
  cases pc <;> first | rfl | (obtain h | h := h <;> cases h)

/-- No request is begun, and no signal spared, after `_stop` has run. -/
def Obs.Halted (o : Obs) (older : List Obs) : Prop :=
  (∃ o' ∈ older, o'.isHandled = true) →
    (∀ s, o ≠ .began s) ∧ ∀ signal timer raised inWindow, o = .handled signal timer raised inWindow →
      raised = true

/-- The alarm of the interval timer comes after a stop signal. -/
def Obs.AlarmLate (o : Obs) (older : List Obs) : Prop :=
  ∀ signal raised inWindow, o = .handled signal true raised inWindow → ∃ o' ∈ older, o'.isStop = true

namespace Cfg

variable {c c' : Cfg}

theorem Advances.halting (h : c.Advances c') (hs : c.srv.stopping = true)
    (hpc : c.pc.halting = true) : c'.pc.halting = true := by
  cases h with
  | moves h =>
    cases h with
    | loop _ hs' =>
      rw [hs] at hs'
      cases hs'
    | done | quit | raises | written | report | finish => rfl
    | _ h =>
      rw [h] at hpc
      cases hpc
  | begin | request | respond | send | shutdown | clear | clearRaised | shutdownRaised | clearUnwound
  | shutdownUnwound | disarm | serverClose => rfl
  | writeFails _ h => obtain rfl | rfl := h <;> rfl
  | _ h =>
    rw [h] at hpc
    cases hpc

/-- What is known once `_stop` has run. -/
structure HaltKept (c : Cfg) : Prop where
  stopping : (∃ o ∈ c.log, o.isHandled = true) → c.srv.stopping = true
  halting : c.srv.stopping = true → c.pc.halting = true
  raised : ∀ signal timer inWindow, .handled signal timer true inWindow ∈ c.log → c.pc.leaving = true
  halted : History.Always Obs.Halted c.log
  alarms : History.Always Obs.AlarmLate c.log

theorem HaltKept.advance (hI : HaltKept c) (h : c.Advances c') : HaltKept c' := by
  have hhandled : ∀ o ∈ c'.log, o.isHandled = true → o ∈ c.log := by
    intro o ho hh
    obtain hadds | ho := h.of_mem_log ho
    · rw [hadds.not_handled] at hh
      cases hh
    · exact ho
  obtain ⟨new, hlog, hnew⟩ := h.log
  constructor
  · intro hex
    obtain ⟨o, ho, hh⟩ := hex
    rw [h.stopping]
    exact hI.stopping ⟨o, hhandled o ho hh, hh⟩
  · intro hs
    rw [h.stopping] at hs
    exact h.halting hs (hI.halting hs)
  · intro signal timer inWindow hmem
    exact (h.leaving (hI.raised signal timer inWindow (hhandled _ hmem rfl))).1
  · rw [hlog]
    apply hI.halted.append
    intro o mid ho hex
    have hadds : c.Adds c' o := hnew o (ho.mem List.mem_cons_self)
    have hstopping : c.srv.stopping = true := by
      obtain ⟨o', ho', hh⟩ := hex
      obtain ho' | ho' := List.mem_append.mp ho'
      · have hnot := (hnew o' (ho.mem (List.mem_cons_of_mem _ ho'))).not_handled
        rw [hh] at hnot
        cases hnot
      · exact hI.stopping ⟨o', ho', hh⟩
    constructor
    · intro s hs
      rw [hs] at hadds
      have hpc := hI.halting hstopping
      rw [hadds] at hpc
      cases hpc
    · intro signal timer raised inWindow heq
      rw [heq] at hadds
      exact hadds.elim
  · rw [hlog]
    apply hI.alarms.append
    intro o mid ho signal raised inWindow heq
    have hadds : c.Adds c' o := hnew o (ho.mem List.mem_cons_self)
    rw [heq] at hadds
    exact hadds.elim

theorem HaltKept.stop (hI : HaltKept c) (hf : c.StopFlags)
    (hw : c.srv.inRequest = true → c.pc.inWindow = true ∨ c.pc.leaving = true) (signal : Signal) :
    HaltKept (c.stop signal) := by
  constructor
  · intro _
    rw [stop_srv]
  · intro _
    rw [stop_pc]
    cases hr : c.srv.stopRaises with
    | true => exact Pc.halting_of (Or.inr (Pc.leaving_interrupted _))
    | false =>
      rw [Server.stopRaises, Bool.or_eq_false_iff, Bool.not_eq_false'] at hr
      exact Pc.halting_of (hw hr.2)
  · intro signal' timer inWindow hmem
    rw [stop_pc]
    rw [stop_log] at hmem
    cases hr : c.srv.stopRaises with
    | true => exact Pc.leaving_interrupted _
    | false =>
      obtain hmem | hmem := List.mem_cons.mp hmem
      · obtain ⟨-, -, hraised, -⟩ := Obs.handled.inj hmem
        rw [hr] at hraised
        cases hraised
      · exact hI.raised signal' timer inWindow hmem
  · rw [stop_log]
    refine ⟨?_, hI.halted⟩
    intro hex
    constructor
    · intro s hs
      cases hs
    · intro signal' timer raised inWindow heq
      obtain ⟨-, -, hraised, -⟩ := Obs.handled.inj heq
      rw [← hraised, Server.stopRaises, hI.stopping hex, Bool.true_or]
  · rw [stop_log]
    refine ⟨?_, hI.alarms⟩
    intro signal' raised inWindow heq
    obtain ⟨-, htimer, -, -⟩ := Obs.handled.inj heq
    apply hf.stopping
    apply hf.armed
    cases ha : c.armed with
    | none => simp [byTimer, ha] at htimer
    | some t => rfl

variable {uid : Option ℕ} {T : Option ℚ}

theorem Reached.haltKept (h : Reached uid T c) : HaltKept c := by
  apply h.invariant
  · intro now ign
    refine ⟨?_, nofun, nofun, trivial, trivial⟩
    intro hex
    obtain ⟨o, ho, -⟩ := hex
    cases ho
  · intro c d _ hI _
    exact ⟨hI.stopping, hI.halting, hI.raised, hI.halted, hI.alarms⟩
  · intro c signal hr hI
    exact hI.stop hr.stopFlags hr.window signal
  · intro c c' _ hI h
    exact hI.advance h

end Cfg

/-- In every run of `serve`, after `_stop` has handled a signal no request is begun, and it raises
at any later signal; once it has raised the main thread is on its way out of the loop for good; and
the interval timer is armed only while `_stopping` is set, so that its alarm comes only after a
stop signal. -/
theorem stop_is_final {uid : Option ℕ} {T : Option ℚ} {c : Cfg} (h : c.Reached uid T) :
    (∀ newer older signal timer raised inWindow,
      c.log = newer ++ .handled signal timer raised inWindow :: older →
      (∀ s, .began s ∉ newer) ∧ ∀ signal' timer' raised' inWindow',
        .handled signal' timer' raised' inWindow' ∈ newer → raised' = true) ∧
    (∀ signal timer inWindow, .handled signal timer true inWindow ∈ c.log → c.pc.leaving = true) ∧
    (c.armed.isSome = true → c.srv.stopping = true) ∧
    (∀ newer older signal raised inWindow,
      c.log = newer ++ .handled signal true raised inWindow :: older → ∃ o ∈ older, o.isStop = true) := by
  have hI : c.HaltKept := h.haltKept
  refine ⟨?_, hI.raised, h.stopFlags.armed, ?_⟩
  · intro newer older signal timer raised inWindow hlog
    have hentry : ∀ o ∈ newer, ∃ older', o.Halted older' ∧ ∃ o' ∈ older', o'.isHandled = true := by
      intro o ho
      obtain ⟨l, r, rfl⟩ := List.append_of_mem ho
      have halted := hI.halted
      rw [hlog, List.append_assoc, List.cons_append] at halted
      refine ⟨_, halted.entry, _, List.mem_append_right r List.mem_cons_self, rfl⟩
    constructor
    · intro s hs
      obtain ⟨older', hhalted, hex⟩ := hentry _ hs
      exact (hhalted hex).1 s rfl
    · intro signal' timer' raised' inWindow' hmem
      obtain ⟨older', hhalted, hex⟩ := hentry _ hmem
      exact (hhalted hex).2 signal' timer' raised' inWindow' rfl
  · intro newer older signal raised inWindow hlog
    have halarms := hI.alarms
    rw [hlog] at halarms
    exact halarms.entry signal raised inWindow rfl

/-- `SIGTERM` comes while a request is served, and comes again. -/
def stoppedTwice : List Input :=
  [.main .next, .main .next, .main .next, .main .ready, .main .next, .main (.accept none),
    .main .next, .main .next, .main .next, .main .request, .signal .term, .signal .term]

theorem stop_is_final_insisted :
    ∃ c, Machine.run Cfg.step (.serve none none 0 false) stoppedTwice = some c ∧
      c.log = [.handled .term false true true, .handled .term false false true, .ran 0, .began 0,
        .accepted 0 none 0, .waitBegan 0] ∧
      (∀ s, .began s ∉ [Obs.handled .term false true true]) ∧ c.pc.leaving = true := by
  refine ⟨_, rfl, rfl, ?_⟩
  have hfinal := @stop_is_final none none _ ⟨0, false, stoppedTwice, rfl⟩
  constructor
  · exact (hfinal.1 [.handled .term false true true] _ .term false false true rfl).1
  · exact hfinal.2.1 .term false true List.mem_cons_self

/-! The `finally` clause of `serve`. -/

/-- In the `finally` clause. -/
def Pc.cleaning : Pc → Bool
  | disarm _ | serverClose _ => true
  | _ => false

/-- `serve` has returned or raised. -/
def Pc.done : Pc → Bool
  | exited _ => true
  | _ => false

theorem Pc.of_cleaning {pc : Pc} (h : pc.cleaning = true) :
    pc.done = false ∧ pc.leaving = true ∧ pc.interrupted.done = true := by
  cases pc with
  | disarm | serverClose => exact ⟨rfl, rfl, rfl⟩
  | _ => cases h

theorem Pc.interrupted_done {pc : Pc} (h : pc.done = true) : pc.interrupted.done = true := by
  cases pc with
  | exited => rfl
  | _ => cases h

theorem Pc.interrupted_cleanup (pc : Pc) : (∀ raised, pc.interrupted ≠ .serverClose raised) ∧
    (pc.interrupted.done = true → pc.cleaning = true ∨ pc.done = true) := by
  cases pc with
  | disarm | serverClose => exact ⟨nofun, fun _ => Or.inl rfl⟩
  | exited => exact ⟨nofun, fun _ => Or.inr rfl⟩
  | _ => exact ⟨nofun, nofun⟩

namespace Cfg

variable {c c' : Cfg}

/-- The event is no signal that `_stop` handles in the `finally` clause. -/
def SparesCleanup (c : Cfg) : Input → Prop
  | .signal signal => c.pc.cleaning = true → signal = .int ∧ c.sigintIgnored = true
  | _ => True

/-- The timer is disarmed and the listening socket closed. -/
def CleanedUp (c : Cfg) : Prop := c.armed = none ∧ c.listening = false

/-- Where the clean-up has come to. -/
structure Cleaning (c : Cfg) : Prop where
  disarmed : ∀ raised, c.pc = .serverClose raised → c.armed = none
  done : c.pc.done = true → c.CleanedUp

theorem Advances.to_serverClose (h : c.Advances c') {raised : Bool}
    (hpc : c'.pc = .serverClose raised) : c'.armed = none := by
  cases h with
  | disarm => rfl
  | moves h => cases h <;> cases hpc
  | evict h =>
    rw [h] at hpc
    cases hpc
  | writeFails _ h => obtain rfl | rfl := h <;> cases hpc
  | _ => cases hpc

theorem Advances.to_exited (h : c.Advances c') (hpc : c'.pc.done = true) :
    ∃ raised, c.pc = .serverClose raised ∧ c'.armed = c.armed ∧ c'.listening = false := by
  cases h with
  | serverClose h => exact ⟨_, h, rfl, rfl⟩
  | moves h => cases h <;> cases hpc
  | evict h =>
    rw [h] at hpc
    cases hpc
  | writeFails _ h => obtain rfl | rfl := h <;> cases hpc
  | _ => cases hpc

/-- The listening socket is closed as `serve` is left, and not before. -/
theorem Advances.listening (h : c.Advances c') : c'.listening = c.listening ∨ c'.pc.done = true := by
  cases h with
  | serverClose => exact Or.inr rfl
  | shutdownRefused | shutdown | shutdownRaised | shutdownUnwound =>
    left
    unfold shutdownRequest
    split_ifs <;> rfl
  | _ => exact Or.inl rfl

theorem not_advances_of_done (hpc : c.pc.done = true) : ¬ c.Advances c' := by
  intro h
  cases h with
  | moves h =>
    cases h with
    | raises h => obtain h | h := h <;> rw [h] at hpc <;> cases hpc
    | _ h =>
      rw [h] at hpc
      cases hpc
  | respond h => obtain h | h := h <;> rw [h] at hpc <;> cases hpc
  | _ h =>
    rw [h] at hpc
    cases hpc

theorem deliver_of_done (hpc : c.pc.done = true) (signal : Signal) : c.deliver signal = c := by
  unfold deliver
  cases h : c.pc <;> rw [h] at hpc <;> first | rfl | cases hpc

/-- `serve` does nothing more once it has exited. -/
theorem step_of_done (hpc : c.pc.done = true) {i : Input} (h : c.step i = some c') :
    c'.pc = c.pc ∧ c'.armed = c.armed ∧ c'.listening = c.listening := by
  cases i with
  | tick d =>
    simp only [step] at h
    split_ifs at h
    cases h
    exact ⟨rfl, rfl, rfl⟩
  | signal signal =>
    simp only [step, deliver_of_done hpc] at h
    cases h
    exact ⟨rfl, rfl, rfl⟩
  | main choice => exact absurd (advances_of_advance h) (not_advances_of_done hpc)

theorem Cleaning.next (hI : c.Cleaning) {i : Input} (hi : c.SparesCleanup i)
    (h : c.step i = some c') : c'.Cleaning := by
  cases i with
  | tick d =>
    simp only [step] at h
    split_ifs at h
    cases h
    exact ⟨hI.disarmed, hI.done⟩
  | signal signal =>
    simp only [step] at h
    cases h
    by_cases hcleaning : c.pc.cleaning = true
    · obtain ⟨rfl, hign⟩ := hi hcleaning
      have hsame : c.deliver .int = c := by
        unfold deliver
        rw [hign]
        split <;> rfl
      rw [hsame]
      exact hI
    · by_cases hdone : c.pc.done = true
      · rw [deliver_of_done hdone]
        exact hI
      · -- elsewhere `_stop` leads into the clause at its beginning, or nowhere
        obtain hc | hc := c.deliver_cases signal
        · rw [hc]
          exact hI
        · rw [hc]
          obtain ⟨hclose, hexit⟩ := c.pc.interrupted_cleanup
          constructor
          · intro raised hpc
            rw [stop_pc] at hpc
            exfalso
            split_ifs at hpc
            · exact hclose raised hpc
            · rw [hpc] at hcleaning
              exact hcleaning rfl
          · intro hpc
            rw [stop_pc] at hpc
            exfalso
            split_ifs at hpc
            · exact (hexit hpc).elim hcleaning hdone
            · exact hdone hpc
  | main choice =>
    have ha := advances_of_advance h
    constructor
    · intro raised hpc
      exact ha.to_serverClose hpc
    · intro hpc
      obtain ⟨raised, hpc', harmed, hlistening⟩ := ha.to_exited hpc
      exact ⟨harmed.trans (hI.disarmed raised hpc'), hlistening⟩

theorem run_of_done {inputs : List Input} (hpc : c.pc.done = true)
    (h : Machine.run step c inputs = some c') : c'.listening = c.listening := by
  have hrun : c'.pc.done = true ∧ c'.listening = c.listening := by
    refine Machine.run_invariant (I := fun t => t.pc.done = true ∧ t.listening = c.listening) ?_
      ⟨hpc, rfl⟩ h
    intro t i u hI hu
    obtain ⟨hsame, -, hlistening⟩ := step_of_done hI.1 hu
    rw [hsame, hlistening]
    exact hI
  exact hrun.2

variable {uid : Option ℕ} {T : Option ℚ}

theorem Reached.listening (h : Reached uid T c) : c.pc.done = false → c.listening = true := by
  apply h.invariant
  · intro now ign _
    rfl
  · intro c d _ hI _
    exact hI
  · intro c signal _ hI hdone
    have hlistening : (c.stop signal).listening = c.listening := by
      unfold stop
      split_ifs <;> rfl
    rw [hlistening]
    apply hI
    rw [← Bool.not_eq_true]
    intro hpc
    have hstop : (c.stop signal).pc.done = true := by
      rw [stop_pc]
      split_ifs
      · exact Pc.interrupted_done hpc
      · exact hpc
    rw [hdone] at hstop
    cases hstop
  · intro c c' _ hI h hdone
    obtain hsame | hdone' := h.listening
    · rw [hsame]
      apply hI
      rw [← Bool.not_eq_true]
      exact fun hpc => not_advances_of_done hpc h
    · rw [hdone] at hdone'
      cases hdone'

/-- On the way out of `serve`, `_stop` raises. -/
theorem Reached.leaving_raises (h : Reached uid T c) :
    c.pc.leaving = true → c.srv.stopRaises = true := by
  apply h.invariant
  · intro now ign hl
    cases hl
  · intro c d _ hI _
    exact hI
  · intro c signal _ _ _
    rw [stop_srv]
    rfl
  · intro c c' hr hI h hl'
    obtain hl | ⟨hpc, -, hsrv, -⟩ := h.of_leaving hl'
    · have hraises := hI hl
      cases h with
      | moves | disarm | serverClose => exact hraises
      | clearUnwound => simp [Server.stopRaises]
      | shutdownUnwound =>
        rw [shutdownRequest_srv]
        exact hraises
      | respond h => obtain h | h := h <;> rw [h] at hl <;> cases hl
      | _ h =>
        rw [h] at hl
        cases hl
    · have hin : c.srv.inRequest = false := by
        rw [← Bool.not_eq_true]
        intro hin
        have hwindow := hr.window hin
        rw [hpc] at hwindow
        obtain hwindow | hwindow := hwindow <;> cases hwindow
      rw [hsrv]
      simp [Server.stopRaises, hin]

theorem Reached.next (h : Reached uid T c) {i : Input} (hi : c.step i = some c') :
    Reached uid T c' := by
  obtain ⟨now, ign, h⟩ := h
  exact ⟨now, ign, Machine.Reaches.next h hi⟩

/-- A run that closed the listening socket was spared signals in the `finally` clause. -/
theorem Reached.spared (hr : Reached uid T c) {inputs : List Input}
    (h : Machine.run step c inputs = some c') (hc : c'.listening = false) :
    Machine.Along step SparesCleanup c inputs := by
  induction inputs generalizing c with
  | nil => trivial
  | cons i inputs ih =>
    obtain ⟨t, ht, hrest⟩ := Machine.run_cons.mp h
    constructor
    · cases i with
      | signal signal =>
        intro hcleaning
        by_contra hnot
        simp only [step] at ht
        cases ht
        obtain ⟨hopen, hleaving, hexits⟩ := Pc.of_cleaning hcleaning
        have hstop : c.deliver signal = c.stop signal := by
          unfold deliver
          rw [if_neg hnot]
          split
          · next hpc =>
            rw [hpc] at hcleaning
            cases hcleaning
          · rfl
        have hdone : (c.stop signal).pc.done = true := by
          rw [stop_pc, if_pos (hr.leaving_raises hleaving)]
          exact hexits
        have hlistening : (c.stop signal).listening = true := by
          unfold stop
          split_ifs <;> exact hr.listening hopen
        rw [hstop] at hrest
        rw [run_of_done hdone hrest, hlistening] at hc
        cases hc
      | _ => trivial
    · intro t' ht'
      have heq : t' = t := Option.some.inj (ht'.symm.trans ht)
      rw [heq]
      exact ih (hr.next ht) hrest

end Cfg

/-- In a run of `serve` that has exited, by returning or by raising, the interval timer is disarmed
and the listening socket closed if and only if `_stop` handled no signal in the `finally` clause. -/
theorem cleanedUp_iff {uid : Option ℕ} {T : Option ℚ} {now : ℚ} {sigintIgnored : Bool}
    {inputs : List Input} {c : Cfg} {raised : Bool}
    (h : Machine.run Cfg.step (.serve uid T now sigintIgnored) inputs = some c)
    (hpc : c.pc = .exited raised) :
    c.CleanedUp ↔ Machine.Along Cfg.step Cfg.SparesCleanup (.serve uid T now sigintIgnored) inputs := by
  constructor
  · intro hclean
    have hr : (Cfg.serve uid T now sigintIgnored).Reached uid T := ⟨now, sigintIgnored, [], rfl⟩
    exact hr.spared h hclean.2
  · intro hspared
    have hstart : (Cfg.serve uid T now sigintIgnored).Cleaning := by
      constructor
      · intro raised hpc
        cases hpc
      · intro hpc
        cases hpc
    have hcleaning : c.Cleaning := by
      refine Machine.run_invariant_along (I := Cfg.Cleaning) ?_ hstart hspared h
      intro s i t hI hi ht
      exact hI.next hi ht
    apply hcleaning.done
    rw [hpc]
    rfl

/-- `SIGTERM` breaks a wait off, and nothing comes after it. -/
def stoppedIdle : List Input :=
  [.main .next, .main .next, .main .next, .signal .term, .main .next, .main .next]

theorem cleanedUp_stoppedIdle :
    ∃ c, Machine.run Cfg.step (.serve none none 0 false) stoppedIdle = some c ∧
      c.pc = .exited true ∧
      (c.CleanedUp ↔
        Machine.Along Cfg.step Cfg.SparesCleanup (.serve none none 0 false) stoppedIdle) := by
  refine ⟨_, rfl, rfl, ?_⟩
  exact @cleanedUp_iff none none 0 false stoppedIdle _ true rfl rfl

/-- `SIGTERM` comes while a request is served, and again as the `finally` clause is entered. -/
def stoppedInCleanup : List Input :=
  [.main .next, .main .next, .main .next, .main .ready, .main .next, .main (.accept none),
    .main .next, .main .next, .main .next, .main (.respond [111, 107]), .signal .term,
    .main (.send 2), .main .next, .main .next, .main .next, .main .next, .main .next, .signal .term]

/-- A second signal leaves `serve` with the timer armed and the listening socket open. -/
theorem stoppedInCleanup_not_cleanedUp :
    ∃ c, Machine.run Cfg.step (.serve none none 0 false) stoppedInCleanup = some c ∧
      c.pc = .exited true ∧ c.armed = some (0 + STOP_GRACE) ∧ c.listening = true ∧
      ¬ c.CleanedUp := by
  refine ⟨_, rfl, rfl, rfl, rfl, ?_⟩
  intro h
  cases h.2

end FluxRest
