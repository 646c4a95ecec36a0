import FluxRest.Serve.Account
import FluxRest.Serve.Halt

/-! One stop signal: who has been answered in full when `serve` exits. -/
namespace FluxRest
open Py

/-- The connection whose request is still to be read or whose response is still to be sent, with
`_in_request` set. -/
def Pc.serving : Pc → Option Sock
  | read s | route s => some s
  | write s rest => if rest = [] then none else some s
  | _ => none

/-- What keeps a response from being made and sent in full: the client leaves or stops reading, the
handler raises, the alarm goes off. -/
def Input.isLapse : Input → Bool
  | main .quit | main .raises | main (.writeFails _) | signal .alrm => true
  | _ => false

def Obs.isStopSignal : Obs → Bool
  | handled signal _ _ _ => signal ≠ .alrm
  | _ => false

/-- The stop signals `_stop` has handled. -/
def stops (log : List Obs) : ℕ := log.countP Obs.isStopSignal

theorem Pc.sock_of_serving {pc : Pc} {s : Sock} (h : pc.serving = some s) : pc.sock = some s := by
  cases pc with
  | read | route => exact h
  | write s' rest =>
    dsimp only [serving] at h
    split_ifs at h
    exact h
  | _ => cases h

theorem Pc.inWindow_of_serving {pc : Pc} {s : Sock} (h : pc.serving = some s) : pc.inWindow = true := by
  cases pc <;> first | rfl | cases h

theorem Pc.serving_interrupted (pc : Pc) : pc.interrupted.serving = none := by
  cases pc <;> rfl

theorem Pc.Proceeds.serving {s : Sock} {pc pc' : Pc} (h : Pc.Proceeds s pc pc')
    (hs : pc'.serving = some s) : pc.serving = some s ∨ pc = .setInRequest s := by
  cases h with
  | begin => exact Or.inr rfl
  | request => exact Or.inl rfl
  | respond h => obtain rfl | rfl := h <;> exact Or.inl rfl
  | send rest n =>
    left
    dsimp only [Pc.serving] at hs ⊢
    split_ifs at hs with hdrop
    rw [if_neg]
    rintro rfl
    exact hdrop List.drop_nil
  | writeFails _ h => obtain rfl | rfl := h <;> cases hs
  | _ => cases hs

namespace Cfg

variable {c c' : Cfg} {s : Sock}

/-- The client of `s` sends a complete request, which the handler answers, and reads the answer
before the alarm. -/
def Cooperates (s : Sock) (c : Cfg) (i : Input) : Prop := i.isLapse = true → c.pc.serving ≠ some s

instance : Decidable (Cooperates s c i) := inferInstanceAs (Decidable (_ → _))

/-- Such a client is served on until its response is sent. -/
theorem serving_next (hs : c.pc.serving = some s) {choice : Choice}
    (hi : c.Cooperates s (.main choice)) (h : c.advance choice = some c') :
    c'.pc.serving = some s ∨ c'.pc = .write s [] := by
  have hwrite : ∀ rest, (Pc.write s rest).serving = some s ∨ Pc.write s rest = .write s [] := by
    intro rest
    by_cases hrest : rest = []
    · exact Or.inr (by rw [hrest])
    · exact Or.inl (if_neg hrest)
  have hlapse : ∀ choice', choice = choice' → (Input.main choice').isLapse = false := by
    rintro choice' rfl
    rw [← Bool.not_eq_true]
    exact fun hl => hi hl hs
  cases hpc : c.pc with
  | read s' =>
    rw [hpc] at hs
    cases hs
    cases choice with
    | request =>
      simp only [advance, hpc] at h
      cases h
      exact Or.inl rfl
    | respond response =>
      simp only [advance, hpc] at h
      cases h
      exact hwrite response
    | quit => cases hlapse _ rfl
    | raises => cases hlapse _ rfl
    | _ =>
      simp only [advance, hpc] at h
      cases h
  | route s' =>
    rw [hpc] at hs
    cases hs
    cases choice with
    | respond response =>
      simp only [advance, hpc] at h
      cases h
      exact hwrite response
    | raises => cases hlapse _ rfl
    | _ =>
      simp only [advance, hpc] at h
      cases h
  | write s' rest =>
    rw [hpc] at hs
    have heq : s' = s := Option.some.inj (Pc.sock_of_serving hs)
    subst heq
    cases choice with
    | send n =>
      simp only [advance, hpc] at h
      split_ifs at h
      cases h
      exact hwrite (rest.drop n)
    | writeFails swallowed => cases hlapse _ rfl
    | next =>
      cases rest with
      | nil => cases hs
      | cons b rest =>
        simp only [advance, hpc] at h
        cases h
    | _ =>
      simp only [advance, hpc] at h
      cases h
  | _ =>
    rw [hpc] at hs
    cases hs

theorem Advances.serving (h : c.Advances c') (hs : c'.pc.serving = some s) :
    c.pc.serving = some s ∨ c.pc = .setInRequest s := by
  obtain ⟨hp, -⟩ | ⟨-, ⟨peer, hpc⟩, -⟩ := h.proceeds (Pc.sock_of_serving hs)
  · exact hp.serving hs
  · rw [hpc] at hs
    cases hs

theorem Advances.of_begin (h : c.Advances c') (hpc : c.pc = .setInRequest s) : c'.pc = .read s := by
  cases h with
  | begin h =>
    rw [hpc] at h
    cases h
    rfl
  | moves h =>
    cases h with
    | raises h => obtain h | h := h <;> rw [hpc] at h <;> cases h
    | _ h =>
      rw [hpc] at h
      cases h
  | respond h => obtain h | h := h <;> rw [hpc] at h <;> cases h
  | _ h =>
    rw [hpc] at h
    cases h

/-- The client has had one response, and the whole of it. -/
def Answered (s : Sock) (log : List Obs) : Prop := answersTo s log = [sentTo s log]

/-- Nothing more is sent to a client that is not being served. -/
theorem Advances.answered (h : c.Advances c') (hs : c.pc.serving ≠ some s)
    (ha : Answered s c.log) : Answered s c'.log := by
  obtain hq | ⟨response, hpc, -, -⟩ | ⟨rest, n, hpc, -, hlog⟩ := h.traffic s
  · unfold Answered
    rw [hq.answers, hq.sent]
    exact ha
  · obtain hpc | hpc := hpc <;> exact absurd (by rw [hpc]; rfl) hs
  · have hrest : rest = [] := by
      by_contra hne
      apply hs
      rw [hpc]
      exact if_neg hne
    have hanswers : answersTo s c'.log = answersTo s c.log := by
      rw [hlog]
      rfl
    unfold Answered
    rw [hanswers, hlog, sentTo_cons_sent, hrest, List.take_nil, List.append_nil]
    exact ha

/-- What a client that cooperates can rely on, between any two steps. -/
structure Kept (s : Sock) (c : Cfg) : Prop where
  answered : .began s ∈ c.log → c.pc.serving = some s ∨ Answered s c.log
  stopped : c.pc.serving = some s → c.srv.stopping = true → 1 ≤ stops c.log

variable {uid : Option ℕ} {T : Option ℚ}

theorem Kept.main (hI : Kept s c) (hr : Reached uid T c) {choice : Choice}
    (hi : c.Cooperates s (.main choice)) (h : c.advance choice = some c') : Kept s c' := by
  have ha := advances_of_advance h
  have hr' : Reached uid T c' := hr.next (i := .main choice) h
  have hstops : stops c.log ≤ stops c'.log := by
    obtain ⟨new, hlog, -⟩ := ha.log
    unfold stops
    rw [hlog, List.countP_append]
    exact Nat.le_add_left _ _
  constructor
  · intro hbegan
    by_cases hs : c.pc.serving = some s
    · obtain hs' | hpc := serving_next hs hi h
      · exact Or.inl hs'
      · right
        have hwriting := (hr'.delivery s).writing [] hpc
        rw [List.append_nil] at hwriting
        exact hwriting
    · obtain hpc | hbegan := ha.of_mem_log hbegan
      · left
        rw [ha.of_begin hpc]
        rfl
      · obtain hs' | hanswered := hI.answered hbegan
        · exact absurd hs' hs
        · exact Or.inr (ha.answered hs hanswered)
  · intro hs hstopping
    rw [ha.stopping] at hstopping
    obtain hs | hpc := ha.serving hs
    · exact (hI.stopped hs hstopping).trans hstops
    · have hhalting := hr.haltKept.halting hstopping
      rw [hpc] at hhalting
      cases hhalting

/-- Only a second stop signal can cut a response short. -/
theorem Kept.stop (hI : Kept s c) (hr : Reached uid T c) {signal : Signal}
    (hi : c.Cooperates s (.signal signal)) :
    2 ≤ stops (c.stop signal).log ∨ Kept s (c.stop signal) := by
  have hbegan : .began s ∈ (c.stop signal).log → .began s ∈ c.log := by
    intro hmem
    rw [stop_log] at hmem
    obtain hmem | hmem := List.mem_cons.mp hmem
    · cases hmem
    · exact hmem
  have hanswered : Answered s c.log → Answered s (c.stop signal).log := by
    intro h
    rw [stop_log]
    exact h
  have hcount : signal ≠ .alrm → stops (c.stop signal).log = stops c.log + 1 := by
    intro hne
    have hnoted : (Obs.handled signal (c.byTimer signal) c.srv.stopRaises c.pc.inWindow).isStopSignal =
        true := decide_eq_true hne
    unfold stops
    rw [stop_log, List.countP_cons, if_pos hnoted]
  by_cases hs : c.pc.serving = some s
  · have hne : signal ≠ .alrm := by
      rintro rfl
      exact hi rfl hs
    cases hraises : c.srv.stopRaises with
    | true =>
      left
      have hin : c.srv.inRequest = true := hr.stopFlags.inRequest (Pc.inWindow_of_serving hs)
      rw [Server.stopRaises, hin, Bool.not_true, Bool.or_false] at hraises
      have hone := hI.stopped hs hraises
      rw [hcount hne]
      omega
    | false =>
      right
      have hpc : (c.stop signal).pc = c.pc := by
        rw [stop_pc, hraises]
        rfl
      constructor
      · intro _
        rw [hpc]
        exact Or.inl hs
      · intro _ _
        rw [hcount hne]
        omega
  · right
    have hnot : (c.stop signal).pc.serving ≠ some s := by
      rw [stop_pc]
      split_ifs
      · rw [Pc.serving_interrupted]
        intro hnone
        cases hnone
      · exact hs
    constructor
    · intro hmem
      obtain h | h := hI.answered (hbegan hmem)
      · exact absurd h hs
      · exact Or.inr (hanswered h)
    · intro h
      exact absurd h hnot

theorem Kept.next (hI : Kept s c) (hr : Reached uid T c) {i : Input} (hi : c.Cooperates s i)
    (h : c.step i = some c') : 2 ≤ stops c'.log ∨ Kept s c' := by
  cases i with
  | tick d =>
    simp only [step] at h
    split_ifs at h
    cases h
    exact Or.inr ⟨hI.answered, hI.stopped⟩
  | signal signal =>
    simp only [step] at h
    cases h
    obtain hc | hc := deliver_cases c signal
    · rw [hc]
      exact Or.inr hI
    · rw [hc]
      exact hI.stop hr hi
  | main choice => exact Or.inr (hI.main hr hi h)

theorem stops_mono {i : Input} (h : c.step i = some c') : stops c.log ≤ stops c'.log := by
  obtain ⟨d, -, rfl⟩ | rfl | ⟨signal, rfl⟩ | ha := step_cases h
  · exact le_refl _
  · exact le_refl _
  · unfold stops
    rw [stop_log, List.countP_cons]
    exact Nat.le_add_right _ _
  · obtain ⟨new, hlog, -⟩ := ha.log
    unfold stops
    rw [hlog, List.countP_append]
    exact Nat.le_add_left _ _

end Cfg

/-- In a run of `serve` with at most one stop signal that has exited, each connection for which
`_in_request` was set, and whose client sends a complete request that the handler answers and reads
the answer before the alarm, has had one response, and the whole of it. -/
theorem begun_answered {uid : Option ℕ} {T : Option ℚ} {now : ℚ} {sigintIgnored : Bool}
    {inputs : List Input} {c : Cfg} {raised : Bool} {s : Sock}
    (h : Machine.run Cfg.step (.serve uid T now sigintIgnored) inputs = some c)
    (hstop : inputs.countP Input.isStop ≤ 1) (hpc : c.pc = .exited raised)
    (hclient : Machine.Along Cfg.step (Cfg.Cooperates s) (.serve uid T now sigintIgnored) inputs)
    (hbegan : .began s ∈ c.log) : Cfg.Answered s c.log := by
  have hkept : (Cfg.Reached uid T c ∧ (2 ≤ stops c.log ∨ Cfg.Kept s c)) := by
    refine Machine.run_invariant_along
      (I := fun c => Cfg.Reached uid T c ∧ (2 ≤ stops c.log ∨ Cfg.Kept s c)) ?_ ?_ hclient h
    · intro c i c' hI hi hc'
      refine ⟨hI.1.next hc', ?_⟩
      obtain htwo | hkept := hI.2
      · exact Or.inl (htwo.trans (Cfg.stops_mono hc'))
      · exact hkept.next hI.1 hi hc'
    · refine ⟨⟨now, sigintIgnored, [], rfl⟩, Or.inr ⟨?_, ?_⟩⟩
      · intro hmem
        cases hmem
      · intro hs
        cases hs
  have hle : stops c.log ≤ 0 + inputs.countP Input.isStop := by
    apply Cfg.countP_log_le (p := Obs.isStopSignal) (q := Input.isStop) _ _ h
    · intro o ho
      cases o <;> first | rfl | cases ho
    · intro signal timer raised inWindow ho
      cases signal <;> first | rfl | cases ho
  obtain htwo | hkept := hkept.2
  · omega
  · obtain hs | hanswered := hkept.answered hbegan
    · rw [hpc] at hs
      cases hs
    · exact hanswered

theorem begun_answered_midway :
    ∃ c, Machine.run Cfg.step (.serve none none 0 false) stoppedMidway = some c ∧
      c.pc = .exited false ∧ Cfg.Answered 0 c.log := by
  refine ⟨_, rfl, rfl, ?_⟩
  apply @begun_answered none none 0 false stoppedMidway _ false 0 rfl
  · decide
  · rfl
  · decide +kernel
  · decide

/-- `SIGTERM` comes once `verify_request` has let a connection through. -/
def stoppedBeforeBegin : List Input :=
  [.main .next, .main .next, .main .next, .main .ready, .main .next, .main (.accept none),
    .main .next, .signal .term, .main .next, .main .next]

/-- A connection accepted and let through, whose client does all that is asked of it, is dropped
without a byte. -/
theorem accepted_dropped :
    ∃ c, Machine.run Cfg.step (.serve none none 0 false) stoppedBeforeBegin = some c ∧
      c.pc = .exited true ∧ stoppedBeforeBegin.countP Input.isStop = 1 ∧
      c.log = [.handled .term false true false, .accepted 0 none 0, .waitBegan 0] ∧
      permits none none = true ∧
      Machine.Along Cfg.step (Cfg.Cooperates 0) (.serve none none 0 false) stoppedBeforeBegin ∧
      sentTo 0 c.log = [] ∧ ¬ Cfg.Answered 0 c.log := by
  refine ⟨_, rfl, rfl, rfl, rfl, rfl, ?_, rfl, ?_⟩
  · decide +kernel
  · intro h
    cases h

end FluxRest
