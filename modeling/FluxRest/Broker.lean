import FluxRest.Invariant
import FluxRest.Machine
import FluxRest.Errors

/-! The server over a broker that ends and starts again: a handle belongs to the incarnation it
was opened on. -/
namespace FluxRest
open Py Py.Http

/-- What a running broker answers, and what is raised when there is none. -/
structure Live where
  State : Type
  JobID : Type
  Jobspec : Type
  JobInfo : Type
  attrGet : Str → Proc State Str
  fromCommand : List Str → List (Str × Json) → Proc State Jobspec
  submit : Jobspec → Proc State JobID
  cancel : JobID → Option Str → Proc State Unit
  jobListId : JobID → Proc State JobInfo
  toDict : JobInfo → Proc State (List (Str × Json))
  jobId : Str → Except Str JobID
  f58plain : JobID → Str
  f58plain_ascii : ∀ j, ∀ c ∈ f58plain j, c.toNat < 128
  /-- What `flux.Flux()` raises while no incarnation is up. -/
  unreachable : Exc
  /-- What a handle raises once its incarnation has ended. -/
  lost : Exc

inductive BrokerEvent where
  | ends
  | starts

structure Broker (σ : Type) where
  live : σ
  /-- The incarnation that is up. -/
  current : Option ℕ
  next : ℕ
  /-- The incarnations `flux.Flux()` has opened a handle on. -/
  opened : List ℕ := []
  /-- The incarnations that have ended. -/
  ended : List ℕ := []
  /-- What happens to the broker before each of the calls to come. -/
  during : List (List BrokerEvent) := []

namespace Broker

variable {σ α : Type}

def happen (b : Broker σ) : BrokerEvent → Broker σ
  | .ends => match b.current with
    | some i => { b with current := none, ended := i :: b.ended }
    | none => b
  | .starts => match b.current with
    | some _ => b
    | none => { b with current := some b.next, next := b.next + 1 }

def elapse (b : Broker σ) : Broker σ :=
  match b.during with
  | [] => b
  | es :: rest => es.foldl happen { b with during := rest }

/-- No incarnation has ended that the server has a handle on. -/
def Spared (b : Broker σ) : Prop := ∀ i ∈ b.opened, i ∉ b.ended

/-- A call that needs no broker. -/
def locally (call : Proc σ α) : Proc (Broker σ) α := fun b =>
  let r := call.run b.live
  (r.1, { b with live := r.2 })

/-- A call on the handle of incarnation `i`. -/
def rpc (lost : Exc) (i : ℕ) (call : Proc σ α) : Proc (Broker σ) α := fun b =>
  let b := b.elapse
  if b.current = some i then (locally call).run b else (.error lost, b)

/-- `flux.Flux()`: a handle on the incarnation that is up. -/
def connect (unreachable : Exc) : Proc (Broker σ) ℕ := fun b =>
  let b := b.elapse
  match b.current with
  | some i => (.ok i, { b with opened := i :: b.opened })
  | none => (.error unreachable, b)

end Broker

def Live.flux (L : Live) : Flux where
  State := Broker L.State
  Handle := ℕ
  JobID := L.JobID
  Jobspec := L.Jobspec
  JobInfo := L.JobInfo
  connect := Broker.connect L.unreachable
  attrGet i name := Broker.rpc L.lost i (L.attrGet name)
  fromCommand command kwargs := Broker.locally (L.fromCommand command kwargs)
  submit i jobspec := Broker.rpc L.lost i (L.submit jobspec)
  cancel i jobid reason := Broker.rpc L.lost i (L.cancel jobid reason)
  jobListId i jobid := Broker.rpc L.lost i (L.jobListId jobid)
  toDict info := Broker.locally (L.toDict info)
  jobId := L.jobId
  f58plain := L.f58plain
  f58plain_ascii := L.f58plain_ascii

variable (L : Live) (site : Site)

inductive Step where
  | broker (e : BrokerEvent)
  /-- `main()` opens the handle, where it has to ask for the run directory. -/
  | rundir
  /-- A request is handled, and `during` says what the broker does meanwhile. -/
  | request (req : Request) (during : List (List BrokerEvent))

def withDuring (w : World L.flux) (during : List (List BrokerEvent)) : World L.flux :=
  { w with flux := { (w.flux : Broker L.State) with during := during } }

def Step.take (w : World L.flux) : Step → Option (World L.flux)
  | broker e => some { w with flux := Broker.happen w.flux e }
  | rundir => some ((flux L.flux).run w).2
  | request req during =>
    some ((handleOneRequest L.flux site (tables L.flux site) req).run (withDuring L w during)).2

namespace Broker

variable {σ : Type}

/-- Every handle is accounted for: its incarnation is up or has ended, and the cached handle is
one of them. -/
structure Sound (b : Broker σ) (handle : Option ℕ) : Prop where
  opened : ∀ i ∈ b.opened, b.current = some i ∨ i ∈ b.ended
  cached : ∀ i, handle = some i → i ∈ b.opened

theorem Sound.current_of_spared {b : Broker σ} {handle : Option ℕ} (h : Sound b handle)
    (hb : b.Spared) {i : ℕ} (hi : handle = some i) : b.current = some i :=
  (h.opened i (h.cached i hi)).resolve_right (hb i (h.cached i hi))

theorem Sound.happen {b : Broker σ} {handle : Option ℕ} (h : Sound b handle) (e : BrokerEvent) :
    Sound (b.happen e) handle := by
  cases e with
  | ends =>
    unfold Broker.happen
    cases hc : b.current with
    | none => exact h
    | some j =>
      refine ⟨fun i hi => Or.inr ?_, h.cached⟩
      obtain hi | hi := h.opened i hi
      · rw [hc] at hi
        cases hi
        exact List.mem_cons_self
      · exact List.mem_cons_of_mem j hi
  | starts =>
    unfold Broker.happen
    cases hc : b.current with
    | some j => exact h
    | none =>
      refine ⟨fun i hi => Or.inr ?_, h.cached⟩
      obtain hi | hi := h.opened i hi
      · rw [hc] at hi
        cases hi
      · exact hi

theorem Sound.elapse {b : Broker σ} {handle : Option ℕ} (h : Sound b handle) :
    Sound b.elapse handle := by
  unfold Broker.elapse
  cases b.during with
  | nil => exact h
  | cons es rest =>
    have hrest : Sound { b with during := rest } handle := ⟨h.opened, h.cached⟩
    dsimp only
    generalize ({ b with during := rest } : Broker σ) = b' at hrest
    induction es generalizing b' with
    | nil => exact hrest
    | cons e es ih => exact ih _ (hrest.happen e)

theorem Sound.rpc {b b' : Broker σ} {handle : Option ℕ} {α : Type} {lost : Exc} {i : ℕ}
    {call : Proc σ α} {r : Except Exc α} (h : Sound b handle)
    (hr : (Broker.rpc lost i call).run b = (r, b')) : Sound b' handle := by
  have helapse := h.elapse
  simp only [Proc.run, Broker.rpc] at hr
  split_ifs at hr
  · cases hr
    exact ⟨helapse.opened, helapse.cached⟩
  · cases hr
    exact helapse

theorem Sound.connect {b b' : Broker σ} {unreachable : Exc} {r : Except Exc ℕ} (h : Sound b none)
    (hr : (Broker.connect unreachable).run b = (r, b')) : Sound b' r.toOption := by
  have helapse := h.elapse
  simp only [Proc.run, Broker.connect] at hr
  split at hr
  · rename_i i hc
    cases hr
    constructor
    · intro j hj
      rcases List.mem_cons.mp hj with rfl | hj
      · exact Or.inl hc
      · exact helapse.opened j hj
    · intro j hj
      cases hj
      exact List.mem_cons_self
  · cases hr
    exact ⟨helapse.opened, fun j hj => by cases hj⟩

end Broker

theorem callsKeep_sound : CallsKeep (F := L.flux) fun b handle _ => Broker.Sound b handle where
  connect h hr := h.connect hr
  attrGet _ h hr := h.rpc hr
  fromCommand _ _ h hr := by
    cases hr
    exact ⟨h.opened, h.cached⟩
  submit _ h hr := h.rpc hr
  cancel _ _ h hr := h.rpc hr
  jobListId _ h hr := h.rpc hr
  toDict _ h hr := by
    cases hr
    exact ⟨h.opened, h.cached⟩

/-- Whatever the order of requests, outages and restarts, the handles stay accounted for. -/
theorem sound_of_run {w w' : World L.flux} (hw : Broker.Sound w.flux w.handle) {steps : List Step}
    (h : Machine.run (Step.take L site) w steps = some w') : Broker.Sound w'.flux w'.handle := by
  refine Machine.run_invariant (I := fun w : World L.flux => Broker.Sound w.flux w.handle) ?_ hw h
  intro w step w' hw hstep
  cases step with
  | broker e =>
    cases hstep
    exact hw.happen e
  | rundir =>
    cases hstep
    exact ((callsKeep_sound L).spec_flux w hw).1
  | request req during =>
    cases hstep
    exact (callsKeep_sound L).preserves_handle site req (withDuring L w during)
      ⟨hw.opened, hw.cached⟩

/-- While it is up, the broker only raises what the operations answer as a client error. -/
structure Live.Obliging : Prop where
  attrGet : ∀ name s err, ((L.attrGet name).run s).1 = .error err → err.isA .osError = false
  fromCommand : ∀ command kwargs s err, ((L.fromCommand command kwargs).run s).1 = .error err →
    err.isA .osError = false
  submit : ∀ jobspec s err, ((L.submit jobspec).run s).1 = .error err → err.isA .osError →
    err.errno = some EINVAL
  cancel : ∀ jobid reason s err, ((L.cancel jobid reason).run s).1 = .error err →
    err.isA .osError → err.isA .fileNotFoundError ∨ err.isA .permissionError
  jobListId : ∀ jobid s err, ((L.jobListId jobid).run s).1 = .error err → err.isA .osError →
    err.isA .fileNotFoundError
  toDict : ∀ info s err, ((L.toDict info).run s).1 = .error err → err.isA .osError = false

variable {F : Flux}

/-- An error the operations answer as a client error, given the call it comes from. -/
def FluxCall.Obliges : FluxCall F → Prop
  | connect r => ∀ err, r ≠ .error err
  | attrGet _ r => ∀ err, r = .error err → err.isA .osError = false
  | fromCommand _ _ r => ∀ err, r = .error err → err.isA .osError = false
  | submit _ r => ∀ err, r = .error err → err.isA .osError → err.errno = some EINVAL
  | cancel _ _ r => ∀ err, r = .error err → err.isA .osError →
      err.isA .fileNotFoundError ∨ err.isA .permissionError
  | jobListId _ r => ∀ err, r = .error err → err.isA .osError → err.isA .fileNotFoundError
  | toDict r => ∀ err, r = .error err → err.isA .osError = false

theorem Op.Raises.available_of_obliges {op : Op F} {c : FluxCall F} {err : Exc}
    {r : Except Exc Reply} (h : op.Raises c err r) (hc : c.raised = some err) (ho : c.Obliges) :
    Available r := by
  cases hos : err.isA .osError with
  | false => exact h.available hos
  | true =>
    cases h with
    | root h =>
      obtain ⟨r, rfl⟩ | ⟨name, r, rfl⟩ := h
      · exact absurd (eq_error_of_errorOf hc) (ho err)
      · cases hos.symm.trans (ho err (eq_error_of_errorOf hc))
    | command => cases hos.symm.trans (ho err (eq_error_of_errorOf hc))
    | submit h =>
      obtain ⟨r, rfl⟩ | ⟨jobspec, r, rfl⟩ := h
      · exact absurd (eq_error_of_errorOf hc) (ho err)
      · unfold Available
        rw [status_submitFailed hos, if_pos (ho err (eq_error_of_errorOf hc) hos)]
        decide
    | state h =>
      obtain ⟨r, rfl⟩ | ⟨r, rfl⟩ := h
      · exact absurd (eq_error_of_errorOf hc) (ho err)
      · cases hos.symm.trans (ho err (eq_error_of_errorOf hc))
    | @info jobid r =>
      unfold Available
      rw [status_stateFailed hos, if_pos (ho err (eq_error_of_errorOf hc) hos)]
      decide
    | connect => exact absurd (eq_error_of_errorOf hc) (ho err)
    | @cancel jobid reason r =>
      unfold Available
      cases hf : err.isA .fileNotFoundError with
      | true =>
        rcases status_cancelFailed_fileNotFound hf jobid with h | h
        · rw [h]
          decide
        · rw [h]
          decide
      | false =>
        have hp := (ho err (eq_error_of_errorOf hc) hos).resolve_left (by simp [hf])
        rw [status_cancelFailed_permission hf hp]
        decide

/-- Incarnation `i` is up and stays so, the cached handle is on it, and of the calls since `l₀`
each one obliges. -/
structure Calm (i : ℕ) (l₀ : List (FluxCall L.flux)) (b : Broker L.State) (handle : Option ℕ)
    (l : List (FluxCall L.flux)) : Prop where
  up : b.current = some i
  still : b.during = []
  cached : ∀ j, handle = some j → j = i
  obliges : ∃ calls, l = l₀ ++ calls ∧ ∀ c ∈ calls, c.Obliges

namespace Calm

variable {L} {i : ℕ} {l₀ l : List (FluxCall L.flux)} {b b' : Broker L.State} {handle : Option ℕ}

theorem log {c : FluxCall L.flux} (h : Calm L i l₀ b handle l) (hc : c.Obliges) :
    ∃ calls, l ++ [c] = l₀ ++ calls ∧ ∀ c ∈ calls, c.Obliges := by
  obtain ⟨calls, hl, ho⟩ := h.obliges
  refine ⟨calls ++ [c], by rw [hl, List.append_assoc], fun c' hc' => ?_⟩
  rcases List.mem_append.mp hc' with hc' | hc'
  · exact ho c' hc'
  · rw [List.mem_singleton.mp hc']
    exact hc

theorem elapse (h : Calm L i l₀ b handle l) : b.elapse = b := by
  rw [Broker.elapse, h.still]

theorem locally {α : Type} {call : Proc L.State α} {r : Except Exc α}
    (h : Calm L i l₀ b handle l) (hr : (Broker.locally call).run b = (r, b'))
    {c : FluxCall L.flux} (hc : r = (call.run b.live).1 → c.Obliges) :
    Calm L i l₀ b' handle (l ++ [c]) := by
  cases hr
  exact ⟨h.up, h.still, h.cached, h.log (hc rfl)⟩

/-- In calm, a call on the cached handle reaches the broker. -/
theorem rpc {α : Type} {j : ℕ} {call : Proc L.State α} {r : Except Exc α}
    (h : Calm L i l₀ b (some j) l) (hr : (Broker.rpc L.lost j call).run b = (r, b'))
    {c : FluxCall L.flux} (hc : r = (call.run b.live).1 → c.Obliges) :
    Calm L i l₀ b' (some j) (l ++ [c]) := by
  have hcurrent : b.current = some j := by rw [h.up, h.cached j rfl]
  apply h.locally _ hc
  rw [← hr]
  simp only [Proc.run, Broker.rpc, h.elapse, hcurrent, if_true]

theorem connect {r : Except Exc ℕ} (h : Calm L i l₀ b none l)
    (hr : (Broker.connect L.unreachable).run b = (r, b')) :
    Calm L i l₀ b' r.toOption (l ++ [.connect r]) := by
  simp only [Proc.run, Broker.connect, h.elapse, h.up] at hr
  cases hr
  refine ⟨rfl, h.still, fun j hj => ?_, h.log fun err he => by cases he⟩
  cases hj
  rfl

end Calm

theorem callsKeep_calm {L : Live} (hL : L.Obliging) (i : ℕ) (l₀ : List (FluxCall L.flux)) :
    CallsKeep (F := L.flux) (Calm L i l₀) where
  connect h hr := h.connect hr
  attrGet name h hr := h.rpc hr fun he err h => hL.attrGet name _ err (he ▸ h)
  fromCommand command kwargs h hr :=
    h.locally hr fun he err h => hL.fromCommand command kwargs _ err (he ▸ h)
  submit jobspec h hr := h.rpc hr fun he err h => hL.submit jobspec _ err (he ▸ h)
  cancel jobid reason h hr := h.rpc hr fun he err h => hL.cancel jobid reason _ err (he ▸ h)
  jobListId jobid h hr := h.rpc hr fun he err h => hL.jobListId jobid _ err (he ▸ h)
  toDict info h hr := h.locally hr fun he err h => hL.toDict info _ err (he ▸ h)

/-- In calm, no operation is answered 503. -/
theorem available_of_calm {L : Live} (hL : L.Obliging) {req : Request} {op : Op L.flux}
    (ha : op.Asks site req) {i : ℕ} {w : World L.flux} (hw : At (Calm L i w.called) w) :
    status (handleOneRequest L.flux site (tables L.flux site) req) w ≠ some 503 := by
  obtain ⟨path, hhandle⟩ := Op.handle_of_asks site ha
  have hlog : (w.log (.route op.call)).called = w.called := called_log_route w op.call
  have hcalm : At (Calm L i w.called) (w.log (.route op.call)) := by
    unfold At
    rw [hlog]
    exact hw
  have hafter := (callsKeep_calm hL i w.called).preserves_route site op _ hcalm
  obtain ⟨calls, hcalls, hends⟩ := op.ends_route site (w.log (.route op.call))
  obtain ⟨calls', hcalls', hobliges⟩ := hafter.obliges
  rw [hcalls, hlog] at hcalls'
  obtain rfl := List.append_cancel_left hcalls'
  have havailable : Available ((op.route site).run (w.log (.route op.call))).1 := by
    generalize ((op.route site).run (w.log (.route op.call))).1 = r at hends
    cases hends with
    | returned _ hr => exact hr
    | raised _ hc h =>
      exact h.available_of_obliges hc (hobliges _ (List.mem_append_right _ (List.mem_singleton_self _)))
  rw [hhandle, status, written_guarded site req path op.call (op.keeps_route site)
    (op.plain_route site), status_sent]
  split_ifs
  · exact fun h => by cases h
  · exact fun h => havailable (Option.some.inj h)

theorem available_of_spared {L : Live} (hL : L.Obliging) {w₀ w : World L.flux} {steps : List Step}
    (h₀ : (w₀.flux : Broker L.State).opened = [] ∧ w₀.handle = none)
    (hrun : Machine.run (Step.take L site) w₀ steps = some w)
    (hspared : Broker.Spared w.flux) {i : ℕ} (hup : (w.flux : Broker L.State).current = some i)
    {req : Request} {op : Op L.flux} (ha : op.Asks site req) :
    status (handleOneRequest L.flux site (tables L.flux site) req) (withDuring L w []) ≠
      some 503 := by
  have hstart : Broker.Sound w₀.flux w₀.handle := by
    constructor
    · intro j hj
      rw [h₀.1] at hj
      cases hj
    · intro j hj
      rw [h₀.2] at hj
      cases hj
  have hsound := sound_of_run L site hstart hrun
  apply available_of_calm site hL ha (i := i)
  refine ⟨hup, rfl, fun j hj => ?_, [], (List.append_nil _).symm, fun c hc => by cases hc⟩
  have hj : (w.flux : Broker L.State).current = some j := hsound.current_of_spared hspared hj
  rw [hup] at hj
  exact (Option.some.inj hj).symm

/-- A broker that always answers. -/
def Live.fixed : Live where
  State := Unit
  JobID := ℕ
  Jobspec := Unit
  JobInfo := Unit
  attrGet _ := Proc.ofExcept (.ok ['1'])
  fromCommand _ _ := Proc.ofExcept (.ok ())
  submit _ := Proc.ofExcept (.ok 1)
  cancel _ _ := Proc.ofExcept (.ok ())
  jobListId _ := Proc.ofExcept (.ok ())
  toDict _ := Proc.ofExcept (.ok [])
  jobId s := match jobIdOfText s with
    | some n => .ok n
    | none => .error ("unable to parse jobid ".toList ++ s)
  f58plain := FluxRest.f58plain
  f58plain_ascii := FluxRest.f58plain_ascii
  unreachable := osError ENOENT "Unable to connect to Flux".toList
  lost := osError 104 "Connection reset by peer".toList

theorem Live.fixed_obliging : Live.fixed.Obliging := by
  constructor <;> intros <;> contradiction

/-- A server that has not used Flux yet, while the first incarnation is up. -/
def firstWorld : World Live.fixed.flux :=
  { flux := ({ live := (), current := some 0, next := 1 } : Broker Unit) }

def getRoot : Request := { command := "GET".toList, path := "/api/v1/".toList }

/-- The broker was restarted before the server used it. -/
theorem available_getRoot : ∃ w, Machine.run (Step.take Live.fixed .fixed) firstWorld
      [.broker .ends, .broker .starts] = some w ∧
    status (handleOneRequest Live.fixed.flux .fixed (tables Live.fixed.flux .fixed) getRoot)
      (withDuring Live.fixed w []) ≠ some 503 := by
  have hrun : Machine.run (Step.take Live.fixed .fixed) firstWorld
      [.broker .ends, .broker .starts] = some _ := rfl
  have hroot : (.root : Op Live.fixed.flux).Asks .fixed getRoot := ⟨rfl, rfl⟩
  exact ⟨_, hrun, available_of_spared .fixed Live.fixed_obliging ⟨rfl, rfl⟩ hrun
    (fun j hj => by cases hj) rfl hroot⟩

/-- After a restart of a broker the server has used, `GET /` is answered 503 all the same. -/
theorem restarted_unavailable : ∃ w, Machine.run (Step.take Live.fixed .fixed) firstWorld
      [.request getRoot [], .broker .ends, .broker .starts] = some w ∧
    (w.flux : Broker Unit).current = some 1 ∧
    status (handleOneRequest Live.fixed.flux .fixed (tables Live.fixed.flux .fixed) getRoot)
      (withDuring Live.fixed w []) = some 503 :=
  ⟨_, rfl, rfl, rfl⟩

end FluxRest
