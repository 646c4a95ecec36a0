import FluxRest.Serve.Serially
import FluxRest.Effects
import FluxRest.Invariant

/-! Whole runs of the server and Flux: what was done there against what the clients were told. -/
namespace FluxRest
open Py Py.Http

variable {F : Flux} {site : Site} {clients : Sock → Client} {uid : Option ℕ} {T : Option ℚ}

/-- The jobs created and the cancellations requested so far. -/
def World.done (w : World F) : List (FluxCall F) := w.effects.filter FluxCall.done

/-- The response says that a job was created or a cancellation requested. -/
def tells (e : Sock × List Wire) : Bool :=
  match e.2.head?.bind Wire.status? with
  | some 201 | some 202 => true
  | _ => false

/-- The response to a client names the job that a call was about. -/
inductive Names : FluxCall F → Sock × List Wire → Prop
  | created {s jobspec jobid head} (hstatus : head.status = 201)
      (hlocation : lookup "Location".toList head.fields = some (PREFIX ++ "/jobs/".toList ++ F.f58plain jobid)) :
      Names (.submit jobspec (.ok jobid))
        (s, [.head head, .data (bodyBytes (.obj [("id".toList, .str (F.f58plain jobid))]))])
  | cancelled {s jobid reason head} (hstatus : head.status = 202) :
      Names (.cancel jobid reason (.ok ()))
        (s, [.head head, .data (bodyBytes (.obj [("id".toList, .str (F.f58plain jobid)),
          ("status".toList, .str "cancel requested".toList)]))])

/-- The calls made so far stay. -/
theorem callsKeep_called (base : List (FluxCall F)) : CallsKeep fun _ _ l => base <+: l := by
  have hmore : ∀ {l : List (FluxCall F)} {c : FluxCall F}, base <+: l → base <+: l ++ [c] :=
    fun h => h.trans (List.prefix_append _ _)
  exact ⟨fun h _ => hmore h, fun _ h _ => hmore h, fun _ _ h _ => hmore h, fun _ h _ => hmore h,
    fun _ _ h _ => hmore h, fun _ h _ => hmore h, fun _ h _ => hmore h⟩

theorem effects_handler (site : Site) (req : Request) (w : World F) :
    ((handler F site req).run w).2.effects = w.effects ++ effects (handler F site req) w := by
  obtain ⟨l, hl⟩ : w.called <+: ((handler F site req).run w).2.called :=
    (callsKeep_called w.called).preserves_handle site req w List.prefix_rfl
  have heffects : ((handler F site req).run w).2.effects = w.effects ++ l.filter FluxCall.isEffect := by
    rw [World.effects, ← hl, List.filter_append]
    rfl
  rw [effects, heffects, List.drop_left]

theorem done_cases {c : FluxCall F} (h : c.done = true) :
    (∃ jobspec jobid, c = .submit jobspec (.ok jobid)) ∨ ∃ jobid reason, c = .cancel jobid reason (.ok ()) := by
  cases c with
  | submit jobspec r =>
    cases r with
    | error => cases h
    | ok jobid => exact Or.inl ⟨jobspec, jobid, rfl⟩
  | cancel jobid reason r =>
    cases r with
    | error => cases h
    | ok => exact Or.inr ⟨jobid, reason, rfl⟩
  | _ => cases h

/-- What is done for a request is told in its response, and nothing else is. -/
theorem named_handler (site : Site) {req : Request} (hw : req.writeError = none)
    (hv : req.http09 = false) (s : Sock) (w : World F) :
    let wires := written (handler F site req) w
    let done := (effects (handler F site req) w).filter FluxCall.done
    tells (s, wires) = false ∧ done = [] ∨
      tells (s, wires) = true ∧ ∃ c, done = [c] ∧ Names c (s, wires) := by
  intro wires done
  have htold : EffectsTold req (handler F site req) w := (toldOf_handle site req w).effectsTold hv
  have hstatus : ∀ head rest, wires = .head head :: rest →
      status (handler F site req) w = some head.status := by
    intro head rest hwires
    rw [status, show written (handler F site req) w = wires from rfl, hwires]
    rfl
  have hone : ∀ c ∈ done, done = [c] := by
    intro c hc
    have hlength : done.length ≤ 1 := (List.length_filter_le _ _).trans htold.once
    obtain ⟨c', hc'⟩ := List.length_eq_one_iff.mp (le_antisymm hlength (List.length_pos_of_mem hc))
    rw [hc'] at hc ⊢
    rw [List.mem_singleton.mp hc]
  have hcases : done = [] ∨ ∃ c, c ∈ done := by
    cases hdone : done with
    | nil => exact Or.inl rfl
    | cons c rest => exact Or.inr ⟨c, List.mem_cons_self⟩
  obtain hnone | ⟨c, hc⟩ := hcases
  · left
    refine ⟨?_, hnone⟩
    have hnot : ∀ c ∈ effects (handler F site req) w, c.done = false := by
      intro c hc
      have hfilter := List.filter_eq_nil_iff.mp hnone c hc
      simpa using hfilter
    unfold tells
    change (match status (handler F site req) w with
      | some 201 | some 202 => true
      | _ => false) = false
    split
    · next h201 =>
      obtain ⟨jobspec, jobid, hmem⟩ := htold.created.mp h201
      cases hnot _ hmem
    · next h202 =>
      obtain ⟨jobid, reason, hmem⟩ := htold.cancelled.mp h202
      cases hnot _ hmem
    · rfl
  · right
    obtain ⟨hmem, hdone⟩ := List.mem_filter.mp hc
    obtain ⟨jobspec, jobid, rfl⟩ | ⟨jobid, reason, rfl⟩ := done_cases hdone
    · obtain ⟨head, hwires, hlocation⟩ := htold.createdNamed jobspec jobid hmem
      have h201 := htold.created.mpr ⟨jobspec, jobid, hmem⟩
      rw [hw] at hwires
      have hhead : head.status = 201 := by
        rw [hstatus head _ hwires] at h201
        exact Option.some.inj h201
      change wires = _ at hwires
      rw [hwires]
      refine ⟨?_, _, hone _ hc, .created hhead hlocation⟩
      simp only [tells, List.head?_cons, Option.bind_some, Wire.status?, hhead]
    · obtain ⟨head, hwires⟩ := htold.cancelledNamed jobid reason hmem
      have h202 := htold.cancelled.mpr ⟨jobid, reason, hmem⟩
      rw [hw] at hwires
      have hhead : head.status = 202 := by
        rw [hstatus head _ hwires] at h202
        exact Option.some.inj h202
      change wires = _ at hwires
      rw [hwires]
      refine ⟨?_, _, hone _ hc, .cancelled hhead⟩
      simp only [tells, List.head?_cons, Option.bind_some, Wire.status?, hhead]

/-- One request adds to what was done in Flux what its response tells of. -/
theorem ledger_step {s : Sock} (hversion : ∀ req, (clients s).asks = some req → req.http09 = false)
    {t u : World F} {wires : List Wire} (h : Handles site clients t s wires u) :
    tells (s, wires) = false ∧ u.done = t.done ∨
      tells (s, wires) = true ∧ ∃ c, u.done = t.done ++ [c] ∧ Names c (s, wires) := by
  obtain ⟨req, hreq, hrun, rfl⟩ := h
  have hdone : u.done = t.done ++ (effects (handler F site req) t).filter FluxCall.done := by
    have heffects := effects_handler site req t
    rw [hrun] at heffects
    rw [World.done, heffects, List.filter_append]
    rfl
  have hnamed := named_handler site (System.writeError_of_asks hreq) (hversion req hreq) s t
  obtain ⟨hsilent, hnone⟩ | ⟨htells, c, hc, hnames⟩ := hnamed
  · left
    rw [hdone, hnone, List.append_nil]
    exact ⟨hsilent, rfl⟩
  · right
    rw [hdone, hc]
    exact ⟨htells, c, rfl, hnames⟩

theorem System.Kept.told {w₀ w : World F} {sys : System F} {served : List (Sock × List Wire)}
    (hI : System.Kept site clients uid w₀ sys served w) (hfresh : w₀.trace = [])
    (hversion : ∀ e ∈ served, ∀ req, (clients e.1).asks = some req → req.http09 = false)
    (hcut : ¬ CutShort sys.cfg.log) :
    List.Forall₂ Names sys.world.done (served.reverse.filter tells) := by
  rw [hI.world.resolve_right hcut]
  have hnothing : w₀.done = [] := by
    rw [World.done, World.effects, World.called, hfresh]
    rfl
  exact hI.history.ledger (fun _ _ _ _ hmem hr => ledger_step (hversion _ hmem) hr) hnothing

/-- In every run of the whole server in which no signal cuts a request short, with clients that speak
`HTTP/1.x`, the jobs created in Flux and the cancellations requested there are, one for one and in this
order, those that the responses to the clients tell of. -/
theorem done_as_told {w₀ : World F} (hfresh : w₀.trace = [])
    (hversion : ∀ s req, (clients s).asks = some req → req.http09 = false) {sys : System F}
    (h : System.Reached site clients uid T w₀ sys) (hcut : ¬ CutShort sys.cfg.log) :
    ∃ served, served.Pairwise (fun later earlier => earlier.1 < later.1) ∧
      (∀ s, (clients s).asks.isSome = true → answersTo s sys.cfg.log = responsesTo s served) ∧
      List.Forall₂ Names sys.world.done (served.reverse.filter tells) := by
  obtain ⟨served, w, hI⟩ := h.kept
  exact ⟨served, hI.order, hI.answered, hI.told hfresh (fun e _ => hversion e.1) hcut⟩

/-- A job that the user submits. -/
def submissionClient : Client := ⟨some 1000, some {
  command := "POST".toList
  path := "/api/v1/jobs".toList
  headers := [("Content-Length".toList, "21".toList)]
  body := encode "\x7b\"command\": [\"true\"]\x7d".toList }⟩

/-- The job is submitted, and what the client is sent of the answer is cut off. -/
def submissionTurns : List (Turn (.fixed {})) :=
  let response := submissionClient.asks.elim [] fun req =>
    (written (handler (.fixed {}) .fixed req) { flux := () }).flatMap Wire.bytes
  [.main .next, .main .next, .main .next, .main .ready, .main .next, .main (.accept (some 1000)),
    .main .next, .main .next, .main .next, .main .request, .main (.respond response), .main (.send 20),
    .main (.writeFails true), .main .next, .main .next]

theorem submissionTurns_uncut : ∃ sys, Machine.run (System.step .fixed fun _ => submissionClient)
      { cfg := Cfg.serve (some 1000) none 0 false, world := { flux := () } } submissionTurns = some sys ∧
    ¬ CutShort sys.cfg.log := by
  have hruns : (Machine.run (System.step .fixed fun _ => submissionClient)
      { cfg := Cfg.serve (some 1000) none 0 false, world := { flux := () } } submissionTurns).any
        (fun sys => ¬ CutShort sys.cfg.log) = true := by
    decide +kernel
  obtain ⟨sys, hrun, hcut⟩ := (Option.any_eq_true _ _).mp hruns
  exact ⟨sys, hrun, of_decide_eq_true hcut⟩

theorem done_as_told_submission : ∃ sys, Machine.run (System.step .fixed fun _ => submissionClient)
      { cfg := Cfg.serve (some 1000) none 0 false, world := { flux := () } } submissionTurns = some sys ∧
    ∃ served : List (Sock × List Wire), served.Pairwise (fun later earlier => earlier.1 < later.1) ∧
      (∀ s, submissionClient.asks.isSome = true → answersTo s sys.cfg.log = responsesTo s served) ∧
      List.Forall₂ Names sys.world.done (served.reverse.filter tells) := by
  obtain ⟨sys, hrun, hlog⟩ := submissionTurns_uncut
  refine ⟨sys, hrun, done_as_told (T := none) rfl ?_ ⟨0, false, _, hrun⟩ hlog⟩
  intro s req hreq
  cases hreq
  rfl

/-! The handle of Flux. -/

/-- What every call keeps, every run of the whole server keeps. -/
theorem System.Reached.at_calls {I : F.State → Option F.Handle → List (FluxCall F) → Prop}
    (hI : CallsKeep I) {w₀ : World F} (hstart : At I w₀) {sys : System F}
    (h : System.Reached site clients uid T w₀ sys) (hcut : ¬ CutShort sys.cfg.log) : At I sys.world := by
  obtain ⟨served, w, hkept⟩ := h.kept
  rw [hkept.world.resolve_right hcut]
  apply hkept.history.invariant _ hstart
  rintro t s wires u ht ⟨req, -, hrun, -⟩
  have hafter := hI.preserves_handle site req t ht
  unfold handler at hrun
  rw [hrun] at hafter
  exact hafter

/-- The outcomes of the calls of `flux.Flux()`. -/
def connects (l : List (FluxCall F)) : List (Except Exc F.Handle) := l.filterMap fun
  | .connect r => some r
  | _ => none

/-- Flux has been opened as often as it took: never again once it succeeded, and the handle kept is
the one that was opened. -/
def Opened (o : Option F.Handle) (l : List (FluxCall F)) : Prop :=
  ∃ failures : List Exc, connects l = failures.map .error ++ o.toList.map .ok

theorem callsKeep_opened : CallsKeep fun _ o l => Opened (F := F) o l := by
  have hother : ∀ {o : Option F.Handle} {l : List (FluxCall F)} {c : FluxCall F},
      connects [c] = [] → Opened o l → Opened o (l ++ [c]) := by
    rintro o l c hc ⟨failures, hl⟩
    refine ⟨failures, ?_⟩
    rw [connects, List.filterMap_append, ← connects, ← connects, hc, List.append_nil]
    exact hl
  refine ⟨?_, fun _ h _ => hother rfl h, fun _ _ h _ => hother rfl h, fun _ h _ => hother rfl h,
    fun _ _ h _ => hother rfl h, fun _ h _ => hother rfl h, fun _ h _ => hother rfl h⟩
  rintro s l r s' ⟨failures, hl⟩ -
  have hconnect : connects (l ++ [.connect r]) = failures.map .error ++ [r] := by
    rw [connects, List.filterMap_append, ← connects, hl, Option.toList_none, List.map_nil, List.append_nil]
    rfl
  cases r with
  | error err =>
    refine ⟨failures ++ [err], ?_⟩
    rw [hconnect, List.map_append]
    simp [Except.toOption]
  | ok h =>
    refine ⟨failures, ?_⟩
    rw [hconnect]
    rfl

/-- In every run of the whole server in which no signal cuts a request short, Flux is opened anew for
each request that needs it until that succeeds, and never again, not even where `main` has done so. -/
theorem opened_once {w₀ : World F} (hstart : Opened w₀.handle w₀.called) {sys : System F}
    (h : System.Reached site clients uid T w₀ sys) (hcut : ¬ CutShort sys.cfg.log) :
    Opened sys.world.handle sys.world.called :=
  h.at_calls callsKeep_opened hstart hcut

theorem opened_once_submission : ∃ sys, Machine.run (System.step .fixed fun _ => submissionClient)
      { cfg := Cfg.serve (some 1000) none 0 false, world := { flux := () } } submissionTurns = some sys ∧
    Opened sys.world.handle sys.world.called := by
  obtain ⟨sys, hrun, hlog⟩ := submissionTurns_uncut
  exact ⟨sys, hrun, opened_once (T := none) ⟨[], rfl⟩ ⟨0, false, _, hrun⟩ hlog⟩

end FluxRest
