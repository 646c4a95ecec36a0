import FluxRest.Frame

/-! What a run of a method shows: the status it answers with, the routes it runs and the calls
it makes on Flux. -/
namespace FluxRest
open Py Py.Http

variable {F : Flux} {γ : Type}

def Event.route? : Event F → Option (RouteCall F)
  | .route c => some c
  | .call _ => none

def Event.call? : Event F → Option (FluxCall F)
  | .route _ => none
  | .call c => some c

namespace World

def routed (w : World F) : List (RouteCall F) := w.trace.filterMap Event.route?
def called (w : World F) : List (FluxCall F) := w.trace.filterMap Event.call?

end World

def Wire.status? : Wire → Option ℕ
  | .head h => some h.status
  | .data _ => none

/-- What `x` hands to the connection. -/
def written (x : Proc (World F) Unit) (w : World F) : List Wire :=
  (x.run w).2.wire.drop w.wire.length

/-- The status of the response `x` begins to write, if it writes one with a head. -/
def status (x : Proc (World F) Unit) (w : World F) : Option ℕ :=
  (written x w).head?.bind Wire.status?

/-- The routes `x` runs. -/
def ran (x : Proc (World F) Unit) (w : World F) : List (RouteCall F) :=
  (x.run w).2.routed.drop w.routed.length

/-- The Flux calls `x` makes. -/
def called (x : Proc (World F) Unit) (w : World F) : List (FluxCall F) :=
  (x.run w).2.called.drop w.called.length

theorem written_of_wire {x : Proc (World F) Unit} {w : World F} {l : List Wire}
    (h : (x.run w).2.wire = w.wire ++ l) : written x w = l := by
  rw [written, h, List.drop_left]

theorem status_eq_none {x : Proc (World F) Unit} {w : World F}
    (h : (x.run w).2.wire = w.wire) : status x w = none := by
  rw [status, written, h, List.drop_length]
  rfl

theorem ran_of_routed {x : Proc (World F) Unit} {w : World F} {l : List (RouteCall F)}
    (h : (x.run w).2.routed = w.routed ++ l) : ran x w = l := by
  rw [ran, h, List.drop_left]

theorem called_of_trace {w w' : World F} (h : w'.trace = w.trace) : w'.called = w.called := by
  rw [World.called, h]
  rfl

theorem called_log_route (w : World F) (c : RouteCall F) :
    (w.log (.route c)).called = w.called := by
  simp [World.called, Event.call?]

theorem called_invoke {α : Type} (note : Except Exc α → FluxCall F) (call : Proc F.State α)
    (w : World F) : ((invoke note call).run w).2.called = w.called ++ [note (call.run w.flux).1] := by
  rw [run_invoke]
  simp [World.called, Event.call?]

theorem called_of_called {x : Proc (World F) Unit} {w : World F} {l : List (FluxCall F)}
    (h : (x.run w).2.called = w.called ++ l) : called x w = l := by
  rw [called, h, List.drop_left]

/-! A response leaves the trace as it is. -/

theorem keeps_trace_write (req : Request) (x : Wire) :
    Proc.Keeps World.trace (write F req x) := by
  refine .bind (.modify fun _ => rfl) fun _ => ?_
  cases req.writeError with
  | some err => exact .throw err
  | none => exact .pure ()

theorem keeps_trace_endHeaders (req : Request) (head : Head)
    (headers : Option (List (Str × Str))) :
    Proc.Keeps World.trace (endHeaders F req head headers) := by
  unfold endHeaders
  split_ifs
  · exact .pure ()
  · exact keeps_trace_write req _
  · exact .throw _

theorem keeps_trace_send (site : Site) (req : Request) (reply : Reply) :
    Proc.Keeps World.trace (send F site req reply) := by
  refine .tryCatch ?_ fun err => ?_
  · exact .bind (keeps_trace_endHeaders req _ _) fun _ => keeps_trace_write req _
  · split_ifs
    · exact .pure ()
    · exact .throw err

theorem keeps_trace_sendError (site : Site) (req : Request) (command : Option Str) (code : ℕ)
    (message : Str) : Proc.Keeps World.trace (sendError F site req command code message) := by
  refine .bind (keeps_trace_endHeaders req _ _) fun _ => ?_
  split_ifs
  · exact keeps_trace_write req _
  · exact .pure ()

theorem wire_write (req : Request) (x : Wire) (w : World F) :
    ((write F req x).run w).2.wire = w.wire ++ [x] := by
  simp only [write]
  cases req.writeError <;> rfl

/-- What `_send` hands to the connection: a head, unless the request came without a version, and
the body, unless writing the head failed. -/
def sent (site : Site) (req : Request) (reply : Reply) : List Wire :=
  let data := bodyBytes reply.body
  if req.http09 then [.data data]
  else .head (sendHead site reply.status data.length reply.headers) ::
    if req.writeError.isSome then [] else [.data data]

theorem wire_send (site : Site) (req : Request) {reply : Reply} (hp : Plain reply)
    (w : World F) : ((send F site req reply).run w).2.wire = w.wire ++ sent site req reply := by
  have hl : (reply.headers.getD []).all fun f => isLatin1 f.1 && isLatin1 f.2 := by
    rw [List.all_eq_true]
    intro f hf
    simp [(hp f hf).1, (hp f hf).2.1]
  have hcatch : ∀ (x : Proc (World F) Unit), ((tryCatch x fun err =>
      if err.isA .brokenPipeError then return () else throw err).run w).2 = (x.run w).2 := by
    intro x
    rw [Proc.run_tryCatch]
    rcases x.run w with ⟨err | u, w'⟩
    · dsimp only
      split_ifs <;> rfl
    · rfl
  rw [send, hcatch]
  unfold sent
  cases hv : req.http09 with
  | true =>
    have he : ∀ head, (endHeaders F req head reply.headers).run w = (.ok (), w) := by
      intro head
      simp only [endHeaders, hv, if_true]
      rfl
    rw [Proc.run_bind_ok (he _), wire_write]
    rfl
  | false =>
    have he : ∀ head, endHeaders F req head reply.headers = write F req (.head head) := by
      intro head
      simp only [endHeaders, hv, Bool.false_eq_true, if_false, hl, if_true]
    rw [he, Proc.run_bind]
    cases hw : req.writeError with
    | none => simp [write, hw, Proc.run_bind]
    | some err => simp [write, hw, Proc.run_bind]

theorem written_send (site : Site) (req : Request) {reply : Reply} (hp : Plain reply)
    (w : World F) : written (send F site req reply) w = sent site req reply :=
  written_of_wire (wire_send site req hp w)

theorem status_sent (site : Site) (req : Request) (reply : Reply) :
    (sent site req reply).head?.bind Wire.status? =
      if req.http09 then none else some reply.status := by
  unfold sent
  cases req.http09 <;> rfl

theorem status_send (site : Site) {req : Request} (hv : req.http09 = false) {reply : Reply}
    (hp : Plain reply) (w : World F) : status (send F site req reply) w = some reply.status := by
  rw [status, written_send site req hp, status_sent, hv]
  rfl

theorem ran_of_keeps_trace {x : Proc (World F) Unit} (hk : Proc.Keeps World.trace x)
    (w : World F) : ran x w = [] := by
  refine ran_of_routed ?_
  rw [World.routed, hk, List.append_nil]
  rfl

theorem ran_send (site : Site) (req : Request) (reply : Reply) (w : World F) :
    ran (send F site req reply) w = [] :=
  ran_of_keeps_trace (keeps_trace_send site req reply) w

theorem called_send (site : Site) (req : Request) (reply : Reply) (w : World F) :
    called (send F site req reply) w = [] := by
  refine called_of_called ?_
  rw [World.called, keeps_trace_send, List.append_nil]
  rfl

/-- What `guardRoute` makes of the outcome of its route. -/
theorem run_guardRoute (path : Str) (call : RouteCall F) (route : Proc (World F) Reply)
    (w : World F) : (guardRoute F path call route).run w =
      match route.run (w.log (.route call)) with
      | (.ok reply, w') => (.ok reply, w')
      | (.error err, w') =>
        if err.isA .osError then (.ok (unavailable err), w')
        else (.ok internalError, { w' with stderr := w'.stderr ++
          ["unhandled exception in ".toList ++ path ++ ": ".toList ++ err.message] }) := by
  have hbody : ((do
      modify fun w => w.log (.route call)
      route : Proc (World F) Reply)).run w = route.run (w.log (.route call)) := rfl
  rw [guardRoute, Proc.run_tryCatch, hbody]
  rcases route.run (w.log (.route call)) with ⟨err | reply, w'⟩
  · dsimp only
    by_cases h : err.isA .osError
    · rw [if_pos h, if_pos h]
      rfl
    · rw [if_neg h, if_neg h]
      rfl
  · rfl

/-- A guarded route that raises is answered for, in the state it left. -/
def afterRoute (r : Except Exc Reply) : Reply :=
  match r with
  | .ok reply => reply
  | .error err => if err.isA .osError then unavailable err else internalError

theorem guardRoute_reply (path : Str) (call : RouteCall F) (route : Proc (World F) Reply)
    (w : World F) : ((guardRoute F path call route).run w).1 =
      .ok (afterRoute (route.run (w.log (.route call))).1) := by
  rw [run_guardRoute]
  rcases route.run (w.log (.route call)) with ⟨err | reply, w'⟩
  · dsimp only [afterRoute]
    split_ifs <;> rfl
  · rfl

theorem guardRoute_trace (path : Str) (call : RouteCall F) (route : Proc (World F) Reply)
    (w : World F) : ((guardRoute F path call route).run w).2.trace =
      (route.run (w.log (.route call))).2.trace := by
  rw [run_guardRoute]
  rcases route.run (w.log (.route call)) with ⟨err | reply, w'⟩
  · dsimp only
    split_ifs <;> rfl
  · rfl

section Guarded

variable (site : Site) (req : Request) (path : Str) (call : RouteCall F)
  {route : Proc (World F) Reply}

/-- A guarded route is answered with its reply. -/
theorem written_guarded (hk : Proc.Keeps World.wire route) (hp : Proc.Returns Plain route)
    (w : World F) : written (do send F site req (← guardRoute F path call route)) w =
      sent site req (afterRoute (route.run (w.log (.route call))).1) := by
  have hreply := guardRoute_reply path call route w
  have hplain := plain_guardRoute path call hp w _ hreply
  have hkeep := keeps_guardRoute (fun _ _ => rfl) (fun _ _ => rfl) path call hk w
  rcases hg : (guardRoute F path call route).run w with ⟨r, w'⟩
  rw [hg] at hreply hkeep
  subst hreply
  have hwire : w'.wire = w.wire := hkeep
  have h := wire_send site req hplain w'
  rw [hwire, ← Proc.run_bind_ok hg (fun reply => send F site req reply)] at h
  exact written_of_wire h

theorem status_guarded (hv : req.http09 = false) (hk : Proc.Keeps World.wire route)
    (hp : Proc.Returns Plain route) (w : World F) :
    status (do send F site req (← guardRoute F path call route)) w =
      some (afterRoute (route.run (w.log (.route call))).1).status := by
  rw [status, written_guarded site req path call hk hp, status_sent, hv]
  rfl

variable (route) in
theorem trace_guarded (w : World F) :
    ((do send F site req (← guardRoute F path call route) : Proc (World F) Unit).run w).2.trace =
      (route.run (w.log (.route call))).2.trace := by
  have hreply := guardRoute_reply path call route w
  have htrace := guardRoute_trace path call route w
  rcases hg : (guardRoute F path call route).run w with ⟨r, w'⟩
  rw [hg] at hreply htrace
  subst hreply
  rw [Proc.run_bind_ok hg]
  exact (keeps_trace_send site req _ w').trans htrace

theorem ran_guarded (hk : Proc.Keeps World.routed route) (w : World F) :
    ran (do send F site req (← guardRoute F path call route)) w = [call] := by
  refine ran_of_routed ?_
  have h := hk (w.log (.route call))
  rw [World.routed, trace_guarded site req path call route w]
  refine h.trans ?_
  simp [World.routed, Event.route?]

/-- What the route adds to a log kept in the trace is what the method adds to it. -/
theorem emits_guarded {f : World F → List γ} (hf : ∀ {w w'}, w'.trace = w.trace → f w' = f w)
    (hlog : ∀ w c, f (World.log w (.route c)) = f w) {P : List γ → Except Exc Reply → Prop}
    (hr : Proc.Emits f P route) (w : World F) :
    P ((f ((do send F site req (← guardRoute F path call route) : Proc (World F) Unit).run w).2).drop
      (f w).length) (route.run (w.log (.route call))).1 := by
  obtain ⟨l, hl, hp⟩ := hr (w.log (.route call))
  have hrun := hf (trace_guarded site req path call route w)
  rw [hl, hlog] at hrun
  rw [hrun, List.drop_left]
  exact hp

end Guarded

theorem ignoresCalls_routed : IgnoresCalls (World.routed (F := F)) :=
  ⟨⟨fun _ _ => rfl, fun _ _ _ _ => by simp [World.routed, Event.route?]⟩,
    fun _ _ _ => by simp [World.routed, Event.route?]⟩

end FluxRest
