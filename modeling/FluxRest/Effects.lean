import FluxRest.Trace
import FluxRest.Body

/-! What a request does to Flux, and what its response says it did. -/
namespace FluxRest
open Py Py.Http

variable {F : Flux} (site : Site)

def World.effects (w : World F) : List (FluxCall F) := w.called.filter FluxCall.isEffect

/-- The submissions and cancellations `x` asks Flux for. -/
def effects (x : Proc (World F) Unit) (w : World F) : List (FluxCall F) :=
  (x.run w).2.effects.drop w.effects.length

theorem ignoresQueries_effects : IgnoresQueries (World.effects (F := F)) := by
  constructor
  · intro w h
    rfl
  · intro w s c hc
    simp [World.effects, World.called, Event.call?, hc]

theorem effects_of_trace {w w' : World F} (h : w'.trace = w.trace) : w'.effects = w.effects := by
  rw [World.effects, called_of_trace h]
  rfl

theorem effects_log_route (w : World F) (c : RouteCall F) :
    (w.log (.route c)).effects = w.effects := by
  rw [World.effects, called_log_route]
  rfl

/-- The call changed something: it is one of the two that do, and it returned. -/
def FluxCall.done : FluxCall F → Bool
  | .submit _ (.ok _) => true
  | .cancel _ _ (.ok _) => true
  | _ => false

/-- What a route does to Flux, with what it returns or raises: the reply tells of what was done,
and no other reply does. -/
inductive Told : List (FluxCall F) → Except Exc Reply → Prop
  | without {l r} (hl : l = [] ∨ ∃ c, l = [c] ∧ c.done = false)
      (hr : ∀ reply, r = .ok reply → reply.status ≠ 201 ∧ reply.status ≠ 202) : Told l r
  | created (jobspec : F.Jobspec) (jobid : F.JobID) :
      Told [.submit jobspec (.ok jobid)] (.ok (jobCreated F jobid))
  | cancelled (jobid : F.JobID) (reason : Option Str) :
      Told [.cancel jobid reason (.ok ())] (.ok (cancelRequested F jobid))

theorem Told.nothing {reply : Reply} (h : reply.status ≠ 201 ∧ reply.status ≠ 202) :
    Told (F := F) [] (.ok reply) := by
  apply Told.without (Or.inl rfl)
  intro r hr
  cases hr
  exact h

theorem Told.raised (err : Exc) {l : List (FluxCall F)}
    (hl : l = [] ∨ ∃ c, l = [c] ∧ c.done = false) : Told l (.error err) := by
  apply Told.without hl
  intro reply hr
  cases hr

/-- `Told`, with what a handler may still learn of an exception: nothing was done. -/
def ToldSoFar (l : List (FluxCall F)) (r : Except Exc Reply) : Prop :=
  Told l r ∧ ∀ err, r = .error err → l = [] ∨ ∃ c, l = [c] ∧ c.done = false

theorem toldSoFar_invoke {α : Type} {note : Except Exc α → FluxCall F}
    (hn : ∀ r, (note r).isEffect = true) (hd : ∀ err, (note (.error err)).done = false)
    {reply : α → Reply} (hreply : ∀ a, Told [note (.ok a)] (.ok (reply a)))
    (call : Proc F.State α) :
    Proc.Emits World.effects ToldSoFar (invoke note call >>= fun a => pure (reply a)) := by
  have hcall : Proc.Emits World.effects (fun l r => l = [note r]) (invoke note call) := by
    intro w
    refine ⟨[note (call.run w.flux).1], ?_, rfl⟩
    rw [World.effects, called_invoke, List.filter_append]
    simp [World.effects, hn]
  apply hcall.seq
  · intro l err hl
    have hfailed : l = [] ∨ ∃ c, l = [c] ∧ c.done = false := Or.inr ⟨_, hl, hd err⟩
    exact ⟨.raised err hfailed, fun _ _ => hfailed⟩
  · intro l a hl
    subst hl
    apply Proc.Emits.pure
    exact ⟨hreply a, fun err h => by cases h⟩

theorem told_tryCatch {x : Proc (World F) Reply} (hx : Proc.Emits World.effects ToldSoFar x)
    {handler : Exc → Except Exc Reply} (hh : ∀ err reply, handler err = .ok reply →
      reply.status ≠ 201 ∧ reply.status ≠ 202) :
    Proc.Emits World.effects Told (tryCatch x fun err => .ofExcept (handler err)) := by
  refine .tryCatch hx (fun _ _ h => h.1) fun l err h => .ofExcept ?_
  rw [List.append_nil]
  exact .without (h.2 err rfl) (hh err)

theorem emits_flux : Proc.Emits World.effects (fun l _ => l = []) (flux F) :=
  .of_keeps (keeps_flux ignoresQueries_effects) (.trivial _) fun _ _ => rfl

theorem told_submitJob (jobspec : F.Jobspec) :
    Proc.Emits World.effects Told (submitJob F jobspec) := by
  apply told_tryCatch
  · apply emits_flux.seq
    · intro l err hl
      exact ⟨.raised err (Or.inl hl), fun _ _ => Or.inl hl⟩
    · intro l h hl
      subst hl
      exact toldSoFar_invoke (fun _ => rfl) (fun _ => rfl) (fun jobid => .created jobspec jobid) _
  · intro err reply hr
    rw [(submitFailed_status hr).1]
    decide

theorem told_jobsSubmit (body : List (Str × Json)) :
    Proc.Emits World.effects Told (jobsSubmit F site body) := by
  unfold jobsSubmit
  cases commandOf body with
  | none =>
    apply Proc.Emits.pure
    exact .nothing (by constructor <;> decide)
  | some command =>
    cases site.passwd with
    | none => exact .throw (.raised _ (Or.inl rfl))
    | some pw =>
      have hmade : Proc.Emits World.effects
          (fun l r => l = [] ∧ ∀ reply, r = .ok (.inl reply) → reply.status = 400)
          (tryCatch (Sum.inr (α := Reply) <$> invoke (.fromCommand command (jobKwargs pw body))
              (F.fromCommand command (jobKwargs pw body)))
            fun err => Sum.inl <$> Proc.ofExcept (fromCommandFailed err)) := by
        refine .of_keeps (R := fun r => ∀ reply, r = .inl reply → reply.status = 400) ?_ ?_ ?_
        · exact .tryCatch (.map (keeps_query ignoresQueries_effects (fun _ => rfl) _))
            fun err => .map (.ofExcept _)
        · refine .tryCatch (.map (.trivial _) fun _ _ _ h => by cases h) fun err => ?_
          exact .map (.ofExcept fun reply h => (fromCommandFailed_status h).1)
            fun reply hreply _ h => by cases h; exact hreply
        · intro r hr
          exact ⟨rfl, fun reply h => hr _ h reply rfl⟩
      apply hmade.seq
      · intro l err hl
        exact .raised err (Or.inl hl.1)
      · intro l made hl
        obtain ⟨rfl, hl⟩ := hl
        cases made with
        | inl reply =>
          apply Proc.Emits.pure
          apply Told.nothing
          rw [hl reply rfl]
          decide
        | inr jobspec => exact told_submitJob jobspec

theorem told_jobsCancel (jobid : F.JobID) (reason : Option Str) :
    Proc.Emits World.effects Told (jobsCancel F jobid reason) := by
  apply emits_flux.seq
  · intro l err hl
    exact .raised err (Or.inl hl)
  · intro l h hl
    subst hl
    apply told_tryCatch
    · exact toldSoFar_invoke (fun _ => rfl) (fun _ => rfl) (fun _ => .cancelled jobid reason) _
    · intro err reply hr
      have hstatus := (cancelFailed_status hr).1
      simp only [List.mem_cons, List.not_mem_nil, or_false] at hstatus
      omega

theorem Told.afterRoute {l : List (FluxCall F)} {r : Except Exc Reply} (h : Told l r) :
    Told l (.ok (afterRoute r)) := by
  cases h with
  | without hl hr =>
    apply Told.without hl
    intro reply hreply
    cases hreply
    cases r with
    | ok reply => exact hr reply rfl
    | error err =>
      dsimp only [FluxRest.afterRoute]
      split_ifs
      · exact ⟨(by decide : 503 ≠ 201), (by decide : 503 ≠ 202)⟩
      · exact ⟨(by decide : 500 ≠ 201), (by decide : 500 ≠ 202)⟩
  | created jobspec jobid => exact .created jobspec jobid
  | cancelled jobid reason => exact .cancelled jobid reason

/-- The routes of `GET` do nothing to Flux, and their replies say nothing was done. -/
theorem told_of_query {route : Proc (World F) Reply} (hk : Proc.Keeps World.effects route)
    (hr : Proc.Returns (fun reply => reply.status ≠ 201 ∧ reply.status ≠ 202) route) :
    Proc.Emits World.effects (fun l r => l = [] ∧ Told l r) route :=
  .of_keeps hk hr fun _ h => ⟨rfl, .without (Or.inl rfl) h⟩

/-- The response of `x`, run from `w`, tells what `x` does to Flux. -/
structure EffectsTold (req : Request) (x : Proc (World F) Unit) (w : World F) : Prop where
  once : (effects x w).length ≤ 1
  created : status x w = some 201 ↔ ∃ jobspec jobid, .submit jobspec (.ok jobid) ∈ effects x w
  createdNamed : ∀ jobspec jobid, .submit jobspec (.ok jobid) ∈ effects x w → ∃ head,
    written x w = .head head :: (if req.writeError.isSome then [] else
      [.data (bodyBytes (.obj [("id".toList, .str (F.f58plain jobid))]))]) ∧
    lookup "Location".toList head.fields = some (PREFIX ++ "/jobs/".toList ++ F.f58plain jobid)
  cancelled : status x w = some 202 ↔ ∃ jobid reason, .cancel jobid reason (.ok ()) ∈ effects x w
  cancelledNamed : ∀ jobid reason, .cancel jobid reason (.ok ()) ∈ effects x w → ∃ head,
    written x w = .head head :: (if req.writeError.isSome then [] else
      [.data (bodyBytes (.obj [("id".toList, .str (F.f58plain jobid)),
        ("status".toList, .str "cancel requested".toList)]))])

theorem effectsTold_of_without {req : Request} {x : Proc (World F) Unit} {w : World F}
    (hl : effects x w = [] ∨ ∃ c, effects x w = [c] ∧ c.done = false)
    (hs : ∀ code, status x w = some code → code ≠ 201 ∧ code ≠ 202) : EffectsTold req x w := by
  have hdone : ∀ c ∈ effects x w, c.done = false := by
    intro c hc
    obtain hl | ⟨c', hl, hd⟩ := hl
    · rw [hl] at hc
      cases hc
    · rw [hl, List.mem_singleton] at hc
      rw [hc, hd]
  have hsubmit : ∀ jobspec jobid, .submit jobspec (.ok jobid) ∉ effects x w := fun _ _ hc => by
    cases hdone _ hc
  have hcancel : ∀ jobid reason, .cancel jobid reason (.ok ()) ∉ effects x w := fun _ _ hc => by
    cases hdone _ hc
  constructor
  · obtain hl | ⟨c, hl, -⟩ := hl
    · rw [hl]
      exact Nat.zero_le 1
    · rw [hl]
      exact Nat.le_refl 1
  · exact iff_of_false (fun h => (hs 201 h).1 rfl) fun ⟨jobspec, jobid, hc⟩ => hsubmit jobspec jobid hc
  · intro jobspec jobid hc
    exact absurd hc (hsubmit jobspec jobid)
  · exact iff_of_false (fun h => (hs 202 h).2 rfl) fun ⟨jobid, reason, hc⟩ => hcancel jobid reason hc
  · intro jobid reason hc
    exact absurd hc (hcancel jobid reason)

theorem untold_of_status {x : Proc (World F) Unit} {w : World F} {http09 : Bool} {s : ℕ}
    (hx : status x w = if http09 then none else some s) (h : s ≠ 201 ∧ s ≠ 202) :
    ∀ code, status x w = some code → code ≠ 201 ∧ code ≠ 202 := by
  intro code hcode
  rw [hx] at hcode
  split_ifs at hcode
  cases hcode
  exact h

theorem effectsTold_of_created {req : Request} (hv : req.http09 = false)
    {x : Proc (World F) Unit} {w : World F} {jobspec : F.Jobspec} {jobid : F.JobID}
    (hl : effects x w = [.submit jobspec (.ok jobid)])
    (hw : written x w = sent site req (jobCreated F jobid)) : EffectsTold req x w := by
  have hstatus : status x w = some 201 := by
    rw [status, hw, status_sent, hv]
    rfl
  constructor
  · rw [hl]
    exact Nat.le_refl 1
  · refine iff_of_true hstatus ⟨jobspec, jobid, ?_⟩
    rw [hl]
    exact List.mem_singleton_self _
  · intro jobspec' jobid' hc
    rw [hl, List.mem_singleton] at hc
    cases hc
    refine ⟨sendHead site 201 (bodyBytes (jobCreated F jobid).body).length
      (jobCreated F jobid).headers, ?_, ?_⟩
    · rw [hw, sent, hv]
      rfl
    · rfl
  · refine iff_of_false (by rw [hstatus]; decide) ?_
    intro h
    obtain ⟨jobid', reason, hc⟩ := h
    rw [hl, List.mem_singleton] at hc
    cases hc
  · intro jobid' reason hc
    rw [hl, List.mem_singleton] at hc
    cases hc

theorem effectsTold_of_cancelled {req : Request} (hv : req.http09 = false)
    {x : Proc (World F) Unit} {w : World F} {jobid : F.JobID} {reason : Option Str}
    (hl : effects x w = [.cancel jobid reason (.ok ())])
    (hw : written x w = sent site req (cancelRequested F jobid)) : EffectsTold req x w := by
  have hstatus : status x w = some 202 := by
    rw [status, hw, status_sent, hv]
    rfl
  constructor
  · rw [hl]
    exact Nat.le_refl 1
  · refine iff_of_false (by rw [hstatus]; decide) ?_
    intro h
    obtain ⟨jobspec', jobid', hc⟩ := h
    rw [hl, List.mem_singleton] at hc
    cases hc
  · intro jobspec' jobid' hc
    rw [hl, List.mem_singleton] at hc
    cases hc
  · refine iff_of_true hstatus ⟨jobid, reason, ?_⟩
    rw [hl]
    exact List.mem_singleton_self _
  · intro jobid' reason' hc
    rw [hl, List.mem_singleton] at hc
    cases hc
    refine ⟨sendHead site 202 (bodyBytes (cancelRequested F jobid).body).length none, ?_⟩
    rw [hw, sent, hv]
    rfl

/-- A response of a body alone names what `x`, run from `w`, does to Flux. -/
structure NamedInBody (x : Proc (World F) Unit) (w : World F) : Prop where
  bare : status x w = none
  once : (effects x w).length ≤ 1
  created : ∀ jobspec jobid, .submit jobspec (.ok jobid) ∈ effects x w →
    written x w = [.data (bodyBytes (.obj [("id".toList, .str (F.f58plain jobid))]))]
  cancelled : ∀ jobid reason, .cancel jobid reason (.ok ()) ∈ effects x w →
    written x w = [.data (bodyBytes (.obj [("id".toList, .str (F.f58plain jobid)),
      ("status".toList, .str "cancel requested".toList)]))]

/-- What the client can learn of the effects of `x`: a response to `HTTP/0.9` is its body. -/
def ToldOf (req : Request) (x : Proc (World F) Unit) (w : World F) : Prop :=
  if req.http09 then NamedInBody x w else EffectsTold req x w

theorem ToldOf.effectsTold {req : Request} {x : Proc (World F) Unit} {w : World F}
    (h : ToldOf req x w) (hv : req.http09 = false) : EffectsTold req x w := by
  rw [ToldOf, hv] at h
  exact h

theorem ToldOf.namedInBody {req : Request} {x : Proc (World F) Unit} {w : World F}
    (h : ToldOf req x w) (hv : req.http09 = true) : NamedInBody x w := by
  rw [ToldOf, hv] at h
  exact h

theorem EffectsTold.namedInBody {req : Request} {x : Proc (World F) Unit} {w : World F}
    (h : EffectsTold req x w) (hbare : status x w = none) : NamedInBody x w := by
  have hne : ∀ code, status x w ≠ some code := by
    intro code
    rw [hbare]
    exact (Option.some_ne_none code).symm
  constructor
  · exact hbare
  · exact h.once
  · intro jobspec jobid hc
    exact absurd (h.created.mpr ⟨jobspec, jobid, hc⟩) (hne 201)
  · intro jobid reason hc
    exact absurd (h.cancelled.mpr ⟨jobid, reason, hc⟩) (hne 202)

theorem toldOf_of_without {req : Request} {x : Proc (World F) Unit} {w : World F} {s : ℕ}
    (hl : effects x w = [] ∨ ∃ c, effects x w = [c] ∧ c.done = false)
    (hx : status x w = if req.http09 then none else some s) (h : s ≠ 201 ∧ s ≠ 202) :
    ToldOf req x w := by
  have htold : EffectsTold req x w := effectsTold_of_without hl (untold_of_status hx h)
  unfold ToldOf
  split_ifs with hv
  · rw [if_pos hv] at hx
    exact htold.namedInBody hx
  · exact htold

theorem namedInBody_of_single {x : Proc (World F) Unit} {w : World F} {c : FluxCall F}
    (hl : effects x w = [c]) (hbare : status x w = none)
    (hcreated : ∀ jobspec jobid, c = .submit jobspec (.ok jobid) →
      written x w = [.data (bodyBytes (.obj [("id".toList, .str (F.f58plain jobid))]))])
    (hcancelled : ∀ jobid reason, c = .cancel jobid reason (.ok ()) →
      written x w = [.data (bodyBytes (.obj [("id".toList, .str (F.f58plain jobid)),
        ("status".toList, .str "cancel requested".toList)]))]) : NamedInBody x w := by
  have hsingle : ∀ c', c' ∈ effects x w → c = c' := by
    intro c' hc
    rw [hl] at hc
    exact (List.mem_singleton.mp hc).symm
  constructor
  · exact hbare
  · rw [hl]
    exact Nat.le_refl 1
  · intro jobspec jobid hc
    exact hcreated jobspec jobid (hsingle _ hc)
  · intro jobid reason hc
    exact hcancelled jobid reason (hsingle _ hc)

theorem namedInBody_of_created {req : Request} (hv : req.http09 = true)
    {x : Proc (World F) Unit} {w : World F} {jobspec : F.Jobspec} {jobid : F.JobID}
    (hl : effects x w = [.submit jobspec (.ok jobid)])
    (hw : written x w = sent site req (jobCreated F jobid)) : NamedInBody x w := by
  refine namedInBody_of_single hl ?_ ?_ ?_
  · rw [status, hw, status_sent, if_pos hv]
  · intro jobspec' jobid' hc
    cases hc
    rw [hw, sent, hv]
    rfl
  · intro jobid' reason hc
    cases hc

theorem namedInBody_of_cancelled {req : Request} (hv : req.http09 = true)
    {x : Proc (World F) Unit} {w : World F} {jobid : F.JobID} {reason : Option Str}
    (hl : effects x w = [.cancel jobid reason (.ok ())])
    (hw : written x w = sent site req (cancelRequested F jobid)) : NamedInBody x w := by
  refine namedInBody_of_single hl ?_ ?_ ?_
  · rw [status, hw, status_sent, if_pos hv]
  · intro jobspec jobid' hc
    cases hc
  · intro jobid' reason' hc
    cases hc
    rw [hw, sent, hv]
    rfl

theorem effects_of_effects {x : Proc (World F) Unit} {w : World F} {l : List (FluxCall F)}
    (h : (x.run w).2.effects = w.effects ++ l) : effects x w = l := by
  rw [effects, h, List.drop_left]

/-- Nothing was done, and the response does not say otherwise. -/
structure Uneventful (req : Request) (x : Proc (World F) Unit) (w : World F) : Prop where
  nothing : effects x w = []
  untold : ∃ s, (s ≠ 201 ∧ s ≠ 202) ∧ status x w = if req.http09 then none else some s

theorem Uneventful.effectsTold {req : Request} {x : Proc (World F) Unit} {w : World F}
    (h : Uneventful req x w) : EffectsTold req x w := by
  obtain ⟨s, hs, hx⟩ := h.untold
  exact effectsTold_of_without (Or.inl h.nothing) (untold_of_status hx hs)

theorem Uneventful.toldOf {req : Request} {x : Proc (World F) Unit} {w : World F}
    (h : Uneventful req x w) : ToldOf req x w := by
  obtain ⟨s, hs, hx⟩ := h.untold
  exact toldOf_of_without (Or.inl h.nothing) hx hs

section Methods

variable {site} {req : Request}

/-- A reply sent without running a route. -/
theorem uneventful_send (s : ℕ) {reply : Reply} (hp : Plain reply) (hs : reply.status = s)
    (h : s ≠ 201 ∧ s ≠ 202) (w : World F) : Uneventful req (send F site req reply) w := by
  subst hs
  refine ⟨effects_of_effects ?_, reply.status, h, ?_⟩
  · rw [effects_of_trace (keeps_trace_send site req reply w), List.append_nil]
  · rw [status, written_send site req hp, status_sent]

variable {path : Str} {call : RouteCall F} {route : Proc (World F) Reply}

variable (site req path call) in
theorem effects_guarded {P : List (FluxCall F) → Except Exc Reply → Prop}
    (hr : Proc.Emits World.effects P route) (w : World F) :
    P (effects (do send F site req (← guardRoute F path call route)) w)
      (route.run (w.log (.route call))).1 :=
  emits_guarded site req path call effects_of_trace effects_log_route hr w

theorem toldOf_guarded (hk : Proc.Keeps World.wire route) (hp : Proc.Returns Plain route)
    (hr : Proc.Emits World.effects Told route) (w : World F) :
    ToldOf req (do send F site req (← guardRoute F path call route)) w := by
  have hwritten := written_guarded site req path call hk hp w
  have htold := (effects_guarded site req path call hr w).afterRoute
  generalize afterRoute (route.run (w.log (.route call))).1 = reply at hwritten htold
  generalize hl : effects (do send F site req (← guardRoute F path call route)) w = l at htold
  cases htold with
  | without hl' h =>
    subst hl
    have hstatus := status_sent site req reply
    rw [← hwritten] at hstatus
    exact toldOf_of_without hl' hstatus (h reply rfl)
  | created jobspec jobid =>
    unfold ToldOf
    split_ifs with hv
    · exact namedInBody_of_created site hv hl hwritten
    · exact effectsTold_of_created site (Bool.eq_false_iff.mpr hv) hl hwritten
  | cancelled jobid reason =>
    unfold ToldOf
    split_ifs with hv
    · exact namedInBody_of_cancelled site hv hl hwritten
    · exact effectsTold_of_cancelled site (Bool.eq_false_iff.mpr hv) hl hwritten

/-- A route that only asks Flux. -/
theorem uneventful_query (hk : Proc.Keeps World.wire route) (hp : Proc.Returns Plain route)
    (he : Proc.Keeps World.effects route)
    (hr : Proc.Returns (fun reply => reply.status ≠ 201 ∧ reply.status ≠ 202) route) (w : World F) :
    Uneventful req (do send F site req (← guardRoute F path call route)) w := by
  have htold := effects_guarded site req path call (told_of_query he hr) w
  refine ⟨htold.1, (afterRoute (route.run (w.log (.route call))).1).status, ?_, ?_⟩
  · have h := htold.2.afterRoute
    rw [htold.1] at h
    cases h with
    | without _ h => exact h _ rfl
  · rw [status, written_guarded site req path call hk hp, status_sent]

end Methods

theorem uneventful_doGET (req : Request) (w : World F) :
    Uneventful req (doGET F site (tables F site) req) w := by
  have hwire := (ignoresCalls_wire (F := F)).toIgnoresQueries
  have heffects := ignoresQueries_effects (F := F)
  unfold doGET
  dsimp only
  cases hl : lookup (before '?' req.path) (tables F site).routes with
  | some route =>
    dsimp only
    obtain rfl | rfl := tables_routes hl
    · rw [unpackPair_root]
      apply uneventful_query (keeps_root site hwire) (plain_root site) (keeps_root site heffects)
      intro w' reply hr
      rw [(returns_root site w' reply hr).1]
      decide
    · rw [unpackPair_health]
      apply uneventful_query keeps_health plain_health keeps_health
      intro w' reply hr
      rw [(returns_health w' reply hr).1]
      decide
  | none =>
    rcases parseJobPath F (before '?' req.path) with message | _ | jobid
    · exact uneventful_send 400 (plain_of_none rfl) rfl (by decide) w
    · exact uneventful_send 404 (plain_of_none rfl) rfl (by decide) w
    · dsimp only [tables]
      rw [unpackPair_jobsState]
      apply uneventful_query (keeps_jobsState hwire jobid) (plain_jobsState jobid)
        (keeps_jobsState heffects jobid)
      intro w' reply hr
      have hstatus := (returns_jobsState jobid w' reply hr).1
      omega

/-- A method that raises has sent nothing. -/
theorem toldOf_throw (req : Request) (err : Exc) (w : World F) :
    ToldOf req (throw err : Proc (World F) Unit) w := by
  have hbare : status (throw err : Proc (World F) Unit) w = none := status_eq_none rfl
  have htold : EffectsTold req (throw err : Proc (World F) Unit) w := by
    apply effectsTold_of_without (Or.inl (effects_of_effects (List.append_nil _).symm))
    intro code hcode
    rw [hbare] at hcode
    cases hcode
  unfold ToldOf
  split_ifs
  · exact htold.namedInBody hbare
  · exact htold

theorem toldOf_doPOST (req : Request) (w : World F) :
    ToldOf req (doPOST F site (tables F site) req) w := by
  unfold doPOST
  dsimp only
  cases hl : lookup (before '?' req.path) (tables F site).postRoutes with
  | none =>
    exact (uneventful_send 404 (plain_of_none rfl) rfl (by decide) w).toldOf
  | some route =>
    obtain ⟨-, rfl⟩ := tables_postRoutes hl
    dsimp only
    rcases hr : readBody site req with err | reply | fields
    · exact toldOf_throw req err w
    · obtain ⟨message, rfl⟩ := readBody_refused_plain site hr
      exact (uneventful_send 400 (plain_of_none rfl) rfl (by decide) w).toldOf
    · exact toldOf_guarded (keeps_jobsSubmit site ignoresCalls_wire fields)
        (plain_jobsSubmit site fields) (told_jobsSubmit site fields) w

theorem toldOf_doDELETE (req : Request) (w : World F) :
    ToldOf req (doDELETE F site (tables F site) req) w := by
  unfold doDELETE
  rcases urlsplit site.hostError req.path with message | parsed
  · exact toldOf_throw req _ w
  · dsimp only
    rcases parseJobPath F parsed.path with message | _ | jobid
    · exact (uneventful_send 400 (plain_of_none rfl) rfl (by decide) w).toldOf
    · exact (uneventful_send 404 (plain_of_none rfl) rfl (by decide) w).toldOf
    · exact toldOf_guarded (keeps_jobsCancel ignoresCalls_wire jobid _)
        (plain_jobsCancel jobid _) (told_jobsCancel jobid _) w

/-- `send_error` writes the status it is given, or no head at all. -/
theorem status_sendError (req : Request) (command : Option Str) (code : ℕ) (message : Str)
    (w : World F) : status (sendError F site req command code message) w =
      if req.http09 then none else some code := by
  rw [status, written, sendError]
  cases hv : req.http09 with
  | true =>
    simp only [endHeaders, hv, if_true]
    rw [Proc.run_bind_ok (Proc.run_pure () w)]
    split_ifs
    · rw [wire_write, List.drop_left]
      rfl
    · rw [Proc.run_pure, List.drop_length]
      rfl
  | false =>
    simp only [endHeaders, hv, Bool.false_eq_true, if_false, Option.getD_none, List.all_nil, if_true]
    rw [Proc.run_bind]
    cases hw : req.writeError with
    | none => split_ifs <;> simp [write, hw, Proc.run_bind, Wire.status?]
    | some err => simp [write, hw, Proc.run_bind, Wire.status?]

theorem uneventful_sendError (req : Request) (command : Option Str) {code : ℕ}
    (h : code ∈ [400, 501]) (message : Str) (w : World F) :
    Uneventful req (sendError F site req command code message) w := by
  refine ⟨effects_of_effects ?_, code, ?_, status_sendError site req command code message w⟩
  · rw [effects_of_trace (keeps_trace_sendError site req command code message w), List.append_nil]
  · simp only [List.mem_cons, List.not_mem_nil, or_false] at h
    obtain rfl | rfl := h <;> decide

theorem toldOf_handle (req : Request) (w : World F) :
    ToldOf req (handleOneRequest F site (tables F site) req) w := by
  refine handleOneRequest_rule (P := fun x => ToldOf req x w) ?_ ?_ ?_ ?_
  · exact fun _ => (uneventful_doGET site req w).toldOf
  · exact fun _ _ => toldOf_doPOST site req w
  · exact fun _ _ => toldOf_doDELETE site req w
  · exact fun command code hcode message =>
      (uneventful_sendError site req command hcode message w).toldOf

theorem effectsTold_of_status {req : Request} {w : World F} {code : ℕ}
    (h : status (handleOneRequest F site (tables F site) req) w = some code) :
    EffectsTold req (handleOneRequest F site (tables F site) req) w := by
  have htold := toldOf_handle site req w
  apply htold.effectsTold
  rw [Bool.eq_false_iff]
  intro hv
  rw [(htold.namedInBody hv).bare] at h
  cases h

/-- Whatever a request asks for, its response tells of the one effect it had, and of no other; to a
`POST` or `DELETE` that names `HTTP/0.9` it does so in the body alone. -/
theorem handleOneRequest_effectsTold (req : Request) (w : World F) :
    (req.command = "GET".toList →
      effects (handleOneRequest F site (tables F site) req) w = []) ∧
    if req.version = some "HTTP/0.9".toList ∧ req.command ∈ ["POST".toList, "DELETE".toList] then
      NamedInBody (handleOneRequest F site (tables F site) req) w
    else EffectsTold req (handleOneRequest F site (tables F site) req) w := by
  have hget_told := uneventful_doGET site req w
  constructor
  · intro hget
    rw [handleOneRequest_get hget]
    exact hget_told.nothing
  split_ifs with hbare
  · exact (toldOf_handle site req w).namedInBody (by simp [Request.http09, hbare.1])
  · -- what a `POST` or `DELETE` that comes here names is not `HTTP/0.9`
    have hheaded : req.command ∈ ["POST".toList, "DELETE".toList] → req.version ≠ none →
        req.http09 = false := by
      intro hmethod hversion
      obtain ⟨v, hv⟩ := Option.ne_none_iff_exists'.mp hversion
      rw [Request.http09, hv, Option.getD_some, decide_eq_false_iff_not]
      exact fun h => hbare ⟨by rw [hv, h], hmethod⟩
    refine handleOneRequest_rule (P := fun x => EffectsTold req x w) ?_ ?_ ?_ ?_
    · exact fun _ => hget_told.effectsTold
    · intro hpost hversion
      exact (toldOf_doPOST site req w).effectsTold (hheaded (by simp [hpost]) hversion)
    · intro hdelete hversion
      exact (toldOf_doDELETE site req w).effectsTold (hheaded (by simp [hdelete]) hversion)
    · exact fun command code hcode message =>
        (uneventful_sendError site req command hcode message w).effectsTold

/-- A job that Flux takes, submitted in a request that names `version`. -/
def submissionNaming (version : Str) : Request where
  command := "POST".toList
  path := "/api/v1/jobs".toList
  version := some version
  headers := [("Content-Length".toList, "21".toList)]
  body := encode "\x7b\"command\": [\"true\"]\x7d".toList

theorem effectsTold_submission :
    EffectsTold (submissionNaming "HTTP/1.0".toList) (handleOneRequest (.fixed {}) .fixed
      (tables (.fixed {}) .fixed) (submissionNaming "HTTP/1.0".toList)) { flux := () } := by
  have h := (handleOneRequest_effectsTold (F := .fixed {}) .fixed
    (submissionNaming "HTTP/1.0".toList) { flux := () }).2
  rwa [if_neg (by decide)] at h

/-- `POST /api/v1/jobs HTTP/0.9` submits the job, and no status tells of it. -/
theorem http09_submission_untold :
    ¬ EffectsTold (submissionNaming "HTTP/0.9".toList) (handleOneRequest (.fixed {}) .fixed
      (tables (.fixed {}) .fixed) (submissionNaming "HTTP/0.9".toList)) { flux := () } := by
  intro h
  have hsubmit : effects (handleOneRequest (.fixed {}) .fixed (tables (.fixed {}) .fixed)
      (submissionNaming "HTTP/0.9".toList)) { flux := () } = [.submit () (.ok (1 : UInt64))] := rfl
  have hstatus : status (handleOneRequest (.fixed {}) .fixed (tables (.fixed {}) .fixed)
      (submissionNaming "HTTP/0.9".toList)) { flux := () } = none := rfl
  have hcreated := h.created.mpr ⟨(), (1 : UInt64), by rw [hsubmit]; exact List.mem_singleton_self _⟩
  rw [hstatus] at hcreated
  cases hcreated

end FluxRest
