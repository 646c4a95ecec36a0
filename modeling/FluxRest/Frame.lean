import FluxRest.Handler
import FluxRest.Py.Rules

/-! What the route functions leave alone, and what their replies look like. -/
namespace FluxRest
open Py Py.Http

variable {F : Flux} {γ : Type}

/-- The two calls that change something in Flux. -/
def FluxCall.isEffect : FluxCall F → Bool
  | .submit .. | .cancel .. => true
  | _ => false

/-- The part `f` of the state does not see the cached handle, nor calls that only ask. -/
structure IgnoresQueries (f : World F → γ) : Prop where
  handle : ∀ (w : World F) h, f { w with handle := h } = f w
  query : ∀ (w : World F) s c, c.isEffect = false →
    f { w with flux := s, trace := w.trace ++ [.call c] } = f w

/-- The part `f` of the state sees no Flux call at all. -/
structure IgnoresCalls (f : World F → γ) : Prop extends IgnoresQueries f where
  call : ∀ (w : World F) s c, f { w with flux := s, trace := w.trace ++ [.call c] } = f w

theorem ignoresCalls_wire : IgnoresCalls (World.wire (F := F)) :=
  ⟨⟨fun _ _ => rfl, fun _ _ _ _ => rfl⟩, fun _ _ _ => rfl⟩

theorem keeps_query {f : World F → γ} (hf : IgnoresQueries f) {α : Type}
    {note : Except Exc α → FluxCall F} (hn : ∀ r, (note r).isEffect = false)
    (call : Proc F.State α) : Proc.Keeps f (invoke note call) := fun w => by
  rw [run_invoke]
  exact hf.query w _ _ (hn _)

theorem keeps_invoke {f : World F → γ} (hf : IgnoresCalls f) {α : Type}
    (note : Except Exc α → FluxCall F) (call : Proc F.State α) :
    Proc.Keeps f (invoke note call) := fun w => by
  rw [run_invoke]
  exact hf.call w _ _

section Keeps

variable (site : Site) {f : World F → γ}

theorem keeps_flux (hf : IgnoresQueries f) : Proc.Keeps f (flux F) := by
  refine .bind .get fun w => ?_
  cases w.handle with
  | some h => exact .pure h
  | none =>
    refine .bind (keeps_query hf (fun _ => rfl) _) fun h => ?_
    exact .bind (.modify fun w => hf.handle w _) fun _ => .pure h

theorem keeps_attrInt (hf : IgnoresQueries f) (h : F.Handle) (name : Str) :
    Proc.Keeps f (attrInt F site h name) := by
  refine .bind (keeps_query hf (fun _ => rfl) _) fun s => ?_
  cases intText site.intLimit s with
  | some n => exact .pure n
  | none => exact .throw _

theorem keeps_root (hf : IgnoresQueries f) : Proc.Keeps f (root F site) := by
  refine .bind (keeps_flux hf) fun h => .bind (keeps_query hf (fun _ => rfl) _) fun version => ?_
  refine .bind (keeps_attrInt site hf h _) fun rank => ?_
  exact .bind (keeps_attrInt site hf h _) fun size => .pure _

theorem keeps_health : Proc.Keeps f (health F) := .pure _

theorem keeps_jobsState (hf : IgnoresQueries f) (jobid : F.JobID) :
    Proc.Keeps f (jobsState F jobid) := by
  refine .bind (keeps_flux hf) fun h => .bind (.tryCatch ?_ fun err => ?_) fun r => ?_
  · exact .map (keeps_query hf (fun _ => rfl) _)
  · exact .map (.ofExcept _)
  · cases r with
    | inl reply => exact .pure _
    | inr info => exact .bind (keeps_query hf (fun _ => rfl) _) fun _ => .pure _

theorem keeps_submitJob (hf : IgnoresCalls f) (jobspec : F.Jobspec) :
    Proc.Keeps f (submitJob F jobspec) := by
  refine .tryCatch ?_ fun err => .ofExcept _
  exact .bind (keeps_flux hf.toIgnoresQueries) fun h => .bind (keeps_invoke hf _ _) fun _ => .pure _

theorem keeps_jobsSubmit (hf : IgnoresCalls f) (body : List (Str × Json)) :
    Proc.Keeps f (jobsSubmit F site body) := by
  unfold jobsSubmit
  cases commandOf body with
  | none => exact .pure _
  | some command =>
    cases site.passwd with
    | none => exact .throw _
    | some pw =>
      refine .bind (.tryCatch (.map (keeps_invoke hf _ _)) fun err => .map (.ofExcept _)) fun r => ?_
      cases r with
      | inl reply => exact .pure _
      | inr jobspec => exact keeps_submitJob hf jobspec

theorem keeps_jobsCancel (hf : IgnoresCalls f) (jobid : F.JobID) (reason : Option Str) :
    Proc.Keeps f (jobsCancel F jobid reason) := by
  refine .bind (keeps_flux hf.toIgnoresQueries) fun h => .tryCatch ?_ fun err => .ofExcept _
  exact .bind (keeps_invoke hf _ _) fun _ => .pure _

end Keeps

/-- The extra headers of a reply can be sent, and do not announce a length of their own. -/
def Plain (reply : Reply) : Prop :=
  ∀ f ∈ reply.headers.getD [], isLatin1 f.1 ∧ isLatin1 f.2 ∧ f.1 ≠ "Content-Length".toList

theorem plain_of_none {reply : Reply} (h : reply.headers = none) : Plain reply := by
  intro f hf
  simp [h] at hf

theorem plain_jobCreated (jobid : F.JobID) : Plain (jobCreated F jobid) := by
  intro f hf
  simp only [jobCreated, Option.getD_some, List.mem_singleton] at hf
  subst hf
  have hname : isLatin1 "Location".toList ∧ "Location".toList ≠ "Content-Length".toList := by decide
  have hfluid : ∀ c ∈ F.f58plain jobid, c.toNat < 256 := fun c hc =>
    (F.f58plain_ascii jobid c hc).trans (by decide)
  refine ⟨hname.1, ?_, hname.2⟩
  simp only [isLatin1, List.all_append, Bool.and_eq_true]
  exact ⟨⟨by decide, by decide⟩, by simpa using hfluid⟩

theorem fromCommandFailed_status {err : Exc} {reply : Reply}
    (h : fromCommandFailed err = .ok reply) : reply.status = 400 ∧ reply.headers = none := by
  unfold fromCommandFailed at h
  split_ifs at h
  cases h
  exact ⟨rfl, rfl⟩

theorem submitFailed_status {err : Exc} {reply : Reply} (h : submitFailed err = .ok reply) :
    reply.status = 400 ∧ reply.headers = none := by
  unfold submitFailed at h
  split_ifs at h
  · cases h
    exact ⟨rfl, rfl⟩
  · cases h
    exact ⟨rfl, rfl⟩

theorem cancelFailed_status {jobid : F.JobID} {err : Exc} {reply : Reply}
    (h : cancelFailed F jobid err = .ok reply) :
    reply.status ∈ [409, 404, 403] ∧ reply.headers = none := by
  unfold cancelFailed at h
  split_ifs at h <;> cases h
  · exact ⟨(by decide : 409 ∈ [409, 404, 403]), rfl⟩
  · exact ⟨(by decide : 404 ∈ [409, 404, 403]), rfl⟩
  · exact ⟨(by decide : 403 ∈ [409, 404, 403]), rfl⟩

theorem stateFailed_status {jobid : F.JobID} {err : Exc} {reply : Reply}
    (h : stateFailed F jobid err = .ok reply) : reply.status = 404 ∧ reply.headers = none := by
  unfold stateFailed at h
  split_ifs at h
  cases h
  exact ⟨rfl, rfl⟩

section Returns

variable (site : Site)

theorem returns_root :
    Proc.Returns (fun reply => reply.status = 200 ∧ reply.headers = none) (root F site) :=
  .bind fun _ => .bind fun _ => .bind fun _ => .bind fun _ => .pure ⟨rfl, rfl⟩

theorem returns_health :
    Proc.Returns (fun reply => reply.status = 200 ∧ reply.headers = none) (health F) :=
  .pure ⟨rfl, rfl⟩

theorem returns_jobsState (jobid : F.JobID) : Proc.Returns
    (fun reply => (reply.status = 200 ∨ reply.status = 404) ∧ reply.headers = none)
    (jobsState F jobid) := by
  refine .bind fun h => .seq (P := fun r => ∀ reply, r = .inl reply →
    reply.status = 404 ∧ reply.headers = none) ?_ fun found hfound => ?_
  · refine .tryCatch (.map (.trivial _) fun _ _ _ h => by cases h) fun err => ?_
    exact .map (.ofExcept fun reply h => stateFailed_status h)
      fun reply hreply _ h => by cases h; exact hreply
  · cases found with
    | inl reply => exact .pure ⟨Or.inr (hfound reply rfl).1, (hfound reply rfl).2⟩
    | inr info => exact .bind fun body => .pure ⟨Or.inl rfl, rfl⟩

theorem plain_submitJob (jobspec : F.Jobspec) : Proc.Returns Plain (submitJob F jobspec) := by
  refine .tryCatch (.bind fun h => .bind fun jobid => .pure (plain_jobCreated jobid)) fun err => ?_
  exact .ofExcept fun reply h => plain_of_none (submitFailed_status h).2

theorem plain_jobsSubmit (body : List (Str × Json)) :
    Proc.Returns Plain (jobsSubmit F site body) := by
  unfold jobsSubmit
  cases commandOf body with
  | none => exact .pure (plain_of_none rfl)
  | some command =>
    cases site.passwd with
    | none => exact .throw _
    | some pw =>
      refine .seq (P := fun r => ∀ reply, r = .inl reply → Plain reply) ?_ fun r hr => ?_
      · refine .tryCatch (.map (.trivial _) fun _ _ _ h => by cases h) fun err => ?_
        exact .map (.ofExcept fun reply h => plain_of_none (fromCommandFailed_status h).2)
          fun reply hreply _ h => by cases h; exact hreply
      · cases r with
        | inl reply => exact .pure (hr reply rfl)
        | inr jobspec => exact plain_submitJob jobspec

theorem plain_jobsCancel (jobid : F.JobID) (reason : Option Str) :
    Proc.Returns Plain (jobsCancel F jobid reason) := by
  refine .bind fun h => .tryCatch (.bind fun _ => .pure (plain_of_none rfl)) fun err => ?_
  exact .ofExcept fun reply h => plain_of_none (cancelFailed_status h).2

/-- A route that returns pairs is unaffected by their unpacking. -/
theorem unpackPair_of_returns {route : Proc (World F) Reply}
    (h : Proc.Returns (fun reply => reply.headers = none) route) : unpackPair F route = route := by
  funext w
  change (unpackPair F route).run w = route.run w
  rw [unpackPair, Proc.run_bind]
  rcases hr : route.run w with ⟨err | reply, w'⟩
  · rfl
  · have hnone := h w reply (by rw [hr])
    dsimp only
    rw [hnone]
    rfl

theorem unpackPair_root : unpackPair F (root F site) = root F site :=
  unpackPair_of_returns fun w reply h => (returns_root site w reply h).2

theorem unpackPair_health : unpackPair F (health F) = health F :=
  unpackPair_of_returns fun w reply h => (returns_health w reply h).2

theorem unpackPair_jobsState (jobid : F.JobID) :
    unpackPair F (jobsState F jobid) = jobsState F jobid :=
  unpackPair_of_returns fun w reply h => (returns_jobsState jobid w reply h).2

theorem plain_root : Proc.Returns Plain (root F site) := fun w reply h =>
  plain_of_none (returns_root site w reply h).2

theorem plain_health : Proc.Returns Plain (health F) := fun w reply h =>
  plain_of_none (returns_health w reply h).2

theorem plain_jobsState (jobid : F.JobID) : Proc.Returns Plain (jobsState F jobid) :=
  fun w reply h => plain_of_none (returns_jobsState jobid w reply h).2

end Returns

/-! The entries of the tables. -/

theorem tables_routes {site : Site} {path : Str} {route : Proc (World F) Reply}
    (h : lookup path (tables F site).routes = some route) :
    route = root F site ∨ route = health F := by
  have hm := mem_of_lookup h
  simp only [tables, List.mem_cons, Prod.mk.injEq, List.not_mem_nil, or_false] at hm
  exact hm.imp And.right And.right

theorem tables_postRoutes {site : Site} {path : Str}
    {route : List (Str × Json) → Proc (World F) Reply}
    (h : lookup path (tables F site).postRoutes = some route) :
    path = PREFIX ++ "/jobs".toList ∧ route = jobsSubmit F site := by
  have hm := mem_of_lookup h
  simpa only [tables, List.mem_cons, Prod.mk.injEq, List.not_mem_nil, or_false] using hm

theorem tables_postRoutes_jobs (site : Site) :
    lookup (PREFIX ++ "/jobs".toList) (tables F site).postRoutes = some (jobsSubmit F site) := by
  simp [lookup, tables]

/-! Every route runs inside a `try` that answers for whatever it raises. -/

theorem guardRoute_returns (path : Str) (call : RouteCall F) (route : Proc (World F) Reply)
    (w : World F) : ∃ reply, ((guardRoute F path call route).run w).1 = .ok reply := by
  have hbody : ((do
      modify fun w => w.log (.route call)
      route : Proc (World F) Reply)).run w = route.run (w.log (.route call)) := rfl
  rw [guardRoute, Proc.run_tryCatch, hbody]
  rcases route.run (w.log (.route call)) with ⟨r, w'⟩
  cases r with
  | ok reply => exact ⟨reply, rfl⟩
  | error err =>
    by_cases h : err.isA .osError
    · exact ⟨unavailable err, by simp [h]⟩
    · exact ⟨internalError, by simp [h]; rfl⟩

theorem keeps_guardRoute {f : World F → γ} (hlog : ∀ w e, f (World.log w (.route e)) = f w)
    (herr : ∀ (w : World F) l, f { w with stderr := l } = f w) (path : Str) (call : RouteCall F)
    {route : Proc (World F) Reply} (h : Proc.Keeps f route) :
    Proc.Keeps f (guardRoute F path call route) := by
  refine .tryCatch (.bind (.modify fun w => hlog w call) fun _ => h) fun err => ?_
  split_ifs
  · exact .pure _
  · exact .bind (.modify fun w => herr w _) fun _ => .pure _

theorem plain_guardRoute (path : Str) (call : RouteCall F) {route : Proc (World F) Reply}
    (h : Proc.Returns Plain route) : Proc.Returns Plain (guardRoute F path call route) := by
  refine .tryCatch (.bind fun _ => h) fun err => ?_
  split_ifs
  · exact .pure (plain_of_none rfl)
  · exact .bind fun _ => .pure (plain_of_none rfl)

end FluxRest
