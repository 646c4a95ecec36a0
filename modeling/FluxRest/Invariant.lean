import FluxRest.Ops

/-! Invariants of the state the server keeps between requests: the Flux state, the cached handle
and the calls made so far. -/
namespace FluxRest
open Py Py.Http

variable {F : Flux} (site : Site)

/-- `I` holds of the Flux state, the cached handle and the calls made so far. -/
def At (I : F.State → Option F.Handle → List (FluxCall F) → Prop) (w : World F) : Prop :=
  I w.flux w.handle w.called

/-- `I` survives every call the routes make, with the handle they make it on. -/
structure CallsKeep (I : F.State → Option F.Handle → List (FluxCall F) → Prop) : Prop where
  connect : ∀ {s l r s'}, I s none l → F.connect.run s = (r, s') →
    I s' (r.toOption) (l ++ [.connect r])
  attrGet : ∀ {s h l r s'} name, I s (some h) l → (F.attrGet h name).run s = (r, s') →
    I s' (some h) (l ++ [.attrGet name r])
  fromCommand : ∀ {s o l r s'} command kwargs, I s o l →
    (F.fromCommand command kwargs).run s = (r, s') → I s' o (l ++ [.fromCommand command kwargs r])
  submit : ∀ {s h l r s'} jobspec, I s (some h) l → (F.submit h jobspec).run s = (r, s') →
    I s' (some h) (l ++ [.submit jobspec r])
  cancel : ∀ {s h l r s'} jobid reason, I s (some h) l →
    (F.cancel h jobid reason).run s = (r, s') → I s' (some h) (l ++ [.cancel jobid reason r])
  jobListId : ∀ {s h l r s'} jobid, I s (some h) l → (F.jobListId h jobid).run s = (r, s') →
    I s' (some h) (l ++ [.jobListId jobid r])
  toDict : ∀ {s h l r s'} info, I s (some h) l → (F.toDict info).run s = (r, s') →
    I s' (some h) (l ++ [.toDict r])

namespace CallsKeep

variable {I : F.State → Option F.Handle → List (FluxCall F) → Prop}

/-- The calls from here on use the handle `h`. -/
def Open (I : F.State → Option F.Handle → List (FluxCall F) → Prop) (h : F.Handle) (w : World F) :
    Prop := At I w ∧ w.handle = some h

theorem preserves_invoke {o : Option F.Handle} {α : Type} {note : Except Exc α → FluxCall F}
    {call : Proc F.State α}
    (h : ∀ {s l r s'}, I s o l → call.run s = (r, s') → I s' o (l ++ [note r])) :
    Proc.Preserves (fun w => At I w ∧ w.handle = o) (invoke note call) := by
  intro w hw
  obtain ⟨hi, rfl⟩ := hw
  refine ⟨?_, rfl⟩
  unfold At
  rw [called_invoke]
  exact h hi rfl

theorem spec_flux (hI : CallsKeep I) :
    Proc.Spec (At I) (flux F) fun r w => At I w ∧ ∀ h, r = .ok h → w.handle = some h := by
  intro w hw
  cases ho : w.handle with
  | some h =>
    rw [run_flux_of_some ho]
    refine ⟨hw, fun h' he => ?_⟩
    cases he
    exact ho
  | none =>
    have hi : I w.flux none w.called := ho ▸ hw
    have hcalled := called_invoke .connect F.connect w
    rcases hr : F.connect.run w.flux with ⟨r, s'⟩
    have hafter := hI.connect hi hr
    have hrun := run_invoke .connect F.connect w
    rw [hr] at hrun hcalled
    rw [hrun] at hcalled
    dsimp only at hrun hcalled
    rw [← hcalled] at hafter
    rw [run_flux_of_none ho]
    rcases r with err | h
    · rw [Proc.run_bind_error hrun]
      refine ⟨?_, fun h he => by cases he⟩
      unfold At
      rw [show ({ w with flux := s', trace := _ } : World F).handle = none from ho]
      exact hafter
    · rw [Proc.run_bind_ok hrun]
      refine ⟨hafter, fun h' he => ?_⟩
      cases he
      rfl

theorem preserves_flux (hI : CallsKeep I) {α : Type} {k : F.Handle → Proc (World F) α}
    (hk : ∀ h, Proc.Preserves (Open I h) (k h)) : Proc.Preserves (At I) (flux F >>= k) := by
  refine Proc.Spec.seq hI.spec_flux ?_ ?_
  · intro err w hw
    exact hw.1
  · intro h
    exact (hk h).imp (fun w hw => ⟨hw.1, hw.2 h rfl⟩) fun r w hw => hw.1

theorem preserves_attrInt (hI : CallsKeep I) (h : F.Handle) (name : Str) :
    Proc.Preserves (Open I h) (attrInt F site h name) := by
  refine .bind (preserves_invoke (hI.attrGet name)) fun s => ?_
  cases intText site.intLimit s with
  | some n => exact .pure n
  | none => exact .throw _

theorem preserves_root (hI : CallsKeep I) : Proc.Preserves (At I) (root F site) := by
  apply hI.preserves_flux
  intro h
  refine .bind (preserves_invoke (hI.attrGet _)) fun version => ?_
  refine .bind (hI.preserves_attrInt site h _) fun rank => ?_
  exact .bind (hI.preserves_attrInt site h _) fun size => .pure _

theorem preserves_submitJob (hI : CallsKeep I) (jobspec : F.Jobspec) :
    Proc.Preserves (At I) (submitJob F jobspec) := by
  refine .tryCatch ?_ fun err => .ofExcept _
  apply hI.preserves_flux
  intro h
  exact .bind (preserves_invoke (hI.submit jobspec)) fun jobid => .pure _

theorem preserves_jobsSubmit (hI : CallsKeep I) (fields : List (Str × Json)) :
    Proc.Preserves (At I) (jobsSubmit F site fields) := by
  unfold jobsSubmit
  cases commandOf fields with
  | none => exact .pure _
  | some command =>
    cases site.passwd with
    | none => exact .throw _
    | some pw =>
      refine .bind (.tryCatch (.map ?_) fun err => .map (.ofExcept _)) fun made => ?_
      · intro w hw
        exact (preserves_invoke (hI.fromCommand _ _) w ⟨hw, rfl⟩).1
      · cases made with
        | inl reply => exact .pure reply
        | inr jobspec => exact hI.preserves_submitJob jobspec

theorem preserves_jobsCancel (hI : CallsKeep I) (jobid : F.JobID) (reason : Option Str) :
    Proc.Preserves (At I) (jobsCancel F jobid reason) := by
  apply hI.preserves_flux
  intro h
  refine .tryCatch ?_ fun err => .ofExcept _
  exact .bind (preserves_invoke (hI.cancel jobid reason)) fun _ => .pure _

theorem preserves_jobsState (hI : CallsKeep I) (jobid : F.JobID) :
    Proc.Preserves (At I) (jobsState F jobid) := by
  apply hI.preserves_flux
  intro h
  refine .bind (.tryCatch (.map (preserves_invoke (hI.jobListId jobid)))
    fun err => .map (.ofExcept _)) fun found => ?_
  cases found with
  | inl reply => exact .pure reply
  | inr info => exact .bind (preserves_invoke (hI.toDict info)) fun body => .pure _

theorem preserves_route (hI : CallsKeep I) (op : Op F) :
    Proc.Preserves (At I) (op.route site) := by
  cases op with
  | root => exact hI.preserves_root site
  | submit fields => exact hI.preserves_jobsSubmit site fields
  | state jobid => exact hI.preserves_jobsState jobid
  | cancel jobid reason => exact hI.preserves_jobsCancel jobid reason

/-- What concerns neither Flux nor the cached handle keeps every such invariant. -/
theorem preserves_guardRoute {path : Str} {call : RouteCall F} {route : Proc (World F) Reply}
    (h : Proc.Preserves (At I) route) : Proc.Preserves (At I) (guardRoute F path call route) := by
  refine .tryCatch (.bind (.modify fun w hw => ?_) fun _ => h) fun err => ?_
  · unfold At
    rw [called_log_route]
    exact hw
  · split_ifs
    · exact .pure _
    · exact .bind (.modify fun w hw => hw) fun _ => .pure _

theorem preserves_write (req : Request) (x : Wire) :
    Proc.Preserves (At I) (write F req x) := by
  refine .bind (.modify fun w hw => hw) fun _ => ?_
  cases req.writeError with
  | some err => exact .throw err
  | none => exact .pure ()

theorem preserves_endHeaders (req : Request) (head : Head) (headers : Option (List (Str × Str))) :
    Proc.Preserves (At I) (endHeaders F req head headers) := by
  unfold endHeaders
  split_ifs
  · exact .pure ()
  · exact preserves_write req _
  · exact .throw _

theorem preserves_send (req : Request) (reply : Reply) :
    Proc.Preserves (At I) (send F site req reply) := by
  refine .tryCatch (.bind (preserves_endHeaders req _ _) fun _ => preserves_write req _) fun err => ?_
  split_ifs
  · exact .pure ()
  · exact .throw err

theorem preserves_sendError (req : Request) (command : Option Str) (code : ℕ) (message : Str) :
    Proc.Preserves (At I) (sendError F site req command code message) := by
  refine .bind (preserves_endHeaders req _ _) fun _ => ?_
  split_ifs
  · exact preserves_write req _
  · exact .pure ()

theorem preserves_doGET (hI : CallsKeep I) (req : Request) :
    Proc.Preserves (At I) (doGET F site (tables F site) req) := by
  unfold doGET
  dsimp only
  cases hl : lookup (before '?' req.path) (tables F site).routes with
  | some route =>
    refine .bind (preserves_guardRoute ?_) fun reply => preserves_send site req reply
    obtain rfl | rfl := tables_routes hl
    · rw [unpackPair_root]
      exact hI.preserves_root site
    · rw [unpackPair_health]
      exact .pure _
  | none =>
    rcases parseJobPath F (before '?' req.path) with message | _ | jobid
    · exact preserves_send site req _
    · exact preserves_send site req _
    · refine .bind (preserves_guardRoute ?_) fun reply => preserves_send site req reply
      rw [unpackPair_jobsState]
      exact hI.preserves_jobsState jobid

theorem preserves_doPOST (hI : CallsKeep I) (req : Request) :
    Proc.Preserves (At I) (doPOST F site (tables F site) req) := by
  unfold doPOST
  dsimp only
  cases hl : lookup (before '?' req.path) (tables F site).postRoutes with
  | none => exact preserves_send site req _
  | some route =>
    obtain ⟨-, rfl⟩ := tables_postRoutes hl
    rcases readBody site req with err | reply | fields
    · exact .throw err
    · exact preserves_send site req reply
    · exact .bind (preserves_guardRoute (hI.preserves_jobsSubmit site fields))
        fun reply => preserves_send site req reply

theorem preserves_doDELETE (hI : CallsKeep I) (req : Request) :
    Proc.Preserves (At I) (doDELETE F site (tables F site) req) := by
  unfold doDELETE
  rcases urlsplit site.hostError req.path with message | parsed
  · exact .throw _
  · dsimp only
    rcases parseJobPath F parsed.path with message | _ | jobid
    · exact preserves_send site req _
    · exact preserves_send site req _
    · exact .bind (preserves_guardRoute (hI.preserves_jobsCancel jobid _))
        fun reply => preserves_send site req reply

theorem preserves_handle (hI : CallsKeep I) (req : Request) :
    Proc.Preserves (At I) (handleOneRequest F site (tables F site) req) := by
  unfold handleOneRequest
  split_ifs
  · exact preserves_sendError site req _ _ _
  · exact hI.preserves_doGET site req
  · exact hI.preserves_doPOST site req
  · exact hI.preserves_doDELETE site req
  · exact preserves_sendError site req _ _ _

end CallsKeep

end FluxRest
