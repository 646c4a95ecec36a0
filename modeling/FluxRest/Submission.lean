import FluxRest.Trace

/-! What `_jobs_submit` hands to `from_command`, in any process of the user. -/
namespace FluxRest
open Py

/-- The environment variables and the working directory of a process. -/
structure Process where
  environ : List (Str × Str)
  cwd : Str

/-- A keyword argument is given, and is not `None`. -/
def Given (k : Str) (kwargs : List (Str × Json)) : Prop :=
  ∃ v, lookup k kwargs = some v ∧ v.isNull = false

/-- Bindings that run in a process, and `from_command` looks at its environment and its working
directory only for want of the argument. -/
structure Hosted (F : Flux) where
  process : F.State → Process
  /-- The same state in another process. -/
  move : Process → F.State → F.State
  fromCommand : ∀ command kwargs p s,
    Given "environment".toList kwargs ∨ p.environ = (process s).environ →
    Given "cwd".toList kwargs ∨ p.cwd = (process s).cwd →
    ((F.fromCommand command kwargs).run (move p s)).1 = ((F.fromCommand command kwargs).run s).1

variable {F : Flux}

def FluxCall.fromCommand? :
    FluxCall F → Option (List Str × List (Str × Json) × Except Exc F.Jobspec)
  | .fromCommand command kwargs r => some (command, kwargs, r)
  | _ => none

namespace World

/-- The calls of `from_command`: the arguments, and the jobspec they gave or what they raised. -/
def jobspecs (w : World F) : List (List Str × List (Str × Json) × Except Exc F.Jobspec) :=
  w.called.filterMap FluxCall.fromCommand?

/-- The same state in another process. -/
def move (H : Hosted F) (p : Process) (w : World F) : World F := { w with flux := H.move p w.flux }

end World

/-! The keyword arguments. -/

section Kwargs

variable {α : Type} {k : Str} {v : α} {items : List (Str × α)}

theorem any_key : items.any (fun e => e.1 = k) = true ↔ ∃ v, (k, v) ∈ items := by
  rw [List.any_eq_true]
  constructor
  · intro h
    obtain ⟨⟨k', v'⟩, hmem, hk⟩ := h
    rw [decide_eq_true_eq] at hk
    exact ⟨v', hk ▸ hmem⟩
  · intro h
    obtain ⟨v', hmem⟩ := h
    exact ⟨(k, v'), hmem, decide_eq_true rfl⟩

theorem mem_setDefault {e : Str × α} :
    e ∈ setDefault k v items ↔ e ∈ items ∨ e = (k, v) ∧ ∀ v', (k, v') ∉ items := by
  unfold setDefault
  split_ifs with h
  · have hany := any_key.mp h
    constructor
    · exact Or.inl
    · intro he
      obtain he | ⟨-, hnone⟩ := he
      · exact he
      · obtain ⟨v', hmem⟩ := hany
        exact absurd hmem (hnone v')
  · have hnone : ∀ v', (k, v') ∉ items := fun v' hmem => h (any_key.mpr ⟨v', hmem⟩)
    rw [List.mem_append, List.mem_singleton]
    constructor
    · intro he
      exact he.imp_right fun he => ⟨he, hnone⟩
    · intro he
      exact he.imp_right And.left

theorem nodup_setDefault (h : (items.map Prod.fst).Nodup) :
    ((setDefault k v items).map Prod.fst).Nodup := by
  unfold setDefault
  split_ifs with hany
  · exact h
  · rw [List.map_append, List.map_singleton, List.nodup_append]
    refine ⟨h, List.pairwise_singleton _ _, ?_⟩
    intro k' hk' k'' hk'' heq
    obtain ⟨e, he, rfl⟩ := List.mem_map.mp hk'
    have hkey : e.1 = k := heq.trans (List.mem_singleton.mp hk'')
    exact hany (any_key.mpr ⟨e.2, by rw [← hkey]; exact he⟩)

theorem lookup_of_mem (h : (k, v) ∈ items) : ∃ v', lookup k items = some v' := by
  cases hfind : items.find? (fun e => e.1 = k) with
  | none =>
    have hne := List.find?_eq_none.mp hfind (k, v) h
    exact absurd (decide_eq_true rfl) hne
  | some e =>
    refine ⟨e.2, ?_⟩
    rw [lookup, hfind]
    rfl

end Kwargs

/-- A field that is passed on. -/
def Passed (body : List (Str × Json)) (k : Str) (v : Json) : Prop :=
  (k, v) ∈ body ∧ v.isNull = false

variable {site : Site} {pw : Passwd} {body : List (Str × Json)}

/-- The fields that are passed on, before the defaults. -/
def fieldsOf (body : List (Str × Json)) : List (Str × Json) :=
  body.filter fun e => e.1 ≠ "command".toList && !e.2.isNull

theorem mem_fieldsOf {k : Str} {v : Json} :
    (k, v) ∈ fieldsOf body ↔ k ≠ "command".toList ∧ Passed body k v := by
  unfold fieldsOf Passed
  rw [List.mem_filter, Bool.and_eq_true, decide_eq_true_eq, Bool.not_eq_true']
  constructor
  · intro h
    exact ⟨h.2.1, h.1, h.2.2⟩
  · intro h
    exact ⟨h.2.1, h.1, h.2.2⟩

/-- Exactly the fields that are not null, but for the command, and the two defaults where the body
has no such field. -/
theorem mem_jobKwargs {k : Str} {v : Json} : (k, v) ∈ jobKwargs pw body ↔
    k ≠ "command".toList ∧ Passed body k v ∨
    k = "cwd".toList ∧ v = .str pw.dir ∧ (∀ v', ¬ Passed body k v') ∨
    k = "environment".toList ∧ v = defaultEnvironment pw ∧ (∀ v', ¬ Passed body k v') := by
  have hcwd : "cwd".toList ≠ "command".toList := by decide
  have henv : "environment".toList ≠ "command".toList := by decide
  have hne : "environment".toList ≠ "cwd".toList := by decide
  have hkwargs : jobKwargs pw body = setDefault "environment".toList (defaultEnvironment pw)
      (setDefault "cwd".toList (.str pw.dir) (fieldsOf body)) := rfl
  have hnocwd : (∀ v', ("cwd".toList, v') ∉ fieldsOf body) ↔
      ∀ v', ¬ Passed body "cwd".toList v' := by
    simp only [mem_fieldsOf, not_and]
    exact ⟨fun h v' => h v' hcwd, fun h v' _ => h v'⟩
  have hnoenv : (∀ v', ("environment".toList, v') ∉
      setDefault "cwd".toList (.str pw.dir) (fieldsOf body)) ↔
      ∀ v', ¬ Passed body "environment".toList v' := by
    simp only [mem_setDefault, mem_fieldsOf, Prod.mk.injEq, hne, false_and, or_false, not_and]
    exact ⟨fun h v' => h v' henv, fun h v' _ => h v'⟩
  rw [hkwargs, mem_setDefault, mem_setDefault, mem_fieldsOf, hnocwd, hnoenv, Prod.mk.injEq,
    Prod.mk.injEq, or_assoc]
  apply or_congr_right
  apply or_congr
  · constructor
    · intro h
      obtain ⟨⟨rfl, rfl⟩, hnone⟩ := h
      exact ⟨rfl, rfl, hnone⟩
    · intro h
      obtain ⟨rfl, rfl, hnone⟩ := h
      exact ⟨⟨rfl, rfl⟩, hnone⟩
  · constructor
    · intro h
      obtain ⟨⟨rfl, rfl⟩, hnone⟩ := h
      exact ⟨rfl, rfl, hnone⟩
    · intro h
      obtain ⟨rfl, rfl, hnone⟩ := h
      exact ⟨⟨rfl, rfl⟩, hnone⟩

theorem nodup_jobKwargs (h : (body.map Prod.fst).Nodup) :
    ((jobKwargs pw body).map Prod.fst).Nodup := by
  have hfields : ((fieldsOf body).map Prod.fst).Nodup :=
    List.Nodup.sublist (List.filter_sublist.map Prod.fst) h
  exact nodup_setDefault (nodup_setDefault hfields)

theorem isNull_jobKwargs {k : Str} {v : Json} (h : (k, v) ∈ jobKwargs pw body) :
    v.isNull = false := by
  obtain ⟨-, -, hnull⟩ | ⟨-, rfl, -⟩ | ⟨-, rfl, -⟩ := mem_jobKwargs.mp h
  · exact hnull
  · rfl
  · rfl

theorem given_jobKwargs {k : Str} {v : Json} (h : (k, v) ∈ jobKwargs pw body) :
    Given k (jobKwargs pw body) := by
  obtain ⟨v', hv'⟩ := lookup_of_mem h
  exact ⟨v', hv', isNull_jobKwargs (mem_of_lookup hv')⟩

/-- `cwd` and `environment` are always given. -/
theorem given_defaults : Given "cwd".toList (jobKwargs pw body) ∧
    Given "environment".toList (jobKwargs pw body) := by
  constructor
  · by_cases h : ∃ v, Passed body "cwd".toList v
    · obtain ⟨v, hv⟩ := h
      exact given_jobKwargs (mem_jobKwargs.mpr (Or.inl ⟨by decide, hv⟩))
    · exact given_jobKwargs (mem_jobKwargs.mpr
        (Or.inr (Or.inl ⟨rfl, rfl, not_exists.mp h⟩)))
  · by_cases h : ∃ v, Passed body "environment".toList v
    · obtain ⟨v, hv⟩ := h
      exact given_jobKwargs (mem_jobKwargs.mpr (Or.inl ⟨by decide, hv⟩))
    · exact given_jobKwargs (mem_jobKwargs.mpr
        (Or.inr (Or.inr ⟨rfl, rfl, not_exists.mp h⟩)))

/-! The calls of a submission. -/

theorem jobspecs_invoke {α : Type} (note : Except Exc α → FluxCall F) (call : Proc F.State α)
    (w : World F) : ((invoke note call).run w).2.jobspecs =
      w.jobspecs ++ ((note (call.run w.flux).1).fromCommand?).toList := by
  unfold World.jobspecs
  rw [called_invoke, List.filterMap_append]
  rfl

theorem keeps_jobspecs {α : Type} {note : Except Exc α → FluxCall F}
    (hn : ∀ r, (note r).fromCommand? = none) (call : Proc F.State α) :
    Proc.Keeps World.jobspecs (invoke note call) := by
  intro w
  rw [jobspecs_invoke, hn]
  exact List.append_nil _

theorem keeps_jobspecs_submitJob (jobspec : F.Jobspec) :
    Proc.Keeps World.jobspecs (submitJob F jobspec) := by
  refine .tryCatch (.bind ?_ fun h => .bind ?_ fun _ => .pure _) fun err => .ofExcept _
  · refine .bind .get fun w => ?_
    cases w.handle with
    | some h => exact .pure h
    | none =>
      refine .bind (keeps_jobspecs (fun _ => rfl) _) fun h => ?_
      exact .bind (.modify fun w => rfl) fun _ => .pure h
  · exact keeps_jobspecs (fun _ => rfl) _

/-- A valid submission calls `from_command` once. -/
theorem jobspecs_jobsSubmit {command : List Str} (h : commandOf body = some command)
    (hpw : site.passwd = some pw) (w : World F) :
    ((jobsSubmit F site body).run w).2.jobspecs = w.jobspecs ++
      [(command, jobKwargs pw body, ((F.fromCommand command (jobKwargs pw body)).run w.flux).1)] := by
  have hcall := jobspecs_invoke (.fromCommand command (jobKwargs pw body))
    (F.fromCommand command (jobKwargs pw body)) w
  unfold jobsSubmit
  rw [h, hpw]
  dsimp only
  rcases hrun : (invoke (.fromCommand command (jobKwargs pw body))
    (F.fromCommand command (jobKwargs pw body))).run w with ⟨err | jobspec, w'⟩
  · rw [hrun] at hcall
    have hmap : (Sum.inr (α := Reply) <$> invoke (.fromCommand command (jobKwargs pw body))
        (F.fromCommand command (jobKwargs pw body))).run w = (.error err, w') :=
      Proc.run_bind_error hrun _
    rw [Proc.run_bind, Proc.run_tryCatch_error hmap]
    cases fromCommandFailed err with
    | error err => exact hcall
    | ok reply => exact hcall
  · rw [hrun] at hcall
    have hmap : (Sum.inr (α := Reply) <$> invoke (.fromCommand command (jobKwargs pw body))
        (F.fromCommand command (jobKwargs pw body))).run w = (.ok (.inr jobspec), w') :=
      Proc.run_bind_ok hrun _
    rw [Proc.run_bind, Proc.run_tryCatch_ok hmap]
    exact (keeps_jobspecs_submitJob jobspec w').trans hcall

/-- For every body with a valid command and any two processes of the user that differ in their
environment and working directory only: `from_command` is called with the same arguments in both and
gives the same jobspec. The arguments are the fields of the body that are not null, but for the
command, each with its own value; and the home directory and the environment made from the passwd
entry, each where the body has no such field. -/
theorem submit_ignores_process (H : Hosted F) (site : Site) {body : List (Str × Json)}
    {command : List Str} (h : commandOf body = some command) (w : World F) (p : Process) :
    ∃ calls, ((jobsSubmit F site body).run w).2.jobspecs = w.jobspecs ++ calls ∧
      ((jobsSubmit F site body).run (w.move H p)).2.jobspecs = (w.move H p).jobspecs ++ calls ∧
      (site.passwd = none → calls = []) ∧
      ∀ pw, site.passwd = some pw → ∃ kwargs r, calls = [(command, kwargs, r)] ∧
        ((body.map Prod.fst).Nodup → (kwargs.map Prod.fst).Nodup) ∧
        ∀ k v, (k, v) ∈ kwargs ↔
          k ≠ "command".toList ∧ Passed body k v ∨
          k = "cwd".toList ∧ v = .str pw.dir ∧ (∀ v', ¬ Passed body k v') ∨
          k = "environment".toList ∧ v = defaultEnvironment pw ∧ (∀ v', ¬ Passed body k v') := by
  cases hpw : site.passwd with
  | none =>
    have hnone : ∀ w : World F, ((jobsSubmit F site body).run w).2.jobspecs = w.jobspecs ++ [] := by
      intro w
      unfold jobsSubmit
      rw [h, hpw, List.append_nil]
      rfl
    exact ⟨[], hnone w, hnone (w.move H p), fun _ => rfl, nofun⟩
  | some pw =>
    have hsame : ((F.fromCommand command (jobKwargs pw body)).run (w.move H p).flux).1 =
        ((F.fromCommand command (jobKwargs pw body)).run w.flux).1 :=
      H.fromCommand command _ p w.flux (Or.inl given_defaults.2) (Or.inl given_defaults.1)
    have hmoved := jobspecs_jobsSubmit h hpw (w.move H p)
    rw [hsame] at hmoved
    refine ⟨_, jobspecs_jobsSubmit h hpw w, hmoved, nofun, ?_⟩
    intro pw' hpw'
    cases hpw'
    exact ⟨_, _, rfl, nodup_jobKwargs, fun k v => mem_jobKwargs⟩

/-! Bindings whose `from_command` takes what is missing from the process. -/

structure JobspecV1 where
  command : List Str
  cwd : Json
  environment : Json

/-- A keyword argument, where it is given. -/
def argument (k : Str) (kwargs : List (Str × Json)) : Option Json :=
  (lookup k kwargs).filter fun v => !v.isNull

theorem argument_of_given {k : Str} {kwargs : List (Str × Json)} (h : Given k kwargs) :
    ∃ v, argument k kwargs = some v := by
  obtain ⟨v, hv, hnull⟩ := h
  refine ⟨v, ?_⟩
  rw [argument, hv, Option.filter_some, hnull]
  rfl

def environJson (environ : List (Str × Str)) : Json := .obj (environ.map fun e => (e.1, .str e.2))

def jobspecIn (p : Process) (command : List Str) (kwargs : List (Str × Json)) : JobspecV1 where
  command := command
  cwd := (argument "cwd".toList kwargs).getD (.str p.cwd)
  environment := (argument "environment".toList kwargs).getD (environJson p.environ)

def Flux.inProcess : Flux :=
  let fixed := Flux.fixed {}
  { State := Process
    Handle := Unit
    JobID := UInt64
    Jobspec := JobspecV1
    JobInfo := Unit
    connect := Proc.ofExcept (.ok ())
    attrGet _ _ := Proc.ofExcept (.ok ['1'])
    fromCommand command kwargs p := (.ok (jobspecIn p command kwargs), p)
    submit _ _ := Proc.ofExcept (.ok 1)
    cancel _ _ _ := Proc.ofExcept (.ok ())
    jobListId _ _ := Proc.ofExcept (.ok ())
    toDict _ := Proc.ofExcept (.ok [])
    jobId := fixed.jobId
    f58plain := fixed.f58plain
    f58plain_ascii := fixed.f58plain_ascii }

def Hosted.inProcess : Hosted Flux.inProcess where
  process p := p
  move p _ := p
  fromCommand command kwargs p s henv hcwd := by
    have hsame : jobspecIn p command kwargs = jobspecIn s command kwargs := by
      unfold jobspecIn
      congr 1
      · obtain hgiven | heq := hcwd
        · obtain ⟨v, hv⟩ := argument_of_given hgiven
          rw [hv]
          rfl
        · rw [heq]
      · obtain hgiven | heq := henv
        · obtain ⟨v, hv⟩ := argument_of_given hgiven
          rw [hv]
          rfl
        · rw [heq]
    exact congrArg Except.ok hsame

/-- An empty `cwd` and a null `environment`. -/
def nullEnvironment : List (Str × Json) :=
  [("command".toList, .arr [.str "env".toList]), ("environment".toList, .null),
    ("cwd".toList, .str [])]

theorem submit_ignores_process_nullEnvironment :
    ∃ calls,
      ((jobsSubmit Flux.inProcess Site.fixed nullEnvironment).run
        { flux := ⟨[("TOKEN".toList, ['x'])], "/srv".toList⟩ }).2.jobspecs = calls ∧
      ((jobsSubmit Flux.inProcess Site.fixed nullEnvironment).run
        { flux := ⟨[], ['/']⟩ }).2.jobspecs = calls ∧
      ∃ kwargs r, calls = [(["env".toList], kwargs, r)] ∧
        ("cwd".toList, .str []) ∈ kwargs ∧ ∀ v, ("environment".toList, v) ∈ kwargs →
          v = defaultEnvironment ⟨"flux".toList, "/home/flux".toList, "/bin/sh".toList⟩ := by
  have hcommand : commandOf nullEnvironment = some ["env".toList] := by rfl
  obtain ⟨calls, hrun, hmoved, -, hcalls⟩ := submit_ignores_process Hosted.inProcess Site.fixed
    hcommand { flux := ⟨[("TOKEN".toList, ['x'])], "/srv".toList⟩ } ⟨[], ['/']⟩
  obtain ⟨kwargs, r, rfl, -, hkwargs⟩ := hcalls _ rfl
  refine ⟨_, hrun, hmoved, kwargs, r, rfl, ?_, ?_⟩
  · refine (hkwargs _ _).mpr (Or.inl ⟨by decide, ?_, rfl⟩)
    exact List.mem_cons_of_mem _ (List.mem_cons_of_mem _ List.mem_cons_self)
  · intro v hv
    obtain ⟨-, hmem, hnull⟩ | ⟨hk, -⟩ | ⟨-, hv, -⟩ := (hkwargs _ v).mp hv
    · exfalso
      obtain heq | hmem := List.mem_cons.mp hmem
      · exact absurd (Prod.mk.inj heq).1 (by decide)
      obtain heq | hmem := List.mem_cons.mp hmem
      · rw [(Prod.mk.inj heq).2] at hnull
        cases hnull
      · have heq := List.mem_singleton.mp hmem
        exact absurd (Prod.mk.inj heq).1 (by decide)
    · exact absurd hk (by decide)
    · exact hv

end FluxRest
