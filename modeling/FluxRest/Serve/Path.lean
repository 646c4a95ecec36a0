import FluxRest.Machine
import FluxRest.Serve.Main
import Mathlib.Logic.Function.Basic

/-! Servers that start on one path: the calls of `server_on_unix_socket`, in any order. -/
namespace FluxRest
open Py

def EISDIR : ℤ := 21

/-- What is at the path. The mode plays no part. -/
inductive Entry where
  | socket (owner : ℕ)
  | directory
  | other
  deriving DecidableEq

/-- `os.unlink(path)`. -/
def unlinkAt : Option Entry → Except Exc Unit × Option Entry
  | none => (.error (osError ENOENT "No such file or directory".toList), none)
  | some .directory => (.error (osError EISDIR "Is a directory".toList), some .directory)
  | some _ => (.ok (), none)

/-- `sock.bind(path)`, by the server `i`. -/
def bindAt (i : ℕ) : Option Entry → Except Exc Unit × Option Entry
  | none => (.ok (), some (.socket i))
  | some e => (.error (osError EADDRINUSE "Address already in use".toList), some e)

/-- `os.chmod(path, 0o600)`, whatever is there. -/
def chmodAt : Option Entry → Except Exc Unit
  | none => .error (osError ENOENT "No such file or directory".toList)
  | some _ => .ok ()

/-- The call of `server_on_unix_socket` that is next, or how the start has ended. -/
inductive Stage where
  | unlink
  | bind
  | chmod
  | listen
  | serving
  | failed (err : Exc)
  | exited

/-- The server holds a socket it has bound. -/
def Stage.isBound : Stage → Bool
  | chmod | listen | serving => true
  | _ => false

inductive Start where
  | go (i : ℕ)
  /-- The call fails for a reason of its own, and changes nothing. -/
  | fails (i : ℕ) (err : Exc)
  /-- The process ends, which leaves the path as it is. -/
  | exits (i : ℕ)

structure Path where
  entry : Option Entry
  stage : ℕ → Stage

namespace Path

variable (s : Path)

def moved (i : ℕ) (stage : Stage) (entry : Option Entry) : Path :=
  { entry, stage := Function.update s.stage i stage }

/-- The next call of a start. -/
def go (i : ℕ) : Option Path :=
  match s.stage i with
  | .unlink =>
    match unlinkAt s.entry with
    | (.ok (), entry) => some (s.moved i .bind entry)
    | (.error err, entry) =>
      some (s.moved i (if err.isA .fileNotFoundError then .bind else .failed err) entry)
  | .bind =>
    match bindAt i s.entry with
    | (.ok (), entry) => some (s.moved i .chmod entry)
    | (.error err, entry) => some (s.moved i (.failed err) entry)
  | .chmod =>
    match chmodAt s.entry with
    | .ok () => some (s.moved i .listen s.entry)
    | .error err => some (s.moved i (.failed err) s.entry)
  | .listen => some (s.moved i .serving s.entry)
  | _ => none

def step : Start → Option Path
  | .go i => s.go i
  | .fails i err =>
    match s.stage i with
    | .unlink => if err.isA .fileNotFoundError then none else some (s.moved i (.failed err) s.entry)
    | .bind | .chmod | .listen => some (s.moved i (.failed err) s.entry)
    | _ => none
  | .exits i => some (s.moved i .exited s.entry)

/-- A client that connects to the path comes to the server `i`. -/
def Reachable (i : ℕ) : Prop := s.stage i = .serving ∧ s.entry = some (.socket i)

/-- Every server is about to start, or has exited, or serves at the path. -/
def Initial : Prop := ∀ i, s.stage i = .unlink ∨ s.stage i = .exited ∨ s.Reachable i

/-- What a start is about to unlink is a socket that no server holds, if it can be unlinked. -/
def unlinksStale : Start → Bool
  | .go i =>
    match s.stage i, s.entry with
    | .unlink, some (.socket j) => !(s.stage j).isBound
    | .unlink, some .other => false
    | _, _ => true
  | _ => true

/-- A server that holds a socket has it at the path. -/
def Owned : Prop := ∀ i, (s.stage i).isBound = true → s.entry = some (.socket i)

variable {s} {s' : Path}

theorem stage_moved (i j : ℕ) (stage : Stage) (entry : Option Entry) :
    (s.moved i stage entry).stage j = if j = i then stage else s.stage j := by
  exact Function.update_apply s.stage i stage j

/-- What a call of a start does. -/
inductive Gone (s : Path) (i : ℕ) : Path → Prop where
  | absent (h : s.stage i = .unlink) (he : s.entry = none) : Gone s i (s.moved i .bind none)
  | removed {e} (h : s.stage i = .unlink) (he : s.entry = some e) (hd : e ≠ .directory) :
      Gone s i (s.moved i .bind none)
  | directory {err} (h : s.stage i = .unlink) (he : s.entry = some .directory) :
      Gone s i (s.moved i (.failed err) s.entry)
  | bound (h : s.stage i = .bind) (he : s.entry = none) :
      Gone s i (s.moved i .chmod (some (.socket i)))
  | inUse {e err} (h : s.stage i = .bind) (he : s.entry = some e)
      (herr : err.errno = some EADDRINUSE) : Gone s i (s.moved i (.failed err) s.entry)
  | changed (h : s.stage i = .chmod) : Gone s i (s.moved i .listen s.entry)
  | missing {err} (h : s.stage i = .chmod) (he : s.entry = none) :
      Gone s i (s.moved i (.failed err) s.entry)
  | listening (h : s.stage i = .listen) : Gone s i (s.moved i .serving s.entry)

theorem gone_of_go {i : ℕ} (h : s.go i = some s') : Gone s i s' := by
  unfold go at h
  split at h
  · next hstage =>
    cases he : s.entry with
    | none =>
      rw [he] at h
      cases h
      exact .absent hstage he
    | some e =>
      rw [he] at h
      cases e with
      | directory =>
        cases h
        rw [← he]
        exact .directory hstage he
      | socket j =>
        cases h
        exact .removed hstage he nofun
      | other =>
        cases h
        exact .removed hstage he nofun
  · next hstage =>
    cases he : s.entry with
    | none =>
      rw [he] at h
      cases h
      exact .bound hstage he
    | some e =>
      rw [he] at h
      cases h
      rw [← he]
      exact .inUse hstage he rfl
  · next hstage =>
    cases he : s.entry with
    | none =>
      rw [he] at h
      cases h
      rw [← he]
      exact .missing hstage he
    | some e =>
      rw [he] at h
      cases h
      rw [← he]
      exact .changed hstage
  · next hstage =>
    cases h
    exact .listening hstage
  · cases h

/-- A step of a start moves no other server. -/
theorem step_cases {event : Start} (h : s.step event = some s') :
    (∃ i, event = .go i ∧ Gone s i s') ∨
    ∃ i stage, s' = s.moved i stage s.entry ∧ stage.isBound = false := by
  cases event with
  | go i => exact Or.inl ⟨i, rfl, gone_of_go h⟩
  | fails i err =>
    right
    simp only [step] at h
    split at h
    · split_ifs at h
      cases h
      exact ⟨i, _, rfl, rfl⟩
    · cases h
      exact ⟨i, _, rfl, rfl⟩
    · cases h
      exact ⟨i, _, rfl, rfl⟩
    · cases h
      exact ⟨i, _, rfl, rfl⟩
    · cases h
  | exits i =>
    cases h
    exact Or.inr ⟨i, _, rfl, rfl⟩

/-- Where the path stays as it is, only the server that moves has to be looked at. -/
theorem Owned.moved (hs : s.Owned) {i : ℕ} {stage : Stage} {entry : Option Entry}
    (hi : stage.isBound = true → entry = some (.socket i))
    (hentry : (∃ j, j ≠ i ∧ (s.stage j).isBound = true) → entry = s.entry) :
    (s.moved i stage entry).Owned := by
  intro j hj
  rw [stage_moved] at hj
  split_ifs at hj with hji
  · rw [hji]
    exact hi hj
  · have hsame := hentry ⟨j, hji, hj⟩
    exact hsame.trans (hs j hj)

theorem Owned.released (hs : s.Owned) {i : ℕ} {stage : Stage} {entry : Option Entry}
    (hi : stage.isBound = false)
    (hentry : (∃ j, j ≠ i ∧ (s.stage j).isBound = true) → entry = s.entry) :
    (s.moved i stage entry).Owned := by
  apply hs.moved _ hentry
  intro hb
  rw [hi] at hb
  cases hb

theorem Owned.gone (hs : s.Owned) {i : ℕ} (hstale : s.unlinksStale (.go i) = true)
    (h : Gone s i s') : s'.Owned := by
  cases h with
  | absent _ he =>
    apply hs.released rfl
    intro _
    exact he.symm
  | removed hstage he hd =>
    apply hs.released rfl
    intro hex
    obtain ⟨j, -, hj⟩ := hex
    have hown := hs j hj
    simp [unlinksStale, hstage, hown, hj] at hstale
  | bound _ he =>
    apply hs.moved (fun _ => rfl)
    intro hex
    obtain ⟨j, -, hj⟩ := hex
    have hown := hs j hj
    rw [he] at hown
    cases hown
  | changed hstage => exact hs.moved (fun _ => hs i (by rw [hstage]; rfl)) fun _ => rfl
  | listening hstage => exact hs.moved (fun _ => hs i (by rw [hstage]; rfl)) fun _ => rfl
  | directory | inUse | missing => exact hs.released rfl fun _ => rfl

/-- What a start removes, if it unlinks a stale socket at most, is such a socket. -/
theorem Gone.kept {i : ℕ} (hstale : s.unlinksStale (.go i) = true) (h : Gone s i s') {e : Entry}
    (he : s.entry = some e) :
    s'.entry = some e ∨ ∃ j, e = .socket j ∧ (s.stage j).isBound = false := by
  cases h with
  | absent _ hnone | bound _ hnone =>
    rw [he] at hnone
    cases hnone
  | removed hstage he' hd =>
    rw [he] at he'
    obtain rfl := Option.some.inj he'
    cases e with
    | socket j =>
      simp only [unlinksStale, hstage, he, Bool.not_eq_true'] at hstale
      exact Or.inr ⟨j, rfl, hstale⟩
    | directory => exact absurd rfl hd
    | other => simp [unlinksStale, hstage, he] at hstale
  | _ => exact Or.inl he

theorem Initial.owned (h : s.Initial) : s.Owned := by
  intro i hi
  obtain hstage | hstage | hreach := h i
  · rw [hstage] at hi
    cases hi
  · rw [hstage] at hi
    cases hi
  · exact hreach.2

theorem Owned.step (hs : s.Owned) {event : Start} (hstale : s.unlinksStale event = true)
    (h : s.step event = some s') : s'.Owned := by
  obtain ⟨i, rfl, hgone⟩ | ⟨i, stage, rfl, hnot⟩ := step_cases h
  · exact hs.gone hstale hgone
  · exact hs.released hnot fun _ => rfl

theorem kept_step {event : Start} (hstale : s.unlinksStale event = true)
    (h : s.step event = some s') {e : Entry} (he : s.entry = some e) :
    s'.entry = some e ∨ ∃ j, e = .socket j ∧ (s.stage j).isBound = false := by
  obtain ⟨i, rfl, hgone⟩ | ⟨i, stage, rfl, -⟩ := step_cases h
  · exact hgone.kept hstale he
  · exact Or.inl he

/-- Where there is something at the path, a `bind` fails, and that something stays. -/
theorem go_inUse {i : ℕ} {e : Entry} (hstage : s.stage i = .bind) (he : s.entry = some e) :
    ∃ s' err, s.go i = some s' ∧ s'.stage i = .failed err ∧ err.errno = some EADDRINUSE ∧
      s'.entry = some e ∧ ∀ j, j ≠ i → s'.stage j = s.stage j := by
  refine ⟨s.moved i (.failed (osError EADDRINUSE "Address already in use".toList)) (some e),
    osError EADDRINUSE "Address already in use".toList, ?_, ?_, rfl, rfl, ?_⟩
  · unfold go
    rw [hstage, he]
    rfl
  · rw [stage_moved, if_pos rfl]
  · intro j hj
    rw [stage_moved, if_neg hj]

/-- With nothing at the path and no other start, the rest of a start goes through. -/
theorem start_from_bind {i : ℕ} (hstage : s.stage i = .bind) (he : s.entry = none) :
    ∃ s', Machine.run step s [.go i, .go i, .go i] = some s' ∧ s'.Reachable i := by
  have hbound : s.step (.go i) = some (s.moved i .chmod (some (.socket i))) := by
    simp only [step, go]
    rw [hstage, he]
    rfl
  have hchanged : ∀ s : Path, s.stage i = .chmod → s.entry = some (.socket i) →
      s.step (.go i) = some (s.moved i .listen (some (.socket i))) := by
    intro s hstage he
    simp only [step, go]
    rw [hstage, he]
    rfl
  have hlistening : ∀ s : Path, s.stage i = .listen →
      s.step (.go i) = some (s.moved i .serving s.entry) := by
    intro s hstage
    simp only [step, go]
    rw [hstage]
  have hmoved : ∀ (s : Path) stage entry, (s.moved i stage entry).stage i = stage := by
    intro s stage entry
    rw [stage_moved, if_pos rfl]
  refine ⟨_, Machine.run_cons.mpr ⟨_, hbound, Machine.run_cons.mpr ⟨_, hchanged _ (hmoved _ _ _) rfl,
    Machine.run_cons.mpr ⟨_, hlistening _ (hmoved _ _ _), rfl⟩⟩⟩, hmoved _ _ _, rfl⟩

/-- A start that nothing interferes with does as `server_on_unix_socket` does. -/
theorem start_alone {l : Launch} {path : Str} {i : ℕ} (hstage : s.stage i = .unlink)
    (hunlink : l.unlink path = (unlinkAt s.entry).1) (hbind : l.bindPath path = .ok ())
    (hserver : l.newServer = .ok ()) (hname : l.nameOfPath path = .ok ()) :
    (serverOnUnixSocket l path = .ok AF_UNIX ∧ ∃ s', Machine.run step s
      [.go i, .go i, .go i, .go i] = some s' ∧ s'.Reachable i) ∨
    ∃ err s', serverOnUnixSocket l path = .error err ∧ s.step (.go i) = some s' ∧
      s'.stage i = .failed err := by
  have hmade : (l.bindPath path >>= fun _ => serverOnSocket l AF_UNIX (l.nameOfPath path)) =
      .ok AF_UNIX := by
    rw [hbind, hname]
    unfold serverOnSocket
    rw [hserver]
    rfl
  have hrest : s.step (.go i) = some (s.moved i .bind none) →
      ∃ s', Machine.run step s [.go i, .go i, .go i, .go i] = some s' ∧ s'.Reachable i := by
    intro hfirst
    have hstage' : (s.moved i .bind none).stage i = .bind := by rw [stage_moved, if_pos rfl]
    obtain ⟨s', hrun, hreach⟩ := start_from_bind hstage' rfl
    exact ⟨s', Machine.run_cons.mpr ⟨_, hfirst, hrun⟩, hreach⟩
  unfold serverOnUnixSocket
  simp only [step, go] at hrest ⊢
  rw [hstage] at hrest ⊢
  rw [hunlink]
  cases he : s.entry with
  | none =>
    rw [he] at hrest
    exact Or.inl ⟨hmade, hrest rfl⟩
  | some e =>
    rw [he] at hrest
    cases e with
    | directory =>
      right
      refine ⟨osError EISDIR "Is a directory".toList, _, rfl, rfl, ?_⟩
      rw [stage_moved, if_pos rfl]
      rfl
    | socket j => exact Or.inl ⟨hmade, hrest rfl⟩
    | other => exact Or.inl ⟨hmade, hrest rfl⟩

end Path

/-- The message `main` ends with where the address is in use. -/
theorem bindFailed_inUse {a : Args} {err : Exc} (herr : err.errno = some EADDRINUSE)
    (hport : a.port = none) (path : Str) : bindFailed a err (some path) =
      .exits 1 ["error: address ".toList ++ (given a.socket).getD path ++
        " already in use".toList] := by
  unfold bindFailed
  rw [if_pos herr]
  cases hsocket : given a.socket with
  | none => simp [failedAddress, hport, hsocket]
  | some s => simp [failedAddress, hport, hsocket]

/-- In every run of any number of starts on one path in which each unlinks a stale socket at most:
every server that has started, and not exited, is the one at the path; while it is, no other start
has gone beyond its `bind`, which fails with the address in use; a step removes nothing but a socket
that no server holds; and what was at the path and is not a socket is still there. -/
theorem starts_keep_reachable {s s' : Path} {events : List Start} (hs : s.Initial)
    (ha : Machine.Along Path.step (fun s event => s.unlinksStale event = true) s events)
    (h : Machine.run Path.step s events = some s') :
    (∀ i, s'.stage i = .serving → s'.Reachable i) ∧
    (∀ i j, s'.Reachable j → i ≠ j → (s'.stage i).isBound = false ∧
      (s'.stage i = .bind → ∃ s'' err, s'.step (.go i) = some s'' ∧ s''.Reachable j ∧
        s''.stage i = .failed err ∧ ∀ a path, a.port = none → bindFailed a err (some path) =
          .exits 1 ["error: address ".toList ++ (given a.socket).getD path ++
            " already in use".toList])) ∧
    (∀ event s'', s'.unlinksStale event = true → s'.step event = some s'' → ∀ e,
      s'.entry = some e → s''.entry = some e ∨ ∃ j, e = .socket j ∧ (s'.stage j).isBound = false) ∧
    (∀ e, s.entry = some e → (∀ j, e ≠ .socket j) → s'.entry = some e) := by
  have howned : s'.Owned := by
    apply Machine.run_invariant_along _ hs.owned ha h
    intro s event t hI hstale hstep
    exact hI.step hstale hstep
  refine ⟨?_, ?_, ?_, ?_⟩
  · intro i hi
    exact ⟨hi, howned i (by rw [hi]; rfl)⟩
  · intro i j hj hij
    constructor
    · rw [← Bool.not_eq_true]
      intro hbound
      have hsame := (howned i hbound).symm.trans hj.2
      exact hij (Entry.socket.inj (Option.some.inj hsame))
    · intro hstage
      obtain ⟨s'', err, hgo, hfailed, herr, hentry, hothers⟩ := Path.go_inUse hstage hj.2
      refine ⟨s'', err, hgo, ⟨?_, hentry⟩, hfailed, ?_⟩
      · rw [hothers j hij.symm]
        exact hj.1
      · intro a path hport
        exact bindFailed_inUse herr hport path
  · intro event s'' hstale hstep e he
    exact Path.kept_step hstale hstep he
  · intro e he hnot
    refine Machine.run_invariant_along (I := fun s => s.entry = some e) ?_ he ha h
    intro s event t hI hstale hstep
    obtain hkept | ⟨j, hj, -⟩ := Path.kept_step hstale hstep hI
    · exact hkept
    · exact absurd hj (hnot j)

/-- A server has exited and left its socket behind; no other has started. -/
def Path.stale : Path where
  entry := some (.socket 9)
  stage i := if i = 9 then .exited else .unlink

/-- Two starts, both past their `unlink` when the first of them binds. -/
def twoStarts : List Start := [.go 0, .go 1, .go 0, .go 1, .go 0, .go 0]

theorem starts_keep_reachable_twoStarts :
    ∃ s', Machine.run Path.step .stale twoStarts = some s' ∧ s'.Reachable 0 ∧
      (s'.stage 1).isBound = false := by
  have hinitial : Path.stale.Initial := by
    intro i
    by_cases hi : i = 9
    · exact Or.inr (Or.inl (if_pos hi))
    · exact Or.inl (if_neg hi)
  have halong : Machine.Along Path.step (fun s event => s.unlinksStale event = true) .stale
      twoStarts := by
    decide +kernel
  refine ⟨_, rfl, ?_⟩
  obtain ⟨hreach, hothers, -⟩ := starts_keep_reachable hinitial halong rfl
  have hfirst := hreach 0 rfl
  exact ⟨hfirst, (hothers 1 0 hfirst (by decide)).1⟩

/-- One server after another is started on a path with nothing at it: both starts succeed, and the
first server serves on, where no client finds it. A start also removes what is not a socket. -/
theorem secondStart_displaces :
    (∃ s s', Machine.run Path.step ⟨none, fun _ => .unlink⟩ [.go 0, .go 0, .go 0, .go 0] = some s ∧
      s.Reachable 0 ∧ Machine.run Path.step s [.go 1, .go 1, .go 1, .go 1] = some s' ∧
      s'.Reachable 1 ∧ s'.stage 0 = .serving ∧ ¬ s'.Reachable 0) ∧
    ∃ s, Machine.run Path.step ⟨some .other, fun _ => .unlink⟩ [.go 0] = some s ∧
      s.entry = none := by
  refine ⟨⟨_, _, rfl, ⟨rfl, rfl⟩, rfl, ⟨rfl, rfl⟩, rfl, ?_⟩, _, rfl, rfl⟩
  intro hreach
  cases hreach.2

end FluxRest
