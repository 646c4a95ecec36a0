import FluxRest.Serve.Idle
import FluxRest.Serve.Main
import FluxRest.Serve.Refusal
import Mathlib.Data.Rat.Floor

/-! The waits of `handle_request`: which of them `poll` can be asked for. -/
namespace FluxRest
open Py

def INT_MAX : ℤ := 2 ^ 31 - 1

/-- The milliseconds that `select` asks `poll` to wait. -/
def pollTimeout : Option ℚ → Except Exc (Option ℤ)
  | none => .ok none
  | some t =>
    if t ≤ 0 then .ok (some 0)
    else if INT_MAX < ⌈t * 1000⌉ then
      .error (.ofClass .exception "timeout is too large".toList)
    else .ok (some ⌈t * 1000⌉)

/-- No wait at all, or one of no negative time that `poll` takes. -/
def Waitable (timeout : Option ℚ) : Prop :=
  (∀ t, timeout = some t → 0 ≤ t) ∧ ∃ ms, pollTimeout timeout = .ok ms

theorem waitable_some {t : ℚ} : Waitable (some t) ↔ 0 ≤ t ∧ ⌈t * 1000⌉ ≤ INT_MAX := by
  have hzero : t ≤ 0 → ⌈t * 1000⌉ ≤ INT_MAX := by
    intro ht
    have hle : t * 1000 ≤ ((0 : ℤ) : ℚ) := by
      rw [Int.cast_zero]
      linarith
    have hceil : ⌈t * 1000⌉ ≤ 0 := Int.ceil_le.mpr hle
    exact hceil.trans (by decide)
  unfold Waitable pollTimeout
  constructor
  · intro h
    obtain ⟨hpos, ms, hms⟩ := h
    refine ⟨hpos t rfl, ?_⟩
    dsimp only at hms
    split_ifs at hms with ht hle
    · exact hzero ht
    · exact not_lt.mp hle
  · intro h
    obtain ⟨hpos, hle⟩ := h
    refine ⟨?_, ?_⟩
    · intro t' ht'
      rwa [← Option.some.inj ht']
    · dsimp only
      split_ifs with ht hlt
      · exact ⟨_, rfl⟩
      · exact absurd hle (not_le.mpr hlt)
      · exact ⟨_, rfl⟩

theorem waitable_none : Waitable none := ⟨nofun, none, rfl⟩

/-- A shorter wait can be had where a longer one can. -/
theorem Waitable.of_le {t t' : ℚ} (h : Waitable (some t')) (ht : 0 ≤ t) (hle : t ≤ t') :
    Waitable (some t) := by
  obtain ⟨-, hmax⟩ := waitable_some.mp h
  have hceil : ⌈t * 1000⌉ ≤ ⌈t' * 1000⌉ := Int.ceil_mono (by linarith)
  exact waitable_some.mpr ⟨ht, hceil.trans hmax⟩

theorem waitable_linger : Waitable (some REFUSE_LINGER) := by
  have hceil : ⌈REFUSE_LINGER * 1000⌉ ≤ 1000 := by
    rw [Int.ceil_le]
    norm_num [REFUSE_LINGER]
  exact waitable_some.mpr ⟨by norm_num [REFUSE_LINGER], hceil.trans (by decide)⟩

/-- The wait is the idle timeout, or no longer than the linger. -/
theorem Server.waitable_serveTimeout {srv : Server} {now : ℚ} (hT : Waitable srv.idleTimeout)
    (hsoon : ∀ e ∈ srv.refused, e.2 ≤ now + REFUSE_LINGER) : Waitable (srv.serveTimeout now) := by
  unfold serveTimeout
  cases hr : srv.refused with
  | nil => exact hT
  | cons e rest =>
    have hdue : e.2 ≤ now + REFUSE_LINGER := by
      apply hsoon
      rw [hr]
      exact List.mem_cons_self
    have hlinger : Waitable (some (max 0 (e.2 - now))) := by
      apply waitable_linger.of_le (le_max_left _ _)
      apply max_le
      · norm_num [REFUSE_LINGER]
      · linarith
    cases hT' : srv.idleTimeout with
    | none => exact hlinger
    | some t =>
      have ht : 0 ≤ t := (waitable_some.mp (hT' ▸ hT)).1
      exact hlinger.of_le (le_min ht (le_max_left _ _)) (min_le_right _ _)

theorem Cfg.Reached.waitable {uid : Option ℕ} {T : Option ℚ} {c : Cfg} (hT : Waitable T)
    (h : c.Reached uid T) : c.pc = .handleRequest → Waitable c.srv.timeout := by
  apply h.invariant
  · intro now ign hpc
    cases hpc
  · intro c d _ hI _
    exact hI
  · intro c signal _ hI hpc
    have hsame : (c.stop signal).pc = c.pc := pc_of_stop (by rw [hpc]; rfl)
    rw [stop_srv]
    exact hI (hsame.symm.trans hpc)
  · intro c c' hr _ h hpc
    rw [h.to_handleRequest hpc]
    apply Server.waitable_serveTimeout
    · rw [hr.limits.2]
      exact hT
    · exact hr.refusalsKept.soon

/-- What `main` takes for an idle timeout is a positive time, or none. -/
theorem main_idleTimeout {l : Launch} {a : Args} {listener : Listener} {uid : Option ℕ}
    {T : Option ℚ} {stderr : List Str} (h : main l a = .serves listener uid T stderr) :
    ∀ t, T = some t → 0 < t := by
  intro t ht
  obtain ⟨-, -, hidle, -⟩ := main_serves h
  unfold idleTimeout at hidle
  rw [ht] at hidle
  split at hidle
  · cases hidle
  · cases hidle
  · split_ifs at hidle with hle
    cases hidle
    exact not_le.mp hle

/-- For each idle timeout that `main` takes, every wait of every run of `serve` is one that `poll`
can be asked for, if and only if the idle timeout is. -/
theorem waits_representable {l : Launch} {a : Args} {listener : Listener} {uid : Option ℕ}
    {T : Option ℚ} {stderr : List Str} (h : main l a = .serves listener uid T stderr) :
    (∀ c, Cfg.Reached uid T c → c.pc = .handleRequest → Waitable c.srv.timeout) ↔
      ∀ t, T = some t → ⌈t * 1000⌉ ≤ INT_MAX := by
  constructor
  · intro hall t ht
    have hrun : Machine.run Cfg.step (.serve uid T 0 false) [.main .next, .main .next] = some
        { Cfg.serve uid T 0 false with
          srv := { allowedPeerUid := uid, idleTimeout := T, timeout := T }, pc := .handleRequest } := by
      rfl
    have hfirst := hall _ ⟨0, false, _, hrun⟩ rfl
    rw [ht] at hfirst
    exact (waitable_some.mp hfirst).2
  · intro hmax c hc
    apply hc.waitable
    cases T with
    | none => exact waitable_none
    | some t => exact waitable_some.mpr ⟨(main_idleTimeout h t rfl).le, hmax t rfl⟩

def Args.fiveMinutes : Args := { idleTimeout := some (.seconds 300) }

theorem waits_representable_fiveMinutes :
    main .activated .fiveMinutes = .serves (.inherited AF_UNIX) (some 1000) (some 300) [] ∧
      ∀ c, Cfg.Reached (some 1000) (some 300) c → c.pc = .handleRequest →
        Waitable c.srv.timeout := by
  have hmain : main .activated .fiveMinutes =
      .serves (.inherited AF_UNIX) (some 1000) (some 300) [] := by
    rfl
  refine ⟨hmain, (waits_representable hmain).mpr ?_⟩
  intro t ht
  have hceil : ⌈t * 1000⌉ ≤ 300000 := by
    rw [← Option.some.inj ht, Int.ceil_le]
    norm_num
  exact hceil.trans (by decide)

/-- `--idle-timeout=30d`. -/
def Args.thirtyDays : Args := { idleTimeout := some (.seconds 2592000) }

/-- `main` takes it, and the first wait raises. -/
theorem thirtyDays_overflows :
    main .activated .thirtyDays = .serves (.inherited AF_UNIX) (some 1000) (some 2592000) [] ∧
      ∃ c, Cfg.Reached (some 1000) (some 2592000) c ∧ c.pc = .handleRequest ∧
        c.srv.timeout = some 2592000 ∧
        pollTimeout (some 2592000) = .error (.ofClass .exception "timeout is too large".toList) ∧
        ¬ Waitable c.srv.timeout := by
  have hceil : INT_MAX < ⌈(2592000 : ℚ) * 1000⌉ := by
    have hlt : ((INT_MAX : ℤ) : ℚ) < 2592000 * 1000 := by norm_num [INT_MAX]
    exact Int.lt_ceil.mpr hlt
  have hrun : Machine.run Cfg.step (.serve (some 1000) (some 2592000) 0 false)
      [.main .next, .main .next] = some { Cfg.serve (some 1000) (some 2592000) 0 false with
        srv := { allowedPeerUid := some 1000, idleTimeout := some 2592000, timeout := some 2592000 }
        pc := .handleRequest } := by
    rfl
  refine ⟨rfl, _, ⟨0, false, _, hrun⟩, rfl, rfl, ?_, ?_⟩
  · have hpos : ¬ (2592000 : ℚ) ≤ 0 := by norm_num
    unfold pollTimeout
    dsimp only
    rw [if_neg hpos, if_pos hceil]
  · intro h
    exact absurd (waitable_some.mp h).2 (not_le.mpr hceil)

end FluxRest
