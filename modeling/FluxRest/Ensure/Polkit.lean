import FluxRest.Ensure.Start

/-! The polkit rule for the web-server user, against what the helper asks of systemd. -/
namespace FluxRest.Polkit
open Py

/-- What polkit shows a rule of an action: `action.id` and `action.lookup`. -/
structure Action where
  id : Str
  lookup : Str → Option Str

structure Subject where
  user : Str

/-- How a rule ends. -/
inductive Verdict where
  /-- `polkit.Result.YES`. -/
  | yes
  /-- It returns nothing, and the next rule is asked. -/
  | notHandled
  /-- The `TypeError` of a method call on `undefined`. -/
  | raises
  deriving DecidableEq

def indexOfFrom (pattern : Str) : ℕ → Str → ℤ
  | i, [] => if pattern = [] then i else -1
  | i, c :: s => if pattern.isPrefixOf (c :: s) then i else indexOfFrom pattern (i + 1) s

/-- `s.indexOf(pattern)`. -/
def indexOf (pattern s : Str) : ℤ := indexOfFrom pattern 0 s

/-- The rule that `addRule` adds, with the user set at build time. -/
def rule (webUser : Str) (action : Action) (subject : Subject) : Verdict :=
  if action.id = "org.freedesktop.systemd1.manage-units".toList ∧ subject.user = webUser then
    match action.lookup "unit".toList with
    | none => .raises
    | some unit => if indexOf "flux-rest-server@".toList unit = 0 then .yes else .notHandled
  else .notHandled

/-- The action that a request to systemd is checked under. -/
def manageUnits (unit verb : Str) : Action where
  id := "org.freedesktop.systemd1.manage-units".toList
  lookup key :=
    if key = "unit".toList then some unit else if key = "verb".toList then some verb else none

/-- The unit and the verb that `systemctl` passes on. -/
def requested : List Str → Option (Str × Str)
  | [command, verb, unit] => if command = "systemctl".toList then some (unit, verb) else none
  | _ => none

/-- For some request to the helper, it asks systemd for just this. -/
def Issuable (unit verb : Str) : Prop :=
  ∃ (interp : Ensure.Interpreter) (run : List Str → Completed) (call : Ensure.Call),
    ∃ command ∈ ((Ensure.doGET interp call run).run {}).2.commands,
      requested command = some (unit, verb)

/-- The rule grants the request exactly if the helper can make it. -/
def Agree (webUser unit verb : Str) : Prop :=
  rule webUser (manageUnits unit verb) ⟨webUser⟩ = .yes ↔ Issuable unit verb

theorem indexOfFrom_eq (pattern : Str) (i : ℕ) (s : Str) :
    indexOfFrom pattern i s = -1 ∨ (i : ℤ) ≤ indexOfFrom pattern i s := by
  induction s generalizing i with
  | nil =>
    unfold indexOfFrom
    split_ifs
    · exact Or.inr (Int.le_refl _)
    · exact Or.inl rfl
  | cons c s ih =>
    unfold indexOfFrom
    split_ifs
    · exact Or.inr (Int.le_refl _)
    · obtain h | h := ih (i + 1)
      · exact Or.inl h
      · right
        omega

theorem indexOf_eq_zero {pattern s : Str} : indexOf pattern s = 0 ↔ pattern <+: s := by
  unfold indexOf
  cases s with
  | nil =>
    unfold indexOfFrom
    split_ifs with h <;> simp [h]
  | cons c s =>
    unfold indexOfFrom
    split_ifs with h
    · exact iff_of_true rfl (List.isPrefixOf_iff_prefix.mp h)
    · have hlater := indexOfFrom_eq pattern 1 s
      have hne : indexOfFrom pattern (0 + 1) s ≠ 0 := by
        rw [Nat.zero_add]
        omega
      exact iff_of_false hne fun hp => h (List.isPrefixOf_iff_prefix.mpr hp)

/-- The rule looks at the beginning of the unit's name and at nothing else of the request. -/
theorem rule_yes_iff {webUser unit verb : Str} :
    rule webUser (manageUnits unit verb) ⟨webUser⟩ = .yes ↔ "flux-rest-server@".toList <+: unit := by
  have hlookup : (manageUnits unit verb).lookup "unit".toList = some unit := by
    dsimp only [manageUnits]
    rw [if_pos rfl]
  unfold rule
  rw [if_pos ⟨rfl, rfl⟩, hlookup, ← indexOf_eq_zero]
  dsimp only
  split_ifs with h
  · exact iff_of_true rfl h
  · exact iff_of_false (by decide) h

/-- The helper asks to start the socket unit of a plain username. -/
theorem issuable_iff {unit verb : Str} : Issuable unit verb ↔
    verb = "start".toList ∧ ∃ name, IsName name ∧
      unit = "flux-rest-server@".toList ++ name ++ ".socket".toList := by
  have hrequested : ∀ name, requested (Ensure.startCommand name) = some (socketUnit name, "start".toList) := by
    intro name
    simp [requested, Ensure.startCommand]
  constructor
  · rintro ⟨interp, run, call, command, hmem, hrequest⟩
    by_cases hname : IsName (Ensure.remoteUser call)
    · rw [Ensure.commands_doGET_of_name hname, List.nil_append, List.mem_singleton] at hmem
      rw [hmem, hrequested] at hrequest
      obtain ⟨rfl, rfl⟩ := Prod.mk.inj (Option.some.inj hrequest)
      exact ⟨rfl, Ensure.remoteUser call, hname, rfl⟩
    · rw [Ensure.commands_doGET_of_invalid hname] at hmem
      cases hmem
  · rintro ⟨rfl, name, hname, rfl⟩
    have huser : Ensure.remoteUser (Ensure.callFor name) = name := by
      have hstrip := strip_name hname (Or.inl rfl)
      rwa [List.append_nil] at hstrip
    refine ⟨.fixed, fun _ => .timeoutExpired, Ensure.callFor name, Ensure.startCommand name, ?_,
      hrequested name⟩
    rw [Ensure.commands_doGET_of_name (huser.symm ▸ hname), huser]
    exact List.mem_singleton_self _

theorem prefix_of_issuable {unit verb : Str} (h : Issuable unit verb) :
    "flux-rest-server@".toList <+: unit := by
  obtain ⟨-, name, -, rfl⟩ := issuable_iff.mp h
  exact ⟨name ++ ".socket".toList, (List.append_assoc _ _ _).symm⟩

/-- The privilege granted is the one used exactly for the units of another name, and for the start
of the socket unit of a plain username. -/
theorem agree_iff (webUser unit verb : Str) : Agree webUser unit verb ↔
    ¬ "flux-rest-server@".toList <+: unit ∨ verb = "start".toList ∧ ∃ name, IsName name ∧
      unit = "flux-rest-server@".toList ++ name ++ ".socket".toList := by
  unfold Agree
  rw [rule_yes_iff, ← issuable_iff]
  constructor
  · intro h
    exact (em _).symm.imp_right h.mp
  · rintro (hother | hissuable)
    · exact iff_of_false hother fun h => hother (prefix_of_issuable h)
    · exact iff_of_true (prefix_of_issuable hissuable) hissuable

/-- The rule lets the web-server user stop a user's socket, and start any other unit of the name. -/
theorem stop_granted : ¬ Agree "www-data".toList "flux-rest-server@alice.socket".toList "stop".toList ∧
    ¬ Agree "www-data".toList "flux-rest-server@alice.service".toList "start".toList := by
  have hsocket : "flux-rest-server@".toList <+: "flux-rest-server@alice.socket".toList := by decide
  have hservice : "flux-rest-server@".toList <+: "flux-rest-server@alice.service".toList := by decide
  constructor
  · intro h
    obtain ⟨hverb, -⟩ := issuable_iff.mp (h.mp (rule_yes_iff.mpr hsocket))
    revert hverb
    decide
  · intro h
    obtain ⟨-, name, -, hunit⟩ := issuable_iff.mp (h.mp (rule_yes_iff.mpr hservice))
    have hlast := congrArg List.getLast? hunit
    rw [List.getLast?_append_of_ne_nil _ (by decide)] at hlast
    revert hlast
    decide

end FluxRest.Polkit
