import FluxRest.Ensure

/-! nginx in front, in either configuration: whose unit it has the helper start, and whose socket it
hands a request to. -/
namespace FluxRest
open Py

/-- `location /api/` of the configuration behind a trusted proxy, where `$ssl_client_verify` and
`$http_x_remote_user` are these. -/
def locationProxied (run : List Str → Completed) (sslClientVerify : Str) (xRemoteUser : Option Str) :
    Located :=
  if sslClientVerify ≠ "SUCCESS".toList then { front := .denied 403 }
  else
    let fluxuser := xRemoteUser.getD []
    if !USERNAME_PATTERN.search fluxuser then { front := .denied 403 }
    else
      let ensured := ensureDoGET run (if fluxuser = [] then none else some fluxuser)
      { subrequest := some ensureSock
        commands := ensured.commands
        front := authRequest ensured.status (sock fluxuser) }

/-- A request to nginx: in the one configuration nginx has authenticated the user, in the other an
upstream has, and names the user in a header. -/
inductive Asked where
  | direct (remoteUser : Str)
  | proxied (sslClientVerify : Str) (xRemoteUser : Option Str)
  deriving DecidableEq

namespace Asked

def location (run : List Str → Completed) : Asked → Located
  | direct remoteUser => locationApi run remoteUser
  | proxied sslClientVerify xRemoteUser => locationProxied run sslClientVerify xRemoteUser

/-- The user, where one is authenticated. -/
def user : Asked → Option Str
  | direct remoteUser => some remoteUser
  | proxied sslClientVerify xRemoteUser =>
    if sslClientVerify = "SUCCESS".toList then xRemoteUser else none

end Asked

theorem locationApi_proxied {run : List Str → Completed} {u socket : Str}
    (h : (locationApi run u).front = .proxied socket) : socket = sock u := by
  unfold locationApi at h
  split_ifs at h
  · dsimp only at h
    exact authRequest_proxied h
  · dsimp only at h
    exact authRequest_proxied h

theorem locationProxied_proxied {run : List Str → Completed} {verify socket : Str} {header : Option Str}
    (h : (locationProxied run verify header).front = .proxied socket) :
    verify = "SUCCESS".toList ∧ ∃ u, header = some u ∧ socket = sock u := by
  unfold locationProxied at h
  split_ifs at h with hverify
  refine ⟨not_not.mp hverify, ?_⟩
  cases header with
  | none => cases h
  | some u =>
    refine ⟨u, rfl, ?_⟩
    dsimp only [Option.getD_some] at h
    split_ifs at h
    · dsimp only at h
      exact authRequest_proxied h
    · dsimp only at h
      exact authRequest_proxied h

/-- A request is handed to a socket only for the user that was authenticated. -/
theorem Asked.user_of_proxied {asked : Asked} {run : List Str → Completed} {socket : Str}
    (h : (asked.location run).front = .proxied socket) : ∃ u, asked.user = some u ∧ socket = sock u := by
  cases asked with
  | direct remoteUser => exact ⟨remoteUser, rfl, locationApi_proxied h⟩
  | proxied verify header =>
    obtain ⟨hverify, u, rfl, hsocket⟩ := locationProxied_proxied h
    exact ⟨u, if_pos hverify, hsocket⟩

theorem search_usernamePattern (u : Str) : USERNAME_PATTERN.search u = USERNAME_PATTERN.isMatch u := by
  have hanchored : ∀ s, USERNAME_PATTERN.ends ⟨false, s⟩ = [] := by
    intro s
    rw [List.eq_nil_iff_forall_not_mem]
    intro x hx
    obtain ⟨y, hy, -⟩ := Regex.mem_seq.mp hx
    cases (Regex.mem_bol.mp hy).1
  exact Regex.search_of_anchored hanchored u

/-- `_PeerServer.verify_request`, in a process of `uid`: the helper answers its own account only. -/
def verifyHelperPeer (uid : ℕ) (peer : Option ℕ) : Bool :=
  match peer with
  | none => false
  | some peer => peer = uid

/-- What the helper does for a connection. -/
def helperCommands (uid : ℕ) (peer : Option ℕ) (run : List Str → Completed) (header : Option Str) :
    List (List Str) :=
  if verifyHelperPeer uid peer then (ensureDoGET run header).commands else []

/-- The helper starts no unit but that of the name in the header. -/
theorem commands_ensureDoGET {run : List Str → Completed} {header : Option Str} {command : List Str}
    (h : command ∈ (ensureDoGET run header).commands) : IsName (strip (header.getD [])) ∧
      command = ["systemctl".toList, "start".toList, socketUnit (strip (header.getD []))] := by
  have hname : IsName (strip (header.getD [])) := by
    by_contra hnot
    have hmatch : USERNAME_PATTERN.isMatch (strip (header.getD [])) = false := by
      rw [← Bool.not_eq_true, usernamePattern_iff, or_iff_right hnot]
      intro hnewline
      obtain ⟨u, -, hu⟩ := hnewline
      have hspace : isSpace '\n' = false := isSpace_of_strip hu
      revert hspace
      decide
    unfold ensureDoGET at h
    dsimp only at h
    by_cases hempty : strip (header.getD []) = []
    · rw [if_pos hempty] at h
      cases h
    · rw [if_neg hempty, hmatch, if_pos (by decide)] at h
      cases h
  cases header with
  | none =>
    have hne := hname.chars.1
    exact absurd rfl hne
  | some header =>
    refine ⟨hname, ?_⟩
    dsimp only [Option.getD_some] at hname ⊢
    rw [commands_of_name hname rfl] at h
    exact List.mem_singleton.mp h

/-- A name, or a name with a newline after it, is read as the name. -/
theorem eq_of_strip {u i : Str} (h : IsName u ∨ ∃ v, IsName v ∧ u = v ++ ['\n']) (hu : strip u = i) :
    u = i ∨ u = i ++ ['\n'] := by
  obtain h | ⟨v, h, rfl⟩ := h
  · have hstrip := strip_name h (Or.inl rfl)
    rw [List.append_nil] at hstrip
    exact Or.inl (hstrip.symm.trans hu)
  · rw [strip_name h (Or.inr rfl)] at hu
    rw [hu]
    exact Or.inr rfl

/-- nginx has no unit started but that of the user that was authenticated. -/
theorem Asked.user_of_command {asked : Asked} {run : List Str → Completed} {i : Str}
    (h : ["systemctl".toList, "start".toList, socketUnit i] ∈ (asked.location run).commands) :
    IsName i ∧ ∃ u, asked.user = some u ∧ (u = i ∨ u = i ++ ['\n']) := by
  have hensure : ∀ u, ["systemctl".toList, "start".toList, socketUnit i] ∈
      (ensureDoGET run (if u = [] then none else some u)).commands → IsName i ∧ strip u = i := by
    intro u hmem
    have hheader : (if u = [] then none else some u).getD [] = u := by
      split_ifs with hnil
      · exact hnil.symm
      · rfl
    obtain ⟨hname, hcommand⟩ := commands_ensureDoGET hmem
    rw [hheader] at hname hcommand
    have hunit : socketUnit i = socketUnit (strip u) := by
      simpa only [List.cons.injEq, true_and, and_true] using hcommand
    rw [socketUnit_inj hunit]
    exact ⟨hname, rfl⟩
  cases asked with
  | direct u =>
    dsimp only [location] at h
    unfold locationApi at h
    cases hguard : guardPattern.search u with
    | false =>
      rw [hguard, if_pos (by decide)] at h
      cases h
    | true =>
      rw [hguard, if_neg (by decide)] at h
      obtain ⟨hname, hstrip⟩ := hensure _ h
      refine ⟨hname, u, rfl, ?_⟩
      obtain (rfl | rfl) | hu := guardPattern_iff.mp hguard
      · cases hname.chars.1 hstrip.symm
      · cases hname.chars.1 hstrip.symm
      · exact eq_of_strip hu hstrip
  | proxied verify header =>
    dsimp only [location] at h
    unfold locationProxied at h
    by_cases hverify : verify = "SUCCESS".toList
    · rw [if_neg (not_not.mpr hverify)] at h
      dsimp only at h
      rw [search_usernamePattern] at h
      cases hguard : USERNAME_PATTERN.isMatch (header.getD []) with
      | false =>
        rw [hguard, if_pos (by decide)] at h
        cases h
      | true =>
        rw [hguard, if_neg (by decide)] at h
        obtain ⟨hname, hstrip⟩ := hensure _ h
        cases header with
        | none => cases hname.chars.1 hstrip.symm
        | some u =>
          exact ⟨hname, u, if_pos hverify, eq_of_strip (usernamePattern_iff.mp hguard) hstrip⟩
    · rw [if_pos hverify] at h
      cases h

/-- For a plain user, where `systemctl` succeeds, nginx goes on to the socket of the user's unit. -/
theorem Asked.location_of_name {u : Str} (hname : IsName u) {run : List Str → Completed} {stderr : Bytes}
    (hrun : run ["systemctl".toList, "start".toList, socketUnit u] = .exited 0 stderr) {asked : Asked}
    (hasked : asked = .direct u ∨ asked = .proxied "SUCCESS".toList (some u)) :
    asked.location run =
      ⟨some ensureSock, [["systemctl".toList, "start".toList, socketUnit u]], .proxied (sock u)⟩ := by
  have hne : u ≠ [] := hname.chars.1
  have hstrip : strip u = u := by
    have hstrip := strip_name hname (Or.inl rfl)
    rwa [List.append_nil] at hstrip
  have hensured : ensureDoGET run (some u) =
      { commands := [["systemctl".toList, "start".toList, socketUnit u]], status := 200, text := "OK\n".toList } := by
    have hmatch : USERNAME_PATTERN.isMatch u = true := usernamePattern_iff.mpr (Or.inl hname)
    unfold ensureDoGET
    dsimp only [Option.getD_some]
    rw [hstrip, if_neg hne, hmatch, if_neg (by decide), hrun]
    rfl
  obtain rfl | rfl := hasked
  · have hguard : guardPattern.search u = true := guardPattern_iff.mpr (Or.inr (Or.inl hname))
    unfold location locationApi
    dsimp only
    rw [hguard, if_neg (by decide), if_neg hne, hensured]
    rfl
  · have hguard : ¬ (!USERNAME_PATTERN.search u) = true := by
      rw [search_usernamePattern, usernamePattern_iff.mpr (Or.inl hname)]
      decide
    dsimp only [location]
    unfold locationProxied
    rw [if_neg (not_not.mpr rfl)]
    dsimp only [Option.getD_some]
    rw [if_neg hguard, if_neg hne, hensured]
    rfl

end FluxRest
