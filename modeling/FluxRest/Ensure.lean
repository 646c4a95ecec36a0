import FluxRest.Py.Regex
import FluxRest.Py.Url
import FluxRest.Py.Exc

/-! From the user that nginx has authenticated to the user's own server: the location of the nginx
configuration, the helper that it asks to start the socket unit, and the unit templates. -/
namespace FluxRest
open Py

/-- `[a-z_]`. -/
def isNameStart (c : Char) : Bool := ('a' ≤ c && c ≤ 'z') || c = '_'

/-- `[a-z0-9_-]`. -/
def isNameRest (c : Char) : Bool := isNameStart c || ('0' ≤ c && c ≤ '9') || c = '-'

/-- `^[a-z_][a-z0-9_-]*$`. -/
def USERNAME_PATTERN : Regex := .seq .bol (.seq (.one isNameStart) (.seq (.star isNameRest) .eol))

/-- The pattern of the location: `^$|^[a-z_][a-z0-9_-]*$`. -/
def guardPattern : Regex := .alt (.seq .bol .eol) USERNAME_PATTERN

/-- How `subprocess.run` ends. -/
inductive Completed where
  | exited (returncode : ℤ) (stderr : Bytes)
  | timeoutExpired
  | raised (err : Exc)

/-- What a request to the helper comes to: the commands it runs, the status and the text of its
answer, and what it logs as an error. -/
structure Ensured where
  commands : List (List Str)
  status : ℕ
  text : Str
  errors : List Str := []

def socketUnit (user : Str) : Str := "flux-rest-server@".toList ++ user ++ ".socket".toList

/-- `EnsureHandler.do_GET`, given what the command to start a unit comes to. -/
def ensureDoGET (run : List Str → Completed) (header : Option Str) : Ensured :=
  let remoteUser := strip (header.getD [])
  if remoteUser = [] then { commands := [], status := 401, text := "No authenticated user".toList }
  else if !USERNAME_PATTERN.isMatch remoteUser then
    { commands := [], status := 403, text := "Invalid username format: ".toList ++ remoteUser }
  else
    let unitName := socketUnit remoteUser
    let command := ["systemctl".toList, "start".toList, unitName]
    match run command with
    | .exited returncode stderr =>
      if returncode ≠ 0 then
        { commands := [command], status := 500
          text := "Failed to start ".toList ++ unitName ++ ": ".toList ++ decode stderr
          errors := ["systemctl start ".toList ++ unitName ++ " failed: ".toList ++ decode stderr] }
      else { commands := [command], status := 200, text := "OK\n".toList }
    | .timeoutExpired =>
      { commands := [command], status := 504, text := "Timeout starting ".toList ++ unitName }
    | .raised err =>
      { commands := [command], status := 500, text := "Internal error: ".toList ++ err.message
        errors := ["Unexpected error: ".toList ++ err.message] }

/-- What nginx does with a request: it answers itself, or hands it to a socket. -/
inductive Front where
  | denied (status : ℕ)
  | proxied (socket : Str)

/-- `$sock`. -/
def sock (remoteUser : Str) : Str := "/run/flux-rest-server/".toList ++ remoteUser ++ ".sock".toList

/-- Where `location = /_ensure` sends its requests, which is `ListenStream` of the helper's socket unit
`flux-rest-server-ensure.socket`. -/
def ensureSock : Str := "/run/flux-rest-server/ensure.sock".toList

/-- What comes of a request to nginx, where the helper is behind its socket. -/
structure Located where
  /-- The socket that the subrequest of `auth_request` goes to. -/
  subrequest : Option Str := none
  /-- The commands that the helper runs for it. -/
  commands : List (List Str) := []
  front : Front

/-- `auth_request`: what nginx does with the request, once the subrequest is answered. -/
def authRequest (status : ℕ) (socket : Str) : Front :=
  if 200 ≤ status ∧ status < 300 then .proxied socket
  else if status = 401 ∨ status = 403 then .denied status
  else .denied 500

/-- `location /api/`, where `$remote_user` is `remoteUser`: the guard, the subrequest to the helper
with `X-Remote-User`, and the socket the request goes to. -/
def locationApi (run : List Str → Completed) (remoteUser : Str) : Located :=
  if !guardPattern.search remoteUser then { front := .denied 403 }
  else
    let ensured := ensureDoGET run (if remoteUser = [] then none else some remoteUser)
    { subrequest := some ensureSock
      commands := ensured.commands
      front := authRequest ensured.status (sock remoteUser) }

/-! The unit templates: `%i` is the text between the `@` and the suffix of the unit's name. -/

def instanceOf (unit : Str) : Str := (after '.' (after '@' unit).reverse).reverse

/-- A setting of a template, for one instance. -/
def expand (i : Str) : Str → Str
  | '%' :: 'i' :: s => i ++ expand i s
  | c :: s => c :: expand i s
  | [] => []

/-- `ListenStream` of `flux-rest-server@.socket`. -/
def listenStream (unit : Str) : Str :=
  expand (instanceOf unit) "/run/flux-rest-server/%i.sock".toList

/-- The service a socket unit activates. -/
def serviceOf (unit : Str) : Str := (after '.' unit.reverse).reverse ++ ".service".toList

/-- `User` of `flux-rest-server@.service`. -/
def serviceUser (unit : Str) : Str := expand (instanceOf unit) "%i".toList

/-- A plain username. -/
def IsName (u : Str) : Prop :=
  ∃ c cs, u = c :: cs ∧ isNameStart c = true ∧ ∀ x ∈ cs, isNameRest x = true

theorem usernamePattern_iff {s : Str} : USERNAME_PATTERN.isMatch s = true ↔
    IsName s ∨ ∃ u, IsName u ∧ s = u ++ ['\n'] := by
  rw [Regex.isMatch_iff]
  constructor
  · intro h
    obtain ⟨x, hx⟩ := h
    obtain ⟨y, hy, hx⟩ := Regex.mem_seq.mp hx
    obtain ⟨-, rfl⟩ := Regex.mem_bol.mp hy
    obtain ⟨y, hy, hx⟩ := Regex.mem_seq.mp hx
    obtain ⟨c, t, hs, hc, rfl⟩ := Regex.mem_one.mp hy
    obtain ⟨y, hy, hx⟩ := Regex.mem_seq.mp hx
    obtain ⟨cs, ht, hcs, -⟩ := Regex.mem_star.mp hy
    obtain ⟨hend, -⟩ := Regex.mem_eol.mp hx
    dsimp only at hs ht
    have hname : IsName (c :: cs) := ⟨c, cs, rfl, hc, hcs⟩
    obtain hend | hend := hend
    · left
      rw [hs, ht, hend, List.append_nil]
      exact hname
    · right
      refine ⟨c :: cs, hname, ?_⟩
      rw [hs, ht, hend]
      rfl
  · intro h
    have hmatch : ∀ c cs rest, isNameStart c = true → (∀ x ∈ cs, isNameRest x = true) →
        (rest = [] ∨ rest = ['\n']) → ∃ x, x ∈ USERNAME_PATTERN.ends ⟨true, c :: (cs ++ rest)⟩ := by
      intro c cs rest hc hcs hrest
      refine ⟨⟨false && cs.isEmpty, rest⟩, Regex.mem_seq.mpr ⟨_, Regex.mem_bol.mpr ⟨rfl, rfl⟩, ?_⟩⟩
      refine Regex.mem_seq.mpr ⟨_, Regex.mem_one.mpr ⟨c, cs ++ rest, rfl, hc, rfl⟩, ?_⟩
      refine Regex.mem_seq.mpr ⟨⟨false && cs.isEmpty, rest⟩,
        Regex.mem_star.mpr ⟨cs, rfl, hcs, rfl⟩, ?_⟩
      exact Regex.mem_eol.mpr ⟨hrest, rfl⟩
    obtain ⟨c, cs, rfl, hc, hcs⟩ | ⟨u, ⟨c, cs, rfl, hc, hcs⟩, rfl⟩ := h
    · have h := hmatch c cs [] hc hcs (Or.inl rfl)
      rw [List.append_nil] at h
      exact h
    · exact hmatch c cs ['\n'] hc hcs (Or.inr rfl)

/-- The location lets through the empty text, names, and either with a newline at its end. -/
theorem guardPattern_iff {s : Str} : guardPattern.search s = true ↔
    (s = [] ∨ s = ['\n']) ∨ IsName s ∨ ∃ u, IsName u ∧ s = u ++ ['\n'] := by
  have hanchored : ∀ s, guardPattern.ends ⟨false, s⟩ = [] := by
    intro s
    rw [List.eq_nil_iff_forall_not_mem]
    intro x hx
    obtain hx | hx := Regex.mem_alt.mp hx
    · obtain ⟨y, hy, -⟩ := Regex.mem_seq.mp hx
      cases (Regex.mem_bol.mp hy).1
    · obtain ⟨y, hy, -⟩ := Regex.mem_seq.mp hx
      cases (Regex.mem_bol.mp hy).1
  rw [Regex.search_of_anchored hanchored, ← usernamePattern_iff, Regex.isMatch_iff, Regex.isMatch_iff]
  constructor
  · intro h
    obtain ⟨x, hx⟩ := h
    obtain hx | hx := Regex.mem_alt.mp hx
    · left
      obtain ⟨y, hy, hx⟩ := Regex.mem_seq.mp hx
      obtain ⟨-, rfl⟩ := Regex.mem_bol.mp hy
      exact (Regex.mem_eol.mp hx).1
    · exact Or.inr ⟨x, hx⟩
  · intro h
    obtain hs | ⟨x, hx⟩ := h
    · refine ⟨⟨true, s⟩, Regex.mem_alt.mpr (Or.inl (Regex.mem_seq.mpr ⟨⟨true, s⟩, ?_, ?_⟩))⟩
      · exact Regex.mem_bol.mpr ⟨rfl, rfl⟩
      · exact Regex.mem_eol.mpr ⟨hs, rfl⟩
    · exact ⟨x, Regex.mem_alt.mpr (Or.inr hx)⟩

theorem toNat_of_nameRest {c : Char} (h : isNameRest c = true) : 45 ≤ c.toNat ∧ c.toNat ≤ 122 := by
  simp only [isNameRest, isNameStart, Bool.or_eq_true, Bool.and_eq_true, decide_eq_true_eq,
    Char.le_def, UInt32.le_iff_toNat_le] at h
  rcases h with ((h | rfl) | h) | rfl
  · exact ⟨le_trans (by decide) h.1, h.2⟩
  · decide
  · exact ⟨le_trans (by decide) h.1, le_trans h.2 (by decide)⟩
  · decide

theorem not_isSpace_of_nameRest {c : Char} (h : isNameRest c = true) : isSpace c = false := by
  have hrange := toNat_of_nameRest h
  simp [isSpace]
  omega

theorem IsName.chars {u : Str} (h : IsName u) : u ≠ [] ∧ ∀ c ∈ u, isNameRest c = true := by
  obtain ⟨c, cs, rfl, hc, hcs⟩ := h
  refine ⟨List.cons_ne_nil _ _, ?_⟩
  intro x hx
  obtain rfl | hx := List.mem_cons.mp hx
  · rw [isNameRest, hc]
    rfl
  · exact hcs x hx

/-- The header of a name, or of a name with a newline after it, is read as the name. -/
theorem strip_name {u t : Str} (h : IsName u) (ht : t = [] ∨ t = ['\n']) : strip (u ++ t) = u := by
  apply strip_append
  · intro c hc
    exact not_isSpace_of_nameRest (h.chars.2 c hc)
  · intro c hc
    obtain rfl | rfl := ht
    · cases hc
    · rw [List.mem_singleton.mp hc]
      decide

theorem commands_of_name {u : Str} (h : IsName u) {header : Str} (hheader : strip header = u)
    (run : List Str → Completed) : (ensureDoGET run (some header)).commands =
      [["systemctl".toList, "start".toList, socketUnit u]] := by
  have hmatch : USERNAME_PATTERN.isMatch u = true := usernamePattern_iff.mpr (Or.inl h)
  unfold ensureDoGET
  dsimp only [Option.getD_some]
  rw [hheader, if_neg h.chars.1, hmatch]
  rw [if_neg (by decide)]
  split
  · split_ifs <;> rfl
  · rfl
  · rfl

/-- `%i` of a user's units is the user. -/
theorem instanceOf_unit {t : Str} (ht : '.' ∉ t) (u : Str) :
    instanceOf ("flux-rest-server@".toList ++ u ++ '.' :: t) = u := by
  have hname : '@' ∉ "flux-rest-server".toList := by decide
  have hat : after '@' ("flux-rest-server@".toList ++ u ++ '.' :: t) = u ++ '.' :: t := by
    have hsplit : "flux-rest-server@".toList = "flux-rest-server".toList ++ ['@'] := rfl
    rw [hsplit, List.append_assoc, List.append_assoc, after_append hname]
    rfl
  have hdot : after '.' (u ++ '.' :: t).reverse = u.reverse := by
    have hreverse : '.' ∉ t.reverse := by rwa [List.mem_reverse]
    rw [List.reverse_append, List.reverse_cons, List.append_assoc, after_append hreverse]
    rfl
  unfold instanceOf
  rw [hat, hdot, List.reverse_reverse]

theorem socketUnit_eq (u : Str) :
    socketUnit u = "flux-rest-server@".toList ++ u ++ '.' :: "socket".toList := by
  have hsocket : ".socket".toList = '.' :: "socket".toList := by decide
  exact congrArg ("flux-rest-server@".toList ++ u ++ ·) hsocket

theorem expand_append {s : Str} (h : '%' ∉ s) (i t : Str) :
    expand i (s ++ t) = s ++ expand i t := by
  induction s with
  | nil => rfl
  | cons c s ih =>
    obtain ⟨hc, hs⟩ := not_or.mp (mt List.mem_cons.mpr h)
    rw [List.cons_append, expand, ih hs]
    · rfl
    · intro s' hc'
      exact absurd hc'.symm hc

/-- A setting with one `%i`. -/
theorem expand_instance {s t : Str} (hs : '%' ∉ s) (ht : '%' ∉ t) (i : Str) :
    expand i (s ++ '%' :: 'i' :: t) = s ++ i ++ t := by
  have htail := expand_append ht i []
  rw [List.append_nil, expand, List.append_nil] at htail
  rw [expand_append hs, expand, htail, List.append_assoc]

theorem instanceOf_socketUnit (u : Str) : instanceOf (socketUnit u) = u := by
  have hsocket : '.' ∉ "socket".toList := by decide
  rw [socketUnit_eq]
  exact instanceOf_unit hsocket u

theorem listenStream_socketUnit (u : Str) : listenStream (socketUnit u) = sock u := by
  have hdir : '%' ∉ "/run/flux-rest-server/".toList := by decide
  have hsuffix : '%' ∉ ".sock".toList := by decide
  have htemplate : "/run/flux-rest-server/%i.sock".toList =
      "/run/flux-rest-server/".toList ++ '%' :: 'i' :: ".sock".toList := by decide
  unfold listenStream
  rw [instanceOf_socketUnit]
  exact (congrArg (expand u) htemplate).trans (expand_instance hdir hsuffix u)

theorem serviceUser_socketUnit (u : Str) : serviceUser (serviceOf (socketUnit u)) = u := by
  have hsocket : '.' ∉ "socket".toList.reverse := by decide
  have hservice : '.' ∉ "service".toList := by decide
  have hname : serviceOf (socketUnit u) =
      "flux-rest-server@".toList ++ u ++ '.' :: "service".toList := by
    unfold serviceOf
    rw [socketUnit_eq, List.reverse_append, List.reverse_cons, List.append_assoc,
      after_append hsocket]
    change (List.reverse ("flux-rest-server@".toList ++ u)).reverse ++ _ = _
    rw [List.reverse_reverse]
    rfl
  unfold serviceUser
  rw [hname, instanceOf_unit hservice]
  simp [expand]

theorem sock_inj {u u' : Str} (h : sock u = sock u') : u = u' :=
  List.append_cancel_left (List.append_cancel_right h)

theorem socketUnit_inj {u u' : Str} (h : socketUnit u = socketUnit u') : u = u' :=
  List.append_cancel_left (List.append_cancel_right h)

theorem authRequest_proxied {status : ℕ} {socket socket' : Str}
    (h : authRequest status socket = .proxied socket') : socket' = socket := by
  unfold authRequest at h
  split_ifs at h
  exact (Front.proxied.inj h).symm

end FluxRest
