import FluxRest.Py.Json
import FluxRest.Py.Http

/-! What the server relies on from outside its source: the Flux Python bindings, the account
it runs as, and the interpreter. -/
namespace FluxRest
open Py

/-- The Flux bindings. Every call may return or raise as it likes, and may depend on whatever
state lies behind them. -/
structure Flux where
  State : Type
  Handle : Type
  JobID : Type
  Jobspec : Type
  JobInfo : Type
  /-- `flux.Flux()`. -/
  connect : Proc State Handle
  /-- `h.attr_get(name)`. -/
  attrGet : Handle → Str → Proc State Str
  /-- `flux.job.JobspecV1.from_command(command, **kwargs)`. -/
  fromCommand : List Str → List (Str × Json) → Proc State Jobspec
  /-- `flux.job.submit(h, jobspec)`. -/
  submit : Handle → Jobspec → Proc State JobID
  /-- `flux.job.cancel(h, jobid, reason=reason)`. -/
  cancel : Handle → JobID → Option Str → Proc State Unit
  /-- `flux.job.list.job_list_id(h, jobid, attrs=["all"]).get_jobinfo()`. -/
  jobListId : Handle → JobID → Proc State JobInfo
  /-- `info.to_dict()`. -/
  toDict : JobInfo → Proc State (List (Str × Json))
  /-- `flux.job.JobID(s)`; an error is the text of its `ValueError`. -/
  jobId : Str → Except Str JobID
  f58plain : JobID → Str
  /-- The plain F58 encoding is ASCII. -/
  f58plain_ascii : ∀ j, ∀ c ∈ f58plain j, c.toNat < 128

structure Passwd where
  name : Str
  dir : Str
  shell : Str

/-- The account and the interpreter the server runs under. -/
structure Site where
  uid : ℕ
  /-- `pwd.getpwuid(os.getuid())`; `none` is its `KeyError`. -/
  passwd : Option Passwd
  pythonVersion : Str
  date : Str
  /-- The interpreter's limit on the digits `int` reads, where it has one. -/
  intLimit : Option ℕ
  /-- `json.loads`. -/
  loads : Bytes → Except LoadsError Json
  loads_empty : loads (encode "\x7b\x7d".toList) = .ok (.obj [])
  /-- What `urlsplit` has against an authority beyond an unmatched bracket. -/
  hostError : Str → Option Str
  /-- `repr` of a text. -/
  repr : Str → Str
  /-- The page `send_error` shows for a status and a message. -/
  errorPage : ℕ → Str → Str

/-- A call on the Flux bindings, with its outcome. -/
inductive FluxCall (F : Flux) where
  | connect (r : Except Exc F.Handle)
  | attrGet (name : Str) (r : Except Exc Str)
  | fromCommand (command : List Str) (kwargs : List (Str × Json)) (r : Except Exc F.Jobspec)
  | submit (jobspec : F.Jobspec) (r : Except Exc F.JobID)
  | cancel (jobid : F.JobID) (reason : Option Str) (r : Except Exc Unit)
  | jobListId (jobid : F.JobID) (r : Except Exc F.JobInfo)
  | toDict (r : Except Exc (List (Str × Json)))

/-- A route function about to run, with its arguments. -/
inductive RouteCall (F : Flux) where
  | get (key : Str)
  | post (key : Str) (body : List (Str × Json))
  | getJob (jobid : F.JobID)
  | deleteJob (jobid : F.JobID) (reason : Option Str)

inductive Event (F : Flux) where
  | route (c : RouteCall F)
  | call (c : FluxCall F)

/-- The state the handlers run in. -/
structure World (F : Flux) where
  flux : F.State
  /-- The module's `_handle`. -/
  handle : Option F.Handle := none
  trace : List (Event F) := []
  wire : List Http.Wire := []
  stderr : List Str := []

namespace World

variable {F : Flux}

def log (w : World F) (e : Event F) : World F := { w with trace := w.trace ++ [e] }

@[simp] theorem log_flux (w : World F) (e : Event F) : (w.log e).flux = w.flux := rfl
@[simp] theorem log_handle (w : World F) (e : Event F) : (w.log e).handle = w.handle := rfl
@[simp] theorem log_wire (w : World F) (e : Event F) : (w.log e).wire = w.wire := rfl
@[simp] theorem log_trace (w : World F) (e : Event F) : (w.log e).trace = w.trace ++ [e] := rfl

end World

variable {F : Flux}

/-- Run a Flux call against the state behind the bindings, and note it with its outcome. -/
def invoke {α : Type} (note : Except Exc α → FluxCall F) (call : Proc F.State α) :
    Proc (World F) α := fun w =>
  let r := call.run w.flux
  (r.1, { w with flux := r.2, trace := w.trace ++ [.call (note r.1)] })

theorem run_invoke {α : Type} (note : Except Exc α → FluxCall F) (call : Proc F.State α)
    (w : World F) : (invoke note call).run w =
      ((call.run w.flux).1,
        { w with flux := (call.run w.flux).2,
                 trace := w.trace ++ [.call (note (call.run w.flux).1)] }) := rfl

/-! Bindings with fixed answers, over 64-bit job ids in their plain F58 and decimal spellings. -/

def base58Alphabet : Str :=
  "123456789ABCDEFGHJKLMNPQRSTUVWXYZabcdefghijkmnopqrstuvwxyz".toList

/-- Base-58 digits, least significant first; eleven are enough for 64 bits. -/
def base58Digits : ℕ → ℕ → List ℕ
  | 0, _ => []
  | fuel + 1, n => if n < 58 then [n] else n % 58 :: base58Digits fuel (n / 58)

def f58plain (n : ℕ) : Str :=
  'f' :: (base58Digits 11 n).reverse.map fun d => base58Alphabet.getD d '1'

theorem f58plain_ascii (n : ℕ) : ∀ c ∈ f58plain n, c.toNat < 128 := by
  have hall : (base58Alphabet.all fun c => c.toNat < 128) = true := by decide
  have halphabet : ∀ c ∈ base58Alphabet, c.toNat < 128 := by
    intro c hc
    exact of_decide_eq_true (List.all_eq_true.mp hall c hc)
  intro c hc
  simp only [f58plain, List.mem_cons, List.mem_map, List.mem_reverse] at hc
  rcases hc with rfl | ⟨d, -, rfl⟩
  · decide
  · rw [List.getD_eq_getElem?_getD]
    cases hd : base58Alphabet[d]? with
    | none => decide
    | some x => exact halphabet x (List.mem_of_getElem? hd)

/-- The job id a text spells, in plain F58 or in decimal. -/
def jobIdOfText (s : Str) : Option ℕ :=
  match s with
  | 'f' :: c :: cs =>
    if (c :: cs).all base58Alphabet.contains then
      some ((c :: cs).foldl (fun n c => 58 * n + base58Alphabet.idxOf c) 0)
    else none
  | c :: cs => if (c :: cs).all isDigit then some (digitsValue 0 (c :: cs)) else none
  | [] => none

structure Answers where
  connect : Except Exc Unit := .ok ()
  attrs : Except Exc Str := .ok ['1']
  fromCommand : Except Exc Unit := .ok ()
  submit : Except Exc UInt64 := .ok 1
  cancel : Except Exc Unit := .ok ()
  jobListId : Except Exc (List (Str × Json)) := .ok []

def Flux.fixed (a : Answers) : Flux where
  State := Unit
  Handle := Unit
  JobID := UInt64
  Jobspec := Unit
  JobInfo := List (Str × Json)
  connect := Proc.ofExcept a.connect
  attrGet _ _ := Proc.ofExcept a.attrs
  fromCommand _ _ := Proc.ofExcept a.fromCommand
  submit _ _ := Proc.ofExcept a.submit
  cancel _ _ _ := Proc.ofExcept a.cancel
  jobListId _ _ := Proc.ofExcept a.jobListId
  toDict info := Proc.ofExcept (.ok info)
  jobId s :=
    match jobIdOfText s with
    | some n => if n < UInt64.size then .ok (UInt64.ofNat n) else .error ("job id out of range: ".toList ++ s)
    | none => .error ("unable to parse jobid ".toList ++ s)
  f58plain j := FluxRest.f58plain j.toNat
  f58plain_ascii j := FluxRest.f58plain_ascii j.toNat

/-- `json.loads` on the bodies the examples send. -/
def loadsSample (raw : Bytes) : Except LoadsError Json :=
  if raw = encode "\x7b\x7d".toList then .ok (.obj [])
  else if raw = encode "\x7b\"command\": [\"true\"]\x7d".toList then
    .ok (.obj [("command".toList, .arr [.str "true".toList])])
  else .error (.jsonDecodeError "Expecting value: line 1 column 1 (char 0)".toList)

def Site.fixed : Site where
  uid := 1000
  passwd := some ⟨"flux".toList, "/home/flux".toList, "/bin/sh".toList⟩
  pythonVersion := "3.11.10".toList
  date := "Thu, 01 Jan 2026 00:00:00 GMT".toList
  intLimit := some 4300
  loads := loadsSample
  loads_empty := by rfl
  hostError _ := none
  repr s := '\'' :: s ++ ['\'']
  errorPage _ message := message

example : f58plain 123456789 = "fBukQL".toList ∧ jobIdOfText "fBukQL".toList = some 123456789 := by
  decide

end FluxRest
