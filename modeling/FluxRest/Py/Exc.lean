import FluxRest.Py.Text

/-! Python exceptions, and computations over a state that may raise them. -/
namespace Py

/-- The built-in classes an `except` clause may name. -/
inductive ExcClass where
  | exception
  | osError
  | fileNotFoundError
  | permissionError
  | brokenPipeError
  | timeoutError
  | valueError
  | jsonDecodeError
  | unicodeEncodeError
  | typeError
  | runtimeError
  | recursionError
  | keyError
  deriving DecidableEq, Repr

namespace ExcClass

def base : ExcClass → Option ExcClass
  | exception => none
  | osError | valueError | typeError | runtimeError | keyError => some exception
  | fileNotFoundError | permissionError | brokenPipeError | timeoutError => some osError
  | jsonDecodeError | unicodeEncodeError => some valueError
  | recursionError => some runtimeError

/-- `issubclass(c, d)`; no chain of bases is longer than two. -/
def isSubclass (c d : ExcClass) : Bool :=
  c == d || c.base.any fun b => b == d || b.base.any (· == d)

theorem isSubclass_base {c d b : ExcClass} (hb : d.base = some b) (h : c.isSubclass d) :
    c.isSubclass b := by
  cases d <;> simp only [base, Option.some.injEq, reduceCtorEq] at hb <;> subst hb <;>
    cases c <;> first | rfl | simp [isSubclass, base] at h

theorem isSubclass_exception (c : ExcClass) : c.isSubclass exception := by
  cases c <;> rfl

end ExcClass

/-- An instance of a subclass of `Exception`, built in or not: the listed classes it is an
instance of, closed under bases, with its `errno` and its `str()`. -/
structure Exc where
  classes : ExcClass → Bool
  isException : classes .exception
  closed : ∀ {c b}, c.base = some b → classes c → classes b
  errno : Option ℤ
  message : Str

namespace Exc

/-- `isinstance(err, c)`. -/
def isA (e : Exc) (c : ExcClass) : Bool := e.classes c

/-- A direct instance of a built-in class. -/
def ofClass (c : ExcClass) (message : Str) (errno : Option ℤ := none) : Exc where
  classes := c.isSubclass
  isException := c.isSubclass_exception
  closed := ExcClass.isSubclass_base
  errno := errno
  message := message

@[simp] theorem isA_ofClass (c d : ExcClass) (m : Str) (n : Option ℤ) :
    (ofClass c m n).isA d = c.isSubclass d := rfl

@[simp] theorem errno_ofClass (c : ExcClass) (m : Str) (n : Option ℤ) :
    (ofClass c m n).errno = n := rfl

theorem isA_osError_of_fileNotFound {e : Exc} (h : e.isA .fileNotFoundError) :
    e.isA .osError := e.closed rfl h

theorem isA_osError_of_permission {e : Exc} (h : e.isA .permissionError) :
    e.isA .osError := e.closed rfl h

end Exc

def EPERM : ℤ := 1
def ENOENT : ℤ := 2
def EACCES : ℤ := 13
def EINVAL : ℤ := 22
def EPIPE : ℤ := 32
def ETIMEDOUT : ℤ := 110

/-- The subclass of `OSError` that `OSError(errno, ...)` is an instance of. -/
def osErrorClass (errno : ℤ) : ExcClass :=
  if errno = ENOENT then .fileNotFoundError
  else if errno = EPERM ∨ errno = EACCES then .permissionError
  else if errno = EPIPE then .brokenPipeError
  else if errno = ETIMEDOUT then .timeoutError
  else .osError

/-- `OSError(errno, message)`. -/
def osError (errno : ℤ) (message : Str) : Exc :=
  .ofClass (osErrorClass errno) message (some errno)

@[simp] theorem errno_osError (n : ℤ) (m : Str) : (osError n m).errno = some n := rfl

@[simp] theorem osError_isA_osError (n : ℤ) (m : Str) : (osError n m).isA .osError := by
  simp only [osError, Exc.isA_ofClass, osErrorClass]
  split_ifs <;> rfl

@[simp] theorem osError_isA_fileNotFound (n : ℤ) (m : Str) :
    (osError n m).isA .fileNotFoundError = decide (n = ENOENT) := by
  simp only [osError, Exc.isA_ofClass, osErrorClass]
  split_ifs <;> simp_all [ExcClass.isSubclass, ExcClass.base]

@[simp] theorem osError_isA_permission (n : ℤ) (m : Str) :
    (osError n m).isA .permissionError = decide (n = EPERM ∨ n = EACCES) := by
  simp only [osError, Exc.isA_ofClass, osErrorClass]
  split_ifs <;> simp_all [ExcClass.isSubclass, ExcClass.base, ENOENT, EPERM, EACCES]

/-- A computation over a state: it returns or raises, and what it did to the state stays. -/
def Proc (σ α : Type) : Type := σ → Except Exc α × σ

namespace Proc

variable {σ α β γ : Type}

def run (x : Proc σ α) (s : σ) : Except Exc α × σ := x s

instance : Monad (Proc σ) where
  pure a := fun s => (.ok a, s)
  bind x f := fun s =>
    match x s with
    | (.ok a, t) => f a t
    | (.error e, t) => (.error e, t)

instance : MonadExcept Exc (Proc σ) where
  throw e := fun s => (.error e, s)
  tryCatch x h := fun s =>
    match x s with
    | (.ok a, t) => (.ok a, t)
    | (.error e, t) => h e t

instance : MonadStateOf σ (Proc σ) where
  get := fun s => (.ok s, s)
  set t := fun _ => (.ok (), t)
  modifyGet f := fun s => (.ok (f s).1, (f s).2)

/-- A result computed without the state. -/
def ofExcept (r : Except Exc α) : Proc σ α := fun s => (r, s)

@[simp] theorem run_pure (a : α) (s : σ) : (pure a : Proc σ α).run s = (.ok a, s) := rfl

theorem run_bind (x : Proc σ α) (f : α → Proc σ β) (s : σ) :
    (x >>= f).run s =
      match x.run s with
      | (.ok a, t) => (f a).run t
      | (.error e, t) => (.error e, t) := rfl

theorem run_bind_ok {x : Proc σ α} {s t : σ} {a : α} (h : x.run s = (.ok a, t))
    (f : α → Proc σ β) : (x >>= f).run s = (f a).run t := by rw [run_bind, h]

theorem run_bind_error {x : Proc σ α} {s t : σ} {e : Exc} (h : x.run s = (.error e, t))
    (f : α → Proc σ β) : (x >>= f).run s = (.error e, t) := by rw [run_bind, h]

@[simp] theorem run_throw (e : Exc) (s : σ) : (throw e : Proc σ α).run s = (.error e, s) := rfl

theorem run_tryCatch (x : Proc σ α) (h : Exc → Proc σ α) (s : σ) :
    (tryCatch x h).run s =
      match x.run s with
      | (.ok a, t) => (.ok a, t)
      | (.error e, t) => (h e).run t := rfl

theorem run_tryCatch_ok {x : Proc σ α} {s t : σ} {a : α} (hx : x.run s = (.ok a, t))
    (h : Exc → Proc σ α) : (tryCatch x h).run s = (.ok a, t) := by rw [run_tryCatch, hx]

theorem run_tryCatch_error {x : Proc σ α} {s t : σ} {e : Exc} (hx : x.run s = (.error e, t))
    (h : Exc → Proc σ α) : (tryCatch x h).run s = (h e).run t := by rw [run_tryCatch, hx]

@[simp] theorem run_get (s : σ) : (get : Proc σ σ).run s = (.ok s, s) := rfl

@[simp] theorem run_modify (f : σ → σ) (s : σ) :
    (modify f : Proc σ Unit).run s = (.ok (), f s) := rfl

theorem map_ofExcept (f : α → β) (r : Except Exc α) :
    (f <$> ofExcept r : Proc σ β) = ofExcept (r.map f) := by
  cases r <;> rfl

@[simp] theorem run_ofExcept (r : Except Exc α) (s : σ) : (ofExcept r).run s = (r, s) := rfl

end Proc
end Py
