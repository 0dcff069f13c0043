/-! Routines: programs over the calls of an interface, as data. What is proved of a routine holds
for every reply that its surroundings may give. -/
namespace LedSequencer

/-- What a routine may ask of its surroundings: the calls, and the type of the reply to each. -/
structure Interface where
  Call : Type
  Reply : Call → Type

/-- A routine over the calls of an interface. It ends with a value, makes a call and goes on with
the reply, leaves a notice in the log, or aborts because its caller broke a precondition. -/
inductive Routine (I : Interface) (N α : Type) where
  | done (a : α)
  | call (c : I.Call) (next : I.Reply c → Routine I N α)
  | note (n : N) (next : Routine I N α)
  | abort

namespace Routine

variable {I J : Interface} {N α β γ : Type}

protected def bind : Routine I N α → (α → Routine I N β) → Routine I N β
  | done a, f => f a
  | call c next, f => call c fun reply => (next reply).bind f
  | note n next, f => note n (next.bind f)
  | abort, _ => abort

instance : Monad (Routine I N) where
  pure := done
  bind := Routine.bind

@[simp] theorem pure_eq (a : α) : (pure a : Routine I N α) = done a := rfl

@[simp] theorem done_bind (a : α) (f : α → Routine I N β) : done a >>= f = f a := rfl

@[simp] theorem call_bind (c : I.Call) (next : I.Reply c → Routine I N α) (f : α → Routine I N β) :
    call c next >>= f = call c fun reply => next reply >>= f := rfl

@[simp] theorem note_bind (n : N) (next : Routine I N α) (f : α → Routine I N β) :
    note n next >>= f = note n (next >>= f) := rfl

@[simp] theorem abort_bind (f : α → Routine I N β) : abort >>= f = abort := rfl

theorem bind_done (p : Routine I N α) : p >>= done = p := by
  induction p with
  | done a => rfl
  | call c next ih => exact congrArg (call c) (funext ih)
  | note n next ih => exact congrArg (note n) ih
  | abort => rfl

theorem bind_bind (p : Routine I N α) (f : α → Routine I N β) (g : β → Routine I N γ) :
    p >>= f >>= g = p >>= fun a => f a >>= g := by
  induction p with
  | done a => rfl
  | call c next ih => exact congrArg (call c) (funext ih)
  | note n next ih => exact congrArg (note n) ih
  | abort => rfl

instance : LawfulMonad (Routine I N) :=
  LawfulMonad.mk' _ bind_done (fun _ _ => rfl) bind_bind

/-- Carries a routine over to another interface: `h` says how each of its calls is made there. Its
notices stay where they are. -/
def handle (h : (c : I.Call) → Routine J N (I.Reply c)) : Routine I N α → Routine J N α
  | done a => done a
  | call c next => h c >>= fun reply => (next reply).handle h
  | note n next => note n (next.handle h)
  | abort => abort

variable (h : (c : I.Call) → Routine J N (I.Reply c))

@[simp] theorem handle_done (a : α) : (done a : Routine I N α).handle h = done a := rfl

@[simp] theorem handle_call_done (c : I.Call) :
    (call c done : Routine I N (I.Reply c)).handle h = h c := bind_done (h c)

/-- Carrying over respects sequencing. -/
theorem handle_bind (p : Routine I N α) (f : α → Routine I N β) :
    (p >>= f).handle h = p.handle h >>= fun a => (f a).handle h := by
  induction p with
  | done a => rfl
  | call c next ih =>
    rw [call_bind]
    simp only [handle, bind_bind, ih]
  | note n next ih => exact congrArg (note n) ih
  | abort => rfl

end Routine

class Journal (N : outParam Type) (m : Type → Type) where
  note : N → m Unit

variable {I : Interface} {N ε σ α : Type} {m : Type → Type}

instance : Journal N (Routine I N) where
  note n := .note n (.done ())

instance [Monad m] [Journal N m] : Journal N (ExceptT ε m) where
  note n := ExceptT.lift (Journal.note n)

instance [Monad m] [Journal N m] : Journal N (StateT σ m) where
  note n := StateT.lift (Journal.note n)

/-- Leaves a notice where `act` fails, and fails the same way. -/
def reporting [Monad m] [Journal N m] (notice : ε → N) (act : ExceptT ε m α) : ExceptT ε m α :=
  ExceptT.mk do
    match ← act.run with
    | .ok a => return .ok a
    | .error e =>
      Journal.note (notice e)
      return .error e

end LedSequencer
