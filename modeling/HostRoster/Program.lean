/-!
# Programs that ask

A program is a finite tree: it ends with a value, or it asks a request and goes on
according to the reply. Nothing is fixed about who replies, so whatever is proved
of a program holds against every remote side.
-/
namespace HostRoster

/-- The requests that may be asked, each with the type of its reply. -/
structure Interface where
  Request : Type
  Reply : Request → Type

/-- A computation that asks requests of an interface and ends with a value. -/
inductive Program (I : Interface) (α : Type) where
  | done (value : α)
  | ask (request : I.Request) (next : I.Reply request → Program I α)

namespace Program

variable {I J : Interface} {α β γ : Type}

def bind : Program I α → (α → Program I β) → Program I β
  | .done value, f => f value
  | .ask request next, f => .ask request fun reply => (next reply).bind f

instance : Monad (Program I) where
  pure := .done
  bind := bind

/-- The program that asks one request and ends with its reply. -/
def request (r : I.Request) : Program I (I.Reply r) := .ask r .done

@[simp] theorem pure_eq (value : α) : (pure value : Program I α) = .done value := rfl

@[simp] theorem done_bind (value : α) (f : α → Program I β) :
    (Program.done value >>= f) = f value := rfl

@[simp] theorem ask_bind (r : I.Request) (next : I.Reply r → Program I α) (f : α → Program I β) :
    (Program.ask r next >>= f) = .ask r fun reply => next reply >>= f := rfl

theorem bind_done (p : Program I α) : (p >>= Program.done) = p := by
  induction p with
  | done value => rfl
  | ask r next ih => exact congrArg (Program.ask r) (funext ih)

theorem bind_bind (p : Program I α) (f : α → Program I β) (g : β → Program I γ) :
    (p >>= f >>= g) = (p >>= fun value => f value >>= g) := by
  induction p with
  | done value => rfl
  | ask r next ih => exact congrArg (Program.ask r) (funext ih)

instance : LawfulMonad (Program I) :=
  LawfulMonad.mk' (Program I) bind_done (fun _ _ => rfl) bind_bind

/-- Carries out every request of one interface by a program of another. -/
def interpret (f : (r : I.Request) → Program J (I.Reply r)) : Program I α → Program J α
  | .done value => .done value
  | .ask r next => f r >>= fun reply => (next reply).interpret f

end Program

end HostRoster
