import InodeVolume.Action
import InodeVolume.Block
import InodeVolume.Sector

/-!
# Programs

The file layer is written as programs that ask for sectors to be read, written,
allocated and released, and go on with the answers. What answers the requests
is left open: a cached volume does so in `Volume`.
-/

namespace InodeVolume

inductive Request where
  | read (s : Sector)
  | write (s : Sector) (data : Block)
  | allocate
  | release (s : Sector)

namespace Request

abbrev Answer : Request → Type
  | read _ => Block
  | write _ _ => Unit
  | allocate => Option Sector
  | release _ => Unit

end Request

inductive Program (β : Type) where
  | done (b : β)
  | fault (f : Fault)
  | ask (r : Request) (next : r.Answer → Program β)

namespace Program

variable {σ β γ : Type}

def bind : Program β → (β → Program γ) → Program γ
  | done b, k => k b
  | fault f, _ => fault f
  | ask r next, k => ask r fun a => (next a).bind k

instance : Monad Program where
  pure := done
  bind := bind

@[simp] theorem done_bind (b : β) (k : β → Program γ) : done b >>= k = k b := rfl

@[simp] theorem fault_bind (f : Fault) (k : β → Program γ) : fault f >>= k = fault f := rfl

@[simp] theorem ask_bind (r : Request) (next : r.Answer → Program β) (k : β → Program γ) :
    ask r next >>= k = ask r fun a => next a >>= k := rfl

theorem bind_done (p : Program β) : p.bind done = p := by
  induction p with
  | done b => rfl
  | fault f => rfl
  | ask r next ih => exact congrArg (ask r) (funext ih)

theorem bind_bind {ε : Type} (p : Program β) (f : β → Program γ) (g : γ → Program ε) :
    (p.bind f).bind g = p.bind fun b => (f b).bind g := by
  induction p with
  | done b => rfl
  | fault e => rfl
  | ask r next ih => exact congrArg (ask r) (funext ih)

instance : LawfulMonad Program :=
  LawfulMonad.mk' Program bind_done (fun _ _ => rfl) bind_bind

def read (s : Sector) : Program Block := ask (.read s) done

def write (s : Sector) (data : Block) : Program Unit := ask (.write s data) done

def allocate : Program (Option Sector) := ask .allocate done

def release (s : Sector) : Program Unit := ask (.release s) done

def ofExcept : Except Fault β → Program β
  | .ok b => done b
  | .error f => fault f

def require (p : Prop) [Decidable p] (f : Fault) : Program Unit :=
  if p then done () else fault f

def run (answer : (r : Request) → Action σ r.Answer) : Program β → Action σ β
  | done b => pure b
  | fault f => throw f
  | ask r next => do
    let a ← answer r
    run answer (next a)

theorem run_bind (answer : (r : Request) → Action σ r.Answer) (p : Program β)
    (k : β → Program γ) :
    run answer (p >>= k) = run answer p >>= fun b => run answer (k b) := by
  induction p with
  | done b => rfl
  | fault f => rfl
  | ask r next ih =>
    funext s
    change (answer r >>= fun a => run answer (next a >>= k)) s =
      ((answer r >>= fun a => run answer (next a)) >>= fun b => run answer (k b)) s
    simp only [ih]
    change EStateM.bind (answer r) _ s = EStateM.bind (EStateM.bind (answer r) _) _ s
    simp only [EStateM.bind]
    cases answer r s <;> rfl

end Program

end InodeVolume
