import InodeVolume.Fault

/-!
# Actions

An action changes a state and either returns or stops at a fault. A fault keeps
the state that the action had reached.
-/

namespace InodeVolume

/-- One past the greatest size of a buffer, and the greatest offset in a file. -/
def sizeLimit : Nat := 0x8000000000000000

abbrev Action (σ β : Type) := EStateM Fault σ β

namespace Action

variable {σ τ β : Type}

def onPart (view : σ → τ) (put : τ → σ → σ) (act : Action τ β) : Action σ β := fun s =>
  match act (view s) with
  | .ok b t => .ok b (put t s)
  | .error f t => .error f (put t s)

def ofExcept (r : Except Fault β) : Action σ β := fun s =>
  match r with
  | .ok b => .ok b s
  | .error f => .error f s

/-- Like `onPart`, for a step that has a new part only when it succeeds. -/
def step (view : σ → τ) (put : τ → σ → σ) (f : τ → Except Fault (β × τ)) : Action σ β := fun s =>
  match f (view s) with
  | .ok (b, t) => .ok b (put t s)
  | .error e => .error e s

end Action

end InodeVolume
