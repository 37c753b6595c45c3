import InodeVolume.Cache.Basic

/-!
# Cache agents

Two helpers beside the readers of a cache: one loads the sector that is
expected next, the other empties the cache from time to time. Here each runs in
step with its reader.
-/

namespace InodeVolume

namespace Cache

variable {δ : Type} [Device δ]

/-- Milliseconds between two flushes. -/
def flushInterval : Nat := 10000

def follow (target : Option Sector) : Action (Cache δ) Bool := do
  match target with
  | some s =>
    prefetch s
    return true
  | none => return false

def followOwn : Action (Cache δ) Bool := do
  let (target, lookahead) := (← get).lookahead.take
  modify fun c => { c with lookahead }
  follow target

/-- What an agent does, and whether it lives on: at a fault it ends without a word. -/
def byAgent {β : Type} (act : Action (Cache δ) β) : Action (Cache δ) Bool := fun c =>
  match act c with
  | .ok _ c => .ok true c
  | .error _ c => .ok false c

def readFollowed (alive : Bool) : List Sector → Action (Cache δ) (List Block)
  | [] => return []
  | s :: rest => do
    let data ← read s
    let alive ← if alive then byAgent followOwn else pure false
    return data :: (← readFollowed alive rest)

/-- Reads sectors while an agent follows each expectation. The agent listens in the
place of any other listener, and nobody does after it. -/
def readWithAgent (sectors : List Sector) : Action (Cache δ) (List Block) := do
  let listen (c : Cache δ) := { c with lookahead := { c.lookahead with listening := false } }
  modify listen
  readFollowed true sectors

/-- Waits for an agent to empty the cache. Sectors that the device does not have are
not waited for, and without any others the agent gets no chance to flush. -/
def drainWithAgent : Action (Cache δ) Unit := do
  if (← get).deviceOccupancy.isEmpty then return
  let _ ← byAgent drain
  if !(← get).deviceOccupancy.isEmpty then throw .silentAgent

end Cache

end InodeVolume
