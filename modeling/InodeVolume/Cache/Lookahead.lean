import InodeVolume.Sector

/-!
# Lookahead

The one sector that is expected to be read next. A new expectation replaces an
older one that nobody has taken up.
-/

namespace InodeVolume

structure Lookahead where
  target : Option Sector := none
  /-- Whether a listener is told of each new expectation. -/
  listening : Bool := false
  /-- How often the listener was told. -/
  wakes : Nat := 0
deriving DecidableEq, Repr

namespace Lookahead

def expect (l : Lookahead) (s : Sector) : Lookahead :=
  { l with target := some s, wakes := if l.listening then l.wakes + 1 else l.wakes }

def take (l : Lookahead) : Option Sector × Lookahead := (l.target, { l with target := none })

end Lookahead

end InodeVolume
