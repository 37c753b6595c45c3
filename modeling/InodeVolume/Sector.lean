import InodeVolume.Fault

/-!
# Sector numbers

A sector is named by a number below 2^64. On disk it is a 32-bit pointer, and
the pointer 0 names no sector.
-/

namespace InodeVolume

abbrev Sector := Nat

namespace Sector

/-- The number that on disk stands for "no sector". -/
def null : Sector := 0

def isNull (s : Sector) : Bool := s == null

/-- One past the greatest sector number. -/
def limit : Nat := UInt64.size

def add? (s : Sector) (n : Nat) : Except Fault Sector :=
  if s + n < limit then .ok (s + n) else .error .overflow

def toPointer (s : Sector) : Except Fault UInt32 :=
  if s < UInt32.size then .ok (UInt32.ofNat s) else .error (.beyondDisk s)

def ofPointer (p : UInt32) : Option Sector :=
  if p = 0 then none else some p.toNat

theorem ofPointer_eq_some_iff {p : UInt32} {s : Sector} :
    ofPointer p = some s ↔ p ≠ 0 ∧ p.toNat = s := by
  simp only [ofPointer]
  split <;> simp [*]

theorem toNat_of_toPointer {s : Sector} {p : UInt32} (h : toPointer s = .ok p) :
    p.toNat = s := by
  simp only [toPointer] at h
  split at h <;> simp_all
  subst h
  simp; omega

end Sector

end InodeVolume
