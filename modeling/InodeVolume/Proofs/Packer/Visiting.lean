import InodeVolume.Packer.Basic
import InodeVolume.Proofs.File.Coping
import InodeVolume.Proofs.File.Looking
import InodeVolume.Proofs.System.Changes

/-!
# Visits to a file

A visit opens one file, looks at it and closes it again. Since nobody else has the file open and
nobody has removed it, the close has nothing to discard: a visit only reads, whatever is in the
record and in the tables.
-/

namespace InodeVolume

open Program

variable {β γ : Type} {g : Registry} {id : InodeId}

/-- What follows has only to read after results that there can be. -/
theorem Program.Reads.bind_of_yields {p : Program γ} {next : γ → Program β} (h : p.Reads)
    {post : γ → Prop} (yields : p.Yields post) (rest : ∀ c, post c → (next c).Reads) :
    (p >>= next).Reads := by
  induction p with
  | done c => exact rest c yields
  | fault f => exact reads_fault f
  | ask r answered ih =>
    obtain ⟨asked, reads⟩ := reads_ask.mp h
    exact reads_ask.mpr ⟨asked, fun a => ih a (reads a) (yields a)⟩

theorem Registry.reads_close {i : Inode} (found : g.inodes[id]? = some i)
    (kept : i.removed = false) : ((close id).run g).Reads := by
  have dropped : ((liftM (Program.ofExcept i.dropOpener) : Filing Inode).run g).Yields
      fun p => p.1.removed = false := by
    rw [yields_lift, yields_ofExcept]
    intro j done
    obtain ⟨_, _, rfl⟩ := Inode.dropOpener_eq_ok done
    exact kept
  simp only [close, StateT.run_bind, run_inode found, pure_bind]
  apply ((reads_ofExcept i.dropOpener).lift g).bind_of_yields dropped
  rintro ⟨j, g'⟩ kept'
  simp only at kept'
  simp only [run_put, pure_bind, kept', Bool.false_eq_true, if_false]
  split
  · exact reads_pure _
  · exact reads_pure _

/-- Who opens a file that nobody has open gets an inode of its own. -/
theorem Registry.yields_openAt_fresh {home : Sector} (unopened : g.opened[home]? = none) :
    ((openAt home).run g).Yields fun p => ∃ record, p.2.inodes[p.1]? = some { home, record } := by
  refine yields_openAt (fun id i seen => ?_) fun _ record => ⟨record, Array.getElem?_push_size⟩
  rw [unopened] at seen
  cases seen

namespace Packer

def visit (home : Sector) (look : InodeId → Filing β) : Filing β := do
  let id ← Registry.openAt home
  let b ← look id
  Registry.close id
  return b

def slurp (id : InodeId) : Filing (List UInt8) := do
  let size := (← Registry.inode id).record.size
  Program.require (size < sizeLimit) .capacityOverflow
  Registry.read id 0 size

theorem contentOf_eq (home : Sector) : contentOf home = visit home slurp := by
  simp only [contentOf, visit, slurp, bind_assoc]

/-- What is done with an open file only reads, and leaves the registry alone. -/
structure OnlyLooks (look : InodeId → Filing β) : Prop where
  reads (id : InodeId) (g : Registry) : ((look id).run g).Reads
  same (id : InodeId) (g : Registry) : ((look id).run g).Yields fun p => p.2 = g

theorem onlyLooks_read (offset count : Nat) :
    OnlyLooks fun id => Registry.read id offset count where
  reads id g := g.reads_read id offset count
  same id g := by
    simp only [Registry.read, StateT.run_bind, yields_bind, Registry.yields_inode, yields_lift]
    exact fun i _ => yields_of_forall fun _ => trivial

theorem onlyLooks_slurp : OnlyLooks slurp where
  reads id g := g.reads_inode_bind id fun i =>
    ((reads_require _ _).lift g).bind fun p => p.2.reads_read id 0 _
  same id g := by
    simp only [slurp, StateT.run_bind, yields_bind, Registry.yields_inode, yields_lift,
      yields_require]
    exact fun i _ _ => (onlyLooks_read 0 i.record.size).same id g

/-- A visit to a file that nobody has open only reads. -/
theorem OnlyLooks.reads_visit {look : InodeId → Filing β} (h : OnlyLooks look) {home : Sector}
    (unopened : g.opened[home]? = none) : ((visit home look).run g).Reads := by
  simp only [visit, StateT.run_bind]
  apply (Registry.reads_openAt g home).bind_of_yields (Registry.yields_openAt_fresh unopened)
  rintro ⟨id, g'⟩ ⟨record, found⟩
  apply (h.reads id g').bind_of_yields (h.same id g')
  rintro ⟨b, _⟩ rfl
  exact (Registry.reads_close found rfl).bind fun _ => reads_pure _

end Packer

end InodeVolume
