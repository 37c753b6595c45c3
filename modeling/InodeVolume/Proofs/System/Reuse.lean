import InodeVolume.Proofs.System.Closing

/-!
# Reuse of sectors

The sectors of a discarded file go to new files, while the inode of the old one can still be
named. As long as it is not opened anew it does no harm: it cannot be closed, and every other
close gives back the sectors of its own file. Opened anew and closed, it gives back the sectors
of a new file.
-/

namespace InodeVolume

namespace FileSystem

variable {δ : Type} [Device δ] [LawfulDevice δ] [AtomicDevice δ] {reopening : Bool}
  {fs₀ fs fs' : FileSystem δ (Ledger SpaceMap)} {a₀ a : Archive} {discards : List InodeId}
  {id : InodeId} {i : Inode} {op : Operation} {answer : Answer}

/-- A run over a device that refuses nothing has come here. -/
structure Reached (reopening : Bool) (fs₀ : FileSystem δ (Ledger SpaceMap)) (a₀ : Archive)
    (fs : FileSystem δ (Ledger SpaceMap)) (a : Archive) (discards : List InodeId) : Prop where
  run : LooseRun reopening fs₀ a₀ fs a discards
  invariant : LooseRunInvariant fs a discards
  realizes : fs.Realizes a

theorem Reached.exists_step (h : Reached reopening fs₀ a₀ fs a discards) (op : Operation)
    (allowed : a.Allows op) : ∃ answer fs', perform op fs = .ok answer fs' ∧ a.Admits op answer ∧
      Ages fs.registry a fs'.registry (a.next op answer) ∧
      Reached reopening fs₀ a₀ fs' (a.next op answer) (discarded op fs fs' ++ discards) := by
  obtain ⟨answer, fs', done, admitted, realizes⟩ := h.realizes.perform_eq allowed
  exact ⟨answer, fs', done, admitted, (h.invariant.realizes_ages allowed done).2,
    h.run.step allowed done, h.invariant.step allowed done, realizes⟩

/-- Where only one sector is free, the next file comes to be in it, and gets an inode of its own. -/
theorem Reached.exists_occupied (h : Reached reopening fs₀ a₀ fs a discards)
    (vacant : a.Vacant 2) : ∃ fs' a' id, Reached reopening fs₀ a₀ fs' a' discards ∧
      a'.Occupied 2 1 id ∧ ∀ id' < fs.registry.inodes.size,
        fs'.registry.inodes[id']? = fs.registry.inodes[id']? := by
  have room : 0 < a.free := vacant.free ▸ Nat.zero_lt_one
  have unopened (id : InodeId) : a.openings id = none := congrFun vacant.openings id
  obtain ⟨_, fs₁, _, admitted, ages₁, reached₁⟩ := h.exists_step .allocate trivial
  obtain ⟨s, rfl⟩ := admitted.allocate room
  obtain ⟨_, above, below, _⟩ := admitted
  rw [vacant.reserved] at above
  rw [vacant.total] at below
  obtain rfl : s = 1 := Nat.le_antisymm (Nat.le_of_lt_succ below) above
  obtain ⟨_, fs₂, _, admitted, ages₂, reached₂⟩ :=
    reached₁.exists_step (.create 1 0 .file) (Finset.mem_insert_self _ _)
  obtain rfl := admitted.create_empty
  obtain ⟨_, fs₃, _, admitted, ages₃, reached₃⟩ :=
    reached₂.exists_step (.openAt 1) (Finset.mem_insert_self _ _)
  obtain ⟨id, rfl⟩ := admitted.openAt
  refine ⟨fs₃, _, id, reached₃, vacant.occupied, fun id' inside => ?_⟩
  have inside₁ := Nat.lt_of_lt_of_le inside ages₁.size
  have inside₂ := Nat.lt_of_lt_of_le inside₁ ages₂.size
  rw [ages₃.inode inside₂ (unopened id'), ages₂.inode inside₁ (unopened id'),
    ages₁.inode inside (unopened id')]

end FileSystem

end InodeVolume
