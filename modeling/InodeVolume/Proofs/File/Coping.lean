import InodeVolume.File.Registry
import InodeVolume.Proofs.File.Writing
import InodeVolume.Proofs.Volume.Copes

/-!
# Files with damaged records

What is done with an inode copes with any record, whatever its length and its pointers are, and
with whatever the sectors hold that it points at.
-/

namespace InodeVolume

open Program

namespace Record

variable (r : Record)

theorem copes_dataSector (i : Nat) : (r.dataSector i).Copes Sector.Granted := by
  unfold dataSector
  split
  · exact copes_pure Sector.granted_none
  · exact copes_pure (Sector.granted_ofPointer _)
  · split
    next => exact copes_pure Sector.granted_none
    next s pointed =>
      have named := (Sector.granted_ofPointer _ s pointed).2
      exact (PointerTable.copes_load named).bind fun _ _ => copes_pure (Sector.granted_ofPointer _)

theorem copes_sectorAt (offset : Nat) : (r.sectorAt offset).Copes Sector.Granted := by
  unfold sectorAt
  split
  · exact copes_pure Sector.granted_none
  · exact r.copes_dataSector _

theorem copes_read (offset count : Nat) :
    (r.read offset count).Copes fun bytes => bytes.length ≤ count := by
  induction count using Nat.strongRecOn generalizing offset with
  | ind count ih =>
    rw [read]
    split
    · exact copes_pure (Nat.zero_le _)
    refine (r.copes_sectorAt offset).bind fun s granted => ?_
    cases s with
    | none => exact copes_pure (Nat.zero_le _)
    | some s =>
      dsimp only
      split
      · exact copes_pure (Nat.zero_le _)
      refine (Program.copes_read (granted s rfl).2).bind fun data _ => ?_
      refine (ih _ (by omega) _).bind fun rest short => copes_pure ?_
      rw [List.length_append]
      have first (start chunk : Nat) : (data.slice start chunk).length ≤ chunk :=
        List.length_take_le _ _
      exact Nat.le_trans (Nat.add_le_add (first _ _) short) (by omega)

end Record

namespace Draft

/-- A pointer can name each sector held, and so the sectors can go back. -/
def Pointable (d : Draft) : Prop := ∀ s ∈ d.held, s.Pointable

variable {d : Draft}

theorem Pointable.take (h : d.Pointable) {s : Sector} (pointable : s.Pointable) :
    Pointable { d with held := d.held ++ [s] } := by
  intro t member
  rcases List.mem_append.mp member with before | new
  · exact h t before
  · rwa [List.mem_singleton.mp new]

theorem copes_tableAt (h : d.Pointable) (b : Fin 3) :
    ((tableAt b).run d).Copes fun p => p.2.Pointable := by
  simp only [tableAt, StateT.run_bind, StateT.run_get, pure_bind]
  cases d.tables.get b with
  | some entry => exact copes_pure h
  | none =>
    have named := (d.record.tables.get b).toNat_lt
    simp only [StateT.run_bind]
    refine ((PointerTable.copes_load named).lift d).bind ?_
    rintro ⟨t, _⟩ ⟨_, rfl⟩
    exact copes_pure h

theorem copes_has (h : d.Pointable) (i : Nat) :
    ((has i).run d).Copes fun p => p.2.Pointable := by
  simp only [has, StateT.run_bind, StateT.run_get, pure_bind]
  cases Position.ofIndex? i with
  | none => exact copes_pure h
  | some p =>
    cases p with
    | direct slot => exact copes_pure h
    | tabled b entry =>
      dsimp only
      split
      · exact copes_pure h
      · exact (copes_tableAt h b).bind fun _ kept => copes_pure kept

theorem copes_takeSector {β : Type} {act : Option Sector → Drafting β} {post : β × Draft → Prop}
    (h : d.Pointable) (short : ((act none).run d).Copes post)
    (taken : ∀ s d, s.Pointable → d.Pointable → ((act (some s)).run d).Copes post) :
    ((takeSector >>= act).run d).Copes post := by
  simp only [takeSector, StateT.run_bind, bind_assoc]
  refine (copes_allocate.lift d).bind ?_
  rintro ⟨s, _⟩ ⟨granted, rfl⟩
  cases s with
  | none => simpa only [StateT.run_pure, pure_bind] using short
  | some s =>
    simpa only [StateT.run_bind, StateT.run_modify, StateT.run_pure, pure_bind] using
      taken s _ (granted s rfl) (h.take (granted s rfl))

theorem copes_toPointer {s : Sector} (pointable : s.Pointable) (d : Draft) :
    ((liftM (ofExcept s.toPointer) : Drafting UInt32).run d).Copes fun p => p.2 = d := by
  have found : (ofExcept s.toPointer).Copes fun _ => True := by
    rw [Sector.toPointer_of_pointable pointable]
    exact copes_pure trivial
  exact (found.lift d).mono fun _ => And.right

theorem copes_extendDirect (h : d.Pointable) (slot : Fin 123) :
    ((extendDirect slot).run d).Copes fun p => p.2.Pointable := by
  rw [extendDirect]
  refine copes_takeSector h (copes_pure h) fun s d pointable h => ?_
  simp only [StateT.run_bind]
  refine (copes_toPointer pointable d).bind ?_
  rintro ⟨p, _⟩ rfl
  exact copes_pure h

theorem copes_provideTable (h : d.Pointable) (b : Fin 3) :
    ((provideTable b).run d).Copes fun p => p.2.Pointable := by
  simp only [provideTable, StateT.run_bind, StateT.run_get, pure_bind]
  split
  · exact copes_pure h
  refine copes_takeSector h (copes_pure h) fun s d pointable h => ?_
  simp only [StateT.run_bind]
  refine ((copes_write s _).lift d).bind ?_
  rintro ⟨_, d'⟩ ⟨_, same⟩
  obtain rfl : d' = d := same
  refine (copes_toPointer pointable d').bind ?_
  rintro ⟨p, _⟩ rfl
  exact copes_pure h

theorem copes_extendTable (h : d.Pointable) (b : Fin 3) (entry : Fin 127) :
    ((extendTable b entry).run d).Copes fun p => p.2.Pointable := by
  rw [extendTable]
  refine copes_takeSector h (copes_pure h) fun s d pointable h => ?_
  simp only [StateT.run_bind]
  refine (copes_toPointer pointable d).bind ?_
  rintro ⟨p, _⟩ rfl
  exact (copes_tableAt h b).bind fun _ kept => copes_pure kept

theorem copes_extend (h : d.Pointable) (i : Nat) :
    ((extend i).run d).Copes fun p => p.2.Pointable := by
  rw [extend]
  cases Position.ofIndex? i with
  | none => exact copes_pure h
  | some p =>
    cases p with
    | direct slot => exact copes_extendDirect h slot
    | tabled b entry =>
      simp only [StateT.run_bind]
      refine (copes_provideTable h b).bind ?_
      rintro ⟨done, d'⟩ h'
      cases done with
      | true => exact copes_extendTable h' b entry
      | false => exact copes_pure h'

theorem copes_backfill (h : d.Pointable) (i : Nat) :
    ((backfill i).run d).Copes fun p => p.2.Pointable := by
  induction i generalizing d with
  | zero => exact copes_pure h
  | succ i ih =>
    simp only [backfill, StateT.run_bind]
    refine (copes_has h i).bind ?_
    rintro ⟨present, d₁⟩ h₁
    cases present with
    | true => exact copes_pure h₁
    | false =>
      simp only [Bool.false_eq_true, if_false, StateT.run_bind]
      refine (copes_extend h₁ i).bind ?_
      rintro ⟨done, d₂⟩ h₂
      cases done with
      | true => exact ih h₂
      | false => exact copes_pure h₂

theorem copes_carryOut (d : Draft) {length : Nat} (short : length < Record.lengthLimit) :
    (d.carryOut length).Copes fun _ => True := by
  have tables : d.writeTables.Copes fun _ => True := by
    refine copes_forM _ fun b _ => ?_
    unfold writeTable
    split
    · exact copes_write _ _
    · exact copes_pure trivial
  obtain ⟨r, stored, _⟩ := d.record.withSize_eq short
  rw [carryOut, stored]
  refine (copes_forM _ fun s _ => copes_write s _).bind fun _ _ => ?_
  exact tables.bind fun _ _ => copes_pure trivial

theorem copes_settle {steps : Drafting Bool} {r : Record} {length : Nat}
    (worked : (steps.run (.ofRecord r)).Copes fun p => p.2.Pointable)
    (short : length < Record.lengthLimit) : (settle steps r length).Copes fun _ => True := by
  rw [settle]
  refine worked.bind ?_
  rintro ⟨done, d⟩ h
  cases done with
  | true => exact (d.copes_carryOut short).bind fun _ _ => copes_pure trivial
  | false =>
    exact (copes_forM _ fun s held => copes_release (h s held)).bind fun _ _ => copes_pure trivial

end Draft

namespace Record

variable (r : Record) (home : Sector) (offset : Nat)

/-- A file grows to a length that its record can store, if it grows at all. -/
theorem copes_grow (count : Nat) : (r.grow home offset count).Copes fun _ => True := by
  simp only [grow]
  split
  next => exact copes_pure trivial
  next near =>
    simp only [Bool.or_eq_true, decide_eq_true_eq, not_or, Nat.not_le] at near
    have short : offset + min count (blockSize - offset % blockSize) < lengthLimit :=
      Layout.reach_lt_lengthLimit (Layout.lt_dataSectors_reach.mp near.2) near.1
    have nothing_held : Draft.Pointable (.ofRecord r) := fun _ held => by cases held
    refine (Draft.copes_settle (Draft.copes_backfill nothing_held _) short).bind fun result _ => ?_
    cases result with
    | none => exact copes_pure trivial
    | some r' => exact (copes_write _ _).bind fun _ _ => copes_pure trivial

theorem copes_sectorForWrite (count : Nat) :
    (r.sectorForWrite home offset count).Copes fun p => Sector.Granted p.1 := by
  rw [sectorForWrite]
  split
  · exact (r.copes_dataSector _).bind fun _ granted => copes_pure granted
  · refine (r.copes_grow home offset count).bind fun result _ => ?_
    cases result with
    | none => exact copes_pure Sector.granted_none
    | some r' => exact (r'.copes_dataSector _).bind fun _ granted => copes_pure granted

theorem copes_storeBytes {s : Sector} (named : s < UInt32.size) (start : Nat)
    (bytes : List UInt8) : (storeBytes s start bytes).Copes fun _ => True := by
  unfold storeBytes
  split
  · exact copes_write _ _
  · exact (Program.copes_read named).bind fun _ _ => copes_write _ _

theorem copes_writePiece (data : List UInt8) :
    (r.writePiece home offset data).Copes fun p => p.1 ≤ data.length := by
  simp only [writePiece]
  refine (r.copes_sectorForWrite home offset _).bind ?_
  rintro ⟨s, r'⟩ granted
  cases s with
  | none => exact copes_pure (Nat.zero_le _)
  | some s =>
    dsimp only
    split
    · exact copes_pure (Nat.zero_le _)
    refine (copes_storeBytes (granted s rfl).2 _ _).bind fun _ _ => copes_pure ?_
    exact List.length_take_le' _ _

theorem copes_write (data : List UInt8) :
    (r.write home offset data).Copes fun p => p.1 ≤ data.length := by
  induction length : data.length using Nat.strongRecOn generalizing r offset data with
  | ind count ih =>
    by_cases nothing : data = []
    · rw [nothing, write_nil]
      exact copes_pure (Nat.zero_le _)
    rw [write_eq nothing]
    refine (r.copes_writePiece home offset data).bind ?_
    rintro ⟨n, r'⟩ bound
    dsimp only at bound ⊢
    split
    · exact copes_pure (Nat.zero_le _)
    next some_bytes =>
      have shorter : (data.drop n).length = count - n := by rw [List.length_drop, length]
      refine (ih (count - n) (by omega) r' (offset + n) _ shorter).bind fun p short => ?_
      exact copes_pure (by omega)

end Record

namespace Registry

variable {g : Registry} {id : InodeId} {i : Inode}

theorem run_inode (found : g.inodes[id]? = some i) : (inode id).run g = pure (i, g) := by
  simp only [inode, StateT.run_bind, StateT.run_get, pure_bind, found, StateT.run_pure]

theorem copes_read (found : g.inodes[id]? = some i) (offset count : Nat) :
    ((read id offset count).run g).Copes fun p => p.1.length ≤ count ∧ p.2 = g := by
  rw [read, StateT.run_bind, run_inode found, pure_bind]
  exact (i.record.copes_read offset count).bind fun _ short => copes_pure ⟨short, rfl⟩

theorem copes_write (found : g.inodes[id]? = some i) (offset : Nat) (data : List UInt8) :
    ((write id offset data).run g).Copes fun p => p.1 ≤ data.length := by
  rw [write, StateT.run_bind, run_inode found, pure_bind]
  split
  · exact copes_pure (Nat.zero_le _)
  · simp only [StateT.run_bind]
    refine ((i.record.copes_write i.home offset data).lift g).bind fun p short => ?_
    exact copes_pure short.1

theorem copes_locate_read (found : g.inodes[id]? = some i) (offset count : Nat) :
    ((locate id offset count false).run g).Copes fun p => Sector.Granted p.1 ∧ p.2 = g := by
  rw [locate, StateT.run_bind, run_inode found, pure_bind]
  exact (i.record.copes_sectorAt offset).bind fun _ granted => copes_pure ⟨granted, rfl⟩

theorem copes_locate_write (found : g.inodes[id]? = some i) (offset count : Nat) :
    ((locate id offset count true).run g).Copes fun p => Sector.Granted p.1 := by
  rw [locate, StateT.run_bind, run_inode found, pure_bind]
  simp only [if_true, StateT.run_bind]
  refine ((i.record.copes_sectorForWrite i.home offset count).lift g).bind fun p granted => ?_
  exact copes_pure granted.1

end Registry

end InodeVolume
