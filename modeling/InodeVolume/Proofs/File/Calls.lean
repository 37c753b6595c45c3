import InodeVolume.Proofs.File.Drafting
import InodeVolume.Proofs.File.Looking

/-!
# The calls of a write

A draft takes sectors one at a time and holds them. It fails with the call that finds no sector
left, and then gives back all that it holds. A write grows the file as long as that goes well,
so that only its last calls may have been in vain.
-/

namespace InodeVolume

variable {r : Record} {home : Sector}

namespace Draft

variable {d d' d'' : Draft}

def Silent (d d' : Draft) (log : List AllocatorCall) : Prop := d'.held = d.held ∧ log = []

/-- A step that takes sectors, and fails if and only if at last there is none left. -/
def Takes (d : Draft) : Bool × Draft → List AllocatorCall → Prop
  | (done, d'), log => ∃ taken, d'.held = d.held ++ taken ∧
    log = if done then takings taken else .allocated none 1 :: takings taken

namespace Takes

variable {log later : List AllocatorCall} {done : Bool}

theorem refl (same : d'.held = d.held) : Takes d (true, d') [] :=
  ⟨[], by rw [same, List.append_nil], rfl⟩

theorem none_left : Takes d (false, d) [.allocated none 1] := ⟨[], (List.append_nil _).symm, rfl⟩

theorem one (s : Sector) (held : d'.held = d.held ++ [s]) :
    Takes d (true, d') [.allocated (some s) 1] :=
  ⟨[s], held, rfl⟩

theorem trans (h : Takes d (true, d') log) (h' : Takes d' (done, d'') later) :
    Takes d (done, d'') (later ++ log) := by
  obtain ⟨taken, held, rfl⟩ := h
  obtain ⟨more, held', rfl⟩ := h'
  refine ⟨taken ++ more, by rw [held', held, List.append_assoc], ?_⟩
  rw [takings_append]
  cases done <;> rfl

/-- What a step starts from may have looked at other tables. -/
theorem congr (h : Takes d' (done, d'') log) (same : d'.held = d.held) :
    Takes d (done, d'') log := by
  obtain ⟨taken, held, calls⟩ := h
  exact ⟨taken, by rw [held, same], calls⟩

end Takes

theorem logs_tableAt (b : Fin 3) (d : Draft) :
    ((tableAt b).run d).Logs fun (_, d') log => d.Silent d' log := by
  simp only [tableAt, StateT.run_bind, StateT.run_get, Program.logs_bind, Program.logs_pure]
  cases d.tables.get b with
  | some entry => exact Program.logs_pure.mpr ⟨rfl, rfl⟩
  | none =>
    simp only [StateT.run_bind, Program.logs_bind, Program.logs_lift, run_setTable,
      StateT.run_pure, Program.logs_pure]
    refine (PointerTable.reads_load _).logs.mono ?_
    rintro t _ rfl
    exact ⟨rfl, rfl⟩

theorem logs_has (i : Nat) (d : Draft) :
    ((has i).run d).Logs fun (_, d') log => d.Silent d' log := by
  simp only [has, StateT.run_bind, StateT.run_get, Program.logs_bind, Program.logs_pure]
  cases Position.ofIndex? i with
  | none => exact Program.logs_pure.mpr ⟨rfl, rfl⟩
  | some p =>
    cases p with
    | direct slot => exact Program.logs_pure.mpr ⟨rfl, rfl⟩
    | tabled b entry =>
      by_cases absent : d.record.tables.get b = 0
      · simp only [absent, if_true]
        exact Program.logs_pure.mpr ⟨rfl, rfl⟩
      · simp only [absent, if_false, StateT.run_bind, Program.logs_bind]
        refine (logs_tableAt b d).mono ?_
        rintro ⟨t, d'⟩ _ ⟨held, rfl⟩
        exact Program.logs_pure.mpr ⟨held, rfl⟩

theorem logs_takeSector {β : Type} {act : Option Sector → Drafting β}
    {post : β × Draft → List AllocatorCall → Prop}
    (short : ((act none).run d).Logs fun p later => post p (later ++ [.allocated none 1]))
    (taken : ∀ s, ((act (some s)).run { d with held := d.held ++ [s] }).Logs fun p later =>
      post p (later ++ [.allocated (some s) 1])) :
    ((takeSector >>= act).run d).Logs post := by
  simp only [takeSector, StateT.run_bind, Program.logs_bind, Program.logs_lift,
    Program.logs_allocate]
  intro s
  cases s with
  | none => simpa only [StateT.run_pure, Program.logs_pure, List.nil_append] using short
  | some s =>
    simpa only [StateT.run_bind, StateT.run_modify, StateT.run_pure, Program.logs_bind,
      Program.logs_pure, List.nil_append] using taken s

theorem logs_extendDirect (slot : Fin 123) (d : Draft) :
    ((extendDirect slot).run d).Logs d.Takes := by
  rw [extendDirect]
  apply logs_takeSector
  case short => exact Program.logs_pure.mpr .none_left
  case taken =>
    intro s
    simp only [StateT.run_bind, StateT.run_modify, StateT.run_pure, Program.logs_bind,
      Program.logs_lift, Program.logs_ofExcept, Program.logs_pure]
    intro p _
    exact .one s rfl

theorem logs_provideTable (b : Fin 3) (d : Draft) :
    ((provideTable b).run d).Logs d.Takes := by
  simp only [provideTable, StateT.run_bind, StateT.run_get, Program.logs_bind, Program.logs_pure,
    List.append_nil]
  split
  · exact Program.logs_pure.mpr (.refl rfl)
  · apply logs_takeSector
    case short => exact Program.logs_pure.mpr .none_left
    case taken =>
      intro s
      simp only [StateT.run_bind, StateT.run_modify, StateT.run_pure, Program.logs_bind,
        Program.logs_lift, Program.logs_write, Program.logs_ofExcept, Program.logs_pure]
      intro p _
      exact .one s rfl

theorem logs_extendTable (b : Fin 3) (entry : Fin 127) (d : Draft) :
    ((extendTable b entry).run d).Logs d.Takes := by
  rw [extendTable]
  apply logs_takeSector
  case short => exact Program.logs_pure.mpr .none_left
  case taken =>
    intro s
    simp only [StateT.run_bind, StateT.run_modify, StateT.run_pure, run_setTable,
      Program.logs_bind, Program.logs_lift, Program.logs_ofExcept, Program.logs_pure]
    intro p _
    refine (logs_tableAt b _).mono ?_
    rintro ⟨t, d'⟩ log ⟨held, rfl⟩
    exact .one s held

theorem logs_extend {i : Nat} (small : i < Layout.maxSectors) (d : Draft) :
    ((extend i).run d).Logs d.Takes := by
  rw [extend]
  cases place : Position.ofIndex? i with
  | none => exact absurd small (Nat.not_lt.mpr (Position.ofIndex?_eq_none_iff.mp place))
  | some p =>
    cases p with
    | direct slot => exact logs_extendDirect slot d
    | tabled b entry =>
      simp only [StateT.run_bind, Program.logs_bind]
      refine (logs_provideTable b d).mono ?_
      rintro ⟨done, d'⟩ log takes
      cases done with
      | true => exact (logs_extendTable b entry d').mono fun _ _ => takes.trans
      | false => exact Program.logs_pure.mpr takes

theorem logs_backfill {i : Nat} (small : i ≤ Layout.maxSectors) (d : Draft) :
    ((backfill i).run d).Logs d.Takes := by
  induction i generalizing d with
  | zero => exact Program.logs_pure.mpr (.refl rfl)
  | succ i ih =>
    simp only [backfill, StateT.run_bind, Program.logs_bind]
    refine (logs_has i d).mono ?_
    rintro ⟨present, d₁⟩ log ⟨held, rfl⟩
    simp only [List.append_nil]
    cases present with
    | true => exact Program.logs_pure.mpr (.refl held)
    | false =>
      simp only [Bool.false_eq_true, if_false, StateT.run_bind, Program.logs_bind]
      refine (logs_extend small d₁).mono ?_
      rintro ⟨done, d₂⟩ log takes
      have takes := takes.congr held
      cases done with
      | true => exact (ih (Nat.le_of_succ_le small) d₂).mono fun _ _ => takes.trans
      | false => exact Program.logs_pure.mpr takes

theorem logs_fill {count i : Nat} (small : i + count ≤ Layout.maxSectors) (d : Draft) :
    ((fill count i).run d).Logs d.Takes := by
  induction count generalizing i d with
  | zero => exact Program.logs_pure.mpr (.refl rfl)
  | succ count ih =>
    simp only [fill, StateT.run_bind, Program.logs_bind]
    refine (logs_extend (by omega) d).mono ?_
    rintro ⟨done, d'⟩ log takes
    cases done with
    | true => exact (ih (by omega) d').mono fun _ _ => takes.trans
    | false => exact Program.logs_pure.mpr takes

theorem logs_carryOut (d : Draft) (length : Nat) :
    (d.carryOut length).Logs fun _ log => log = [] := by
  have tables : d.writeTables.Logs fun _ log => log = [] := by
    refine Program.logs_forM_nil _ fun b => ?_
    unfold writeTable
    split
    · exact Program.logs_write.mpr rfl
    · exact Program.logs_pure.mpr rfl
  have zeros : (d.newData.forM fun s => Program.write s .zero).Logs fun _ log => log = [] :=
    Program.logs_forM_nil _ fun s => Program.logs_write.mpr rfl
  simp only [carryOut, Program.logs_bind]
  refine zeros.mono ?_
  rintro _ _ rfl
  refine tables.mono ?_
  rintro _ _ rfl
  exact Program.logs_ofExcept.mpr fun _ _ => rfl

/-- All that a draft took is kept, or all of it is given back. -/
theorem logs_settle {steps : Drafting Bool} {record : Record}
    (takes : (steps.run (.ofRecord record)).Logs (Takes (.ofRecord record))) (length : Nat) :
    (settle steps record length).Logs fun r log =>
      ∃ held, log = if r.isSome then takings held else fruitless held := by
  rw [settle, Program.logs_bind]
  refine takes.mono ?_
  rintro ⟨done, d⟩ _ ⟨taken, held, rfl⟩
  cases done with
  | true =>
    simp only [if_true, Program.logs_bind]
    refine (logs_carryOut d length).mono ?_
    rintro r _ rfl
    exact Program.logs_pure.mpr ⟨taken, rfl⟩
  | false =>
    simp only [Bool.false_eq_true, if_false, Program.logs_bind]
    refine (Program.logs_releaseAll d.held).mono ?_
    rintro _ _ rfl
    refine Program.logs_pure.mpr ⟨taken, ?_⟩
    rw [held]
    rfl

end Draft

namespace Record

def Grows {β : Type} (result : Option β) (log : List AllocatorCall) : Prop :=
  ∃ taken, log = takings taken ∨ result = none ∧ log = fruitless taken

theorem logs_grow (r : Record) (home : Sector) (offset count : Nat) :
    (r.grow home offset count).Logs Grows := by
  simp only [grow]
  split
  · exact Program.logs_pure.mpr ⟨[], .inl rfl⟩
  next near =>
    simp only [Bool.or_eq_true, decide_eq_true_eq, not_or, Nat.not_le] at near
    rw [Program.logs_bind]
    refine (Draft.logs_settle (Draft.logs_backfill near.1 _) _).mono ?_
    rintro result _ ⟨taken, rfl⟩
    cases result with
    | none => exact Program.logs_pure.mpr ⟨taken, .inr ⟨rfl, rfl⟩⟩
    | some r' =>
      rw [Program.logs_bind, store, Program.logs_write]
      exact Program.logs_pure.mpr ⟨taken, .inl rfl⟩

theorem logs_sectorForWrite (r : Record) (home : Sector) (offset count : Nat) :
    (r.sectorForWrite home offset count).Logs fun (s, _) log => Grows s log := by
  rw [sectorForWrite]
  split
  · rw [Program.logs_bind]
    refine (r.reads_dataSector _).logs.mono ?_
    rintro s _ rfl
    exact Program.logs_pure.mpr ⟨[], .inl rfl⟩
  · rw [Program.logs_bind]
    refine (logs_grow r home offset count).mono ?_
    rintro result log ⟨taken, calls⟩
    cases result with
    | none => exact Program.logs_pure.mpr ⟨taken, by simpa using calls⟩
    | some r' =>
      obtain rfl := calls.resolve_right fun failed => by cases failed.1
      rw [Program.logs_bind]
      refine (r'.reads_dataSector _).logs.mono ?_
      rintro s _ rfl
      exact Program.logs_pure.mpr ⟨taken, .inl rfl⟩

theorem logs_storeBytes (s : Sector) (start : Nat) (bytes : List UInt8) :
    (storeBytes s start bytes).Logs fun _ log => log = [] := by
  unfold storeBytes
  split
  · exact Program.logs_write.mpr rfl
  · rw [Program.logs_bind, Program.logs_read]
    exact fun _ => Program.logs_write.mpr rfl

/-- Sectors were taken and kept, and at last perhaps some in vain. -/
def Spends (log : List AllocatorCall) : Prop :=
  ∃ kept, log = takings kept ∨ ∃ held, log = fruitless held ++ takings kept

theorem Spends.after {log : List AllocatorCall} (h : Spends log) (taken : List Sector) :
    Spends (log ++ takings taken) := by
  obtain ⟨kept, rfl | ⟨held, rfl⟩⟩ := h
  · exact ⟨taken ++ kept, .inl (takings_append taken kept).symm⟩
  · refine ⟨taken ++ kept, .inr ⟨held, ?_⟩⟩
    rw [takings_append, List.append_assoc]

/-- The calls tell which sectors are in use after them: those that were kept besides those that
were in use before. -/
theorem Spends.exists_kept {log : List AllocatorCall} {m m' : SpaceMap} (h : Spends log)
    (sound : m.Sound) (history : SpaceMap.History m log m') :
    ∃ kept, m.Took kept m' ∧ (log = takings kept ∨
      ∃ held, log = fruitless held ++ takings kept ∧ ∀ s ∈ held, m'.isAllocated s = false) := by
  obtain ⟨kept, rfl | ⟨held, rfl⟩⟩ := h
  · exact ⟨kept, history.took sound, .inl rfl⟩
  obtain ⟨m₁, first, rest⟩ := history.split
  have took := first.took sound
  obtain ⟨rfl, free⟩ := rest.fruitless took.sound
  exact ⟨kept, took, .inr ⟨held, rfl, free⟩⟩

theorem Spends.of_takings (taken : List Sector) : Spends (takings taken) := ⟨taken, .inl rfl⟩

theorem Spends.of_fruitless (held : List Sector) : Spends (fruitless held) :=
  ⟨[], .inr ⟨held, by simp⟩⟩

theorem Grows.spends {β : Type} {result : Option β} {log : List AllocatorCall}
    (h : Grows result log) : Spends log := by
  obtain ⟨taken, rfl | ⟨_, rfl⟩⟩ := h
  · exact .of_takings taken
  · exact .of_fruitless taken

theorem logs_create (home : Sector) (length : Nat) (kind : Kind) :
    (create home length kind).Logs fun _ log => Spends log := by
  rw [create]
  by_cases beyond : Layout.maxLength < length
  · rw [if_pos beyond]
    exact Program.logs_pure.mpr (.of_takings [])
  have small := Layout.dataSectors_le (Nat.le_of_not_lt beyond)
  have fits : 0 + Layout.dataSectors length ≤ Layout.maxSectors := by
    rw [Nat.zero_add]
    exact small
  rw [if_neg beyond, Program.logs_bind]
  refine (Draft.logs_settle (Draft.logs_fill fits _) _).mono ?_
  rintro result _ ⟨taken, rfl⟩
  cases result with
  | none => exact Program.logs_pure.mpr (.of_fruitless taken)
  | some r =>
    rw [Program.logs_bind, store, Program.logs_write]
    exact Program.logs_pure.mpr (.of_takings taken)

theorem logs_write (r : Record) (home : Sector) (offset : Nat) (data : List UInt8) :
    (r.write home offset data).Logs fun _ log => Spends log := by
  induction size : data.length using Nat.strongRecOn generalizing r offset data with
  | ind size ih =>
    rw [write]
    split
    · exact Program.logs_pure.mpr ⟨[], .inl rfl⟩
    simp only [Program.logs_bind]
    refine (logs_sectorForWrite r home offset _).mono ?_
    rintro ⟨s, r'⟩ _ ⟨taken, calls⟩
    cases s with
    | none =>
      refine Program.logs_pure.mpr ?_
      rcases calls with rfl | ⟨_, rfl⟩
      · exact ⟨taken, .inl rfl⟩
      · exact ⟨[], .inr ⟨taken, by simp⟩⟩
    | some s =>
      obtain rfl := calls.resolve_right fun failed => by cases failed.1
      dsimp only
      split
      · exact Program.logs_pure.mpr ⟨taken, .inl rfl⟩
      next some_bytes =>
        simp only [Program.logs_bind]
        refine (logs_storeBytes s _ _).mono ?_
        rintro _ _ rfl
        refine (ih _ ?_ r' _ _ rfl).mono fun _ log spends => ?_
        · rw [List.length_take] at some_bytes ⊢
          rw [List.length_drop]
          omega
        · exact Program.logs_pure.mpr (by simpa using spends.after taken)

end Record

theorem Registry.logs_write (g : Registry) (id : InodeId) (offset : Nat) (data : List UInt8) :
    ((write id offset data).run g).Logs fun _ log => Record.Spends log := by
  simp only [write, inode, StateT.run_bind, StateT.run_get, Program.logs_bind, Program.logs_pure]
  cases g.inodes[id]? with
  | none => exact Program.logs_fault.mpr trivial
  | some i =>
    refine Program.logs_pure.mpr ?_
    split
    · exact Program.logs_pure.mpr ⟨[], .inl rfl⟩
    · simp only [StateT.run_bind, Program.logs_bind, Program.logs_lift]
      refine (Record.logs_write _ _ _ _).mono fun _ log spends => ?_
      exact Program.logs_pure.mpr (by simpa using spends)

end InodeVolume
