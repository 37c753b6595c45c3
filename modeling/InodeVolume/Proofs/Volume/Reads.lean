import InodeVolume.Proofs.Volume.Logs

/-!
# Programs that only read

A program that asks for nothing but the content of sectors leaves the volume as it is, and has
nothing to do with the allocator.
-/

namespace InodeVolume

def Request.IsRead : Request → Prop
  | .read _ => True
  | .write _ _ | .allocate | .release _ => False

namespace Program

variable {β γ σ : Type}

/-- Nothing is asked for but sectors to be read, whatever the answers are. -/
def Reads : Program β → Prop
  | done _ | fault _ => True
  | ask r next => r.IsRead ∧ ∀ a, (next a).Reads

theorem reads_ask {r : Request} {next : r.Answer → Program β} :
    (ask r next).Reads ↔ r.IsRead ∧ ∀ a, (next a).Reads := Iff.rfl

theorem reads_pure (b : β) : (pure b : Program β).Reads := trivial

theorem reads_fault (f : Fault) : (fault f : Program β).Reads := trivial

theorem Reads.bind {p : Program γ} {next : γ → Program β} (h : p.Reads)
    (rest : ∀ c, (next c).Reads) : (p >>= next).Reads := by
  induction p with
  | done c => exact rest c
  | fault f => trivial
  | ask r answered ih => exact ⟨h.1, fun a => ih a (h.2 a)⟩

theorem reads_read (s : Sector) : (read s).Reads := ⟨trivial, fun _ => trivial⟩

theorem reads_ofExcept (r : Except Fault β) : (ofExcept r).Reads := by
  cases r <;> trivial

theorem reads_require (p : Prop) [Decidable p] (f : Fault) : (require p f).Reads := by
  unfold require
  split <;> trivial

theorem Reads.lift {p : Program β} (h : p.Reads) (s : σ) :
    ((liftM p : StateT σ Program β).run s).Reads := h.bind fun _ => trivial

theorem Reads.logs {p : Program β} (h : p.Reads) : p.Logs fun _ log => log = [] := by
  induction p with
  | done b => exact logs_pure.mpr rfl
  | fault f => exact logs_fault.mpr trivial
  | ask r next ih =>
    cases r with
    | read s =>
      change (read s >>= next).Logs _
      rw [logs_bind, logs_read]
      refine fun data => (ih data (h.2 data)).mono ?_
      rintro _ _ rfl
      rfl
    | write | allocate | release => exact h.1.elim

/-- What a program returns that only reads, it returns without a change. -/
theorem Returns.unchanged {α : Type} [Allocator α] {p : Program β} {v : Flat α}
    {post : β → Flat α → Prop} (h : p.Returns v post) (reads : p.Reads) :
    p.Returns v fun b w => post b w ∧ w = v := by
  obtain ⟨b, w, done, holds⟩ := h
  refine ⟨b, w, done, holds, ?_⟩
  clear holds
  induction p with
  | done b' =>
    cases done
    rfl
  | fault f => cases done
  | ask r next ih =>
    cases r with
    | read s =>
      have returns : (read s >>= next).Returns v fun b' w' => b' = b ∧ w' = w :=
        ⟨b, w, done, rfl, rfl⟩
      obtain ⟨_, _, _, later, rfl, rfl⟩ := returns_read.mp (returns_bind.mp returns)
      exact ih _ (reads.2 _) later
    | write | allocate | release => exact reads.1.elim

-- From here on the lemmas above take it apart; unfolded, it would carry out the program.
attribute [irreducible] Reads

end Program

end InodeVolume
