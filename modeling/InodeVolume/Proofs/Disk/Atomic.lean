import InodeVolume.Proofs.Disk.Lawful

/-!
# Devices that may refuse

A device is atomic when each transfer is either made or refused without effect on
what the device holds. Which transfers are refused is left open: that may depend
on the block, on the moment or on anything else.
-/

namespace InodeVolume

namespace Action

variable {σ τ β γ : Type}

/-- How an action ends: a result satisfies `post`, and a fault satisfies `stop`. -/
def Ends (act : Action σ β) (s : σ) (post : β → σ → Prop) (stop : Fault → σ → Prop) : Prop :=
  match act s with
  | .ok b t => post b t
  | .error f t => stop f t

variable {act : Action σ β} {s : σ} {post : β → σ → Prop} {stop : Fault → σ → Prop}

theorem Ends.ok (h : act.Ends s post stop) {b : β} {t : σ} (done : act s = .ok b t) : post b t := by
  unfold Ends at h
  rw [done] at h
  exact h

theorem Ends.error (h : act.Ends s post stop) {f : Fault} {t : σ} (failed : act s = .error f t) :
    stop f t := by
  unfold Ends at h
  rw [failed] at h
  exact h

theorem ends_iff : act.Ends s post stop ↔
    (∀ b t, act s = .ok b t → post b t) ∧ ∀ f t, act s = .error f t → stop f t := by
  constructor
  · intro h
    exact ⟨fun _ _ => h.ok, fun _ _ => h.error⟩
  · rintro ⟨results, faults⟩
    unfold Ends
    cases ended : act s with
    | ok b t => exact results b t ended
    | error f t => exact faults f t ended

theorem Ends.mono {post' : β → σ → Prop} {stop' : Fault → σ → Prop} (h : act.Ends s post stop)
    (results : ∀ b t, post b t → post' b t) (faults : ∀ f t, stop f t → stop' f t) :
    act.Ends s post' stop' := by
  apply ends_iff.mpr
  constructor
  · intro b t done
    exact results b t (h.ok done)
  · intro f t failed
    exact faults f t (h.error failed)

theorem Ends.and {post' : β → σ → Prop} {stop' : Fault → σ → Prop} (h : act.Ends s post stop)
    (h' : act.Ends s post' stop') :
    act.Ends s (fun b t => post b t ∧ post' b t) fun f t => stop f t ∧ stop' f t :=
  ends_iff.mpr ⟨fun _ _ done => ⟨h.ok done, h'.ok done⟩,
    fun _ _ failed => ⟨h.error failed, h'.error failed⟩⟩

theorem Ends.of_ok {b : β} {t : σ} (done : act s = .ok b t) (holds : post b t) :
    act.Ends s post stop := by
  unfold Ends
  rw [done]
  exact holds

theorem Ends.of_eq {act' : Action σ β} {s' : σ} (h : act'.Ends s' post stop)
    (same : act s = act' s') : act.Ends s post stop := by
  unfold Ends
  rw [same]
  exact h

@[simp] theorem ends_pure {b : β} : (pure b : Action σ β).Ends s post stop ↔ post b s := Iff.rfl

@[simp] theorem ends_throw {f : Fault} : (throw f : Action σ β).Ends s post stop ↔ stop f s := Iff.rfl

theorem ends_bind {next : β → Action σ γ} {post : γ → σ → Prop} :
    (act >>= next).Ends s post stop ↔ act.Ends s (fun b t => (next b).Ends t post stop) stop := by
  unfold Ends
  change (match EStateM.bind act next s with | .ok b t => post b t | .error f t => stop f t) ↔ _
  simp only [EStateM.bind]
  cases act s <;> rfl

@[simp] theorem ends_get_bind {next : σ → Action σ γ} {post : γ → σ → Prop} :
    (get >>= next : Action σ γ).Ends s post stop ↔ (next s).Ends s post stop := Iff.rfl

/-- What every round of a loop keeps up, the loop keeps up. -/
theorem ends_forM {ι : Type} {items : List ι} {round : ι → Action σ Unit} {inv : σ → Prop}
    (keeps : ∀ i t, inv t → (round i).Ends t (fun _ => inv) stop) (start : inv s) :
    (items.forM round).Ends s (fun _ => inv) stop := by
  induction items generalizing s with
  | nil => exact start
  | cons i rest ih => exact ends_bind.mpr ((keeps i s start).mono (fun _ _ => ih) fun _ _ => id)

@[simp] theorem ends_modify {change : σ → σ} {post : Unit → σ → Prop} :
    (modify change : Action σ Unit).Ends s post stop ↔ post () (change s) := Iff.rfl

@[simp] theorem ends_set_bind {t : σ} {next : PUnit → Action σ γ} {post : γ → σ → Prop} :
    (set t >>= next : Action σ γ).Ends s post stop ↔ (next ⟨⟩).Ends t post stop := Iff.rfl

theorem ends_onPart {view : σ → τ} {put : τ → σ → σ} {act : Action τ β} :
    (Action.onPart view put act).Ends s post stop ↔
      act.Ends (view s) (fun b t => post b (put t s)) fun f t => stop f (put t s) := by
  unfold Ends Action.onPart
  cases act (view s) <;> rfl

theorem ends_step {view : σ → τ} {put : τ → σ → σ} {f : τ → Except Fault (β × τ)} :
    (Action.step view put f).Ends s post stop ↔
      (∀ b t, f (view s) = .ok (b, t) → post b (put t s)) ∧
        ∀ e, f (view s) = .error e → stop e s := by
  unfold Ends Action.step
  cases f (view s) with
  | error e => simp
  | ok p => simp [Prod.ext_iff, and_imp]

end Action

class AtomicDevice (δ : Type) [Device δ] [LawfulDevice δ] : Prop where
  readBlock_ends (n : Nat) (d : δ) : (Device.readBlock n).Ends d
    (fun b d' => b = LawfulDevice.content d n ∧ LawfulDevice.content d' = LawfulDevice.content d)
    fun _ d' => LawfulDevice.content d' = LawfulDevice.content d
  writeBlock_ends (n : Nat) (b : Block) (d : δ) : (Device.writeBlock n b).Ends d
    (fun _ d' => LawfulDevice.content d' = Function.update (LawfulDevice.content d) n b)
    fun _ d' => LawfulDevice.content d' = LawfulDevice.content d

inductive Refusal (δ : Type) [Device δ] : Fault → Prop where
  | read {n : Nat} {d d' : δ} {f : Fault} : Device.readBlock n d = .error f d' → Refusal δ f
  | write {n : Nat} {b : Block} {d d' : δ} {f : Fault} :
      Device.writeBlock n b d = .error f d' → Refusal δ f

namespace AtomicDevice

variable {δ : Type} [Device δ] [LawfulDevice δ] [AtomicDevice δ]

theorem readBlock_or_refusal (n : Nat) (d : δ) : (Device.readBlock n).Ends d
    (fun b d' => b = LawfulDevice.content d n ∧ LawfulDevice.content d' = LawfulDevice.content d)
    fun f d' => Refusal δ f ∧ LawfulDevice.content d' = LawfulDevice.content d := by
  have h := readBlock_ends n d
  exact Action.ends_iff.mpr ⟨fun _ _ => h.ok, fun _ _ failed => ⟨.read failed, h.error failed⟩⟩

theorem writeBlock_or_refusal (n : Nat) (b : Block) (d : δ) : (Device.writeBlock n b).Ends d
    (fun _ d' => LawfulDevice.content d' = Function.update (LawfulDevice.content d) n b)
    fun f d' => Refusal δ f ∧ LawfulDevice.content d' = LawfulDevice.content d := by
  have h := writeBlock_ends n b d
  exact Action.ends_iff.mpr ⟨fun _ _ => h.ok, fun _ _ failed => ⟨.write failed, h.error failed⟩⟩

end AtomicDevice

namespace MemoryDisk

instance : AtomicDevice MemoryDisk where
  readBlock_ends n d := by
    apply Action.ends_iff.mpr
    constructor
    · intro b d' done
      simp only [Device.readBlock] at done
      split at done
      next b' found =>
        cases done
        exact ⟨by simp [LawfulDevice.content, Array.getD_eq_getD_getElem?, found], rfl⟩
      next => cases done
    · intro f d' failed
      simp only [Device.readBlock] at failed
      split at failed
      next => cases failed
      next =>
        cases failed
        rfl
  writeBlock_ends n b d := by
    apply Action.ends_iff.mpr
    by_cases inside : n < d.blocks.size
    · have opened : Device.writeBlock n b d = .ok () ⟨d.blocks.setIfInBounds n b⟩ := if_pos inside
      rw [opened]
      constructor
      · rintro _ _ ⟨⟩
        funext m
        by_cases same : m = n
        · subst same
          simp [LawfulDevice.content, inside]
        · simp [LawfulDevice.content, Array.getD_eq_getD_getElem?, same, Ne.symm same]
      · nofun
    · have opened : Device.writeBlock n b d = .error (.blockOutOfRange n) d := if_neg inside
      rw [opened]
      constructor
      · nofun
      · rintro _ _ ⟨⟩
        rfl

end MemoryDisk

namespace Drive

variable {δ β : Type}

theorem transfer_ends {n : Nat} {entry : Transfer} {act : Action δ β} {d : Drive δ}
    {post : β → δ → Prop} {stop : Fault → δ → Prop} (h : act.Ends d.disk post stop)
    (refused : ∀ f, stop f d.disk) :
    (transfer n entry act).Ends d (fun b d' => post b d'.disk) fun f d' => stop f d'.disk := by
  unfold transfer
  rw [Action.ends_bind, Action.ends_modify, Action.ends_get_bind]
  split
  · exact refused _
  · exact Action.ends_onPart.mpr h

instance [Device δ] [LawfulDevice δ] [AtomicDevice δ] : AtomicDevice (Drive δ) where
  readBlock_ends n d := transfer_ends (AtomicDevice.readBlock_ends n d.disk) fun _ => rfl
  writeBlock_ends n b d := transfer_ends (AtomicDevice.writeBlock_ends n b d.disk) fun _ => rfl

end Drive

end InodeVolume
