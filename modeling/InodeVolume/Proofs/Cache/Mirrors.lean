import InodeVolume.Proofs.Disk.Recorder
import InodeVolume.Proofs.Volume.Reads

/-!
# Recorded as on the disk

A cache over a recorder does what it does over the disk alone, and so does a program that reads
through it, also when it stops at a fault: what was recorded is what happens without a record.
-/

namespace InodeVolume

namespace Action

variable {σ τ β γ : Type} {view : σ → τ} {s : σ}

/-- An action on what is seen of a state ends as another one does on the state itself. -/
def Mirrors (view : σ → τ) (act : Action σ β) (act' : Action τ β) (s : σ) : Prop :=
  act.Ends s (fun b t => act' (view s) = .ok b (view t))
    fun f t => act' (view s) = .error f (view t)

theorem Mirrors.bind {act : Action σ β} {act' : Action τ β} {next : β → Action σ γ}
    {next' : β → Action τ γ} (h : Mirrors view act act' s)
    (rest : ∀ b t, Mirrors view (next b) (next' b) t) :
    Mirrors view (act >>= next) (act' >>= next') s := by
  apply ends_bind.mpr
  apply h.mono
  · intro b t done
    apply (rest b t).mono
    · intro c u last
      rw [bind_ok done, last]
    · intro f u last
      rw [bind_ok done, last]
  · intro f t failed
    change EStateM.bind act' next' (view s) = _
    simp only [EStateM.bind, failed]

theorem mirrors_pure (b : β) (s : σ) : Mirrors view (pure b) (pure b) s := rfl

theorem mirrors_throw (f : Fault) (s : σ) :
    Mirrors view (throw f : Action σ β) (throw f : Action τ β) s := rfl

theorem mirrors_get_bind {next : σ → Action σ β} {next' : τ → Action τ β} :
    Mirrors view (get >>= next) (get >>= next') s ↔ Mirrors view (next s) (next' (view s)) s :=
  Iff.rfl

theorem mirrors_ofExcept (r : Except Fault β) (s : σ) :
    Mirrors view (ofExcept r) (ofExcept r) s := by
  cases r <;> rfl

theorem mirrors_modify {change : σ → σ} {change' : τ → τ}
    (same : ∀ s, change' (view s) = view (change s)) {s : σ} :
    Mirrors view (modify change : Action σ Unit) (modify change' : Action τ Unit) s :=
  congrArg (EStateM.Result.ok ()) (same s)

theorem mirrors_onPart {σ' τ' : Type} {part : σ → σ'} {put : σ' → σ → σ} {part' : τ → τ'}
    {put' : τ' → τ → τ} {view' : σ' → τ'} {act : Action σ' β} {act' : Action τ' β}
    (seen : part' (view s) = view' (part s))
    (same : ∀ t, put' (view' t) (view s) = view (put t s))
    (h : Mirrors view' act act' (part s)) :
    Mirrors view (.onPart part put act) (.onPart part' put' act') s := by
  apply ends_onPart.mpr
  apply h.mono
  · intro b t done
    simp only [onPart, seen, done, same]
  · intro f t failed
    simp only [onPart, seen, failed, same]

end Action

open InodeVolume.Action

theorem Recorder.transfer_mirrors {δ β : Type} (entry : Recorded) (act : Action δ β)
    (r : Recorder δ) : Mirrors Recorder.disk (transfer entry act) act r :=
  transfer_ends.mpr (ends_iff.mpr ⟨fun _ _ => id, fun _ _ => id⟩)

namespace Cache

variable {δ : Type}

def unrecorded (c : Cache (Recorder δ)) : Cache δ where
  device := c.device.disk
  slots := c.slots
  index := c.index
  cursor := c.cursor
  lookahead := c.lookahead

@[simp] theorem entryAt_unrecorded (c : Cache (Recorder δ)) (slot : Nat) :
    c.unrecorded.entryAt slot = c.entryAt slot := rfl

@[simp] theorem slotOf?_unrecorded (c : Cache (Recorder δ)) (s : Sector) :
    c.unrecorded.slotOf? s = c.slotOf? s := rfl

theorem new_unrecorded (disk : δ) (log : List Recorded) (capacity : Nat) :
    new disk capacity = (new (⟨disk, log⟩ : Recorder δ) capacity).map unrecorded := by
  unfold new
  split <;> rfl

theorem onDevice_mirrors {β : Type} {act : Action (Recorder δ) β} {act' : Action δ β}
    {c : Cache (Recorder δ)} (h : Mirrors Recorder.disk act act' c.device) :
    Mirrors unrecorded (onDevice act) (onDevice act') c :=
  mirrors_onPart rfl (fun _ => rfl) h

variable [Device δ]

theorem evict_mirrors (slot : Nat) (c : Cache (Recorder δ)) :
    Mirrors unrecorded (evict slot) (evict slot) c := by
  unfold evict
  apply mirrors_get_bind.mpr
  rw [entryAt_unrecorded]
  cases c.entryAt slot with
  | none => exact mirrors_throw _ _
  | some e =>
    dsimp only
    split
    · apply (onDevice_mirrors (Recorder.transfer_mirrors (.written _ _) _ c.device)).bind
      intro _
      apply mirrors_modify
      exact fun _ => rfl
    · apply mirrors_modify
      exact fun _ => rfl

theorem freeSlot_mirrors (c : Cache (Recorder δ)) : Mirrors unrecorded freeSlot freeSlot c := by
  cases found : c.vacancy with
  | some slot =>
    apply Ends.of_ok (freeSlot_of_vacancy found)
    exact freeSlot_of_vacancy (c := c.unrecorded) found
  | none =>
    have claimed := (evict_mirrors c.cursor { c with cursor := (c.cursor + 1) % c.capacity }).bind
      fun _ => mirrors_pure c.cursor
    apply Ends.of_eq _ (freeSlot_of_full found)
    rw [freeSlot_of_full (c := c.unrecorded) found]
    exact claimed

theorem fetch_mirrors (s : Sector) (c : Cache (Recorder δ)) :
    Mirrors unrecorded (fetch s) (fetch s) c := by
  unfold fetch
  apply mirrors_get_bind.mpr
  rw [slotOf?_unrecorded]
  cases c.slotOf? s with
  | some slot =>
    simp only [entryAt_unrecorded]
    cases c.entryAt slot with
    | some e => exact mirrors_pure _ _
    | none => exact mirrors_throw _ _
  | none =>
    apply (freeSlot_mirrors c).bind
    intro slot c₁
    apply (onDevice_mirrors (Recorder.transfer_mirrors (.read s) _ c₁.device)).bind
    intro data c₂
    refine Mirrors.bind ?_ fun _ => mirrors_pure data
    apply mirrors_modify
    exact fun _ => rfl

theorem read_mirrors (s : Sector) (c : Cache (Recorder δ)) :
    Mirrors unrecorded (read s) (read s) c := by
  apply (fetch_mirrors s c).bind
  intro data c₁
  apply (mirrors_ofExcept _ c₁).bind
  intro next c₂
  refine Mirrors.bind ?_ fun _ => mirrors_pure data
  apply mirrors_modify
  exact fun _ => rfl

theorem evictAll_mirrors (slots : List Nat) (c : Cache (Recorder δ)) :
    Mirrors unrecorded
      (slots.forM fun slot => do if ((← get).entryAt slot).isSome then evict slot)
      (slots.forM fun slot => do if ((← get).entryAt slot).isSome then evict slot) c := by
  induction slots generalizing c with
  | nil => exact mirrors_pure _ _
  | cons slot rest ih =>
    refine Mirrors.bind ?_ fun _ => ih
    apply mirrors_get_bind.mpr
    rw [entryAt_unrecorded]
    split
    · exact evict_mirrors slot c
    · exact mirrors_pure _ _

theorem drain_mirrors (c : Cache (Recorder δ)) : Mirrors unrecorded drain drain c :=
  evictAll_mirrors _ c

end Cache

namespace Volume

variable {δ α β : Type}

def unrecorded (v : Volume (Recorder δ) (Ledger α)) : Volume δ α :=
  ⟨v.cache.unrecorded, v.allocator.allocator⟩

variable [Device δ]

theorem unmount_unrecorded (v : Volume (Recorder δ) (Ledger α)) :
    v.unrecorded.unmount = v.unmount.disk := by
  have drained : Mirrors unrecorded (onCache Cache.drain) (onCache Cache.drain) v :=
    mirrors_onPart rfl (fun _ => rfl) (Cache.drain_mirrors v.cache)
  unfold unmount
  cases ended : onCache Cache.drain v with
  | ok _ w => rw [drained.ok ended]; rfl
  | error f w => rw [drained.error ended]; rfl

variable [Allocator α]

theorem perform_mirrors {p : Program β} (reads : p.Reads) (v : Volume (Recorder δ) (Ledger α)) :
    Mirrors unrecorded (perform p) (perform p) v := by
  induction p generalizing v with
  | done b => exact mirrors_pure b v
  | fault f => exact mirrors_throw f v
  | ask r next ih =>
    obtain ⟨asked, rest⟩ := Program.reads_ask.mp reads
    cases r with
    | read s =>
      refine Mirrors.bind ?_ fun data => ih data (rest data)
      exact mirrors_onPart rfl (fun _ => rfl) (Cache.read_mirrors s v.cache)
    | write | allocate | release => exact asked.elim

end Volume

end InodeVolume
