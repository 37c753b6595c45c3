import InodeVolume.Proofs.Disk.Atomic
import InodeVolume.Volume

/-!
# What programs can result in

`p.Yields post` says that each result of the program satisfies `post`, whatever its
requests are answered with. Unlike `Returns` it does not say that there is a result, and
so it asks nothing of device, cache or allocator.
-/

namespace InodeVolume

namespace Program

variable {β γ σ : Type}

def Yields : Program β → (β → Prop) → Prop
  | done b, post => post b
  | fault _, _ => True
  | ask _ next, post => ∀ a, (next a).Yields post

variable {post : β → Prop}

@[simp] theorem yields_pure {b : β} : (pure b : Program β).Yields post ↔ post b := Iff.rfl

@[simp] theorem yields_fault {f : Fault} : (fault f : Program β).Yields post ↔ True := Iff.rfl

@[simp] theorem yields_bind {p : Program γ} {next : γ → Program β} :
    (p >>= next).Yields post ↔ p.Yields fun c => (next c).Yields post := by
  induction p with
  | done c => rfl
  | fault f => rfl
  | ask r rest ih => exact forall_congr' ih

theorem Yields.mono {p : Program β} {post' : β → Prop} (h : p.Yields post)
    (weaker : ∀ b, post b → post' b) : p.Yields post' := by
  induction p with
  | done b => exact weaker b h
  | fault f => trivial
  | ask r next ih => exact fun a => ih a (h a)

theorem yields_of_forall {p : Program β} (holds : ∀ b, post b) : p.Yields post := by
  induction p with
  | done b => exact holds b
  | fault f => trivial
  | ask r next ih => exact ih

@[simp] theorem yields_ofExcept {r : Except Fault β} :
    (ofExcept r).Yields post ↔ ∀ b, r = .ok b → post b := by
  cases r with
  | error f => simp [ofExcept]
  | ok b => simp [ofExcept, Yields]

@[simp] theorem yields_require {p : Prop} [Decidable p] {f : Fault} {post : Unit → Prop} :
    (require p f).Yields post ↔ (p → post ()) := by
  unfold require
  split <;> simp [Yields, *]

@[simp] theorem yields_lift {p : Program β} {s : σ} {post : β × σ → Prop} :
    ((liftM p : StateT σ Program β).run s).Yields post ↔ p.Yields fun b => post (b, s) := by
  change (p >>= fun b => pure (b, s)).Yields post ↔ _
  simp only [yields_bind, yields_pure]

/-- What follows matters for the results only that there can be. -/
theorem Yields.bind_congr {p : Program γ} {mid : γ → Prop} (h : p.Yields mid)
    {next next' : γ → Program β} (same : ∀ c, mid c → next c = next' c) :
    p >>= next = p >>= next' := by
  induction p with
  | done c => exact same c h
  | fault f => rfl
  | ask r answered ih => exact congrArg (ask r) (funext fun a => ih a (h a))

theorem Yields.ends {p : Program β} (h : p.Yields post)
    (answer : (r : Request) → Action σ r.Answer) (s : σ) :
    (run answer p).Ends s (fun b _ => post b) fun _ _ => True := by
  induction p generalizing s with
  | done b => exact h
  | fault f => trivial
  | ask r next ih =>
    refine Action.ends_bind.mpr (Action.ends_iff.mpr ⟨fun a t _ => ?_, fun _ _ _ => trivial⟩)
    exact ih a (h a) t

end Program

end InodeVolume
