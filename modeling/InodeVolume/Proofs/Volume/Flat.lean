import InodeVolume.Proofs.Cache.Content
import InodeVolume.Proofs.Space.Mapped
import InodeVolume.Volume

/-!
# Flat volumes

A flat volume has its content at hand: no cache, no device. It answers the
requests of a program as well, and whatever a program does on it, it does on a
cached volume that shows the same content (`perform_flat`).
-/

namespace InodeVolume

structure Flat (α : Type) where
  content : Sector → Block
  /-- The number of sectors that there are. -/
  limit : Nat
  allocator : α

namespace Flat

variable {α : Type} [Allocator α]

def answer : (r : Request) → Action (Flat α) r.Answer
  | .read s => fun v =>
    if s < v.limit then .ok (v.content s) v else .error (.blockOutOfRange s) v
  | .write s data => fun v =>
    if s < v.limit then .ok () { v with content := Function.update v.content s data }
    else .error (.blockOutOfRange s) v
  | .allocate =>
    .step Flat.allocator (fun allocator v => { v with allocator }) (Allocator.allocate · 1)
  | .release s =>
    .step Flat.allocator (fun allocator v => { v with allocator }) fun a =>
      (Allocator.release a s 1).map ((), ·)

end Flat

/-- Where every answer that is given over `τ` is given over `σ` as well, so is the result of a
whole program. -/
theorem Program.run_simulates {σ τ β : Type} {answer : (r : Request) → Action σ r.Answer}
    {answer' : (r : Request) → Action τ r.Answer} {rel : σ → τ → Prop}
    (step : ∀ s t (r : Request) (a : r.Answer) t', rel s t → answer' r t = .ok a t' →
      ∃ s', answer r s = .ok a s' ∧ rel s' t')
    {p : Program β} {s : σ} {t t' : τ} {b : β} (h : rel s t) (done : p.run answer' t = .ok b t') :
    ∃ s', p.run answer s = .ok b s' ∧ rel s' t' := by
  induction p generalizing s t with
  | done b' =>
    cases done
    exact ⟨s, rfl, h⟩
  | fault f => cases done
  | ask r next ih =>
    change EStateM.bind (answer' r) _ t = _ at done
    simp only [EStateM.bind] at done
    cases asked : answer' r t with
    | error f u =>
      rw [asked] at done
      cases done
    | ok a u =>
      rw [asked] at done
      obtain ⟨middle, answered, related⟩ := step s t r a u h asked
      obtain ⟨s', finished, rest⟩ := ih a related done
      refine ⟨s', ?_, rest⟩
      change EStateM.bind (answer r) _ s = _
      simp only [EStateM.bind, answered]
      exact finished

namespace Volume

variable {δ α β : Type} [Device δ] [LawfulDevice δ]

def flat (v : Volume δ α) : Flat α where
  content := v.cache.content
  limit := Device.blockCount v.cache.device
  allocator := v.allocator

theorem step_flat {v : Volume δ α} (h : v.cache.Consistent) {f : α → Except Fault (β × α)} {b : β}
    {w : Flat α}
    (done : (Action.step Flat.allocator (fun allocator v => { v with allocator }) f :
      Action (Flat α) β) v.flat = .ok b w) :
    ∃ v', (Action.step Volume.allocator (fun allocator v => { v with allocator }) f :
      Action (Volume δ α) β) v = .ok b v' ∧ v'.cache.Consistent ∧ v'.flat = w := by
  simp only [Action.step, flat] at done ⊢
  cases answered : f v.allocator with
  | error fault =>
    rw [answered] at done
    cases done
  | ok p =>
    rw [answered] at done
    cases done
    exact ⟨_, rfl, h, rfl⟩

variable [Allocator α]

theorem answer_flat {v : Volume δ α} (h : v.cache.Consistent) {r : Request} {a : r.Answer}
    {w : Flat α} (done : Flat.answer r v.flat = .ok a w) :
    ∃ v', answer r v = .ok a v' ∧ v'.cache.Consistent ∧ v'.flat = w := by
  cases r with
  | read s =>
    simp only [Flat.answer] at done
    split at done
    next inside =>
      cases done
      obtain ⟨cache, loaded, kept⟩ := Cache.read_eq h inside
      refine ⟨{ v with cache }, ?_, kept.consistent, ?_⟩
      · simp only [answer, onCache, Action.onPart, loaded]
        rfl
      · simp only [flat, kept.content, kept.blockCount]
    next => cases done
  | write s data =>
    simp only [Flat.answer] at done
    split at done
    next inside =>
      cases done
      obtain ⟨cache, stored, written⟩ := Cache.write_eq h inside data
      refine ⟨{ v with cache }, ?_, written.consistent, ?_⟩
      · simp only [answer, onCache, Action.onPart, stored]
      · simp only [flat, written.content, written.blockCount]
    next => cases done
  | allocate =>
    simp only [Flat.answer] at done
    exact step_flat h done
  | release s =>
    simp only [Flat.answer] at done
    exact step_flat h done

/-- What a program does on the flat volume it does on the cached one. -/
theorem perform_flat {v : Volume δ α} (h : v.cache.Consistent) {p : Program β} {b : β} {w : Flat α}
    (done : p.run Flat.answer v.flat = .ok b w) :
    ∃ v', perform p v = .ok b v' ∧ v'.cache.Consistent ∧ v'.flat = w := by
  have step (v : Volume δ α) (w : Flat α) (r : Request) (a : r.Answer) (w' : Flat α)
      (related : v.cache.Consistent ∧ v.flat = w) (answered : Flat.answer r w = .ok a w') :
      ∃ v', answer r v = .ok a v' ∧ v'.cache.Consistent ∧ v'.flat = w' := by
    obtain ⟨consistent, rfl⟩ := related
    exact answer_flat consistent answered
  exact Program.run_simulates step ⟨h, rfl⟩ done

end Volume

end InodeVolume
