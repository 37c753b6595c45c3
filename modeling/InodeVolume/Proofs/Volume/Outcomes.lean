import InodeVolume.Proofs.Cache.Refusals
import InodeVolume.Proofs.Volume.Returns
import InodeVolume.Proofs.Volume.Yields

/-!
# Volumes over devices that refuse transfers

Such a volume need not do what a program asks. But whenever a program returns, it has done
what it does on a flat volume with the same content, as many sectors as that may have.
-/

namespace InodeVolume

namespace Program

variable {α β : Type} [Allocator α] {p : Program β} {v : Flat α} {post post' : β → Flat α → Prop}

theorem Returns.and (h : p.Returns v post) (h' : p.Returns v post') :
    p.Returns v fun b w => post b w ∧ post' b w := by
  obtain ⟨b, w, done, holds⟩ := h
  obtain ⟨b', w', done', holds'⟩ := h'
  rw [done] at done'
  cases done'
  exact ⟨b, w, done, holds, holds'⟩

theorem Returns.and_yields (h : p.Returns v post) {result : β → Prop} (yields : p.Yields result) :
    p.Returns v fun b w => post b w ∧ result b := by
  obtain ⟨b, w, done, holds⟩ := h
  exact ⟨b, w, done, holds, (yields.ends Flat.answer v).ok done⟩

end Program

namespace Volume

variable {δ α β : Type} [Device δ] [LawfulDevice δ]

/-- The flat volume of `limit` sectors with the content that is seen through the cache. -/
def flatTo (limit : Nat) (v : Volume δ α) : Flat α := ⟨v.cache.content, limit, v.allocator⟩

/-- What is seen of the cached volume is the flat one. -/
structure CoherentWithFlat (v : Volume δ α) (w : Flat α) : Prop where
  coherent : v.cache.Coherent
  flat : v.flatTo w.limit = w
  /-- Every sector of it can be read ahead of. -/
  bounded : w.limit < Sector.limit

variable {v : Volume δ α} {w w' : Flat α}

theorem CoherentWithFlat.content (h : v.CoherentWithFlat w) : v.cache.content = w.content :=
  congrArg Flat.content h.flat

theorem CoherentWithFlat.allocator (h : v.CoherentWithFlat w) : v.allocator = w.allocator :=
  congrArg Flat.allocator h.flat

theorem CoherentWithFlat.preserved (h : v.CoherentWithFlat w) {cache : Cache δ}
    (kept : Cache.Preserved v.cache cache) : CoherentWithFlat { v with cache } w where
  coherent := kept.coherent
  flat := by
    rw [flatTo, kept.content]
    exact h.flat
  bounded := h.bounded

theorem CoherentWithFlat.step_ends (h : v.CoherentWithFlat w) {f : α → Except Fault (β × α)} {b : β}
    (done : (Action.step Flat.allocator (fun allocator v => { v with allocator }) f :
      Action (Flat α) β) w = .ok b w') :
    (Action.step Volume.allocator (fun allocator v => { v with allocator }) f :
      Action (Volume δ α) β).Ends v (fun b' v' => b' = b ∧ v'.CoherentWithFlat w')
      fun _ _ => True := by
  unfold Action.Ends Action.step
  unfold Action.step at done
  rw [h.allocator]
  cases answered : f w.allocator with
  | error fault =>
    rw [answered] at done
    cases done
  | ok p =>
    rw [answered] at done
    cases done
    exact ⟨rfl, h.coherent, congrArg (Flat.mk · w.limit p.2) h.content, h.bounded⟩

variable [AtomicDevice δ] [Allocator α]

theorem CoherentWithFlat.answer_ends (h : v.CoherentWithFlat w) {r : Request}
    {a : r.Answer} (done : Flat.answer r w = .ok a w') :
    (answer r).Ends v (fun a' v' => a' = a ∧ v'.CoherentWithFlat w') fun _ _ => True := by
  cases r with
  | read s =>
    simp only [Flat.answer] at done
    split at done
    next inside =>
      cases done
      refine Action.ends_onPart.mpr ((Cache.read_ends h.coherent ?_).mono ?_ fun _ _ _ => trivial)
      · exact Nat.lt_of_le_of_lt inside h.bounded
      · rintro data cache ⟨rfl, kept⟩
        exact ⟨congrFun h.content s, h.preserved kept⟩
    next => cases done
  | write s data =>
    simp only [Flat.answer] at done
    split at done
    next inside =>
      cases done
      refine Action.ends_onPart.mpr ((Cache.write_ends h.coherent s data).mono ?_
        fun _ _ _ => trivial)
      rintro _ cache ⟨coherent, written, _⟩
      refine ⟨rfl, coherent, ?_, h.bounded⟩
      rw [flatTo, written, h.content, h.allocator]
    next => cases done
  | allocate =>
    simp only [Flat.answer] at done
    exact h.step_ends done
  | release s =>
    simp only [Flat.answer] at done
    exact h.step_ends done

/-- What a program does on the flat volume, it does on the cached one, or else it stops. -/
theorem CoherentWithFlat.perform_ends (h : v.CoherentWithFlat w) {p : Program β} {b : β}
    (done : p.run Flat.answer w = .ok b w') :
    (perform p).Ends v (fun b' v' => b' = b ∧ v'.CoherentWithFlat w') fun _ _ => True := by
  induction p generalizing v w with
  | done b' =>
    cases done
    exact ⟨rfl, h⟩
  | fault f => cases done
  | ask r next ih =>
    change EStateM.bind (Flat.answer r) _ w = _ at done
    simp only [EStateM.bind] at done
    cases asked : Flat.answer r w with
    | error f u =>
      rw [asked] at done
      cases done
    | ok a u =>
      rw [asked] at done
      refine Action.ends_bind.mpr ((h.answer_ends asked).mono ?_ fun _ _ => id)
      rintro _ v' ⟨rfl, related⟩
      exact ih _ related done

end Volume

end InodeVolume
