import InodeVolume.Proofs.Volume.Flat

/-!
# What programs return

`p.Returns v post` says that the program does not stop at a fault on the flat
volume `v`, and what its result and the volume after it satisfy. The equations
below take a program apart from its first request on.
-/

namespace InodeVolume

namespace Program

variable {α β γ : Type} [Allocator α]

def Returns (p : Program β) (v : Flat α) (post : β → Flat α → Prop) : Prop :=
  ∃ b w, p.run Flat.answer v = .ok b w ∧ post b w

variable {v : Flat α} {post : β → Flat α → Prop}

theorem Returns.mono {p : Program β} {post' : β → Flat α → Prop} (h : p.Returns v post)
    (weaker : ∀ b w, post b w → post' b w) : p.Returns v post' := by
  obtain ⟨b, w, done, holds⟩ := h
  exact ⟨b, w, done, weaker b w holds⟩

@[simp] theorem returns_done {b : β} : (done b).Returns v post ↔ post b v :=
  ⟨by rintro ⟨_, _, ⟨⟩, holds⟩; exact holds, fun holds => ⟨b, v, rfl, holds⟩⟩

@[simp] theorem returns_pure {b : β} : (pure b : Program β).Returns v post ↔ post b v := returns_done

@[simp] theorem returns_fault {f : Fault} : (fault f : Program β).Returns v post ↔ False :=
  ⟨by rintro ⟨_, _, ⟨⟩, _⟩, False.elim⟩

@[simp] theorem returns_bind {p : Program γ} {next : γ → Program β} :
    (p >>= next).Returns v post ↔ p.Returns v fun c w => (next c).Returns w post := by
  simp only [Returns, run_bind]
  constructor
  · rintro ⟨b, w, finished, holds⟩
    change EStateM.bind _ _ v = _ at finished
    simp only [EStateM.bind] at finished
    split at finished
    next c middle first => exact ⟨c, middle, first, b, w, finished, holds⟩
    next => cases finished
  · rintro ⟨c, middle, first, b, w, finished, holds⟩
    refine ⟨b, w, ?_, holds⟩
    change EStateM.bind _ _ v = _
    simp only [EStateM.bind, first]
    exact finished

theorem returns_ask {r : Request} {post : r.Answer → Flat α → Prop} :
    (ask r done).Returns v post ↔ ∃ a w, Flat.answer r v = .ok a w ∧ post a w := by
  have same : (run Flat.answer (ask r done) : Action (Flat α) _) v = Flat.answer r v := by
    change EStateM.bind (Flat.answer r) _ v = _
    simp only [EStateM.bind]
    cases Flat.answer r v <;> rfl
  simp only [Returns, same]

@[simp] theorem returns_read {s : Sector} {post : Block → Flat α → Prop} :
    (read s).Returns v post ↔ s < v.limit ∧ post (v.content s) v := by
  rw [read, returns_ask]
  simp only [Flat.answer]
  constructor
  · rintro ⟨a, w, finished, holds⟩
    split at finished
    next inside =>
      cases finished
      exact ⟨inside, holds⟩
    next => cases finished
  · rintro ⟨inside, holds⟩
    exact ⟨_, _, if_pos inside, holds⟩

@[simp] theorem returns_write {s : Sector} {data : Block} {post : Unit → Flat α → Prop} :
    (write s data).Returns v post ↔
      s < v.limit ∧ post () { v with content := Function.update v.content s data } := by
  rw [write, returns_ask]
  simp only [Flat.answer]
  constructor
  · rintro ⟨a, w, finished, holds⟩
    split at finished
    next inside =>
      cases finished
      exact ⟨inside, holds⟩
    next => cases finished
  · rintro ⟨inside, holds⟩
    exact ⟨_, _, if_pos inside, holds⟩

@[simp] theorem returns_ofExcept {r : Except Fault β} :
    (ofExcept r).Returns v post ↔ ∃ b, r = .ok b ∧ post b v := by
  cases r <;> simp [ofExcept]

@[simp] theorem returns_require {p : Prop} [Decidable p] {f : Fault} {post : Unit → Flat α → Prop} :
    (require p f).Returns v post ↔ p ∧ post () v := by
  unfold require
  split <;> simp [*]

@[simp] theorem returns_lift {σ : Type} {p : Program β} {s : σ} {post : β × σ → Flat α → Prop} :
    ((liftM p : StateT σ Program β).run s).Returns v post ↔
      p.Returns v fun b w => post (b, s) w := by
  change (p >>= fun b => pure (b, s)).Returns v post ↔ _
  simp only [returns_bind, returns_pure]

/-- An invariant of each step is one of a whole list of steps. -/
theorem returns_forM {ι : Type} (items : List ι) (act : ι → Program Unit)
    (invariant : List ι → Flat α → Prop) (start : invariant [] v)
    (step : ∀ earlier item later w, items = earlier ++ item :: later → invariant earlier w →
      (act item).Returns w fun _ => invariant (earlier ++ [item])) :
    (items.forM act).Returns v fun _ => invariant items := by
  suffices rest : ∀ earlier later w, items = earlier ++ later → invariant earlier w →
      (later.forM act).Returns w fun _ => invariant items from rest [] items v rfl start
  intro earlier later
  induction later generalizing earlier with
  | nil =>
    intro w whole holds
    rw [List.append_nil] at whole
    exact returns_pure.mpr (whole ▸ holds)
  | cons item later ih =>
    intro w whole holds
    change (act item >>= fun _ => later.forM act).Returns w _
    refine returns_bind.mpr ((step earlier item later w whole holds).mono fun _ w' holds' => ?_)
    exact ih (earlier ++ [item]) w' (by simpa using whole) holds'

end Program

namespace Volume

variable {δ α β : Type} [Device δ] [LawfulDevice δ] [Allocator α]

/-- A program that returns on what a cached volume shows returns on the volume itself. -/
theorem perform_of_returns {v : Volume δ α} (h : v.cache.Consistent) {p : Program β}
    {post : β → Flat α → Prop} (returns : p.Returns v.flat post) :
    ∃ b v', perform p v = .ok b v' ∧ v'.cache.Consistent ∧ post b v'.flat := by
  obtain ⟨b, w, done, holds⟩ := returns
  obtain ⟨v', finished, consistent, rfl⟩ := perform_flat h done
  exact ⟨b, v', finished, consistent, holds⟩

end Volume

end InodeVolume
