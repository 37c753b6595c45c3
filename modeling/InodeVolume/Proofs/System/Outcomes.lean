import InodeVolume.Proofs.System.Changes
import InodeVolume.Proofs.System.Mounting
import InodeVolume.Proofs.Volume.Outcomes

/-!
# File systems over devices that refuse transfers

Whenever an operation in order returns, it is answered as the archive demands, and the file
system goes on standing for the archive. Whether it returns is up to the device.
-/

namespace InodeVolume

namespace FileSystem

variable {δ α β : Type} [Device δ] [LawfulDevice δ] [AtomicDevice δ] [Allocator α]
  {fs fs' : FileSystem δ α} {g : Registry} {v w : Flat α} {a : Archive} {op : Operation}
  {answer : Answer}

/-- The file system has the registry `g` and a volume that shows what `w` does. -/
structure CoherentWithFlat (fs : FileSystem δ α) (g : Registry) (w : Flat α) : Prop where
  volume : fs.volume.CoherentWithFlat w
  registry : fs.registry = g

theorem CoherentWithFlat.onFiles_ends (h : fs.CoherentWithFlat g v) {act : Filing β} {b : β}
    {g' : Registry} (done : (act.run g).run Flat.answer v = .ok (b, g') w) :
    (onFiles act).Ends fs (fun b' fs' => b' = b ∧ fs'.CoherentWithFlat g' w) fun _ _ => True := by
  unfold onFiles
  rw [Action.ends_get_bind, Action.ends_bind, h.registry]
  refine Action.ends_onPart.mpr ((h.volume.perform_ends done).mono ?_ fun _ _ => id)
  rintro _ volume ⟨rfl, related⟩
  exact ⟨rfl, related, rfl⟩

omit [AtomicDevice δ] [Allocator α] in
theorem CoherentWithFlat.onCache_ends (h : fs.CoherentWithFlat g v) {act : Action (Cache δ) β}
    (kept : act.Ends fs.volume.cache (fun _ c => Cache.Preserved fs.volume.cache c)
      fun _ _ => True) :
    (onCache act).Ends fs (fun _ fs' => fs'.CoherentWithFlat g v) fun _ _ => True := by
  refine Action.ends_onPart.mpr (Action.ends_onPart.mpr (kept.mono ?_ fun _ _ => id))
  exact fun _ cache preserved => ⟨h.volume.preserved preserved, h.registry⟩

omit [Allocator α] in
theorem moving_ends {c : Cache δ} (h : c.Coherent) (op : Operation) :
    op.moving.Ends c (fun _ c' => Cache.Preserved c c') fun _ _ => True := by
  cases op with
  | sync | drain =>
    exact (Cache.drain_ends h).mono (fun _ _ receded => receded.toPreserved) fun _ _ _ => trivial
  | flush s =>
    exact (Cache.flush_ends h s).mono (fun _ _ receded => receded.toPreserved) fun _ _ _ => trivial
  | prefetch s => exact (Cache.prefetch_ends h s).mono (fun _ _ => id) fun _ _ _ => trivial
  | allocate | create | openAt | reopen | close | remove | forbid | permit | read | write
  | locate => exact .refl h

/-- What an operation does with the flat volume, it does with the cached one, or it stops. -/
theorem CoherentWithFlat.perform_ends (h : fs.CoherentWithFlat g v) {g' : Registry}
    (done : (op.filing.run g).run Flat.answer v = .ok (answer, g') w) :
    (perform op).Ends fs (fun answer' fs' => answer' = answer ∧ fs'.CoherentWithFlat g' w)
      fun _ _ => True := by
  rw [perform_eq_filing]
  refine Action.ends_bind.mpr ?_
  refine (h.onCache_ends (moving_ends h.volume.coherent op)).mono ?_ fun _ _ => id
  exact fun _ _ simulation => simulation.onFiles_ends done

/-- Where an operation returns well on the flat volume, it ends well or stops. -/
theorem CoherentWithFlat.ends_of_returns (h : fs.CoherentWithFlat g v)
    {post : Answer × Registry → Flat α → Prop} (returns : (op.filing.run g).Returns v post) :
    (perform op).Ends fs (fun answer fs' => ∃ w, fs'.volume.CoherentWithFlat w ∧
      post (answer, fs'.registry) w) fun _ _ => True := by
  obtain ⟨⟨answer, g'⟩, w, done, holds⟩ := returns
  refine (h.perform_ends done).mono ?_ fun _ _ => id
  rintro _ fs' ⟨rfl, related, rfl⟩
  exact ⟨w, related, holds⟩

omit [LawfulDevice δ] [AtomicDevice δ] in
theorem onFiles_yields {act : Filing β} {post : β × Registry → Prop}
    (yields : (act.run fs.registry).Yields post) :
    (onFiles act).Ends fs (fun b fs' => post (b, fs'.registry)) fun _ _ => True := by
  unfold onFiles
  rw [Action.ends_get_bind, Action.ends_bind]
  refine Action.ends_onPart.mpr ((yields.ends Volume.answer fs.volume).mono ?_ fun _ _ => id)
  exact fun _ _ => id

omit [LawfulDevice δ] [AtomicDevice δ] in
/-- An operation that has returned has done what its program can do at all. -/
theorem post_of_done {post : Answer × Registry → Prop}
    (yields : (op.filing.run fs.registry).Yields post) (done : perform op fs = .ok answer fs') :
    post (answer, fs'.registry) := by
  rw [perform_eq_filing] at done
  have ends : (do onCache op.moving; onFiles op.filing : Action (FileSystem δ α) Answer).Ends fs
      (fun answer fs' => post (answer, fs'.registry)) fun _ _ => True := by
    refine Action.ends_bind.mpr (Action.ends_onPart.mpr (Action.ends_onPart.mpr ?_))
    exact Action.ends_iff.mpr ⟨fun _ _ _ => onFiles_yields yields, fun _ _ _ => trivial⟩
  exact ends.ok done

omit [LawfulDevice δ] [AtomicDevice δ] in
/-- A close that returns leaves no more denials than openers. -/
theorem spare_of_closed {id : InodeId} (done : perform (.close id) fs = .ok answer fs') :
    ∃ i, fs.registry.inodes[id]? = some i ∧ i.denials < i.openers := by
  have yields : ((Operation.close id).filing.run fs.registry).Yields fun _ =>
      ∃ i, fs.registry.inodes[id]? = some i ∧ i.denials < i.openers :=
    yields_wrap.mpr (Registry.yields_close (fun i found others _ => ⟨i, found, by omega⟩)
      fun i found one undenied => ⟨i, found, by omega⟩)
  exact post_of_done yields done

omit [LawfulDevice δ] [AtomicDevice δ] in
theorem spare_of_forbidden {id : InodeId} (done : perform (.forbid id) fs = .ok answer fs') :
    ∃ i, fs.registry.inodes[id]? = some i ∧ i.denials < i.openers := by
  have yields : ((Operation.forbid id).filing.run fs.registry).Yields fun _ =>
      ∃ i, fs.registry.inodes[id]? = some i ∧ i.denials < i.openers := by
    refine yields_wrap.mpr ?_
    simp only [Registry.forbid, StateT.run_bind, Program.yields_bind, Registry.yields_inode,
      Program.yields_lift, Program.yields_ofExcept, Registry.run_put, Program.yields_pure]
    exact fun i found i' forbidden => ⟨i, found, Inode.spare_of_forbid forbidden⟩
  exact post_of_done yields done

variable [MappedAllocator α]

/-- With what the volume shows, the registry stands for the archive. -/
def CoherentlyRealizes (fs : FileSystem δ α) (a : Archive) : Prop :=
  ∃ w, fs.volume.CoherentWithFlat w ∧ Represents w fs.registry a

end FileSystem

end InodeVolume
