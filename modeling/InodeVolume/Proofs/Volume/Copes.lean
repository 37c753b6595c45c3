import InodeVolume.File.Lookup
import InodeVolume.Proofs.Cache.Refusals
import InodeVolume.Proofs.Volume.Reads

/-!
# Programs that cope with what they find

Nothing is asked of what the sectors hold, and of an allocator only that the sectors it hands out
can be pointed at. `p.Copes post` says that the program then goes on to a result with `post`, and
that nothing of its own stops it but a table without its tag. On a volume it can be stopped by a
device that refuses a transfer and by an allocator that fails, too (`Volume.ends_of_copes`).
-/

namespace InodeVolume

namespace Sector

/-- A pointer can name the sector. -/
def Pointable (s : Sector) : Prop := 0 < s ∧ s < UInt32.size

/-- No sector, or one that a pointer can name. -/
def Granted (s : Option Sector) : Prop := ∀ t, s = some t → Pointable t

theorem granted_none : Granted none := nofun

theorem granted_ofPointer (p : UInt32) : Granted (ofPointer p) := by
  intro t found
  obtain ⟨present, rfl⟩ := ofPointer_eq_some_iff.mp found
  exact ⟨Nat.pos_of_ne_zero fun zero => present (UInt32.toNat.inj zero), p.toNat_lt⟩

theorem toPointer_of_pointable {s : Sector} (h : s.Pointable) :
    toPointer s = .ok (UInt32.ofNat s) := if_pos h.2

end Sector

/-- The fault for a table that does not carry its tag. -/
def PointerTable.Malformed (content : Sector → Block) (f : Fault) : Prop :=
  ∃ s, (decode (content s)).isTagged = false ∧ f = .badTable s (decode (content s)).tag

namespace Program

variable {β γ σ : Type}

/-- With every answer that a volume with this content can give. -/
def CopesWith : Program β → (Sector → Block) → (β → Prop) → Prop
  | done b, _, post => post b
  | fault f, content, _ => PointerTable.Malformed content f
  | ask (.read s) next, content, post =>
    s < UInt32.size ∧ (next (content s)).CopesWith content post
  | ask (.write s data) next, content, post =>
    (next ()).CopesWith (Function.update content s data) post
  | ask .allocate next, content, post =>
    ∀ s, Sector.Granted s → (next s).CopesWith content post
  | ask (.release s) next, content, post => s.Pointable ∧ (next ()).CopesWith content post

section

variable {post : β → Prop} {content : Sector → Block}

theorem copesWith_done {b : β} : (done b).CopesWith content post ↔ post b := Iff.rfl

theorem copesWith_fault {f : Fault} :
    (fault f : Program β).CopesWith content post ↔ PointerTable.Malformed content f := Iff.rfl

theorem copesWith_read {s : Sector} {next : Block → Program β} :
    (ask (.read s) next).CopesWith content post ↔
      s < UInt32.size ∧ (next (content s)).CopesWith content post := Iff.rfl

theorem copesWith_write {s : Sector} {data : Block} {next : Unit → Program β} :
    (ask (.write s data) next).CopesWith content post ↔
      (next ()).CopesWith (Function.update content s data) post := Iff.rfl

theorem copesWith_allocate {next : Option Sector → Program β} :
    (ask .allocate next).CopesWith content post ↔
      ∀ s, Sector.Granted s → (next s).CopesWith content post := Iff.rfl

theorem copesWith_release {s : Sector} {next : Unit → Program β} :
    (ask (.release s) next).CopesWith content post ↔
      s.Pointable ∧ (next ()).CopesWith content post := Iff.rfl

end

-- From here on the equations above take it apart; unfolded, it would carry out the program.
attribute [irreducible] CopesWith

variable {post : β → Prop}

theorem CopesWith.bind {p : Program γ} {mid : γ → Prop} {next : γ → Program β}
    {content : Sector → Block} (h : p.CopesWith content mid)
    (rest : ∀ c, mid c → ∀ content', (next c).CopesWith content' post) :
    (p >>= next).CopesWith content post := by
  induction p generalizing content with
  | done c => exact rest c (copesWith_done.mp h) content
  | fault f => exact copesWith_fault.mpr (copesWith_fault.mp h)
  | ask r answered ih =>
    cases r with
    | read s =>
      obtain ⟨named, h⟩ := copesWith_read.mp h
      exact copesWith_read.mpr ⟨named, ih _ h⟩
    | write s data => exact copesWith_write.mpr (ih _ (copesWith_write.mp h))
    | allocate =>
      exact copesWith_allocate.mpr fun s granted => ih s (copesWith_allocate.mp h s granted)
    | release s =>
      obtain ⟨pointable, h⟩ := copesWith_release.mp h
      exact copesWith_release.mpr ⟨pointable, ih _ h⟩

/-- Whatever the sectors hold. -/
def Copes (p : Program β) (post : β → Prop) : Prop := ∀ content, p.CopesWith content post

theorem copes_pure {b : β} (holds : post b) : (pure b : Program β).Copes post :=
  fun _ => copesWith_done.mpr holds

theorem Copes.bind {p : Program γ} {mid : γ → Prop} {next : γ → Program β} (h : p.Copes mid)
    (rest : ∀ c, mid c → (next c).Copes post) : (p >>= next).Copes post :=
  fun content => (h content).bind rest

theorem Copes.mono {p : Program β} {post' : β → Prop} (h : p.Copes post)
    (weaker : ∀ b, post b → post' b) : p.Copes post' := by
  rw [← bind_pure p]
  exact h.bind fun b holds => copes_pure (weaker b holds)

theorem copes_read_bind {s : Sector} {next : Block → Program β} (named : s < UInt32.size)
    (rest : ∀ content, (next (content s)).CopesWith content post) :
    (read s >>= next).Copes post := fun content => copesWith_read.mpr ⟨named, rest content⟩

theorem copes_read {s : Sector} (named : s < UInt32.size) : (read s).Copes fun _ => True :=
  copes_read_bind named fun _ => copesWith_done.mpr trivial

theorem copes_write (s : Sector) (data : Block) : (write s data).Copes fun _ => True :=
  fun _ => copesWith_write.mpr (copesWith_done.mpr trivial)

theorem copes_allocate : allocate.Copes Sector.Granted :=
  fun _ => copesWith_allocate.mpr fun _ granted => copesWith_done.mpr granted

theorem copes_release {s : Sector} (pointable : s.Pointable) : (release s).Copes fun _ => True :=
  fun _ => copesWith_release.mpr ⟨pointable, copesWith_done.mpr trivial⟩

theorem copesWith_require {p : Prop} [Decidable p] {f : Fault} {content : Sector → Block}
    (malformed : ¬ p → PointerTable.Malformed content f) :
    (require p f).CopesWith content fun _ => True := by
  unfold require
  split
  next => exact copesWith_done.mpr trivial
  next fails => exact copesWith_fault.mpr (malformed fails)

theorem Copes.lift {p : Program β} (h : p.Copes post) (s : σ) :
    ((liftM p : StateT σ Program β).run s).Copes fun q => post q.1 ∧ q.2 = s :=
  h.bind fun _ holds => copes_pure ⟨holds, rfl⟩

theorem copes_forM {ι : Type} (items : List ι) {act : ι → Program Unit}
    (each : ∀ item ∈ items, (act item).Copes fun _ => True) :
    (items.forM act).Copes fun _ => True := by
  induction items with
  | nil => exact copes_pure trivial
  | cons item rest ih =>
    obtain ⟨first, others⟩ := List.forall_mem_cons.mp each
    exact first.bind fun _ _ => ih others

end Program

theorem PointerTable.copes_load {s : Sector} (named : s < UInt32.size) :
    (load s).Copes fun _ => True := by
  rw [load]
  apply Program.copes_read_bind named
  intro content
  have checked : (Program.require (decode (content s)).isTagged
      (.badTable s (decode (content s)).tag)).CopesWith content fun _ => True :=
    Program.copesWith_require fun untagged => ⟨s, Bool.eq_false_iff.mpr untagged, rfl⟩
  exact checked.bind fun _ _ => Program.copes_pure trivial

/-- While `keeps` holds of an allocator, a pointer can name each sector that it hands out. It goes
on to hold if only such sectors are given back. -/
structure Allocator.Grants {α : Type} [Allocator α] (keeps : α → Prop) : Prop where
  allocate {a a' : α} {s : Option Sector} :
    keeps a → Allocator.allocate a 1 = .ok (s, a') → Sector.Granted s ∧ keeps a'
  release {a a' : α} {s : Sector} :
    keeps a → s.Pointable → Allocator.release a s 1 = .ok a' → keeps a'

/-- A space map of no more sectors than there are pointers, whose sector 0 is not free. -/
structure SpaceMap.Addressable (m : SpaceMap) : Prop where
  sound : m.Sound
  capacity : m.capacity ≤ UInt32.size
  null : m.isAllocated Sector.null = true

theorem SpaceMap.addressable_of_new {total reserved : Nat} {m : SpaceMap}
    (made : new total reserved = .ok m) (small : total ≤ UInt32.size) : m.Addressable := by
  obtain ⟨positive, fits⟩ := bounds_of_new made
  obtain ⟨m', made', sound, capacity, used⟩ := new_eq positive fits
  rw [made] at made'
  cases made'
  exact ⟨sound, capacity ▸ small, (used _).mpr positive⟩

theorem SpaceMap.Addressable.grants : Allocator.Grants SpaceMap.Addressable where
  allocate {m m' s} h done := by
    have done : m.allocate 1 = .ok (s, m') := done
    rcases allocate_one h.sound with ⟨_, full⟩ | ⟨t, m₁, taken, inside, unused, _, given⟩
    · rw [full] at done
      cases done
      exact ⟨Sector.granted_none, h⟩
    · rw [taken] at done
      cases done
      have present : t ≠ Sector.null := by
        rintro rfl
        rw [h.null] at unused
        cases unused
      refine ⟨?_, given.sound, given.capacity ▸ h.capacity, (given.isAllocated _).mpr (.inl h.null)⟩
      rintro _ ⟨⟩
      exact ⟨Nat.pos_of_ne_zero present, Nat.lt_of_lt_of_le inside h.capacity⟩
  release {m m' s} h pointable done := by
    have done : m.release s 1 = .ok m' := done
    rcases release_eq h.sound s 1 with ⟨_, f, failed⟩ | ⟨_, m₁, released, given⟩
    · rw [failed] at done
      cases done
    · rw [released] at done
      cases done
      have apart : ¬ (s ≤ Sector.null ∧ Sector.null < s + 1) := fun at_null =>
        Nat.not_le.mpr pointable.1 at_null.1
      exact ⟨given.sound, given.capacity ▸ h.capacity, (given.isAllocated _).mpr ⟨h.null, apart⟩⟩

namespace Volume

variable {δ α β : Type} [Device δ] [LawfulDevice δ]

/-- The volume is in working order, whatever it holds. -/
structure Working (keeps : α → Prop) (v : Volume δ α) : Prop where
  coherent : v.cache.Coherent
  allocator : keeps v.allocator

/-- Nobody can tell the volumes apart who looks at sectors and asks the allocator. -/
structure Unaltered (v v' : Volume δ α) : Prop where
  content : v'.cache.content = v.cache.content
  allocator : v'.allocator = v.allocator

variable [Allocator α]

/-- A fault that no program could have kept away from the volume it has come to. -/
inductive Excuses (v : Volume δ α) (f : Fault) : Prop where
  | malformed : PointerTable.Malformed v.cache.content f → Excuses v f
  | refused : Refusal δ f → Excuses v f
  | allocating : Allocator.allocate v.allocator 1 = .error f → Excuses v f
  | releasing {s : Sector} :
    s.Pointable → Allocator.release v.allocator s 1 = .error f → Excuses v f

variable {keeps : α → Prop} {v : Volume δ α} {p : Program β} {post : β → Prop}

omit [Allocator α] in
theorem Working.preserved (h : v.Working keeps) {cache : Cache δ}
    (kept : Cache.Preserved v.cache cache) : Working keeps { v with cache } :=
  ⟨kept.coherent, h.allocator⟩

variable [AtomicDevice δ]

theorem read_ends (h : v.Working keeps) {s : Sector} (named : s < UInt32.size) :
    (onCache (Cache.read s) : Action (Volume δ α) Block).Ends v
      (fun data v' => data = v.cache.content s ∧ v'.Working keeps ∧ v.Unaltered v')
      (fun f v' => (v'.Excuses f ∧ v'.Working keeps) ∧ v.Unaltered v') := by
  have next : s + 1 < Sector.limit := Nat.lt_of_le_of_lt named (by decide)
  refine Action.ends_onPart.mpr ((Cache.read_ends h.coherent next).mono ?_ ?_)
  · rintro data cache ⟨rfl, kept⟩
    exact ⟨rfl, h.preserved kept, kept.content, rfl⟩
  · rintro f cache ⟨refusal, receded⟩
    exact ⟨⟨.refused refusal, h.preserved receded.toPreserved⟩, receded.content, rfl⟩

theorem write_ends (h : v.Working keeps) (s : Sector) (data : Block) :
    (onCache (Cache.write s data) : Action (Volume δ α) Unit).Ends v
      (fun _ v' => v'.Working keeps ∧ v'.cache.content = Function.update v.cache.content s data)
      (fun f v' => v'.Excuses f ∧ v'.Working keeps) := by
  refine Action.ends_onPart.mpr ((Cache.write_ends h.coherent s data).mono ?_ ?_)
  · rintro _ cache ⟨coherent, written, _⟩
    exact ⟨⟨coherent, h.allocator⟩, written⟩
  · rintro f cache ⟨⟨refusal, receded⟩, _⟩
    exact ⟨.refused refusal, h.preserved receded.toPreserved⟩

omit [AtomicDevice δ] in
theorem allocate_ends (grants : Allocator.Grants keeps) (h : v.Working keeps) :
    (allocate 1 : Action (Volume δ α) (Option Sector)).Ends v
      (fun s v' => Sector.Granted s ∧ v'.Working keeps ∧ v'.cache = v.cache)
      (fun f v' => v'.Excuses f ∧ v'.Working keeps) := by
  refine Action.ends_step.mpr ⟨fun s a answered => ?_, fun f answered => ?_⟩
  · obtain ⟨granted, kept⟩ := grants.allocate h.allocator answered
    exact ⟨granted, ⟨h.coherent, kept⟩, rfl⟩
  · exact ⟨.allocating answered, h⟩

omit [AtomicDevice δ] in
theorem release_ends (grants : Allocator.Grants keeps) (h : v.Working keeps) {s : Sector}
    (pointable : s.Pointable) :
    (release s 1 : Action (Volume δ α) Unit).Ends v
      (fun _ v' => v'.Working keeps ∧ v'.cache = v.cache)
      (fun f v' => v'.Excuses f ∧ v'.Working keeps) := by
  refine Action.ends_step.mpr ⟨fun _ a answered => ?_, fun f answered => ?_⟩
  · cases released : Allocator.release v.allocator s 1 with
    | error f =>
      rw [released] at answered
      cases answered
    | ok a' =>
      rw [released] at answered
      cases answered
      exact ⟨⟨h.coherent, grants.release h.allocator pointable released⟩, rfl⟩
  · cases released : Allocator.release v.allocator s 1 with
    | error f' =>
      rw [released] at answered
      cases answered
      exact ⟨.releasing pointable released, h⟩
    | ok a =>
      rw [released] at answered
      cases answered

/-- A program that copes ends well, or with a fault that it could not keep away. -/
theorem ends_of_copes (grants : Allocator.Grants keeps) (h : v.Working keeps)
    (copes : p.CopesWith v.cache.content post) :
    (perform p).Ends v (fun b v' => post b ∧ v'.Working keeps)
      fun f v' => v'.Excuses f ∧ v'.Working keeps := by
  induction p generalizing v with
  | done b => exact ⟨Program.copesWith_done.mp copes, h⟩
  | fault f => exact ⟨.malformed (Program.copesWith_fault.mp copes), h⟩
  | ask r next ih =>
    refine Action.ends_bind.mpr ?_
    cases r with
    | read s =>
      obtain ⟨named, copes⟩ := Program.copesWith_read.mp copes
      refine (read_ends h named).mono ?_ fun _ _ => And.left
      rintro _ v' ⟨rfl, working, unaltered⟩
      refine ih _ working ?_
      rw [unaltered.content]
      exact copes
    | write s data =>
      refine (write_ends h s data).mono ?_ fun _ _ => id
      rintro _ v' ⟨working, written⟩
      refine ih _ working ?_
      rw [written]
      exact Program.copesWith_write.mp copes
    | allocate =>
      refine (allocate_ends grants h).mono ?_ fun _ _ => id
      rintro s v' ⟨granted, working, same⟩
      refine ih s working ?_
      rw [same]
      exact Program.copesWith_allocate.mp copes s granted
    | release s =>
      obtain ⟨pointable, copes⟩ := Program.copesWith_release.mp copes
      refine (release_ends grants h pointable).mono ?_ fun _ _ => id
      rintro _ v' ⟨working, same⟩
      refine ih _ working ?_
      rw [same]
      exact copes

/-- A program that only reads leaves everything as it was, also where it is stopped. -/
theorem unaltered_of_reads (h : v.Working keeps) (copes : p.CopesWith v.cache.content post)
    (reads : p.Reads) :
    (perform p).Ends v (fun _ v' => v.Unaltered v') fun _ v' => v.Unaltered v' := by
  induction p generalizing v with
  | done | fault => exact ⟨rfl, rfl⟩
  | ask r next ih =>
    cases r with
    | read s =>
      obtain ⟨named, copes⟩ := Program.copesWith_read.mp copes
      refine Action.ends_bind.mpr ((read_ends h named).mono ?_ fun _ _ => And.right)
      rintro _ v' ⟨rfl, working, unaltered⟩
      have on {v'' : Volume δ α} (later : v'.Unaltered v'') : v.Unaltered v'' :=
        ⟨later.content.trans unaltered.content, later.allocator.trans unaltered.allocator⟩
      have still : (next (v.cache.content s)).CopesWith v'.cache.content post := by
        rw [unaltered.content]
        exact copes
      have later := ih _ working still ((Program.reads_ask.mp reads).2 _)
      exact later.mono (fun _ _ => on) fun _ _ => on
    | write | allocate | release => exact (Program.reads_ask.mp reads).1.elim

end Volume

end InodeVolume
