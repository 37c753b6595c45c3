import InodeVolume.Proofs.System.Sharing
import InodeVolume.Session.Basic

/-!
# Handles of a session

In every session all who have handles of one sector share its one inode, so that whatever is
done through one of the handles is seen through all of them.
-/

namespace InodeVolume

namespace Outstanding

open Session (Command Reply)

/-- Only handles that are out are closed or opened anew. -/
def Allows (o : Outstanding) : Command → Prop
  | .reopen handle | .close handle => handle ∈ o.handles
  | _ => True

instance (o : Outstanding) : DecidablePred o.Allows := by
  intro command
  unfold Allows
  split <;> infer_instance

def after (o : Outstanding) : Command → Reply → Outstanding
  | .openAt home, .opened handle _ _ => o.give handle home
  | .reopen handle, .opened handle' _ _ => o.give handle' (o.home handle)
  | .close handle, _ => o.take handle
  | .remount _, _ | .crash _, _ => {}
  | _, _ => o

end Outstanding

namespace Session

/-- The same command through another handle, where it has one. -/
def Command.through (handle : Nat) : Command → Command
  | .reopen _ => .reopen handle
  | .close _ => .close handle
  | .remove _ => .remove handle
  | .forbid _ => .forbid handle
  | .permit _ => .permit handle
  | .inspect _ => .inspect handle
  | .locate _ offset count forWrite => .locate handle offset count forWrite
  | .read _ offset count => .read handle offset count
  | .write _ offset data => .write handle offset data
  | command => command

variable {δ α β γ : Type} {s s' : Session δ α} {o : Outstanding}

section Names

def idOf? (s : Session δ α) (handle : Nat) : Option InodeId :=
  if s.retired ≤ handle then s.handles[handle - s.retired]? else none

def nextHandle (s : Session δ α) : Nat := s.retired + s.handles.size

theorem inodeOf_eq (handle : Nat) (s : Session δ α) : inodeOf handle s =
    match s.idOf? handle with
    | some id => .ok id s
    | none => .error .unknownHandle s := by
  unfold inodeOf
  rw [Action.get_bind]
  change (match s.idOf? handle with | some id => pure id | none => throw .unknownHandle :
    Action (Session δ α) InodeId) s = _
  cases s.idOf? handle <;> rfl

theorem inodeOf_eq_ok {handle : Nat} {id : InodeId} :
    inodeOf handle s = .ok id s' ↔ s.idOf? handle = some id ∧ s' = s := by
  rw [inodeOf_eq]
  cases s.idOf? handle with
  | none => simp
  | some id' => simp [eq_comm]

theorem idOf?_congr (handles : s'.handles = s.handles) (retired : s'.retired = s.retired) :
    s'.idOf? = s.idOf? := by
  funext handle
  simp only [idOf?, handles, retired]

theorem idOf?_nextHandle (s : Session δ α) : s.idOf? s.nextHandle = none := by
  simp [idOf?, nextHandle]

theorem idOf?_push {id : InodeId} (handles : s'.handles = s.handles.push id)
    (retired : s'.retired = s.retired) :
    s'.idOf? = Function.update s.idOf? s.nextHandle (some id) := by
  funext handle
  by_cases next : handle = s.nextHandle
  · subst next
    simp [idOf?, nextHandle, handles, retired]
  · rw [Function.update_of_ne next]
    simp only [idOf?, handles, retired]
    split
    next given =>
      have other : handle - s.retired ≠ s.handles.size := by
        unfold nextHandle at next
        omega
      rw [Array.getElem?_push, if_neg other]
    next => rfl

end Names

/-- The handles that are out lead to inodes with as many openers as handles. -/
def Shares (s : Session δ α) (o : Outstanding) : Prop := s.registry.Shares s.idOf? o

section Tunes

/-- Handles stay as they are, and of the inodes nothing changes that counts them. -/
structure Tuned (s s' : Session δ α) : Prop where
  handles : s'.handles = s.handles
  retired : s'.retired = s.retired
  registry : s.registry.Tuned s'.registry

theorem Tuned.refl (s : Session δ α) : s.Tuned s := ⟨rfl, rfl, .refl _⟩

theorem Tuned.trans {s'' : Session δ α} (h : s.Tuned s') (h' : s'.Tuned s'') : s.Tuned s'' :=
  ⟨h'.handles.trans h.handles, h'.retired.trans h.retired, h.registry.trans h'.registry⟩

theorem Tuned.idOf? (h : s.Tuned s') : s'.idOf? = s.idOf? := idOf?_congr h.handles h.retired

theorem Shares.tuned (h : s.Shares o) (tuned : s.Tuned s') : s'.Shares o := by
  unfold Shares
  rw [tuned.idOf?]
  exact Registry.Shares.tuned h tuned.registry

/-- Whenever the action returns, it has tuned the session at most. -/
def Tunes (act : Action (Session δ α) β) : Prop :=
  ∀ s, act.Ends s (fun _ s' => s.Tuned s') fun _ _ => True

variable {act : Action (Session δ α) β} {next : β → Action (Session δ α) γ}

theorem Shares.keeps (h : s.Shares o) (tunes : Tunes act) :
    act.Ends s (fun _ s' => s'.Shares o) fun _ _ => True :=
  (tunes s).mono (fun _ _ => h.tuned) fun _ _ => id

theorem tunes_pure (b : β) : Tunes (pure b : Action (Session δ α) β) := .refl

theorem tunes_throw (f : Fault) : Tunes (throw f : Action (Session δ α) β) := fun _ => trivial

theorem tunes_get : Tunes (get : Action (Session δ α) (Session δ α)) := .refl

theorem Tunes.bind (first : Tunes act) (rest : ∀ b, Tunes (next b)) : Tunes (act >>= next) := by
  intro s
  refine Action.ends_bind.mpr ((first s).mono (fun b s' tuned => ?_) fun _ _ => id)
  exact (rest b s').mono (fun _ _ => tuned.trans) fun _ _ => id

theorem Tunes.return (tunes : Tunes act) (f : β → γ) : Tunes (do return f (← act)) :=
  tunes.bind fun b => tunes_pure (f b)

theorem tunes_ofExcept (r : Except Fault β) :
    Tunes (Action.ofExcept r : Action (Session δ α) β) := by
  cases r with
  | error f => exact tunes_throw f
  | ok b => exact tunes_pure b

theorem tunes_checkBuffer (size : Nat) : Tunes (checkBuffer size : Action (Session δ α) Unit) := by
  unfold checkBuffer
  split
  · exact tunes_throw _
  · exact tunes_pure _

theorem tunes_onVolume (act : Action (Volume (Drive δ) (Ledger α)) β) : Tunes (onVolume act) := by
  intro s
  refine Action.ends_onPart.mpr (Action.ends_iff.mpr ⟨fun _ _ _ => ?_, fun _ _ _ => trivial⟩)
  exact ⟨rfl, rfl, .refl _⟩

theorem tunes_setLookahead (l : Lookahead) :
    Tunes (setLookahead l : Action (Session δ α) Unit) := by
  unfold setLookahead
  exact tunes_onVolume _

theorem tunes_inodeOf (handle : Nat) : Tunes (inodeOf handle : Action (Session δ α) InodeId) := by
  intro s
  refine Action.ends_iff.mpr ⟨fun id s' done => ?_, fun _ _ _ => trivial⟩
  obtain ⟨_, rfl⟩ := inodeOf_eq_ok.mp done
  exact .refl s'

variable [Device δ] [Allocator α]

theorem onFiles_ends {act : Filing β} {post : β × Registry → Prop}
    (yields : (act.run s.registry).Yields post) : (onFiles act).Ends s
      (fun b s' => s'.handles = s.handles ∧ s'.retired = s.retired ∧ post (b, s'.registry))
      fun _ _ => True := by
  unfold onFiles
  rw [Action.ends_get_bind, Action.ends_bind]
  refine Action.ends_onPart.mpr ((yields.ends Volume.answer s.volume).mono ?_ fun _ _ => id)
  rintro ⟨b, g⟩ v holds
  exact ⟨rfl, rfl, holds⟩

theorem tunes_onFiles {act : Filing β}
    (yields : ∀ g, (act.run g).Yields fun (_, g') => g.Tuned g') :
    Tunes (onFiles act : Action (Session δ α) β) := by
  intro s
  refine (onFiles_ends (yields s.registry)).mono ?_ fun _ _ => id
  rintro b s' ⟨handles, retired, tuned⟩
  exact ⟨handles, retired, tuned⟩

theorem tunes_inode (handle : Nat) :
    Tunes (inode handle : Action (Session δ α) (InodeId × Inode)) := by
  refine (tunes_inodeOf handle).bind fun id => Tunes.return ?_ _
  exact tunes_onFiles fun g => Registry.yields_inode.mpr fun i _ => .refl g

theorem tunes_onInode {act : InodeId → Filing β} {next : β → Action (Session δ α) γ}
    (yields : ∀ id g, ((act id).run g).Yields fun (_, g') => g.TunedAt id g')
    (rest : ∀ b, Tunes (next b)) (handle : Nat) :
    Tunes (inodeOf handle >>= fun id => onFiles (act id) >>= next) := by
  refine (tunes_inodeOf handle).bind fun id => Tunes.bind (tunes_onFiles fun g => ?_) rest
  exact (yields id g).mono fun _ tuned => tuned.toTuned

end Tunes

variable [Device δ] [Allocator α]

section Through

variable {handle handle' : Nat}

omit [Device δ] [Allocator α] in
/-- Two ways to go on that agree wherever handles are for the same inodes. -/
theorem bind_congr_of_names {act : Action (Session δ α) β} {next next' : β → Action (Session δ α) γ}
    (named : act.Ends s (fun _ s' => s'.idOf? = s.idOf?) fun _ _ => True)
    (alike : ∀ b s', s'.idOf? = s.idOf? → next b s' = next' b s') :
    (act >>= next) s = (act >>= next') s := by
  change EStateM.bind _ _ s = EStateM.bind _ _ s
  unfold EStateM.bind
  cases ran : act s with
  | error f s' => rfl
  | ok b s' => exact alike b s' (named.ok ran)

theorem onFiles_idOf? (act : Filing β) :
    (onFiles act).Ends s (fun _ s' => s'.idOf? = s.idOf?) fun _ _ => True := by
  have yields : (act.run s.registry).Yields fun _ => True :=
    Program.yields_of_forall fun _ => trivial
  refine (onFiles_ends yields).mono ?_ fun _ _ => id
  exact fun _ _ ⟨handles, retired, _⟩ => idOf?_congr handles retired

omit [Device δ] [Allocator α] in
theorem inodeOf_bind_congr {next : InodeId → Action (Session δ α) γ}
    (same : s.idOf? handle = s.idOf? handle') :
    (inodeOf handle >>= next) s = (inodeOf handle' >>= next) s := by
  have alike : inodeOf handle s = inodeOf handle' s := by
    rw [inodeOf_eq, inodeOf_eq, same]
  change EStateM.bind _ _ s = EStateM.bind _ _ s
  simp only [EStateM.bind, alike]

theorem inode_bind_congr {next : InodeId × Inode → Action (Session δ α) γ}
    (same : s.idOf? handle = s.idOf? handle') :
    (inode handle >>= next) s = (inode handle' >>= next) s := by
  simp only [inode, bind_assoc]
  exact inodeOf_bind_congr same

theorem inodeOf_inode_bind_congr {act : InodeId → Filing β}
    {next : β → InodeId × Inode → Action (Session δ α) γ}
    (same : s.idOf? handle = s.idOf? handle') :
    (inodeOf handle >>= fun id => onFiles (act id) >>= fun b => inode handle >>= next b) s =
      (inodeOf handle' >>= fun id => onFiles (act id) >>= fun b => inode handle' >>= next b) s := by
  have named := (tunes_inodeOf handle' s).mono (fun _ _ => Tuned.idOf?) fun _ _ => id
  rw [inodeOf_bind_congr same]
  refine bind_congr_of_names named fun id s' names => ?_
  refine bind_congr_of_names (onFiles_idOf? (act id)) fun b s'' names' => ?_
  exact inode_bind_congr (by rw [names', names, same])

/-- To a session it is one and the same through which handle of an inode it is asked. -/
theorem perform_through (same : s.idOf? handle = s.idOf? handle') (command : Command) :
    perform (command.through handle) s = perform (command.through handle') s := by
  cases command with
  | reopen | remove | forbid | permit | read => exact inodeOf_bind_congr same
  | inspect => exact inode_bind_congr same
  | close | locate | write => exact inodeOf_inode_bind_congr same
  | _ => rfl

end Through

section Opening

theorem giveHandle_ends (id : InodeId) : (giveHandle id).Ends s
    (fun reply s' => (∃ same openers, reply = .opened s.nextHandle same openers) ∧
      s'.idOf? = Function.update s.idOf? s.nextHandle (some id) ∧ s'.registry = s.registry)
    fun _ _ => True := by
  unfold giveHandle
  rw [Action.ends_bind, Action.ends_modify, Action.ends_bind]
  have looked : ((Registry.inode id).run s.registry).Yields fun (_, g') => g' = s.registry :=
    Registry.yields_inode.mpr fun _ _ => rfl
  refine (onFiles_ends (s := { s with handles := s.handles.push id }) looked).mono ?_
    fun _ _ _ => trivial
  rintro i s' ⟨handles, retired, registry⟩
  have next : s'.retired + s'.handles.size - 1 = s.nextHandle := by
    rw [handles, retired, Array.size_push]
    rfl
  refine ⟨⟨s'.retired + (s'.handles.findIdx? (· == id)).getD 0, i.openers, ?_⟩,
    idOf?_push handles retired, registry⟩
  exact congrArg (Reply.opened · _ _) next

/-- The one who opens something next gets a handle of its own. -/
theorem opens_ends {act : Filing InodeId} {home : Sector}
    (yields : (act.run s.registry).Yields fun (id, g') =>
      g'.Shares (Function.update s.idOf? s.nextHandle (some id)) (o.give s.nextHandle home)) :
    (onFiles act >>= giveHandle).Ends s
      (fun reply s' => ∃ handle same openers, reply = .opened handle same openers ∧
        s'.Shares (o.give handle home)) fun _ _ => True := by
  refine Action.ends_bind.mpr ((onFiles_ends yields).mono ?_ fun _ _ => id)
  rintro id s' ⟨handles, retired, shares⟩
  have next : s'.nextHandle = s.nextHandle := by
    rw [nextHandle, handles, retired]
    rfl
  refine (giveHandle_ends id).mono ?_ fun _ _ _ => trivial
  rintro reply s'' ⟨⟨same, openers, rfl⟩, named, registry⟩
  refine ⟨_, same, openers, rfl, ?_⟩
  rw [Shares, named, registry, idOf?_congr handles retired, next]
  exact shares

end Opening

namespace Shares

omit [Device δ] [Allocator α] in
theorem inodeOf_eq (h : s.Shares o) {handle : Nat} (out : handle ∈ o.handles) :
    ∃ id, inodeOf handle s = .ok id s ∧ s.registry.opened[o.home handle]? = some id := by
  obtain ⟨id, named, seen⟩ := h.named out
  exact ⟨id, inodeOf_eq_ok.mpr ⟨named, rfl⟩, seen⟩

theorem openAt (h : s.Shares o) (home : Sector) : (perform (.openAt home)).Ends s
    (fun reply s' => s'.Shares (o.after (.openAt home) reply)) fun _ _ => True := by
  have fresh := s.idOf?_nextHandle
  have yields : ((Registry.openAt home).run s.registry).Yields fun (id, g') =>
      g'.Shares (Function.update s.idOf? s.nextHandle (some id)) (o.give s.nextHandle home) :=
    Registry.yields_openAt (fun id i seen found => Registry.Shares.join h seen found fresh)
      fun unseen record => Registry.Shares.enter h unseen fresh record
  refine (opens_ends yields).mono ?_ fun _ _ => id
  rintro _ s' ⟨handle, same, openers, rfl, shares⟩
  exact shares

theorem reopen (h : s.Shares o) {handle : Nat} (out : handle ∈ o.handles) :
    (perform (.reopen handle)).Ends s
      (fun reply s' => s'.Shares (o.after (.reopen handle) reply)) fun _ _ => True := by
  obtain ⟨id, named, seen⟩ := h.inodeOf_eq out
  have yields : ((Registry.reopen id).run s.registry).Yields fun (id, g') => g'.Shares
      (Function.update s.idOf? s.nextHandle (some id)) (o.give s.nextHandle (o.home handle)) :=
    Registry.yields_reopen.mpr fun i found =>
      Registry.Shares.join h seen found s.idOf?_nextHandle
  have opens : perform (.reopen handle) s = (onFiles (Registry.reopen id) >>= giveHandle) s :=
    Action.bind_ok named
  refine ((opens_ends yields).of_eq opens).mono ?_ fun _ _ _ => trivial
  rintro _ s' ⟨handle', same, openers, rfl, shares⟩
  exact shares

theorem close (h : s.Shares o) {handle : Nat} (out : handle ∈ o.handles) :
    (perform (.close handle)).Ends s
      (fun reply s' => s'.Shares (o.after (.close handle) reply)) fun _ _ => True := by
  obtain ⟨id, named, seen⟩ := h.inodeOf_eq out
  have yields : ((Registry.close id).run s.registry).Yields fun p =>
      p.2.Shares s.idOf? (o.take handle) := by
    refine Registry.yields_close (fun i found others spare => ?_) fun i found one _ => ?_
    · exact Registry.Shares.leave h out seen found others spare
    · obtain ⟨i', found', here, _⟩ := h.inode seen
      rw [found] at found'
      cases found'
      rw [here]
      exact Registry.Shares.last h out seen found one _
  have closes : perform (.close handle) s = (onFiles (Registry.close id) >>= fun _ =>
      inode handle >>= fun looked => pure (.closed looked.2.openers)) s := Action.bind_ok named
  refine .of_eq (Action.ends_bind.mpr ((onFiles_ends yields).mono ?_ fun _ _ _ => trivial)) closes
  rintro _ s' ⟨handles, retired, shares⟩
  have closed : s'.Shares (o.take handle) := by
    rw [Shares, idOf?_congr handles retired]
    exact shares
  exact closed.keeps ((tunes_inode handle).return _)

omit [Device δ] [Allocator α] in
/-- A new cache brings a new registry, and nobody has a handle for that. -/
theorem replaceCache (capacity : Nat) (s : Session δ α) :
    (Session.replaceCache capacity).Ends s (fun _ s' => s'.Shares {}) fun _ _ => True := by
  unfold Session.replaceCache
  rw [Action.ends_get_bind]
  refine Action.ends_bind.mpr (Action.ends_iff.mpr ⟨?_, fun _ _ _ => trivial⟩)
  exact fun cache s' _ => Registry.Shares.empty _

/-- Handles and inodes go on agreeing, whatever is commanded. -/
theorem perform (h : s.Shares o) {command : Command} (allowed : o.Allows command) :
    (Session.perform command).Ends s
      (fun reply s' => s'.Shares (o.after command reply)) fun _ _ => True := by
  -- Handles come and go with the first three, and with a new cache all of them go.
  cases command with
  | openAt home => exact h.openAt home
  | reopen handle => exact h.reopen allowed
  | close handle => exact h.close allowed
  | remount capacity =>
    refine Action.ends_bind.mpr ((tunes_onVolume _ s).mono (fun _ s' _ => ?_) fun _ _ => id)
    exact Action.ends_bind.mpr (replaceCache capacity s')
  | crash capacity => exact Action.ends_bind.mpr (replaceCache capacity s)
  | create home length kind =>
    refine h.keeps ((tunes_onFiles fun g => ?_).return _)
    exact Program.yields_lift.mpr (Program.yields_of_forall fun _ => .refl g)
  | remove handle =>
    exact h.keeps (tunes_onInode (fun _ _ => Registry.yields_remove) (fun _ => tunes_pure _) handle)
  | forbid handle =>
    exact h.keeps (tunes_onInode (fun _ _ => Registry.yields_forbid) (fun _ => tunes_pure _) handle)
  | permit handle =>
    exact h.keeps (tunes_onInode (fun _ _ => Registry.yields_permit) (fun _ => tunes_pure _) handle)
  | inspect handle =>
    exact h.keeps ((tunes_inode handle).bind fun _ => (tunes_ofExcept _).return _)
  | locate handle offset count forWrite =>
    exact h.keeps (tunes_onInode (fun _ _ => Registry.yields_locate offset count forWrite)
      (fun _ => (tunes_inode handle).return _) handle)
  | read handle offset count =>
    refine h.keeps ((tunes_inodeOf handle).bind fun id => (tunes_checkBuffer count).bind fun _ => ?_)
    refine Tunes.return (tunes_onFiles fun _ => ?_) _
    exact (Registry.yields_read offset count).mono fun _ tuned => tuned.toTuned
  | write handle offset data =>
    exact h.keeps (tunes_onInode (fun _ _ => Registry.yields_write offset data)
      (fun _ => (tunes_inode handle).return _) handle)
  | cacheRead s size =>
    refine h.keeps ((tunes_checkBuffer size).bind fun _ => ?_)
    split
    · exact (tunes_throw _).bind fun _ => (tunes_onVolume _).return _
    · exact (tunes_onVolume _).return _
  | cacheWrite s data =>
    refine h.keeps ?_
    simp only [Session.perform]
    split
    · exact (tunes_onVolume _).return _
    · exact (tunes_throw _).return _
  | isAllocated s =>
    refine h.keeps (tunes_get.bind fun s => ?_)
    split
    · exact tunes_pure _
    · exact tunes_throw _
  | flushWithAgent milliseconds =>
    refine h.keeps ?_
    simp only [Session.perform]
    split
    · exact (tunes_onVolume _).return _
    · exact tunes_pure _
  | followApart => exact h.keeps ((tunes_onVolume _).bind fun _ => (tunes_onVolume _).return _)
  | expect | takeTarget | listen =>
    exact h.keeps (tunes_get.bind fun _ => (tunes_setLookahead _).bind fun _ => tunes_pure _)
  | slotOf | occupancy | wakes | blockCount => exact h.keeps (tunes_get.return _)
  | allocate | release | sync | drain | probe | flush | prefetch | follow | readWithAgent | peek
  | poke => exact h.keeps ((tunes_onVolume _).return _)

theorem step (h : s.Shares o) {command : Command} (allowed : o.Allows command) :
    (Session.step command).Ends s
      (fun report s' => s'.Shares (o.after command report.reply)) fun _ _ => True := by
  have cleared : Tunes (clearJournals : Action (Session δ α) Unit) := tunes_onVolume _
  refine Action.ends_bind.mpr ((h.keeps cleared).mono (fun _ _ shares => ?_) fun _ _ => id)
  exact Action.ends_bind.mpr (shares.perform allowed)

omit [Device δ] in
theorem of_new {disk : δ} {damaged : List Nat} {allocator : α} {capacity : Nat}
    (started : new disk damaged allocator capacity = .ok s) : s.Shares {} := by
  unfold new at started
  cases made : Cache.new (⟨disk, damaged, []⟩ : Drive δ) capacity with
  | error f =>
    rw [made] at started
    cases started
  | ok cache =>
    rw [made] at started
    cases started
    exact Registry.Shares.empty _

end Shares

/-- Commands that return, one after the other, and what they leave outstanding. -/
inductive Run (s₀ : Session δ α) : Session δ α → Outstanding → Prop where
  | start : Run s₀ s₀ {}
  | step {s s' : Session δ α} {o : Outstanding} {command : Command} {report : Report} :
    Run s₀ s o → o.Allows command → step command s = .ok report s' →
      Run s₀ s' (o.after command report.reply)

theorem Run.shares {s₀ : Session δ α} (run : Run s₀ s o) (start : s₀.Shares {}) : s.Shares o := by
  induction run with
  | start => exact start
  | step _ allowed done ih => exact (ih.step allowed).ok done

/-- All who have a handle of a sector share its one inode, which the registry has as long as
there are such handles. -/
structure Shared (s : Session δ α) (o : Outstanding) : Prop where
  entry (home : Sector) : s.registry.opened[home]?.isSome ↔ (o.handlesAt home).Nonempty
  same {handle : Nat} : handle ∈ o.handles →
    ∃ id, inodeOf handle s = .ok id s ∧ s.registry.opened[o.home handle]? = some id
  inode {home : Sector} {id : InodeId} : s.registry.opened[home]? = some id →
    ∃ i, s.registry.inodes[id]? = some i ∧ i.home = home ∧
      i.openers = (o.handlesAt home).card ∧ 1 ≤ i.openers ∧ i.denials ≤ i.openers
  counted : s.registry.openCount = o.homes.card
  /-- Through whichever handle something is done or looked at, the same happens. -/
  alike {handle handle' : Nat} : handle ∈ o.handles → handle' ∈ o.handles →
    o.home handle = o.home handle' → ∀ command : Command,
      perform (command.through handle) s = perform (command.through handle') s

theorem Shares.shared (h : s.Shares o) : s.Shared o where
  entry := h.isSome_iff
  same := h.inodeOf_eq
  inode := h.inode
  counted := h.openCount_eq
  alike {handle handle'} out out' sector := by
    obtain ⟨id, named, seen⟩ := h.named out
    obtain ⟨id', named', seen'⟩ := h.named out'
    rw [sector, seen'] at seen
    cases seen
    exact perform_through (named.trans named'.symm)

/-- In every run, handles and inodes agree. -/
theorem handles_share_inodes {disk : δ} {damaged : List Nat} {allocator : α} {capacity : Nat}
    {s₀ : Session δ α} (started : new disk damaged allocator capacity = .ok s₀)
    (run : Run s₀ s o) : s.Shared o :=
  (run.shares (.of_new started)).shared

/-- The session after a script and what is out then, if each command is allowed and returns. -/
def follow : List Command → Session δ α → Outstanding → Option (Session δ α × Outstanding)
  | [], s, o => some (s, o)
  | command :: rest, s, o =>
    if o.Allows command then
      match Session.step command s with
      | .ok report s' => follow rest s' (o.after command report.reply)
      | .error _ _ => none
    else none

theorem Run.follow {s₀ : Session δ α} (run : Run s₀ s o) {script : List Command} {o' : Outstanding}
    (followed : follow script s o = some (s', o')) : Run s₀ s' o' := by
  induction script generalizing s o with
  | nil =>
    cases followed
    exact run
  | cons command rest ih =>
    unfold Session.follow at followed
    split at followed
    next allowed =>
      split at followed
      next report s₁ done => exact ih (run.step allowed done) followed
      next => cases followed
    next => cases followed

/-- Sector 2 is closed and opened again while two handles are out for sector 1. -/
theorem handles_share_inodes_reopened : ∃ (s₀ s : Session MemoryDisk Sequence) (o : Outstanding),
    new (MemoryDisk.zeroed 3) [] ⟨1, 0⟩ 1 = .ok s₀ ∧ Run s₀ s o ∧ o.handles = {0, 1, 3} ∧
      s.registry.openCount = 2 ∧ ∃ id i, s.registry.opened[1]? = some id ∧
        s.registry.inodes[id]? = some i ∧ i.openers = 2 ∧
        perform (.read 0 0 512) s = perform (.read 1 0 512) s := by
  obtain ⟨s₀, started⟩ : ∃ s₀, new (MemoryDisk.zeroed 3) [] (⟨1, 0⟩ : Sequence) 1 = .ok s₀ :=
    ⟨_, rfl⟩
  let script : List Command := [.poke 1 (.ofWords (Record.new .file).words), .openAt 1, .reopen 0,
    .forbid 1, .poke 2 (.ofWords (Record.new .directory).words), .openAt 2, .close 2, .openAt 2]
  have out : (follow script s₀ {}).map (fun reached => (reached.2.handles,
      reached.2.handlesAt 1, reached.2.handlesAt 2)) = some ({0, 1, 3}, {0, 1}, {3}) := by
    cases started
    decide +kernel
  obtain ⟨⟨s, o⟩, followed, out⟩ := Option.map_eq_some_iff.mp out
  simp only [Prod.mk.injEq] at out
  obtain ⟨handles, first, second⟩ := out
  have run := Run.start.follow followed
  have shared := handles_share_inodes started run
  obtain ⟨zero, here⟩ := Outstanding.mem_handlesAt.mp (first ▸ Finset.mem_insert_self 0 {1})
  obtain ⟨one, here'⟩ : 1 ∈ o.handles ∧ o.home 1 = 1 :=
    Outstanding.mem_handlesAt.mp (first ▸ by decide)
  obtain ⟨_, there⟩ : 3 ∈ o.handles ∧ o.home 3 = 2 :=
    Outstanding.mem_handlesAt.mp (second ▸ by decide)
  have homes : o.homes = {1, 2} := by
    rw [Outstanding.homes, handles]
    simp [here, here', there]
  obtain ⟨id, seen⟩ := Option.isSome_iff_exists.mp ((shared.entry 1).mpr (first ▸ by decide))
  obtain ⟨i, found, _, openers, _⟩ := shared.inode seen
  refine ⟨s₀, s, o, started, run, handles, ?_, id, i, seen, found, ?_, ?_⟩
  · rw [shared.counted, homes]
    rfl
  · rw [openers, first]
    rfl
  · exact shared.alike zero one (here.trans here'.symm) (.read 0 0 512)

end Session

end InodeVolume
