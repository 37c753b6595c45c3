import InodeVolume.File.Registry
import InodeVolume.Proofs.File.Extent

/-!
# Archives

What a file system is to those who use it: sectors they were given, live files
with their bytes, and inodes in use. It has neither blocks nor pointers. For each
operation it says when it is in order, which answers are right, and what it
leaves behind.
-/

namespace InodeVolume

structure File where
  kind : Kind
  bytes : List UInt8

namespace File

def size (f : File) : Nat := f.bytes.length

def sectorCount (f : File) : Nat := Layout.footprint f.size + 1

end File

/-- An inode in use, with as many openers as there are handles out. -/
structure Opening where
  home : Sector
  openers : Nat := 1
  denials : Nat := 0
  removed : Bool := false

inductive Operation where
  | allocate
  | create (home : Sector) (length : Nat) (kind : Kind)
  | openAt (home : Sector)
  | reopen (id : InodeId)
  | close (id : InodeId)
  | remove (id : InodeId)
  | forbid (id : InodeId)
  | permit (id : InodeId)
  | read (id : InodeId) (offset count : Nat)
  | write (id : InodeId) (offset : Nat) (data : List UInt8)
  | locate (id : InodeId) (offset count : Nat) (forWrite : Bool)
  | sync
  | flush (s : Sector)
  | drain
  | prefetch (s : Sector)

inductive Answer where
  | nothing
  | sector (s : Option Sector)
  | created (result : Except CreateError Unit)
  | opened (id : InodeId)
  | bytes (bytes : List UInt8)
  | written (count : Nat)
  | located (s : Option Sector)

structure Archive where
  total : Nat
  reserved : Nat
  /-- Sectors handed out at which no file was created so far. -/
  granted : Finset Sector := ∅
  /-- The home sectors of the files that there are. -/
  live : Finset Sector := ∅
  file : Sector → File := fun _ => ⟨.file, []⟩
  openings : InodeId → Option Opening := fun _ => none

namespace Archive

/-- Sectors that are neither reserved nor handed out nor taken by a file. -/
def free (a : Archive) : Nat :=
  a.total - (a.reserved + a.granted.card + ∑ home ∈ a.live, (a.file home).sectorCount)

def opening (a : Archive) (id : InodeId) : Opening := (a.openings id).getD ⟨Sector.null, 0, 0, false⟩

def fileOf (a : Archive) (id : InodeId) : File := a.file (a.opening id).home

def withOpening (a : Archive) (id : InodeId) (o : Opening) : Archive :=
  { a with openings := Function.update a.openings id (some o) }

def withBytes (a : Archive) (id : InodeId) (bytes : List UInt8) : Archive :=
  { a with file := Function.update a.file (a.opening id).home { a.fileOf id with bytes } }

/-- The last handle of an inode is closed; a removed file ceases to be. -/
def withoutOpening (a : Archive) (id : InodeId) : Archive :=
  { a with
    openings := Function.update a.openings id none
    live := if (a.opening id).removed then a.live.erase (a.opening id).home else a.live }

/-- The archives `a` and `a'` differ in nothing but what they say about `home`. -/
structure SameBut (a : Archive) (home : Sector) (a' : Archive) : Prop where
  total : a'.total = a.total
  reserved : a'.reserved = a.reserved
  live {s : Sector} : s ≠ home → (s ∈ a'.live ↔ s ∈ a.live)
  granted {s : Sector} : s ≠ home → (s ∈ a'.granted ↔ s ∈ a.granted)
  file {s : Sector} : s ≠ home → a'.file s = a.file s

theorem SameBut.refl (a : Archive) (home : Sector) : a.SameBut home a :=
  ⟨rfl, rfl, fun _ => Iff.rfl, fun _ => Iff.rfl, fun _ => rfl⟩

/-- Operations that are in order: files are created at sectors handed out and opened
while they live, handles are closed once and not used afterwards, and writing is
forbidden at most once by each opener and permitted only after that. -/
def Allows (a : Archive) : Operation → Prop
  | .create home _ _ => home ∈ a.granted
  | .openAt home => home ∈ a.live
  | .reopen id | .remove id | .read id _ _ | .write id _ _ | .locate id _ _ _ =>
    (a.openings id).isSome
  | .close id | .forbid id => (a.openings id).isSome ∧ (a.opening id).denials < (a.opening id).openers
  | .permit id => (a.openings id).isSome ∧ 0 < (a.opening id).denials
  | .allocate | .sync | .flush _ | .drain | .prefetch _ => True

/-- The right answers. Those who open a file that is in use get its inode. -/
def Admits (a : Archive) : Operation → Answer → Prop
  | .allocate, .sector none => a.free = 0
  | .allocate, .sector (some s) =>
    0 < a.free ∧ a.reserved ≤ s ∧ s < a.total ∧ s ∉ a.granted ∧ s ∉ a.live
  | .create _ length _, .created result => result =
    if Layout.maxLength < length then .error .tooLarge
    else if a.free < Layout.footprint length then .error .noSpace
    else .ok ()
  | .openAt home, .opened id => ∀ id' o, a.openings id' = some o → (o.home = home ↔ id' = id)
  | .reopen id, .opened id' => id' = id
  | .read id offset count, .bytes bytes => bytes = ((a.fileOf id).bytes.drop offset).take count
  | .write id offset data, .written count => count =
    if 0 < (a.opening id).denials then 0
    else Layout.writable (a.fileOf id).size a.free offset data.length
  | .locate id offset count forWrite, .located s => s.isSome ↔
    offset < (a.fileOf id).size ∨
      forWrite = true ∧ Layout.Extensible (a.fileOf id).size a.free offset count
  | .close _, .nothing | .remove _, .nothing | .forbid _, .nothing | .permit _, .nothing
  | .sync, .nothing | .flush _, .nothing | .drain, .nothing | .prefetch _, .nothing => True
  | _, _ => False

namespace Admits

variable {a : Archive} {answer : Answer}

theorem allocate (room : 0 < a.free) (h : a.Admits .allocate answer) :
    ∃ s, answer = .sector (some s) := by
  rcases answer with _ | granted | _ | _ | _ | _ | _ <;> try exact h.elim
  rcases granted with _ | s
  · exact absurd h (Nat.ne_of_gt room)
  · exact ⟨s, rfl⟩

theorem create_empty {home : Sector} {kind : Kind} (h : a.Admits (.create home 0 kind) answer) :
    answer = .created (.ok ()) := by
  rcases answer with _ | _ | result | _ | _ | _ | _ <;> try exact h.elim
  have nothing_needed : Layout.footprint 0 = 0 := rfl
  refine congrArg Answer.created (Eq.trans h ?_)
  rw [if_neg (Nat.not_lt_zero _), nothing_needed, if_neg (Nat.not_lt_zero _)]

theorem openAt {home : Sector} (h : a.Admits (.openAt home) answer) : ∃ id, answer = .opened id := by
  rcases answer with _ | _ | _ | id | _ | _ | _ <;> try exact h.elim
  exact ⟨id, rfl⟩

theorem write {id : InodeId} {offset : Nat} {data : List UInt8} (denied : (a.opening id).denials = 0)
    (h : a.Admits (.write id offset data) answer) :
    answer = .written (Layout.writable (a.fileOf id).size a.free offset data.length) := by
  rcases answer with _ | _ | _ | _ | _ | count | _ <;> try exact h.elim
  rw [Admits, denied, if_neg (Nat.lt_irrefl 0)] at h
  rw [h]

end Admits

def next (a : Archive) : Operation → Answer → Archive
  | .allocate, .sector (some s) => { a with granted := insert s a.granted }
  | .create home length kind, .created (.ok ()) =>
    { a with
      granted := a.granted.erase home
      live := insert home a.live
      file := Function.update a.file home ⟨kind, List.replicate length 0⟩ }
  | .openAt home, .opened id =>
    match a.openings id with
    | some o => a.withOpening id { o with openers := o.openers + 1 }
    | none => a.withOpening id { home }
  | .reopen id, _ => a.withOpening id { a.opening id with openers := (a.opening id).openers + 1 }
  | .close id, _ =>
    if (a.opening id).openers = 1 then a.withoutOpening id
    else a.withOpening id { a.opening id with openers := (a.opening id).openers - 1 }
  | .remove id, _ => a.withOpening id { a.opening id with removed := true }
  | .forbid id, _ => a.withOpening id { a.opening id with denials := (a.opening id).denials + 1 }
  | .permit id, _ => a.withOpening id { a.opening id with denials := (a.opening id).denials - 1 }
  | .write id offset data, .written count =>
    a.withBytes id (overlay (a.fileOf id).bytes offset (data.take count))
  | .locate id offset count true, .located (some _) =>
    a.withBytes id ((a.fileOf id).bytes ++
      List.replicate (Layout.sizeFor (a.fileOf id).size offset count - (a.fileOf id).size) 0)
  | _, _ => a

variable {a : Archive} {id : InodeId} {o : Opening}

theorem opening_of_some (found : a.openings id = some o) : a.opening id = o := by
  rw [opening, found]
  rfl

theorem fileOf_of_some (found : a.openings id = some o) : a.fileOf id = a.file o.home := by
  rw [fileOf, opening_of_some found]

theorem next_openAt_of_some (found : a.openings id = some o) (home : Sector) :
    a.next (.openAt home) (.opened id) =
      a.withOpening id { o with openers := o.openers + 1 } := by
  rw [next, found]

theorem next_openAt_of_none (unused : a.openings id = none) (home : Sector) :
    a.next (.openAt home) (.opened id) = a.withOpening id { home } := by
  rw [next, unused]

theorem next_close_last (found : a.openings id = some o) (last : o.openers = 1)
    (answer : Answer) : a.next (.close id) answer = a.withoutOpening id := by
  rw [next, opening_of_some found, if_pos last]

theorem next_close_others (found : a.openings id = some o) (others : o.openers ≠ 1)
    (answer : Answer) :
    a.next (.close id) answer = a.withOpening id { o with openers := o.openers - 1 } := by
  rw [next, opening_of_some found, if_neg others]

theorem live_next_close (found : a.openings id = some o) (last : o.openers = 1)
    (removed : o.removed = true) (answer : Answer) :
    (a.next (.close id) answer).live = a.live.erase o.home := by
  rw [next_close_last found last, withoutOpening, opening_of_some found, if_pos removed]

end Archive

end InodeVolume
