import InodeVolume.Proofs.Space.Singles
import InodeVolume.Proofs.Volume.Exchange

/-!
# What programs ask of the allocator

`p.Logs post` says what each result of a program has to do with the calls to the allocator on
the way to it, whatever the requests are answered with. A ledger has these calls in it, and
they are the history of the space map below it.
-/

namespace InodeVolume

def Request.calls : (r : Request) → r.Answer → List AllocatorCall
  | .read _, _ | .write _ _, _ => []
  | .allocate, s => [.allocated s 1]
  | .release s, _ => [.released s 1]

namespace Program

variable {β γ σ : Type}

/-- Calls are told with the newest first, as a ledger has them. -/
def Logs : Program β → (β → List AllocatorCall → Prop) → Prop
  | done b, post => post b []
  | fault _, _ => True
  | ask r next, post => ∀ a, (next a).Logs fun b log => post b (log ++ r.calls a)

variable {post : β → List AllocatorCall → Prop}

theorem Logs.mono {p : Program β} {post' : β → List AllocatorCall → Prop} (h : p.Logs post)
    (weaker : ∀ b log, post b log → post' b log) : p.Logs post' := by
  induction p generalizing post post' with
  | done b => exact weaker b [] h
  | fault f => trivial
  | ask r next ih => exact fun a => ih a (h a) fun b log => weaker b (log ++ r.calls a)

@[simp] theorem logs_pure {b : β} : (pure b : Program β).Logs post ↔ post b [] := Iff.rfl

@[simp] theorem logs_fault {f : Fault} : (fault f : Program β).Logs post ↔ True := Iff.rfl

@[simp] theorem logs_bind {p : Program γ} {next : γ → Program β} :
    (p >>= next).Logs post ↔
      p.Logs fun c log => (next c).Logs fun b later => post b (later ++ log) := by
  induction p generalizing post with
  | done c => simp only [done_bind, Logs, List.append_nil]
  | fault f => rfl
  | ask r rest ih =>
    refine forall_congr' fun a => (ih a).trans ?_
    simp only [List.append_assoc]

@[simp] theorem logs_read {s : Sector} {post : Block → List AllocatorCall → Prop} :
    (read s).Logs post ↔ ∀ data, post data [] := Iff.rfl

@[simp] theorem logs_write {s : Sector} {data : Block} {post : Unit → List AllocatorCall → Prop} :
    (write s data).Logs post ↔ post () [] := ⟨fun h => h (), fun h _ => h⟩

@[simp] theorem logs_allocate {post : Option Sector → List AllocatorCall → Prop} :
    allocate.Logs post ↔ ∀ s, post s [.allocated s 1] := Iff.rfl

@[simp] theorem logs_release {s : Sector} {post : Unit → List AllocatorCall → Prop} :
    (release s).Logs post ↔ post () [.released s 1] := ⟨fun h => h (), fun h _ => h⟩

@[simp] theorem logs_ofExcept {r : Except Fault β} :
    (ofExcept r).Logs post ↔ ∀ b, r = .ok b → post b [] := by
  cases r with
  | error f => simp [ofExcept]
  | ok b => simp [ofExcept, Logs]

@[simp] theorem logs_require {p : Prop} [Decidable p] {f : Fault}
    {post : Unit → List AllocatorCall → Prop} : (require p f).Logs post ↔ (p → post () []) := by
  unfold require
  split <;> simp [Logs, *]

@[simp] theorem logs_lift {p : Program β} {s : σ} {post : β × σ → List AllocatorCall → Prop} :
    ((liftM p : StateT σ Program β).run s).Logs post ↔ p.Logs fun b log => post (b, s) log := by
  change (p >>= fun b => pure (b, s)).Logs post ↔ _
  simp only [logs_bind, logs_pure, List.nil_append]

theorem logs_releaseAll (sectors : List Sector) :
    (sectors.forM release).Logs fun _ log => log = releases sectors := by
  induction sectors with
  | nil => rfl
  | cons s rest ih =>
    change (release s >>= fun _ => rest.forM release).Logs _
    rw [logs_bind, logs_release]
    refine ih.mono fun _ log same => ?_
    rw [same, releases, releases, List.map_cons, List.reverse_cons]

theorem logs_forM_nil {ι : Type} (items : List ι) {act : ι → Program Unit}
    (silent : ∀ item, (act item).Logs fun _ log => log = []) :
    (items.forM act).Logs fun _ log => log = [] := by
  induction items with
  | nil => rfl
  | cons item rest ih =>
    change (act item >>= fun _ => rest.forM act).Logs _
    rw [logs_bind]
    refine (silent item).mono fun _ log nothing => ih.mono fun _ later nothing' => ?_
    rw [nothing, nothing', List.append_nil]

end Program

section Ledgers

variable {α β : Type} [Allocator α] [MappedAllocator α] {v w : Flat (Ledger α)}

/-- A ledger enters the call for a request, and the map below it has answered that call. -/
theorem Flat.answer_logs {r : Request} {a : r.Answer} (done : Flat.answer r v = .ok a w) :
    w.allocator.calls = r.calls a ++ v.allocator.calls ∧
      SpaceMap.History v.map (r.calls a) w.map := by
  cases r with
  | read s =>
    simp only [Flat.answer] at done
    split at done <;> cases done
    exact ⟨rfl, .start⟩
  | write s data =>
    simp only [Flat.answer] at done
    split at done <;> cases done
    exact ⟨rfl, .start⟩
  | allocate =>
    have mapped := MappedAllocator.allocate_map v.allocator 1
    simp only [Flat.answer, Action.step] at done
    cases answered : Allocator.allocate v.allocator.allocator 1 with
    | error f =>
      simp only [Allocator.allocate, answered] at done
      cases done
    | ok p =>
      simp only [Allocator.allocate, answered] at done mapped
      cases done
      exact ⟨rfl, .allocate .start mapped.symm⟩
  | release s =>
    have mapped := MappedAllocator.release_map v.allocator s 1
    simp only [Flat.answer, Action.step] at done
    cases answered : Allocator.release v.allocator.allocator s 1 with
    | error f =>
      simp only [Allocator.release, answered] at done
      cases done
    | ok p =>
      simp only [Allocator.release, answered] at done mapped
      cases done
      exact ⟨rfl, .release .start mapped.symm⟩

/-- The calls of a program that returns are in the ledger. -/
theorem Program.Returns.and_logs {p : Program β} {post : β → Flat (Ledger α) → Prop}
    {calls : β → List AllocatorCall → Prop} (h : p.Returns v post) (logs : p.Logs calls) :
    p.Returns v fun b w => post b w ∧ ∃ log, calls b log ∧
      w.allocator.calls = log ++ v.allocator.calls ∧ SpaceMap.History v.map log w.map := by
  obtain ⟨b, w, done, holds⟩ := h
  refine ⟨b, w, done, holds, ?_⟩
  clear holds
  induction p generalizing v calls with
  | done b' =>
    cases done
    exact ⟨[], logs, rfl, .start⟩
  | fault f => cases done
  | ask r next ih =>
    change EStateM.bind (Flat.answer r) _ v = _ at done
    simp only [EStateM.bind] at done
    cases asked : Flat.answer r v with
    | error f u =>
      rw [asked] at done
      cases done
    | ok a u =>
      rw [asked] at done
      obtain ⟨entered, answered⟩ := Flat.answer_logs asked
      obtain ⟨log, holds, rest, history⟩ := ih a (logs a) done
      refine ⟨log ++ r.calls a, holds, ?_, answered.append history⟩
      rw [rest, entered, List.append_assoc]

end Ledgers

-- From here on the equations above take it apart; unfolded, it would carry out the program.
attribute [irreducible] Program.Logs

end InodeVolume
