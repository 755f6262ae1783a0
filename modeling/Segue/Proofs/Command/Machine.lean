import Segue.Command.Run
import Segue.Proofs.Command.Outputs
import Segue.Proofs.Disk

/-!
# Commands on a machine

A machine is a disk and what may go wrong around it: a text may not be printed, the writing of a
file may break off and leave a part of it, and hosts reply whatever they like. A program spares the
machine if it leaves everything as it was whenever it fails for a reason that is not excused.
-/

namespace Segue

structure Machine where
  disk : Disk
  prints : String → Bool
  /-- What is left of a file when its writing breaks off, if it does. -/
  torn? : String → Content → Option Content
  reply : Url → String → EncodedFrame → Nat × HostReply

namespace Machine

/-- Writes a file, or what is left of it. -/
def write (s : Machine) (p : String) (c : Content) : Bool × Machine :=
  match s.torn? p c with
  | some part => (false, { s with disk := (s.disk.write? p part).getD s.disk })
  | none =>
    match s.disk.write? p c with
    | some disk => (true, { s with disk })
    | none => (false, s)

instance : FileSystem (StateM Machine) where
  kind p := return (← get).disk.kind p
  read? p := return (← get).disk.read? p
  names? p := return (← get).disk.names? p
  makeDirectory p := modifyGet fun s =>
    let (there, disk) := s.disk.makeDirectory p
    (there, { s with disk })
  write p c := modifyGet fun s => s.write p c

instance : Command.Console (StateM Machine) := ⟨fun text => return (← get).prints text⟩

instance : Hosts (StateM Machine) :=
  ⟨fun endpoint subfolder frame => return (← get).reply endpoint subfolder frame⟩

theorem read?_of_write {s s' : Machine} {p : String} {c : Content}
    (h : s.write p c = (true, s')) : s'.disk.read? p = some c := by
  unfold write at h
  split at h
  · exact nomatch congrArg Prod.fst h
  · split at h
    · rename_i disk hwritten
      obtain rfl : { s with disk } = s' := congrArg Prod.snd h
      exact Disk.read?_of_write? hwritten
    · exact nomatch congrArg Prod.fst h

end Machine

namespace Command

open Promise

/-- The workroom of an export, on a machine. -/
abbrev MachineRoom := Working (StateM Machine)

/-! ## Machines that stay as they are -/

/-- The machine stays as it is. -/
def still (s : Machine) : Promise (StateM Machine) := Promise.id.stateT (· = s)

theorem still_reads (s : Machine) : (still s).Reads where
  kind _ := by
    rintro _ rfl
    exact ⟨trivial, rfl⟩
  read _ := by
    rintro _ rfl
    exact ⟨trivial, rfl⟩
  names _ := by
    rintro _ rfl
    exact ⟨trivial, rfl⟩

def onMachine {α : Type} (x : ExceptT Failure (StateM Machine) α) (s : Machine) :
    Except Failure α × Machine := x.run.run s

variable {α β : Type} {excused : Failure → Prop}

theorem onMachine_bind (x : ExceptT Failure (StateM Machine) α)
    (g : α → ExceptT Failure (StateM Machine) β) (s : Machine) :
    onMachine (x >>= g) s =
      match onMachine x s with
      | (.ok a, s') => onMachine (g a) s'
      | (.error f, s') => (.error f, s') := by
  unfold onMachine
  rw [ExceptT.run_bind, StateT.run_bind]
  obtain ⟨r, s'⟩ := x.run.run s
  cases r <;> rfl

theorem exists_onMachine_of_bind {x : ExceptT Failure (StateM Machine) α}
    {g : α → ExceptT Failure (StateM Machine) β} {s s' : Machine} {b : β}
    (h : onMachine (x >>= g) s = (.ok b, s')) :
    ∃ a s₁, onMachine x s = (.ok a, s₁) ∧ onMachine (g a) s₁ = (.ok b, s') := by
  rw [onMachine_bind] at h
  rcases hrun : onMachine x s with ⟨f | a, s₁⟩
  · rw [hrun] at h
    exact nomatch congrArg Prod.fst h
  · rw [hrun] at h
    exact ⟨a, s₁, rfl, h⟩

@[simp] theorem onMachine_lift (x : StateM Machine α) (s : Machine) :
    onMachine (liftM x) s = (.ok (x.run s).1, (x.run s).2) := rfl

/-- A failure that is not excused leaves the machine as it was. -/
def Spares (excused : Failure → Prop) (x : ExceptT Failure (StateM Machine) α) : Prop :=
  ∀ s f, (onMachine x s).1 = .error f → ¬excused f → (onMachine x s).2 = s

theorem spares_throw (f : Failure) :
    Spares excused (throw f : ExceptT Failure (StateM Machine) α) :=
  fun _ _ _ _ => rfl

theorem spares_throw_bind (f : Failure) (g : α → ExceptT Failure (StateM Machine) β) :
    Spares excused (throw f >>= g) := fun _ _ _ _ => rfl

/-- What only reads may come before. -/
theorem Spares.bind {x : ExceptT Failure (StateM Machine) α}
    {g : α → ExceptT Failure (StateM Machine) β} (hx : ∀ s, (still s).exceptT.safe x)
    (hg : ∀ a, Spares excused (g a)) : Spares excused (x >>= g) := by
  intro s f
  have hsame : (onMachine x s).2 = s := (hx s s rfl).2
  rw [onMachine_bind]
  rcases hrun : onMachine x s with ⟨r, s'⟩
  rw [hrun] at hsame
  obtain rfl : s' = s := hsame
  cases r with
  | error e => exact fun _ _ => rfl
  | ok a => exact hg a s' f

theorem Spares.lift_bind {x : StateM Machine α} {g : α → ExceptT Failure (StateM Machine) β}
    (h : ∀ s f, (onMachine (g (x.run s).1) (x.run s).2).1 = .error f → ¬excused f →
      (onMachine (g (x.run s).1) (x.run s).2).2 = s) : Spares excused (liftM x >>= g) := h

theorem Spares.ite {c : Prop} [Decidable c] {x y : ExceptT Failure (StateM Machine) α}
    (hx : Spares excused x) (hy : Spares excused y) : Spares excused (if c then x else y) := by
  split
  · exact hx
  · exact hy

/-- All failures are excused. -/
def Blames (excused : Failure → Prop) (x : ExceptT Failure (StateM Machine) α) : Prop :=
  ∀ s f, (onMachine x s).1 = .error f → excused f

theorem Blames.spares {x : ExceptT Failure (StateM Machine) α} (h : Blames excused x) :
    Spares excused x := fun s f hf hexcused => absurd (h s f hf) hexcused

theorem blames_pure (a : α) : Blames excused (pure a) := fun _ _ h => nomatch h

theorem blames_throw {f : Failure} (h : excused f) :
    Blames excused (throw f : ExceptT Failure (StateM Machine) α) := by
  intro s g hg
  cases hg
  exact h

theorem blames_lift (x : StateM Machine α) :
    Blames excused (liftM x : ExceptT Failure (StateM Machine) α) := fun _ _ h => nomatch h

theorem Blames.bind {x : ExceptT Failure (StateM Machine) α}
    {g : α → ExceptT Failure (StateM Machine) β} (hx : Blames excused x)
    (hg : ∀ a, Blames excused (g a)) : Blames excused (x >>= g) := by
  intro s f
  have hfault := hx s f
  rw [onMachine_bind]
  rcases hrun : onMachine x s with ⟨r, s'⟩
  rw [hrun] at hfault
  cases r with
  | error e =>
      intro h
      obtain rfl : e = f := Except.error.inj h
      exact hfault rfl
  | ok a => exact hg a s' f

theorem Blames.ite {c : Prop} [Decidable c] {x y : ExceptT Failure (StateM Machine) α}
    (hx : Blames excused x) (hy : Blames excused y) : Blames excused (if c then x else y) := by
  split
  · exact hx
  · exact hy

end Command

end Segue
