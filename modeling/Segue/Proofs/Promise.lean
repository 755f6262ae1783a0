import Mathlib
import Segue.Disk
import Segue.Task

/-!
# Promises of programs

A promise says of each program of a monad what it may return, and with that whatever it keeps to on
its way. It is made for single actions; the laws carry it over to all that is put together from
them, also to programs with a state or with errors, and to tasks.
-/

namespace Segue

universe u

/-- What programs hold to, for each condition on what they return. -/
structure Promise (m : Type → Type u) [Monad m] where
  holds : {α : Type} → m α → (α → Prop) → Prop
  returns : ∀ {α : Type} {a : α} {Q : α → Prop}, Q a → holds (pure a) Q
  bind : ∀ {α β : Type} {x : m α} {f : α → m β} {R : α → Prop} {Q : β → Prop},
    holds x R → (∀ a, R a → holds (f a) Q) → holds (x >>= f) Q
  map : ∀ {α β : Type} {x : m α} {f : α → β} {Q : β → Prop},
    holds x (fun a => Q (f a)) → holds (f <$> x) Q
  weaken : ∀ {α : Type} {x : m α} {Q R : α → Prop}, holds x Q → (∀ a, Q a → R a) → holds x R

namespace Promise

section

variable {m : Type → Type u} [Monad m] (P : Promise m) {α β : Type}

/-- The promise holds, and nothing is known of what is returned. -/
def safe (x : m α) : Prop := P.holds x fun _ => True

@[simp] theorem safe_pure (a : α) : P.safe (pure a : m α) := P.returns trivial

variable {P}

theorem holds.safe {x : m α} {Q : α → Prop} (h : P.holds x Q) : P.safe x :=
  P.weaken h fun _ _ => trivial

theorem safe_bind {x : m α} {f : α → m β} (hx : P.safe x) (hf : ∀ a, P.safe (f a)) :
    P.safe (x >>= f) := P.bind hx fun a _ => hf a

theorem holds_bind {x : m α} {f : α → m β} {Q : β → Prop} (hx : P.safe x)
    (hf : ∀ a, P.holds (f a) Q) : P.holds (x >>= f) Q := P.bind hx fun a _ => hf a

theorem safe_ite {c : Prop} [Decidable c] {x y : m α} (hx : P.safe x) (hy : P.safe y) :
    P.safe (if c then x else y) := by
  split
  · exact hx
  · exact hy

theorem safe_forM {l : List α} {f : α → m PUnit} (h : ∀ a ∈ l, P.safe (f a)) :
    P.safe (l.forM f) := by
  induction l with
  | nil => exact P.safe_pure ()
  | cons a l ih =>
      refine safe_bind (h a List.mem_cons_self) fun _ => ?_
      exact ih fun b hb => h b (List.mem_cons_of_mem a hb)

theorem safe_filterM {l : List α} {f : α → m Bool} (h : ∀ a, P.safe (f a)) :
    P.safe (l.filterM f) := by
  have haux : ∀ (l acc : List α), P.safe (l.filterAuxM f acc) := by
    intro l
    induction l with
    | nil => exact fun acc => P.safe_pure acc
    | cons a l ih => exact fun acc => safe_bind (h a) fun _ => ih _
  exact safe_bind (haux l []) fun _ => P.safe_pure _

theorem safe_filterMapM {l : List α} {f : α → m (Option β)} (h : ∀ a, P.safe (f a)) :
    P.safe (l.filterMapM f) := by
  have haux : ∀ (l : List α) (acc : List β), P.safe (List.filterMapM.loop f l acc) := by
    intro l
    induction l with
    | nil => exact fun acc => P.safe_pure _
    | cons a l ih =>
        refine fun acc => safe_bind (h a) fun b? => ?_
        cases b? with
        | none => exact ih acc
        | some b => exact ih (b :: acc)
  exact haux l []

theorem safe_foldlM {l : List α} {f : β → α → m β} (h : ∀ b a, P.safe (f b a)) (b : β) :
    P.safe (l.foldlM f b) := by
  induction l generalizing b with
  | nil => exact P.safe_pure b
  | cons a l ih => exact safe_bind (h b a) ih

end

section

variable {m : Type → Type} [Monad m] (P : Promise m)

/-- Programs without effects. -/
def id : Promise Id where
  holds x Q := Q x.run
  returns h := h
  bind hx hf := hf _ hx
  map h := h
  weaken hx h := h _ hx

/-- Programs with a state that they keep sound. -/
def stateT {σ : Type} (sound : σ → Prop) : Promise (StateT σ m) where
  holds x Q := ∀ s, sound s → P.holds (x.run s) fun r => Q r.1 ∧ sound r.2
  returns h _ hs := P.returns ⟨h, hs⟩
  bind hx hf s hs := P.bind (hx s hs) fun r hr => hf r.1 hr.1 r.2 hr.2
  map h s hs := P.bind (h s hs) fun _ hr => P.returns hr
  weaken hx h s hs := P.weaken (hx s hs) fun _ hr => ⟨h _ hr.1, hr.2⟩

def exceptT {ε : Type} : Promise (ExceptT ε m) where
  holds x Q := P.holds x.run fun r => ∀ a, r = .ok a → Q a
  returns h := P.returns fun a ha => by
    cases ha
    exact h
  bind hx hf := P.bind hx fun r hr => by
    cases r with
    | ok a => exact hf a (hr a rfl)
    | error e => exact P.returns fun _ h => nomatch h
  map h := P.bind h fun r hr => by
    cases r with
    | ok a =>
        refine P.returns fun b hb => ?_
        cases hb
        exact hr a rfl
    | error e => exact P.returns fun _ h => nomatch h
  weaken hx h := P.weaken hx fun _ hr a ha => h a (hr a ha)

variable {P} {α ε : Type}

theorem exceptT_lift {x : m α} (h : P.safe x) :
    (P.exceptT : Promise (ExceptT ε m)).safe (liftM x) :=
  P.map (P.weaken h fun _ _ _ _ => trivial)

/-- What fails returns nothing. -/
theorem holds_throw (e : ε) (Q : α → Prop) : P.exceptT.holds (throw e : ExceptT ε m α) Q :=
  P.returns fun _ h => nomatch h

theorem exceptT_throw (e : ε) : P.exceptT.safe (throw e : ExceptT ε m α) := holds_throw e _

theorem stateT_lift {σ : Type} {sound : σ → Prop} {x : m α} {Q : α → Prop} (h : P.holds x Q) :
    (P.stateT sound).holds (liftM x : StateT σ m α) Q :=
  fun _ hs => P.bind h fun _ ha => P.returns ⟨ha, hs⟩

/-! ## Tasks -/

/-- A task does nothing that is not promised. -/
def taskHolds (P : Promise m) {α : Type} : Task m α → (α → Prop) → Prop
  | .done a, Q => Q a
  | .act x next, Q => P.holds x fun b => taskHolds P (next b) Q
  | .now next, Q => ∀ t, taskHolds P (next t) Q
  | .wait _ ready next, Q => (∀ t, P.safe (ready t)) ∧ taskHolds P next Q

theorem taskHolds_weaken {t : Task m α} {Q R : α → Prop} (h : taskHolds P t Q)
    (hQ : ∀ a, Q a → R a) : taskHolds P t R := by
  induction t with
  | done a => exact hQ a h
  | act x next ih => exact P.weaken h fun b hb => ih b hb
  | now next ih => exact fun t => ih t (h t)
  | wait due ready next ih => exact ⟨h.1, ih h.2⟩

theorem taskHolds_bind {β : Type} {t : Task m α} {f : α → Task m β} {R : α → Prop}
    {Q : β → Prop} (h : taskHolds P t R) (hf : ∀ a, R a → taskHolds P (f a) Q) :
    taskHolds P (t >>= f) Q := by
  induction t with
  | done a => exact hf a h
  | act x next ih => exact P.weaken h fun b hb => ih b hb
  | now next ih => exact fun t => ih t (h t)
  | wait due ready next ih => exact ⟨h.1, ih h.2⟩

def task (P : Promise m) : Promise (Task m) where
  holds := taskHolds P
  returns h := h
  bind := taskHolds_bind
  map h := taskHolds_bind h fun _ ha => ha
  weaken := taskHolds_weaken

theorem safe_isOver {ready : Moment → m Bool} (h : ∀ t, P.safe (ready t)) (due : Option Nat)
    (t : Moment) : P.safe (Task.isOver due ready t) :=
  safe_ite (P.safe_pure true) (h t)

theorem task_lift {x : m α} {Q : α → Prop} (h : P.holds x Q) : P.task.holds (liftM x) Q := h

variable [Background m]

/-- What a clock does while a task waits. -/
structure Settles (P : Promise m) : Prop where
  settle : ∀ millis, P.safe (Background.settle millis : m Bool)
  next : P.safe (Background.next : m (Option Nat))
  pending : P.safe (Background.pending : m Nat)

theorem Settles.pass (hs : P.Settles) {ready : Moment → m Bool} (h : ∀ t, P.safe (ready t))
    (due : Option Nat) (n : Nat) (t : Moment) : P.safe (Task.pass due ready n t) := by
  induction n generalizing t with
  | zero => exact P.safe_pure t
  | succ n ih =>
      unfold Task.pass
      refine safe_bind (safe_isOver h due t) fun _ => safe_ite (P.safe_pure t) ?_
      refine safe_bind (hs.settle t.millis) fun _ => ?_
      refine safe_ite (ih _) ?_
      refine safe_bind (h _) fun _ => safe_ite (P.safe_pure _) ?_
      refine safe_bind hs.next fun next => ?_
      split
      · exact P.safe_pure _
      · exact ih _

/-- Run on a clock, a task keeps its promise. -/
theorem Settles.run (hs : P.Settles) {t : Task m α} {Q : α → Prop} (h : P.task.holds t Q)
    (start : Moment) : P.holds (t.run start) fun r => Q r.1 := by
  induction t generalizing start with
  | done a => exact P.returns h
  | act x next ih => exact P.bind h fun b hb => ih b hb start
  | now next ih => exact ih start (h start) start
  | wait due ready next ih =>
      refine holds_bind hs.pending fun n => holds_bind (hs.pass h.1 due _ start) fun t => ?_
      exact ih h.2 t

/-! ## Files -/

variable [FileSystem m]

/-- Reading is promised. -/
structure Reads (P : Promise m) : Prop where
  kind : ∀ p, P.safe (FileSystem.kind p : m EntryKind)
  read : ∀ p, P.safe (FileSystem.read? p : m (Option Content))
  names : ∀ p, P.safe (FileSystem.names? p : m (Option (List String)))

end

end Promise

end Segue
