import Mathlib
import Segue.Export.Perform
import Segue.Proofs.Promise

/-!
# A run among others

While a run waits, others have their turns: they may change whatever they share with it, and its
caller may drop it. Clips and compositors carry numbers, by which it is written down what the run
does with them.
-/

namespace Segue

/-- What a run shares with others. -/
structure Commons (ω : Type) where
  world : ω
  exporter : Exporter Float

/-- What has been done with the clips and compositors, by their numbers. -/
structure Custody where
  next : Nat
  obtained : List Nat
  sought : List Nat
  released : List Nat
  composed : List Nat
  disposed : List Nat

namespace Custody

/-- Nothing has been done; the caller's clips have the numbers below `next`. -/
def opening (next : Nat) : Custody := ⟨next, [], [], [], [], []⟩

def obtain (l : Custody) : Custody :=
  { l with next := l.next + 1, obtained := l.obtained ++ [l.next] }

def compose (l : Custody) : Custody :=
  { l with next := l.next + 1, composed := l.composed ++ [l.next] }

def seek (number : Nat) (l : Custody) : Custody := { l with sought := l.sought ++ [number] }

def release (number : Nat) (l : Custody) : Custody := { l with released := l.released ++ [number] }

def dispose (number : Nat) (l : Custody) : Custody := { l with disposed := l.disposed ++ [number] }

end Custody

structure Scene (ω : Type) where
  commons : Commons ω
  dropped : Bool
  custody : Custody

abbrev Staged (ω : Type) := StateM (Scene ω)

variable {ω β γ : Type}

instance : MonadStateOf (Exporter Float) (Staged ω) where
  get s := (s.commons.exporter, s)
  set e s := ((), { s with commons.exporter := e })
  modifyGet f s :=
    let (b, e) := f s.commons.exporter
    (b, { s with commons.exporter := e })

namespace Scene

def share (x : StateM (Commons ω) β) : Staged ω β := fun s =>
  let (b, commons) := x s.commons
  (b, { s with commons })

def onWorld (x : StateM ω β) : Staged ω β :=
  share fun c =>
    let (b, world) := x c.world
    (b, { c with world })

def isDropped : Staged ω Bool := fun s => (s.dropped, s)

def note (change : Custody → Custody) : Staged ω Unit := fun s =>
  ((), { s with custody := change s.custody })

end Scene

/-! ## Handles -/

/-- A clip or a compositor with its number. -/
structure Handle (β : Type) where
  number : Nat
  item : β

namespace Handle

def enter (change : Custody → Custody) (item : β) : Staged ω (Handle β) := fun s =>
  (⟨s.custody.next, item⟩, { s with custody := change s.custody })

/-- What is done to the item; the number stays. -/
def act (h : Handle β) (x : StateM ω β) : Staged ω (Handle β) := do
  let item ← Scene.onWorld x
  return ⟨h.number, item⟩

def ask (h : Handle β) (x : StateM ω (γ × β)) : Staged ω (γ × Handle β) := do
  let (answer, item) ← Scene.onWorld x
  return (answer, ⟨h.number, item⟩)

def seeking (h : Handle β) (r : Seeking β) : Seeking (Handle β) :=
  ⟨⟨h.number, r.source⟩, r.delay, r.result.map fun item => ⟨h.number, item⟩⟩

theorem seeking_landed {h landed : Handle β} {r : Seeking β}
    (hlanded : (h.seeking r).result = .ok landed) : landed.number = h.number := by
  cases hresult : r.result with
  | ok item =>
      simp only [seeking, hresult, Except.map] at hlanded
      cases hlanded
      rfl
  | error e =>
      simp only [seeking, hresult, Except.map] at hlanded
      cases hlanded

def composeWith (make : Nat → Nat → StateM ω β) (width height : Nat) : Staged ω (Handle β) := do
  let item ← Scene.onWorld (make width height)
  enter Custody.compose item

end Handle

instance {σ : Type} [Source (StateM ω) Float σ] : Source (Staged ω) Float (Handle σ) where
  duration h := Source.duration (StateM ω) h.item
  frameRate h := Source.frameRate (StateM ω) h.item
  frame h := Source.frame (StateM ω) h.item
  givesWay h := Source.givesWay (StateM ω) h.item
  seek h time := do
    Scene.note (Custody.seek h.number)
    let r ← Scene.onWorld (Source.seek h.item time)
    return h.seeking r
  duplicate h := do
    match ← Scene.onWorld (Source.duplicate h.item) with
    | .ok item => return .ok (← Handle.enter Custody.obtain item)
    | .error e => return .error e
  ready h :=
    let (delay, item) := Source.ready (StateM ω) h.item
    (delay, ⟨h.number, item⟩)
  release h := do
    Scene.note (Custody.release h.number)
    h.act (Source.release h.item)

instance {κ : Type} [Compositor (StateM ω) Float κ] : Compositor (Staged ω) Float (Handle κ) where
  isSupported h := Compositor.isSupported (StateM ω) h.item
  useVariant h registry key := h.ask (Compositor.useVariant h.item registry key)
  updateImage h clip image := h.act (Compositor.updateImage h.item clip image)
  pinTime h time := h.act (Compositor.pinTime h.item time)
  render h shot := h.ask (Compositor.render h.item shot)
  readPixels h := h.ask (Compositor.readPixels h.item)
  dispose h := do
    Scene.note (Custody.dispose h.number)
    h.act (Compositor.dispose h.item)

/-! ## Turns -/

/-- What others do while a run waits, and the time afterwards. -/
structure Interlude (ω : Type) where
  moment : Moment
  change : Commons ω → Commons ω
  drops : Bool

namespace Scene

def turn (s : Scene ω) (u : Interlude ω) : Scene ω :=
  { s with commons := u.change s.commons, dropped := s.dropped || u.drops }

/-- Others have their turns until a wait is over; `none` if it is not over after all of them. -/
def waitOut (due : Option Nat) (ready : Moment → Staged ω Bool) (turns : List (Interlude ω))
    (now : Moment) (s : Scene ω) : Option (List (Interlude ω) × Moment × Scene ω) :=
  let polled := Task.isOver due ready now s
  if polled.1 then some (turns, now, polled.2)
  else
    match turns with
    | [] => none
    | u :: turns => waitOut due ready turns u.moment (polled.2.turn u)

def play : Task (Staged ω) β → List (Interlude ω) → Moment → Scene ω → Option (β × Scene ω)
  | .done b, _, _, s => some (b, s)
  | .act x next, turns, now, s =>
    let (b, s) := x s
    play (next b) turns now s
  | .now next, turns, now, s => play (next now) turns now s
  | .wait due ready next, turns, now, s => do
    let (turns, now, s) ← waitOut due ready turns now s
    play next turns now s

/-- Looks and touches nothing; a drop is always seen. -/
structure Heeds (x : Staged ω Bool) : Prop where
  looks : ∀ s, (x s).2 = s
  sees : ∀ s, s.dropped = true → (x s).1 = true

theorem heeds_isDropped : Heeds (isDropped : Staged ω Bool) := ⟨fun _ => rfl, fun _ h => h⟩

theorem heeds_isOver {ready : Moment → Staged ω Bool} (h : ∀ t, Heeds (ready t))
    (due : Option Nat) (t : Moment) : Heeds (Task.isOver due ready t) := by
  unfold Task.isOver
  split
  · exact ⟨fun _ => rfl, fun _ _ => rfl⟩
  · exact h t

/-- The task ends as `Q` says wherever others have their turns, and it heeds the caller. -/
def Meets : Task (Staged ω) β → (β → Scene ω → Prop) → Scene ω → Prop
  | .done b, Q, s => Q b s
  | .act x next, Q, s => (x s).2.dropped = s.dropped ∧ Meets (next (x s).1) Q (x s).2
  | .now next, Q, s => ∀ t, Meets (next t) Q s
  | .wait _ ready next, Q, s =>
    (∀ t, Heeds (ready t)) ∧ ∀ commons dropped, Meets next Q { s with commons, dropped }

theorem Meets.bind {t : Task (Staged ω) β} {f : β → Task (Staged ω) γ} {R : β → Scene ω → Prop}
    {Q : γ → Scene ω → Prop} {s : Scene ω} (h : Meets t R s)
    (hf : ∀ b s, R b s → Meets (f b) Q s) : Meets (t >>= f) Q s := by
  induction t generalizing s with
  | done b => exact hf b s h
  | act x next ih => exact ⟨h.1, ih _ h.2⟩
  | now next ih => exact fun t => ih t (h t)
  | wait due ready next ih => exact ⟨h.1, fun commons dropped => ih (h.2 commons dropped)⟩

theorem Meets.mono {t : Task (Staged ω) β} {Q R : β → Scene ω → Prop} {s : Scene ω}
    (h : Meets t R s) (hR : ∀ b s, R b s → Q b s) : Meets t Q s := by
  induction t generalizing s with
  | done b => exact hR b s h
  | act x next ih => exact ⟨h.1, ih _ h.2⟩
  | now next ih => exact fun t => ih t (h t)
  | wait due ready next ih => exact ⟨h.1, fun commons dropped => ih (h.2 commons dropped)⟩

section

variable {due : Option Nat} {ready : Moment → Staged ω Bool} (h : ∀ t, Heeds (ready t))
  {turns : List (Interlude ω)} {now : Moment} {s : Scene ω}
include h

@[simp] theorem waitOut_nil : waitOut due ready [] now s =
    if (Task.isOver due ready now s).1 then some ([], now, s) else none := by
  unfold waitOut
  dsimp only
  rw [(heeds_isOver h due now).looks]

theorem waitOut_cons (u : Interlude ω) : waitOut due ready (u :: turns) now s =
    if (Task.isOver due ready now s).1 then some (u :: turns, now, s)
    else waitOut due ready turns u.moment (s.turn u) := by
  rw [waitOut, (heeds_isOver h due now).looks]

/-- A wait changes nothing of what the run does with its clips. -/
theorem waitOut_custody {r : List (Interlude ω) × Moment × Scene ω}
    (hr : waitOut due ready turns now s = some r) :
    ∃ commons dropped, r.2.2 = { s with commons, dropped } := by
  induction turns generalizing now s with
  | nil =>
      rw [waitOut_nil h] at hr
      split at hr
      · cases hr
        exact ⟨s.commons, s.dropped, rfl⟩
      · cases hr
  | cons u turns ih =>
      rw [waitOut_cons h] at hr
      split at hr
      · cases hr
        exact ⟨s.commons, s.dropped, rfl⟩
      · obtain ⟨commons, dropped, heq⟩ := ih hr
        exact ⟨commons, dropped, heq⟩

/-- A drop ends every wait. -/
theorem waitOut_dropped (hdrop : s.dropped = true ∨ ∃ u ∈ turns, u.drops = true) :
    ∃ r, waitOut due ready turns now s = some r ∧
      (r.2.2.dropped = true ∨ ∃ u ∈ r.1, u.drops = true) := by
  induction turns generalizing now s with
  | nil =>
      have hdropped : s.dropped = true := by
        rcases hdrop with hdropped | ⟨u, hu, _⟩
        · exact hdropped
        · cases hu
      rw [waitOut_nil h, if_pos ((heeds_isOver h due now).sees s hdropped)]
      exact ⟨_, rfl, .inl hdropped⟩
  | cons u turns ih =>
      rw [waitOut_cons h]
      by_cases hover : (Task.isOver due ready now s).1 = true
      -- over before the next turn, so that a drop in a later one is still to come
      · rw [if_pos hover]
        exact ⟨_, rfl, hdrop⟩
      · rw [if_neg hover]
        apply ih
        rcases hdrop with hdropped | ⟨v, hv, hdrops⟩
        · exact absurd ((heeds_isOver h due now).sees s hdropped) hover
        · cases hv with
          | head => exact .inl (by simp [turn, hdrops])
          | tail _ hv => exact .inr ⟨v, hv, hdrops⟩

end

/-- What a task meets holds at the end of every run of it. -/
theorem Meets.play {t : Task (Staged ω) β} {Q : β → Scene ω → Prop} {s : Scene ω}
    (h : Meets t Q s) {turns : List (Interlude ω)} {now : Moment} {b : β} {s' : Scene ω}
    (hplay : play t turns now s = some (b, s')) : Q b s' := by
  induction t generalizing s turns now with
  | done a =>
      cases hplay
      exact h
  | act x next ih => exact ih _ h.2 hplay
  | now next ih => exact ih now (h now) hplay
  | wait due ready next ih =>
      obtain ⟨⟨turns', now', s₁⟩, hwait, hnext⟩ := Option.bind_eq_some_iff.mp hplay
      obtain ⟨commons, dropped, rfl⟩ := waitOut_custody h.1 hwait
      exact ih (h.2 commons dropped) hnext

/-- A task whose caller drops it at some turn needs no further ones. -/
theorem Meets.ends {t : Task (Staged ω) β} {Q : β → Scene ω → Prop} {s : Scene ω}
    (h : Meets t Q s) {turns : List (Interlude ω)} {now : Moment}
    (hdrop : s.dropped = true ∨ ∃ u ∈ turns, u.drops = true) :
    (Scene.play t turns now s).isSome := by
  induction t generalizing s turns now with
  | done a => rfl
  | act x next ih => exact ih _ h.2 (hdrop.imp_left h.1.trans)
  | now next ih => exact ih now (h now) hdrop
  | wait due ready next ih =>
      obtain ⟨⟨turns', now', s₁⟩, hwait, hleft⟩ := waitOut_dropped h.1 hdrop
      obtain ⟨commons, dropped, rfl⟩ := waitOut_custody h.1 hwait
      have hnext : (Scene.play next turns' now' { s with commons, dropped }).isSome :=
        ih (h.2 commons dropped) hleft
      unfold Scene.play
      rw [hwait]
      exact hnext

end Scene

end Segue
