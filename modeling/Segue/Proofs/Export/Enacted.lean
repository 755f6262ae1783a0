import Mathlib
import Segue.Export.Perform
import Segue.Proofs.Export.InStep
import Segue.Proofs.Export.Room
import Segue.Proofs.Promise

/-!
# Exports as runs of a session

What sessions say of runs is said of the exports that are performed. Wherever a performed export
waits, the exporter is as in a session that has come so far. Others may then do with it whatever a
session lets them do, and the export goes on as the run of that session: it gets the replies that
the run waits for, and when it returns, the run has ended with the very result.
-/

namespace Segue

/-- Programs that act on a state, one part of which is an exporter. -/
structure Housing (m : Type → Type) [Monad m] [MonadStateOf (Exporter Float) m] (S : Type) where
  exec : {β : Type} → m β → S → β × S
  exporter : S → Exporter Float
  put : Exporter Float → S → S
  exporter_put : ∀ e c, exporter (put e c) = e
  exec_pure : ∀ {β : Type} (b : β) c, exec (pure b) c = (b, c)
  exec_bind : ∀ {β γ : Type} (x : m β) (f : β → m γ) c,
    exec (x >>= f) c = exec (f (exec x c).1) (exec x c).2
  exec_get : ∀ c, exec (getThe (Exporter Float)) c = (exporter c, c)
  exec_set : ∀ e c, exec (set e) c = (⟨⟩, put e c)
  exec_modifyGet : ∀ {β : Type} (f : Exporter Float → β × Exporter Float) c,
    exec (modifyGetThe (Exporter Float) f) c = ((f (exporter c)).1, put (f (exporter c)).2 c)

namespace Exporter

variable {α : Type} [Scalar α] [Elementary α]

/-- The event is not for the run at place `k`. -/
def Event.Elsewhere (k : Nat) (e : Event α) : Prop := e.addressee? ≠ some k

/-- The event is for the run at place `k`, or its caller brings it about on hearing of a frame. -/
def Event.Own (heard : Event α → Prop) (k : Nat) (e : Event α) : Prop :=
  e.addressee? = some k ∨ heard e

namespace Session

/-- Events of one kind lead to another session. -/
def Reaches (kind : Event α → Prop) (s s' : Session α) : Prop :=
  ∃ events, (∀ e ∈ events, kind e) ∧ s.run events = s'

variable {kind kind' : Event α → Prop} {s s' s'' : Session α}

theorem Reaches.refl (kind : Event α → Prop) (s : Session α) : s.Reaches kind s :=
  ⟨[], fun _ he => (nomatch he), rfl⟩

theorem Reaches.trans (h : s.Reaches kind s') (h' : s'.Reaches kind s'') : s.Reaches kind s'' := by
  obtain ⟨events, hevents, rfl⟩ := h
  obtain ⟨more, hmore, rfl⟩ := h'
  refine ⟨events ++ more, fun e he => ?_, s.run_append events more⟩
  exact (List.mem_append.mp he).elim (hevents e) (hmore e)

theorem Reaches.step {e : Event α} (he : kind e) : s.Reaches kind (s.step e) :=
  ⟨[e], fun _ he' => List.mem_singleton.mp he' ▸ he, rfl⟩

theorem Reaches.weaken (h : s.Reaches kind s') (hkind : ∀ e, kind e → kind' e) :
    s.Reaches kind' s' := by
  obtain ⟨events, hevents, hrun⟩ := h
  exact ⟨events, fun e he => hkind e (hevents e he), hrun⟩

/-- What every step of the kind keeps is kept. -/
theorem Reaches.keep {P : Session α → Prop} (hstep : ∀ s e, kind e → P s → P (s.step e))
    (h : s.Reaches kind s') (hs : P s) : P s' := by
  obtain ⟨events, hevents, rfl⟩ := h
  induction events generalizing s with
  | nil => exact hs
  | cons e events ih =>
      refine ih ?_ fun e' he' => hevents e' (List.mem_cons_of_mem e he')
      exact hstep s e (hevents e List.mem_cons_self) hs

theorem Reaches.sound (h : s.Reaches kind s') (hs : s.Sound) : s'.Sound :=
  h.keep (fun _ e _ hs => (hs.change e).sound hs) hs

theorem policy_step (s : Session α) (e : Event α) : (s.step e).policy = s.policy := by
  have ht := s.taken e
  generalize s.step e = s' at ht
  cases ht <;> rfl

theorem Reaches.policy (h : s.Reaches kind s') : s'.policy = s.policy :=
  h.keep (P := fun s'' => s''.policy = s.policy) (fun _ e _ hs => (policy_step _ e).trans hs) rfl

theorem Reaches.runs {k : Nat} (h : s.Reaches (Event.Elsewhere k) s') {x : ExportCall α}
    (hk : s.runs[k]? = some x) : s'.runs[k]? = some x :=
  h.keep (P := fun s => s.runs[k]? = some x) (fun _ _ he hs =>
    (runs_step_of_ne (List.getElem?_eq_some_iff.mp hs).1 he).trans hs) hk

theorem Reaches.own {heard : Event α → Prop} {k : Nat} {e : Event α} (he : e.addressee? = some k) :
    s.Reaches (Event.Own heard k) (s.step e) := .step (.inl he)

end Session

end Exporter

theorem Task.sooner_some (due : Option Nat) (t : Nat) :
    ∃ u, Task.sooner due (some t) = some u := by
  cases due with
  | none => exact ⟨t, rfl⟩
  | some d => exact ⟨min d t, rfl⟩

/-! ## Seeks begin before a cancellation -/

namespace Export

variable {α : Type}

/-- A run that has gone on to a seek was not cancelled. -/
def Uncut (y : Running α) : Prop := y.2.isSeeking = true → y.1.isCancelled y.2.generation = false

theorem uncut_drain (e : Exporter α) (r : Export α) : Uncut (drain e r) := by
  unfold drain
  split
  · exact fun h => nomatch h
  · exact fun h => nomatch h

variable [Scalar α] [Elementary α]

theorem uncut_seekB {e : Exporter α} {r : Export α} (h : e.isCancelled r.generation = false) :
    Uncut (seekB e r) := by
  unfold seekB
  split
  · exact fun _ => h
  · exact fun h => nomatch h

theorem uncut_enterFrame (e : Exporter α) (r : Export α) : Uncut (enterFrame e r) := by
  unfold enterFrame
  split
  · exact uncut_drain e r
  · rename_i hgoes
    have hcut : e.isCancelled r.generation = false := by
      simp only [Bool.or_eq_true, not_or] at hgoes
      exact Bool.eq_false_of_not_eq_true hgoes.2
    split
    · exact fun _ => hcut
    · exact uncut_seekB hcut

theorem uncut_makeRoom (frame : EncodedFrame) (e : Exporter α) (r : Export α) :
    Uncut (makeRoom frame e r) := by
  unfold makeRoom
  split
  · exact fun h => nomatch h
  · exact uncut_enterFrame _ _

theorem uncut_afterJoin (e : Exporter α) (r : Export α) : Uncut (afterJoin e r) := by
  unfold afterJoin
  split
  · exact uncut_makeRoom _ e r
  · exact uncut_drain e r

theorem uncut_sought (clip : Clip) (outcome : SeekOutcome) (e : Exporter α) (r : Export α) :
    Uncut (sought clip outcome e r) := by
  unfold sought
  split
  · exact uncut_drain e r
  · rename_i hgoes
    simp only [Bool.or_eq_true, not_or] at hgoes
    cases clip with
    | a => exact uncut_seekB (Bool.eq_false_of_not_eq_true hgoes.1)
    | b => exact fun h => nomatch h

/-- Whatever a run is told, it begins a seek only if it has not been cancelled. -/
theorem uncut_resume {reply : Reply α} {e : Exporter α} {r : Export α}
    (h : r.isSeeking = true → ∃ o, reply = .sought o) : Uncut (r.resume reply e) := by
  unfold resume
  split
  · unfold duplicated
    dsimp only
    split
    · exact fun h => nomatch h
    · exact fun h => nomatch h
  · unfold plan
    split
    · exact fun h => nomatch h
    · dsimp only
      split
      · exact fun h => nomatch h
      · exact fun h => nomatch h
  · unfold composed
    split
    · exact uncut_enterFrame _ _
    · exact fun h => nomatch h
  · exact uncut_sought _ _ e r
  · unfold drawn
    split
    · exact fun h => nomatch h
    · exact uncut_enterFrame _ _
    · exact uncut_enterFrame _ _
  · unfold encoded
    split
    · exact uncut_enterFrame _ _
    · split
      · exact uncut_drain e r
      · exact uncut_makeRoom _ e r
  · unfold finished
    split
    · exact fun h => nomatch h
    · exact uncut_afterJoin _ _
  · exact uncut_afterJoin e r
  · rename_i hsought _ _ _ _
    intro hseeking
    obtain ⟨o, rfl⟩ := h hseeking
    unfold isSeeking at hseeking
    split at hseeking
    · rename_i clip time hp
      exact absurd rfl (hsought clip time o hp)
    · cases hseeking

theorem resume_composed_of_ne {r : Export α} (h : r.phase ≠ .composing) (supported : Bool)
    (e : Exporter α) : r.resume (.composed supported) e = (e, r) := by
  unfold resume
  split
  all_goals first | rfl | contradiction

end Export

open Exporter

namespace Housing

variable {m : Type → Type} [Monad m] [MonadStateOf (Exporter Float) m] {S β γ : Type}
  (H : Housing m S)

/-- The exporter stays as it is. -/
def still [LawfulMonad m] (e : Exporter Float) : Promise m where
  holds x Q := ∀ c, H.exporter c = e → Q (H.exec x c).1 ∧ H.exporter (H.exec x c).2 = e
  returns hQ c hc := by
    rw [H.exec_pure]
    exact ⟨hQ, hc⟩
  bind hx hf c hc := by
    rw [H.exec_bind]
    obtain ⟨hR, hc'⟩ := hx c hc
    exact hf _ hR _ hc'
  map hx c hc := by
    rw [← bind_pure_comp, H.exec_bind, H.exec_pure]
    exact hx c hc
  weaken hx hQ c hc := ⟨hQ _ (hx c hc).1, (hx c hc).2⟩

def Apart (x : m β) : Prop := ∀ c, H.exporter (H.exec x c).2 = H.exporter c

/-- A question about the exporter. -/
def Tells (x : m Bool) (p : Exporter Float → Bool) : Prop :=
  ∀ c, H.exec x c = (p (H.exporter c), c)

variable {H} {x : m β} {c : S}

theorem apart_iff_still [LawfulMonad m] : H.Apart x ↔ ∀ e, (H.still e).safe x := by
  refine ⟨?_, fun h c => (h _ c rfl).2⟩
  rintro h _ c rfl
  exact ⟨trivial, h c⟩

theorem tells_exporter (p : Exporter Float → Bool) : H.Tells (do
    if p (← getThe (Exporter Float)) then pure true else pure false) p := by
  intro c
  rw [H.exec_bind, H.exec_get]
  dsimp only
  cases p (H.exporter c) <;> exact H.exec_pure _ c

theorem tells_isCancelled (run : Nat) : H.Tells (do
    if ← Export.isCancelled run then pure true else pure false) (·.isCancelled run) := by
  intro c
  rw [Export.isCancelled, H.exec_bind, H.exec_bind, H.exec_get, H.exec_pure]
  dsimp only
  cases (H.exporter c).isCancelled run <;> exact H.exec_pure _ c

theorem tells_pure : H.Tells (pure false) fun _ => false := H.exec_pure false

/-! ## Enacting a run -/

variable (H) in
/-- The run at place `k` is `x`, in a session that has the exporter of the state. -/
structure Seated (p : RetryPolicy) (k : Nat) (x : ExportCall Float) (s : Session Float) (c : S) :
    Prop where
  sound : s.Sound
  policy : s.policy = p
  here : s.runs[k]? = some x
  same : H.exporter c = s.exporter

variable (H) in
/-- A wait that comes to its end though nobody but the uploader does anything. -/
inductive Brief (k : Nat) (due : Option Nat) (ready : Moment → m Bool) (now : Moment)
    (s : Session Float) : Prop
  | due (t : Nat) : due = some t → Brief k due ready now s
  | turn : (∀ (u : Moment) c, now.round < u.round → (H.exec (ready u) c).1 = true) →
      Brief k due ready now s
  | upload (x : ExportCall Float) : s.runs[k]? = some x → x.run.pending ≠ 0 →
      (∀ u c, (H.exporter c).hasFinished (k + 1) = true → (H.exec (ready u) c).1 = true) →
      Brief k due ready now s

variable (H) in
/-- The task enacts the run at place `k` of a session, and ends as `Q` says. At each wait the
session has come, by events of that run, to the exporter of the state; and others may then lead the
session anywhere by events that are not for that run. -/
def Enacts (heard : Event Float → Prop) (k : Nat) : Task m β →
    (β → Session Float → S → Prop) → Session Float → Moment → S → Prop
  | .done b, Q, s, _, c => ∃ s', s.Reaches (Event.Own heard k) s' ∧ Q b s' c
  | .act x next, Q, s, now, c => Enacts heard k (next (H.exec x c).1) Q s now (H.exec x c).2
  | .now next, Q, s, now, c => Enacts heard k (next now) Q s now c
  | .wait due ready next, Q, s, now, c =>
    (∀ t c, (H.exec (ready t) c).2 = c) ∧ ∃ s', s.Reaches (Event.Own heard k) s' ∧
      H.exporter c = s'.exporter ∧ H.Brief k due ready now s' ∧
      ∀ s'' now' c', s'.Reaches (Event.Elsewhere k) s'' → H.exporter c' = s''.exporter →
        (H.exec (Task.isOver due ready now') c').1 = true → Enacts heard k next Q s'' now' c'

section

variable {heard : Event Float → Prop} {k : Nat} {t : Task m β} {Q : β → Session Float → S → Prop}
  {s : Session Float} {now : Moment}

/-- The session may go on at any time. -/
theorem Enacts.after {s' : Session Float} (hs : s.Reaches (Event.Own heard k) s')
    (h : H.Enacts heard k t Q s' now c) : H.Enacts heard k t Q s now c := by
  induction t generalizing c with
  | done b =>
      obtain ⟨s'', hs'', hQ⟩ := h
      exact ⟨s'', hs.trans hs'', hQ⟩
  | act x next ih => exact ih _ h
  | now next ih => exact ih now h
  | wait due ready next _ =>
      obtain ⟨hlooks, s'', hs'', hnext⟩ := h
      exact ⟨hlooks, s'', hs.trans hs'', hnext⟩

theorem enacts_pure {b : β} (h : Q b s c) : H.Enacts heard k (pure b) Q s now c :=
  ⟨s, .refl _ s, h⟩

theorem Enacts.bind {f : β → Task m γ} {R : β → Session Float → S → Prop}
    {Q : γ → Session Float → S → Prop} (h : H.Enacts heard k t R s now c)
    (hf : ∀ b s now c, R b s c → H.Enacts heard k (f b) Q s now c) :
    H.Enacts heard k (t >>= f) Q s now c := by
  induction t generalizing s now c with
  | done b =>
      obtain ⟨s', hs, hR⟩ := h
      exact (hf b s' now c hR).after hs
  | act x next ih => exact ih _ h
  | now next ih => exact ih now h
  | wait due ready next ih =>
      obtain ⟨hlooks, s', hs, hsame, hbrief, hnext⟩ := h
      refine ⟨hlooks, s', hs, hsame, hbrief, fun s'' now' c' hs'' hsame' hover => ?_⟩
      exact ih (hnext s'' now' c' hs'' hsame' hover)

theorem enacts_look {x : m Bool} {p : Exporter Float → Bool} (hx : H.Tells x p)
    {f : Bool → Task m γ} {Q : γ → Session Float → S → Prop}
    (hf : H.Enacts heard k (f (p (H.exporter c))) Q s now c) :
    H.Enacts heard k (liftM x >>= f) Q s now c := by
  have hx := hx c
  change H.Enacts heard k (f (H.exec x c).1) Q s now (H.exec x c).2
  rw [hx]
  exact hf

theorem enacts_act {x : m β} {f : β → Task m γ} {Q : γ → Session Float → S → Prop}
    (h : H.Enacts heard k (f (H.exec x c).1) Q s now (H.exec x c).2) :
    H.Enacts heard k (liftM x >>= f) Q s now c := h

theorem enacts_millis {f : Nat → Task m γ} {Q : γ → Session Float → S → Prop}
    (h : H.Enacts heard k (f now.millis) Q s now c) :
    H.Enacts heard k (Task.millis >>= f) Q s now c := h

/-! ## Waits -/

variable {p : RetryPolicy} {x : ExportCall Float}

theorem Seated.others (h : H.Seated p k x s c) {s' : Session Float}
    (hs : s.Reaches (Event.Elsewhere k) s') {c' : S} (hsame : H.exporter c' = s'.exporter) :
    H.Seated p k x s' c' where
  sound := hs.sound h.sound
  policy := hs.policy.trans h.policy
  here := hs.runs h.here
  same := hsame

theorem Seated.of_exporter (h : H.Seated p k x s c) {c' : S}
    (hsame : H.exporter c' = H.exporter c) : H.Seated p k x s c' :=
  { h with same := hsame.trans h.same }

variable {cut : m Bool} {q : Exporter Float → Bool} (hcut : H.Tells cut q)
include hcut

theorem enacts_sleepUntil (h : H.Seated p k x s c) (t : Nat) :
    H.Enacts heard k (Task.sleepUntil (some t) cut) (fun _ => H.Seated p k x) s now c := by
  refine ⟨fun _ c => congrArg Prod.snd (hcut c), s, .refl _ s, h.same, .due t rfl, ?_⟩
  exact fun s' now' c' hs hsame _ => enacts_pure (h.others hs hsame)

theorem enacts_giveWay (h : H.Seated p k x s c) :
    H.Enacts heard k (Task.giveWay cut) (fun _ => H.Seated p k x) s now c := by
  refine ⟨fun u c => ?_, s, .refl _ s, h.same, .turn fun u c hu => ?_, ?_⟩
  · dsimp only
    split
    · rw [H.exec_pure]
    · exact congrArg Prod.snd (hcut c)
  · rw [if_pos hu, H.exec_pure]
  · exact fun s' now' c' hs hsame _ => enacts_pure (h.others hs hsame)

theorem enacts_rest (h : H.Seated p k x s c) (duration : Nat) :
    H.Enacts heard k (rest duration cut) (fun _ => H.Seated p k x) s now c :=
  enacts_sleepUntil hcut h _

end

/-! ## Seeks -/

/-- The session takes the end of an attempt, or of a rest. -/
theorem Seated.seek {p : RetryPolicy} {k : Nat} {x : ExportCall Float} {s : Session Float}
    (h : H.Seated p k x s c) (hseeking : x.run.isSeeking = true) {o : SeekOutcome}
    (ho : o = .cancelled → s.exporter.isCancelled x.run.generation = true) :
    H.Seated p k (x.seek p (s.exporter.isCancelled x.run.generation) o) (s.step (.seek k o)) c := by
  have hstep : s.step (.seek k o) = { s with
      runs := s.runs.set k (x.seek p (s.exporter.isCancelled x.run.generation) o) } := by
    have hallowed : (o ≠ .cancelled || s.exporter.isCancelled x.run.generation) = true := by
      by_cases hcancelled : o = .cancelled
      · simp [ho hcancelled]
      · simp [hcancelled]
    simp only [Session.step, h.here, hseeking, Bool.true_and, hallowed, if_true, h.policy]
  have hlt : k < s.runs.length := (List.getElem?_eq_some_iff.mp h.here).1
  refine ⟨(h.sound.change _).sound h.sound, (s.policy_step _).trans h.policy, ?_, ?_⟩
  · rw [hstep]
    exact List.getElem?_set_self hlt
  · rw [hstep]
    exact h.same

variable (H) in
/-- Clips that know nothing of the exporter. -/
structure SourceApart (σ : Type) [Source m Float σ] : Prop where
  seek : ∀ (a : σ) time, H.Apart (Source.seek a time : m (Seeking σ))
  duplicate : ∀ a : σ, H.Apart (Source.duplicate a : m (Except MediaError σ))
  release : ∀ a : σ, H.Apart (Source.release a : m σ)

section

variable {σ : Type} [Source m Float σ] (hsource : H.SourceApart σ) {heard : Event Float → Prop}
  {p : RetryPolicy} {k : Nat} {x : ExportCall Float} {s : Session Float} {now : Moment}
  {cut : m Bool}

include hsource

/-- An attempt is cut short only by what `cut` asks about. -/
theorem enacts_seekBounded {q : Exporter Float → Bool} (hcut : H.Tells cut q)
    (h : H.Seated p k x s c) (timeout : Nat) (a : σ) (time : Float) :
    H.Enacts heard k (seekBounded timeout cut a time) (fun r s' c' => H.Seated p k x s' c' ∧
      (r.1 = .cancelled → q s'.exporter = true)) s now c := by
  unfold seekBounded
  refine enacts_look hcut ?_
  split
  · rename_i hcancelled
    exact enacts_pure ⟨h, fun _ => h.same ▸ hcancelled⟩
  · refine enacts_millis (enacts_act ?_)
    have hsought := h.of_exporter (hsource.seek a time c)
    generalize H.exec (Source.seek a time : m (Seeking σ)) c = r at hsought ⊢
    -- `finish` is what comes after the source has given way, or at once if it does not
    extract_lets settled finish
    have hsettled : settled.1 ≠ .cancelled := by
      unfold settled
      split
      · exact nofun
      · exact nofun
    clear_value settled
    have hfinish : ∀ s₂ now c₂, H.Seated p k x s₂ c₂ →
        H.Enacts heard k (finish ()) (fun r s' c' => H.Seated p k x s' c' ∧
          (r.1 = .cancelled → q s'.exporter = true)) s₂ now c₂ := by
      intro s₂ now₂ c₂ h₂
      unfold finish
      split
      · exact enacts_pure ⟨h₂, fun ho => absurd ho hsettled⟩
      · split
        · exact enacts_pure ⟨h₂, nofun⟩
        · extract_lets landing
          obtain ⟨t, ht⟩ := Task.sooner_some landing (now.millis + timeout)
          rw [ht]
          clear_value landing
          refine (enacts_sleepUntil hcut h₂ t).bind fun _ s₃ now₃ c₃ h₃ => enacts_look hcut ?_
          split
          · rename_i hcancelled
            exact enacts_pure ⟨h₃, fun _ => h₃.same ▸ hcancelled⟩
          · split
            · refine enacts_pure ⟨h₃, ?_⟩
              split
              · exact fun ho => absurd ho hsettled
              · exact nofun
            · exact enacts_pure ⟨h₃, nofun⟩
    clear_value finish
    split
    · split
      · exact enacts_pure ⟨hsought, nofun⟩
      · refine (enacts_giveWay hcut hsought).bind fun _ s₂ now₂ c₂ h₂ => enacts_look hcut ?_
        split
        · rename_i hcancelled
          exact enacts_pure ⟨h₂, fun _ => h₂.same ▸ hcancelled⟩
        · exact hfinish s₂ now₂ c₂ h₂
    · exact hfinish s now r.2 hsought

variable (H) in
/-- The seek of the run has ended. -/
def Landed (p : RetryPolicy) (k : Nat) (x : ExportCall Float) (o : SeekOutcome)
    (s : Session Float) (c : S) : Prop :=
  ∃ turns, H.Seated p k { x with retry := .ended o, turns } s c

/-- A retried seek of the run that has come as far as the session says. -/
theorem enacts_retry (hcut : H.Tells cut (·.isCancelled x.run.generation))
    (hseeking : x.run.isSeeking = true) (time : Float) (n : Nat) (a : σ) (retry : Retry)
    (turns : Nat) (hn : retry.left p ≤ n) (h : H.Seated p k { x with retry, turns } s c) :
    H.Enacts heard k (Retry.perform p cut time n a retry)
      (fun r => H.Landed p k x r.1) s now c := by
  induction n generalizing a retry turns s now c with
  | zero =>
      cases retry with
      | ended o => exact enacts_pure ⟨turns, h⟩
      | seeking timeouts => exact absurd hn (Nat.not_succ_le_zero _)
      | resting timeouts => exact absurd hn (Nat.not_succ_le_zero _)
  | succ n ih =>
      cases retry with
      | ended o => exact enacts_pure ⟨turns, h⟩
      | seeking timeouts =>
          refine (enacts_seekBounded hsource hcut h p.timeout.millis a time).bind
            fun r s₁ now₁ c₁ ⟨h₁, ho⟩ => ?_
          have hgoes : ∀ o, Retry.seeking timeouts ≠ .ended o := nofun
          have hless := Retry.left_proceed_lt (p := p) hgoes false r.1
          exact (ih r.2 _ (turns + 1) (Nat.le_of_lt_succ (hless.trans_le hn))
            (h₁.seek hseeking ho)).after (.own rfl)
      | resting timeouts =>
          refine (enacts_rest hcut h p.backoff.millis).bind
            fun _ s₁ now₁ c₁ h₁ => enacts_look hcut ?_
          have hgoes : ∀ o, Retry.resting timeouts ≠ .ended o := nofun
          have hless := Retry.left_proceed_lt (p := p) hgoes
            (s₁.exporter.isCancelled x.run.generation) .completed
          rw [h₁.same]
          exact (ih a _ (turns + 1) (Nat.le_of_lt_succ (hless.trans_le hn))
            (h₁.seek hseeking nofun)).after (.own rfl)

variable (H) in
/-- The run has just gone on; if to a seek, it was not cancelled. -/
structure Poised (p : RetryPolicy) (k : Nat) (x : ExportCall Float) (s : Session Float) (c : S) :
    Prop extends H.Seated p k x s c where
  retry_eq : x.retry = .start (s.exporter.isCancelled x.run.generation)
  uncut : x.run.isSeeking = true → s.exporter.isCancelled x.run.generation = false

theorem enacts_seekClip (hcut : H.Tells cut (·.isCancelled x.run.generation))
    (h : H.Poised p k x s c) (hseeking : x.run.isSeeking = true) (time : Float) (a? : Option σ) :
    H.Enacts heard k (Export.seekClip p cut time a?) (fun r => H.Landed p k x r.1) s now c := by
  have hbegun : H.Seated p k { x with retry := .start false, turns := x.turns } s c := by
    rw [← h.uncut hseeking, ← h.retry_eq]
    exact h.toSeated
  cases a? with
  | none =>
      have hdone := hbegun.seek hseeking (o := .completed) nofun
      exact (enacts_pure ⟨x.turns + 1, hdone⟩).after (.own rfl)
  | some a =>
      have hstart : Retry.start ((H.exporter c).isCancelled x.run.generation) = .start false := by
        rw [h.same, h.uncut hseeking]
      have hretry :
          H.Enacts heard k (seekRetrying p cut a time) (fun r => H.Landed p k x r.1) s now c := by
        refine enacts_look hcut ?_
        rw [hstart]
        exact enacts_retry hsource hcut hseeking time _ a _ x.turns
          ((Retry.left_start p false).trans (Nat.le_succ _)) hbegun
      exact hretry.bind fun r s₁ now₁ c₁ h₁ => enacts_pure h₁

end

/-! ## Replies -/

section

variable {heard : Event Float → Prop} {p : RetryPolicy} {k : Nat} {x : ExportCall Float}
  {s : Session Float} {now : Moment}

variable (H) in
/-- With the reply the run goes on as it does in the next step of the session. -/
def Answered (p : RetryPolicy) (k : Nat) (x : ExportCall Float)
    (reply? : Option (Export.Reply Float)) (s : Session Float) (c : S) : Prop :=
  ∃ reply e x', reply? = some reply ∧ e.addressee? = some k ∧
    (∀ c', H.exporter c' = (x.run.resume reply (H.exporter c)).1 →
      H.Poised p k x' (s.step e) c') ∧
    x'.run = (x.run.resume reply (H.exporter c)).2 ∧ x'.run.total = x.run.total ∧
    x'.replies = x.replies + 1

/-- The session takes a reply. -/
theorem Seated.resume (h : H.Seated p k x s c) {reply : Export.Reply Float}
    (hreply : x.run.awaits x.retry reply = true) : H.Answered p k x (some reply) s c := by
  have hstep := Session.step_resume h.here hreply
  have hlt : k < s.runs.length := (List.getElem?_eq_some_iff.mp h.here).1
  have hsought : x.run.isSeeking = true → ∃ o, reply = .sought o := by
    intro hseeking
    unfold Export.awaits at hreply
    split at hreply
    · exact ⟨_, rfl⟩
    all_goals simp_all [Export.isSeeking]
  refine ⟨reply, .resume k reply, (x.resume reply s.exporter).2, rfl, rfl, fun c' hc' => ?_, ?_,
    (h.sound.resume_goes h.here hreply).2.1, rfl⟩
  · rw [h.same] at hc'
    have hsound := (h.sound.change (.resume k reply)).sound h.sound
    rw [hstep] at hsound ⊢
    exact ⟨⟨hsound, h.policy, List.getElem?_set_self hlt, hc'⟩, rfl, Export.uncut_resume hsought⟩
  · rw [h.same]
    rfl

/-- The session takes the result of an upload. -/
theorem Seated.join (h : H.Seated p k x s c) (hj : x.run.isJoining = true) {u : FinishedUpload}
    {left : List FinishedUpload}
    (hleft : takeFirst? (k + 1) s.exporter.finished = some (u, left)) {c' : S}
    (hc' : H.exporter c' = { s.exporter with finished := left }) :
    H.Answered p k x (some (.finished u.index u.ending)) s c' := by
  have hstep := h.sound.step_join h.here hj hleft
  have hlt : k < s.runs.length := (List.getElem?_eq_some_iff.mp h.here).1
  have hsought : x.run.isSeeking = true → ∃ o,
      (.finished u.index u.ending : Export.Reply Float) = .sought o := by
    intro hseeking
    cases hp : x.run.phase <;> simp [Export.isSeeking, Export.isJoining, hp] at hseeking hj
  refine ⟨_, .join k, (x.resume (.finished u.index u.ending) { s.exporter with
    finished := left }).2, rfl, rfl, fun c'' hc'' => ?_, ?_,
    (h.sound.join_goes h.here hj hleft).2.1, rfl⟩
  · rw [hc'] at hc''
    have hsound := (h.sound.change (.join k)).sound h.sound
    rw [hstep] at hsound ⊢
    exact ⟨⟨hsound, h.policy, List.getElem?_set_self hlt, hc''⟩, rfl, Export.uncut_resume hsought⟩
  · rw [hc']
    rfl

theorem exists_takeFirst? {e : Exporter Float} {run : Nat} (h : e.hasFinished run = true) :
    ∃ u left, takeFirst? run e.finished = some (u, left) := by
  unfold hasFinished at h
  generalize e.finished = us at h
  induction us with
  | nil => cases h
  | cons u us ih =>
      unfold takeFirst?
      by_cases hu : u.run = run
      · exact ⟨u, us, if_pos hu⟩
      · have hlater : us.any (·.run == run) = true := by simpa [hu] using h
        obtain ⟨v, left, hleft⟩ := ih hlater
        refine ⟨v, u :: left, ?_⟩
        rw [if_neg hu, hleft]
        rfl

/-- The wait for an upload ends with the result of one. -/
theorem enacts_join (h : H.Seated p k x s c) (hj : x.run.isJoining = true)
    (hpending : x.run.pending ≠ 0) :
    H.Enacts heard k (Export.join (pure false) x.run.generation)
      (fun reply? => H.Answered p k x reply?) s now c := by
  have hnumber : x.run.generation = k + 1 := (h.sound.each k x h.here).number
  have hready : H.Tells (do
      if (← getThe (Exporter Float)).hasFinished x.run.generation then pure true else pure false)
      (·.hasFinished (k + 1)) := by
    rw [hnumber]
    exact tells_exporter (·.hasFinished (k + 1))
  refine ⟨fun _ c => congrArg Prod.snd (hready c), s, .refl _ s, h.same,
    .upload x h.here hpending fun _ c hfinished => ?_, fun s' now' c' hs hsame hover => ?_⟩
  · rw [hready]
    exact hfinished
  · have hfinished : (H.exporter c').hasFinished (k + 1) = true := by
      change (H.exec (do
        if (← getThe (Exporter Float)).hasFinished x.run.generation then pure true
        else pure false : m Bool) c').1 = true at hover
      rwa [hready] at hover
    have h' := h.others hs hsame
    obtain ⟨u, left, hleft⟩ := exists_takeFirst? hfinished
    have htaken : (H.exporter c').takeFinished? x.run.generation =
        (some u, { H.exporter c' with finished := left }) := by
      rw [hnumber, takeFinished?, hleft]
    have hexec := H.exec_modifyGet (fun e => e.takeFinished? x.run.generation) c'
    rw [htaken] at hexec
    rw [h'.same] at hleft
    refine enacts_act (x := modifyGetThe (Exporter Float) fun e =>
      e.takeFinished? x.run.generation) ?_
    rw [hexec]
    refine enacts_pure ?_
    refine h'.join hj hleft ?_
    rw [H.exporter_put, h'.same]

end

/-! ## Crews -/

variable (H) in
/-- Compositors that know nothing of the exporter. -/
structure CompositorApart (κ : Type) [Compositor m Float κ] : Prop where
  useVariant : ∀ (a : κ) registry key,
    H.Apart (Compositor.useVariant a registry key : m (ActiveProgram × κ))
  updateImage : ∀ (a : κ) clip image, H.Apart (Compositor.updateImage a clip image : m κ)
  pinTime : ∀ (a : κ) time, H.Apart (Compositor.pinTime a time : m κ)
  render : ∀ (a : κ) shot, H.Apart (Compositor.render a shot : m (Bool × κ))
  readPixels : ∀ a : κ, H.Apart (Compositor.readPixels a : m (Option Image × κ))
  dispose : ∀ a : κ, H.Apart (Compositor.dispose a : m κ)

section

open Promise

variable [LawfulMonad m] {σ κ : Type} [Source m Float σ] [Compositor m Float κ]
  (hsource : H.SourceApart σ) (hcompositor : H.CompositorApart κ)

theorem Apart.still (h : H.Apart x) (e : Exporter Float) : (H.still e).safe x :=
  apart_iff_still.mp h e

omit [Compositor m Float κ] in
include hsource in
theorem still_hire (e : Exporter Float) (a b : σ) :
    (H.still e).holds (Export.hire a b : m (Export.Reply Float × Export.Crew σ κ))
      fun r => ∃ fa fb, r.1 = .duplicated fa fb := by
  refine holds_bind ((hsource.duplicate a).still e) fun _ => ?_
  exact holds_bind ((hsource.duplicate b).still e) fun _ => (H.still e).returns ⟨_, _, rfl⟩

include hsource hcompositor in
theorem apart_dismiss (crew : Export.Crew σ κ) : H.Apart (Export.dismiss crew : m Unit) := by
  refine apart_iff_still.mpr fun e => ?_
  obtain ⟨a, b, k⟩ := crew
  have hk : (H.still e).safe (Export.dismiss ⟨(none : Option σ), none, k⟩ : m Unit) := by
    cases k with
    | none => exact (H.still e).safe_pure ()
    | some k => exact safe_bind ((hcompositor.dispose k).still e) fun _ => (H.still e).safe_pure ()
  have hb : (H.still e).safe (Export.dismiss ⟨none, b, k⟩ : m Unit) := by
    cases b with
    | none => exact hk
    | some b => exact safe_bind ((hsource.release b).still e) fun _ => hk
  cases a with
  | none => exact hb
  | some a => exact safe_bind ((hsource.release a).still e) fun _ => hb

omit [Source m Float σ] in
include hcompositor in
theorem still_equip (e : Exporter Float) {make : Nat → Nat → m κ}
    (hmake : ∀ width height, H.Apart (make width height)) (r : Export Float)
    (crew : Export.Crew σ κ) :
    (H.still e).holds (Export.equip make r crew : m (Export.Reply Float × Export.Crew σ κ))
      fun y => ∃ supported, y.1 = .composed supported := by
  refine holds_bind ((hmake _ _).still e) fun a => ?_
  split
  · refine holds_bind ((hcompositor.useVariant a _ _).still e) fun _ => ?_
    exact (H.still e).returns ⟨true, rfl⟩
  · refine holds_bind ((hcompositor.dispose a).still e) fun _ => ?_
    exact (H.still e).returns ⟨false, rfl⟩

include hcompositor in
theorem apart_picture (time : Float) (shot : Shot Float) (crew : Export.Crew σ κ) :
    H.Apart (Export.picture time shot crew : m (Export.Drawn × Export.Crew σ κ)) := by
  refine apart_iff_still.mpr fun e => ?_
  have hshow : ∀ (a : κ) clip (image? : Option Image),
      (H.still e).safe (Compositor.show a clip image? : m κ) := by
    intro a clip image?
    cases image? with
    | none => exact (H.still e).safe_pure a
    | some image => exact (hcompositor.updateImage a clip image).still e
  unfold Export.picture
  split
  · exact (H.still e).safe_pure _
  · refine safe_bind (hshow _ _ _) fun a => safe_bind (hshow _ _ _) fun a => ?_
    refine safe_bind ((hcompositor.pinTime a _).still e) fun a => ?_
    refine safe_bind ((hcompositor.render a shot).still e) fun rendered => ?_
    obtain ⟨drawn, a⟩ := rendered
    refine safe_ite ((H.still e).safe_pure _) ?_
    refine safe_bind ((hcompositor.readPixels a).still e) fun read => ?_
    obtain ⟨image?, a⟩ := read
    cases image? <;> exact (H.still e).safe_pure _

/-! ## One wait, and all of them -/

variable (H) in
/-- What is done to the exporter is what was heard, and not for the run at place `k`. -/
def Causes (heard : Event Float → Prop) (k : Nat) (x : m β) : Prop :=
  ∀ (s : Session Float) c, H.exporter c = s.exporter →
    ∃ s', s.Reaches (fun e => heard e ∧ e.Elsewhere k) s' ∧
      H.exporter (H.exec x c).2 = s'.exporter

omit [LawfulMonad m] in
theorem Apart.causes (h : H.Apart x) (heard : Event Float → Prop) (k : Nat) :
    H.Causes heard k x := fun s c hc => ⟨s, .refl _ s, (h c).trans hc⟩

variable {heard : Event Float → Prop} {k : Nat} {s : Session Float} {now : Moment}
  {config : ExportConfig} {x : ExportCall Float} {report : Float → m Unit}

omit [LawfulMonad m] in
/-- A run past its preparations that has not ended. -/
theorem Seated.working {p : RetryPolicy} (h : H.Seated p k x s c) (hreplies : x.replies ≠ 0)
    (hended : x.run.hasEnded = false) :
    Export.Working (s.exporter.isCancelled (k + 1)) x.run (s.account (k + 1) x) := by
  have horder := (h.sound.each k x h.here).inOrder
  refine horder.working_of (fun hp => ?_) hended
  exact hreplies (horder.of_readying hp).2

include hsource hcompositor in
theorem enacts_await (hreport : ∀ value, H.Causes heard k (report value)) (crew : Export.Crew σ κ)
    (h : H.Poised (Export.policy config) k x s c) (hreplies : x.replies ≠ 0)
    (hended : x.run.hasEnded = false) :
    H.Enacts heard k (x.run.await config (pure false) report crew)
      (fun b => H.Answered (Export.policy config) k x b.1) s now c := by
  have hcut : H.Tells (do if ← Export.isCancelled x.run.generation then pure true else pure false)
      (·.isCancelled x.run.generation) := tells_isCancelled x.run.generation
  have hworking := h.toSeated.working hreplies hended
  have hprepared := hworking.prepared
  unfold Export.await
  cases hp : x.run.phase with
  | called => simp [Export.isPreparing, hp] at hprepared
  | readying => simp [Export.isPreparing, hp] at hprepared
  | composing => simp [Export.isPreparing, hp] at hprepared
  | ended result => simp [Export.hasEnded, hp] at hended
  | seeking clip time =>
      have hseeking : x.run.isSeeking = true := by simp [Export.isSeeking, hp]
      have hanswer : ∀ (o : SeekOutcome) s c, H.Landed (Export.policy config) k x o s c →
          H.Answered (Export.policy config) k x (some (.sought o)) s c := by
        rintro o s c ⟨turns, hlanded⟩
        exact hlanded.resume (by simp [Export.awaits, hp])
      cases clip with
      | a =>
          refine (enacts_seekClip hsource hcut h hseeking time crew.a).bind ?_
          exact fun r s c _ hr => enacts_pure (hanswer _ _ _ hr)
      | b =>
          refine (enacts_seekClip hsource hcut h hseeking time crew.b).bind ?_
          exact fun r s c _ hr => enacts_pure (hanswer _ _ _ hr)
  | drawing time shot =>
      refine enacts_act (enacts_pure ?_)
      have hdrawn := h.toSeated.of_exporter (apart_picture hcompositor time shot crew c)
      exact hdrawn.resume (by simp [Export.awaits, hp])
  | encoding i =>
      refine (enacts_giveWay tells_pure h.toSeated).bind fun _ s c now h' => enacts_pure ?_
      exact h'.resume (by simp [Export.awaits, hp])
  | joining =>
      have hj : x.run.isJoining = true := by simp [Export.isJoining, hp]
      refine (enacts_join h.toSeated hj (hworking.joining hj)).bind ?_
      exact fun reply? s c now h' => enacts_pure h'
  | report value =>
      obtain ⟨s', hs', htold⟩ := hreport value s c h.same
      have helsewhere := h.toSeated.others (hs'.weaken fun _ he => he.2) htold
      refine enacts_act (Enacts.after (hs'.weaken fun _ he => .inr he.1) (enacts_pure ?_))
      exact helsewhere.resume (by simp [Export.awaits, hp])

omit [LawfulMonad m] in
/-- The run gets a reply. -/
theorem enacts_step {reply : Export.Reply Float} {r : Export Float} {f : Export Float → Task m γ}
    {Q : γ → Session Float → S → Prop}
    (h : H.Enacts heard k (f (r.resume reply (H.exporter c)).2) Q s now
      (H.put (r.resume reply (H.exporter c)).1 c)) :
    H.Enacts heard k (Export.step (some reply) r >>= f) Q s now c := by
  have hexec := H.exec_modifyGet (fun e => ((r.resume reply e).2, (r.resume reply e).1)) c
  change H.Enacts heard k (f (H.exec (modifyGetThe (Exporter Float) fun e =>
    ((r.resume reply e).2, (r.resume reply e).1)) c).1) Q s now (H.exec (modifyGetThe
      (Exporter Float) fun e => ((r.resume reply e).2, (r.resume reply e).1)) c).2
  rw [hexec]
  exact h

variable (H) in
/-- The run of a job has ended with a result. -/
def Ended (p : RetryPolicy) (k : Nat) (job : ExportJob Float)
    (result : Except (ExportError Float) (List FrameRef)) (s : Session Float) (c : S) : Prop :=
  ∃ x, H.Seated p k x s c ∧ x.run.job = job ∧ x.run.phase = .ended result

include hsource hcompositor in
/-- A run that has been prepared comes to its end; the steps that are allowed suffice. -/
theorem enacts_perform (hreport : ∀ value, H.Causes heard k (report value)) {job : ExportJob Float}
    (n : Nat) (crew : Export.Crew σ κ) (h : H.Poised (Export.policy config) k x s c)
    (hjob : Export.Fits job x.run) (hreplies : x.replies ≠ 0)
    (hfuel : 6 * x.run.total + 3 ≤ n + x.replies) :
    H.Enacts heard k (Export.perform config (pure false) report n crew x.run)
      (fun b => H.Ended (Export.policy config) k job b.1) s now c := by
  induction n generalizing crew x s now c with
  | zero =>
      have hle := h.sound.replies_le h.here
      omega
  | succ n ih =>
      unfold Export.perform
      split
      · rename_i result hp
        exact enacts_pure ⟨x, h.toSeated, hjob.job_eq, hp⟩
      · rename_i hgoes
        have hended : x.run.hasEnded = false := by
          unfold Export.hasEnded
          split
          · rename_i result hp
            exact absurd hp (hgoes result)
          · rfl
        refine (enacts_await hsource hcompositor hreport crew h hreplies hended).bind
          fun b s₁ now₁ c₁ hanswered => enacts_look tells_pure ?_
        obtain ⟨reply, e, x', hreply, he, hposed, hrun, htotal, hcount⟩ := hanswered
        rw [if_neg Bool.false_ne_true, hreply]
        refine enacts_step ?_
        rw [← hrun]
        have hjob' : Export.Fits job x'.run := hrun ▸ hjob.resume reply _
        refine (ih b.2 (hposed _ (H.exporter_put _ _)) hjob' ?_ ?_).after (.own he)
        · omega
        · omega

/-! ## Preparations -/

omit [LawfulMonad m] in
/-- The clips of the run are ready, and it has a compositor if it needs one. -/
theorem Seated.prepare {p : RetryPolicy} (h : H.Seated p k x s c) (hready : x.run.isReadying = true)
    (a b : Export.ClipFacts Float) (supported : Bool) {d : S}
    (hd : H.exporter d = (x.run.setUp a b supported s.exporter).1) :
    H.Poised p k (x.prepare a b supported s.exporter).2 (s.step (.prepare k a b supported)) d := by
  have hstep := Session.step_prepare h.here hready a b supported
  have hlt : k < s.runs.length := (List.getElem?_eq_some_iff.mp h.here).1
  have hplan : (x.run.resume (.ready a b) s.exporter).2.isSeeking = false := by
    simp only [Export.resume, Export.isReadying_iff.mp hready, Export.plan]
    split
    · rfl
    · split <;> rfl
  have hsound := (h.sound.change (.prepare k a b supported)).sound h.sound
  rw [hstep] at hsound ⊢
  refine ⟨⟨hsound, h.policy, List.getElem?_set_self hlt, hd⟩, rfl, Export.uncut_resume ?_⟩
  rw [hplan]
  exact fun hseeking => absurd hseeking Bool.false_ne_true

variable (H) in
/-- The run is ready for its work, or has ended already. -/
def Prepared (p : RetryPolicy) (k : Nat) (job : ExportJob Float) (r : Export Float)
    (s : Session Float) (c : S) : Prop :=
  ∃ x, x.run = r ∧ Export.Fits job r ∧
    (H.Seated p k x s c ∧ r.hasEnded = true ∨ H.Poised p k x s c ∧ x.replies ≠ 0)

include hcompositor in
/-- The clips of a run that has been called get ready. -/
theorem enacts_ready {p : RetryPolicy} {make : Nat → Nat → m κ}
    (hmake : ∀ width height, H.Apart (make width height)) {job : ExportJob Float}
    (crew : Export.Crew σ κ) (h : H.Seated p k x s c) (hp : x.run.phase = .readying)
    (hjob : Export.Fits job x.run) :
    H.Enacts heard k (do
        let (reply, ready) ← Export.makeReady (pure false : m Bool) config.cloneTimeout.millis crew
        if ← (pure false : m Bool) then return (crew, ← Export.step none x.run)
        let r ← Export.step (some reply) x.run
        let .composing := r.phase | return (ready, r)
        let (reply, crew) ← (Export.equip make r ready : m (Export.Reply Float × Export.Crew σ κ))
        return (crew, ← Export.step (some reply) r))
      (fun b => H.Prepared p k job b.2) s now c := by
  have hready := Export.isReadying_iff.mpr hp
  have hmade : H.Enacts heard k
      (Export.makeReady (pure false : m Bool) config.cloneTimeout.millis crew)
      (fun b s' c' => (∃ fa fb, b.1 = .ready fa fb) ∧ H.Seated p k x s' c') s now c := by
    refine (enacts_rest tells_pure h _).bind fun _ s₁ now₁ c₁ h₁ => enacts_pure ⟨⟨_, _, rfl⟩, h₁⟩
  refine hmade.bind fun ⟨reply, ready⟩ s₁ now₁ c₁ ⟨⟨fa, fb, hreply⟩, h₁⟩ => ?_
  obtain rfl : reply = .ready fa fb := hreply
  refine enacts_look tells_pure ?_
  rw [if_neg Bool.false_ne_true]
  refine enacts_step ?_
  have hprepared := fun supported c' => h₁.prepare hready fa fb supported (d := c')
  rw [h₁.same]
  have hplanned := hjob.resume (.ready fa fb) s₁.exporter
  split
  · refine enacts_act ?_
    obtain ⟨⟨supported, hequipped⟩, hc₂⟩ := still_equip hcompositor
      (x.run.resume (.ready fa fb) s₁.exporter).1 hmake
      (x.run.resume (.ready fa fb) s₁.exporter).2 ready _ (H.exporter_put _ c₁)
    rcases hequip : H.exec (Export.equip make (x.run.resume (.ready fa fb) s₁.exporter).2 ready :
      m (Export.Reply Float × Export.Crew σ κ))
      (H.put (x.run.resume (.ready fa fb) s₁.exporter).1 c₁) with ⟨⟨reply, crew⟩, c₂⟩
    rw [hequip] at hequipped hc₂
    obtain rfl : reply = .composed supported := hequipped
    have hc₂ : H.exporter c₂ = (x.run.resume (.ready fa fb) s₁.exporter).1 := hc₂
    refine enacts_step ?_
    rw [hc₂]
    have hposed := hprepared supported (H.put _ c₂) (H.exporter_put _ _)
    refine (enacts_pure ⟨_, rfl, hplanned.resume _ _, .inr ⟨hposed, ?_⟩⟩).after (.own rfl)
    exact Nat.succ_ne_zero _
  · rename_i hother
    have hsetUp : x.run.setUp fa fb false s₁.exporter =
        x.run.resume (.ready fa fb) s₁.exporter := Export.resume_composed_of_ne hother false _
    have hposed := hprepared false (H.put (x.run.resume (.ready fa fb) s₁.exporter).1 c₁)
      (by rw [H.exporter_put, hsetUp])
    refine (enacts_pure ⟨_, ?_, hplanned, .inr ⟨hposed, Nat.succ_ne_zero _⟩⟩).after (.own rfl)
    exact congrArg Prod.snd hsetUp

variable (heard now config) in
include hsource hcompositor in
theorem enacts_prepare {make : Nat → Nat → m κ}
    (hmake : ∀ width height, H.Apart (make width height)) (job : ExportJob Float) (a b : σ)
    (hs : s.Sound) (hsame : H.exporter c = s.exporter) :
    ∃ fa fb, H.Enacts heard s.runs.length (Export.prepare config (pure false) make job a b)
      (fun b => H.Prepared s.policy s.runs.length job b.2) (s.step (.call job fa fb)) now c := by
  obtain ⟨⟨fa, fb, hhired⟩, hc₁⟩ := still_hire hsource (κ := κ) s.exporter a b c hsame
  refine ⟨fa, fb, enacts_act ?_⟩
  rcases hhire : H.exec (Export.hire a b : m (Export.Reply Float × Export.Crew σ κ)) c with
    ⟨⟨reply, crew⟩, c₁⟩
  rw [hhire] at hhired hc₁
  obtain rfl : reply = .duplicated fa fb := hhired
  have hc₁ : H.exporter c₁ = s.exporter := hc₁
  refine enacts_step ?_
  rw [hc₁]
  have hcalled : H.Seated s.policy s.runs.length
      ⟨((Export.make job).resume (.duplicated fa fb) s.exporter).2, _, 0, [], [], 0⟩
      (s.step (.call job fa fb))
      (H.put ((Export.make job).resume (.duplicated fa fb) s.exporter).1 c₁) :=
    ⟨(hs.change _).sound hs, rfl, List.getElem?_concat_length, H.exporter_put _ _⟩
  have hjob := (Export.make_fits job).resume (.duplicated fa fb) s.exporter
  split
  · rename_i hp
    apply enacts_ready hcompositor hmake crew hcalled hp hjob
  · rename_i hother
    refine enacts_pure ⟨_, rfl, hjob, .inl ⟨hcalled, ?_⟩⟩
    cases fa with
    | none => exact absurd rfl hother
    | some fault =>
        cases fb with
        | none => exact absurd rfl hother
        | some fault' => rfl

variable (heard now) in
include hsource hcompositor in
/-- An export is a run that is called in any session that has come to its exporter. -/
theorem enacts_exportFrames {make : Nat → Nat → m κ}
    (hmake : ∀ width height, H.Apart (make width height)) (job : ExportJob Float) (a b : σ)
    (hs : s.Sound) (hpolicy : s.policy = Export.policy config) (hsame : H.exporter c = s.exporter)
    (hreport : ∀ value, H.Causes heard s.runs.length (report value)) :
    ∃ fa fb, H.Enacts heard s.runs.length (exportFrames config (pure false) make report job a b)
      (H.Ended s.policy s.runs.length job) (s.step (.call job fa fb)) now c := by
  obtain ⟨fa, fb, hprepare⟩ :=
    enacts_prepare hsource hcompositor heard now config hmake job a b hs hsame
  refine ⟨fa, fb, ?_⟩
  refine hprepare.bind fun ⟨crew, r⟩ s₁ now₁ c₁ ⟨x, hrun, hjob, hready⟩ => ?_
  obtain rfl : x.run = r := hrun
  have hperform : H.Enacts heard s.runs.length
      (Export.perform config (pure false) report x.run.maxSteps crew x.run)
      (fun b => H.Ended s.policy s.runs.length job b.1) s₁ now₁ c₁ := by
    rcases hready with ⟨h, hended⟩ | ⟨h, hreplies⟩
    · rw [Export.maxSteps, Export.perform]
      split
      · rename_i result hp
        exact enacts_pure ⟨x, h, hjob.job_eq, hp⟩
      · rename_i hgoes
        unfold Export.hasEnded at hended
        split at hended
        · rename_i result hp
          exact absurd hp (hgoes result)
        · cases hended
    · rw [hpolicy] at h ⊢
      refine enacts_perform hsource hcompositor hreport _ crew h hjob hreplies ?_
      unfold Export.maxSteps
      omega
  refine hperform.bind fun b s₂ now₂ c₂ ⟨x', h, hjob, hp⟩ => enacts_act (enacts_pure ?_)
  refine ⟨x', ?_, hjob, hp⟩
  exact h.of_exporter (apart_dismiss hsource hcompositor b.2 c₂)

end

end Housing

end Segue
