import Mathlib
import Segue.Proofs.Cache.Move
import Segue.Proofs.Basic

/-!
# Interleaved calls of a cache

A session is one cache with all calls made on it so far. Builds leave off where they wait, and any
build may go on at any time with any view of its clips and any end of its seek; clearings and
further builds may come in between. Reading a cache changes nothing, so what a reader can see is the
cache of some session.
-/

namespace Segue

variable {α : Type}

/-- A build that was called, with what it has heard and done. -/
structure BuildCall (α : Type) where
  build : Build α
  /-- What it has seen of its clips and how its seeks ended since it took the cache over. -/
  heard : List (Build.View α × SeekOutcome)
  /-- The rows that the cache gained in its steps, each with the position at which it stood. -/
  pushed : List (Nat × CachedFrame α)

namespace BuildCall

/-- The generation that the build began when it took the cache over. -/
def effect (x : BuildCall α) : Option Nat :=
  if x.build.hasBegun then some x.build.generation else none

theorem effect_eq_some_iff {x : BuildCall α} {g : Nat} :
    x.effect = some g ↔ x.build.hasBegun = true ∧ x.build.generation = g := by
  simp [effect]

theorem effect_of_hasBegun {x : BuildCall α} (h : x.build.hasBegun = true) :
    x.effect = some x.build.generation :=
  effect_eq_some_iff.mpr ⟨h, rfl⟩

variable [Scalar α]

def make (request : CacheRequest α) : BuildCall α := ⟨.make request, [], []⟩

/-- Before it takes the cache over, a build has done nothing but wait. -/
structure Fresh (x : BuildCall α) : Prop where
  build_eq : x.build = { Build.make x.build.request with phase := x.build.phase }
  heard_eq : x.heard = []
  pushed_eq : x.pushed = []

def resume (v : Build.View α) (sought : SeekOutcome) (c : FrameCache α) (x : BuildCall α) :
    FrameCache α × BuildCall α :=
  let (c', b) := x.build.resume v sought c
  (c',
    { build := b
      heard := if b.hasBegun then x.heard ++ [(v, sought)] else x.heard
      pushed := x.pushed ++ (c'.rows.drop c.rows.length).map (x.build.index, ·) })

@[simp] theorem resume_fst (v : Build.View α) (sought : SeekOutcome) (c : FrameCache α)
    (x : BuildCall α) : (x.resume v sought c).1 = (x.build.resume v sought c).1 := rfl

@[simp] theorem resume_build (v : Build.View α) (sought : SeekOutcome) (c : FrameCache α)
    (x : BuildCall α) : (x.resume v sought c).2.build = (x.build.resume v sought c).2 := rfl

theorem heard_resume_of_not_hasBegun {v : Build.View α} {sought : SeekOutcome}
    {c : FrameCache α} {x : BuildCall α}
    (h : (x.build.resume v sought c).2.hasBegun = false) :
    (x.resume v sought c).2.heard = x.heard := by
  simp only [resume, h, Bool.false_eq_true, if_false]

end BuildCall

namespace FrameCache

inductive Call (α : Type) where
  | build (x : BuildCall α)
  | clear (generation : Nat)

namespace Call

/-- The generation that the call began when it took effect; a build takes effect when it takes the
cache over. -/
def effect : Call α → Option Nat
  | .build x => x.effect
  | .clear generation => some generation

def hasReturned : Call α → Bool
  | .build x => x.build.hasEnded
  | .clear _ => true

def isClear : Call α → Bool
  | .build _ => false
  | .clear _ => true

end Call

inductive Event (α : Type) where
  | build (request : CacheRequest α) (v : Build.View α)
  | resume (call : Nat) (v : Build.View α) (sought : SeekOutcome)
  | clear

structure Session (α : Type) where
  cache : FrameCache α
  /-- In the order in which they were made. -/
  calls : List (Call α)

namespace Session

variable [Scalar α]

def start (config : CacheConfig) (margin : α)
    (scale : Resampler) : Session α := ⟨.make config margin scale, []⟩

def advance (s : Session α) (k : Nat) (v : Build.View α) (sought : SeekOutcome) : Session α :=
  match s.calls[k]? with
  | some (.build x) =>
    let (cache, x) := x.resume v sought s.cache
    ⟨cache, s.calls.set k (.build x)⟩
  | _ => s

/-- A build is called; it has not gone anywhere yet. -/
def call (s : Session α) (request : CacheRequest α) : Session α :=
  { s with calls := s.calls ++ [.build (.make request)] }

def step (s : Session α) : Event α → Session α
  | .build request v => (s.call request).advance s.calls.length v .completed
  | .resume k v sought => s.advance k v sought
  | .clear => ⟨s.cache.clear, s.calls ++ [.clear (s.cache.generation + 1)]⟩

def run (s : Session α) (events : List (Event α)) : Session α := events.foldl step s

@[simp] theorem run_cons (s : Session α) (e : Event α) (events : List (Event α)) :
    s.run (e :: events) = (s.step e).run events := rfl

@[simp] theorem run_append (s : Session α) (before after : List (Event α)) :
    s.run (before ++ after) = (s.run before).run after :=
  List.foldl_append

/-- What every step keeps holds after every run. -/
theorem run_induction {P : Session α → Prop} (hstep : ∀ s e, P s → P (s.step e))
    {s : Session α} (hs : P s) (events : List (Event α)) : P (s.run events) := by
  induction events generalizing s with
  | nil => exact hs
  | cons e events ih => exact ih (hstep s e hs)

theorem advance_of_build {s : Session α} {k : Nat} {x : BuildCall α}
    (hk : s.calls[k]? = some (.build x)) (v : Build.View α) (sought : SeekOutcome) :
    s.advance k v sought =
      ⟨(x.resume v sought s.cache).1, s.calls.set k (.build (x.resume v sought s.cache).2)⟩ := by
  simp [advance, hk]

/-- A step of a build at `k`, or nothing at all. -/
theorem advance_cases (s : Session α) (k : Nat) (v : Build.View α) (sought : SeekOutcome) :
    (∃ x, s.calls[k]? = some (.build x) ∧ s.advance k v sought =
      ⟨(x.resume v sought s.cache).1, s.calls.set k (.build (x.resume v sought s.cache).2)⟩) ∨
    s.advance k v sought = s := by
  unfold advance
  split
  · rename_i x hk
    exact .inl ⟨x, hk, rfl⟩
  · exact .inr rfl

/-! ## When calls take effect -/

/-- The call at `k` took effect and began the generation `g`. -/
def TookEffect (s : Session α) (k g : Nat) : Prop :=
  ∃ call, s.calls[k]? = some call ∧ call.effect = some g

omit [Scalar α] in
theorem TookEffect.lt_length {s : Session α} {k g : Nat} (h : s.TookEffect k g) :
    k < s.calls.length := by
  obtain ⟨call, hk, -⟩ := h
  exact (List.getElem?_eq_some_iff.mp hk).1

theorem TookEffect.advance {s : Session α} {k g : Nat} (h : s.TookEffect k g) (j : Nat)
    (v : Build.View α) (sought : SeekOutcome) : (s.advance j v sought).TookEffect k g := by
  obtain ⟨call, hk, hg⟩ := h
  rcases advance_cases s j v sought with ⟨x, hj, heq⟩ | heq
  · rw [heq]
    by_cases hjk : k = j
    · subst hjk
      obtain rfl : call = .build x := by simpa using hk.symm.trans hj
      obtain ⟨hbegun, hgen⟩ := BuildCall.effect_eq_some_iff.mp hg
      have hmove := (Build.resume_move v sought s.cache x.build).hasBegun hbegun
      exact ⟨_, (getElem?_set_eq_some hj).mpr (.inl ⟨rfl, rfl⟩),
        BuildCall.effect_eq_some_iff.mpr ⟨hmove.1, hmove.2.trans hgen⟩⟩
    · exact ⟨call, (getElem?_set_eq_some hj).mpr (.inr ⟨hjk, hk⟩), hg⟩
  · rw [heq]
    exact ⟨call, hk, hg⟩

omit [Scalar α] in
theorem TookEffect.append {s : Session α} {k g : Nat} (h : s.TookEffect k g)
    (c : FrameCache α) (call : Call α) : TookEffect ⟨c, s.calls ++ [call]⟩ k g := by
  have hne : k ≠ s.calls.length := h.lt_length.ne
  obtain ⟨old, hk, hg⟩ := h
  exact ⟨old, getElem?_append_eq_some.mpr (.inr ⟨hne, hk⟩), hg⟩

/-- Effects last. -/
theorem TookEffect.run {s : Session α} {k g : Nat} (h : s.TookEffect k g)
    (events : List (Event α)) : (s.run events).TookEffect k g := by
  refine run_induction (P := fun t => t.TookEffect k g) ?_ h events
  intro t e ht
  cases e with
  | build request v => exact (ht.append t.cache _).advance t.calls.length v .completed
  | resume j v sought => exact ht.advance j v sought
  | clear => exact ht.append _ _

theorem generation_le_advance (s : Session α) (k : Nat) (v : Build.View α)
    (sought : SeekOutcome) : s.cache.generation ≤ (s.advance k v sought).cache.generation := by
  rcases advance_cases s k v sought with ⟨x, -, heq⟩ | heq
  · rw [heq]
    rcases (Build.resume_move v sought s.cache x.build).generation with ⟨hsame, -⟩ | ⟨-, hnext, -⟩
    · exact hsame.ge
    · exact (Nat.le_succ _).trans hnext.ge
  · rw [heq]

/-- Generations only grow. -/
theorem generation_le_run (s : Session α) (events : List (Event α)) :
    s.cache.generation ≤ (s.run events).cache.generation := by
  refine run_induction (P := fun t => s.cache.generation ≤ t.cache.generation) ?_ le_rfl events
  intro t e ht
  cases e with
  | build request v =>
      exact ht.trans (generation_le_advance (t.call request) t.calls.length v .completed)
  | resume k v sought => exact ht.trans (generation_le_advance t k v sought)
  | clear => exact ht.trans (Nat.le_succ _)

/-- A build of an older generation leaves the cache alone. -/
theorem TookEffect.cache_advance {s : Session α} {k g : Nat} (h : s.TookEffect k g)
    (hlt : g < s.cache.generation) (v : Build.View α) (sought : SeekOutcome) :
    (s.advance k v sought).cache = s.cache := by
  obtain ⟨call, hk, hg⟩ := h
  cases call with
  | build x =>
      obtain ⟨hbegun, hgen⟩ := BuildCall.effect_eq_some_iff.mp hg
      rw [advance_of_build hk]
      exact (Build.resume_move v sought s.cache x.build).stale hbegun (hgen ▸ hlt.ne')
  | clear _ => simp [Session.advance, hk]

end Session

end FrameCache

end Segue
