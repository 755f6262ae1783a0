import Mathlib
import Segue.Proofs.Renderer.Programs

/-!
# Textures are conserved

A pool gives back each item once: the newest of a size to whoever asks for that size, and the oldest
of all when there is no room. So every texture that a renderer makes stays in one place, in the slot
of a clip, in the pool, or among those that were destroyed.
-/

namespace Segue

namespace Texture

/-! ## One operation of a pool -/

namespace Pool

variable {τ : Type} {p : Pool τ}

theorem takeNewest?_eq (wanted : Nat × Nat) (items : List ((Nat × Nat) × τ)) :
    (takeNewest? wanted items = none ∧ ∀ e ∈ items, e.1 ≠ wanted) ∨
      ∃ newer x older, items = newer ++ (wanted, x) :: older ∧ (∀ e ∈ newer, e.1 ≠ wanted) ∧
        takeNewest? wanted items = some (x, newer ++ older) := by
  induction items with
  | nil => exact .inl ⟨rfl, fun e he => (List.not_mem_nil he).elim⟩
  | cons entry rest ih =>
      obtain ⟨size, x⟩ := entry
      by_cases hsize : size = wanted
      · subst hsize
        exact .inr ⟨[], x, rest, rfl, fun e he => (List.not_mem_nil he).elim, if_pos rfl⟩
      · have htake : takeNewest? wanted ((size, x) :: rest) =
            (takeNewest? wanted rest).map fun r => (r.1, (size, x) :: r.2) := if_neg hsize
        rcases ih with ⟨hnone, hall⟩ | ⟨newer, y, older, rfl, hnewer, hsome⟩
        · refine .inl ⟨by rw [htake, hnone, Option.map_none], ?_⟩
          exact List.forall_mem_cons.mpr ⟨hsize, hall⟩
        · refine .inr ⟨(size, x) :: newer, y, older, rfl, ?_, by rw [htake, hsome]; rfl⟩
          exact List.forall_mem_cons.mpr ⟨hsize, hnewer⟩

/-- An item is asked for: there is none of that size, or the newest one is taken. -/
inductive Acquires (p : Pool τ) (wanted : Nat × Nat) : Option τ × Pool τ → Prop
  | missing : (∀ e ∈ p.items, e.1 ≠ wanted) → Acquires p wanted (none, p)
  | newest (older : List ((Nat × Nat) × τ)) (x : τ) (newer : List ((Nat × Nat) × τ)) :
      p.items = older ++ (wanted, x) :: newer → (∀ e ∈ newer, e.1 ≠ wanted) →
      Acquires p wanted (some x, { p with items := older ++ newer })

theorem acquires (p : Pool τ) (wanted : Nat × Nat) : Acquires p wanted (p.acquire wanted) := by
  unfold acquire
  rcases takeNewest?_eq wanted p.items.reverse with
    ⟨hnone, hall⟩ | ⟨newer, x, older, hitems, hnewer, hsome⟩
  · rw [hnone]
    exact .missing fun e he => hall e (List.mem_reverse.mpr he)
  · rw [hsome]
    have hreverse : (newer ++ older).reverse = older.reverse ++ newer.reverse :=
      List.reverse_append
    dsimp only
    rw [hreverse]
    refine .newest _ x _ ?_ fun e he => hnewer e (List.mem_reverse.mp he)
    rw [← List.reverse_reverse p.items, hitems, List.reverse_append, List.reverse_cons,
      List.append_assoc, List.singleton_append]

/-- An item is given back: there is room for it, or the oldest one has to go. -/
inductive Releases (p : Pool τ) (size : Nat × Nat) (x : τ) : Option τ × Pool τ → Prop
  | room : p.size < p.capacity →
      Releases p size x (none, { p with items := p.items ++ [(size, x)] })
  | full (oldest : (Nat × Nat) × τ) (rest : List ((Nat × Nat) × τ)) :
      p.items = oldest :: rest → p.capacity ≤ p.size →
      Releases p size x (some oldest.2, { p with items := rest ++ [(size, x)] })

theorem releases (h : 0 < p.capacity) (size : Nat × Nat) (x : τ) :
    Releases p size x (p.release size x) := by
  simp only [release, List.length_append, List.length_singleton]
  split
  · rename_i hfull
    have hle : p.capacity ≤ p.size := Nat.le_of_lt_succ hfull
    cases hitems : p.items with
    | nil =>
        rw [Pool.size, hitems] at hle
        exact absurd h (Nat.not_lt.mpr hle)
    | cons oldest rest => exact .full oldest rest hitems hle
  · rename_i hroom
    exact .room (Nat.succ_le_of_lt (Nat.lt_of_succ_le (Nat.not_lt.mp hroom)))

/-- What can be done with a pool. -/
inductive Operation (τ : Type) where
  | acquire (size : Nat × Nat)
  | release (size : Nat × Nat) (x : τ)
  | drain

def Operation.given : Operation τ → List ((Nat × Nat) × τ)
  | .release size x => [(size, x)]
  | _ => []

def apply (p : Pool τ) : Operation τ → List τ × Pool τ
  | .acquire size => ((p.acquire size).1.toList, (p.acquire size).2)
  | .release size x => ((p.release size x).1.toList, (p.release size x).2)
  | .drain => p.drain

/-- A pool that has room for at least one item and does not hold more than it may. -/
structure Sound (capacity : Nat) (p : Pool τ) : Prop where
  room : p.capacity = max capacity 1
  bound : p.size ≤ max capacity 1

variable {capacity : Nat}

theorem sound_make (capacity : Nat) : (make capacity : Pool τ).Sound capacity :=
  ⟨rfl, Nat.zero_le _⟩

theorem Sound.capacity_pos (h : p.Sound capacity) : 0 < p.capacity := by
  rw [h.room]
  exact Nat.lt_of_lt_of_le Nat.one_pos (le_max_right _ _)

/-- What one operation keeps: the room, the order of the items, and each item. -/
structure Keeps (capacity : Nat) (p : Pool τ) (op : Operation τ) (out : List τ × Pool τ) :
    Prop where
  sound : out.2.Sound capacity
  ordered : out.2.items.Sublist (p.items ++ op.given)
  conserved : ((p.items ++ op.given).map Prod.snd).Perm (out.1 ++ out.2.items.map Prod.snd)

theorem Acquires.keeps {size : Nat × Nat} {out : Option τ × Pool τ} (h : p.Sound capacity)
    (ha : Acquires p size out) : Keeps capacity p (.acquire size) (out.1.toList, out.2) := by
  cases ha with
  | missing _ =>
      refine ⟨h, ?_, ?_⟩
      · exact (List.append_nil p.items).symm ▸ List.Sublist.refl _
      · exact (List.append_nil p.items).symm ▸ List.Perm.refl _
  | newest older x newer hitems _ =>
      have hless : (older ++ newer).Sublist p.items := by
        rw [hitems]
        exact (List.Sublist.refl older).append (List.sublist_cons_self _ newer)
      refine ⟨⟨h.room, hless.length_le.trans h.bound⟩, ?_, ?_⟩
      · exact hless.trans (List.sublist_append_left _ _)
      · simp only [Operation.given, List.append_nil, hitems, List.map_append, List.map_cons,
          Option.toList_some, List.singleton_append]
        exact List.perm_middle

theorem Releases.keeps {size : Nat × Nat} {x : τ} {out : Option τ × Pool τ} (h : p.Sound capacity)
    (hr : Releases p size x out) : Keeps capacity p (.release size x) (out.1.toList, out.2) := by
  cases hr with
  | room hroom =>
      refine ⟨⟨h.room, ?_⟩, List.Sublist.refl _, List.Perm.refl _⟩
      rw [h.room] at hroom
      exact (List.length_append.trans (congrArg _ List.length_singleton)).trans_le hroom
  | full oldest rest hitems _ =>
      have hsize : (rest ++ [(size, x)]).length = p.items.length := by
        rw [hitems, List.length_append, List.length_singleton, List.length_cons]
      refine ⟨⟨h.room, hsize.trans_le h.bound⟩, ?_, ?_⟩
      · rw [hitems]
        exact List.sublist_cons_self _ _
      · rw [hitems]
        exact List.Perm.refl _

theorem keeps (h : p.Sound capacity) (op : Operation τ) : Keeps capacity p op (p.apply op) := by
  cases op with
  | acquire size => exact (acquires p size).keeps h
  | release size x => exact (releases h.capacity_pos size x).keeps h
  | drain =>
      refine ⟨⟨h.room, Nat.zero_le _⟩, List.nil_sublist _, ?_⟩
      simp only [apply, drain, Operation.given, List.append_nil, List.map_nil]
      exact List.Perm.refl _

/-! ## Any operations of a pool -/

def Operation.numbered (n : Nat) : Operation τ → Operation (Nat × τ)
  | .acquire size => .acquire size
  | .release size x => .release size (n, x)
  | .drain => .drain

/-- A pool with other items in place of its own. -/
def map {σ : Type} (f : τ → σ) (p : Pool τ) : Pool σ :=
  ⟨p.capacity, p.items.map fun e => (e.1, f e.2)⟩

variable {σ : Type} (f : τ → σ)

theorem takeNewest?_map (wanted : Nat × Nat) (items : List ((Nat × Nat) × τ)) :
    takeNewest? wanted (items.map fun e => (e.1, f e.2)) =
      (takeNewest? wanted items).map fun (x, left) => (f x, left.map fun e => (e.1, f e.2)) := by
  induction items with
  | nil => rfl
  | cons entry rest ih =>
      rw [List.map_cons, takeNewest?, takeNewest?, ih]
      split
      · rfl
      · rw [Option.map_map, Option.map_map]
        rfl

@[simp] theorem acquire_map (p : Pool τ) (size : Nat × Nat) :
    (p.map f).acquire size = ((p.acquire size).1.map f, (p.acquire size).2.map f) := by
  simp only [acquire, map, ← List.map_reverse, takeNewest?_map]
  cases takeNewest? size p.items.reverse with
  | none => rfl
  | some found => simp only [Option.map_some, List.map_reverse]

@[simp] theorem release_map (p : Pool τ) (size : Nat × Nat) (x : τ) :
    (p.map f).release size (f x) = ((p.release size x).1.map f, (p.release size x).2.map f) := by
  have hitems : (p.map f).items ++ [(size, f x)] =
      (p.items ++ [(size, x)]).map fun e => (e.1, f e.2) := by
    rw [List.map_append]
    rfl
  have hcapacity : (p.map f).capacity = p.capacity := rfl
  simp only [release, hitems, hcapacity, List.length_map]
  split
  · rw [List.head?_map, Option.map_map, ← List.map_tail, Option.map_map]
    rfl
  · rfl

/-- A pool does not look at its items. -/
theorem apply_numbered (p : Pool (Nat × τ)) (op : Operation τ) (n : Nat) :
    (p.map Prod.snd).apply op =
      ((p.apply (op.numbered n)).1.map Prod.snd, (p.apply (op.numbered n)).2.map Prod.snd) := by
  have hlist : ∀ x? : Option (Nat × τ), (x?.map Prod.snd).toList = x?.toList.map Prod.snd := by
    intro x?
    cases x? <;> rfl
  cases op with
  | acquire size => simp only [apply, Operation.numbered, acquire_map, hlist]
  | release size x =>
      have hrelease := release_map Prod.snd p size (n, x)
      simp only [apply, Operation.numbered, hrelease, hlist]
  | drain =>
      simp only [apply, Operation.numbered, drain, map, List.map_map, List.map_nil]
      rfl

/-- A pool of numbered items, all that was put into it, and all that it gave back. -/
structure History (τ : Type) where
  pool : Pool (Nat × τ)
  given : List ((Nat × Nat) × Nat × τ)
  returned : List (Nat × τ)

namespace History

def start (capacity : Nat) : History τ := ⟨.make capacity, [], []⟩

/-- Each item gets the next number when it is put in. -/
def next (h : History τ) (op : Operation τ) : History τ where
  pool := (h.pool.apply (op.numbered h.given.length)).2
  given := h.given ++ (op.numbered h.given.length).given
  returned := h.returned ++ (h.pool.apply (op.numbered h.given.length)).1

/-- What was put in and not given back, in the order in which it was put in. -/
def held (h : History τ) : List ((Nat × Nat) × Nat × τ) :=
  h.given.filter fun e => e.2.1 ∉ h.returned.map Prod.fst

structure Faithful (capacity : Nat) (h : History τ) : Prop where
  sound : h.pool.Sound capacity
  numbers : (h.given.map fun e => e.2.1) = List.range h.given.length
  conserved : (h.given.map Prod.snd).Perm (h.returned ++ h.pool.items.map Prod.snd)
  ordered : h.pool.items.Sublist h.given

variable {h : History τ}

theorem faithful_start (capacity : Nat) : (start capacity : History τ).Faithful capacity :=
  ⟨sound_make capacity, rfl, List.Perm.refl _, List.Sublist.refl _⟩

theorem Faithful.next (hf : h.Faithful capacity) (op : Operation τ) :
    (h.next op).Faithful capacity := by
  obtain ⟨hsound, hordered, hconserved⟩ := keeps hf.sound (op.numbered h.given.length)
  refine ⟨hsound, ?_, ?_, ?_⟩
  · change (h.given ++ (op.numbered h.given.length).given).map (fun e => e.2.1) =
      List.range (h.given ++ (op.numbered h.given.length).given).length
    cases op with
    | acquire size =>
        simpa only [Operation.numbered, Operation.given, List.append_nil] using hf.numbers
    | drain => simpa only [Operation.numbered, Operation.given, List.append_nil] using hf.numbers
    | release size x =>
        rw [List.map_append, hf.numbers, List.length_append, Operation.numbered, Operation.given,
          List.length_singleton, List.range_succ]
        rfl
  · change ((h.given ++ _).map Prod.snd).Perm ((h.returned ++ _) ++ _)
    rw [List.map_append, List.append_assoc]
    refine (hf.conserved.append_right _).trans ?_
    rw [List.append_assoc, ← List.map_append]
    exact hconserved.append_left _
  · exact hordered.trans (hf.ordered.append_right _)

/-- What is left of some items in their order is all that was not taken out. -/
theorem eq_filter_of_sublist {ε ν : Type} [DecidableEq ν] {number : ε → ν} {left all : List ε}
    {out : List ν} (hnodup : (all.map number).Nodup) (hleft : left.Sublist all)
    (hperm : (all.map number).Perm (out ++ left.map number)) :
    left = all.filter fun e => number e ∉ out := by
  have hapart : ∀ e ∈ left, number e ∉ out := fun e he hout =>
    List.disjoint_of_nodup_append (hperm.nodup_iff.mp hnodup) hout (List.mem_map_of_mem he)
  have hkept : left.filter (fun e => number e ∉ out) = left :=
    List.filter_eq_self.mpr fun e he => decide_eq_true (hapart e he)
  have hsub : left.Sublist (all.filter fun e => number e ∉ out) := by
    have hfilter := hleft.filter fun e => decide (number e ∉ out)
    rwa [hkept] at hfilter
  have hrest : (all.filter fun e => number e ∉ out) ⊆ left := fun e he => by
    obtain ⟨hmem, hout⟩ := List.mem_filter.mp he
    rcases List.mem_append.mp (hperm.subset (List.mem_map_of_mem hmem)) with hin | hin
    · exact absurd hin (of_decide_eq_true hout)
    · obtain ⟨e', he', hnumber⟩ := List.mem_map.mp hin
      exact List.inj_on_of_nodup_map hnodup (hleft.subset he') hmem hnumber ▸ he'
  exact hsub.eq_of_length_le ((hnodup.of_map.filter _).subperm hrest).length_le

/-- A pool holds what has not come back. -/
theorem Faithful.items_eq (hf : h.Faithful capacity) : h.pool.items = h.held := by
  have hnodup : (h.given.map fun e => e.2.1).Nodup := by
    rw [hf.numbers]
    exact List.nodup_range
  refine eq_filter_of_sublist hnodup hf.ordered ?_
  have hconserved := hf.conserved.map Prod.fst
  rw [List.map_append, List.map_map, List.map_map] at hconserved
  exact hconserved

end History

def history (capacity : Nat) (ops : List (Operation τ)) : History τ :=
  ops.foldl History.next (.start capacity)

/-- All that a pool gives back, and what becomes of it. -/
def run (capacity : Nat) (ops : List (Operation τ)) : List τ × Pool τ :=
  ops.foldl (fun s op => (s.1 ++ (s.2.apply op).1, (s.2.apply op).2)) ([], .make capacity)

theorem faithful_history (capacity : Nat) (ops : List (Operation τ)) :
    (history capacity ops).Faithful capacity := by
  induction ops using List.reverseRecOn with
  | nil => exact History.faithful_start capacity
  | append_singleton ops op ih =>
      rw [history, List.foldl_concat]
      exact ih.next op

/-- Numbers change nothing. -/
theorem run_eq (capacity : Nat) (ops : List (Operation τ)) :
    run capacity ops = ((history capacity ops).returned.map Prod.snd,
      (history capacity ops).pool.map Prod.snd) := by
  induction ops using List.reverseRecOn with
  | nil => rfl
  | append_singleton ops op ih =>
      rw [run, history, List.foldl_concat, List.foldl_concat, ← run, ← history, ih]
      rw [apply_numbered (history capacity ops).pool op (history capacity ops).given.length]
      refine Prod.ext ?_ rfl
      exact List.map_append.symm

theorem acquire_eq (p : Pool τ) (size : Nat × Nat) :
    (p.acquire size).1 = ((p.items.filter fun e => e.1 = size).getLast?).map Prod.snd := by
  have hacquires := acquires p size
  generalize p.acquire size = out at hacquires
  cases hacquires with
  | missing hall =>
      have hnone : (p.items.filter fun e => e.1 = size) = [] :=
        List.filter_eq_nil_iff.mpr fun e he => by simpa using hall e he
      rw [hnone]
      rfl
  | newest older x newer hitems hnewer =>
      have hnone : (newer.filter fun e => e.1 = size) = [] :=
        List.filter_eq_nil_iff.mpr fun e he => by simpa using hnewer e he
      have hlast : (((size, x) :: newer).filter fun e => e.1 = size) = [(size, x)] := by
        rw [List.filter_cons_of_pos (by simp), hnone]
      rw [hitems, List.filter_append, hlast, List.getLast?_concat]
      rfl

theorem release_eq (h : p.Sound capacity) (size : Nat × Nat) (x : τ) :
    (p.release size x).1 = if p.size = max capacity 1 then p.items.head?.map Prod.snd else none := by
  have hreleases := releases h.capacity_pos size x
  generalize p.release size x = out at hreleases
  cases hreleases with
  | room hroom =>
      rw [h.room] at hroom
      exact (if_neg hroom.ne).symm
  | full oldest rest hitems hfull =>
      rw [h.room] at hfull
      rw [if_pos (Nat.le_antisymm h.bound hfull), hitems]
      rfl

/-- What pools promise: held items are all that was put in and did not come back, each of them once;
who asks for a size gets the newest one held, and only a full pool drives one out, the oldest. -/
structure Orderly (capacity : Nat) (ops : List (Operation τ)) : Prop where
  numbers : ((history capacity ops).given.map fun e => e.2.1) =
    List.range (history capacity ops).given.length
  conserved : ((history capacity ops).given.map Prod.snd).Perm
    ((history capacity ops).returned ++ (history capacity ops).held.map Prod.snd)
  returned : (run capacity ops).1 = (history capacity ops).returned.map Prod.snd
  bound : (history capacity ops).held.length ≤ max capacity 1
  acquire : ∀ size, ((run capacity ops).2.acquire size).1 =
    (((history capacity ops).held.filter fun e => e.1 = size).getLast?).map fun e => e.2.2
  release : ∀ size x, ((run capacity ops).2.release size x).1 =
    if (history capacity ops).held.length = max capacity 1 then
      (history capacity ops).held.head?.map fun e => e.2.2
    else none
  drain : (run capacity ops).2.drain.1 = (history capacity ops).held.map fun e => e.2.2

theorem orderly (capacity : Nat) (ops : List (Operation τ)) : Orderly capacity ops := by
  have hfaithful := faithful_history capacity ops
  have hitems := hfaithful.items_eq
  have hrun := run_eq capacity ops
  have hsound : (run capacity ops).2.Sound capacity := by
    rw [hrun]
    exact ⟨hfaithful.sound.room, (List.length_map _).trans_le hfaithful.sound.bound⟩
  have hplain : (run capacity ops).2.items =
      (history capacity ops).held.map fun e => (e.1, e.2.2) := by
    rw [hrun, ← hitems]
    rfl
  refine ⟨hfaithful.numbers, hitems ▸ hfaithful.conserved, congrArg Prod.fst hrun,
    hitems ▸ hfaithful.sound.bound, fun size => ?_, fun size x => ?_, ?_⟩
  · rw [acquire_eq, hplain, List.filter_map, List.getLast?_map, Option.map_map]
    rfl
  · rw [release_eq hsound, Pool.size, hplain, List.length_map, List.head?_map, Option.map_map]
    rfl
  · rw [Pool.drain, hplain, List.map_map]
    rfl

end Pool

/-! ## Slots -/

namespace Slots

variable {s : Slots} {capacity width height : Nat}

def shown (s : Slots) : Multiset Numbered := s.a?.toList + s.b?.toList

/-- All places in which a texture can be. -/
def places (s : Slots) : Multiset Numbered :=
  s.shown + (s.pool.items.map Prod.snd : List Numbered) + s.destroyed

/-- The textures that were made are each in one place, and those in the pool have the size under
which they can be found. -/
structure Sound (capacity : Nat) (s : Slots) : Prop where
  pool : s.pool.Sound capacity
  once : s.places.map Numbered.number = Multiset.range s.made
  filed : ∀ e ∈ s.pool.items, e.1 = (e.2.width, e.2.height)

theorem sound_make (capacity : Nat) : (make capacity).Sound capacity where
  pool := Pool.sound_make capacity
  once := rfl
  filed _ h := (List.not_mem_nil h).elim

@[simp] theorem get?_set_self (s : Slots) (clip : Clip) (t? : Option Numbered) :
    (s.set clip t?).get? clip = t? := by
  cases clip <;> rfl

@[simp]
theorem get?_set_of_ne {clip other : Clip} (h : other ≠ clip) (s : Slots) (t? : Option Numbered) :
    (s.set clip t?).get? other = s.get? other := by
  cases clip <;> cases other <;> first | exact absurd rfl h | rfl

theorem shown_set (s : Slots) (clip : Clip) (t? : Option Numbered) :
    (s.set clip t?).shown + (s.get? clip).toList = s.shown + t?.toList := by
  cases clip with
  | a =>
      change (t?.toList : Multiset Numbered) + s.b?.toList + s.a?.toList =
        s.a?.toList + s.b?.toList + t?.toList
      ac_rfl
  | b =>
      change (s.a?.toList : Multiset Numbered) + t?.toList + s.b?.toList =
        s.a?.toList + s.b?.toList + t?.toList
      ac_rfl

theorem places_set (s : Slots) (clip : Clip) (t? : Option Numbered) :
    (s.set clip t?).places + (s.get? clip).toList = s.places + t?.toList := by
  have hpool : (s.set clip t?).pool = s.pool := by cases clip <;> rfl
  have hdestroyed : (s.set clip t?).destroyed = s.destroyed := by cases clip <;> rfl
  have hshown := shown_set s clip t?
  rw [places, places, hpool, hdestroyed]
  generalize (s.pool.items.map Prod.snd : Multiset Numbered) = pooled
  calc (s.set clip t?).shown + pooled + s.destroyed + (s.get? clip).toList
      = (s.set clip t?).shown + (s.get? clip).toList + (pooled + s.destroyed) := by ac_rfl
    _ = s.shown + t?.toList + (pooled + s.destroyed) := by rw [hshown]
    _ = s.shown + pooled + s.destroyed + t?.toList := by ac_rfl

/-! ## Clearing and uploading -/

theorem clear_of_none {clip : Clip} (h : s.get? clip = none) : s.clear clip = s := by
  rw [clear, h]

theorem clear_of_some {clip : Clip} {t : Numbered} (h : s.get? clip = some t) :
    s.clear clip =
      { s.set clip none with
        pool := (s.pool.release (t.width, t.height) t).2
        destroyed := (s.pool.release (t.width, t.height) t).1.toList ++ s.destroyed } := by
  rw [clear, h]

@[simp] theorem clear_get?_self (s : Slots) (clip : Clip) : (s.clear clip).get? clip = none := by
  cases h : s.get? clip with
  | none => rw [clear_of_none h, h]
  | some t =>
      rw [clear_of_some h]
      cases clip <;> rfl

@[simp] theorem clear_get?_of_ne {clip other : Clip} (h : other ≠ clip) (s : Slots) :
    (s.clear clip).get? other = s.get? other := by
  cases hclip : s.get? clip with
  | none => rw [clear_of_none hclip]
  | some t =>
      rw [clear_of_some hclip, ← get?_set_of_ne h s none]
      cases other <;> rfl

@[simp] theorem clear_made (s : Slots) (clip : Clip) : (s.clear clip).made = s.made := by
  cases h : s.get? clip with
  | none => rw [clear_of_none h]
  | some t =>
      rw [clear_of_some h]
      cases clip <;> rfl

/-- A texture that is cleared goes to the pool, and what the pool drives out is destroyed. -/
theorem clear_places (h : s.pool.Sound capacity) (clip : Clip) :
    (s.clear clip).places = s.places := by
  cases hclip : s.get? clip with
  | none => rw [clear_of_none hclip]
  | some t =>
      have hconserved := Multiset.coe_eq_coe.mpr
        (Pool.keeps h (.release (t.width, t.height) t)).conserved
      have hset := shown_set s clip none
      simp only [Pool.Operation.given, Pool.apply, List.map_append, List.map_singleton,
        ← Multiset.coe_add] at hconserved
      rw [hclip, Option.toList_some, Option.toList_none, Multiset.coe_nil, add_zero] at hset
      rw [clear_of_some hclip]
      generalize s.pool.release (t.width, t.height) t = out at hconserved
      calc (s.set clip none).shown + (out.2.items.map Prod.snd : List Numbered) +
            ((out.1.toList ++ s.destroyed : List Numbered) : Multiset Numbered)
          = (s.set clip none).shown + ((out.1.toList : Multiset Numbered) +
              (out.2.items.map Prod.snd : List Numbered)) + s.destroyed := by
            rw [← Multiset.coe_add]
            ac_rfl
        _ = (s.set clip none).shown + ((s.pool.items.map Prod.snd : List Numbered) +
              ([t] : Multiset Numbered)) + s.destroyed := by rw [hconserved]
        _ = s.places := by
            rw [places, ← hset]
            ac_rfl

theorem clear_sound (h : s.Sound capacity) (clip : Clip) : (s.clear clip).Sound capacity := by
  have honce : (s.clear clip).places.map Numbered.number = Multiset.range (s.clear clip).made := by
    rw [clear_places h.pool, clear_made]
    exact h.once
  cases hclip : s.get? clip with
  | none =>
      rw [clear_of_none hclip]
      exact h
  | some t =>
      have hkeeps := Pool.keeps h.pool (.release (t.width, t.height) t)
      have hpool : (s.clear clip).pool = (s.pool.release (t.width, t.height) t).2 := by
        rw [clear_of_some hclip]
      refine ⟨hpool ▸ hkeeps.sound, honce, fun e he => ?_⟩
      rw [hpool] at he
      rcases List.mem_append.mp (hkeeps.ordered.subset he) with hold | hnew
      · exact h.filed e hold
      · rw [List.mem_singleton.mp hnew]

/-- The texture for an image is a new one, or one of its size from the pool. -/
inductive Takes (s : Slots) (width height : Nat) : Numbered × Slots → Prop
  | made : Takes s width height (⟨s.made, width, height⟩, { s with made := s.made + 1 })
  | pooled (older : List ((Nat × Nat) × Numbered)) (t : Numbered)
      (newer : List ((Nat × Nat) × Numbered)) :
      s.pool.items = older ++ ((width, height), t) :: newer →
      Takes s width height (t, { s with pool := { s.pool with items := older ++ newer } })

theorem takes (s : Slots) (width height : Nat) : Takes s width height (s.take width height) := by
  have hacquires := Pool.acquires s.pool (width, height)
  unfold take
  generalize s.pool.acquire (width, height) = out at hacquires
  cases hacquires with
  | missing _ => exact .made
  | newest older t newer hitems _ => exact .pooled older t newer hitems

/-- What showing an image in an empty slot does. -/
structure Fills (capacity : Nat) (s : Slots) (clip : Clip) (width height : Nat) (s' : Slots) :
    Prop where
  sound : s'.Sound capacity
  kept : s.places ≤ s'.places
  self : ∃ t, s'.get? clip = some t ∧ t.width = width ∧ t.height = height
  others : ∀ other, other ≠ clip → s'.get? other = s.get? other

theorem places_set_of_none {clip : Clip} (h : s.get? clip = none) (t : Numbered) :
    (s.set clip (some t)).places = s.places + {t} := by
  have hset := places_set s clip (some t)
  rwa [h, Option.toList_none, Multiset.coe_nil, add_zero, Option.toList_some,
    Multiset.coe_singleton] at hset

theorem places_of_items {older newer : List ((Nat × Nat) × Numbered)} {size : Nat × Nat}
    {t : Numbered} (hitems : s.pool.items = older ++ (size, t) :: newer) :
    places { s with pool := { s.pool with items := older ++ newer } } + {t} = s.places := by
  rw [places, places, hitems]
  change s.shown + _ + _ + _ = _
  rw [List.map_append, List.map_append, List.map_cons, ← Multiset.coe_add, ← Multiset.coe_add,
    ← Multiset.cons_coe, ← Multiset.singleton_add]
  ac_rfl

theorem Takes.fills {clip : Clip} {out : Numbered × Slots} (h : s.Sound capacity)
    (hempty : s.get? clip = none) (ht : Takes s width height out) :
    Fills capacity s clip width height (out.2.set clip (some out.1)) := by
  cases ht with
  | made =>
      have hplaces : (set { s with made := s.made + 1 } clip
          (some ⟨s.made, width, height⟩)).places = s.places + {⟨s.made, width, height⟩} :=
        places_set_of_none (s := { s with made := s.made + 1 }) hempty _
      refine ⟨⟨?_, ?_, ?_⟩, ?_, ⟨_, get?_set_self _ clip _, rfl, rfl⟩, fun other hother => ?_⟩
      · cases clip <;> exact h.pool
      · have hmade : (set { s with made := s.made + 1 } clip
            (some ⟨s.made, width, height⟩)).made = s.made + 1 := by cases clip <;> rfl
        rw [hplaces, hmade, Multiset.map_add, h.once, Multiset.map_singleton, Multiset.range_succ,
          ← Multiset.singleton_add, add_comm]
      · cases clip <;> exact h.filed
      · rw [hplaces]
        exact Multiset.le_add_right _ _
      · exact get?_set_of_ne hother { s with made := s.made + 1 } _
  | pooled older t newer hitems =>
      have hfiled := h.filed ((width, height), t) (by rw [hitems]; exact List.mem_append_cons_self)
      have hplaces : (set { s with pool := { s.pool with items := older ++ newer } } clip
          (some t)).places = s.places :=
        (places_set_of_none (s := { s with pool := { s.pool with items := older ++ newer } })
          hempty t).trans (places_of_items hitems)
      have hfewer : (older ++ newer).Sublist s.pool.items := by
        rw [hitems]
        exact (List.Sublist.refl older).append (List.sublist_cons_self _ newer)
      refine ⟨⟨?_, ?_, ?_⟩, hplaces.ge, ⟨t, get?_set_self _ clip _, ?_, ?_⟩, fun other hother => ?_⟩
      · cases clip <;> exact ⟨h.pool.room, hfewer.length_le.trans h.pool.bound⟩
      · have hmade : (set { s with pool := { s.pool with items := older ++ newer } } clip
            (some t)).made = s.made := by cases clip <;> rfl
        rw [hplaces, hmade]
        exact h.once
      · cases clip <;> exact fun e he => h.filed e (hfewer.subset he)
      · exact (congrArg Prod.fst hfiled).symm
      · exact (congrArg Prod.snd hfiled).symm
      · exact get?_set_of_ne hother { s with pool := { s.pool with items := older ++ newer } } _

/-- An image without pixels is ignored, one of the size that is shown reuses its texture, and any
other one is shown in a slot that was cleared. -/
inductive Uploads (s : Slots) (clip : Clip) (width height : Nat) : Slots → Prop
  | empty : width = 0 ∨ height = 0 → Uploads s clip width height s
  | reused (t : Numbered) : ¬(width = 0 ∨ height = 0) → s.get? clip = some t → t.width = width →
      t.height = height → Uploads s clip width height s
  | other (out : Numbered × Slots) : ¬(width = 0 ∨ height = 0) →
      Takes (s.clear clip) width height out →
      Uploads s clip width height (out.2.set clip (some out.1))

theorem uploads (s : Slots) (clip : Clip) (width height : Nat) :
    Uploads s clip width height (s.upload clip width height) := by
  unfold upload
  split
  · rename_i hempty
    exact .empty hempty
  · rename_i hempty
    split
    · rename_i hsame
      rw [Option.any_eq_true] at hsame
      obtain ⟨t, ht, hsize⟩ := hsame
      exact .reused t hempty ht (of_decide_eq_true hsize).1 (of_decide_eq_true hsize).2
    · exact .other _ hempty (takes (s.clear clip) width height)

end Slots

end Texture

/-! ## Runs of a renderer -/

namespace Renderer

open Texture

def Action.imageSize? (clip : Clip) : Action → Option (Nat × Nat)
  | .updateImage c i =>
    if c = clip ∧ ¬(i.width = 0 ∨ i.height = 0) then some (i.width, i.height) else none
  | _ => none

/-- The sizes of all images of a clip that have pixels. -/
def imageSizes (clip : Clip) (actions : List Action) : List (Nat × Nat) :=
  actions.filterMap (Action.imageSize? clip)

/-- Nothing is lost, and each clip shows a texture of the size of its last image. -/
structure Conserved (capacity : Nat) (actions : List Action) (s : Slots) : Prop
    extends Slots.Sound capacity s where
  sized : ∀ clip t, s.get? clip = some t →
    (imageSizes clip actions).getLast? = some (t.width, t.height)

variable {capacity : Nat} {actions : List Action} {s : Slots}

theorem imageSizes_concat_of_none {clip : Clip} {a : Action} (h : a.imageSize? clip = none)
    (actions : List Action) : imageSizes clip (actions ++ [a]) = imageSizes clip actions := by
  rw [imageSizes, List.filterMap_append, List.filterMap_cons_none h, List.filterMap_nil,
    List.append_nil, imageSizes]

theorem imageSizes_concat_of_some {clip : Clip} {a : Action} {size : Nat × Nat}
    (h : a.imageSize? clip = some size) (actions : List Action) :
    (imageSizes clip (actions ++ [a])).getLast? = some size := by
  rw [imageSizes, List.filterMap_append, List.filterMap_cons_some h, List.filterMap_nil,
    List.getLast?_concat]

theorem conserved_make (capacity : Nat) : Conserved capacity [] (.make capacity) where
  toSound := Slots.sound_make capacity
  sized clip t h := by cases clip <;> cases h

/-- An action that shows no image may only empty slots. -/
theorem Conserved.of_none (h : Conserved capacity actions s) {s' : Slots} {a : Action}
    (hsound : s'.Sound capacity) (hnone : ∀ clip, a.imageSize? clip = none)
    (hslots : ∀ clip t, s'.get? clip = some t → s.get? clip = some t) :
    Conserved capacity (actions ++ [a]) s' where
  toSound := hsound
  sized clip t ht := by
    rw [imageSizes_concat_of_none (hnone clip)]
    exact h.sized clip t (hslots clip t ht)

theorem Conserved.clear (h : Conserved capacity actions s) (clip : Clip) :
    Conserved capacity (actions ++ [.clearImage clip]) (s.clear clip) := by
  refine h.of_none (Slots.clear_sound h.toSound clip) (fun _ => rfl) fun other t ht => ?_
  by_cases hother : other = clip
  · subst hother
    rw [Slots.clear_get?_self] at ht
    cases ht
  · rwa [Slots.clear_get?_of_ne hother] at ht

/-- An action that shows an image in the slot of a clip leaves the other slot. -/
theorem Conserved.of_some (h : Conserved capacity actions s) {s' : Slots} {clip : Clip} {i : Image}
    (hsize : ¬(i.width = 0 ∨ i.height = 0)) (hsound : s'.Sound capacity)
    (hself : ∃ t, s'.get? clip = some t ∧ t.width = i.width ∧ t.height = i.height)
    (hothers : ∀ other, other ≠ clip → s'.get? other = s.get? other) :
    Conserved capacity (actions ++ [.updateImage clip i]) s' where
  toSound := hsound
  sized other t' ht' := by
    by_cases hother : clip = other
    · subst hother
      have himage : (Action.updateImage clip i).imageSize? clip = some (i.width, i.height) :=
        if_pos ⟨rfl, hsize⟩
      obtain ⟨t, ht, hwidth, hheight⟩ := hself
      cases ht.symm.trans ht'
      rw [imageSizes_concat_of_some himage, hwidth, hheight]
    · have himage : (Action.updateImage clip i).imageSize? other = none :=
        if_neg fun h => hother h.1
      rw [imageSizes_concat_of_none himage]
      exact h.sized other t' ((hothers other (Ne.symm hother)).symm.trans ht')

theorem Conserved.upload (h : Conserved capacity actions s) (clip : Clip) (i : Image) :
    Conserved capacity (actions ++ [.updateImage clip i]) (s.upload clip i.width i.height) ∧
      s.places ≤ (s.upload clip i.width i.height).places := by
  have huploads := Slots.uploads s clip i.width i.height
  generalize s.upload clip i.width i.height = s' at huploads
  cases huploads with
  | empty hempty =>
      refine ⟨h.of_none h.toSound (fun _ => ?_) fun _ _ => id, le_rfl⟩
      exact if_neg fun hsize => hsize.2 hempty
  | reused t hsize ht hwidth hheight =>
      exact ⟨h.of_some hsize h.toSound ⟨t, ht, hwidth, hheight⟩ fun _ _ => rfl, le_rfl⟩
  | other out hsize htakes =>
      have hfills := htakes.fills (Slots.clear_sound h.toSound clip) (Slots.clear_get?_self s clip)
      refine ⟨h.of_some hsize hfills.sound hfills.self fun other hother => ?_, ?_⟩
      · rw [hfills.others other hother, Slots.clear_get?_of_ne hother]
      · rw [← Slots.clear_places h.pool clip]
        exact hfills.kept

theorem Conserved.after (h : Conserved capacity actions s) (a : Action) :
    Conserved capacity (actions ++ [a]) (texturesAfter s a) ∧
      s.places ≤ (texturesAfter s a).places := by
  cases a with
  | updateImage clip i => exact h.upload clip i
  | clearImage clip => exact ⟨h.clear clip, (Slots.clear_places h.pool clip).ge⟩
  | useSource _ _ => exact ⟨h.of_none h.toSound (fun _ => rfl) fun _ _ => id, le_rfl⟩
  | useVariant _ _ => exact ⟨h.of_none h.toSound (fun _ => rfl) fun _ _ => id, le_rfl⟩
  | pinTime _ => exact ⟨h.of_none h.toSound (fun _ => rfl) fun _ _ => id, le_rfl⟩
  | render _ => exact ⟨h.of_none h.toSound (fun _ => rfl) fun _ _ => id, le_rfl⟩
  | readPixels => exact ⟨h.of_none h.toSound (fun _ => rfl) fun _ _ => id, le_rfl⟩
  | resize _ _ => exact ⟨h.of_none h.toSound (fun _ => rfl) fun _ _ => id, le_rfl⟩

theorem conserved_foldl (h : Conserved capacity actions s) (more : List Action) :
    Conserved capacity (actions ++ more) (more.foldl texturesAfter s) ∧
      s.places ≤ (more.foldl texturesAfter s).places := by
  induction more generalizing actions s with
  | nil => exact ⟨(List.append_nil actions).symm ▸ h, le_rfl⟩
  | cons a more ih =>
      obtain ⟨hnext, hle⟩ := h.after a
      obtain ⟨hrest, hrestLe⟩ := ih hnext
      rw [List.append_assoc, List.singleton_append] at hrest
      exact ⟨hrest, hle.trans hrestLe⟩

/-- Whatever a renderer is asked, each texture that it has made stays in one place, and so it is
with the items of any pool. -/
theorem textures_conserved {d : Device} {width height capacity : Nat}
    (hready : (create (some d) width height capacity).isSupported = true) (actions : List Action) :
    (∃ s, ((create (some d) width height capacity).run actions).surface? = some s ∧
      Conserved capacity actions s.textures ∧
      ∀ more, ∃ s', ((create (some d) width height capacity).run (actions ++ more)).surface? =
        some s' ∧ s.textures.places ≤ s'.textures.places) ∧
    ∀ (τ : Type) (limit : Nat) (ops : List (Pool.Operation τ)), Pool.Orderly limit ops := by
  refine ⟨?_, fun τ limit ops => Pool.orderly limit ops⟩
  obtain ⟨s₀, hs₀, -, -, hmake⟩ := create_ready hready
  have hall (actions : List Action) : ∃ s, ((create (some d) width height capacity).run
      actions).surface? = some s ∧ s.textures = actions.foldl texturesAfter (.make capacity) := by
    obtain ⟨s, hs, -, -, htextures⟩ := run_ready hs₀ actions
    exact ⟨s, hs, hmake ▸ htextures⟩
  obtain ⟨s, hs, htextures⟩ := hall actions
  have hconserved := (conserved_foldl (conserved_make capacity) actions).1
  rw [List.nil_append, ← htextures] at hconserved
  refine ⟨s, hs, hconserved, fun more => ?_⟩
  obtain ⟨s', hs', htextures'⟩ := hall (actions ++ more)
  refine ⟨s', hs', ?_⟩
  rw [htextures', List.foldl_append, ← htextures]
  exact (conserved_foldl hconserved more).2

def growingActions : List Action :=
  [.updateImage .a (.blank 1 1), .updateImage .a (.blank 2 2), .updateImage .a (.blank 0 5),
    .updateImage .a (.blank 3 3)]

/-- In a pool for one texture the second one drives out the first. -/
theorem textures_conserved_growing :
    (create (some picky) 2 2 0).isSupported = true ∧
      ∃ s, ((create (some picky) 2 2 0).run growingActions).surface? = some s ∧
        s.textures.destroyed = [⟨0, 1, 1⟩] ∧ s.textures.pool.size ≤ max 0 1 ∧
        s.textures.places.map Numbered.number = Multiset.range s.textures.made := by
  have hready : (create (some picky) 2 2 0).isSupported = true := by decide
  obtain ⟨⟨s, hs, hconserved, -⟩, -⟩ := textures_conserved hready growingActions
  refine ⟨hready, s, hs, ?_, hconserved.pool.bound, hconserved.once⟩
  cases hs
  rfl

end Renderer

end Segue
