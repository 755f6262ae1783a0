import Mathlib
import Segue.Command.Resolve
import Segue.Proofs.Registry
import Segue.Proofs.Shader.Loading

/-!
# Engines from packs

The engines of a command are the built-in ones and those of the packs that it names. Which packs
these are can be read off the files, and each engine is what the last pack says that names it.
-/

namespace Segue

namespace Registry

variable {κ β : Type} [DecidableEq κ]

theorem lastFor_append {k : κ} {given more : List (κ × β)} (h : ∀ g ∈ more, g.1 ≠ k) :
    lastFor k (given ++ more) = lastFor k given := by
  have hnone : (more.filter fun g => g.1 = k) = [] :=
    List.filter_eq_nil_iff.mpr fun g hg => by simpa using h g hg
  rw [lastFor, List.filter_append, hnone, List.append_nil, lastFor]

theorem lastFor_last {k : κ} {x : β} {before after : List (κ × β)} (h : ∀ g ∈ after, g.1 ≠ k) :
    lastFor k (before ++ (k, x) :: after) = some x := by
  rw [List.append_cons, lastFor_append h, lastFor_concat, if_pos rfl]

theorem lastFor_mem {g : κ × β} {given : List (κ × β)} (h : (given.map (·.1)).Nodup)
    (hg : g ∈ given) : lastFor g.1 given = some g.2 := by
  obtain ⟨before, after, rfl⟩ := List.append_of_mem hg
  refine lastFor_last fun g' hg' heq => ?_
  rw [List.map_append, List.map_cons] at h
  exact (List.nodup_cons.mp (List.nodup_append.mp h).2.1).1 (heq ▸ List.mem_map_of_mem hg')

theorem eraseDups_of_nodup {xs : List String} (h : xs.Nodup) : xs.eraseDups = xs := by
  induction xs using List.reverseRecOn with
  | nil => rfl
  | append_singleton xs x ih =>
      obtain ⟨hxs, -, hne⟩ := List.nodup_append.mp h
      have hx : x ∉ xs := fun hx => hne x hx x List.mem_cons_self rfl
      rw [eraseDups_concat, if_neg hx, ih hxs]

theorem eraseDups_eraseDups_append (xs ys : List String) :
    (xs.eraseDups ++ ys).eraseDups = (xs ++ ys).eraseDups := by
  have hsame : ys.removeAll xs.eraseDups = ys.removeAll xs := by
    refine List.filter_congr fun y _ => ?_
    rw [Bool.eq_iff_iff]
    simp
  rw [List.eraseDups_append, List.eraseDups_append, eraseDups_of_nodup (nodup_eraseDups xs), hsame]

end Registry

open Shader (Pack)

/-! ## Packs -/

namespace Shader.Pack

theorem At.names {f : Files} {root : String} {p : Pack} (h : At f root p) :
    p.variants.map (·.1) = p.manifest.variants.map (·.name) := by
  have hall := h.variants
  generalize p.manifest.variants = vs, p.variants = ds at hall
  induction hall with
  | nil => rfl
  | cons hd _ ih =>
      obtain ⟨body, -, rfl⟩ := hd
      rw [List.map_cons, List.map_cons, ih]
      rfl

theorem At.nodup {f : Files} {root : String} {p : Pack} (h : At f root p) :
    (p.variants.map (·.1)).Nodup := by
  rw [h.names]
  exact Manifest.nodup_names h.usable

end Shader.Pack

namespace Command

/-- The packs that a root stands for: the pack that it is itself, or those in it by name. -/
inductive PacksOf (f : Files) (root : String) : List Pack → Prop
  | pack {p : Pack} (hmanifest : Pack.HasManifest f root) (hp : Pack.At f root p) :
      PacksOf f root [p]
  | directory {names : List String} {ps : List Pack} (hmanifest : ¬Pack.HasManifest f root)
      (hlisted : names.Perm ((f.names? root).getD [])) (hsorted : names.Pairwise (· ≤ ·))
      (hps : Pack.Collects f (names.map (Path.join root)) ps) : PacksOf f root ps

abbrev builtIn : Registry Float := Shader.Library.registry

/-- The registry is the built-in one, extended by packs. -/
structure Extends (packs : List Pack) (r : Registry Float) : Prop where
  registered : r = packs.foldl (fun r p => p.registerInto r) builtIn
  engineNames : r.engineNames = (builtIn.engineNames ++ packs.map Pack.engine).eraseDups
  /-- Nothing is left of what was registered for an engine before. -/
  latest : ∀ before p after, packs = before ++ p :: after → (∀ q ∈ after, q.engine ≠ p.engine) →
    r.variants p.engine = p.manifest.variants.map (·.name) ∧
      ∀ d ∈ p.variants, r.get? ⟨p.engine, d.1⟩ = some ⟨d.2, ⟨p.engine, d.1⟩⟩
  others : ∀ e, (∀ p ∈ packs, p.engine ≠ e) →
    r.variants e = builtIn.variants e ∧ ∀ v, r.get? ⟨e, v⟩ = builtIn.get? ⟨e, v⟩
  hasVariant : ∀ e v, r.hasVariant ⟨e, v⟩ = true ↔ v ∈ r.variants e

def given (packs : List Pack) : Registry.Given Float := packs.map fun p => (p.engine, p.variants)

theorem holds_builtIn : builtIn.Holds Shader.Library.engines := by
  have hholds := Registry.holds_empty.foldl (Shader.Library.engines (α := Float))
  rw [List.nil_append] at hholds
  exact hholds

theorem holds_packs (packs : List Pack) :
    (packs.foldl (fun r p => p.registerInto r) builtIn).Holds
      (Shader.Library.engines ++ given packs) := by
  have hholds := holds_builtIn.foldl (given packs)
  rw [given, List.foldl_map] at hholds
  exact hholds

theorem extends_packs {packs : List Pack}
    (h : ∀ p ∈ packs, ∃ (f : Files) (root : String), Pack.At f root p) :
    Extends packs (packs.foldl (fun r p => p.registerInto r) builtIn) := by
  have hmirrors := (holds_packs packs).mirrors
  have hbuiltIn := holds_builtIn.mirrors
  constructor
  · rfl
  · rw [hmirrors.engineNames, hbuiltIn.engineNames, Registry.eraseDups_eraseDups_append,
      List.map_append, given, List.map_map]
    rfl
  · intro before p after hpacks hafter
    have hlatest : Registry.lastFor p.engine (Shader.Library.engines ++ given packs) =
        some p.variants := by
      rw [hpacks, given, List.map_append, List.map_cons, ← List.append_assoc]
      refine Registry.lastFor_last fun g hg => ?_
      obtain ⟨q, hq, rfl⟩ := List.mem_map.mp hg
      exact hafter q hq
    obtain ⟨f, root, hp⟩ := h p (hpacks ▸ List.mem_append_right _ List.mem_cons_self)
    constructor
    · rw [hmirrors.variants, hlatest, Option.getD_some, Registry.eraseDups_of_nodup hp.nodup,
        hp.names]
    · intro d hd
      rw [hmirrors.get?, hlatest, Option.bind_some, Registry.lastFor_mem hp.nodup hd,
        Option.map_some]
  · intro e he
    have hsame : Registry.lastFor e (Shader.Library.engines ++ given packs) =
        Registry.lastFor e Shader.Library.engines := by
      refine Registry.lastFor_append fun g hg => ?_
      obtain ⟨q, hq, rfl⟩ := List.mem_map.mp hg
      exact he q hq
    constructor
    · rw [hmirrors.variants, hbuiltIn.variants, hsame]
    · intro v
      rw [hmirrors.get?, hbuiltIn.get?, hsame]
  · exact hmirrors.hasVariant

/-! ## Any program builds the same -/

/-- What `registryWith` does for one root. -/
def addPacks {m : Type → Type} [Monad m] [FileSystem m] (r : Registry Float) (root : String) :
    ExceptT Failure m (Registry Float) := do
  return (← packsAt root).foldl (fun r p => p.registerInto r) r

section

variable {m : Type → Type} [Monad m] {P : Promise m} {f : Files} {ε α β : Type}

theorem same_lift {x : m α} {y : Reading α} (h : P.holds x (· = y f)) :
    P.holds (liftM x : ExceptT ε m α).run (· = (liftM y : ExceptT ε Reading α).run f) :=
  P.map (P.weaken h fun _ ha => congrArg Except.ok ha)

theorem same_exceptT_bind {x : ExceptT ε m α} {y : ExceptT ε Reading α} {g : α → ExceptT ε m β}
    {k : α → ExceptT ε Reading β} (hx : P.holds x.run (· = y.run f))
    (hg : ∀ a, P.holds (g a).run (· = (k a).run f)) :
    P.holds (x >>= g).run (· = (y >>= k).run f) := by
  refine Promise.same_bind (g := ExceptT.bindCont g) (k := ExceptT.bindCont k) hx fun r => ?_
  cases r with
  | ok a => exact hg a
  | error e => exact P.returns rfl

variable [FileSystem m] (h : P.Answers f)
  (hdiscover : ∀ root, P.holds (Pack.discover root : m _) (· = (Pack.discover root : Reading _) f))
include h hdiscover

theorem same_packsAt (root : String) : P.holds (packsAt root : ExceptT Failure m _).run
    (· = (packsAt root : ExceptT Failure Reading _).run f) := by
  refine same_exceptT_bind (same_lift (Pack.same_isPack h root)) fun isPack => ?_
  cases isPack with
  | false => exact same_lift (hdiscover root)
  | true =>
      refine same_exceptT_bind (same_lift (Pack.same_load h root)) fun r => ?_
      cases r with
      | ok p => exact P.returns rfl
      | error e => exact P.returns rfl

theorem same_registryWith (roots : List String) :
    P.holds (registryWith roots : ExceptT Failure m _).run
      (· = (registryWith roots : ExceptT Failure Reading _).run f) := by
  have hall : ∀ (roots : List String) (r : Registry Float),
      P.holds (roots.foldlM addPacks r : ExceptT Failure m _).run
        (· = (roots.foldlM addPacks r : ExceptT Failure Reading _).run f) := by
    intro roots
    induction roots with
    | nil => exact fun r => P.returns rfl
    | cons root roots ih =>
        intro r
        refine same_exceptT_bind ?_ fun r' => ih r'
        exact same_exceptT_bind (same_packsAt h hdiscover root) fun ps => P.returns rfl
  exact hall roots builtIn

end

/-! ## Roots -/

section

variable {f : Files}

section

variable {α β ε : Type} {x : ExceptT ε Reading α} {g : α → ExceptT ε Reading β}

theorem run_lift_bind (x : Reading α) : (liftM x >>= g : ExceptT ε Reading β).run f =
    (g (x f)).run f := rfl

theorem run_bind_ok {a : α} (hx : x.run f = .ok a) : (x >>= g).run f = (g a).run f := by
  change ExceptT.bindCont g (x.run f) f = _
  rw [hx]
  rfl

theorem run_bind_error {e : ε} (hx : x.run f = .error e) : (x >>= g).run f = .error e := by
  change ExceptT.bindCont g (x.run f) f = _
  rw [hx]
  rfl

end

def Broken (f : Files) (root : String) : Prop :=
  Pack.HasManifest f root ∧ ∀ p, ¬Pack.At f root p

theorem packsAt_cases (f : Files) (root : String) :
    (∃ ps, (packsAt root : ExceptT Failure Reading _).run f = .ok ps ∧ PacksOf f root ps) ∨
      (Broken f root ∧
        ∃ e, (packsAt root : ExceptT Failure Reading _).run f = .error (.pack root e)) := by
  rw [packsAt, run_lift_bind]
  by_cases hmanifest : (Pack.isPack root : Reading _) f = true
  · rw [if_pos hmanifest, run_lift_bind]
    cases hload : (Pack.load root : Reading _) f with
    | ok p =>
        refine .inl ⟨[p], rfl, .pack (Pack.isPack_iff.mp hmanifest) ?_⟩
        exact (Pack.load_iff root p).mp hload
    | error e =>
        refine .inr ⟨⟨Pack.isPack_iff.mp hmanifest, fun p hp => ?_⟩, e, rfl⟩
        cases hload.symm.trans ((Pack.load_iff root p).mpr hp)
  · rw [if_neg hmanifest]
    obtain ⟨names, hlisted, hsorted, hps⟩ := Pack.discover_collects f root
    refine .inl ⟨_, rfl, .directory (fun h => hmanifest (Pack.isPack_iff.mpr h)) hlisted hsorted ?_⟩
    exact hps

/-- What comes of building a registry from roots. -/
structure Builds (f : Files) (roots : List String) (result : Except Failure (Registry Float)) :
    Prop where
  ok : ∀ r, result = .ok r →
    ∃ packs, List.Forall₂ (PacksOf f) roots packs ∧ Extends packs.flatten r
  error : ∀ e, result = .error e → ∃ before root after, roots = before ++ root :: after ∧
    (∀ x ∈ before, ¬Broken f x) ∧ Broken f root ∧ ∃ fault, e = .pack root fault

theorem PacksOf.not_broken {root : String} {ps : List Pack} (h : PacksOf f root ps) :
    ¬Broken f root := by
  rintro ⟨hmanifest, hnone⟩
  cases h with
  | pack _ hp => exact hnone _ hp
  | directory hnot => exact hnot hmanifest

theorem PacksOf.at {root : String} {ps : List Pack} (h : PacksOf f root ps) {p : Pack}
    (hp : p ∈ ps) : ∃ dir, Pack.At f dir p := by
  cases h with
  | pack _ hat =>
      rw [List.mem_singleton.mp hp]
      exact ⟨root, hat⟩
  | directory _ _ _ hps => exact hps.at hp

theorem at_of_mem_flatten {roots : List String} {packs : List (List Pack)}
    (h : List.Forall₂ (PacksOf f) roots packs) {p : Pack} (hp : p ∈ packs.flatten) :
    ∃ dir, Pack.At f dir p := by
  induction h with
  | nil => cases hp
  | cons hps _ ih =>
      rcases List.mem_append.mp hp with hp | hp
      · exact hps.at hp
      · exact ih hp

/-- The first root that is broken ends it; else all packs are registered in their order. -/
theorem foldlM_addPacks (f : Files) (roots : List String) (r : Registry Float) :
    (∃ packs, List.Forall₂ (PacksOf f) roots packs ∧
      (roots.foldlM addPacks r : ExceptT Failure Reading _).run f =
        .ok (packs.flatten.foldl (fun r p => p.registerInto r) r)) ∨
    ∃ before root after, roots = before ++ root :: after ∧ (∀ x ∈ before, ¬Broken f x) ∧
      Broken f root ∧ ∃ fault, (roots.foldlM addPacks r : ExceptT Failure Reading _).run f =
        .error (.pack root fault) := by
  induction roots generalizing r with
  | nil => exact .inl ⟨[], .nil, rfl⟩
  | cons root roots ih =>
      rcases packsAt_cases f root with ⟨ps, hrun, hps⟩ | ⟨hbroken, fault, hrun⟩
      · have hadd : (addPacks r root : ExceptT Failure Reading _).run f =
            .ok (ps.foldl (fun r p => p.registerInto r) r) := run_bind_ok hrun
        rw [List.foldlM_cons, run_bind_ok hadd]
        rcases ih (ps.foldl (fun r p => p.registerInto r) r) with ⟨packs, hpacks, heq⟩ |
          ⟨before, x, after, rfl, hbefore, hbroken, hfault⟩
        · refine .inl ⟨ps :: packs, .cons hps hpacks, ?_⟩
          rw [heq, List.flatten_cons, List.foldl_append]
        · refine .inr ⟨root :: before, x, after, rfl, ?_, hbroken, hfault⟩
          exact List.forall_mem_cons.mpr ⟨hps.not_broken, hbefore⟩
      · have hadd : (addPacks r root : ExceptT Failure Reading _).run f =
            .error (.pack root fault) := run_bind_error hrun
        refine .inr ⟨[], root, roots, rfl, fun _ hx => (nomatch hx), hbroken, fault, ?_⟩
        rw [List.foldlM_cons, run_bind_error hadd]

end

def registryOf (roots : List String) (f : Files) : Except Failure (Registry Float) :=
  (registryWith roots : ExceptT Failure Reading _).run f

theorem builds_registryOf (roots : List String) (f : Files) :
    Builds f roots (registryOf roots f) := by
  have hrun : registryOf roots f =
      (roots.foldlM addPacks builtIn : ExceptT Failure Reading _).run f := rfl
  rcases foldlM_addPacks f roots builtIn with ⟨packs, hpacks, heq⟩ |
    ⟨before, root, after, hroots, hbefore, hbroken, fault, heq⟩
  · have hall : ∀ p ∈ packs.flatten, ∃ f root, Pack.At f root p :=
      fun p hp => ⟨f, at_of_mem_flatten hpacks hp⟩
    constructor
    · intro r hr
      cases heq.symm.trans (hrun.symm.trans hr)
      exact ⟨packs, hpacks, extends_packs hall⟩
    · intro e he
      cases heq.symm.trans (hrun.symm.trans he)
  · constructor
    · intro r hr
      cases heq.symm.trans (hrun.symm.trans hr)
    · intro e he
      cases heq.symm.trans (hrun.symm.trans he)
      exact ⟨before, root, after, hroots, hbefore, hbroken, fault, rfl⟩

theorem registryOf_reordered (roots : List String) {f f' : Files} (h : f.Reordered f') :
    registryOf roots f' = registryOf roots f :=
  same_registryWith (P := Promise.reading f') (Pack.reading_answers h)
    (Pack.discover_reordered h) roots

end Command

def Disk.view (d : Disk) : Files := ⟨d.kind, d.read?, d.names?⟩

namespace Command

theorem registryWith_disk (roots : List String) (d : Disk) :
    (registryWith roots : ExceptT Failure (StateM Disk) _).run.run d =
      (registryOf roots d.view, d) := by
  -- the promise is that the disk stays `d`, so that every read sees the same files
  have hanswers : (Promise.id.stateT (· = d)).Answers d.view := by
    constructor
    · rintro p _ rfl
      exact ⟨rfl, rfl⟩
    · rintro p _ rfl
      exact ⟨rfl, rfl⟩
  have hnames : ∀ p, (Promise.id.stateT (· = d)).holds
      (FileSystem.names? p : StateM Disk (Option (List String))) (· = d.view.names? p) := by
    rintro p _ rfl
    exact ⟨rfl, rfl⟩
  obtain ⟨hresult, hdisk⟩ := same_registryWith hanswers
    (fun root => Pack.same_discover hanswers root (hnames root)) roots d rfl
  exact Prod.ext hresult hdisk

/-- Building a registry from roots: what comes of it, that it depends on the files alone and not on
the order in which they are listed, and that a disk is left as it is. -/
structure ReadsRegistry (roots : List String) (f : Files) : Prop where
  builds : Builds f roots (registryOf roots f)
  reordered : ∀ f', f.Reordered f' → registryOf roots f' = registryOf roots f
  disk : ∀ d : Disk, d.view = f →
    (registryWith roots : ExceptT Failure (StateM Disk) _).run.run d = (registryOf roots f, d)

theorem registry_run (roots : List String) (f : Files) : ReadsRegistry roots f where
  builds := builds_registryOf roots f
  reordered _ h := registryOf_reordered roots h
  disk d h := h ▸ registryWith_disk roots d

/-- A root whose manifest cannot be read ends it. -/
example : registryOf ["glow"] ⟨fun _ => .file, fun _ => none, fun _ => none⟩ =
    .error (.pack "glow" .unreadable) := rfl

end Command

end Segue
