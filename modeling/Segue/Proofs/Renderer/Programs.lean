import Mathlib
import Segue.Renderer.Basic

/-!
# Programs over whole runs of a renderer

The first source that is given for a variant decides on it for good. What a renderer remembers and
which program is in use can be told from the calls alone, whatever else it is asked in between.
-/

namespace Segue

namespace Renderer

/-! ## Runs -/

/-- What a renderer can be asked, except to give up its device. -/
inductive Action where
  | useSource (key : ShaderKey) (source? : Option String)
  | useVariant (registry : Registry Float) (key : ShaderKey)
  | updateImage (clip : Clip) (i : Image)
  | clearImage (clip : Clip)
  | pinTime (time? : Option Float)
  | render (shot : Shot Float)
  | readPixels
  | resize (width height : Nat)

/-- Asks for the program of a variant. -/
structure Call where
  key : ShaderKey
  source? : Option String

def Action.call? : Action → Option Call
  | .useSource key source? => some ⟨key, source?⟩
  | .useVariant registry key => some ⟨key, registry.fragment? key⟩
  | _ => none

/-- The answer to an action, if it asks for a program, and the renderer afterwards. -/
def act (r : Renderer) : Action → Option ActiveProgram × Renderer
  | .useSource key source? => ((r.useSource key source?).1, (r.useSource key source?).2)
  | .useVariant registry key => ((r.useVariant registry key).1, (r.useVariant registry key).2)
  | .updateImage clip i => (none, r.updateImage clip i)
  | .clearImage clip => (none, r.clearImage clip)
  | .pinTime time? => (none, r.pinTime time?)
  | .render shot => (none, (Id.run (Compositor.render r shot)).2)
  | .readPixels => (none, r.readPixels.2)
  | .resize width height => (none, r.resize width height)

def run (r : Renderer) (actions : List Action) : Renderer :=
  actions.foldl (fun r a => (r.act a).2) r

@[simp] theorem run_concat (r : Renderer) (actions : List Action) (a : Action) :
    r.run (actions ++ [a]) = ((r.run actions).act a).2 :=
  List.foldl_concat _ _ _ _

/-- The programs after an action. -/
def Programs.after (compile : String → Except Shader.CompileError Unit) (p : Programs)
    (a : Action) : Programs :=
  match a.call? with
  | some c => (p.select compile c.key c.source?).2
  | .none => p

/-- The textures after an action. -/
def texturesAfter (s : Texture.Slots) : Action → Texture.Slots
  | .updateImage clip i => s.upload clip i.width i.height
  | .clearImage clip => s.clear clip
  | _ => s

variable {r : Renderer} {s : Surface}

/-- A renderer that is ready stays so, on its device. -/
theorem act_ready (h : r.surface? = some s) (a : Action) :
    ∃ s', (r.act a).2.surface? = some s' ∧ s'.device = s.device ∧
      s'.programs = s.programs.after s.device.compile a ∧
      s'.textures = texturesAfter s.textures a := by
  cases a with
  | useSource key source? =>
      simp only [act, useSource, h]
      exact ⟨_, rfl, rfl, rfl, rfl⟩
  | useVariant registry key =>
      simp only [act, useVariant, useSource, h]
      exact ⟨_, rfl, rfl, rfl, rfl⟩
  | updateImage clip i =>
      simp only [act, updateImage, h]
      exact ⟨_, rfl, rfl, rfl, rfl⟩
  | clearImage clip =>
      simp only [act, clearImage, h]
      exact ⟨_, rfl, rfl, rfl, rfl⟩
  | pinTime time? => exact ⟨s, h, rfl, rfl, rfl⟩
  | render shot => exact ⟨s, h, rfl, rfl, rfl⟩
  | readPixels =>
      simp only [act, readPixels, h]
      exact ⟨_, rfl, rfl, rfl, rfl⟩
  | resize width height =>
      simp only [act, resize, h]
      exact ⟨_, rfl, rfl, rfl, rfl⟩

theorem act_answer (h : r.surface? = some s) (a : Action) :
    (r.act a).1 = a.call?.map fun c => (s.programs.select s.device.compile c.key c.source?).1 := by
  cases a with
  | useSource key source? => simp only [act, useSource, h, Action.call?, Option.map_some]
  | useVariant registry key =>
      simp only [act, useVariant, useSource, h, Action.call?, Option.map_some]
  | updateImage clip i => rfl
  | clearImage clip => rfl
  | pinTime time? => rfl
  | render shot => rfl
  | readPixels => rfl
  | resize width height => rfl

theorem run_ready (h : r.surface? = some s) (actions : List Action) :
    ∃ s', (r.run actions).surface? = some s' ∧ s'.device = s.device ∧
      s'.programs = actions.foldl (Programs.after s.device.compile) s.programs ∧
      s'.textures = actions.foldl texturesAfter s.textures := by
  induction actions generalizing r s with
  | nil => exact ⟨s, h, rfl, rfl, rfl⟩
  | cons a actions ih =>
      obtain ⟨t, ht, hdevice, hprograms, htextures⟩ := act_ready h a
      obtain ⟨s', hs', hdevice', hprograms', htextures'⟩ := ih ht
      rw [hdevice] at hdevice' hprograms'
      rw [hprograms] at hprograms'
      rw [htextures] at htextures'
      exact ⟨s', hs', hdevice', hprograms', htextures'⟩

/-- A new renderer that is supported holds nothing yet. -/
theorem create_ready {d : Device} {width height pool : Nat}
    (h : (create (some d) width height pool).isSupported = true) :
    ∃ s, (create (some d) width height pool).surface? = some s ∧ s.device = d ∧
      s.programs = .none ∧ s.textures = .make pool := by
  unfold create at h ⊢
  dsimp only at h ⊢
  split
  · exact ⟨_, rfl, rfl, rfl, rfl⟩
  · rename_i hsize
    rw [if_neg hsize] at h
    cases h

/-! ## Verdicts -/

def calls (actions : List Action) : List Call := actions.filterMap Action.call?

@[simp] theorem calls_concat (actions : List Action) (a : Action) :
    calls (actions ++ [a]) = calls actions ++ a.call?.toList := by
  rw [calls, List.filterMap_append]
  cases hcall : a.call? with
  | none => rw [List.filterMap_cons_none hcall, Option.toList_none, List.filterMap_nil, calls]
  | some c => rw [List.filterMap_cons_some hcall, Option.toList_some, List.filterMap_nil, calls]

/-- The first source that was given for a variant. -/
def firstSource? (key : ShaderKey) (calls : List Call) : Option String :=
  calls.findSome? fun c => if c.key = key then c.source? else none

variable {compile : String → Except Shader.CompileError Unit}

/-- What the first source of a variant compiled to. -/
def verdict? (compile : String → Except Shader.CompileError Unit) (calls : List Call)
    (key : ShaderKey) : Option (Except Shader.CompileError Unit) :=
  (firstSource? key calls).map compile

def Compiles (compile : String → Except Shader.CompileError Unit) (calls : List Call)
    (key : ShaderKey) : Prop :=
  verdict? compile calls key = some (.ok ())

def Fails (compile : String → Except Shader.CompileError Unit) (calls : List Call)
    (key : ShaderKey) (e : Shader.CompileError) : Prop :=
  verdict? compile calls key = some (.error e)

theorem firstSource?_concat (key : ShaderKey) (calls : List Call) (c : Call) :
    firstSource? key (calls ++ [c]) =
      (firstSource? key calls).or (if c.key = key then c.source? else none) := by
  rw [firstSource?, List.findSome?_append, List.findSome?_singleton]
  rfl

theorem verdict?_concat_of_some {calls : List Call} {key : ShaderKey}
    {v : Except Shader.CompileError Unit} (h : verdict? compile calls key = some v) (c : Call) :
    verdict? compile (calls ++ [c]) key = some v := by
  obtain ⟨source, hsource, -⟩ := Option.map_eq_some_iff.mp h
  rw [verdict?, firstSource?_concat, hsource, Option.some_or, ← hsource]
  exact h

theorem verdict?_concat_of_ne {key : ShaderKey} {c : Call} (h : c.key ≠ key) (calls : List Call) :
    verdict? compile (calls ++ [c]) key = verdict? compile calls key := by
  rw [verdict?, firstSource?_concat, if_neg h, Option.or_none]
  rfl

theorem verdict?_concat_of_none {calls : List Call} {c : Call}
    (h : verdict? compile calls c.key = none) :
    verdict? compile (calls ++ [c]) c.key = c.source?.map compile := by
  rw [verdict?, firstSource?_concat, Option.map_eq_none_iff.mp h, Option.none_or, if_pos rfl]

/-- A call without a source decides nothing. -/
theorem verdict?_concat_of_source_none {c : Call} (h : c.source? = none) (calls : List Call)
    (key : ShaderKey) : verdict? compile (calls ++ [c]) key = verdict? compile calls key := by
  rw [verdict?, firstSource?_concat, h, ite_self, Option.or_none]
  rfl

/-- So does a call on a variant that is decided. -/
theorem verdict?_concat_of_decided {calls : List Call} {c : Call}
    {v : Except Shader.CompileError Unit} (h : verdict? compile calls c.key = some v)
    (key : ShaderKey) : verdict? compile (calls ++ [c]) key = verdict? compile calls key := by
  by_cases hkey : c.key = key
  · subst hkey
    rw [verdict?_concat_of_some h, h]
  · exact verdict?_concat_of_ne hkey calls

/-! ## What is remembered -/

namespace Programs

variable {p p' : Programs}

theorem compileError?_isSome {key : ShaderKey} :
    (p.compileError? key).isSome = true ↔ key ∈ p.failed.map Prod.fst := by
  rw [compileError?, List.lookup_isSome_iff, List.mem_map]
  constructor
  · rintro ⟨entry, hmem, hkey⟩
    exact ⟨entry, hmem, (beq_iff_eq.mp hkey).symm⟩
  · rintro ⟨entry, hmem, rfl⟩
    exact ⟨entry, hmem, beq_self_eq_true _⟩

theorem compileError?_cons_of_ne {key failing : ShaderKey} (h : failing ≠ key)
    (e : Shader.CompileError) :
    compileError? { p with failed := (failing, e) :: p.failed } key = p.compileError? key := by
  have hkey : (key == failing) = false := beq_eq_false_iff_ne.mpr h.symm
  rw [compileError?, List.lookup_cons, hkey]
  rfl

/-- The programs remember the verdicts of the calls so far, each once. -/
structure Settled (compile : String → Except Shader.CompileError Unit) (calls : List Call)
    (p : Programs) : Prop where
  compiled : ∀ key, key ∈ p.compiled ↔ Compiles compile calls key
  error : ∀ key e, p.compileError? key = some e ↔ Fails compile calls key e
  compiled_once : p.compiled.Nodup
  failed_once : (p.failed.map Prod.fst).Nodup

variable {calls calls' : List Call} {c : Call}

theorem settled_none : Programs.none.Settled compile [] where
  compiled _ := ⟨fun h => (List.not_mem_nil h).elim, fun h => nomatch h⟩
  error _ _ := ⟨fun h => (nomatch h), fun h => nomatch h⟩
  compiled_once := List.nodup_nil
  failed_once := List.nodup_nil

/-- The program in use is not part of what is remembered. -/
theorem Settled.of_verdicts (h : p.Settled compile calls) (hcompiled : p'.compiled = p.compiled)
    (hfailed : p'.failed = p.failed)
    (hverdict : ∀ key, verdict? compile calls' key = verdict? compile calls key) :
    p'.Settled compile calls' where
  compiled key := by
    rw [hcompiled, h.compiled, Compiles, Compiles, hverdict]
  error key e := by
    rw [compileError?, hfailed, Fails, hverdict]
    exact h.error key e
  compiled_once := hcompiled ▸ h.compiled_once
  failed_once := hfailed ▸ h.failed_once

theorem Settled.add_compiled (h : p.Settled compile calls)
    (hnew : verdict? compile calls c.key = .none)
    (hok : verdict? compile (calls ++ [c]) c.key = some (.ok ())) :
    Settled compile (calls ++ [c]) { p with compiled := c.key :: p.compiled } where
  compiled key := by
    rw [List.mem_cons, h.compiled, Compiles, Compiles]
    by_cases hkey : c.key = key
    · subst hkey
      exact ⟨fun _ => hok, fun _ => .inl rfl⟩
    · rw [verdict?_concat_of_ne hkey]
      exact or_iff_right (Ne.symm hkey)
  error key e := by
    refine (h.error key e).trans ?_
    rw [Fails, Fails]
    by_cases hkey : c.key = key
    · subst hkey
      rw [hnew, hok]
      exact ⟨fun h => (nomatch h), fun h => nomatch h⟩
    · rw [verdict?_concat_of_ne hkey]
  compiled_once := by
    refine List.nodup_cons.mpr ⟨fun hmem => ?_, h.compiled_once⟩
    have hverdict := (h.compiled c.key).mp hmem
    rw [Compiles, hnew] at hverdict
    cases hverdict
  failed_once := h.failed_once

theorem Settled.add_failed (h : p.Settled compile calls) {e : Shader.CompileError}
    (hnew : verdict? compile calls c.key = .none)
    (herror : verdict? compile (calls ++ [c]) c.key = some (.error e)) :
    Settled compile (calls ++ [c]) { p with failed := (c.key, e) :: p.failed } where
  compiled key := by
    refine (h.compiled key).trans ?_
    rw [Compiles, Compiles]
    by_cases hkey : c.key = key
    · subst hkey
      rw [hnew, herror]
      exact ⟨fun h => (nomatch h), fun h => nomatch h⟩
    · rw [verdict?_concat_of_ne hkey]
  error key e' := by
    by_cases hkey : c.key = key
    · subst hkey
      rw [compileError?, List.lookup_cons_self, Fails, herror, Option.some_inj, Option.some_inj,
        Except.error.injEq]
    · rw [compileError?_cons_of_ne hkey, Fails, verdict?_concat_of_ne hkey]
      exact h.error key e'
  compiled_once := h.compiled_once
  failed_once := by
    refine List.nodup_cons.mpr ⟨fun hmem => ?_, h.failed_once⟩
    obtain ⟨e', he'⟩ := Option.isSome_iff_exists.mp (compileError?_isSome.mpr hmem)
    have hverdict := (h.error c.key e').mp he'
    rw [Fails, hnew] at hverdict
    cases hverdict

theorem Settled.undecided (h : p.Settled compile calls) {key : ShaderKey}
    (hcompiled : key ∉ p.compiled) (herror : (p.compileError? key).isSome ≠ true) :
    verdict? compile calls key = .none := by
  cases hverdict : verdict? compile calls key with
  | none => rfl
  | some v =>
      cases v with
      | ok _ => exact absurd ((h.compiled key).mpr hverdict) hcompiled
      | error e =>
          exact absurd (Option.isSome_iff_exists.mpr ⟨e, (h.error key e).mpr hverdict⟩) herror

/-! ## One call -/

/-- All that a call can do: it uses a program, or none, and it may remember one verdict. -/
inductive Selects (compile : String → Except Shader.CompileError Unit) (calls : List Call)
    (p : Programs) (c : Call) : ActiveProgram × Programs → Prop
  | compiled : Compiles compile calls c.key → Selects compile calls p c (p.use c.key)
  | failed (e : Shader.CompileError) : Fails compile calls c.key e →
      Selects compile calls p c p.fallBack
  | unknown : verdict? compile calls c.key = .none → c.source? = .none →
      Selects compile calls p c p.fallBack
  | compiles : verdict? compile calls c.key = .none →
      verdict? compile (calls ++ [c]) c.key = some (.ok ()) →
      Selects compile calls p c (use { p with compiled := c.key :: p.compiled } c.key)
  | fails (e : Shader.CompileError) : verdict? compile calls c.key = .none →
      verdict? compile (calls ++ [c]) c.key = some (.error e) →
      Selects compile calls p c (fallBack { p with failed := (c.key, e) :: p.failed })

theorem selects (h : p.Settled compile calls) (c : Call) :
    Selects compile calls p c (p.select compile c.key c.source?) := by
  unfold select
  split
  · rename_i hcompiled
    exact .compiled ((h.compiled c.key).mp (List.contains_iff_mem.mp hcompiled))
  · rename_i hcompiled
    split
    · rename_i herror
      obtain ⟨e, he⟩ := Option.isSome_iff_exists.mp herror
      exact .failed e ((h.error c.key e).mp he)
    · rename_i herror
      have hnew := h.undecided (mt List.contains_iff_mem.mpr hcompiled) herror
      have hverdict := verdict?_concat_of_none hnew
      split
      · rename_i hsource
        exact .unknown hnew hsource
      · rename_i source hsource
        rw [hsource, Option.map_some] at hverdict
        split
        · rename_i hok
          exact .compiles hnew (hverdict.trans (congrArg some hok))
        · rename_i e herr
          exact .fails e hnew (hverdict.trans (congrArg some herr))

variable {answer : ActiveProgram × Programs}

theorem Selects.settled (h : p.Settled compile calls) (hs : Selects compile calls p c answer) :
    answer.2.Settled compile (calls ++ [c]) := by
  cases hs with
  | compiled hok => exact h.of_verdicts rfl rfl (verdict?_concat_of_decided hok)
  | failed e herror => exact h.of_verdicts rfl rfl (verdict?_concat_of_decided herror)
  | unknown _ hsource => exact h.of_verdicts rfl rfl (verdict?_concat_of_source_none hsource calls)
  | compiles hnew hok => exact (h.add_compiled hnew hok).of_verdicts rfl rfl fun _ => rfl
  | fails e hnew herror => exact (h.add_failed hnew herror).of_verdicts rfl rfl fun _ => rfl

/-- The first source decides, and no call before it is answered with a program. -/
theorem Selects.requested_iff (hs : Selects compile calls p c answer) :
    answer.1 = .requested ↔ Compiles compile (calls ++ [c]) c.key := by
  cases hs with
  | compiled hok => exact iff_of_true rfl (verdict?_concat_of_some hok c)
  | failed e herror =>
      refine iff_of_false (fun h => nomatch h) fun hok => ?_
      rw [Compiles, verdict?_concat_of_some herror c] at hok
      cases hok
  | unknown hnew hsource =>
      refine iff_of_false (fun h => nomatch h) fun hok => ?_
      rw [Compiles, verdict?_concat_of_source_none hsource, hnew] at hok
      cases hok
  | compiles hnew hok => exact iff_of_true rfl hok
  | fails e hnew herror =>
      refine iff_of_false (fun h => nomatch h) fun hok => ?_
      rw [Compiles, herror] at hok
      cases hok

theorem Selects.active_iff (hs : Selects compile calls p c answer) (key : ShaderKey) :
    answer.2.active? = some key ↔ c.key = key ∧ answer.1 = .requested := by
  cases hs with
  | compiled _ => exact ⟨fun h => ⟨Option.some.inj h, rfl⟩, fun h => congrArg some h.1⟩
  | compiles _ _ => exact ⟨fun h => ⟨Option.some.inj h, rfl⟩, fun h => congrArg some h.1⟩
  | failed _ _ => exact iff_of_false (fun h => nomatch h) fun h => nomatch h.2
  | unknown _ _ => exact iff_of_false (fun h => nomatch h) fun h => nomatch h.2
  | fails _ _ _ => exact iff_of_false (fun h => nomatch h) fun h => nomatch h.2

/-- Before its first source nothing is remembered of a variant. -/
theorem Selects.unchanged (hs : Selects compile calls p c answer)
    (h : firstSource? c.key (calls ++ [c]) = .none) :
    answer.2.compiled = p.compiled ∧ answer.2.failed = p.failed := by
  have hverdict : verdict? compile (calls ++ [c]) c.key = .none := Option.map_eq_none_iff.mpr h
  cases hs with
  | compiled _ => exact ⟨rfl, rfl⟩
  | failed _ _ => exact ⟨rfl, rfl⟩
  | unknown _ _ => exact ⟨rfl, rfl⟩
  | compiles _ hok =>
      rw [hverdict] at hok
      cases hok
  | fails e _ herror =>
      rw [hverdict] at herror
      cases herror

theorem Settled.length_compiled (h : p.Settled compile calls) :
    p.compiled.length = {key | Compiles compile calls key}.ncard := by
  have hset : {key | Compiles compile calls key} = (p.compiled.toFinset : Set ShaderKey) := by
    ext key
    rw [Set.mem_ofPred_eq, List.coe_toFinset, Set.mem_ofPred_eq]
    exact (h.compiled key).symm
  rw [hset, Set.ncard_coe_finset, List.toFinset_card_of_nodup h.compiled_once]

theorem Settled.length_failed (h : p.Settled compile calls) :
    p.failed.length = {key | ∃ e, Fails compile calls key e}.ncard := by
  have hset : {key | ∃ e, Fails compile calls key e} =
      ((p.failed.map Prod.fst).toFinset : Set ShaderKey) := by
    ext key
    rw [Set.mem_ofPred_eq, List.coe_toFinset, Set.mem_ofPred_eq, ← compileError?_isSome,
      Option.isSome_iff_exists]
    exact exists_congr fun e => (h.error key e).symm
  rw [hset, Set.ncard_coe_finset, List.toFinset_card_of_nodup h.failed_once, List.length_map]

/-! ## All calls -/

/-- What is remembered and what is in use, from the calls alone. -/
structure Follows (compile : String → Except Shader.CompileError Unit) (calls : List Call)
    (p : Programs) : Prop extends Settled compile calls p where
  active : ∀ key, p.active? = some key ↔
    ∃ c, calls.getLast? = some c ∧ c.key = key ∧ Compiles compile calls key

theorem follows_none : Programs.none.Follows compile [] where
  toSettled := settled_none
  active _ := ⟨fun h => (nomatch h), fun ⟨_, h, _⟩ => nomatch h⟩

theorem Selects.follows (h : p.Settled compile calls) (hs : Selects compile calls p c answer) :
    answer.2.Follows compile (calls ++ [c]) where
  toSettled := hs.settled h
  active key := by
    rw [hs.active_iff, hs.requested_iff, List.getLast?_concat]
    constructor
    · rintro ⟨rfl, hok⟩
      exact ⟨c, rfl, rfl, hok⟩
    · rintro ⟨c', hc', rfl, hok⟩
      cases hc'
      exact ⟨rfl, hok⟩

theorem follows_run (compile : String → Except Shader.CompileError Unit) (actions : List Action) :
    Follows compile (Renderer.calls actions) (actions.foldl (after compile) .none) := by
  induction actions using List.reverseRecOn with
  | nil => exact follows_none
  | append_singleton actions a ih =>
      rw [List.foldl_concat, calls_concat]
      cases hcall : a.call? with
      | none =>
          rw [after, hcall, Option.toList_none, List.append_nil]
          exact ih
      | some c =>
          rw [after, hcall, Option.toList_some]
          exact (selects ih.toSettled c).follows ih.toSettled

end Programs

/-- What a renderer on the device `d` shows of its programs after the calls. -/
structure Shows (d : Device) (calls : List Call) (r : Renderer) : Prop where
  error : ∀ key e, r.compileError? key = some e ↔ Fails d.compile calls key e
  active : ∀ key, r.stats.active? = some key ↔
    ∃ c, calls.getLast? = some c ∧ c.key = key ∧ Compiles d.compile calls key
  compiled : r.stats.compiled = 1 + {key | Compiles d.compile calls key}.ncard
  failed : r.stats.failed = {key | ∃ e, Fails d.compile calls key e}.ncard

theorem Programs.Follows.shows {d : Device} {calls : List Call} (hs : r.surface? = some s)
    (h : s.programs.Follows d.compile calls) : Shows d calls r where
  error key e := by
    rw [Renderer.compileError?, hs]
    exact h.error key e
  active key := by
    simp only [stats, hs]
    exact h.active key
  compiled := by
    simp only [stats, hs]
    rw [Programs.count, h.length_compiled, Nat.add_comm]
  failed := by
    simp only [stats, hs]
    exact h.length_failed

/-- After any actions the programs are those that the calls tell. The next call is answered with a
program exactly if the first source that its variant has been given compiles, and as long as there
is none it leaves all that is remembered. -/
theorem selection_run {d : Device} {width height pool : Nat}
    (hready : (create (some d) width height pool).isSupported = true) (actions : List Action) :
    ∃ s, ((create (some d) width height pool).run actions).surface? = some s ∧
      Shows d (calls actions) ((create (some d) width height pool).run actions) ∧
      (∀ key, s.programs.active? = some key → key ∈ s.programs.compiled) ∧
      ∀ a c, a.call? = some c →
        ∃ answer s', ((create (some d) width height pool).run actions).act a =
            (some answer, (create (some d) width height pool).run (actions ++ [a])) ∧
          ((create (some d) width height pool).run (actions ++ [a])).surface? = some s' ∧
          (answer = .requested ↔ Compiles d.compile (calls actions ++ [c]) c.key) ∧
          (firstSource? c.key (calls actions ++ [c]) = none →
            s'.programs.compiled = s.programs.compiled ∧
            s'.programs.failed = s.programs.failed) := by
  obtain ⟨s₀, hs₀, rfl, hnone, -⟩ := create_ready hready
  obtain ⟨s, hs, hdevice, hprograms, -⟩ := run_ready hs₀ actions
  rw [hnone] at hprograms
  have hfollows := Programs.follows_run s₀.device.compile actions
  rw [← hprograms] at hfollows
  refine ⟨s, hs, hfollows.shows hs, fun key hkey => ?_, fun a c hcall => ?_⟩
  · obtain ⟨-, -, -, hok⟩ := (hfollows.active key).mp hkey
    exact (hfollows.compiled key).mpr hok
  · obtain ⟨s', hs', -, hprograms', -⟩ := act_ready hs a
    have hselects := Programs.selects hfollows.toSettled c
    have hanswer := act_answer hs a
    rw [hcall, Option.map_some, hdevice] at hanswer
    rw [Programs.after, hcall, hdevice] at hprograms'
    rw [run_concat]
    refine ⟨_, s', Prod.ext hanswer rfl, hs', hselects.requested_iff, fun hfirst => ?_⟩
    rw [hprograms']
    exact hselects.unchanged hfirst

/-- A device that compiles one source only. -/
def picky : Device where
  adapter := "picky"
  maxSide := 4
  compile source := if source = "good" then .ok () else .error (.device source)

/-- A variant is asked for without a source, then with a bad one, and another one with a good one. -/
def pickyActions : List Action :=
  [.useSource ⟨"cut", "a"⟩ none, .useSource ⟨"cut", "a"⟩ (some "bad"), .resize 3 9,
    .useSource ⟨"cut", "b"⟩ (some "good"), .updateImage .a (.blank 2 2)]

/-- A good source is too late for a variant that has failed, and a bad one harms no other. -/
theorem selection_run_picky :
    (create (some picky) 2 2 0).isSupported = true ∧
      ((create (some picky) 2 2 0).run pickyActions).stats.active? = some ⟨"cut", "b"⟩ ∧
      (Action.useSource ⟨"cut", "a"⟩ (some "good")).call? = some ⟨⟨"cut", "a"⟩, some "good"⟩ ∧
      (((create (some picky) 2 2 0).run pickyActions).act
        (.useSource ⟨"cut", "a"⟩ (some "good"))).1 = some .fallback := by
  have hready : (create (some picky) 2 2 0).isSupported = true := by decide
  obtain ⟨s, -, hshows, -, hnext⟩ := selection_run hready pickyActions
  obtain ⟨answer, s', hact, -, hrequested, -⟩ := hnext (.useSource ⟨"cut", "a"⟩ (some "good")) _ rfl
  refine ⟨hready, (hshows.active _).mpr ⟨_, rfl, rfl, rfl⟩, rfl, ?_⟩
  have hlate : ¬ Compiles picky.compile
      (calls pickyActions ++ [⟨⟨"cut", "a"⟩, some "good"⟩]) ⟨"cut", "a"⟩ := by
    intro h
    cases h
  rw [hact]
  cases answer with
  | requested => exact absurd (hrequested.mp rfl) hlate
  | fallback => rfl

end Renderer

end Segue
