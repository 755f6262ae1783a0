import Mathlib
import Segue.Proofs.Promise
import Segue.Shader.Pack

/-!
# Loading packs

What a pack is can be read off the files. Nothing else decides what is loaded: not the order in
which a directory lists its entries, and not the program that does the reading.
-/

namespace Segue

/-- The files of a system as programs see them. -/
structure Files where
  kind : String → EntryKind
  read? : String → Option Content
  names? : String → Option (List String)

abbrev Reading := ReaderM Files

instance : FileSystem Reading where
  kind p := return (← read).kind p
  read? p := return (← read).read? p
  names? p := return (← read).names? p
  makeDirectory _ := return false
  write _ _ := return false

theorem reading_bind {α β : Type} (x : Reading α) (k : α → Reading β) (f : Files) :
    (x >>= k) f = k (x f) f := rfl

namespace Files

def text? (f : Files) (p : String) : Option String :=
  if f.kind p = .absent then none else f.read? p >>= Content.text?

theorem text?_eq_some {f : Files} {p text : String} : f.text? p = some text ↔
    f.kind p ≠ .absent ∧ (readText? p : Reading _) f = some text := by
  unfold text?
  split
  · rename_i habsent
    simp [habsent]
  · rename_i hthere
    exact (and_iff_right hthere).symm

/-- The same files, with directories that list the same names in any order. -/
structure Reordered (f f' : Files) : Prop where
  kind : f'.kind = f.kind
  read? : f'.read? = f.read?
  names? : ∀ p, Option.Rel List.Perm (f.names? p) (f'.names? p)

end Files

namespace Promise

variable {m : Type → Type} [Monad m] [FileSystem m]

/-- Whatever is read in a file is as the files say. -/
structure Answers (P : Promise m) (f : Files) : Prop where
  kind : ∀ p, P.holds (FileSystem.kind p : m EntryKind) (· = f.kind p)
  read : ∀ p, P.holds (FileSystem.read? p : m (Option Content)) (· = f.read? p)

end Promise

namespace Promise

variable {m : Type → Type} [Monad m] {P : Promise m} {f : Files} {α β : Type}

/-- A program that goes on as a reading one does. -/
theorem same_bind {x : m α} {y : Reading α} {g : α → m β} {k : α → Reading β}
    (hx : P.holds x (· = y f)) (hg : ∀ a, P.holds (g a) (· = k a f)) :
    P.holds (x >>= g) (· = (y >>= k) f) := by
  refine P.bind hx fun a ha => ?_
  rw [ha]
  exact hg (y f)

theorem same_filterM {c : α → m Bool} {d : α → Reading Bool} (h : ∀ a, P.holds (c a) (· = d a f))
    (l : List α) : P.holds (l.filterM c) (· = l.filterM d f) := by
  have haux : ∀ l acc : List α, P.holds (l.filterAuxM c acc) (· = l.filterAuxM d acc f) := by
    intro l
    induction l with
    | nil => exact fun acc => P.returns rfl
    | cons a l ih => exact fun acc => same_bind (h a) fun b => ih _
  exact same_bind (haux l []) fun kept => P.returns rfl

theorem same_filterMapM {c : α → m (Option β)} {d : α → Reading (Option β)}
    (h : ∀ a, P.holds (c a) (· = d a f)) (l : List α) :
    P.holds (l.filterMapM c) (· = l.filterMapM d f) := by
  have hloop : ∀ (l : List α) (acc : List β),
      P.holds (List.filterMapM.loop c l acc) (· = List.filterMapM.loop d l acc f) := by
    intro l
    induction l with
    | nil => exact fun acc => P.returns rfl
    | cons a l ih =>
        refine fun acc => same_bind (h a) fun b => ?_
        cases b with
        | none => exact ih _
        | some b => exact ih _
  exact hloop l []

def reading (f : Files) : Promise Reading where
  holds x Q := Q (x f)
  returns h := h
  bind hx hf := hf _ hx
  map h := h
  weaken hx h := h _ hx

end Promise

section

variable {f : Files} {α β : Type}

theorem reading_filterM (c : α → Reading Bool) (l : List α) :
    (l.filterM c : Reading _) f = l.filter fun a => c a f := by
  have haux : ∀ l acc : List α,
      (l.filterAuxM c acc : Reading _) f = (l.filter fun a => c a f).reverse ++ acc := by
    intro l
    induction l with
    | nil => exact fun acc => rfl
    | cons a l ih =>
        intro acc
        rw [List.filterAuxM, reading_bind, ih]
        cases h : c a f with
        | false => simp [h]
        | true => simp [h]
  rw [List.filterM, reading_bind, haux]
  simp [pure, ReaderT.pure]

theorem reading_filterMapM (c : α → Reading (Option β)) (l : List α) :
    (l.filterMapM c : Reading _) f = l.filterMap fun a => c a f := by
  have hloop : ∀ (l : List α) (acc : List β),
      (List.filterMapM.loop c l acc : Reading _) f = acc.reverse ++ l.filterMap fun a => c a f := by
    intro l
    induction l with
    | nil => exact fun acc => (List.append_nil _).symm
    | cons a l ih =>
        intro acc
        rw [List.filterMapM.loop, reading_bind]
        cases h : c a f with
        | none => simp [h, ih]
        | some b => simp [h, ih]
  exact hloop l []

end

namespace Shader

/-- A manifest without issues names each variant once. -/
theorem Manifest.nodup_names {m : Manifest} (h : m.issues = []) :
    (m.variants.map (·.name)).Nodup := by
  have hnames : ∀ x ∈ (m.variants.map (·.name)).zipIdx,
      variantIssues ((m.variants.map (·.name)).take x.2) x.1 = [] := by
    have hall := (List.append_eq_nil_iff.mp h).2
    exact List.flatMap_eq_nil_iff.mp hall
  rw [List.nodup_iff_getElem?_ne_getElem?]
  intro i j hij hj heq
  have hissue := hnames ((m.variants.map (·.name))[j], j)
    (List.mem_zipIdx_iff_getElem?.mpr (List.getElem?_eq_getElem hj))
  have hearlier : (m.variants.map (·.name))[j] ∈ (m.variants.map (·.name)).take j := by
    refine List.mem_of_getElem? (i := i) ?_
    rw [List.getElem?_take_of_lt hij, heq]
    exact List.getElem?_eq_getElem hj
  have htwice := (List.append_eq_nil_iff.mp hissue).2
  rw [if_pos (by simpa using hearlier)] at htwice
  cases htwice

namespace Pack

open Promise

/-! ## Any program reads the same -/

section

variable {m : Type → Type} [Monad m] [FileSystem m] {P : Promise m} {f : Files}
  (h : P.Answers f)
include h

theorem same_readText? (path : String) :
    P.holds (readText? path : m _) (· = (readText? path : Reading _) f) :=
  same_bind (y := FileSystem.read? path) (h.read path) fun _ => P.returns rfl

theorem same_gather (root : String) (man : Manifest) (vs : List ManifestVariant) (g : Gathered) :
    P.holds (gather root man vs g : m _) (· = (gather root man vs g : Reading _) f) := by
  induction vs generalizing g with
  | nil => exact P.returns rfl
  | cons v vs ih =>
      refine same_bind (y := FileSystem.kind _) (h.kind _) fun k => ?_
      cases k with
      | absent => exact ih _
      | file | directory =>
          refine same_bind (same_readText? h _) fun text? => ?_
          cases text? with
          | none => exact P.returns rfl
          | some body => exact ih _

theorem same_load (root : String) :
    P.holds (load root : m _) (· = (load root : Reading _) f) := by
  refine same_bind (y := FileSystem.kind _) (h.kind _) fun k => ?_
  cases k with
  | absent => exact P.returns rfl
  | file | directory =>
      refine same_bind (same_readText? h _) fun text? => ?_
      cases text? with
      | none => exact P.returns rfl
      | some text =>
          dsimp only
          cases Manifest.parse? text with
          | none => exact P.returns rfl
          | some man =>
              dsimp only
              cases !man.issues.isEmpty with
              | true => exact P.returns rfl
              | false =>
                  refine same_bind (same_gather h root man _ _) fun r => ?_
                  cases r with
                  | error e => exact P.returns rfl
                  | ok g =>
                      dsimp only
                      cases !g.missing.isEmpty with
                      | true => exact P.returns rfl
                      | false => exact P.returns rfl

theorem same_isPack (root : String) :
    P.holds (isPack root : m _) (· = (isPack root : Reading _) f) :=
  same_bind (y := FileSystem.kind _) (h.kind _) fun _ => P.returns rfl

theorem same_discover (root : String)
    (hnames : P.holds (FileSystem.names? root : m (Option (List String))) (· = f.names? root)) :
    P.holds (discover root : m _) (· = (discover root : Reading _) f) := by
  refine same_bind (y := FileSystem.names? _) hnames fun names => ?_
  refine same_bind (same_filterM (same_isPack h) _) fun dirs => ?_
  refine same_filterMapM (fun dir => ?_) dirs
  exact same_bind (k := fun r => pure r.toOption) (same_load h dir) fun r => P.returns rfl

end

/-! ## What is loaded -/

section

variable {f : Files}

/-- What is registered for a variant whose fragment is a file with this text. -/
def registered (includeCommon : Bool) (v : ManifestVariant) (body : String) :
    String × VariantDef Float :=
  (v.name, ⟨if includeCommon then Library.common ++ "\n" ++ body else body, v.uniforms,
    v.description⟩)

/-- The fragment of a variant is there, and `d` is registered for it. -/
def Delivers (f : Files) (root : String) (includeCommon : Bool) (v : ManifestVariant)
    (d : String × VariantDef Float) : Prop :=
  ∃ body, f.text? (Path.join root v.fragment) = some body ∧ d = registered includeCommon v body

/-- The files below a directory make up a pack. -/
structure At (f : Files) (root : String) (p : Pack) : Prop where
  root_eq : p.root = root
  manifest : ∃ text, f.text? (Path.join root manifestName) = some text ∧
    Manifest.parse? text = some p.manifest
  usable : p.manifest.issues = []
  variants : List.Forall₂ (Delivers f root p.manifest.includeCommon) p.manifest.variants p.variants

section

variable {root : String} {man : Manifest} {v : ManifestVariant} {vs : List ManifestVariant}
  {g g' : Gathered}

theorem gather_absent (h : f.kind (Path.join root v.fragment) = .absent) :
    ∃ note, (gather root man (v :: vs) g : Reading _) f =
      (gather root man vs { g with missing := g.missing ++ [note] } : Reading _) f := by
  have hkind : (FileSystem.kind (Path.join root v.fragment) : Reading _) f = .absent := h
  rw [gather, reading_bind, hkind]
  exact ⟨_, rfl⟩

theorem gather_there (h : f.kind (Path.join root v.fragment) ≠ .absent) :
    (gather root man (v :: vs) g : Reading _) f =
      match (readText? (Path.join root v.fragment) : Reading _) f with
      | none => .error .unreadable
      | some body =>
        (gather root man vs { g with
          variants := g.variants ++ [registered man.includeCommon v body] } : Reading _) f := by
  rw [gather, reading_bind]
  cases hkind : (FileSystem.kind (Path.join root v.fragment) : Reading _) f with
  | absent => exact absurd hkind h
  | file | directory =>
      dsimp only
      rw [reading_bind]
      cases (readText? (Path.join root v.fragment) : Reading _) f with
      | none => rfl
      | some body => rfl

/-- All fragments are gathered if none is missing. -/
theorem gather_iff : (gather root man vs g : Reading _) f = .ok g' ∧ g'.missing = [] ↔
    g.missing = [] ∧ ∃ new, List.Forall₂ (Delivers f root man.includeCommon) vs new ∧
      g' = ⟨[], g.variants ++ new⟩ := by
  -- what is missing is never forgotten, so a fragment that is absent excludes the left side
  induction vs generalizing g with
  | nil =>
      constructor
      · rintro ⟨hg, hmissing⟩
        cases hg
        refine ⟨hmissing, [], .nil, ?_⟩
        rw [List.append_nil, ← hmissing]
      · rintro ⟨hmissing, new, hnew, rfl⟩
        cases hnew
        refine ⟨?_, rfl⟩
        rw [List.append_nil, ← hmissing]
        rfl
  | cons v vs ih =>
      constructor
      · rintro ⟨hg, hmissing⟩
        by_cases hkind : f.kind (Path.join root v.fragment) = .absent
        · obtain ⟨note, hnote⟩ := gather_absent hkind
          have hnone := (ih.mp ⟨hnote.symm.trans hg, hmissing⟩).1
          exact absurd hnone (List.concat_ne_nil _ _)
        · rw [gather_there hkind] at hg
          split at hg
          · cases hg
          · rename_i body hbody
            obtain ⟨hnone, new, hnew, rfl⟩ := ih.mp ⟨hg, hmissing⟩
            refine ⟨hnone, _ :: new, .cons ⟨body, ?_, rfl⟩ hnew, ?_⟩
            · exact Files.text?_eq_some.mpr ⟨hkind, hbody⟩
            · rw [List.append_assoc]
              rfl
      · rintro ⟨hmissing, new, hnew, rfl⟩
        cases hnew with
        | cons hd hnew =>
            obtain ⟨body, hbody, rfl⟩ := hd
            obtain ⟨hkind, hread⟩ := Files.text?_eq_some.mp hbody
            rw [gather_there hkind, hread]
            refine ih.mpr ⟨hmissing, _, hnew, ?_⟩
            rw [List.append_assoc]
            rfl

end

section

variable {root text : String} {man : Manifest}

theorem load_of_text (h : f.text? (Path.join root manifestName) = some text) :
    (load root : Reading _) f =
      match Manifest.parse? text with
      | none => .error .malformed
      | some man =>
        if !man.issues.isEmpty then .error (.unusable man.issues)
        else
          match (gather root man man.variants ⟨[], []⟩ : Reading _) f with
          | .error e => .error e
          | .ok g =>
            if !g.missing.isEmpty then .error (.unusable g.missing)
            else .ok ⟨root, man, g.variants⟩ := by
  obtain ⟨hkind, hread⟩ := Files.text?_eq_some.mp h
  rw [load, reading_bind]
  cases hk : (FileSystem.kind (Path.join root manifestName) : Reading _) f with
  | absent => exact absurd hk hkind
  | file | directory =>
      dsimp only
      rw [reading_bind, hread]
      dsimp only
      cases Manifest.parse? text with
      | none => rfl
      | some man =>
          dsimp only
          split
          · rfl
          · rw [reading_bind]
            cases (gather root man man.variants ⟨[], []⟩ : Reading _) f with
            | error e => rfl
            | ok g =>
                dsimp only
                split
                · rfl
                · rfl

theorem load_of_no_text (h : f.text? (Path.join root manifestName) = none) :
    ∃ e, (load root : Reading _) f = .error e := by
  rw [load, reading_bind]
  cases hk : (FileSystem.kind (Path.join root manifestName) : Reading _) f with
  | absent => exact ⟨_, rfl⟩
  | file | directory =>
      dsimp only
      rw [reading_bind]
      cases hread : (readText? (Path.join root manifestName) : Reading _) f with
      | none => exact ⟨_, rfl⟩
      | some text =>
          have hkind : f.kind (Path.join root manifestName) ≠ .absent := by
            intro habsent
            cases hk.symm.trans habsent
          cases h.symm.trans (Files.text?_eq_some.mpr ⟨hkind, hread⟩)

end

/-- Loading gives the pack that the files make up, and fails if they make up none. -/
theorem load_iff (root : String) (p : Pack) :
    (load root : Reading _) f = .ok p ↔ At f root p := by
  constructor
  · intro hload
    cases htext : f.text? (Path.join root manifestName) with
    | none =>
        obtain ⟨e, he⟩ := load_of_no_text htext
        cases he.symm.trans hload
    | some text =>
        rw [load_of_text htext] at hload
        split at hload
        · cases hload
        · rename_i man hparse
          split at hload
          · cases hload
          · rename_i hissues
            split at hload
            · cases hload
            · rename_i g hgather
              split at hload
              · cases hload
              · rename_i hmissing
                cases hload
                have hnone : g.missing = [] := by simpa using hmissing
                obtain ⟨-, new, hnew, rfl⟩ := gather_iff.mp ⟨hgather, hnone⟩
                exact ⟨rfl, ⟨text, htext, hparse⟩, by simpa using hissues, hnew⟩
  · rintro ⟨rfl, ⟨text, htext, hparse⟩, husable, hvariants⟩
    have hgather := (gather_iff (g := ⟨[], []⟩)).mpr ⟨rfl, p.variants, hvariants, rfl⟩
    rw [load_of_text htext, hparse]
    dsimp only
    rw [husable, if_neg (by simp), hgather.1]
    rfl

def HasManifest (f : Files) (root : String) : Prop :=
  f.kind (Path.join root manifestName) = .file

theorem isPack_iff {root : String} : (isPack root : Reading _) f = true ↔ HasManifest f root := by
  change (f.kind (Path.join root manifestName) == EntryKind.file) = true ↔ _
  exact beq_iff_eq

/-- The packs that are loaded of directories: one of each that makes up one, in their order. -/
inductive Collects (f : Files) : List String → List Pack → Prop
  | nil : Collects f [] []
  | pack {dir : String} {p : Pack} {dirs : List String} {ps : List Pack}
      (hmanifest : HasManifest f dir) (hp : At f dir p) (rest : Collects f dirs ps) :
      Collects f (dir :: dirs) (p :: ps)
  | other {dir : String} {dirs : List String} {ps : List Pack}
      (hnone : HasManifest f dir → ∀ p, ¬At f dir p) (rest : Collects f dirs ps) :
      Collects f (dir :: dirs) ps

theorem Collects.at {dirs : List String} {ps : List Pack} (h : Collects f dirs ps) {p : Pack}
    (hp : p ∈ ps) : ∃ dir, At f dir p := by
  induction h with
  | nil => cases hp
  | @pack dir q _ _ _ hq _ ih =>
      cases hp with
      | head => exact ⟨dir, hq⟩
      | tail _ hp => exact ih hp
  | other _ _ ih => exact ih hp

theorem collects (f : Files) (dirs : List String) :
    Collects f dirs ((dirs.filter fun dir => (isPack dir : Reading _) f).filterMap
      fun dir => ((load dir : Reading _) f).toOption) := by
  induction dirs with
  | nil => exact .nil
  | cons dir dirs ih =>
      by_cases hmanifest : (isPack dir : Reading _) f = true
      · rw [List.filter_cons_of_pos (p := fun dir => (isPack dir : Reading _) f) hmanifest]
        cases hload : (load dir : Reading _) f with
        | ok p =>
            rw [List.filterMap_cons, hload]
            exact .pack (isPack_iff.mp hmanifest) ((load_iff dir p).mp hload) ih
        | error e =>
            rw [List.filterMap_cons, hload]
            refine .other (fun _ p hp => ?_) ih
            cases hload.symm.trans ((load_iff dir p).mpr hp)
      · rw [List.filter_cons_of_neg (p := fun dir => (isPack dir : Reading _) f) hmanifest]
        exact .other (fun h => absurd (isPack_iff.mpr h) hmanifest) ih

/-! ## Directories of packs -/

theorem sorted_mergeSort (names : List String) : names.mergeSort.Pairwise (· ≤ ·) := by
  refine (List.pairwise_mergeSort (fun a b c hab hbc => ?_) (fun a b => ?_) names).imp
    of_decide_eq_true
  · exact decide_eq_true (String.le_trans (of_decide_eq_true hab) (of_decide_eq_true hbc))
  · simpa using String.le_total a b

theorem mergeSort_congr {names names' : List String} (h : names.Perm names') :
    names.mergeSort = names'.mergeSort := by
  refine List.Perm.eq_of_pairwise (fun a b _ _ hab hba => String.le_antisymm hab hba)
    (sorted_mergeSort names) (sorted_mergeSort names') ?_
  exact (List.mergeSort_perm names _).trans (h.trans (List.mergeSort_perm names' _).symm)

theorem discover_eq (root : String) : (discover root : Reading _) f =
    ((((f.names? root).getD []).mergeSort.map (Path.join root)).filter
      fun dir => (isPack dir : Reading _) f).filterMap
        fun dir => ((load dir : Reading _) f).toOption := by
  rw [discover, reading_bind, reading_bind, reading_filterM, reading_filterMapM]
  rfl

/-- A directory gives the packs directly below it in the order of their names. -/
theorem discover_collects (f : Files) (root : String) :
    ∃ names : List String, names.Perm ((f.names? root).getD []) ∧ names.Pairwise (· ≤ ·) ∧
      Collects f (names.map (Path.join root)) ((discover root : Reading _) f) := by
  refine ⟨_, List.mergeSort_perm _ _, sorted_mergeSort _, ?_⟩
  rw [discover_eq]
  exact collects f _

variable {f' : Files}

theorem reading_answers (h : f.Reordered f') : (Promise.reading f').Answers f :=
  ⟨fun p => congrFun h.kind p, fun p => congrFun h.read? p⟩

/-- The order in which a directory lists its entries makes no difference. -/
theorem discover_reordered (h : f.Reordered f') (root : String) :
    (discover root : Reading _) f' = (discover root : Reading _) f := by
  have hnames : ((f'.names? root).getD []).mergeSort = ((f.names? root).getD []).mergeSort := by
    have hperm := h.names? root
    generalize f.names? root = a, f'.names? root = b at hperm
    cases hperm with
    | none => rfl
    | some hperm => exact mergeSort_congr hperm.symm
  have hpack : (fun dir => (isPack dir : Reading _) f') = fun dir => (isPack dir : Reading _) f :=
    funext fun dir => same_isPack (reading_answers h) dir
  have hload : (fun dir => ((load dir : Reading _) f').toOption) =
      fun dir => ((load dir : Reading _) f).toOption :=
    funext fun dir => congrArg Except.toOption (same_load (reading_answers h) dir)
  rw [discover_eq, discover_eq, hnames, hpack, hload]

end

end Pack

end Shader

end Segue
