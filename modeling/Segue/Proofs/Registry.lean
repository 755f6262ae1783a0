import Segue.Proofs.Basic
import Segue.Proofs.Words
import Segue.Shader.Library

/-!
# The registry as an ordered map

Whatever was registered, the three tables of a registry say the same: each engine is listed once, in
the order of the first registrations, and has the variants of its latest one, each of them with its
last definition there. A key is written as text and read back if its names have no slash and no
blanks where the text is taken apart.
-/

namespace Segue

/-! ## Keys as text -/

namespace ShaderKey

open Text

/-- The slash of the text is the first one, and trimming leaves both names as they are. -/
structure Writable (k : ShaderKey) : Prop where
  engine : Trimmed k.engine.toList
  variant : Trimmed k.variant.toList
  not_mem : '/' ∉ k.engine.toList

@[simp] theorem text_toList (k : ShaderKey) :
    k.text.toList = k.engine.toList ++ '/' :: k.variant.toList := by
  rw [text, String.toList_append, String.toList_append, List.append_assoc]
  rfl

theorem parse?_eq_some_iff {s : String} {k : ShaderKey} :
    parse? s = some k ↔ ∃ e v, (s.toList = e ++ '/' :: v ∧ '/' ∉ e) ∧
      (trimChars e ≠ [] ∧ trimChars v ≠ []) ∧
      k = ⟨String.ofList (trimChars e), String.ofList (trimChars v)⟩ := by
  simp only [← splitOnce?_eq_some_iff]
  rw [parse?]
  cases splitOnce? '/' s.toList with
  | none => simp
  | some halves =>
      obtain ⟨e, v⟩ := halves
      have hempty : ((trimChars e).isEmpty || (trimChars v).isEmpty) = true ↔
          ¬(trimChars e ≠ [] ∧ trimChars v ≠ []) := by
        simp [imp_iff_or_not, or_comm]
      dsimp only
      constructor
      · intro h
        split at h
        · cases h
        · rename_i hne
          exact ⟨e, v, rfl, not_not.mp (mt hempty.mpr hne), (Option.some.inj h).symm⟩
      · rintro ⟨e', v', heq, hne, rfl⟩
        cases heq
        rw [if_neg fun h => hempty.mp h hne]

/-- Keys that are read can be written. -/
theorem writable_of_parse? {s : String} {k : ShaderKey} (h : parse? s = some k) : k.Writable := by
  obtain ⟨e, v, ⟨-, hslash⟩, ⟨he, hv⟩, rfl⟩ := parse?_eq_some_iff.mp h
  obtain ⟨before, after, -, -, hparts⟩ := exists_trimChars e
  refine ⟨?_, ?_, ?_⟩
  · rw [String.toList_ofList]
    exact trimmed_trimChars he
  · rw [String.toList_ofList]
    exact trimmed_trimChars hv
  · rw [String.toList_ofList]
    intro hmem
    rw [hparts] at hslash
    exact hslash (by simp [hmem])

theorem parse?_text {k : ShaderKey} (h : k.Writable) : parse? k.text = some k := by
  refine parse?_eq_some_iff.mpr ⟨k.engine.toList, k.variant.toList, ?_, ?_, ?_⟩
  · exact ⟨k.text_toList, h.not_mem⟩
  · rw [h.engine.trimChars_eq, h.variant.trimChars_eq]
    exact ⟨h.engine.ne_nil, h.variant.ne_nil⟩
  · rw [h.engine.trimChars_eq, h.variant.trimChars_eq, String.ofList_toList, String.ofList_toList]

/-- A key comes back from its text exactly if it is writable, and every key that is read is. -/
theorem text_reread : (∀ e v, parse? (text ⟨e, v⟩) = some ⟨e, v⟩ ↔ Writable ⟨e, v⟩) ∧
    ∀ s k, parse? s = some k → k.Writable ∧ parse? k.text = some k := by
  constructor
  · intro e v
    exact ⟨writable_of_parse?, parse?_text⟩
  · intro s k h
    exact ⟨writable_of_parse? h, parse?_text (writable_of_parse? h)⟩

/-- Only the first slash separates, and the blanks of all scripts are trimmed. -/
theorem text_reread_spaced : parse? " Wipe\u2003/ a / b\u00a0" = some ⟨"Wipe", "a / b"⟩ ∧
    Writable ⟨"Wipe", "a / b"⟩ ∧ parse? "Wipe/a / b" = some ⟨"Wipe", "a / b"⟩ := by
  have h : parse? " Wipe\u2003/ a / b\u00a0" = some ⟨"Wipe", "a / b"⟩ := by decide +kernel
  obtain ⟨hwritable, htext⟩ := text_reread.2 _ _ h
  exact ⟨h, hwritable, htext⟩

end ShaderKey

/-! ## Tables -/

namespace Table

variable {κ β : Type} [DecidableEq κ]

@[simp] theorem get?_erase (j k : κ) (t : Table κ β) :
    (t.erase k).get? j = if j = k then none else t.get? j := by
  induction t with
  | nil => simp [erase, get?]
  | cons e rest ih =>
      obtain ⟨k', v⟩ := e
      rw [erase] at ih ⊢
      by_cases hk : k' = k
      · rw [List.filter_cons_of_neg (by simpa using hk), ih, get?]
        by_cases hj : j = k
        · rw [if_pos hj, if_pos hj]
        · rw [if_neg hj, if_neg hj, if_neg fun h => hj (h.trans hk)]
      · rw [List.filter_cons_of_pos (by simpa using hk), get?, get?, ih]
        by_cases hj : j = k'
        · rw [if_pos hj, if_pos hj, if_neg fun h => hk (hj.symm.trans h)]
        · rw [if_neg hj, if_neg hj]

@[simp] theorem get?_insert (j k : κ) (v : β) (t : Table κ β) :
    (t.insert k v).get? j = if j = k then some v else t.get? j := by
  rw [insert, get?, get?_erase]
  split <;> rfl

end Table

namespace Registry

/-! ## What was given -/

section Given

variable {κ β : Type} [DecidableEq κ]

/-- What was given last for a key. -/
def lastFor (k : κ) (given : List (κ × β)) : Option β :=
  ((given.filter fun g => g.1 = k).getLast?).map (·.2)

@[simp] theorem lastFor_concat (k j : κ) (x : β) (given : List (κ × β)) :
    lastFor k (given ++ [(j, x)]) = if j = k then some x else lastFor k given := by
  rw [lastFor, List.filter_append]
  by_cases hj : j = k
  · rw [if_pos hj, List.filter_cons_of_pos (by simpa using hj), List.filter_nil,
      List.getLast?_append, List.getLast?_singleton]
    rfl
  · rw [if_neg hj, List.filter_cons_of_neg (by simpa using hj), List.filter_nil, List.append_nil]
    rfl

@[simp] theorem isSome_lastFor {k : κ} {given : List (κ × β)} :
    (lastFor k given).isSome ↔ k ∈ given.map (·.1) := by
  induction given using List.reverseRecOn with
  | nil => simp [lastFor]
  | append_singleton given g ih =>
      rw [lastFor_concat]
      by_cases hg : g.1 = k
      · simp [hg]
      · have hk : k ≠ g.1 := fun h => hg h.symm
        rw [if_neg hg, ih]
        simp [hk]

theorem lastFor_eq_none {k : κ} {given : List (κ × β)} (h : k ∉ given.map (·.1)) :
    lastFor k given = none := by
  rw [← Option.not_isSome_iff_eq_none, isSome_lastFor]
  exact h

theorem mem_of_lastFor {k : κ} {x : β} {given : List (κ × β)} (h : lastFor k given = some x) :
    (k, x) ∈ given := by
  obtain ⟨g, hlast, rfl⟩ := Option.map_eq_some_iff.mp h
  obtain ⟨hmem, hkey⟩ := List.mem_filter.mp (List.mem_of_getLast? hlast)
  obtain rfl : g.1 = k := of_decide_eq_true hkey
  exact hmem

end Given

@[simp] theorem eraseDups_concat (xs : List String) (x : String) :
    (xs ++ [x]).eraseDups = if x ∈ xs then xs.eraseDups else xs.eraseDups ++ [x] := by
  rw [List.eraseDups_append]
  by_cases hx : x ∈ xs
  · simp [hx, List.removeAll]
  · simp [hx, List.removeAll, List.eraseDups_cons]

theorem nodup_eraseDups (xs : List String) : xs.eraseDups.Nodup := by
  induction xs using List.reverseRecOn with
  | nil => exact List.nodup_nil
  | append_singleton xs x ih =>
      rw [eraseDups_concat]
      split
      · exact ih
      · rename_i hx
        rw [← List.concat_eq_append]
        exact ih.concat fun h => hx (List.mem_eraseDups.mp h)

theorem modify_map {β : Type} {names : List String} (hnodup : names.Nodup) {i : Nat} {name : String}
    (hi : names[i]? = some name) (g : String → β) (f : β → β) :
    (names.map g).modify i f = names.map fun x => if x = name then f (g x) else g x := by
  refine List.ext_getElem? fun j => ?_
  rw [List.getElem?_modify, List.getElem?_map, List.getElem?_map]
  cases hj : names[j]? with
  | none => rfl
  | some x =>
      have hiff : i = j ↔ x = name := by
        constructor
        · rintro rfl
          exact Option.some.inj (hj.symm.trans hi)
        · rintro rfl
          have hlt := (List.getElem?_eq_some_iff.mp hi).1
          exact (List.getElem?_inj hlt hnodup).mp (hi.trans hj.symm)
      simp only [Option.map_some, Option.map_eq_map, hiff]

/-- Engines with their variants, in the order of registration. -/
abbrev Given (α : Type) := List (String × List (String × VariantDef α))

variable {α : Type}

/-- The names of the variants that were given for an engine in its latest registration. -/
def namesGiven (given : Given α) (engine : String) :
    List String :=
  (((lastFor engine given).getD []).map (·.1)).eraseDups

def definition? (given : Given α) (k : ShaderKey) :
    Option (VariantDef α) :=
  (lastFor k.engine given).bind (lastFor k.variant)

theorem isSome_definition? {given : Given α} {k : ShaderKey} :
    (definition? given k).isSome ↔ k.variant ∈ namesGiven given k.engine := by
  rw [definition?, namesGiven, List.mem_eraseDups]
  cases lastFor k.engine given with
  | none => simp
  | some list => exact isSome_lastFor

/-! ## The tables -/

/-- The tables say what was given. -/
structure Holds (r : Registry α) (given : Given α) : Prop where
  engines : r.engines = (given.map (·.1)).eraseDups.map fun e => ⟨e, namesGiven given e⟩
  places : ∀ e i, r.places.get? e = some i ↔ (given.map (·.1)).eraseDups[i]? = some e
  shaders : ∀ k, r.shaders.get? k = (definition? given k).map fun d => ⟨d, k⟩

variable {r : Registry α} {given : Given α}

theorem holds_empty : (empty : Registry α).Holds [] where
  engines := rfl
  places := fun e i => by simp [empty, Table.get?]
  shaders := fun k => rfl

theorem get?_foldl_erase (engine : String) (names : List String)
    (t : Table ShaderKey (ShaderVariant α)) (k : ShaderKey) :
    (names.foldl (fun t v => t.erase ⟨engine, v⟩) t).get? k =
      if k.engine = engine ∧ k.variant ∈ names then none else t.get? k := by
  induction names generalizing t with
  | nil => simp
  | cons v names ih =>
      rw [List.foldl_cons, ih, Table.get?_erase]
      have hkey : k = ⟨engine, v⟩ ↔ k.engine = engine ∧ k.variant = v := by
        cases k
        simp
      by_cases hengine : k.engine = engine
      · by_cases hv : k.variant = v
        · simp [hkey, hengine, hv]
        · simp [hkey, hengine, hv]
      · simp [hkey, hengine]

/-- An engine has a place, its old one or a new one at the end, and no variants there. -/
structure HasRoom (r : Registry α) (given : Given α)
    (engine : String) (i : Nat) : Prop where
  engines : r.engines = (given.map (·.1) ++ [engine]).eraseDups.map fun e =>
    ⟨e, if e = engine then [] else namesGiven given e⟩
  place : (given.map (·.1) ++ [engine]).eraseDups[i]? = some engine
  places : ∀ e j, r.places.get? e = some j ↔ (given.map (·.1) ++ [engine]).eraseDups[j]? = some e
  shaders : ∀ k, r.shaders.get? k =
    if k.engine = engine then none else (definition? given k).map fun d => ⟨d, k⟩

/-- An engine that is given again keeps its place. -/
theorem Holds.makeRoom_again (h : r.Holds given) {engine : String} {i : Nat}
    (hplace : r.places.get? engine = some i) :
    (r.makeRoom engine).2.HasRoom given engine (r.makeRoom engine).1 := by
  have hi := (h.places engine i).mp hplace
  have hmem : engine ∈ given.map (·.1) := List.mem_eraseDups.mp (List.mem_of_getElem? hi)
  have hnames : (given.map (·.1) ++ [engine]).eraseDups = (given.map (·.1)).eraseDups := by
    rw [eraseDups_concat, if_pos hmem]
  have hprevious : (r.engines[i]?.map (·.variants)).getD [] = namesGiven given engine := by
    rw [h.engines, List.getElem?_map, hi]
    rfl
  rw [Registry.makeRoom, hplace]
  constructor
  · simp only [h.engines, hnames, modify_map (nodup_eraseDups _) hi]
    refine List.map_congr_left fun e _ => ?_
    split <;> rfl
  · rw [hnames]
    exact hi
  · rw [hnames]
    exact h.places
  · intro k
    simp only [hprevious, get?_foldl_erase, h.shaders]
    by_cases hengine : k.engine = engine
    · by_cases hvariant : k.variant ∈ namesGiven given engine
      · rw [if_pos ⟨hengine, hvariant⟩, if_pos hengine]
      · have hnone : definition? given k = none := by
          rw [← Option.not_isSome_iff_eq_none, isSome_definition?, hengine]
          exact hvariant
        rw [if_neg fun hk => hvariant hk.2, if_pos hengine, hnone]
        rfl
    · rw [if_neg fun hk => hengine hk.1, if_neg hengine]

theorem Holds.makeRoom_new (h : r.Holds given) {engine : String}
    (hplace : r.places.get? engine = none) :
    (r.makeRoom engine).2.HasRoom given engine (r.makeRoom engine).1 := by
  have hmem : engine ∉ given.map (·.1) := by
    intro hmem
    obtain ⟨i, hi⟩ := List.getElem?_of_mem (List.mem_eraseDups.mpr hmem)
    exact absurd ((h.places engine i).mpr hi) (by simp [hplace])
  have hnames : (given.map (·.1) ++ [engine]).eraseDups =
      (given.map (·.1)).eraseDups ++ [engine] := by
    rw [eraseDups_concat, if_neg hmem]
  have hlength : r.engines.length = (given.map (·.1)).eraseDups.length := by
    rw [h.engines, List.length_map]
  have hne : ∀ e ∈ (given.map (·.1)).eraseDups, e ≠ engine := fun e he heq =>
    hmem (heq ▸ List.mem_eraseDups.mp he)
  rw [Registry.makeRoom, hplace]
  constructor
  · rw [hnames, List.map_append, List.map_singleton, if_pos rfl]
    simp only [h.engines]
    congr 1
    exact List.map_congr_left fun e he => by rw [if_neg (hne e he)]
  · simp only [hnames, hlength, List.getElem?_concat_length]
  · intro e j
    simp only [Table.get?_insert, hnames, hlength]
    rw [getElem?_append_eq_some]
    by_cases he : e = engine
    · have hmissing : (given.map (·.1)).eraseDups[j]? ≠ some e := fun hj =>
        hne e (List.mem_of_getElem? hj) he
      simp only [he, if_true, Option.some.injEq, and_true, he ▸ hmissing, and_false, or_false,
        eq_comm]
    · rw [if_neg he, h.places]
      constructor
      · intro hj
        exact .inr ⟨Nat.ne_of_lt (List.getElem?_eq_some_iff.mp hj).1, hj⟩
      · rintro (⟨-, hj⟩ | ⟨-, hj⟩)
        · exact absurd hj he
        · exact hj
  · intro k
    by_cases hengine : k.engine = engine
    · have hnone : definition? given k = none := by
        rw [definition?, hengine, lastFor_eq_none hmem, Option.bind_none]
      rw [if_pos hengine]
      exact (h.shaders k).trans (by rw [hnone, Option.map_none])
    · rw [if_neg hengine]
      exact h.shaders k

theorem Holds.makeRoom (h : r.Holds given) (engine : String) :
    (r.makeRoom engine).2.HasRoom given engine (r.makeRoom engine).1 := by
  cases hplace : r.places.get? engine with
  | some i => exact h.makeRoom_again hplace
  | none => exact h.makeRoom_new hplace

/-- Listing keeps the names in the order of their first occurrence, each with its last
definition. -/
theorem foldl_add (engine : String) (list : List (String × VariantDef α))
    (t : Table ShaderKey (ShaderVariant α)) :
    (list.foldl (Listing.add engine) ⟨[], t⟩).names = (list.map (·.1)).eraseDups ∧
      ∀ k, (list.foldl (Listing.add engine) ⟨[], t⟩).shaders.get? k =
        if k.engine = engine
          then ((lastFor k.variant list).map fun d => ⟨d, k⟩).or (t.get? k) else t.get? k := by
  induction list using List.reverseRecOn with
  | nil =>
      refine ⟨rfl, fun k => ?_⟩
      split <;> rfl
  | append_singleton list v ih =>
      obtain ⟨name, d⟩ := v
      obtain ⟨hnames, hshaders⟩ := ih
      rw [List.foldl_append, List.foldl_cons, List.foldl_nil]
      constructor
      · rw [List.map_append, List.map_singleton, eraseDups_concat]
        simp only [Listing.add, hnames, List.contains_iff_mem, List.mem_eraseDups]
      · intro k
        obtain ⟨e, v⟩ := k
        simp only [Listing.add, Table.get?_insert, hshaders, lastFor_concat, ShaderKey.mk.injEq]
        by_cases he : e = engine
        · by_cases hv : v = name
          · simp [he, hv]
          · have hv' : name ≠ v := fun h => hv h.symm
            simp [he, hv, hv']
        · simp [he]

theorem Holds.register (h : r.Holds given) (engine : String) (list : List (String × VariantDef α)) :
    (r.register engine list).Holds (given ++ [(engine, list)]) := by
  have hroom := h.makeRoom engine
  have hlisted := foldl_add engine list (r.makeRoom engine).2.shaders
  have hlatest : ∀ e, lastFor e (given ++ [(engine, list)]) =
      if engine = e then some list else lastFor e given :=
    fun e => lastFor_concat e engine list given
  rw [Registry.register]
  constructor
  · simp only [hroom.engines, modify_map (nodup_eraseDups _) hroom.place, hlisted.1,
      List.map_append, List.map_singleton]
    refine List.map_congr_left fun e _ => ?_
    by_cases he : e = engine
    · simp [he, namesGiven, hlatest]
    · have he' : engine ≠ e := fun h => he h.symm
      simp [he, he', namesGiven, hlatest]
  · simpa using hroom.places
  · intro k
    simp only [hlisted.2, hroom.shaders, definition?, hlatest]
    by_cases he : k.engine = engine
    · simp [he]
    · have he' : engine ≠ k.engine := fun h => he h.symm
      simp [he, he']

theorem Holds.foldl (h : r.Holds given) (more : Given α) :
    (more.foldl (fun r e => r.register e.1 e.2) r).Holds (given ++ more) := by
  induction more using List.reverseRecOn with
  | nil => rwa [List.append_nil]
  | append_singleton more e ih =>
      rw [List.foldl_append, ← List.append_assoc]
      exact ih.register e.1 e.2

/-! ## Lookups -/

namespace Holds

theorem mem_given_iff (h : r.Holds given) {e : String} :
    e ∈ given.map (·.1) ↔ ∃ i, r.places.get? e = some i := by
  simp only [h.places]
  rw [← List.mem_eraseDups, List.mem_iff_getElem?]

theorem engineNames (h : r.Holds given) : r.engineNames = (given.map (·.1)).eraseDups := by
  rw [Registry.engineNames, h.engines, List.map_map]
  exact List.map_id _

theorem variants (h : r.Holds given) (e : String) : r.variants e = namesGiven given e := by
  rw [Registry.variants]
  cases hplace : r.places.get? e with
  | some i =>
      have hi := (h.places e i).mp hplace
      simp only [h.engines, List.getElem?_map, hi]
      rfl
  | none =>
      have hmem : e ∉ given.map (·.1) := by
        rw [h.mem_given_iff, hplace]
        simp
      rw [namesGiven, lastFor_eq_none hmem]
      rfl

theorem isSome_get? (h : r.Holds given) (k : ShaderKey) :
    (r.get? k).isSome ↔ k.variant ∈ namesGiven given k.engine := by
  rw [Registry.get?, h.shaders, Option.isSome_map, isSome_definition?]

/-- The keys of all variants, engine by engine. -/
def keys (r : Registry α) : List ShaderKey :=
  r.engines.flatMap fun e => e.variants.map fun v => ⟨e.name, v⟩

@[simp] theorem length_keys (r : Registry α) : (keys r).length = r.variantCount := by
  have hsum : ∀ (es : List Shader.Engine) (n : Nat),
      es.foldl (fun n e => n + e.variants.length) n =
        n + (es.flatMap fun e => e.variants.map fun v => (⟨e.name, v⟩ : ShaderKey)).length := by
    intro es
    induction es with
    | nil => intro n; rfl
    | cons e es ih =>
        intro n
        rw [List.foldl_cons, ih, List.flatMap_cons, List.length_append, List.length_map,
          Nat.add_assoc]
  rw [variantCount, hsum, Nat.zero_add, keys]

theorem mem_keys (h : r.Holds given) {k : ShaderKey} : k ∈ keys r ↔ (r.get? k).isSome := by
  rw [h.isSome_get?, keys, h.engines, List.flatMap_map, List.mem_flatMap]
  obtain ⟨engine, variant⟩ := k
  constructor
  · rintro ⟨e, _, hv⟩
    obtain ⟨v, hv, heq⟩ := List.mem_map.mp hv
    cases heq
    exact hv
  · intro hv
    have hsome : (definition? given ⟨engine, variant⟩).isSome := isSome_definition?.mpr hv
    have hlist : (lastFor engine given).isSome := Option.isSome_of_isSome_bind hsome
    exact ⟨engine, List.mem_eraseDups.mpr (isSome_lastFor.mp hlist), List.mem_map_of_mem hv⟩

theorem nodup_keys (h : r.Holds given) : (keys r).Nodup := by
  rw [keys, h.engines, List.flatMap_map, List.nodup_flatMap]
  constructor
  · intro e _
    refine (nodup_eraseDups _).map ?_
    intro v w hvw
    exact (ShaderKey.mk.inj hvw).2
  · refine (nodup_eraseDups _).imp ?_
    intro e e' hne k hk hk'
    obtain ⟨v, _, rfl⟩ := List.mem_map.mp hk
    obtain ⟨w, _, heq⟩ := List.mem_map.mp hk'
    exact hne (ShaderKey.mk.inj heq).1.symm

theorem encard_keys (h : r.Holds given) :
    {k : ShaderKey | (r.get? k).isSome}.encard = r.variantCount := by
  have hset : {k : ShaderKey | (r.get? k).isSome} = ((keys r).toFinset : Set ShaderKey) := by
    ext k
    simp [← h.mem_keys]
  rw [hset, Set.encard_coe_eq_coe_finsetCard, List.toFinset_card_of_nodup h.nodup_keys, length_keys]

end Holds

/-- The registry reads as an ordered map of ordered maps. -/
structure Mirrors (r : Registry α) (given : Given α) : Prop where
  engineNames : r.engineNames = (given.map (·.1)).eraseDups
  place : ∀ e i, r.places.get? e = some i ↔ r.engineNames[i]? = some e
  hasEngine : ∀ e, r.hasEngine e = true ↔ e ∈ given.map (·.1)
  variants : ∀ e, r.variants e = (((lastFor e given).getD []).map (·.1)).eraseDups
  get? : ∀ e v, r.get? ⟨e, v⟩ = ((lastFor e given).bind (lastFor v)).map fun d => ⟨d, ⟨e, v⟩⟩
  hasVariant : ∀ e v, r.hasVariant ⟨e, v⟩ = true ↔ v ∈ r.variants e
  variantCount : {k : ShaderKey | (r.get? k).isSome}.encard = r.variantCount

theorem Holds.mirrors (h : r.Holds given) : r.Mirrors given where
  engineNames := h.engineNames
  place := by
    rw [h.engineNames]
    exact h.places
  hasEngine := fun e => by rw [h.mem_given_iff, hasEngine, Option.isSome_iff_exists]
  variants := h.variants
  get? := fun e v => h.shaders ⟨e, v⟩
  hasVariant := fun e v => by
    rw [h.variants]
    exact h.isSome_get? ⟨e, v⟩
  variantCount := h.encard_keys

/-- Two registries say the same of an engine. -/
structure Agrees (r r' : Registry α) (engine : String) : Prop where
  place : r'.places.get? engine = r.places.get? engine
  variants : r'.variants engine = r.variants engine
  get? : ∀ v, r'.get? ⟨engine, v⟩ = r.get? ⟨engine, v⟩

theorem eraseDups_prefix (xs ys : List String) : xs.eraseDups <+: (xs ++ ys).eraseDups := by
  rw [List.eraseDups_append]
  exact List.prefix_append _ _

theorem lastFor_concat_of_ne {e engine : String} (hne : e ≠ engine)
    (list : List (String × VariantDef α)) :
    lastFor e (given ++ [(engine, list)]) = lastFor e given := by
  rw [lastFor_concat, if_neg fun h => hne h.symm]

theorem Holds.agrees (h : r.Holds given) {e engine : String} (hne : e ≠ engine)
    (list : List (String × VariantDef α)) : r.Agrees (r.register engine list) e := by
  have hnew := h.register engine list
  constructor
  · have hnames : ∀ i, (r.register engine list).places.get? e = some i ↔
        r.places.get? e = some i := by
      intro i
      rw [hnew.places, h.places, List.map_append, List.map_singleton, eraseDups_concat]
      split
      · rfl
      · rw [getElem?_append_eq_some]
        constructor
        · rintro (⟨-, heq⟩ | ⟨-, hi⟩)
          · exact absurd heq hne
          · exact hi
        · intro hi
          exact .inr ⟨Nat.ne_of_lt (List.getElem?_eq_some_iff.mp hi).1, hi⟩
    exact Option.ext hnames
  · rw [hnew.variants, h.variants, namesGiven, lastFor_concat_of_ne hne, ← namesGiven]
  · intro v
    have hsame : definition? (given ++ [(engine, list)]) ⟨e, v⟩ = definition? given ⟨e, v⟩ := by
      rw [definition?, definition?, lastFor_concat_of_ne hne]
    rw [Registry.get?, hnew.shaders, hsame, ← h.shaders, ← Registry.get?]

/-! ## Runs -/

inductive Call (α : Type) where
  | register (engine : String) (list : List (String × VariantDef α))
  | builtin

variable [Scalar α]

def Call.apply (r : Registry α) : Call α → Registry α
  | .register engine list => r.register engine list
  | .builtin => Shader.Library.registerAll r

def Call.lists : Call α → Given α
  | .register engine list => [(engine, list)]
  | .builtin => Shader.Library.engines

def run (calls : List (Call α)) : Registry α := calls.foldl Call.apply .empty

theorem holds_run (calls : List (Call α)) : (run calls).Holds (calls.flatMap Call.lists) := by
  induction calls using List.reverseRecOn with
  | nil => exact holds_empty
  | append_singleton calls c ih =>
      rw [run, List.foldl_append, List.flatMap_append, List.flatMap_singleton]
      cases c with
      | register engine list => exact ih.register engine list
      | builtin =>
          simp only [List.foldl_cons, List.foldl_nil, Call.apply, Call.lists,
            Shader.Library.registerAll]
          exact ih.foldl Shader.Library.engines

/-- After any calls a registry is the ordered map of ordered maps of what they gave, each engine
keeps its place, and registering one engine makes no difference to the others. -/
theorem mirrors_run (calls : List (Call α)) :
    (run calls).Mirrors (calls.flatMap Call.lists) ∧
      (∀ more, (run calls).engineNames <+: (run (calls ++ more)).engineNames) ∧
      ∀ engine list e, e ≠ engine → (run calls).Agrees ((run calls).register engine list) e := by
  have hholds := holds_run calls
  refine ⟨hholds.mirrors, ?_, ?_⟩
  · intro more
    rw [hholds.engineNames, (holds_run (calls ++ more)).engineNames, List.flatMap_append,
      List.map_append]
    exact eraseDups_prefix _ _
  · intro engine list e hne
    exact hholds.agrees hne list

end Registry

end Segue
