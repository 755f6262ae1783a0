import Mathlib
import Segue.Proofs.Basic
import Segue.Toml.Document
import Segue.Toml.Basic

/-!
# What is read from TOML

The integers of a document have 64 bits with a sign. Scalars are checked when they are read; arrays,
tables and sections only move the values that they hold. What every field of a record preserves, the
whole record preserves.
-/

namespace Segue.Toml

/-- All integers in a value have 64 bits. -/
inductive Fits : Toml → Prop where
  | str (s : String) : Fits (.str s)
  | int {n : Int} : isWord n = true → Fits (.int n)
  | float (x : Float) : Fits (.float x)
  | bool (b : Bool) : Fits (.bool b)
  | time : Fits .time
  | arr {vs : List Toml} : (∀ v ∈ vs, Fits v) → Fits (.arr vs)
  | table {es : List (String × Toml)} : (∀ e ∈ es, Fits e.2) → Fits (.table es)

inductive Node.Fits : Node → Prop where
  | value {v : Toml} : Toml.Fits v → Node.Fits (.value v)
  | table {implied dotted : Bool} {es : Entries} :
      (∀ e ∈ es, Node.Fits e.2) → Node.Fits (.table implied dotted es)
  | tables {items : List Entries} :
      (∀ es ∈ items, ∀ e ∈ es, Node.Fits e.2) → Node.Fits (.tables items)

/-- All values in a table under construction fit. -/
def Entries.Fit (es : Entries) : Prop := ∀ e ∈ es, e.2.Fits

/-! ## Tables -/

theorem Entries.fit_nil : Entries.Fit [] := fun _ he => absurd he List.not_mem_nil

theorem Entries.Fit.get? {es : Entries} (h : es.Fit) {k : String} {v : Node}
    (hv : Entries.get? k es = some v) : v.Fits := by
  induction es with
  | nil => cases hv
  | cons e es ih =>
      obtain ⟨l, w⟩ := e
      obtain ⟨hw, hes⟩ := List.forall_mem_cons.mp h
      rw [Entries.get?] at hv
      split at hv
      · cases hv
        exact hw
      · exact ih hes hv

theorem Entries.Fit.set {es : Entries} (h : es.Fit) (k : String) {v : Node} (hv : v.Fits) :
    (Entries.set k v es).Fit := by
  induction es with
  | nil => exact List.forall_mem_cons.mpr ⟨hv, fit_nil⟩
  | cons e es ih =>
      obtain ⟨l, w⟩ := e
      obtain ⟨hw, hes⟩ := List.forall_mem_cons.mp h
      rw [Entries.set]
      split
      · exact List.forall_mem_cons.mpr ⟨hv, hes⟩
      · exact List.forall_mem_cons.mpr ⟨hw, ih hes⟩

theorem Entries.Fit.erase {es : Entries} (h : es.Fit) (k : String) : (Entries.erase k es).Fit :=
  fun e he => h e (List.mem_of_mem_filter he)

theorem Entries.Fit.change? {dotted : Bool} {change : Bool → Entries → Option Entries}
    (hchange : ∀ atDotted es es', Entries.Fit es → change atDotted es = some es' → es'.Fit)
    {path : List String} {atDotted : Bool} {es es' : Entries} (h : es.Fit)
    (hread : Toml.change? dotted change path atDotted es = some es') : es'.Fit := by
  induction path generalizing atDotted es es' with
  | nil => exact hchange atDotted es es' h hread
  | cons k ks ih =>
      rw [Toml.change?.eq_def] at hread
      dsimp only at hread
      split at hread
      · obtain ⟨inner, hinner, hread⟩ := Option.bind_eq_some_iff.mp hread
        cases hread
        exact h.set k (.table (ih fit_nil hinner))
      · rename_i hk
        split at hread
        · cases hread
        · obtain ⟨inner, hinner, hread⟩ := Option.bind_eq_some_iff.mp hread
          cases hread
          cases h.get? hk with
          | table hes => exact h.set k (.table (ih hes hinner))
      · rename_i items hk
        split at hread
        · cases hread
        · rename_i last before hitems
          obtain ⟨inner, hinner, hread⟩ := Option.bind_eq_some_iff.mp hread
          cases hread
          cases h.get? hk with
          | tables hall =>
              have hmem : ∀ es ∈ last :: before, Entries.Fit es := by
                intro es hes
                rw [← hitems, List.mem_reverse] at hes
                exact hall es hes
              obtain ⟨hlast, hbefore⟩ := List.forall_mem_cons.mp hmem
              refine h.set k (.tables fun es hes => ?_)
              rcases List.mem_cons.mp (List.mem_reverse.mp hes) with rfl | hes
              · exact ih hlast hinner
              · exact hbefore es hes
      · cases hread

theorem Entries.Fit.assign? {es es' : Entries} (h : es.Fit) {path : List String} {v : Toml}
    (hv : Toml.Fits v) (hread : Toml.assign? path v es = some es') : es'.Fit := by
  unfold Toml.assign? at hread
  split at hread
  · cases hread
  · refine h.change? (fun atDotted es es' hes hset => ?_) hread
    split at hset
    · cases hset
    · cases hset
      exact hes.set _ (.value hv)

theorem Node.Fits.toToml {v : Node} (h : v.Fits) : Toml.Fits v.toToml := by
  have hentries : ∀ es : Entries, (∀ e ∈ es, Toml.Fits e.2.toToml) →
      ∀ e ∈ entriesToToml es, Toml.Fits e.2 := by
    intro es hes
    induction es with
    | nil => exact fun _ he => absurd he List.not_mem_nil
    | cons e es ih =>
        obtain ⟨he, hes⟩ := List.forall_mem_cons.mp hes
        exact List.forall_mem_cons.mpr ⟨he, ih hes⟩
  have hitems : ∀ items : List Entries, (∀ es ∈ items, ∀ e ∈ es, Toml.Fits e.2.toToml) →
      ∀ v ∈ itemsToToml items, Toml.Fits v := by
    intro items hall
    induction items with
    | nil => exact fun _ hv => absurd hv List.not_mem_nil
    | cons es items ih =>
        obtain ⟨hes, hall⟩ := List.forall_mem_cons.mp hall
        exact List.forall_mem_cons.mpr ⟨.table (hentries es hes), ih hall⟩
  induction h with
  | value hv => exact hv
  | table _ ih => exact .table (hentries _ ih)
  | tables _ ih => exact .arr (hitems _ ih)

theorem Entries.Fit.toToml {es : Entries} (h : es.Fit) : ∀ e ∈ entriesToToml es, Toml.Fits e.2 := by
  have htable : Toml.Fits (Node.table false false es).toToml := Node.Fits.toToml (.table h)
  cases htable with
  | table hes => exact hes

/-! ## Values -/

theorem fits_of_isWord {n : Int} {left rest : List Char} {v : Toml}
    (h : (if isWord n then some (Toml.int n, left) else none) = some (v, rest)) : Fits v := by
  split at h
  · rename_i hword
    cases h
    exact .int hword
  · cases h

theorem fits_of_decimal? {cs rest : List Char} {v : Toml} (h : decimal? cs = some (v, rest)) :
    Fits v := by
  unfold decimal? at h
  dsimp only at h
  split at h
  · cases h
    exact .float _
  · cases h
    exact .float _
  · obtain ⟨⟨ds, left⟩, -, h⟩ := Option.bind_eq_some_iff.mp h
    obtain ⟨⟨part, left⟩, -, h⟩ := Option.bind_eq_some_iff.mp h
    obtain ⟨⟨e, left⟩, -, h⟩ := Option.bind_eq_some_iff.mp h
    dsimp only at h
    split at h
    · exact fits_of_isWord h
    · split at h
      · cases h
        exact .float _
      · split at h
        · cases h
        · cases h
          exact .float _

theorem fits_of_basedInt? {cs rest : List Char} {v : Toml} (h : basedInt? cs = some (v, rest)) :
    Fits v := by
  have hdigits : ∀ (base : Nat) (isDigit : Char → Bool) (left : List Char),
      ((digits? isDigit left).bind fun p => if isWord (ofBase base p.1) then
        some (Toml.int (ofBase base p.1), p.2) else none) = some (v, rest) → Fits v := by
    intro base isDigit left h
    obtain ⟨⟨ds, left⟩, -, h⟩ := Option.bind_eq_some_iff.mp h
    exact fits_of_isWord h
  unfold basedInt? at h
  dsimp only at h
  split at h
  · exact hdigits _ _ _ h
  · exact hdigits _ _ _ h
  · exact hdigits _ _ _ h
  · cases h

theorem fits_of_time? {cs rest : List Char} {v : Toml} (h : time? cs = some (v, rest)) :
    Fits v := by
  unfold time? at h
  split at h
  · obtain ⟨left, -, h⟩ := Option.map_eq_some_iff.mp h
    cases h
    exact .time
  · split at h
    · split at h
      · obtain ⟨left, -, h⟩ := Option.bind_eq_some_iff.mp h
        obtain ⟨left, -, h⟩ := Option.bind_eq_some_iff.mp h
        cases h
        exact .time
      · cases h
        exact .time
    · cases h
      exact .time

theorem fits_of_scalar? {cs rest : List Char} {v : Toml} (h : scalar? cs = some (v, rest)) :
    Fits v := by
  unfold scalar? at h
  split at h
  · cases h
  · split at h
    · obtain ⟨⟨s, left⟩, -, h⟩ := Option.map_eq_some_iff.mp h
      cases h
      exact .str s
    · split at h
      · obtain ⟨left, -, h⟩ := Option.map_eq_some_iff.mp h
        cases h
        exact .bool true
      · split at h
        · obtain ⟨left, -, h⟩ := Option.map_eq_some_iff.mp h
          cases h
          exact .bool false
        · split at h
          · exact fits_of_time? h
          · split at h
            · rename_i hbased
              cases h
              exact fits_of_basedInt? hbased
            · exact fits_of_decimal? h

def ReadsFit (item : Scan Toml) : Prop := ∀ cs v rest, item cs = some (v, rest) → Fits v

theorem fits_of_arrayFrom? {item : Scan Toml} (hitem : ReadsFit item) {n : Nat}
    {cs rest : List Char} {vs : List Toml} (h : arrayFrom? item n cs = some (vs, rest)) :
    ∀ v ∈ vs, Fits v := by
  induction n generalizing cs vs rest with
  | zero => cases h
  | succ n ih =>
      rw [arrayFrom?] at h
      split at h
      · cases h
        exact fun _ hv => absurd hv List.not_mem_nil
      · obtain ⟨⟨v, left⟩, hv, h⟩ := Option.bind_eq_some_iff.mp h
        dsimp only at h
        split at h
        · obtain ⟨⟨vs', left'⟩, hvs, h⟩ := Option.bind_eq_some_iff.mp h
          cases h
          exact List.forall_mem_cons.mpr ⟨hitem _ _ _ hv, ih hvs⟩
        · cases h
          exact List.forall_mem_cons.mpr
            ⟨hitem _ _ _ hv, fun _ hv => absurd hv List.not_mem_nil⟩
        · cases h

theorem fit_of_inlineFrom? {item : Scan Toml} (hitem : ReadsFit item) {n : Nat}
    {cs rest : List Char} {es es' : Entries} (hes : es.Fit)
    (h : inlineFrom? item n es cs = some (es', rest)) : es'.Fit := by
  induction n generalizing cs es es' rest with
  | zero => cases h
  | succ n ih =>
      rw [inlineFrom?] at h
      obtain ⟨⟨path, left⟩, -, h⟩ := Option.bind_eq_some_iff.mp h
      obtain ⟨left, -, h⟩ := Option.bind_eq_some_iff.mp h
      obtain ⟨⟨v, left⟩, hv, h⟩ := Option.bind_eq_some_iff.mp h
      obtain ⟨es₁, hassign, h⟩ := Option.bind_eq_some_iff.mp h
      have hes₁ : es₁.Fit := hes.assign? (hitem _ _ _ hv) hassign
      split at h
      · exact ih hes₁ h
      · cases h
        exact hes₁
      · cases h

theorem readsFit_value? (d : Nat) : ReadsFit (value? d) := by
  induction d with
  | zero =>
      intro cs v rest h
      rw [value?.eq_def] at h
      dsimp only at h
      split at h
      · cases h
      · cases h
      · exact fits_of_scalar? h
  | succ d ih =>
      intro cs v rest h
      rw [value?.eq_def] at h
      dsimp only at h
      split at h
      · obtain ⟨⟨vs, left⟩, hvs, h⟩ := Option.map_eq_some_iff.mp h
        cases h
        exact .arr (fits_of_arrayFrom? ih hvs)
      · split at h
        · cases h
          exact .table fun _ he => absurd he List.not_mem_nil
        · obtain ⟨⟨es, left⟩, hes, h⟩ := Option.map_eq_some_iff.mp h
          cases h
          exact .table (fit_of_inlineFrom? ih Entries.fit_nil hes).toToml
      · exact fits_of_scalar? h

/-! ## Documents -/

def Line.Fits : Line → Prop
  | .assign _ v => Toml.Fits v
  | _ => True

theorem fits_of_line? {cs rest : List Char} {l : Line} (h : line? cs = some (l, rest)) :
    l.Fits := by
  unfold line? at h
  split at h
  · obtain ⟨⟨path, left⟩, -, h⟩ := Option.bind_eq_some_iff.mp h
    obtain ⟨left, -, h⟩ := Option.bind_eq_some_iff.mp h
    obtain ⟨left, -, h⟩ := Option.bind_eq_some_iff.mp h
    obtain ⟨left, -, h⟩ := Option.bind_eq_some_iff.mp h
    cases h
    trivial
  · obtain ⟨⟨path, left⟩, -, h⟩ := Option.bind_eq_some_iff.mp h
    obtain ⟨left, -, h⟩ := Option.bind_eq_some_iff.mp h
    obtain ⟨left, -, h⟩ := Option.bind_eq_some_iff.mp h
    cases h
    trivial
  · cases h
    trivial
  · split at h
    · obtain ⟨left, -, h⟩ := Option.map_eq_some_iff.mp h
      cases h
      trivial
    · obtain ⟨⟨path, left⟩, -, h⟩ := Option.bind_eq_some_iff.mp h
      obtain ⟨left, -, h⟩ := Option.bind_eq_some_iff.mp h
      obtain ⟨⟨v, left⟩, hv, h⟩ := Option.bind_eq_some_iff.mp h
      obtain ⟨left, -, h⟩ := Option.bind_eq_some_iff.mp h
      cases h
      exact readsFit_value? _ _ _ _ hv

theorem fits_of_lines? {n : Nat} {cs : List Char} {ls : List Line} (h : lines? n cs = some ls) :
    ∀ l ∈ ls, l.Fits := by
  induction n generalizing cs ls with
  | zero => cases h
  | succ n ih =>
      rw [lines?] at h
      split at h
      · cases h
        exact fun _ hl => absurd hl List.not_mem_nil
      · obtain ⟨⟨l, left⟩, hl, h⟩ := Option.bind_eq_some_iff.mp h
        obtain ⟨ls', hls, rfl⟩ := Option.map_eq_some_iff.mp h
        exact List.forall_mem_cons.mpr ⟨fits_of_line? hl, ih hls⟩

/-- All values of a document under construction fit. -/
structure Draft.Fits (d : Draft) : Prop where
  root : d.root.Fit
  entries : d.entries.Fit

theorem Draft.Fits.close? {d : Draft} (h : d.Fits) {root : Entries}
    (hclose : d.close? = some root) : root.Fit := by
  unfold Draft.close? at hclose
  split at hclose
  · cases hclose
    exact h.entries
  · refine h.root.change? (fun _ es es' hes hset => ?_) hclose
    split at hset
    · rename_i items hk
      split at hset
      · cases hset
        cases hes.get? hk with
        | tables hall =>
            refine hes.set _ (.tables fun es hmem => ?_)
            rcases List.mem_append.mp hmem with hmem | hmem
            · exact hall es hmem
            · rw [List.mem_singleton.mp hmem]
              exact h.entries
      · cases hset
    · split at hset
      · cases hset
      · cases hset
        exact hes.set _ (.table h.entries)
    · cases hset
    · cases hset
      exact hes.set _ (.table h.entries)

theorem Entries.Fit.lookup? {es es' : Entries} (h : es.Fit) {path : List String}
    (hfind : Draft.openTable?.lookup? path es = some es') : es'.Fit := by
  induction path generalizing es with
  | nil =>
      cases hfind
      exact h
  | cons k ks ih =>
      rw [Draft.openTable?.lookup?] at hfind
      split at hfind
      · rename_i hk
        cases h.get? hk with
        | table hes => exact ih hes hfind
      · rename_i items hk
        obtain ⟨last, hlast, hfind⟩ := Option.bind_eq_some_iff.mp hfind
        cases h.get? hk with
        | tables hall => exact ih (hall last (List.mem_of_getLast? hlast)) hfind
      · cases hfind

theorem Draft.Fits.openTable? {d d' : Draft} (h : d.Fits) {path : List String}
    (hopen : d.openTable? path = some d') : d'.Fits := by
  unfold Draft.openTable? at hopen
  obtain ⟨root, hclose, hopen⟩ := Option.bind_eq_some_iff.mp hopen
  have hroot := h.close? hclose
  split at hopen
  · cases hopen
  · rename_i k front _
    obtain ⟨root', hchange, hopen⟩ := Option.bind_eq_some_iff.mp hopen
    cases hopen
    refine ⟨hroot.change? (fun _ es es' hes hset => ?_) hchange, ?_⟩
    · obtain ⟨_, -, rfl⟩ := Option.map_eq_some_iff.mp hset
      exact hes.erase k
    · -- what an implied table held already was found in the closed document
      dsimp only
      split
      · rename_i hheld
        obtain ⟨es, hes, hk⟩ := Option.bind_eq_some_iff.mp hheld
        cases (hroot.lookup? hes).get? hk with
        | table hinner => exact hinner
      · exact Entries.fit_nil

theorem Draft.Fits.openItem? {d d' : Draft} (h : d.Fits) {path : List String}
    (hopen : d.openItem? path = some d') : d'.Fits := by
  unfold Draft.openItem? at hopen
  obtain ⟨root, hclose, hopen⟩ := Option.bind_eq_some_iff.mp hopen
  split at hopen
  · cases hopen
  · obtain ⟨root', hchange, hopen⟩ := Option.bind_eq_some_iff.mp hopen
    cases hopen
    refine ⟨(h.close? hclose).change? (fun _ es es' hes hset => ?_) hchange, Entries.fit_nil⟩
    split at hset
    · cases hset
      exact hes.set _ (.tables fun _ hmem => absurd hmem List.not_mem_nil)
    · cases hset
      exact hes
    · cases hset

theorem Draft.Fits.add? {d d' : Draft} (h : d.Fits) {l : Line} (hl : l.Fits)
    (hadd : d.add? l = some d') : d'.Fits := by
  cases l with
  | blank =>
      cases hadd
      exact h
  | table path => exact h.openTable? hadd
  | tables path => exact h.openItem? hadd
  | assign path v =>
      obtain ⟨es, hassign, rfl⟩ := Option.map_eq_some_iff.mp hadd
      exact ⟨h.root, h.entries.assign? hl hassign⟩

theorem Draft.Fits.foldlM {ls : List Line} (hls : ∀ l ∈ ls, l.Fits) {d d' : Draft} (h : d.Fits)
    (hfold : ls.foldlM Draft.add? d = some d') : d'.Fits := by
  induction ls generalizing d with
  | nil =>
      cases hfold
      exact h
  | cons l ls ih =>
      obtain ⟨hl, hls⟩ := List.forall_mem_cons.mp hls
      rw [List.foldlM_cons] at hfold
      obtain ⟨d₁, hadd, hfold⟩ := Option.bind_eq_some_iff.mp hfold
      exact ih hls (h.add? hl hadd) hfold

theorem fits_of_parse? {text : String} {es : List (String × Toml)} (h : parse? text = some es) :
    ∀ e ∈ es, Fits e.2 := by
  unfold parse? at h
  obtain ⟨ls, hls, h⟩ := Option.bind_eq_some_iff.mp h
  obtain ⟨d, hfold, h⟩ := Option.bind_eq_some_iff.mp h
  obtain ⟨root, hclose, h⟩ := Option.bind_eq_some_iff.mp h
  cases h
  have hstart : Draft.Fits ⟨[], [], false, []⟩ := ⟨Entries.fit_nil, Entries.fit_nil⟩
  exact ((hstart.foldlM (fits_of_lines? hls) hfold).close? hclose).toToml

/-! ## Records -/

section Records

variable {ε σ τ : Type} {P : σ → Prop}

/-- What every field preserves whose value fits. -/
def FieldsPreserve (P : σ → Prop) (fs : List (FieldReader ε σ)) : Prop :=
  ∀ f ∈ fs, ∀ s v s', P s → Fits v → f.read s v = .ok s' → P s'

theorem fieldsPreserve_nil : FieldsPreserve P ([] : List (FieldReader ε σ)) :=
  fun _ hf => absurd hf List.not_mem_nil

theorem FieldsPreserve.cons {fs : List (FieldReader ε σ)} {name : String}
    {r : Toml → Except (Misfit ε) τ} {set : σ → τ → σ}
    (h : ∀ s v x, P s → Fits v → r v = .ok x → P (set s x)) (htail : FieldsPreserve P fs) :
    FieldsPreserve P (.of name r set :: fs) := by
  intro f hf s v s' hs hv hread
  rcases List.mem_cons.mp hf with rfl | hf
  · obtain ⟨x, hx, rfl⟩ : ∃ x, r v = .ok x ∧ set s x = s' := by
      dsimp only [FieldReader.of] at hread
      cases hx : r v with
      | error e =>
          rw [hx] at hread
          cases hread
      | ok x =>
          rw [hx] at hread
          exact ⟨x, rfl, Except.ok.inj hread⟩
    exact h s v x hs hv hx
  · exact htail f hf s v s' hs hv hread

theorem readEntries_preserves {fs : List (FieldReader ε σ)} (hfs : FieldsPreserve P fs)
    {init s : σ} {es : List (String × Toml)} (hes : ∀ e ∈ es, Fits e.2)
    (h : readEntries fs init es = .ok s) (hinit : P init) : P s := by
  unfold readEntries at h
  induction es generalizing init with
  | nil =>
      cases h
      exact hinit
  | cons e es ih =>
      obtain ⟨k, v⟩ := e
      obtain ⟨hv, hes⟩ := List.forall_mem_cons.mp hes
      rw [List.foldlM_cons] at h
      obtain ⟨t, ht, h⟩ := bind_eq_ok.mp h
      refine ih hes h ?_
      dsimp only at ht
      split at ht
      · rename_i f hf
        exact hfs f (List.mem_of_find?_eq_some hf) init v t hinit hv ht
      · cases ht
        exact hinit

theorem record_preserves {fs : List (FieldReader ε σ)} (hfs : FieldsPreserve P fs)
    {init s : σ} {v : Toml} (hv : Fits v) (h : record fs init v = .ok s) (hinit : P init) :
    P s := by
  cases hv with
  | table hes => exact readEntries_preserves hfs hes h hinit
  | arr hvs =>
      rename_i vs
      rw [record] at h
      have hall : ∀ p ∈ fs.zip vs, p.1 ∈ fs ∧ Fits p.2 :=
        fun p hp => ⟨(List.of_mem_zip hp).1, hvs p.2 (List.of_mem_zip hp).2⟩
      generalize fs.zip vs = ps at h hall
      induction ps generalizing init with
      | nil =>
          cases h
          exact hinit
      | cons p ps ih =>
          obtain ⟨⟨hf, hv⟩, hall⟩ := List.forall_mem_cons.mp hall
          rw [List.foldlM_cons] at h
          obtain ⟨t, ht, h⟩ := bind_eq_ok.mp h
          exact ih (hfs p.1 hf init p.2 t hinit hv ht) h hall
  | time =>
      cases h
      exact hinit
  | str => cases h
  | int => cases h
  | float => cases h
  | bool => cases h

/-! ### Misfits -/

/-- The fields of a record that a value gives, in its order. -/
def given (fs : List (FieldReader ε σ)) : Toml → List (FieldReader ε σ × Toml)
  | .table es => es.filterMap fun e => (fs.find? fun f => f.name = e.1).map fun f => (f, e.2)
  | .arr items => fs.zip items
  | _ => []

theorem mem_of_mem_given {fs : List (FieldReader ε σ)} {v : Toml} {p : FieldReader ε σ × Toml}
    (h : p ∈ given fs v) : p.1 ∈ fs := by
  cases v with
  | table es =>
      obtain ⟨e, -, he⟩ := List.mem_filterMap.mp h
      obtain ⟨f, hf, rfl⟩ := Option.map_eq_some_iff.mp he
      exact List.mem_of_find?_eq_some hf
  | arr items => exact (List.of_mem_zip h).1
  | str => cases h
  | int => cases h
  | float => cases h
  | bool => cases h
  | time => cases h

namespace FieldReader

def Takes (f : FieldReader ε σ) (v : Toml) : Prop := ∀ s, ∃ s', f.read s v = .ok s'

/-- Whatever the record is, the value does not fit the field. -/
def Refuses (f : FieldReader ε σ) (v : Toml) (e : Misfit ε) : Prop := ∀ s, f.read s v = .error e

variable {name : String} {r : Toml → Except (Misfit ε) τ} {set : σ → τ → σ} {v : Toml}

@[simp] theorem read_of (s : σ) : (FieldReader.of name r set).read s v = (r v).map (set s) := rfl

theorem takes_of {x : τ} (h : r v = .ok x) : (FieldReader.of name r set).Takes v := fun s =>
  ⟨set s x, by rw [read_of, h]; rfl⟩

theorem refuses_of {e : Misfit ε} (h : r v = .error e) :
    (FieldReader.of name r set).Refuses v e := fun s => by rw [read_of, h]; rfl

@[simp] theorem refuses_of_iff [Nonempty σ] {e : Misfit ε} :
    (FieldReader.of name r set).Refuses v e ↔ r v = .error e := by
  refine ⟨fun h => ?_, refuses_of⟩
  have hread := h (Classical.arbitrary σ)
  rw [read_of] at hread
  cases hr : r v with
  | error e' =>
      rw [hr] at hread
      cases hread
      rfl
  | ok x =>
      rw [hr] at hread
      cases hread

end FieldReader

/-- No field looks at the record to tell whether a value fits. -/
def Steady (fs : List (FieldReader ε σ)) : Prop :=
  ∀ f ∈ fs, ∀ v, f.Takes v ∨ ∃ e, f.Refuses v e

theorem steady_nil : Steady ([] : List (FieldReader ε σ)) := fun _ hf => absurd hf List.not_mem_nil

theorem Steady.cons {fs : List (FieldReader ε σ)} (h : Steady fs) (name : String)
    (r : Toml → Except (Misfit ε) τ) (set : σ → τ → σ) : Steady (.of name r set :: fs) := by
  intro f hf v
  rcases List.mem_cons.mp hf with rfl | hf
  · cases hr : r v with
    | ok x => exact .inl (FieldReader.takes_of hr)
    | error e => exact .inr ⟨e, FieldReader.refuses_of hr⟩
  · exact h f hf v

/-- The first of some values that does not fit its field, and what it is. -/
def FirstMisfit (given : List (FieldReader ε σ × Toml)) (P : FieldReader ε σ → Toml → Prop) :
    Prop :=
  ∃ before f v after, given = before ++ (f, v) :: after ∧ (∀ p ∈ before, p.1.Takes p.2) ∧ P f v

theorem FirstMisfit.congr {given : List (FieldReader ε σ × Toml)}
    {P Q : FieldReader ε σ → Toml → Prop} (h : ∀ p ∈ given, P p.1 p.2 ↔ Q p.1 p.2) :
    FirstMisfit given P ↔ FirstMisfit given Q := by
  refine exists_congr fun before => exists_congr fun f => exists_congr fun v =>
    exists_congr fun after => and_congr_right fun hgiven => and_congr_right fun _ => ?_
  exact h (f, v) (hgiven ▸ List.mem_append_right _ List.mem_cons_self)

theorem firstMisfit_cons {p : FieldReader ε σ × Toml} {ps : List (FieldReader ε σ × Toml)}
    {P : FieldReader ε σ → Toml → Prop} :
    FirstMisfit (p :: ps) P ↔ P p.1 p.2 ∨ p.1.Takes p.2 ∧ FirstMisfit ps P := by
  constructor
  · rintro ⟨before, f, v, after, hgiven, hbefore, hmisfit⟩
    cases before with
    | nil =>
        cases hgiven
        exact .inl hmisfit
    | cons q before =>
        cases hgiven
        obtain ⟨htakes, hbefore⟩ := List.forall_mem_cons.mp hbefore
        exact .inr ⟨htakes, before, f, v, after, rfl, hbefore, hmisfit⟩
  · rintro (hmisfit | ⟨htakes, before, f, v, after, rfl, hbefore, hmisfit⟩)
    · exact ⟨[], p.1, p.2, ps, rfl, fun _ h => absurd h List.not_mem_nil, hmisfit⟩
    · exact ⟨p :: before, f, v, after, rfl, List.forall_mem_cons.mpr ⟨htakes, hbefore⟩, hmisfit⟩

theorem foldlM_read_eq_error_iff {ps : List (FieldReader ε σ × Toml)}
    (hps : ∀ p ∈ ps, p.1.Takes p.2 ∨ ∃ e, p.1.Refuses p.2 e) (init : σ) (e : Misfit ε) :
    ps.foldlM (fun s p => p.1.read s p.2) init = .error e ↔
      FirstMisfit ps fun f v => f.Refuses v e := by
  induction ps generalizing init with
  | nil => exact iff_of_false nofun (by simp [FirstMisfit])
  | cons p ps ih =>
      obtain ⟨hp, hps⟩ := List.forall_mem_cons.mp hps
      rw [List.foldlM_cons, firstMisfit_cons]
      rcases hp with htakes | ⟨e', hrefuses⟩
      · obtain ⟨s, hs⟩ := htakes init
        have hnot : ¬p.1.Refuses p.2 e := fun h => by cases hs.symm.trans (h init)
        rw [hs, ok_bind, ih hps, or_iff_right hnot, and_iff_right htakes]
      · have hnot : ¬p.1.Takes p.2 := fun h => by
          obtain ⟨s, hs⟩ := h init
          cases hs.symm.trans (hrefuses init)
        rw [hrefuses init, error_bind, or_iff_left fun h => hnot h.1]
        refine ⟨fun h => Except.error.inj h ▸ hrefuses, fun h => ?_⟩
        rw [← hrefuses init, h init]

theorem readEntries_eq_foldlM (fs : List (FieldReader ε σ)) (init : σ) (es : List (String × Toml)) :
    readEntries fs init es =
      (given fs (.table es)).foldlM (fun s p => p.1.read s p.2) init := by
  rw [readEntries, given]
  induction es generalizing init with
  | nil => rfl
  | cons e es ih =>
      obtain ⟨k, v⟩ := e
      rw [List.foldlM_cons]
      cases hf : fs.find? fun f => f.name = k with
      | none =>
          rw [List.filterMap_cons_none (by rw [hf]; rfl), ← ih]
          dsimp only
          rw [hf]
          rfl
      | some f =>
          rw [List.filterMap_cons_some (by rw [hf]; rfl), List.foldlM_cons]
          dsimp only
          rw [hf]
          exact congrArg (f.read init v >>= ·) (funext fun s => ih s)

theorem readEntries_eq_error_iff {fs : List (FieldReader ε σ)} (hfs : Steady fs) {init : σ}
    {es : List (String × Toml)} {e : Misfit ε} :
    readEntries fs init es = .error e ↔
      FirstMisfit (given fs (.table es)) fun f v => f.Refuses v e := by
  rw [readEntries_eq_foldlM]
  exact foldlM_read_eq_error_iff (fun p hp => hfs p.1 (mem_of_mem_given hp) p.2) init e

/-- What a value that is no record is refused with says nothing but that. -/
theorem record_eq_because_iff {fs : List (FieldReader ε σ)} (hfs : Steady fs) {init : σ} {v : Toml}
    {e : ε} : record fs init v = .error (.because e) ↔
      FirstMisfit (given fs v) fun f w => f.Refuses w (.because e) := by
  have hnone : ¬FirstMisfit ([] : List (FieldReader ε σ × Toml)) fun f w =>
      f.Refuses w (.because e) := by simp [FirstMisfit]
  cases v with
  | table es => exact readEntries_eq_error_iff hfs
  | arr items =>
      exact foldlM_read_eq_error_iff
        (fun p hp => hfs p.1 (mem_of_mem_given (v := .arr items) hp) p.2) init _
  | str => exact iff_of_false nofun hnone
  | int => exact iff_of_false nofun hnone
  | float => exact iff_of_false nofun hnone
  | bool => exact iff_of_false nofun hnone
  | time => exact iff_of_false nofun hnone

end Records

end Segue.Toml
