import Segue.Proofs.Toml.Scalar

/-!
# Documents in TOML

A document of plain entries and of one table per section, under names that need no quotes and that
are all different, is read back. Its lines are read one by one; each header closes the table before
it, so what is built so far is a document already.
-/

namespace Segue.Toml

/-- A name that needs no quotes. -/
structure Bare (name : String) : Prop where
  nonempty : name.toList ≠ []
  bare : name.toList.all isBare = true

instance (name : String) : Decidable (Bare name) :=
  decidable_of_iff (name.toList ≠ [] ∧ name.toList.all isBare = true)
    ⟨fun h => ⟨h.1, h.2⟩, fun h => ⟨h.nonempty, h.bare⟩⟩

/-! ## Lines -/

theorem dropSpace_of_head {cs : List Char} (h : ∀ c ∈ cs.head?, isSpace c = false) :
    dropSpace cs = cs := by
  cases cs with
  | nil => rfl
  | cons c cs => exact List.dropWhile_cons_of_neg (by simp [h c rfl])

theorem isSpace_of_isBare {c : Char} (h : isBare c = true) : isSpace c = false := by
  simp only [isSpace, Bool.or_eq_false_iff, decide_eq_false_iff_not]
  constructor <;> rintro rfl <;> exact absurd h (by decide)

/-- What may come next in a line of a bare name: nothing that goes on with the name. -/
theorem key?_bare {name : String} (h : Bare name) {rest : List Char}
    (hrest : ∀ c ∈ rest.head?, isBare c = false) (hdot : ∀ t, dropSpace rest ≠ '.' :: t) :
    key? (name.toList ++ rest) = some ([name], dropSpace rest) := by
  have hbare := List.all_eq_true.mp h.bare
  have htake : (name.toList ++ rest).takeWhile isBare = name.toList := by
    rw [List.takeWhile_append_of_pos hbare]
    cases rest with
    | nil => simp
    | cons c rest => rw [List.takeWhile_cons_of_neg (by simp [hrest c rfl]), List.append_nil]
  have hsimple : simpleKey? (name.toList ++ rest) = some (name, rest) := by
    cases hname : name.toList with
    | nil => exact absurd hname h.nonempty
    | cons c cs =>
        have hc : isBare c = true := hbare c (by simp [hname])
        have hquotes : ¬(decide (c = '"') || decide (c = '\'')) = true := by
          simp only [Bool.or_eq_true, decide_eq_true_eq]
          rintro (rfl | rfl) <;> exact absurd hc (by decide)
        rw [hname] at htake
        rw [List.cons_append] at htake ⊢
        rw [simpleKey?, if_neg hquotes, htake]
        dsimp only [List.isEmpty_cons]
        rw [if_neg Bool.false_ne_true, ← hname, String.ofList_toList, ← List.cons_append, ← hname,
          List.drop_left]
  have hdrop : dropSpace (name.toList ++ rest) = name.toList ++ rest := by
    refine dropSpace_of_head fun c hc => ?_
    rw [List.head?_append_of_ne_nil _ h.nonempty] at hc
    exact isSpace_of_isBare (hbare c (List.mem_of_mem_head? hc))
  rw [key?, maxDepth, keyPath?, hdrop, hsimple, Option.bind_eq_bind, Option.bind_some]
  dsimp only
  split
  · rename_i heq
    exact absurd heq (hdot _)
  · rfl

theorem line?_lineText {name : String} {v : Toml} (h : Bare name) (hv : ReadBack v)
    (rest : List Char) : line? (lineText name v ++ rest) = some (.assign [name] v, rest) := by
  have htext : lineText name v ++ rest =
      name.toList ++ ' ' :: '=' :: ' ' :: (inlineText v ++ '\n' :: rest) := by
    simp only [lineText, List.append_assoc, String.reduceToList, List.cons_append, List.nil_append]
  have hkey := @key?_bare name h (' ' :: '=' :: ' ' :: (inlineText v ++ '\n' :: rest))
    (by intro c hc; obtain rfl := Option.some.inj hc; decide)
    (by intro t ht; exact absurd (List.cons.inj ht).1 (by decide))
  have hequals : dropSpace (' ' :: '=' :: ' ' :: (inlineText v ++ '\n' :: rest)) =
      '=' :: ' ' :: (inlineText v ++ '\n' :: rest) := rfl
  have hvalue :
      dropSpace (' ' :: (inlineText v ++ '\n' :: rest)) = inlineText v ++ '\n' :: rest := by
    refine (dropSpace_of_head fun c hc => ?_ : dropSpace (inlineText v ++ '\n' :: rest) = _)
    cases hstart : inlineText v with
    | nil =>
        rw [hstart] at hc
        obtain rfl := Option.some.inj hc
        decide
    | cons d t =>
        rw [hstart] at hc
        obtain rfl := Option.some.inj hc
        exact hv.start d (by rw [hstart]; rfl)
  rw [htext]
  cases hname : name.toList with
  | nil => exact absurd hname h.nonempty
  | cons c cs =>
      have hc : isBare c = true := List.all_eq_true.mp h.bare c (by simp [hname])
      have hne : ∀ d, isBare d = false → c ≠ d := by
        rintro d hd rfl
        exact absurd hc (by simp [hd])
      have hplain : ¬(decide (c = '#') || decide (c = '\n') || decide (c = '\r')) = true := by
        simp [hne '#' (by decide), hne '\n' (by decide), hne '\r' (by decide)]
      rw [hname, List.cons_append, hequals] at hkey
      rw [List.cons_append, line?, dropSpace_of_head (by simpa using isSpace_of_isBare hc)]
      split
      · rename_i heq
        exact absurd (List.cons.inj heq).1 (hne '[' (by decide))
      · rename_i heq
        exact absurd (List.cons.inj heq).1 (hne '[' (by decide))
      · rename_i heq
        cases heq
      · rename_i heq
        obtain ⟨rfl, rfl⟩ := List.cons.inj heq
        rw [if_neg hplain, hkey, Option.bind_eq_bind, Option.bind_some]
        dsimp only [char?]
        rw [if_pos rfl, Option.bind_eq_bind, Option.bind_some, hvalue, hv.value,
          Option.bind_eq_bind, Option.bind_some]
        rfl

theorem line?_header {name : String} (h : Bare name) (rest : List Char) :
    line? ('[' :: name.toList ++ ']' :: '\n' :: rest) = some (.table [name], rest) := by
  have hkey := @key?_bare name h (']' :: '\n' :: rest)
    (by intro c hc; obtain rfl := Option.some.inj hc; decide)
    (by intro t ht; exact absurd (List.cons.inj ht).1 (by decide))
  have hbracket : dropSpace (']' :: '\n' :: rest) = ']' :: '\n' :: rest := rfl
  have hopen : ∀ t, name.toList ++ ']' :: '\n' :: rest ≠ '[' :: t := by
    intro t ht
    cases hname : name.toList with
    | nil => exact h.nonempty hname
    | cons c cs =>
        rw [hname, List.cons_append] at ht
        obtain rfl := (List.cons.inj ht).1
        exact absurd (List.all_eq_true.mp h.bare '[' (by simp [hname])) (by decide)
  rw [List.cons_append, line?, dropSpace_of_head (by simp [isSpace])]
  split
  · rename_i heq
    exact absurd (List.cons.inj heq).2 (hopen _)
  · rename_i heq
    obtain ⟨-, rfl⟩ := List.cons.inj heq
    rw [hkey, Option.bind_eq_bind, Option.bind_some]
    rfl
  · rename_i heq
    cases heq
  · rename_i hnot heq
    exact absurd (List.cons.inj heq).1.symm hnot

@[simp] theorem line?_blank (rest : List Char) : line? ('\n' :: rest) = some (.blank, rest) := rfl

/-- A text that is read as these lines, one after the other. -/
inductive Lined : List Char → List Line → Prop where
  | nil : Lined [] []
  | cons {w rest : List Char} {l : Line} {ls : List Line} (hne : w ≠ [])
      (hline : line? (w ++ rest) = some (l, rest)) (hrest : Lined rest ls) :
      Lined (w ++ rest) (l :: ls)

theorem lines?_of_lined {cs : List Char} {ls : List Line} (h : Lined cs ls) {n : Nat}
    (hn : cs.length < n) : lines? n cs = some ls := by
  induction h generalizing n with
  | nil =>
      obtain ⟨n, rfl⟩ := Nat.exists_eq_add_one_of_ne_zero (Nat.ne_zero_of_lt hn)
      rfl
  | @cons w rest l ls hne hline _ ih =>
      obtain ⟨n, rfl⟩ := Nat.exists_eq_add_one_of_ne_zero (Nat.ne_zero_of_lt hn)
      have hpos := List.length_pos_iff.mpr hne
      have hempty : (w ++ rest).isEmpty = false := by simp [hne]
      rw [List.length_append] at hn
      rw [lines?, hempty, if_neg Bool.false_ne_true, hline, Option.bind_eq_bind, Option.bind_some]
      dsimp only
      rw [ih (by omega)]
      rfl

/-- An entry for a line of its own: a bare name, and a value that is no table and is read back. -/
structure Plain (e : String × Toml) : Prop where
  bare : Bare e.1
  value : ∀ es, e.2 ≠ .table es
  readBack : ReadBack e.2

abbrev assignment (e : String × Toml) : Line := .assign [e.1] e.2

theorem lined_entries {es : List (String × Toml)} (hes : ∀ e ∈ es, Plain e) {rest : List Char}
    {ls : List Line} (hrest : Lined rest ls) :
    Lined (es.flatMap (fun e => lineText e.1 e.2) ++ rest) (es.map assignment ++ ls) := by
  induction es with
  | nil => exact hrest
  | cons e es ih =>
      obtain ⟨he, hes⟩ := List.forall_mem_cons.mp hes
      rw [List.flatMap_cons, List.append_assoc, List.map_cons, List.cons_append]
      exact .cons (by simp [lineText]) (line?_lineText he.bare he.readBack _) (ih hes)

abbrev Section := String × List (String × Toml)

abbrev Section.entry (s : Section) : String × Toml := (s.1, .table s.2)

/-- The lines of a section: an empty one, its header, and its entries. -/
def Section.lines (s : Section) : List Line :=
  .blank :: .table [s.1] :: s.2.map assignment

structure Section.Readable (s : Section) : Prop where
  bare : Bare s.1
  plain : ∀ e ∈ s.2, Plain e
  distinct : (s.2.map Prod.fst).Nodup

theorem lined_sections {ss : List Section} (hss : ∀ s ∈ ss, s.Readable) :
    Lined ((ss.map Section.entry).flatMap sectionText) (ss.flatMap Section.lines) := by
  induction ss with
  | nil => exact .nil
  | cons s ss ih =>
      obtain ⟨hs, hss⟩ := List.forall_mem_cons.mp hss
      have hentries := lined_entries hs.plain (ih hss)
      have htext : ((s :: ss).map Section.entry).flatMap sectionText =
          ['\n'] ++ (('[' :: s.1.toList ++ [']', '\n']) ++
            (s.2.flatMap (fun e => lineText e.1 e.2) ++
              (ss.map Section.entry).flatMap sectionText)) := by
        simp [sectionText]
      rw [htext, List.flatMap_cons]
      refine .cons (by simp) (line?_blank _) (.cons (by simp) ?_ hentries)
      simpa using line?_header hs.bare
        (s.2.flatMap (fun e => lineText e.1 e.2) ++ (ss.map Section.entry).flatMap sectionText)

/-! ## Tables -/

@[simp]
theorem get?_eq_none {k : String} {es : Entries} :
    Entries.get? k es = none ↔ k ∉ es.map Prod.fst := by
  induction es with
  | nil => simp [Entries.get?]
  | cons e es ih =>
      obtain ⟨l, v⟩ := e
      rw [Entries.get?, List.map_cons, List.mem_cons, not_or]
      split
      · simp_all
      · simp_all

theorem set_of_new {k : String} {es : Entries} (h : k ∉ es.map Prod.fst) (v : Node) :
    Entries.set k v es = es ++ [(k, v)] := by
  induction es with
  | nil => rfl
  | cons e es ih =>
      obtain ⟨l, w⟩ := e
      rw [List.map_cons, List.mem_cons, not_or] at h
      rw [Entries.set, if_neg h.1, ih h.2, List.cons_append]

theorem erase_of_new {k : String} {es : Entries} (h : k ∉ es.map Prod.fst) :
    Entries.erase k es = es := by
  rw [Entries.erase, List.filter_eq_self]
  intro e he
  have hne : e.1 ≠ k := by
    rintro rfl
    exact h (List.mem_map_of_mem he)
  simpa using hne

def nodes (es : List (String × Toml)) : Entries := es.map fun e => (e.1, .value e.2)

abbrev Section.node (s : Section) : String × Node := (s.1, .table false false (nodes s.2))

@[simp]
theorem map_fst_nodes (es : List (String × Toml)) : (nodes es).map Prod.fst = es.map Prod.fst := by
  rw [nodes, List.map_map]
  rfl

theorem assign?_new {k : String} {es : Entries} (h : k ∉ es.map Prod.fst) (v : Toml) :
    assign? [k] v es = some (es ++ [(k, .value v)]) := by
  have hnone := get?_eq_none.mpr h
  rw [assign?, List.reverse_singleton]
  dsimp only [List.reverse_nil, change?]
  rw [hnone, set_of_new h]
  rfl

theorem foldlM_assignments {es : List (String × Toml)} {d : Draft}
    (h : (d.entries.map Prod.fst ++ es.map Prod.fst).Nodup) :
    (es.map assignment).foldlM Draft.add? d = some { d with entries := d.entries ++ nodes es } := by
  induction es generalizing d with
  | nil => simp [nodes]
  | cons e es ih =>
      have hnew : e.1 ∉ d.entries.map Prod.fst := by
        intro hmem
        exact List.disjoint_of_nodup_append h hmem (by simp)
      have hadd : d.add? (assignment e) = some { d with entries := d.entries ++ nodes [e] } := by
        rw [Draft.add?, assign?_new hnew]
        rfl
      have hnext := @ih { d with entries := d.entries ++ nodes [e] } (by simpa [nodes] using h)
      rw [List.map_cons, List.foldlM_cons, hadd, Option.bind_eq_bind, Option.bind_some, hnext]
      simp [nodes]

theorem openTable?_new {d : Draft} {root : Entries} {k : String} (hclose : d.close? = some root)
    (h : k ∉ root.map Prod.fst) : d.openTable? [k] = some ⟨root, [k], false, []⟩ := by
  have hnone := get?_eq_none.mpr h
  rw [Draft.openTable?, hclose, Option.bind_eq_bind, Option.bind_some, List.reverse_singleton]
  dsimp only [List.reverse_nil, change?, Draft.openTable?.lookup?]
  rw [hnone, erase_of_new h, Option.bind_eq_bind, Option.bind_some, hnone]
  rfl

theorem close?_new {root es : Entries} {k : String} (h : k ∉ root.map Prod.fst) :
    Draft.close? ⟨root, [k], false, es⟩ = some (root ++ [(k, .table false false es)]) := by
  have hnone := get?_eq_none.mpr h
  rw [Draft.close?, List.reverse_singleton]
  dsimp only [List.reverse_nil, change?]
  rw [hnone, set_of_new h]

theorem exists_foldlM_sections {ss : List Section} (hss : ∀ s ∈ ss, s.Readable) {d : Draft}
    {root : Entries} (hclose : d.close? = some root)
    (h : (root.map Prod.fst ++ ss.map Prod.fst).Nodup) :
    ∃ d', (ss.flatMap Section.lines).foldlM Draft.add? d = some d' ∧
      d'.close? = some (root ++ ss.map Section.node) := by
  induction ss generalizing d root with
  | nil => exact ⟨d, rfl, by simpa using hclose⟩
  | cons s ss ih =>
      obtain ⟨hs, hss⟩ := List.forall_mem_cons.mp hss
      have hnew : s.1 ∉ root.map Prod.fst := by
        intro hmem
        exact List.disjoint_of_nodup_append h hmem (by simp)
      have hfilled : (s.2.map assignment).foldlM Draft.add? ⟨root, [s.1], false, []⟩ =
          some ⟨root, [s.1], false, nodes s.2⟩ :=
        foldlM_assignments (by simpa using hs.distinct)
      have hlines : s.lines.foldlM Draft.add? d = some ⟨root, [s.1], false, nodes s.2⟩ := by
        have hopen : d.add? (.table [s.1]) = some ⟨root, [s.1], false, []⟩ :=
          openTable?_new hclose hnew
        have hblank : d.add? .blank = some d := rfl
        rw [Section.lines, List.foldlM_cons, hblank, Option.bind_eq_bind, Option.bind_some,
          List.foldlM_cons, hopen, Option.bind_eq_bind, Option.bind_some, hfilled]
      obtain ⟨d', hfold, hd'⟩ := ih hss (close?_new hnew) (by simpa using h)
      refine ⟨d', ?_, ?_⟩
      · rw [List.flatMap_cons, List.foldlM_append, hlines, Option.bind_eq_bind, Option.bind_some,
          hfold]
      · rw [hd', List.map_cons, List.append_assoc, List.singleton_append]

theorem entriesToToml_eq (es : Entries) :
    entriesToToml es = es.map fun e => (e.1, e.2.toToml) := by
  induction es with
  | nil => rfl
  | cons e es ih =>
      obtain ⟨k, v⟩ := e
      rw [entriesToToml, ih, List.map_cons]

@[simp]
theorem entriesToToml_nodes (es : List (String × Toml)) : entriesToToml (nodes es) = es := by
  rw [entriesToToml_eq, nodes, List.map_map]
  exact List.map_id es

/-! ## Documents -/

/-- Plain entries and sections under different names. -/
structure Readable (es : List (String × Toml)) (ss : List Section) : Prop where
  plain : ∀ e ∈ es, Plain e
  sections : ∀ s ∈ ss, s.Readable
  distinct : (es.map Prod.fst ++ ss.map Prod.fst).Nodup

section Readable

variable {es : List (String × Toml)} {ss : List Section}

theorem Readable.toList_render (h : Readable es ss) :
    (render (es ++ ss.map Section.entry)).toList =
      es.flatMap (fun e => lineText e.1 e.2) ++
        (ss.map Section.entry).flatMap sectionText := by
  have hplain : es.flatMap plainText = es.flatMap fun e => lineText e.1 e.2 := by
    refine List.flatMap_congr fun e he => ?_
    obtain ⟨name, v⟩ := e
    rw [plainText]
    exact fun ts hv => (h.plain _ he).value ts hv
  have hnone : (ss.map Section.entry).flatMap plainText = [] := by
    rw [List.flatMap_map, List.flatMap_eq_nil_iff]
    exact fun _ _ => rfl
  have hnoSection : es.flatMap sectionText = [] := by
    rw [List.flatMap_eq_nil_iff]
    intro e he
    obtain ⟨name, v⟩ := e
    rw [sectionText]
    exact fun _ ts hv => (h.plain _ he).value ts (Prod.mk.inj hv).2
  rw [render, String.toList_ofList, List.flatMap_append, List.flatMap_append, hplain, hnone,
    hnoSection, List.append_nil, List.nil_append]

/-- No byte order mark stands in front: a text starts with a bare name or an empty line. -/
theorem Readable.dropMark (h : Readable es ss) :
    dropMark (render (es ++ ss.map Section.entry)).toList =
      (render (es ++ ss.map Section.entry)).toList := by
  rw [h.toList_render]
  cases es with
  | nil =>
      cases ss with
      | nil => rfl
      | cons s ss => rfl
  | cons e es =>
      have he := (h.plain e List.mem_cons_self).bare
      cases hname : e.1.toList with
      | nil => exact absurd hname he.nonempty
      | cons c cs =>
          have hc : isBare c = true := List.all_eq_true.mp he.bare c (by simp [hname])
          have hmark : c ≠ '\uFEFF' := by
            rintro rfl
            exact absurd hc (by decide)
          rw [List.flatMap_cons, lineText, hname]
          simp only [List.cons_append]
          rw [Toml.dropMark]
          exact fun t ht => hmark (List.cons.inj ht).1

theorem parse?_render (h : Readable es ss) :
    parse? (render (es ++ ss.map Section.entry)) = some (es ++ ss.map Section.entry) := by
  have hlined := lined_entries h.plain (lined_sections h.sections)
  rw [← h.toList_render] at hlined
  have hplain : (es.map assignment).foldlM Draft.add? ⟨[], [], false, []⟩ =
      some ⟨[], [], false, nodes es⟩ :=
    foldlM_assignments (by simpa using (List.nodup_append.mp h.distinct).1)
  obtain ⟨d, hfold, hclose⟩ := @exists_foldlM_sections ss h.sections
    ⟨[], [], false, nodes es⟩ (nodes es) rfl (by rw [map_fst_nodes]; exact h.distinct)
  have hdraft : (es.map assignment ++ ss.flatMap Section.lines).foldlM Draft.add?
      ⟨[], [], false, []⟩ = some d := by
    rw [List.foldlM_append, hplain, Option.bind_eq_bind, Option.bind_some, hfold]
  have htables : entriesToToml (nodes es ++ ss.map Section.node) =
      es ++ ss.map Section.entry := by
    rw [entriesToToml_eq, List.map_append, ← entriesToToml_eq, entriesToToml_nodes, List.map_map]
    refine congrArg (es ++ ·) (List.map_congr_left fun s _ => ?_)
    rw [Function.comp_apply, Node.toToml, entriesToToml_nodes]
  rw [parse?, h.dropMark, lines?_of_lined hlined (Nat.lt_succ_self _), Option.bind_eq_bind,
    Option.bind_some, hdraft, Option.bind_eq_bind, Option.bind_some, hclose, Option.bind_eq_bind,
    Option.bind_some, htables]

end Readable

end Segue.Toml
