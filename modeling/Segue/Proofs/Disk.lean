import Mathlib
import Segue.Disk
import Segue.Proofs.Basic
import Segue.Proofs.Keyed
import Segue.Proofs.Path

/-!
# What has been written is there

A file that has been written is found again at its path, and holds what was written. The directories
on the way to it stay where they are, so that the path leads to the same place as before. The
directory gets one entry more, under the name of the file.
-/

namespace Segue.Disk

variable {n n' new : Node}

@[simp] theorem find?_dir_cons (k : String) (ks : List String) (entries : List (String × Node)) :
    find? (k :: ks) (.dir entries) = Keyed.get? k entries >>= find? ks := rfl

@[simp] theorem find?_append (a b : List String) (n : Node) :
    find? (a ++ b) n = find? a n >>= find? b := by
  induction a generalizing n with
  | nil => rfl
  | cons k ks ih =>
      cases n with
      | file c => rfl
      | dir entries =>
          rw [List.cons_append, find?_dir_cons, find?_dir_cons]
          cases Keyed.get? k entries with
          | none => rfl
          | some child => exact ih child

theorem find?_concat {place : List String} {entries : List (String × Node)}
    (h : find? place n = some (.dir entries)) (name : String) :
    find? (place ++ [name]) n = Keyed.get? name entries := by
  rw [find?_append, h]
  show Keyed.get? name entries >>= find? [] = _
  cases Keyed.get? name entries <;> rfl

/-- Everything on the way to a directory is a directory. -/
theorem exists_dir_of_append {a b : List String} {entries : List (String × Node)}
    (h : find? (a ++ b) n = some (.dir entries)) : ∃ above, find? a n = some (.dir above) := by
  rw [find?_append] at h
  cases ha : find? a n with
  | none => simp [ha] at h
  | some m =>
      cases m with
      | dir above => exact ⟨above, rfl⟩
      | file c => cases b <;> simp [ha, find?] at h

theorem exists_of_put?_cons {k : String} {ks : List String} (h : put? new (k :: ks) n = some n') :
    ∃ entries inner, n = .dir entries ∧
      put? new ks ((Keyed.get? k entries).getD (.dir [])) = some inner ∧
      n' = .dir (Keyed.insert k inner entries) := by
  cases n with
  | file c => exact absurd h nofun
  | dir entries =>
      cases hinner : put? new ks ((Keyed.get? k entries).getD (.dir [])) with
      | none => simp [put?, hinner] at h
      | some inner =>
          have hnode : some (Node.dir (Keyed.insert k inner entries)) = some n' := by
            simpa [put?, hinner] using h
          exact ⟨entries, inner, rfl, hinner, (Option.some.inj hnode).symm⟩

theorem find?_put? {names : List String} (h : put? new names n = some n') :
    find? names n' = some new := by
  induction names generalizing n n' with
  | nil => exact congrArg some (Option.some.inj h).symm
  | cons k ks ih =>
      obtain ⟨entries, inner, -, hinner, rfl⟩ := exists_of_put?_cons h
      rw [find?_dir_cons, Keyed.get?_insert, if_pos rfl]
      exact ih hinner

/-- Directories that are not below what is put stay directories. -/
theorem exists_dir_of_put? {names q : List String} {entries : List (String × Node)}
    (h : put? new names n = some n') (hq : find? q n = some (.dir entries))
    (hapart : ¬names <+: q) : ∃ now, find? q n' = some (.dir now) := by
  induction names generalizing n n' q with
  | nil => exact absurd List.nil_prefix hapart
  | cons k ks ih =>
      obtain ⟨table, inner, rfl, hinner, rfl⟩ := exists_of_put?_cons h
      cases q with
      | nil => exact ⟨_, rfl⟩
      | cons j js =>
          rw [find?_dir_cons] at hq
          rw [find?_dir_cons, Keyed.get?_insert]
          by_cases hj : j = k
          · subst hj
            rw [if_pos rfl]
            cases hchild : Keyed.get? j table with
            | none => simp [hchild] at hq
            | some child =>
                rw [hchild] at hq hinner
                exact ih hinner hq fun hprefix => hapart ((List.prefix_cons_inj j).mpr hprefix)
          · rw [if_neg hj]
            exact ⟨entries, hq⟩

variable {d d' : Disk}

theorem exists_of_place? {names : List String} (h : d.place? names new = some d') :
    put? new names d.tree = some d'.tree ∧ d'.home = d.home := by
  unfold place? at h
  split at h
  · rename_i root hput
    cases h
    exact ⟨hput, rfl⟩
  · exact absurd h nofun

/-- A path leads to the same place if no directory on the way is lost. -/
theorem foldlM_step {names : List String}
    (hname : ∀ entries, find? names d.tree ≠ some (.dir entries))
    (hdirs : ∀ q entries, find? q d.tree = some (.dir entries) → ¬names <+: q →
      ∃ now, find? q d'.tree = some (.dir now)) {pieces place stop : List String}
    (h : pieces.foldlM d.step place = .ok stop) : pieces.foldlM d'.step place = .ok stop := by
  induction pieces generalizing place with
  | nil => exact h
  | cons piece pieces ih =>
      rw [List.foldlM_cons] at h ⊢
      obtain ⟨next, hstep, hrest⟩ := bind_eq_ok.mp h
      have hsame : d'.step place piece = .ok next := by
        unfold step at hstep ⊢
        cases hplace : find? place d.tree with
        | none => simp [hplace] at hstep
        | some m =>
            cases m with
            | file c => simp [hplace] at hstep
            | dir entries =>
                have hapart : ¬names <+: place := by
                  rintro ⟨b, rfl⟩
                  obtain ⟨above, habove⟩ := exists_dir_of_append hplace
                  exact hname above habove
                obtain ⟨now, hnow⟩ := hdirs place entries hplace hapart
                rw [hplace] at hstep
                rw [hnow]
                exact hstep
      rw [hsame]
      exact ih hrest

/-- What a path can be at all. -/
structure IsPath (p : String) : Prop where
  nonempty : p ≠ ""
  short : p.utf8ByteSize ≤ maxPath
  nul : '\x00' ∉ p.toList

def start (d : Disk) (p : String) : List String := if Path.isAbsolute p then [] else d.home

theorem locate_eq_ok_iff {p : String} {place : List String} :
    d.locate p = .ok place ↔
      IsPath p ∧ (Path.pieces p).foldlM d.step (d.start p) = .ok place := by
  have hfits : (decide (maxPath < p.utf8ByteSize) || p.toList.contains '\x00') = true ↔
      ¬(p.utf8ByteSize ≤ maxPath ∧ '\x00' ∉ p.toList) := by
    simp [or_iff_not_imp_left]
  unfold locate
  split
  · rename_i hempty
    exact iff_of_false nofun fun h => h.1.nonempty (String.isEmpty_iff.mp hempty)
  · rename_i hempty
    split
    · rename_i hbarred
      exact iff_of_false nofun fun h => hfits.mp hbarred ⟨h.1.short, h.1.nul⟩
    · rename_i hbarred
      rw [hfits, not_not] at hbarred
      have hpath : IsPath p := ⟨fun h => hempty (String.isEmpty_iff.mpr h), hbarred.1, hbarred.2⟩
      exact (and_iff_right hpath).symm

theorem node?_eq_some_iff {p : String} :
    d.node? p = some n ↔ ∃ place, d.locate p = .ok place ∧ find? place d.tree = some n := by
  unfold node?
  cases d.locate p <;> simp

/-- A file that is written into a tree keeps every path where it leads. -/
theorem locate_of_place? {names : List String} (h : d.place? names new = some d')
    (hname : ∀ entries, find? names d.tree ≠ some (.dir entries)) {p : String} {place : List String}
    (hp : d.locate p = .ok place) : d'.locate p = .ok place := by
  obtain ⟨hput, hhome⟩ := exists_of_place? h
  obtain ⟨hpath, hfold⟩ := locate_eq_ok_iff.mp hp
  have hstart : d'.start p = d.start p := by rw [start, start, hhome]
  rw [locate_eq_ok_iff, hstart]
  exact ⟨hpath, foldlM_step hname (fun q entries hq hapart => exists_dir_of_put? hput hq hapart)
    hfold⟩

/-- A file that has been written holds what was written. -/
theorem read?_of_write? {p : String} {c : Content} (h : d.write? p c = some d') :
    d'.read? p = some c := by
  unfold write? at h
  cases hlocate : d.locate p with
  | error e => simp [hlocate] at h
  | ok names =>
      rw [hlocate] at h
      dsimp only at h
      split at h
      · exact absurd h nofun
      · rename_i hname
        have hsame := locate_of_place? h (fun entries hdir => hname entries hdir) hlocate
        rw [read?, node?, hsame]
        dsimp only
        rw [find?_put? (exists_of_place? h).1]

/-- A path that is not too long and does not start at the root is followed from the home
directory. -/
theorem locate_relative {p : String} (hempty : p.isEmpty = false) (hshort : p.utf8ByteSize ≤ maxPath)
    (hnul : '\x00' ∉ p.toList) (hrelative : Path.isAbsolute p = false) :
    d.locate p = (Path.pieces p).foldlM d.step d.home := by
  have hfits : ¬(decide (maxPath < p.utf8ByteSize) || p.toList.contains '\x00') = true := by
    simpa [Nat.not_lt.mpr hshort] using hnul
  rw [locate, if_neg (by simp [hempty]), if_neg hfits, if_neg (by simp [hrelative])]

/-- What a file can be called. -/
structure IsFileName (name : String) : Prop where
  plain : name ∉ ["", ".", ".."]
  slash : '/' ∉ name.toList
  nul : '\x00' ∉ name.toList
  short : name.utf8ByteSize ≤ maxName

instance (name : String) : Decidable (IsFileName name) :=
  decidable_of_iff (name ∉ ["", ".", ".."] ∧ '/' ∉ name.toList ∧ '\x00' ∉ name.toList ∧
      name.utf8ByteSize ≤ maxName)
    ⟨fun h => ⟨h.1, h.2.1, h.2.2.1, h.2.2.2⟩, fun h => ⟨h.plain, h.slash, h.nul, h.short⟩⟩

variable {p dir name : String} {place : List String} {entries : List (String × Node)}

theorem pieces_name (h : '/' ∉ name.toList) : Path.pieces name = [name] := by
  rw [Path.pieces, Text.splitChars_of_not_mem (by simpa using h), List.map_singleton,
    String.ofList_toList]

theorem IsFileName.isName (h : IsFileName name) : Path.IsName name := by
  have hplain : name ≠ "" ∧ name ≠ "." ∧ name ≠ ".." := by simpa using h.plain
  exact Path.isName_of_not_mem hplain.1 hplain.2.1 hplain.2.2 h.slash

theorem step_name (hplace : find? place d.tree = some (.dir entries)) (h : IsFileName name) :
    d.step place name = .ok (place ++ [name]) := by
  have hplain : name ≠ "" ∧ name ≠ "." ∧ name ≠ ".." := by simpa using h.plain
  have hdot : ¬(decide (name = "") || decide (name = ".")) = true := by simp [hplain]
  rw [step, hplace]
  dsimp only
  rw [if_neg hdot, if_neg hplain.2.2, if_neg (Nat.not_lt.mpr h.short)]

/-- A name leads to what is called so in the home directory. -/
theorem IsFileName.node?_eq (h : IsFileName name)
    (hhome : find? d.home d.tree = some (.dir entries)) :
    d.node? name = Keyed.get? name entries := by
  have hne : name ≠ "" := by
    rintro rfl
    exact h.plain List.mem_cons_self
  have hlocate : d.locate name = .ok (d.home ++ [name]) := by
    rw [locate_relative (by simpa using hne) (h.short.trans (by decide)) h.nul
      h.isName.relative, pieces_name h.slash, List.foldlM_cons, step_name hhome h]
    rfl
  rw [node?, hlocate]
  dsimp only
  exact find?_concat hhome name

/-! ## Directories -/

/-- An empty piece leads nowhere else. -/
theorem eq_of_step_empty {stop : List String} (h : d.step place "" = .ok stop) : stop = place := by
  unfold step at h
  split at h
  · cases h
  · cases h
  · rw [if_pos (by decide)] at h
    exact (Except.ok.inj h).symm

theorem foldlM_step_append_empty {pieces : List String} {start stop : List String}
    (h : (pieces ++ [""]).foldlM d.step start = .ok stop) :
    pieces.foldlM d.step start = .ok stop := by
  rw [List.foldlM_append] at h
  obtain ⟨last, hpieces, hlast⟩ := bind_eq_ok.mp h
  rw [List.foldlM_cons] at hlast
  obtain ⟨next, hnext, hstop⟩ := bind_eq_ok.mp hlast
  cases hstop
  rw [eq_of_step_empty hnext]
  exact hpieces

/-- The pieces of two texts with a slash between them. -/
theorem pieces_of_toList {a b : List Char} (h : p.toList = a ++ '/' :: b) :
    Path.pieces p = Path.pieces (String.ofList a) ++ Path.pieces (String.ofList b) := by
  simp only [Path.pieces, h, Text.splitChars_append_cons, List.map_append, String.toList_ofList]

/-- A file in a directory has its own name behind those that lead to the directory. -/
theorem locate_join (hdir : d.locate dir = .ok place)
    (hplace : find? place d.tree = some (.dir entries)) (hname : IsFileName name)
    (hshort : (Path.join dir name).utf8ByteSize ≤ maxPath) :
    d.locate (Path.join dir name) = .ok (place ++ [name]) := by
  obtain ⟨hpath, hfold⟩ := locate_eq_ok_iff.mp hdir
  have hrelative := hname.isName.relative
  have hstart : d.start (Path.join dir name) = d.start dir := by
    rw [start, start, Path.isAbsolute_join hrelative]
  have hlast : Path.pieces (String.ofList name.toList) = [name] := by
    rw [String.ofList_toList, pieces_name hname.slash]
  rw [locate_eq_ok_iff, hstart]
  -- the pieces in front of the name lead to the directory
  obtain ⟨hslash, hchars, front, hpieces, hfront⟩ : '/' ∈ (Path.join dir name).toList ∧
      '\x00' ∉ (Path.join dir name).toList ∧
      ∃ front, Path.pieces (Path.join dir name) = front ++ [name] ∧
        front.foldlM d.step (d.start dir) = .ok place := by
    rcases Path.toList_join hrelative dir with ⟨hempty, -⟩ | ⟨cs, hcs, hjoin⟩ | ⟨-, hjoin⟩
    · exact absurd hempty hpath.nonempty
    · have hnul := hpath.nul
      rw [hcs] at hnul
      refine ⟨by simp [hjoin], by simpa [hjoin, hname.nul] using hnul,
        Path.pieces (String.ofList cs), by rw [pieces_of_toList hjoin, hlast],
        foldlM_step_append_empty ?_⟩
      rw [pieces_of_toList (a := cs) (b := []) hcs] at hfold
      exact hfold
    · refine ⟨by simp [hjoin], by simp [hjoin, hname.nul, hpath.nul], Path.pieces dir, ?_, hfold⟩
      rw [pieces_of_toList hjoin, hlast, String.ofList_toList]
  refine ⟨⟨fun hempty => ?_, hshort, hchars⟩, ?_⟩
  · rw [hempty] at hslash
    cases hslash
  · rw [hpieces, List.foldlM_append, hfront]
    show [name].foldlM d.step place = _
    rw [List.foldlM_cons, step_name hplace hname]
    rfl

theorem node?_of_names?_nil (h : d.names? p = some []) : d.node? p = some (.dir []) := by
  unfold names? at h
  split at h
  · rename_i entries hnode
    rw [hnode, List.map_eq_nil_iff.mp (Option.some.inj h)]
  · cases h

theorem node?_join (hdir : d.node? dir = some (.dir entries)) (hname : IsFileName name)
    (hshort : (Path.join dir name).utf8ByteSize ≤ maxPath) :
    d.node? (Path.join dir name) = Keyed.get? name entries := by
  obtain ⟨place, hlocate, hplace⟩ := node?_eq_some_iff.mp hdir
  rw [node?, locate_join hlocate hplace hname hshort]
  dsimp only
  exact find?_concat hplace name

/-! ### Writing into a directory -/

theorem exists_put?_concat {place : List String} (hplace : find? place n = some (.dir entries))
    (name : String) (new : Node) : ∃ table, put? new (place ++ [name]) n = some (.dir table) ∧
      find? place (.dir table) = some (.dir (Keyed.insert name new entries)) := by
  induction place generalizing n with
  | nil =>
      cases hplace
      exact ⟨_, rfl, rfl⟩
  | cons k ks ih =>
      cases n with
      | file c => cases hplace
      | dir table =>
          rw [find?_dir_cons] at hplace
          obtain ⟨child, hchild, hinner⟩ := Option.bind_eq_some_iff.mp hplace
          obtain ⟨below, hput, hfind⟩ := ih hinner
          refine ⟨Keyed.insert k (.dir below) table, ?_, ?_⟩
          · rw [List.cons_append, put?, hchild, Option.getD_some, hput]
            rfl
          · rw [find?_dir_cons, Keyed.get?_insert, if_pos rfl]
            exact hfind

/-- A file goes into a directory under its name, if no directory is called so. -/
theorem exists_write?_join (hdir : d.node? dir = some (.dir entries)) (hname : IsFileName name)
    (hshort : (Path.join dir name).utf8ByteSize ≤ maxPath)
    (hfree : ∀ table, Keyed.get? name entries ≠ some (.dir table)) (c : Content) :
    ∃ d', d.write? (Path.join dir name) c = some d' ∧
      d'.node? dir = some (.dir (Keyed.insert name (.file c) entries)) := by
  obtain ⟨place, hlocate, hplace⟩ := node?_eq_some_iff.mp hdir
  obtain ⟨table, hput, hfind⟩ := exists_put?_concat hplace name (.file c)
  have hnode := node?_join hdir hname hshort
  rw [node?, locate_join hlocate hplace hname hshort] at hnode
  dsimp only at hnode
  have hplaced : d.place? (place ++ [name]) (.file c) = some { d with root := table } := by
    rw [place?, hput]
  refine ⟨{ d with root := table }, ?_, ?_⟩
  · rw [write?, locate_join hlocate hplace hname hshort]
    dsimp only
    split
    · rename_i below hbelow
      exact absurd (hnode ▸ hbelow) (hfree below)
    · exact hplaced
  · refine node?_eq_some_iff.mpr ⟨place, locate_of_place? hplaced ?_ hlocate, hfind⟩
    rw [hnode]
    exact hfree

/-! ### Directories that are there -/

theorem locate_of_concat_slash {q : String} (hq : q ≠ "") (hp : p.toList = q.toList ++ ['/'])
    (h : d.locate p = .ok place) : d.locate q = .ok place := by
  obtain ⟨hpath, hfold⟩ := locate_eq_ok_iff.mp h
  have htext : p = q ++ "/" := String.toList_inj.mp (by rw [String.toList_append, hp]; rfl)
  have habsolute : Path.isAbsolute p = Path.isAbsolute q := by
    have hne : q.toList ≠ [] := fun hnil => hq (String.toList_inj.mp hnil)
    rw [Bool.eq_iff_iff, Path.isAbsolute_iff, Path.isAbsolute_iff, hp]
    cases hchars : q.toList with
    | nil => exact absurd hchars hne
    | cons c cs => simp
  refine locate_eq_ok_iff.mpr ⟨⟨hq, ?_, fun hnul => hpath.nul ?_⟩, ?_⟩
  · have := hpath.short
    rw [htext, String.utf8ByteSize_append] at this
    omega
  · rw [hp]
    exact List.mem_append_left _ hnul
  · rw [pieces_of_toList (b := []) hp, String.ofList_toList, start, habsolute, ← start] at hfold
    exact foldlM_step_append_empty hfold

/-- A path leads to the same place without the slashes at its end. -/
theorem locate_dropSlashes {cs : List Char} (h : d.locate (String.ofList cs) = .ok place)
    (hne : (cs.reverse.dropWhile (· = '/')).reverse ≠ []) :
    d.locate (String.ofList (cs.reverse.dropWhile (· = '/')).reverse) = .ok place := by
  induction cs using List.reverseRecOn with
  | nil => exact absurd rfl hne
  | append_singleton cs c ih =>
      rw [List.reverse_append, List.reverse_singleton, List.singleton_append] at hne ⊢
      by_cases hc : c = '/'
      · rw [List.dropWhile_cons_of_pos (by simp [hc])] at hne ⊢
        refine ih (locate_of_concat_slash (fun hempty => ?_) ?_ h) hne
        · rw [String.ofList_eq_empty_iff.mp hempty] at hne
          exact hne rfl
        · rw [String.toList_ofList, String.toList_ofList, hc]
      · rw [List.dropWhile_cons_of_neg (by simp [hc]), List.reverse_cons, List.reverse_reverse]
        exact h

theorem makeOne_of_node? (h : d.node? dir = some (.dir entries)) : d.makeOne dir = .ok d := by
  obtain ⟨place, hlocate, hplace⟩ := node?_eq_some_iff.mp h
  have hbare : d.locate
      (if (String.ofList (dir.toList.reverse.dropWhile (· = '/')).reverse).isEmpty then dir
        else String.ofList (dir.toList.reverse.dropWhile (· = '/')).reverse) = .ok place := by
    split
    · exact hlocate
    · rename_i hne
      refine locate_dropSlashes (by rwa [String.ofList_toList]) fun hnil => hne ?_
      rw [hnil]
      rfl
  rw [makeOne, hbare, ok_bind, hplace]

/-- A directory that is there is left as it is. -/
theorem makeDirectory_of_node? (h : d.node? dir = some (.dir entries)) :
    d.makeDirectory dir = (true, d) := by
  obtain ⟨place, hlocate, -⟩ := node?_eq_some_iff.mp h
  have hne : dir.isEmpty = false := by
    rw [Bool.eq_false_iff]
    exact fun hempty => (locate_eq_ok_iff.mp hlocate).1.nonempty (String.isEmpty_iff.mp hempty)
  rw [makeDirectory, Path.ancestors, hne, if_neg Bool.false_ne_true]
  unfold makeAll
  rw [makeOne_of_node? h]

theorem run_bind {α β : Type} (x : StateM Disk α) (f : α → StateM Disk β) (d : Disk) :
    (x >>= f).run d = (f (x.run d).1).run (x.run d).2 := rfl

@[simp] theorem run_read? (p : String) (d : Disk) :
    (FileSystem.read? p : StateM Disk (Option Content)).run d = (d.read? p, d) := rfl

@[simp] theorem run_makeDirectory (p : String) (d : Disk) :
    (FileSystem.makeDirectory p : StateM Disk Bool).run d = d.makeDirectory p := rfl

@[simp] theorem run_names? (p : String) (d : Disk) :
    (FileSystem.names? p : StateM Disk (Option (List String))).run d = (d.names? p, d) := rfl

@[simp] theorem run_kind (p : String) (d : Disk) :
    (FileSystem.kind p : StateM Disk EntryKind).run d = (d.kind p, d) := rfl

@[simp] theorem run_write (p : String) (c : Content) (d : Disk) :
    (FileSystem.write p c : StateM Disk Bool).run d =
      match d.write? p c with
      | some d' => (true, d')
      | none => (false, d) := by
  show (get >>= fun d : Disk => match d.write? p c with
    | some d' => set d' >>= fun _ => pure true
    | none => pure false : StateM Disk Bool).run d = _
  rw [StateT.run_bind, StateT.run_get, pure_bind]
  cases d.write? p c <;> rfl

end Segue.Disk
