import Segue.Proofs.Keyed
import Segue.Proofs.Json.Items
import Segue.Json.Forms

/-!
# Values

A printed value is read back, in both layouts and whatever ends it, if its integers fit 64 bits, its
numbers are read back, its objects are sorted and it nests no deeper than is read. What is read is
such a value.
-/

namespace Segue.Json

variable {α : Type}

/-! ### Numbers of a value -/

mutual

/-- The numbers of a value that are not kept as integers. -/
def numbers : Json α → List α
  | .float x => [x]
  | .arr vs => itemNumbers vs
  | .obj ms => memberNumbers ms
  | _ => []

def itemNumbers : List (Json α) → List α
  | [] => []
  | v :: vs => numbers v ++ itemNumbers vs

def memberNumbers : List (String × Json α) → List α
  | [] => []
  | (_, v) :: ms => numbers v ++ memberNumbers ms

end

@[simp] theorem mem_itemNumbers {x : α} {vs : List (Json α)} :
    x ∈ itemNumbers vs ↔ ∃ v ∈ vs, x ∈ v.numbers := by
  induction vs with
  | nil => simp [itemNumbers]
  | cons v vs ih => simp [itemNumbers, ih]

@[simp] theorem mem_memberNumbers {x : α} {ms : List (String × Json α)} :
    x ∈ memberNumbers ms ↔ ∃ m ∈ ms, x ∈ m.2.numbers := by
  induction ms with
  | nil => simp [memberNumbers]
  | cons m ms ih => simp [memberNumbers, ih]

variable [Numeral α]

/-- The values that are read if `d` more levels of nesting are allowed. -/
inductive Fits : (d : Nat) → Json α → Prop where
  | null (d : Nat) : Fits d .null
  | bool (d : Nat) (b : Bool) : Fits d (.bool b)
  | int (d : Nat) {n : Int} : isWord n = true → Fits d (.int n)
  | float (d : Nat) {x : α} : Scalar.isFinite x = true → Fits d (.float x)
  | str (d : Nat) (s : String) : Fits d (.str s)
  | arr {d : Nat} {vs : List (Json α)} : (∀ v ∈ vs, Fits d v) → Fits (d + 1) (.arr vs)
  | obj {d : Nat} {ms : List (String × Json α)} :
      Keyed.Sorted ms → (∀ m ∈ ms, Fits d m.2) → Fits (d + 1) (.obj ms)

/-! ### Printed values -/

section Write

variable (style : Style) (depth : Nat)

theorem writeItems_eq (vs : List (Json α)) :
    writeItems style depth vs = listedFrom style depth ']' (vs.map (write style (depth + 1))) := by
  induction vs with
  | nil => rfl
  | cons v vs ih => rw [writeItems, ih, List.map_cons, listedFrom]

theorem write_arr (vs : List (Json α)) :
    write style depth (.arr vs) =
      '[' :: listed style depth ']' (vs.map (write style (depth + 1))) := by
  cases vs with
  | nil => rfl
  | cons v vs => rw [write, writeItems_eq, List.map_cons, listed]; rfl

def writeMember (m : String × Json α) : List Char :=
  memberText style m.1 (write style (depth + 1) m.2)

theorem writeMembers_eq (ms : List (String × Json α)) :
    writeMembers style depth ms =
      listedFrom style depth '\x7d' (ms.map (writeMember style depth)) := by
  induction ms with
  | nil => rfl
  | cons m ms ih =>
      rw [writeMembers, ih, List.map_cons, listedFrom]
      simp only [writeMember, memberText, List.append_assoc, List.cons_append]

theorem write_obj (ms : List (String × Json α)) :
    write style depth (.obj ms) =
      '\x7b' :: listed style depth '\x7d' (ms.map (writeMember style depth)) := by
  cases ms with
  | nil => rfl
  | cons m ms =>
      rw [write, writeMembers_eq, List.map_cons, listed]
      simp only [writeMember, memberText, List.append_assoc, List.cons_append]

end Write

/-! ### Scalars -/

def IsRead {σ : Type} (r : List Char → Except Refusal (σ × List Char)) (x : σ) (text : List Char) :
    Prop :=
  Opens text ∧ ∀ rest, EndsNumber rest → r (text ++ rest) = .ok (x, rest)

@[simp] theorem literal?_append (word : String) (rest : List Char) :
    literal? word (word.toList ++ rest) = some rest := by
  have hgo : ∀ ws : List Char, literal?.go ws (ws ++ rest) = some rest := by
    intro ws
    induction ws with
    | nil => rfl
    | cons w ws ih => rw [List.cons_append, literal?.go, if_pos rfl, ih]
  exact hgo word.toList

/-- Numbers start with no character that another value starts with. -/
theorem startsNumber_cases {c : Char} (h : startsNumber c = true) :
    c ≠ '"' ∧ c ≠ 'n' ∧ c ≠ 't' ∧ c ≠ 'f' ∧ c ≠ '[' ∧ c ≠ '\x7b' ∧ isSpace c = false ∧ c ≠ ']' ∧
      c ≠ '\x7d' := by
  have hnot : ∀ d : Char, startsNumber d = false → c ≠ d := by
    rintro d hd rfl
    rw [h] at hd
    cases hd
  refine ⟨hnot _ rfl, hnot _ rfl, hnot _ rfl, hnot _ rfl, hnot _ rfl, hnot _ rfl, ?_, hnot _ rfl,
    hnot _ rfl⟩
  simp only [isSpace, Bool.or_eq_false_iff, decide_eq_false_iff_not]
  exact ⟨⟨⟨hnot _ rfl, hnot _ rfl⟩, hnot _ rfl⟩, hnot _ rfl⟩

theorem opens_number {cs left : List Char} {t : NumberText} (h : numberText? cs = some (t, left)) :
    Opens cs := by
  obtain ⟨c, s, rfl, hc⟩ := exists_startsNumber h
  obtain ⟨-, -, -, -, -, -, hspace, hsquare, hcurly⟩ := startsNumber_cases hc
  exact ⟨c, s, rfl, hspace, hsquare, hcurly⟩

theorem ReadsBack.opens {x : α} (h : ReadsBack x) : Opens (Numeral.dataText x) := by
  obtain ⟨t, htext, -⟩ := h
  exact opens_number htext

/-- A text that neither an array nor an object starts is read as a scalar. -/
theorem value_scalar {c : Char} (hsquare : c ≠ '[') (hcurly : c ≠ '\x7b') (d : Nat)
    (cs : List Char) : value (α := α) d (c :: cs) = scalar (c :: cs) := by
  cases d with
  | zero =>
      unfold value
      split
      · rename_i heq
        exact absurd (List.cons.inj heq).1 hsquare
      · rename_i heq
        exact absurd (List.cons.inj heq).1 hcurly
      · rfl
  | succ d =>
      unfold value
      split
      · rename_i heq
        exact absurd (List.cons.inj heq).1 hsquare
      · rename_i heq
        exact absurd (List.cons.inj heq).1 hcurly
      · rfl

theorem value_number {cs rest : List Char} {t : NumberText} {j : Json α}
    (htext : numberText? cs = some (t, rest)) (hvalue : t.value? = some j) (d : Nat) :
    value d cs = .ok (j, rest) := by
  obtain ⟨c, s, rfl, hc⟩ := exists_startsNumber htext
  obtain ⟨hquote, hn, ht, hf, hsquare, hcurly, -⟩ := startsNumber_cases hc
  rw [value_scalar hsquare hcurly, scalar, if_neg hquote, if_neg hn, if_neg ht, if_neg hf, if_pos hc,
    htext]
  simp only [ofOption, hvalue, bind, Except.bind]

/-- A word whose first character tells it from all other values. -/
theorem isRead_word {σ : Type} {r : List Char → Except Refusal (σ × List Char)} {word : String}
    {x : σ} (c : Char) (hword : word.toList.head? = some c)
    (hopens : isSpace c = false ∧ c ≠ ']' ∧ c ≠ '\x7d')
    (hread : ∀ left, r (c :: left) =
      (ofOption (literal? word (c :: left))).map fun rest => (x, rest)) :
    IsRead r x word.toList := by
  obtain ⟨cs, hword⟩ := List.head?_eq_some_iff.mp hword
  refine ⟨⟨c, cs, hword, hopens⟩, fun rest _ => ?_⟩
  have hliteral := literal?_append word rest
  rw [hword, List.cons_append] at hliteral ⊢
  rw [hread, hliteral]
  rfl

theorem value_string (d : Nat) (s : String) (rest : List Char) :
    value (α := α) d (Quoted.encode s.toList ++ rest) = .ok (.str s, rest) := by
  rw [Quoted.encode, List.cons_append, List.append_assoc, List.singleton_append,
    value_scalar (by decide) (by decide), scalar, if_pos rfl, Quoted.decode?_encoded]
  simp only [ofOption, bind, Except.bind, String.ofList_toList]

/-! ### Lists -/

section Each

variable {σ : Type} {r : List Char → Except Refusal (σ × List Char)} {print : σ → List Char}

/-- Puts the next item in front of those read so far. -/
def itemStep (r : List Char → Except Refusal (σ × List Char)) (xs : List σ) (cs : List Char) :
    Except Refusal (List σ × List Char) := do
  let (x, cs) ← r cs
  .ok (x :: xs, cs)

theorem reads_each {xs : List σ} (h : ∀ x ∈ xs, IsRead r x (print x)) (before : List σ) :
    Reads (itemStep r) before (xs.map print) (xs.reverse ++ before) := by
  induction xs generalizing before with
  | nil => exact .nil before
  | cons x xs ih =>
      obtain ⟨hopens, hread⟩ := h x List.mem_cons_self
      have htail := ih (fun y hy => h y (List.mem_cons_of_mem x hy)) (x :: before)
      rw [List.reverse_cons, List.append_assoc, List.singleton_append]
      refine .cons hopens (fun rest hrest => ?_) htail
      simp only [itemStep, hread rest hrest, bind, Except.bind]

end Each

def entryStep (d : Nat) (ms : List (String × Json α)) (name : String) (cs : List Char) :
    Except Refusal (List (String × Json α) × List Char) := do
  let (v, cs) ← value d cs
  .ok (Keyed.insert name v ms, cs)

theorem reads_members {d : Nat} {style : Style} {depth : Nat} {before ms : List (String × Json α)}
    (hsorted : Keyed.Sorted (before ++ ms))
    (h : ∀ m ∈ ms, IsRead (value d) m.2 (write style (depth + 1) m.2)) :
    Reads (memberStep (entryStep d)) before (ms.map (writeMember style depth)) (before ++ ms) := by
  induction ms generalizing before with
  | nil =>
      rw [List.append_nil]
      exact .nil before
  | cons m ms ih =>
      obtain ⟨hopens, hread⟩ := h m List.mem_cons_self
      have hinsert : Keyed.insert m.1 m.2 before = before ++ [m] :=
        Keyed.insert_of_greatest hsorted
      have hassoc : before ++ m :: ms = before ++ [m] ++ ms := by simp
      rw [hassoc] at hsorted ⊢
      refine .cons_member hopens (fun rest hrest => ?_)
        (ih hsorted fun m hm => h m (List.mem_cons_of_mem _ hm))
      simp only [entryStep, hread rest hrest, hinsert, bind, Except.bind]

/-! ### Reading printed values -/

theorem value_arr (d : Nat) (rest : List Char) :
    value (α := α) (d + 1) ('[' :: rest) =
      (items ']' (itemStep (value d)) [] rest).map fun p => (.arr p.1.reverse, p.2) := rfl

theorem value_obj (d : Nat) (rest : List Char) :
    value (α := α) (d + 1) ('\x7b' :: rest) =
      (items '\x7d' (memberStep (entryStep d)) [] rest).map fun p => (.obj p.1, p.2) := rfl

theorem isRead_write {d : Nat} {j : Json α} (h : Fits d j) (hread : ∀ x ∈ j.numbers, ReadsBack x)
    (style : Style) (depth : Nat) : IsRead (value d) j (write style depth j) := by
  induction h generalizing depth with
  | null d =>
      exact isRead_word 'n' (by decide) (by decide) fun left =>
        value_scalar (by decide) (by decide) d left
  | bool d b =>
      cases b with
      | true =>
          exact isRead_word 't' (by decide) (by decide) fun left =>
            value_scalar (by decide) (by decide) d left
      | false =>
          exact isRead_word 'f' (by decide) (by decide) fun left =>
            value_scalar (by decide) (by decide) d left
  | int d hn =>
      have hopens := opens_number (numberText?_int hn endsNumber_nil)
      rw [List.append_nil] at hopens
      exact ⟨hopens, fun rest hrest => value_number (numberText?_int hn hrest) (value?_int hn) d⟩
  | float d hx =>
      rename_i x
      have hback : ReadsBack x := hread x (by simp [numbers])
      have hwrite : write style depth (.float x) = Numeral.dataText x := by
        rw [write, numberText, if_pos hx]
      rw [hwrite]
      refine ⟨hback.opens, fun rest hrest => ?_⟩
      obtain ⟨t, htext, hvalue⟩ := hback.append hrest
      exact value_number htext hvalue d
  | str d s => exact ⟨opens_encode _, fun rest _ => value_string d s rest⟩
  | arr _ ih =>
      rename_i d vs _
      rw [write_arr]
      refine ⟨⟨'[', _, rfl, rfl, by decide, by decide⟩, fun rest _ => ?_⟩
      have hitems : ∀ v ∈ vs, IsRead (value d) v (write style (depth + 1) v) := fun v hv =>
        ih v hv (fun x hx => hread x (mem_itemNumbers.mpr ⟨v, hv, hx⟩)) (depth + 1)
      have hreads := reads_each hitems []
      rw [List.cons_append, value_arr, items_listed (Or.inl rfl) style depth hreads]
      simp only [Except.map, List.append_nil, List.reverse_reverse]
  | obj hsorted _ ih =>
      rename_i d ms _
      rw [write_obj]
      refine ⟨⟨'\x7b', _, rfl, rfl, by decide, by decide⟩, fun rest _ => ?_⟩
      have hmembers : ∀ m ∈ ms, IsRead (value d) m.2 (write style (depth + 1) m.2) := fun m hm =>
        ih m hm (fun x hx => hread x (mem_memberNumbers.mpr ⟨m, hm, hx⟩)) (depth + 1)
      have hreads : Reads (memberStep (entryStep d)) [] (ms.map (writeMember style depth)) ms :=
        reads_members hsorted hmembers
      rw [List.cons_append, value_obj, items_listed (Or.inr rfl) style depth hreads]
      rfl

end Segue.Json

namespace Segue.Json

/-!
## Fields of records

A printed record is read field by field, in the order in which its fields stand: each of them is
still open when it comes, and a field that is left out keeps its value.
-/

/-! ### Typed readers -/

section Typed

variable {α : Type} [Numeral α] {σ τ : Type}

theorem isRead_string (d : Nat) (s : String) : IsRead (string d) s (Quoted.encode s.toList) := by
  refine ⟨opens_encode _, fun rest _ => ?_⟩
  rw [Quoted.encode, List.cons_append, List.append_assoc, List.singleton_append]
  simp only [string, Quoted.decode?_encoded, ofOption, bind, Except.bind, String.ofList_toList]

theorem isRead_number {x : α} (hx : Scalar.isFinite x = true) (hback : ReadsBack x) (d : Nat) :
    IsRead (number d) x (numberText x) := by
  rw [numberText, if_pos hx]
  refine ⟨hback.opens, fun rest hrest => ?_⟩
  obtain ⟨t, htext, hvalue⟩ := hback.append hrest
  obtain ⟨c, s, hcons, hc⟩ := exists_startsNumber htext
  rw [hcons] at htext ⊢
  simp only [number, hc, if_true, htext, hvalue, asNumber?, ofOption, bind, Except.bind]

theorem isRead_boolean (d : Nat) (b : Bool) (style : Style) (depth : Nat) :
    IsRead (boolean d) b (write style depth (.bool b : Json α)) := by
  cases b with
  | true => exact isRead_word 't' (by decide) (by decide) fun _ => rfl
  | false => exact isRead_word 'f' (by decide) (by decide) fun _ => rfl

/-- A printed value alone is read as a whole text. -/
theorem readAll_ofList {r : Reader σ} {x : σ} {text : List Char} (h : IsRead (r maxNesting) x text) :
    readAll r (String.ofList text) = .ok x := by
  have hread := h.2 [] endsNumber_nil
  rw [List.append_nil] at hread
  rw [readAll, String.toList_ofList, h.1.dropSpace, hread]
  rfl

theorem isRead_checked {r : Reader σ} {d : Nat} {x : σ} {y : τ} {text : List Char}
    {f : σ → Except Refusal τ} (h : IsRead (r d) x text) (hf : f x = .ok y) :
    IsRead (checked r f d) y text := by
  refine ⟨h.1, fun rest hrest => ?_⟩
  simp only [checked, h.2 rest hrest, hf, bind, Except.bind]

/-- What no `n` starts is not `null`. -/
theorem isRead_nullable {r : Reader σ} {d : Nat} {x : σ} {text : List Char}
    (h : IsRead (r d) x text) (hn : text.head? ≠ some 'n') :
    IsRead (nullable r d) (some x) text := by
  obtain ⟨c, s, rfl, hc⟩ := h.1
  refine ⟨⟨c, s, rfl, hc⟩, fun rest hrest => ?_⟩
  have hread := h.2 rest hrest
  rw [List.cons_append] at hread ⊢
  unfold nullable
  split
  · rename_i heq
    rw [List.cons.inj heq |>.1] at hn
    exact absurd rfl hn
  · rw [hread]
    rfl

theorem list_eq (r : Reader σ) (d : Nat) (rest : List Char) :
    list r (d + 1) ('[' :: rest) =
      (items ']' (itemStep (r d)) [] rest).map fun p => (p.1.reverse, p.2) := rfl

theorem isRead_list {r : Reader σ} {d : Nat} {xs : List σ} {print : σ → List Char}
    (h : ∀ x ∈ xs, IsRead (r d) x (print x)) (style : Style) (depth : Nat) :
    IsRead (list r (d + 1)) xs ('[' :: listed style depth ']' (xs.map print)) := by
  refine ⟨⟨'[', _, rfl, by decide⟩, fun rest _ => ?_⟩
  rw [List.cons_append, list_eq, items_listed (Or.inl rfl) style depth (reads_each h [])]
  simp only [Except.map, List.append_nil, List.reverse_reverse]

end Typed

/-! ### Records -/

section Fields

variable {σ τ : Type} {fs : List (FieldReader σ)} {other : σ → String → Reader σ} {d : Nat}

/-- A step of reading the members of a record; `p.2` lists the fields that came. -/
def fieldStep (fs : List (FieldReader σ)) (other : σ → String → Reader σ) (d : Nat)
    (p : σ × List Nat) (name : String) (cs : List Char) :
    Except Refusal ((σ × List Nat) × List Char) :=
  match fs.findIdx? fun f => f.names.contains name with
  | none => do
    let (s, cs) ← other p.1 name d cs
    .ok ((s, p.2), cs)
  | some i =>
    if p.2.contains i then .error .malformed
    else match fs[i]? with
      | none => .error .malformed
      | some f => do
        let (s, cs) ← f.read p.1 d cs
        .ok ((s, i :: p.2), cs)

theorem fields_eq (init : σ) (rest : List Char) :
    fields fs other init (d + 1) ('\x7b' :: rest) =
      (members (fieldStep fs other d) (init, []) rest).map fun p => (p.1.1, p.2) := rfl

theorem record_eq (init : σ) (rest : List Char) :
    record fs init (d + 1) ('\x7b' :: rest) =
      fields fs passOver init (d + 1) ('\x7b' :: rest) := rfl

/-- Printed members that lead from one state to another while the fields up to the `i`-th are
closed, after which those up to the `j`-th may be. -/
def Advances (fs : List (FieldReader σ)) (other : σ → String → Reader σ) (d i : Nat) (s : σ)
    (ps : List (List Char)) (j : Nat) (s' : σ) : Prop :=
  ∀ seen : List Nat, (∀ k ∈ seen, k < i) → ∃ seen' : List Nat, (∀ k ∈ seen', k < j) ∧
    Reads (memberStep (fieldStep fs other d)) (s, seen) ps (s', seen')

theorem Advances.nil (i : Nat) (s : σ) : Advances fs other d i s [] i s :=
  fun seen hseen => ⟨seen, hseen, .nil _⟩

/-- The `i`-th field, under one of its names. -/
theorem Advances.field {i j : Nat} {names : List String} {r : Reader τ} {set : σ → τ → σ}
    {name : String} {x : τ} {text : List Char} {ps : List (List Char)} {style : Style} {s s' : σ}
    (hfield : fs[i]? = some (.of names r set))
    (hname : (fs.findIdx? fun f => f.names.contains name) = some i)
    (hread : IsRead (r d) x text) (h : Advances fs other d (i + 1) (set s x) ps j s') :
    Advances fs other d i s (memberText style name text :: ps) j s' := by
  intro seen hseen
  have hclosed : ∀ k ∈ i :: seen, k < i + 1 := by
    intro k hk
    rcases List.mem_cons.mp hk with rfl | hk
    · exact Nat.lt_succ_self k
    · exact Nat.lt_succ_of_lt (hseen k hk)
  have hopen : seen.contains i = false := by
    rw [List.contains_eq_mem, decide_eq_false_iff_not]
    exact fun hi => absurd (hseen i hi) (Nat.lt_irrefl i)
  obtain ⟨seen', hseen', hreads⟩ := h (i :: seen) hclosed
  refine ⟨seen', hseen', .cons_member hread.1 (fun rest hrest => ?_) hreads⟩
  simp only [fieldStep, hname, hopen, hfield, FieldReader.of, hread.2 rest hrest,
    Bool.false_eq_true, if_false, bind, Except.bind]

/-- A field that is written only if it is there. -/
theorem Advances.optional {i j : Nat} {names : List String} {r : Reader (Option τ)}
    {set : σ → Option τ → σ} {name : String} {x : Option τ} {print : τ → List Char}
    {ps : List (List Char)} {style : Style} {s s' : σ}
    (hfield : fs[i]? = some (.of names r set))
    (hname : (fs.findIdx? fun f => f.names.contains name) = some i) (hnone : set s none = s)
    (hread : ∀ y, x = some y → IsRead (r d) (some y) (print y))
    (h : Advances fs other d (i + 1) (set s x) ps j s') :
    Advances fs other d i s ((x.toList.map fun y => memberText style name (print y)) ++ ps) j s' := by
  cases x with
  | none =>
      rw [hnone] at h
      exact fun seen hseen => h seen fun k hk => Nat.lt_succ_of_lt (hseen k hk)
  | some y => exact .field hfield hname (hread y rfl) h

theorem isRead_fields {init s : σ} {ps : List (List Char)} {n : Nat}
    (h : Advances fs other d 0 init ps n s) (style : Style) (depth : Nat) :
    IsRead (fields fs other init (d + 1)) s ('\x7b' :: listed style depth '\x7d' ps) := by
  obtain ⟨seen, -, hreads⟩ := h [] (by simp)
  refine ⟨⟨'\x7b', _, rfl, by decide⟩, fun rest _ => ?_⟩
  rw [List.cons_append, fields_eq, members_eq, items_listed (Or.inr rfl) style depth hreads]
  rfl

theorem isRead_record {init s : σ} {ps : List (List Char)} {n : Nat}
    (h : Advances fs passOver d 0 init ps n s) (style : Style) (depth : Nat) :
    IsRead (record fs init (d + 1)) s ('\x7b' :: listed style depth '\x7d' ps) := by
  have hfields := isRead_fields h style depth
  refine ⟨hfields.1, fun rest hrest => ?_⟩
  have hread := hfields.2 rest hrest
  rw [List.cons_append] at hread ⊢
  rw [record_eq, hread]

end Fields

end Segue.Json
