import Segue.Toml.Document
import Segue.Toml.Printer
import Segue.Proofs.Decimal.Digits
import Segue.Proofs.Decimal.Finite
import Segue.Proofs.Json.Scalar

/-!
# Scalars in TOML

The text of a scalar at the end of a line is read as that scalar. Strings are read back whatever
they hold, integers if they have 64 bits; for floats it is enough that their own text is read back.
-/

namespace Segue.Toml

open Decimal (NoDigit noDigit_cons)

/-- The text of a value, at the end of a line, is read as the value. -/
structure ReadBack (v : Toml) : Prop where
  start : ∀ c ∈ (inlineText v).head?, isSpace c = false
  value : ∀ rest, value? maxDepth (inlineText v ++ '\n' :: rest) = some (v, '\n' :: rest)

@[simp] theorem inlineText_str (s : String) : inlineText (.str s) = quoted s := rfl

@[simp] theorem inlineText_int (n : Int) : inlineText (.int n) = (toString n).toList := rfl

@[simp] theorem inlineText_float (x : Float) : inlineText (.float x) = floatText x := rfl

/-! ## Strings -/

@[simp] theorem charOf?_toNat (c : Char) : charOf? c.toNat = some c := by
  have hvalid : c.toNat.isValidChar := c.valid
  rw [charOf?, if_pos hvalid, Char.ofNat_toNat]

/-- The escape of a control character is read as that character. -/
theorem escape?_control {c : Char} (hc : c.toNat < 256) (rest : List Char) :
    escape? ('u' :: '0' :: '0' :: Json.Quoted.hexDigit (c.toNat / 16) ::
      Json.Quoted.hexDigit c.toNat :: rest) = some (c, rest) := by
  have hzero : Json.Quoted.hexValue? '0' = some 0 := by decide
  have hvalue : 16 * (16 * (16 * (16 * 0 + 0) + 0) + c.toNat / 16 % 16) + c.toNat % 16 =
      c.toNat := by omega
  simp only [escape?, hexDigits?, hzero, Json.Quoted.hexValue?_hexDigit, Option.bind_eq_bind,
    Option.bind_some, hvalue, charOf?_toNat]

/-- A character stands for itself, or for it stands a backslash with an escape. -/
inductive Written (c : Char) : List Char → Prop where
  | plain : c ≠ '"' → c ≠ '\\' → isText c = true → Written c [c]
  | escaped (e : List Char) : (∀ rest, escape? (e ++ rest) = some (c, rest)) → Written c ('\\' :: e)

theorem written_escapeChar (c : Char) : Written c (escapeChar c) := by
  unfold escapeChar
  split
  case h_6 hquote hslash htab _ _ =>
    split
    · rename_i hcontrol
      have hsmall : c.toNat < 256 := by
        simp only [Bool.or_eq_true, decide_eq_true_eq] at hcontrol
        omega
      exact .escaped _ fun rest => escape?_control hsmall rest
    · rename_i hplain
      refine .plain hquote hslash ?_
      simp only [Bool.or_eq_true, decide_eq_true_eq, not_or] at hplain
      simp only [isText, Bool.or_eq_true, Bool.and_eq_true, decide_eq_true_eq]
      omega
  all_goals exact .escaped _ fun _ => rfl

theorem Written.length_pos {c : Char} {w : List Char} (h : Written c w) : 0 < w.length := by
  cases h <;> exact Nat.zero_lt_succ _

theorem basicBody?_written {c : Char} {w : List Char} (h : Written c w) (n : Nat)
    (rest : List Char) :
    basicBody? (n + 1) (w ++ rest) = (basicBody? n rest).map fun p => (c :: p.1, p.2) := by
  cases h with
  | plain hquote hslash htext =>
      rw [List.singleton_append, basicBody?, if_neg hquote, if_neg hslash, if_pos htext]
      cases basicBody? n rest <;> rfl
  | escaped e he =>
      rw [List.cons_append, basicBody?, if_neg (by decide), if_pos rfl, he]
      cases hbody : basicBody? n rest with
      | none => simp [hbody]
      | some p => simp [hbody]

theorem basicBody?_escaped (cs rest : List Char) {n : Nat} (hn : cs.length < n) :
    basicBody? n (cs.flatMap escapeChar ++ '"' :: rest) = some (cs, rest) := by
  induction cs generalizing n with
  | nil =>
      obtain ⟨n, rfl⟩ := Nat.exists_eq_add_one_of_ne_zero (Nat.ne_zero_of_lt hn)
      rw [List.flatMap_nil, List.nil_append, basicBody?, if_pos rfl]
  | cons c cs ih =>
      obtain ⟨n, rfl⟩ := Nat.exists_eq_add_one_of_ne_zero (Nat.ne_zero_of_lt hn)
      rw [List.flatMap_cons, List.append_assoc, basicBody?_written (written_escapeChar c),
        ih (Nat.lt_of_succ_lt_succ hn)]
      rfl

theorem length_le_escaped (cs : List Char) : cs.length ≤ (cs.flatMap escapeChar).length := by
  induction cs with
  | nil => exact Nat.zero_le _
  | cons c cs ih =>
      have hpos := (written_escapeChar c).length_pos
      rw [List.flatMap_cons, List.length_append, List.length_cons]
      omega

@[simp] theorem lineString?_quoted (s : String) (rest : List Char) :
    lineString? (quoted s ++ rest) = some (s, rest) := by
  have hlength : s.toList.length <
      (s.toList.flatMap escapeChar ++ ['"'] ++ rest).length + 1 := by
    have := length_le_escaped s.toList
    rw [List.length_append, List.length_append]
    omega
  rw [quoted, List.cons_append, lineString?, List.append_assoc, List.singleton_append,
    basicBody?_escaped _ _ (by rw [List.append_assoc] at hlength; exact hlength), Option.map_some]
  dsimp only
  rw [String.ofList_toList]

/-- No written character starts with a quote, so two quotes in a row are an empty string. -/
theorem Written.head {c : Char} {w : List Char} (h : Written c w) : ∀ d ∈ w.head?, d ≠ '"' := by
  cases h with
  | plain hquote => simpa using hquote
  | escaped e => simp

theorem string?_quoted (s : String) {rest : List Char} (hrest : ∀ c ∈ rest.head?, c ≠ '"') :
    string? (quoted s ++ rest) = some (s, rest) := by
  have hthree : ∀ cs, quoted s ++ rest ≠ '"' :: '"' :: '"' :: cs := by
    intro cs h
    rw [quoted, List.cons_append, List.append_assoc] at h
    have hbody := (List.cons.inj h).2
    cases hs : s.toList with
    | nil =>
        rw [hs] at hbody
        have : rest = '"' :: cs := (List.cons.inj hbody).2
        exact hrest '"' (by simp [this]) rfl
    | cons c t =>
        have hwritten := written_escapeChar c
        rw [hs, List.flatMap_cons, List.append_assoc] at hbody
        cases hw : escapeChar c with
        | nil => exact absurd hwritten.length_pos (by simp [hw])
        | cons d w =>
            rw [hw] at hbody hwritten
            exact hwritten.head d rfl (List.cons.inj hbody).1
  have hliteral : ∀ cs, quoted s ++ rest ≠ '\'' :: '\'' :: '\'' :: cs := by
    intro cs h
    rw [quoted, List.cons_append] at h
    exact absurd (List.cons.inj h).1 (by decide)
  rw [string?]
  · exact lineString?_quoted s rest
  · exact hthree
  · exact hliteral

/-! ## Numbers -/

def atLineFeed {σ : Type} (rest : List Char) (p : σ × List Char) : σ × List Char :=
  (p.1, p.2 ++ '\n' :: rest)

theorem digits?_of_not {p : Char → Bool} {c : Char} (hc : p c = false) (cs : List Char) :
    digits? p (c :: cs) = none := by
  unfold digits?
  rw [hc]
  rfl

theorem digits?_cons {p : Char → Bool} {c : Char} {cs : List Char} (hc : p c = true)
    (hunder : ∀ t, cs ≠ '_' :: t) :
    digits? p (c :: cs) =
      some (((digits? p cs).map fun q => (c :: q.1, q.2)).getD ([c], cs)) := by
  rw [digits?, hc]
  · cases digits? p cs <;> rfl
  · exact hunder

/-- What a text does not start with, it does not start with when a line feed follows it. -/
theorem not_start_lineFeed {w cs : List Char} (hw : '\n' ∉ w) (h : ∀ t, cs ≠ w ++ t)
    (rest : List Char) : ∀ t, cs ++ '\n' :: rest ≠ w ++ t := by
  intro t heq
  rcases List.append_eq_append_iff.mp heq with ⟨left, rfl, hleft⟩ | ⟨left, rfl, -⟩
  · cases left with
    | nil => exact h [] (by rw [List.append_nil, List.append_nil])
    | cons c left =>
        rw [← (List.cons.inj hleft).1] at hw
        exact hw (List.mem_append_right _ List.mem_cons_self)
  · exact h left rfl

theorem digits?_lineFeed {p : Char → Bool} (hp : p '\n' = false) (cs rest : List Char) :
    digits? p (cs ++ '\n' :: rest) = (digits? p cs).map (atLineFeed rest) := by
  fun_induction digits? p cs with
  | case1 => exact digits?_of_not hp rest
  | case2 c cs hc => exact digits?_of_not (by simpa using hc) _
  | case3 c hc cs ih =>
      rw [List.cons_append, List.cons_append, digits?, if_neg hc, ih, Option.map_map,
        Option.map_map]
      rfl
  | case4 c hc cs hunder ds r heq ih | case5 c hc cs hunder heq ih =>
      rw [List.cons_append, digits?_cons (by simpa using hc), ih, heq]
      · rfl
      · exact not_start_lineFeed (w := ['_']) (by decide) hunder rest

theorem wholeDigits?_lineFeed (cs rest : List Char) :
    wholeDigits? (cs ++ '\n' :: rest) = (wholeDigits? cs).map (atLineFeed rest) := by
  unfold wholeDigits?
  rw [digits?_lineFeed (by decide)]
  cases hdigits : digits? Char.isDigit cs with
  | none => rfl
  | some q =>
      obtain ⟨ds, left⟩ := q
      simp only [atLineFeed, Option.map_some, Option.bind_eq_bind, Option.bind_some]
      split
      · by_cases hzero : ∃ t, cs = '0' :: '_' :: t
        · obtain ⟨t, rfl⟩ := hzero
          rfl
        · have hcs : ∀ t, cs ≠ '0' :: '_' :: t := fun t h => hzero ⟨t, h⟩
          have happend := not_start_lineFeed (w := ['0', '_']) (by decide) hcs rest
          split
          · rename_i heq
            exact absurd heq (happend _)
          · split <;> rfl
      · rfl

theorem fraction?_lineFeed (cs rest : List Char) :
    fraction? (cs ++ '\n' :: rest) = (fraction? cs).map (atLineFeed rest) := by
  cases cs with
  | nil => rfl
  | cons c cs =>
      by_cases hc : c = '.'
      · subst hc
        rw [List.cons_append, fraction?, fraction?, digits?_lineFeed (by decide), Option.map_map,
          Option.map_map]
        rfl
      · have hdot : ∀ t u, c :: t ≠ '.' :: u := fun t u h => hc (List.cons.inj h).1
        rw [List.cons_append, fraction?, fraction?]
        · rfl
        · exact fun u => hdot _ u
        · exact fun u => hdot _ u

theorem takeSign_lineFeed (cs rest : List Char) :
    Decimal.takeSign (cs ++ '\n' :: rest) = atLineFeed rest (Decimal.takeSign cs) := by
  cases cs with
  | nil => rfl
  | cons c cs =>
      by_cases hminus : c = '-'
      · subst hminus
        rfl
      · by_cases hplus : c = '+'
        · subst hplus
          rfl
        · have hm : ∀ t u, c :: t ≠ '-' :: u := fun t u h => hminus (List.cons.inj h).1
          have hp : ∀ t u, c :: t ≠ '+' :: u := fun t u h => hplus (List.cons.inj h).1
          rw [List.cons_append, Decimal.takeSign, Decimal.takeSign]
          · rfl
          · exact fun u => hm _ u
          · exact fun u => hp _ u
          · exact fun u => hm _ u
          · exact fun u => hp _ u

theorem exponent?_lineFeed (cs rest : List Char) :
    exponent? (cs ++ '\n' :: rest) = (exponent? cs).map (atLineFeed rest) := by
  cases cs with
  | nil => rfl
  | cons c cs =>
      unfold exponent?
      rw [List.cons_append]
      dsimp only
      split
      · rw [takeSign_lineFeed]
        simp only [atLineFeed]
        rw [digits?_lineFeed (by decide)]
        cases digits? Char.isDigit (Decimal.takeSign cs).2 <;> rfl
      · rfl

theorem decimal?_lineFeed (cs rest : List Char) :
    decimal? (cs ++ '\n' :: rest) = (decimal? cs).map (atLineFeed rest) := by
  unfold decimal?
  rw [takeSign_lineFeed]
  generalize Decimal.takeSign cs = q
  obtain ⟨negative, cs⟩ := q
  simp only [atLineFeed]
  by_cases hinf : ∃ t, cs = 'i' :: 'n' :: 'f' :: t
  · obtain ⟨t, rfl⟩ := hinf
    rfl
  · by_cases hnan : ∃ t, cs = 'n' :: 'a' :: 'n' :: t
    · obtain ⟨t, rfl⟩ := hnan
      rfl
    · have hinf' : ∀ t, cs ≠ 'i' :: 'n' :: 'f' :: t := fun t h => hinf ⟨t, h⟩
      have hnan' : ∀ t, cs ≠ 'n' :: 'a' :: 'n' :: t := fun t h => hnan ⟨t, h⟩
      have hinfNext := not_start_lineFeed (w := ['i', 'n', 'f']) (by decide) hinf' rest
      have hnanNext := not_start_lineFeed (w := ['n', 'a', 'n']) (by decide) hnan' rest
      split
      · rename_i heq
        exact absurd heq (hinfNext _)
      · rename_i heq
        exact absurd heq (hnanNext _)
      · rw [wholeDigits?_lineFeed]
        cases wholeDigits? cs with
        | none => rfl
        | some p =>
            obtain ⟨ds, left⟩ := p
            simp only [Option.map_some, Option.bind_eq_bind, Option.bind_some, atLineFeed]
            rw [fraction?_lineFeed]
            cases fraction? left with
            | none => rfl
            | some p =>
                obtain ⟨part, left⟩ := p
                simp only [Option.map_some, Option.bind_some, atLineFeed]
                rw [exponent?_lineFeed]
                cases exponent? left with
                | none => rfl
                | some p =>
                    obtain ⟨e, left⟩ := p
                    simp only [apply_ite (Option.map (atLineFeed rest)), Option.map_some,
                      Option.map_none, Option.bind_some, atLineFeed]
                    rfl

/-- A sign and digits, and then nothing that a date, a time or another base goes on with. -/
structure StartsNumber (sign ds : List Char) (c : Char) : Prop where
  sign : sign = [] ∨ sign = ['-']
  digits : ∀ d ∈ ds, d.isDigit = true
  nonempty : ds ≠ []
  ends : c.isDigit = false
  other : c ∉ ['-', ':', 'x', 'o', 'b']

section StartsNumber

variable {sign ds : List Char} {c : Char}

theorem StartsNumber.startsTime (h : StartsNumber sign ds c) (rest : List Char) :
    startsTime (sign ++ ds ++ c :: rest) = false := by
  have hother := h.other
  rcases h.sign with rfl | rfl
  · rw [List.nil_append, Toml.startsTime,
      Decimal.takeWhile_digits h.digits (noDigit_cons h.ends rest), List.drop_left]
    split
    · rename_i heq
      obtain rfl := (List.cons.inj heq).1
      exact absurd hother (by decide)
    · rename_i heq
      obtain rfl := (List.cons.inj heq).1
      exact absurd hother (by decide)
    · rfl
  · rfl

theorem basedInt?_eq_none {cs : List Char}
    (h : ∀ b t, cs = '0' :: b :: t → b ∉ ['x', 'o', 'b']) : basedInt? cs = none := by
  unfold basedInt?
  split
  · exact absurd rfl (mt (h 'x' _) (by decide))
  · exact absurd rfl (mt (h 'o' _) (by decide))
  · exact absurd rfl (mt (h 'b' _) (by decide))
  · rfl

theorem StartsNumber.basedInt? (h : StartsNumber sign ds c) (rest : List Char) :
    Toml.basedInt? (sign ++ ds ++ c :: rest) = none := by
  refine basedInt?_eq_none fun b t heq hb => ?_
  have hletter : b.isDigit = false := by
    simp only [List.mem_cons, List.not_mem_nil, or_false] at hb
    rcases hb with rfl | rfl | rfl <;> decide
  rcases h.sign with rfl | rfl
  · cases ds with
    | nil => exact h.nonempty rfl
    | cons d ds =>
        have htail := (List.cons.inj heq).2
        cases ds with
        | nil =>
            obtain rfl := (List.cons.inj htail).1
            exact h.other (List.mem_cons_of_mem _ (List.mem_cons_of_mem _ hb))
        | cons e ds =>
            obtain rfl := (List.cons.inj htail).1
            exact absurd (h.digits e (by simp)) (by simp [hletter])
  · exact absurd (List.cons.inj heq).1 (by decide)

theorem StartsNumber.head (h : StartsNumber sign ds c) (rest : List Char) :
    ∃ a t, sign ++ ds ++ c :: rest = a :: t ∧ ∀ b, b ≠ '-' → b.isDigit = false → a ≠ b := by
  have hminus : ∀ b, b ≠ '-' → b.isDigit = false → '-' ≠ b := fun b hb _ => hb.symm
  have hdigit : ∀ a, a.isDigit = true → ∀ b, b ≠ '-' → b.isDigit = false → a ≠ b := by
    rintro a ha b - hb rfl
    exact absurd ha (by simp [hb])
  rcases h.sign with rfl | rfl
  · cases hds : ds with
    | nil => exact absurd hds h.nonempty
    | cons d ds' => exact ⟨d, _, rfl, hdigit d (h.digits d (by simp [hds]))⟩
  · exact ⟨'-', _, rfl, hminus⟩

theorem StartsNumber.scalar? (h : StartsNumber sign ds c) (rest : List Char) :
    Toml.scalar? (sign ++ ds ++ c :: rest) = Toml.decimal? (sign ++ ds ++ c :: rest) := by
  have htime := h.startsTime rest
  have hbased := h.basedInt? rest
  obtain ⟨a, t, heq, hne⟩ := h.head rest
  have hquotes : ¬(decide (a = '"') || decide (a = '\'')) = true := by
    simp [hne '"' (by decide) (by decide), hne '\'' (by decide) (by decide)]
  rw [heq] at htime hbased ⊢
  rw [Toml.scalar?, if_neg hquotes, if_neg (hne 't' (by decide) (by decide)),
    if_neg (hne 'f' (by decide) (by decide)), htime, if_neg Bool.false_ne_true, hbased]

end StartsNumber

theorem value?_eq_scalar? {cs : List Char} (h : ∀ c ∈ cs.head?, c ≠ '[' ∧ c ≠ '\x7b') (d : Nat) :
    value? d cs = scalar? cs := by
  have hopen : ∀ t, cs ≠ '[' :: t := by
    rintro t rfl
    exact (h '[' rfl).1 rfl
  have hbrace : ∀ t, cs ≠ '\x7b' :: t := by
    rintro t rfl
    exact (h '\x7b' rfl).2 rfl
  cases d with
  | zero => rw [value?] <;> assumption
  | succ d => rw [value?] <;> assumption

theorem readBack_number {v : Toml} {sign ds : List Char} {c : Char}
    (h : StartsNumber sign ds c) (hread : decimal? (inlineText v) = some (v, []))
    (htext : ∀ rest, ∃ t, inlineText v ++ '\n' :: rest = sign ++ ds ++ c :: t) : ReadBack v := by
  constructor
  · intro b hb
    obtain ⟨t, ht⟩ := htext []
    obtain ⟨a, u, heq, hne⟩ := h.head t
    have hhead : (inlineText v ++ ['\n']).head? = some b := by
      rw [List.head?_append, hb]
      rfl
    rw [ht, heq] at hhead
    obtain rfl : a = b := Option.some.inj hhead
    simp [isSpace, hne ' ' (by decide) (by decide), hne '\t' (by decide) (by decide)]
  · intro rest
    obtain ⟨t, ht⟩ := htext rest
    obtain ⟨a, u, heq, hne⟩ := h.head t
    have hopen : ∀ b ∈ (inlineText v ++ '\n' :: rest).head?, b ≠ '[' ∧ b ≠ '\x7b' := by
      rw [ht, heq]
      rintro b hb
      obtain rfl : a = b := Option.some.inj hb
      exact ⟨hne '[' (by decide) (by decide), hne '\x7b' (by decide) (by decide)⟩
    rw [value?_eq_scalar? hopen, ht, h.scalar?, ← ht, decimal?_lineFeed, hread]
    rfl

theorem digits?_eq {ds : List Char} (hne : ds ≠ []) (hds : ∀ d ∈ ds, d.isDigit = true) :
    digits? Char.isDigit ds = some (ds, []) := by
  induction ds with
  | nil => exact absurd rfl hne
  | cons d ds ih =>
      have hunder : ∀ t, ds ≠ '_' :: t := by
        rintro t rfl
        exact absurd (hds '_' (by simp)) (by decide)
      rw [digits?_cons (hds d List.mem_cons_self) hunder]
      cases hrest : ds with
      | nil => rfl
      | cons e es =>
          rw [← hrest, ih (by simp [hrest]) fun c hc => hds c (List.mem_cons_of_mem d hc)]
          rfl

@[simp] theorem wholeDigits?_toDigits (n : Nat) :
    wholeDigits? (Nat.toDigits 10 n) = some (Nat.toDigits 10 n, []) := by
  have hdigits := digits?_eq (Nat.toDigits_ne_nil (b := 10) (n := n)) fun d hd =>
    Decimal.isDigit_toDigits hd
  have hone : (Nat.toDigits 10 n).head? = some '0' → ¬1 < (Nat.toDigits 10 n).length :=
    fun hzero hlength => Decimal.head?_toDigits_of_length hlength hzero
  unfold wholeDigits?
  rw [hdigits, Option.bind_eq_bind, Option.bind_some]
  dsimp only
  split
  · rename_i hzero
    split
    · rename_i heq
      refine absurd ?_ (hone hzero)
      rw [heq, List.length_cons, List.length_cons]
      omega
    · rw [if_neg (hone hzero)]
  · rfl

theorem decimal?_digits {cs : List Char} {negative : Bool} {n : Nat}
    (hsign : Decimal.takeSign cs = (negative, Nat.toDigits 10 n))
    (hword : isWord (if negative then -(n : Int) else n) = true) :
    decimal? cs = some (.int (if negative then -(n : Int) else n), []) := by
  have hhead : ∀ c t, Nat.toDigits 10 n = c :: t → c.isDigit = true := by
    intro c t heq
    exact Decimal.isDigit_toDigits (n := n) (by rw [heq]; exact List.mem_cons_self)
  unfold decimal?
  rw [hsign]
  dsimp only
  split
  · rename_i heq
    exact absurd (hhead _ _ heq) (by decide)
  · rename_i heq
    exact absurd (hhead _ _ heq) (by decide)
  · rw [wholeDigits?_toDigits, Option.bind_eq_bind, Option.bind_some]
    dsimp only [fraction?, exponent?]
    rw [Option.bind_eq_bind, Option.bind_some, Option.bind_eq_bind, Option.bind_some]
    dsimp only
    rw [Decimal.ofDigits_toDigits, if_pos hword]
    rfl

theorem startsNumber_toDigits {sign : List Char} (hsign : sign = [] ∨ sign = ['-']) (n : Nat) :
    StartsNumber sign (Nat.toDigits 10 n) '\n' where
  sign := hsign
  digits := fun _ hd => Decimal.isDigit_toDigits hd
  nonempty := Nat.toDigits_ne_nil
  ends := by decide
  other := by decide

@[simp] theorem takeSign_toDigits (n : Nat) :
    Decimal.takeSign (Nat.toDigits 10 n) = (false, Nat.toDigits 10 n) := by
  cases hdigits : Nat.toDigits 10 n with
  | nil => rfl
  | cons c t =>
      have hc : c.isDigit = true :=
        Decimal.isDigit_toDigits (n := n) (by rw [hdigits]; exact List.mem_cons_self)
      rw [Decimal.takeSign]
      · intro u h
        obtain rfl := (List.cons.inj h).1
        exact absurd hc (by decide)
      · intro u h
        obtain rfl := (List.cons.inj h).1
        exact absurd hc (by decide)

theorem readBack_int {n : Int} (hn : isWord n = true) : ReadBack (.int n) := by
  have htext : inlineText (.int n) = (if n < 0 then ['-'] else []) ++ Nat.toDigits 10 n.natAbs := by
    rw [inlineText_int, Decimal.toList_toString_int]
  by_cases hneg : n < 0
  · have hvalue : (if true then -(n.natAbs : Int) else n.natAbs) = n := by
      rw [if_pos rfl]
      omega
    have hsign : Decimal.takeSign ('-' :: Nat.toDigits 10 n.natAbs) =
        (true, Nat.toDigits 10 n.natAbs) := rfl
    have hread := decimal?_digits hsign (by rw [hvalue]; exact hn)
    rw [hvalue] at hread
    rw [if_pos hneg] at htext
    have hstart := startsNumber_toDigits (.inr rfl) n.natAbs
    exact readBack_number hstart (htext ▸ hread) fun rest => ⟨rest, by rw [htext]⟩
  · have hvalue : (if false then -(n.natAbs : Int) else n.natAbs) = n := by
      rw [if_neg Bool.false_ne_true]
      omega
    have hread := decimal?_digits (takeSign_toDigits n.natAbs) (by rw [hvalue]; exact hn)
    rw [hvalue] at hread
    rw [if_neg hneg] at htext
    have hstart := startsNumber_toDigits (.inl rfl) n.natAbs
    exact readBack_number hstart (htext ▸ hread) fun rest => ⟨rest, by rw [htext]⟩

theorem readBack_str (s : String) : ReadBack (.str s) := by
  constructor
  · intro c hc
    rw [inlineText_str] at hc
    obtain rfl : '"' = c := Option.some.inj hc
    decide
  · intro rest
    have hopen : ∀ c ∈ (quoted s ++ '\n' :: rest).head?, c ≠ '[' ∧ c ≠ '\x7b' := by
      intro c hc
      obtain rfl : '"' = c := Option.some.inj hc
      decide
    have hstring : string? (quoted s ++ '\n' :: rest) = some (s, '\n' :: rest) :=
      string?_quoted s (by simp)
    rw [inlineText_str, value?_eq_scalar? hopen]
    rw [quoted, List.cons_append] at hstring ⊢
    rw [scalar?, if_pos (by decide), hstring]
    rfl

def Marked (cs : List Char) : Prop :=
  ∃ ds c t, cs = ds ++ c :: t ∧ ds ≠ [] ∧ (∀ d ∈ ds, d.isDigit = true) ∧ (c = '.' ∨ c = 'e')

theorem marked_positional {ds : List Char} (hne : ds ≠ []) (hds : ∀ d ∈ ds, d.isDigit = true)
    (e : Int) : Marked (Decimal.positional ds e true) := by
  unfold Decimal.positional
  split
  · refine ⟨['0'], '.', Decimal.zeros (-e - 1).toNat ++ ds, rfl, by simp, fun d hd => ?_, .inl rfl⟩
    rw [List.mem_singleton.mp hd]
    rfl
  · dsimp only
    split
    · rename_i hlength
      refine ⟨ds.take (e.toNat + 1), '.', _, rfl, ?_, fun d hd => hds d (List.mem_of_mem_take hd),
        .inl rfl⟩
      simpa using hne
    · refine ⟨ds ++ Decimal.zeros (e.toNat + 1 - ds.length), '.', ['0'], rfl,
        List.append_ne_nil_of_left_ne_nil hne _, ?_, .inl rfl⟩
      intro d hd
      rcases List.mem_append.mp hd with hd | hd
      · exact hds d hd
      · rw [List.eq_of_mem_replicate hd]
        decide

theorem marked_scientific {ds : List Char} (hne : ds ≠ []) (hds : ∀ d ∈ ds, d.isDigit = true)
    (e : Int) (signed : Bool) : Marked (Decimal.scientific ds e signed) := by
  unfold Decimal.scientific
  cases ds with
  | nil => exact absurd rfl hne
  | cons d ds =>
      have hd : ∀ c ∈ [d], c.isDigit = true := by
        intro c hc
        rw [List.mem_singleton.mp hc]
        exact hds d List.mem_cons_self
      cases ds with
      | nil => exact ⟨[d], 'e', _, rfl, by simp, hd, .inr rfl⟩
      | cons e ds => exact ⟨[d], '.', _, rfl, by simp, hd, .inl rfl⟩

theorem marked_magnitude {l : Decimal.Layout} (hl : l.pointZero = true) (x : Float) :
    Marked (l.magnitude x) := by
  have hne : (Decimal.shortest l.tie x).leading.1 ≠ [] := Nat.toDigits_ne_nil
  have hds : ∀ d ∈ (Decimal.shortest l.tie x).leading.1, d.isDigit = true :=
    fun _ hd => Decimal.isDigit_toDigits hd
  rw [Decimal.Layout.magnitude]
  generalize (Decimal.shortest l.tie x).leading = p at hne hds ⊢
  obtain ⟨ds, e⟩ := p
  dsimp only at hne hds ⊢
  rw [hl]
  split
  · exact marked_positional hne hds _
  · exact marked_scientific hne hds _ _

theorem readBack_float {x : Float} (hfinite : x.isFinite = true)
    (hread : decimal? (floatText x) = some (.float x, [])) : ReadBack (.float x) := by
  obtain ⟨hnan, hinf⟩ := Decimal.isNaN_isInf_of_isFinite hfinite
  obtain ⟨ds, c, t, hmagnitude, hne, hds, hc⟩ := marked_magnitude (l := floatLayout) rfl x
  have htext : inlineText (.float x) =
      (if Decimal.isNegative x then ['-'] else []) ++ (ds ++ c :: t) := by
    rw [inlineText_float, floatText, hnan, if_neg Bool.false_ne_true, Decimal.Layout.render, hnan,
      if_neg Bool.false_ne_true, hinf, if_neg Bool.false_ne_true, String.toList_ofList, hmagnitude]
  have hstart : StartsNumber (if Decimal.isNegative x then ['-'] else []) ds c := by
    refine ⟨?_, hds, hne, ?_, ?_⟩
    · split <;> simp
    · rcases hc with rfl | rfl <;> decide
    · rcases hc with rfl | rfl <;> decide
  refine readBack_number hstart ?_ fun rest => ⟨t ++ '\n' :: rest, ?_⟩
  · rw [inlineText_float]
    exact hread
  · rw [htext, List.append_assoc, List.append_assoc, List.append_assoc]
    rfl

end Segue.Toml
