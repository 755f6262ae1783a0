import Mathlib
import Segue.Duration
import Segue.Proofs.Basic
import Segue.Proofs.Decimal.Digits
import Segue.Proofs.Text

/-!
# Durations read back

A duration of at most a word of seconds is written in parts that add up to it. Each part is read
with the unit it was written with, and the sum of the parts so far is never too long, so the text
gives the duration again.

Two readings break down: that of a float from `2^64` seconds on, and that of a text in which the
nanoseconds of a span make up the second that is one too many.
-/

namespace Segue.Duration

/-- At most a word of seconds. -/
def InRange (d : Duration) : Prop := d.seconds ≤ maxWord

instance (d : Duration) : Decidable d.InRange := inferInstanceAs (Decidable (d.seconds ≤ maxWord))

def Unit.nanos (u : Unit) : Nat := u.shortNanos?.getD (u.inSeconds * perSecond)

theorem perSecond_pos : 0 < perSecond := by decide

/-- A timer lasts at least as long as it is meant to. -/
theorem nanos_le_millis (d : Duration) : d.nanos ≤ 1000000 * d.millis := by
  unfold millis
  omega

/-! ## Sums -/

theorem add_eq {d : Duration} {seconds nanos : Nat} (hnanos : nanos < perSecond)
    (h : InRange ⟨d.nanos + seconds * perSecond + nanos⟩) :
    d.add seconds nanos = .ok ⟨d.nanos + seconds * perSecond + nanos⟩ := by
  simp only [InRange, Duration.seconds] at h
  have hfine : ¬maxWord < d.nanos % perSecond + nanos := by
    simp only [perSecond, maxWord] at hnanos ⊢
    omega
  have hword : d.seconds + seconds + (d.nanos % perSecond + nanos) / perSecond ≤ maxWord := by
    simp only [Duration.seconds, perSecond] at h ⊢
    omega
  have hsum : (d.seconds + seconds + (d.nanos % perSecond + nanos) / perSecond) * perSecond +
      (d.nanos % perSecond + nanos) % perSecond = d.nanos + seconds * perSecond + nanos := by
    simp only [Duration.seconds, perSecond]
    omega
  rw [add, if_neg hfine, if_pos hword, hsum]

theorem add_zero {d : Duration} (h : d.InRange) : d.add 0 0 = .ok d := by
  simpa using @add_eq d 0 0 perSecond_pos (by simpa using h)

/-- A number with a unit that does not add up to more than a second, if the unit is shorter than
one. -/
structure Fine (k : Nat) (u : Unit) : Prop where
  whole : k ≤ maxWord
  short : ∀ n, u.shortNanos? = some n → k * n < perSecond

theorem addSpan_whole (d : Duration) {k seconds nanos : Nat} {u : Unit}
    (h : (⟨k, none, u⟩ : Span).whole? = some (seconds, nanos)) :
    d.addSpan ⟨k, none, u⟩ = d.add seconds nanos >>= fun d => d.add 0 0 := by
  rw [addSpan, h]
  rfl

theorem addSpan_eq {d : Duration} {k : Nat} {u : Unit} (hfine : Fine k u)
    (h : InRange ⟨d.nanos + k * u.nanos⟩) :
    d.addSpan ⟨k, none, u⟩ = .ok ⟨d.nanos + k * u.nanos⟩ := by
  obtain ⟨seconds, nanos, hwhole, hlength, hnanos⟩ : ∃ seconds nanos,
      (⟨k, none, u⟩ : Span).whole? = some (seconds, nanos) ∧
        k * u.nanos = seconds * perSecond + nanos ∧ nanos < perSecond := by
    cases hshort : u.shortNanos? with
    | some n =>
        have hsmall : k * n < perSecond := hfine.short n hshort
        have hword : k * n ≤ maxWord := by
          simp only [perSecond, maxWord] at hsmall ⊢
          omega
        refine ⟨0, k * n, ?_, ?_, hsmall⟩
        · simp only [Span.whole?, hshort, fits, if_pos hword, Option.map_some]
        · rw [Unit.nanos, hshort, Option.getD_some, Nat.zero_mul, Nat.zero_add]
    | none =>
        have hlength : k * u.nanos = k * u.inSeconds * perSecond := by
          rw [Unit.nanos, hshort, Option.getD_none, Nat.mul_assoc]
        have hword : k * u.inSeconds ≤ maxWord := by
          rw [hlength] at h
          simp only [InRange, Duration.seconds, perSecond] at h
          omega
        refine ⟨k * u.inSeconds, 0, ?_, ?_, perSecond_pos⟩
        · simp only [Span.whole?, hshort, fits, if_pos hword, Option.map_some]
        · rw [hlength, Nat.add_zero]
  rw [hlength, ← Nat.add_assoc] at h ⊢
  have hsum := add_eq hnanos h
  rw [addSpan_whole d hwhole, hsum, ok_bind, add_zero h]

/-! ## Spans -/

theorem toNat_of_isUnitLetter {c : Char} (h : isUnitLetter c = true) :
    97 ≤ c.toNat ∧ c.toNat ≤ 122 ∨ 65 ≤ c.toNat ∧ c.toNat ≤ 90 ∨ c.toNat = 181 := by
  simp only [isUnitLetter, Bool.or_eq_true, Bool.and_eq_true, decide_eq_true_eq] at h
  rcases h with (h | h) | rfl
  · exact .inl h
  · exact .inr (.inl h)
  · exact .inr (.inr rfl)

theorem isDigit_of_isUnitLetter {c : Char} (h : isUnitLetter c = true) : c.isDigit = false := by
  by_contra hdigit
  have hrange := toNat_of_isUnitLetter h
  have := Text.toNat_of_isDigit (Bool.of_not_eq_false hdigit)
  omega

theorem isBlank_of_isUnitLetter {c : Char} (h : isUnitLetter c = true) :
    Text.isBlank c = false := by
  have hrange := toNat_of_isUnitLetter h
  simp only [Text.isBlank, Text.blankRanges, List.any_cons, List.any_nil, Bool.or_false,
    Bool.or_eq_false_iff, Bool.and_eq_false_iff, decide_eq_false_iff_not]
  omega

theorem takeDigits_letter {ds : List Char} (hds : ∀ c ∈ ds, c.isDigit = true) {a : Char}
    (ha : isUnitLetter a = true) (rest : List Char) :
    takeDigits (ds ++ a :: rest) = (ds, a :: rest) := by
  induction ds with
  | nil =>
      rw [List.nil_append, takeDigits, isDigit_of_isUnitLetter ha, isBlank_of_isUnitLetter ha]
      rfl
  | cons c ds ih =>
      rw [List.cons_append, takeDigits, if_pos (hds c List.mem_cons_self),
        ih fun d hd => hds d (List.mem_cons_of_mem c hd)]

/-- A part of a written duration, with the unit that its name stands for. -/
structure Readable (p : Nat × String) (u : Unit) : Prop where
  name : Unit.ofName? p.2 = some u
  letters : p.2.toList.all isUnitLetter = true
  fine : Fine p.1 u

theorem Readable.name_ne {p : Nat × String} {u : Unit} (h : Readable p u) : p.2.toList ≠ [] := by
  intro hname
  have hnone : Unit.ofName? (String.ofList []) = none := by decide +kernel
  have hu := h.name
  rw [← String.ofList_toList (s := p.2), hname, hnone] at hu
  cases hu

def partText (p : Nat × String) : List Char := Nat.toDigits 10 p.1 ++ p.2.toList

/-- What may follow a part: nothing, or a space and the next one. -/
def Follows (rest : List Char) : Prop := rest = [] ∨ ∃ after, rest = ' ' :: after

theorem takeSpan?_part {p : Nat × String} {u : Unit} (h : Readable p u) {rest : List Char}
    (hrest : Follows rest) :
    takeSpan? (partText p ++ rest) = some (⟨p.1, none, u⟩, Text.trimLeft rest) := by
  obtain ⟨k, name⟩ := p
  have hletters := List.all_eq_true.mp h.letters
  cases hname : name.toList with
  | nil => exact absurd hname h.name_ne
  | cons a as =>
      have hletter : isUnitLetter a = true := hletters a (by simp [hname])
      have hdigits := @takeDigits_letter (Nat.toDigits 10 k)
        (fun c hc => Decimal.isDigit_toDigits hc) a hletter (as ++ rest)
      have hdot : a ≠ '.' := by
        rintro rfl
        exact absurd hletter (by decide)
      have hnumber : takeNumber? (partText (k, name) ++ rest) =
          some ((k, none), name.toList ++ rest) := by
        have hne : (Nat.toDigits 10 k).isEmpty = false := by simp [Nat.toDigits_ne_nil]
        simp only [takeNumber?, partText, hname, List.append_assoc, List.cons_append, hdigits, hne,
          Bool.false_eq_true, if_false, Decimal.ofDigits_toDigits, fits, if_pos h.fine.whole,
          Option.bind_eq_bind, Option.bind_some]
        split
        · rename_i heq
          exact absurd (List.cons.inj heq).1 hdot
        · rfl
      have htake : (name.toList ++ rest).takeWhile isUnitLetter = name.toList := by
        rw [List.takeWhile_append_of_pos hletters]
        rcases hrest with rfl | ⟨after, rfl⟩
        · simp
        · rw [List.takeWhile_cons_of_neg (by decide), List.append_nil]
      have hdrop : (name.toList ++ rest).dropWhile isUnitLetter = rest := by
        rw [List.dropWhile_append_of_pos hletters]
        rcases hrest with rfl | ⟨after, rfl⟩
        · rfl
        · rw [List.dropWhile_cons_of_neg (by decide)]
      rw [takeSpan?, hnumber, Option.bind_eq_bind, Option.bind_some]
      dsimp only
      rw [htake, hdrop, String.ofList_toList, h.name, Option.bind_eq_bind, Option.bind_some]
      rcases hrest with rfl | ⟨after, rfl⟩
      · rfl
      · exact if_pos (by decide)

/-! ## Parts -/

def partNanos (p : Nat × String) : Nat := ((Unit.ofName? p.2).map fun u => p.1 * u.nanos).getD 0

theorem Readable.partNanos {p : Nat × String} {u : Unit} (h : Readable p u) :
    partNanos p = p.1 * u.nanos := by
  rw [Duration.partNanos, h.name, Option.map_some, Option.getD_some]

@[simp] theorem trimLeft_part {p : Nat × String} (rest : List Char) :
    Text.trimLeft (partText p ++ rest) = partText p ++ rest := by
  rw [partText, Text.trimLeft]
  cases hdigits : Nat.toDigits 10 p.1 with
  | nil => exact absurd hdigits Nat.toDigits_ne_nil
  | cons c ds =>
      have hc : c.isDigit = true :=
        Decimal.isDigit_toDigits (n := p.1) (by rw [hdigits]; exact List.mem_cons_self)
      exact List.dropWhile_cons_of_neg (by simp [Text.isBlank_of_isDigit hc])

def partsText (ps : List (Nat × String)) : List Char := [' '].intercalate (ps.map partText)

@[simp] theorem partsText_cons_cons (p q : Nat × String) (ps : List (Nat × String)) :
    partsText (p :: q :: ps) = partText p ++ ' ' :: partsText (q :: ps) := by
  rw [partsText, List.map_cons, List.map_cons, List.intercalate_cons_cons, List.append_assoc]
  rfl

theorem exists_partsText_cons (p : Nat × String) (ps : List (Nat × String)) :
    ∃ left, partsText (p :: ps) = partText p ++ left := by
  cases ps with
  | nil => exact ⟨[], by rw [partsText, List.map_singleton, List.intercalate_singleton,
      List.append_nil]⟩
  | cons q ps => exact ⟨_, partsText_cons_cons p q ps⟩

theorem partText_ne (p : Nat × String) : partText p ≠ [] :=
  List.append_ne_nil_of_left_ne_nil Nat.toDigits_ne_nil _

theorem length_lt_partsText (p : Nat × String) (ps : List (Nat × String)) :
    ps.length < (partsText (p :: ps)).length := by
  induction ps generalizing p with
  | nil =>
      obtain ⟨left, hleft⟩ := exists_partsText_cons p []
      rw [hleft, List.length_append]
      exact Nat.add_pos_left (List.length_pos_iff.mpr (partText_ne p)) _
  | cons q ps ih =>
      rw [partsText_cons_cons, List.length_append, List.length_cons, List.length_cons]
      have := ih q
      omega

theorem addSpans_parts {p : Nat × String} {ps : List (Nat × String)} {d : Duration} {n : Nat}
    (hps : ∀ q ∈ p :: ps, ∃ u, Readable q u) (hn : ps.length < n)
    (h : InRange ⟨d.nanos + ((p :: ps).map partNanos).sum⟩) :
    addSpans n d (partsText (p :: ps)) = .ok ⟨d.nanos + ((p :: ps).map partNanos).sum⟩ := by
  induction ps generalizing p d n with
  | nil =>
      obtain ⟨n, rfl⟩ := Nat.exists_eq_add_one_of_ne_zero (Nat.ne_zero_of_lt hn)
      obtain ⟨u, hu⟩ := hps p List.mem_cons_self
      rw [List.map_singleton, List.sum_singleton, hu.partNanos] at h ⊢
      have hspan := takeSpan?_part hu (.inl rfl)
      rw [List.append_nil] at hspan
      rw [partsText, List.map_singleton, List.intercalate_singleton, addSpans, hspan]
      exact congrArg (· >>= _) (addSpan_eq hu.fine h)
  | cons q ps ih =>
      obtain ⟨n, rfl⟩ := Nat.exists_eq_add_one_of_ne_zero (Nat.ne_zero_of_lt hn)
      obtain ⟨u, hu⟩ := hps p List.mem_cons_self
      rw [List.map_cons, List.sum_cons, ← Nat.add_assoc, hu.partNanos] at h ⊢
      obtain ⟨left, hleft⟩ := exists_partsText_cons q ps
      have htrim : Text.trimLeft (' ' :: partsText (q :: ps)) = partsText (q :: ps) := by
        have hblank : Text.isBlank ' ' = true := by decide
        rw [Text.trimLeft, List.dropWhile_cons_of_pos hblank, hleft]
        exact trimLeft_part left
      have hpart : InRange ⟨d.nanos + p.1 * u.nanos⟩ := by
        refine le_trans (Nat.div_le_div_right ?_) h
        exact Nat.le_add_right _ _
      have hne : (partsText (q :: ps)).isEmpty = false := by
        rw [hleft, List.isEmpty_eq_false_iff]
        exact List.append_ne_nil_of_left_ne_nil (partText_ne q) left
      have hnext := ih (d := ⟨d.nanos + p.1 * u.nanos⟩)
        (fun r hr => hps r (List.mem_cons_of_mem p hr)) (Nat.lt_of_succ_lt_succ hn) h
      rw [partsText_cons_cons, addSpans, takeSpan?_part hu (.inr ⟨_, rfl⟩), htrim]
      have hstep : ofOption (some ((⟨p.1, none, u⟩ : Span), partsText (q :: ps))) =
          .ok (⟨p.1, none, u⟩, partsText (q :: ps)) := rfl
      rw [hstep, ok_bind]
      dsimp only
      rw [addSpan_eq hu.fine hpart, ok_bind, hne]
      exact hnext

/-! ## Texts -/

/-- A name of a unit that consists of letters. -/
structure Names (name : String) (u : Unit) : Prop where
  unit : Unit.ofName? name = some u
  letters : name.toList.all isUnitLetter = true

def counts (d : Duration) : List Nat :=
  let inYear := d.seconds % 31557600
  let inMonth := inYear % 2630016
  let inDay := inMonth % 86400
  let n := d.nanos % perSecond
  [d.seconds / 31557600, inYear / 2630016, inMonth / 86400, inDay / 3600, inDay % 3600 / 60,
    inDay % 60, n / 1000000, n / 1000 % 1000, n % 1000]

def partUnits : List Unit :=
  [.year, .month, .day, .hour, .minute, .second, .milli, .micro, .nano]

theorem parts_eq (d : Duration) :
    ∃ names, List.Forall₂ Names names partUnits ∧ d.parts = d.counts.zip names := by
  let plural (k : Nat) (word : String) := if k = 1 then word else word ++ "s"
  have hplural : ∀ (k : Nat) {word : String} {u : Unit}, Names word u → Names (word ++ "s") u →
      Names (plural k word) u := by
    intro k word u hone hmany
    dsimp only [plural]
    split
    · exact hone
    · exact hmany
  let inYear := d.seconds % 31557600
  refine ⟨[plural (d.seconds / 31557600) "year", plural (inYear / 2630016) "month",
    plural (inYear % 2630016 / 86400) "day", "h", "m", "s", "ms", "us", "ns"], ?_, rfl⟩
  refine .cons (hplural _ ?_ ?_) (.cons (hplural _ ?_ ?_) (.cons (hplural _ ?_ ?_)
    (.cons ?_ (.cons ?_ (.cons ?_ (.cons ?_ (.cons ?_ (.cons ?_ .nil))))))))
  all_goals exact ⟨by decide +kernel, by decide +kernel⟩

theorem readable_zip {names : List String} {us : List Unit} {ks : List Nat}
    (hnames : List.Forall₂ Names names us) (hfine : List.Forall₂ Fine ks us) :
    ∀ p ∈ ks.zip names, ∃ u, Readable p u := by
  induction hnames generalizing ks with
  | nil => simp
  | cons hname _ ih =>
      cases hfine with
      | cons hk hks =>
          rw [List.zip_cons_cons]
          exact List.forall_mem_cons.mpr ⟨⟨_, hname.unit, hname.letters, hk⟩, ih hks⟩

theorem sum_zip {names : List String} {us : List Unit} {ks : List Nat}
    (hnames : List.Forall₂ Names names us) :
    ((ks.zip names).map partNanos).sum = (ks.zipWith (fun k u => k * u.nanos) us).sum := by
  induction hnames generalizing ks with
  | nil => simp
  | cons hname _ ih =>
      cases ks with
      | nil => rfl
      | cons k ks =>
          rw [List.zip_cons_cons, List.map_cons, List.sum_cons, List.zipWith_cons_cons,
            List.sum_cons, ih, partNanos, hname.unit, Option.map_some, Option.getD_some]

theorem fine_long {k : Nat} {u : Unit} (hu : u.shortNanos? = none) (hk : k ≤ maxWord) : Fine k u :=
  ⟨hk, fun n hn => by simp [hu] at hn⟩

theorem fine_short {k n : Nat} {u : Unit} (hu : u.shortNanos? = some n) (hn : n ≤ 1000000)
    (hk : k < 1000) : Fine k u := by
  refine ⟨?_, fun m hm => ?_⟩
  · simp only [maxWord]
    omega
  · obtain rfl : n = m := Option.some.inj (hu.symm.trans hm)
    have hle : k * n ≤ k * 1000000 := Nat.mul_le_mul_left k hn
    simp only [perSecond]
    omega

theorem fine_counts {d : Duration} (h : d.InRange) : List.Forall₂ Fine d.counts partUnits := by
  have hword : ∀ {k : Nat}, k ≤ d.seconds → k ≤ maxWord := fun hk => hk.trans h
  refine .cons (fine_long rfl (hword ?_)) (.cons (fine_long rfl (hword ?_))
    (.cons (fine_long rfl (hword ?_)) (.cons (fine_long rfl (hword ?_))
    (.cons (fine_long rfl (hword ?_)) (.cons (fine_long rfl (hword ?_))
    (.cons (fine_short rfl (by decide) ?_) (.cons (fine_short rfl (by decide) ?_)
    (.cons (fine_short rfl (by decide) ?_) .nil))))))))
  -- the parts from a second on are at most all the seconds, the others less than a thousand
  iterate 6 omega
  · simp only [perSecond]
    omega
  · exact Nat.mod_lt _ (by decide)
  · exact Nat.mod_lt _ (by decide)

@[simp] theorem sum_counts (d : Duration) :
    (d.counts.zipWith (fun k u => k * u.nanos) partUnits).sum = d.nanos := by
  have hradix (s n : Nat) : s / 31557600 * 31557600000000000 +
      (s % 31557600 / 2630016 * 2630016000000000 +
      (s % 31557600 % 2630016 / 86400 * 86400000000000 +
      (s % 31557600 % 2630016 % 86400 / 3600 * 3600000000000 +
      (s % 31557600 % 2630016 % 86400 % 3600 / 60 * 60000000000 +
      (s % 31557600 % 2630016 % 86400 % 60 * 1000000000 +
      (n / 1000000 * 1000000 + (n / 1000 % 1000 * 1000 + (n % 1000 * 1 + 0)))))))) =
        s * 1000000000 + n := by omega
  have hwhole : d.seconds * 1000000000 + d.nanos % perSecond = d.nanos := by
    simp only [Duration.seconds, perSecond]
    omega
  have hyear : Unit.nanos .year = 31557600000000000 := by decide
  have hmonth : Unit.nanos .month = 2630016000000000 := by decide
  have hday : Unit.nanos .day = 86400000000000 := by decide
  have hhour : Unit.nanos .hour = 3600000000000 := by decide
  have hminute : Unit.nanos .minute = 60000000000 := by decide
  have hsecond : Unit.nanos .second = 1000000000 := by decide
  have hmilli : Unit.nanos .milli = 1000000 := by decide
  have hmicro : Unit.nanos .micro = 1000 := by decide
  have hnano : Unit.nanos .nano = 1 := by decide
  rw [counts, partUnits]
  repeat rw [List.zipWith_cons_cons]
  repeat rw [List.sum_cons]
  rw [List.zipWith_nil_left, List.sum_nil, hyear, hmonth, hday, hhour, hminute, hsecond, hmilli,
    hmicro, hnano]
  exact (hradix d.seconds (d.nanos % perSecond)).trans hwhole

theorem sum_filter (ps : List (Nat × String)) :
    ((ps.filter fun p => p.1 ≠ 0).map partNanos).sum = (ps.map partNanos).sum := by
  induction ps with
  | nil => rfl
  | cons p ps ih =>
      by_cases hp : p.1 = 0
      · have hzero : partNanos p = 0 := by
          rw [partNanos, hp]
          cases Unit.ofName? p.2 <;> simp
        rw [List.filter_cons_of_neg (by simp [hp]), ih, List.map_cons, List.sum_cons, hzero,
          Nat.zero_add]
      · rw [List.filter_cons_of_pos (by simp [hp]), List.map_cons, List.sum_cons, ih,
          List.map_cons, List.sum_cons]

/-- A duration is written as parts that add up to it, if only as no seconds. -/
theorem exists_parts {d : Duration} (h : d.InRange) :
    ∃ p ps, d.text.toList = partsText (p :: ps) ∧ (∀ q ∈ p :: ps, ∃ u, Readable q u) ∧
      ((p :: ps).map partNanos).sum = d.nanos := by
  obtain ⟨names, hnames, hparts⟩ := parts_eq d
  have hreadable : ∀ p ∈ d.parts, ∃ u, Readable p u := by
    rw [hparts]
    exact readable_zip hnames (fine_counts h)
  have hsum : ((d.parts.filter fun p => p.1 ≠ 0).map partNanos).sum = d.nanos := by
    rw [sum_filter, hparts, sum_zip hnames, sum_counts]
  rw [text]
  cases hshown : d.parts.filter fun p => p.1 ≠ 0 with
  | nil =>
      rw [hshown] at hsum
      have hzero : Readable (0, "s") .second :=
        ⟨by decide +kernel, by decide +kernel, fine_long rfl (Nat.zero_le _)⟩
      refine ⟨(0, "s"), [], by decide +kernel, ?_, ?_⟩
      · exact List.forall_mem_cons.mpr ⟨⟨_, hzero⟩, by simp⟩
      · rw [← hsum, List.map_singleton, List.sum_singleton, hzero.partNanos, Nat.zero_mul]
        rfl
  | cons p ps =>
      rw [hshown] at hsum
      refine ⟨p, ps, ?_, fun q hq => ?_, hsum⟩
      · rw [List.isEmpty_cons, if_neg Bool.false_ne_true, String.toList_intercalate, List.map_map,
          partsText]
        congr 1
        refine List.map_congr_left fun q _ => ?_
        rw [Function.comp_apply, String.toList_append, Decimal.toList_toString_nat, partText]
      · exact hreadable q (List.mem_of_mem_filter (hshown ▸ hq))

theorem parse_spans {d : Duration} (h : d.InRange) : parse d.text = .ok d := by
  obtain ⟨p, ps, htext, hreadable, hsum⟩ := exists_parts h
  obtain ⟨left, hleft⟩ := exists_partsText_cons p ps
  obtain ⟨u, hu⟩ := hreadable p List.mem_cons_self
  have hnot : d.text ≠ "0" := by
    intro hzero
    rw [hzero, hleft, partText, List.append_assoc] at htext
    have hlength := congrArg List.length htext
    have hdigits := List.length_pos_iff.mpr (Nat.toDigits_ne_nil (b := 10) (n := p.1))
    have hname := List.length_pos_iff.mpr hu.name_ne
    rw [List.length_append, List.length_append] at hlength
    have hone : "0".toList.length = 1 := by decide
    omega
  have hlength : ps.length < d.text.length := by
    rw [← String.length_toList, htext]
    exact length_lt_partsText p ps
  rw [parse, if_neg hnot, htext, hleft, trimLeft_part, ← hleft]
  have hzero : 0 + ((p :: ps).map partNanos).sum = d.nanos := by rw [hsum, Nat.zero_add]
  have hspans := addSpans_parts (d := ⟨0⟩) hreadable hlength (by rw [hzero]; exact h)
  rw [hspans, hzero]

/-! ## Durations that are read -/

theorem inRange_ofSeconds {n : Nat} (h : n ≤ maxWord) : (ofSeconds n).InRange := by
  rw [InRange, ofSeconds, Duration.seconds, Nat.mul_div_cancel n perSecond_pos]
  exact h

theorem inRange_add {d e : Duration} {seconds nanos : Nat} (h : d.add seconds nanos = .ok e) :
    e.InRange := by
  rw [add] at h
  split at h
  · cases h
  · split at h
    · rename_i hword
      cases h
      rw [InRange, Duration.seconds, Nat.mul_comm, Nat.mul_add_div perSecond_pos,
        Nat.div_eq_of_lt (Nat.mod_lt _ perSecond_pos), Nat.add_zero]
      exact hword
    · split at h <;> cases h

theorem inRange_addSpan {d e : Duration} {s : Span} (h : d.addSpan s = .ok e) : e.InRange := by
  rw [addSpan] at h
  obtain ⟨⟨seconds, nanos⟩, -, h⟩ := bind_eq_ok.mp h
  obtain ⟨d', -, h⟩ := bind_eq_ok.mp h
  obtain ⟨⟨seconds, nanos⟩, -, h⟩ := bind_eq_ok.mp h
  exact inRange_add h

theorem inRange_addSpans {n : Nat} {d e : Duration} {cs : List Char}
    (h : addSpans n d cs = .ok e) : e.InRange := by
  induction n generalizing d cs with
  | zero => cases h
  | succ n ih =>
      rw [addSpans] at h
      obtain ⟨⟨s, rest⟩, -, h⟩ := bind_eq_ok.mp h
      obtain ⟨d', hspan, h⟩ := bind_eq_ok.mp h
      split at h
      · cases h
        exact inRange_addSpan hspan
      · exact ih h

theorem inRange_parse {s : String} {d : Duration} (h : parse s = .ok d) : d.InRange := by
  rw [parse] at h
  split at h
  · cases h
    exact Nat.zero_le _
  · exact inRange_addSpans h

theorem divEven_le (n d : Nat) : divEven n d ≤ n / d + 1 := by
  unfold divEven
  dsimp only
  split
  · exact Nat.le_succ _
  · split
    · exact Nat.le_refl _
    · omega

theorem significand_lt (b : UInt64) : (Decimal.Binary.ofBits b).m < 2 ^ 53 := by
  have hlow : (b &&& 0xFFFFFFFFFFFFF).toNat ≤ 0xFFFFFFFFFFFFF := by
    rw [UInt64.toNat_and]
    exact Nat.and_le_right
  unfold Decimal.Binary.ofBits
  dsimp only
  split <;> dsimp only <;> omega

/-- Seconds that fit are not rounded up beyond a word: what has a fraction is below `2^53`. -/
theorem inRange_ofFloat? {x : Float} {d : Duration} (h : ofFloat? x = some d) : d.InRange := by
  have hm := significand_lt x.toBits
  rw [ofFloat?] at h
  generalize Decimal.Binary.ofBits x.toBits = b at h hm
  split at h
  · cases h
  · rename_i hword
    cases h
    rw [InRange, Duration.seconds]
    simp only [Nat.pow_eq] at hword ⊢
    rcases le_or_gt 0 b.q with hq | hq
    · have hden : (-b.q).toNat = 0 := Int.toNat_eq_zero.mpr (by omega)
      rw [hden, Nat.pow_zero, Nat.div_one, Nat.not_lt] at hword
      have hexact : ∀ n, divEven n 1 = n := by
        intro n
        rw [divEven, Nat.mod_one, Nat.div_one]
        rfl
      rw [hden, Nat.pow_zero, hexact, Nat.mul_div_cancel _ perSecond_pos]
      exact hword
    · have hnum : b.q.toNat = 0 := Int.toNat_eq_zero.mpr hq.le
      rw [hnum, Nat.pow_zero, Nat.mul_one]
      have hround := (divEven_le (b.m * perSecond) (2 ^ (-b.q).toNat)).trans
        (Nat.add_le_add_right (Nat.div_le_self _ _) 1)
      simp only [perSecond, maxWord] at hround ⊢
      omega

end Segue.Duration

namespace Segue.Decimal

def Binary.value (b : Binary) : ℚ := b.m * 2 ^ b.q

theorem Binary.value_mul (b : Binary) : b.value * 2 ^ (-b.q).toNat = b.m * 2 ^ b.q.toNat := by
  have hexponent : b.q + ((-b.q).toNat : ℤ) = (b.q.toNat : ℤ) := by omega
  rw [value, mul_assoc, ← zpow_natCast, ← zpow_natCast, ← zpow_add₀ two_ne_zero, hexponent]

end Segue.Decimal

namespace Segue.Duration

/-! ## Durations that are too long -/

theorem ofFloat?_eq_none_iff {x : Float} :
    ofFloat? x = none ↔ 2 ^ 64 ≤ (Decimal.Binary.ofBits x.toBits).value := by
  rw [ofFloat?]
  generalize Decimal.Binary.ofBits x.toBits = b
  have hden : 0 < 2 ^ (-b.q).toNat := Nat.two_pow_pos _
  have hvalue : (2 : ℚ) ^ 64 ≤ b.value ↔ 2 ^ 64 * 2 ^ (-b.q).toNat ≤ b.m * 2 ^ b.q.toNat := by
    rw [← mul_le_mul_iff_of_pos_right (show (0 : ℚ) < 2 ^ (-b.q).toNat by positivity),
      b.value_mul]
    exact_mod_cast Iff.rfl
  simp only [Nat.pow_eq]
  rw [hvalue, ← Nat.le_div_iff_mul_le hden, maxWord]
  split
  · rename_i hlong
    exact iff_of_true rfl hlong
  · rename_i hshort
    exact iff_of_false nofun hshort

/-- The seconds and nanoseconds of a part fill the last word of seconds exactly, and it is the
nanoseconds that make up the last second. -/
structure Tips (d : Duration) (part : Nat × Nat) : Prop where
  total : d.nanos + part.1 * perSecond + part.2 = 2 ^ 64 * perSecond
  last : d.nanos % perSecond + part.2 = perSecond

theorem add_eq_tooLong_iff {d : Duration} {part : Nat × Nat} :
    d.add part.1 part.2 = .error .tooLong ↔ d.Tips part := by
  rw [add]
  constructor
  · intro h
    split at h
    · cases h
    · split at h
      · cases h
      · split at h
        · rename_i htips
          rw [Bool.and_eq_true, decide_eq_true_eq, decide_eq_true_eq] at htips
          refine ⟨?_, htips.1⟩
          have hsum := htips.2
          have hlast := htips.1
          simp only [seconds, perSecond, maxWord] at hsum hlast ⊢
          omega
        · cases h
  · rintro ⟨htotal, hlast⟩
    have hfine : ¬maxWord < d.nanos % perSecond + part.2 := by
      simp only [perSecond, maxWord] at hlast ⊢
      omega
    have hsum : d.seconds + part.1 + (d.nanos % perSecond + part.2) / perSecond = maxWord + 1 := by
      simp only [seconds, perSecond, maxWord] at htotal hlast ⊢
      omega
    rw [if_neg hfine, hsum, if_neg (Nat.not_succ_le_self _), if_pos (by simp [hlast])]

/-- A span that makes up one more second than a duration can have, by the nanoseconds of its whole
part or of its fraction. -/
def SpanTips (d : Duration) (s : Span) : Prop :=
  ∃ whole, s.whole? = some whole ∧ (d.Tips whole ∨
    ∃ d' part, d.add whole.1 whole.2 = .ok d' ∧ s.part? = some part ∧ d'.Tips part)

theorem addSpan_eq_tooLong_iff {d : Duration} {s : Span} :
    d.addSpan s = .error .tooLong ↔ d.SpanTips s := by
  rw [addSpan, SpanTips]
  cases hwhole : s.whole? with
  | none => exact iff_of_false nofun (by simp)
  | some whole =>
      show (d.add whole.1 whole.2 >>= fun d => ofOption s.part? >>= fun part =>
        d.add part.1 part.2) = .error .tooLong ↔ _
      simp only [Option.some.injEq, exists_eq_left']
      cases hadd : d.add whole.1 whole.2 with
      | error e =>
          rw [← add_eq_tooLong_iff, hadd]
          simp [error_bind]
      | ok d' =>
          have hnot : ¬d.Tips whole := by
            rw [← add_eq_tooLong_iff, hadd]
            exact nofun
          cases hpart : s.part? with
          | none => exact iff_of_false nofun (by simp [hnot])
          | some part =>
              show d'.add part.1 part.2 = _ ↔ _
              rw [add_eq_tooLong_iff]
              simp [hnot]

/-- The spans in front of a rest of a text are added to a duration. -/
inductive AddsUp : Duration → List Char → Duration → List Char → Prop where
  | nothing (d : Duration) (cs : List Char) : AddsUp d cs d cs
  | span {d d₁ d' : Duration} {cs rest cs' : List Char} {s : Span} :
      takeSpan? cs = some (s, rest) → rest ≠ [] → d.addSpan s = .ok d₁ → AddsUp d₁ rest d' cs' →
        AddsUp d cs d' cs'

/-- A text with a span that makes up one more second than a duration can have. -/
def Overflows (s : String) : Prop :=
  s ≠ "0" ∧ ∃ d cs span rest, AddsUp ⟨0⟩ (Text.trimLeft s.toList) d cs ∧
    takeSpan? cs = some (span, rest) ∧ d.SpanTips span

theorem length_takeDigits (cs : List Char) :
    (takeDigits cs).1.length + (takeDigits cs).2.length ≤ cs.length := by
  induction cs with
  | nil => exact le_rfl
  | cons c cs ih =>
      rw [takeDigits]
      split
      · simp only [List.length_cons]
        omega
      · split
        · exact ih.trans (Nat.le_succ _)
        · exact le_of_eq (Nat.zero_add _)

theorem length_takeNumber? {cs rest : List Char} {number : Nat × Option (List Char)}
    (h : takeNumber? cs = some (number, rest)) : rest.length < cs.length := by
  have hdigits := length_takeDigits cs
  unfold takeNumber? at h
  dsimp only at h
  split at h
  · cases h
  · rename_i hne
    have hpos : 0 < (takeDigits cs).1.length :=
      List.length_pos_iff.mpr fun hnil => hne (List.isEmpty_iff.mpr hnil)
    obtain ⟨whole, -, h⟩ := Option.bind_eq_some_iff.mp h
    split at h
    · rename_i left hleft
      split at h
      · cases h
      · obtain ⟨_, -, h⟩ := Option.bind_eq_some_iff.mp h
        cases h
        have hpart := length_takeDigits left
        rw [hleft, List.length_cons] at hdigits
        omega
    · cases h
      omega

theorem length_takeSpan? {cs rest : List Char} {s : Span} (h : takeSpan? cs = some (s, rest)) :
    rest.length < cs.length := by
  obtain ⟨⟨number, left⟩, hnumber, h⟩ := Option.bind_eq_some_iff.mp h
  have hleft := length_takeNumber? hnumber
  obtain ⟨unit, -, h⟩ := Option.bind_eq_some_iff.mp h
  have hunit : (left.dropWhile isUnitLetter).length ≤ left.length :=
    (List.dropWhile_suffix isUnitLetter).length_le
  dsimp only at h
  split at h
  · cases h
    exact (Nat.zero_le _).trans_lt hleft
  · rename_i hrest
    split at h
    · cases h
      have htrim : ∀ cs : List Char, (Text.trimLeft cs).length ≤ cs.length :=
        fun cs => (List.dropWhile_suffix _).length_le
      exact (htrim _).trans_lt (hunit.trans_lt hleft)
    · cases h

def TooLongFrom (d : Duration) (cs : List Char) : Prop :=
  ∃ d' cs' s rest, AddsUp d cs d' cs' ∧ takeSpan? cs' = some (s, rest) ∧
    d'.addSpan s = .error .tooLong

theorem tooLongFrom_iff {d : Duration} {cs : List Char} :
    TooLongFrom d cs ↔ ∃ s rest, takeSpan? cs = some (s, rest) ∧
      (d.addSpan s = .error .tooLong ∨
        ∃ d₁, d.addSpan s = .ok d₁ ∧ rest ≠ [] ∧ TooLongFrom d₁ rest) := by
  constructor
  · rintro ⟨d', cs', s, rest, hsum, hspan, hlong⟩
    cases hsum with
    | nothing => exact ⟨s, rest, hspan, .inl hlong⟩
    | span hfirst hmore hadd hsum =>
        exact ⟨_, _, hfirst, .inr ⟨_, hadd, hmore, d', cs', s, rest, hsum, hspan, hlong⟩⟩
  · rintro ⟨s, rest, hfirst, hlong | ⟨d₁, hadd, hmore, d', cs', s', rest', hsum, hspan, hlong⟩⟩
    · exact ⟨d, cs, s, rest, .nothing d cs, hfirst, hlong⟩
    · exact ⟨d', cs', s', rest', .span hfirst hmore hadd hsum, hspan, hlong⟩

theorem addSpans_eq_tooLong_iff {n : Nat} {d : Duration} {cs : List Char} (hn : cs.length ≤ n) :
    addSpans n d cs = .error .tooLong ↔ TooLongFrom d cs := by
  induction n generalizing d cs with
  | zero =>
      obtain rfl := List.length_eq_zero_iff.mp (Nat.le_zero.mp hn)
      rw [tooLongFrom_iff]
      exact iff_of_false nofun fun ⟨s, rest, hspan, _⟩ => nomatch hspan
  | succ n ih =>
      rw [addSpans, tooLongFrom_iff]
      cases hspan : takeSpan? cs with
      | none => exact iff_of_false nofun (by simp)
      | some p =>
          obtain ⟨s, rest⟩ := p
          have hshort : rest.length ≤ n :=
            Nat.le_of_lt_succ ((length_takeSpan? hspan).trans_le hn)
          show (d.addSpan s >>= fun d => if rest.isEmpty then .ok d else addSpans n d rest) = _ ↔ _
          cases hadd : d.addSpan s with
          | error e => simp [error_bind, hadd]
          | ok d₁ =>
              rw [ok_bind]
              cases rest with
              | nil => simp [hadd]
              | cons c cs => simp [hadd, ih hshort]

theorem parse_eq_tooLong_iff {s : String} : parse s = .error .tooLong ↔ Overflows s := by
  rw [parse, Overflows]
  split
  · rename_i hzero
    exact iff_of_false nofun fun h => h.1 hzero
  · rename_i hzero
    have hlength : (Text.trimLeft s.toList).length ≤ s.length := by
      rw [← String.length_toList]
      exact (List.dropWhile_suffix _).length_le
    simp only [addSpans_eq_tooLong_iff hlength, TooLongFrom, addSpan_eq_tooLong_iff,
      ne_eq, hzero, not_false_eq_true, true_and]

end Segue.Duration
