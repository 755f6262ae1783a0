import Segue.Proofs.Shader.Occurrences

/-!
# Renamed identifiers

A text is made of words, as long as they can be, and of characters that no word holds. Renaming goes
word by word, so that the parts of a text between other characters are renamed by themselves.
-/

namespace Segue.Shader

structure IsWord (w : List Char) : Prop where
  ne_nil : w ≠ []
  ident : ∀ c ∈ w, isIdentChar c = true

instance (w : List Char) : Decidable (IsWord w) :=
  decidable_of_iff (w ≠ [] ∧ w.all isIdentChar = true)
    ⟨fun h => ⟨h.1, List.all_eq_true.mp h.2⟩, fun h => ⟨h.ne_nil, List.all_eq_true.mpr h.ident⟩⟩

/-- A text in front of which a word ends. -/
def Ends (cs : List Char) : Prop := ∀ c ∈ cs.head?, isIdentChar c = false

theorem ends_nil : Ends [] := fun _ hc => absurd hc (by simp)

theorem ends_cons {c : Char} {cs : List Char} (hc : isIdentChar c = false) : Ends (c :: cs) := by
  intro d hd
  obtain rfl : c = d := by simpa using hd
  exact hc

theorem Ends.of_prefix {cs ds : List Char} (hds : Ends ds) (h : cs <+: ds) : Ends cs := by
  obtain ⟨rest, rfl⟩ := h
  cases cs with
  | nil => exact ends_nil
  | cons c cs => exact hds

theorem ends_append {cs ds : List Char} (hcs : Ends cs) (hds : Ends ds) : Ends (cs ++ ds) := by
  cases cs with
  | nil => exact hds
  | cons c cs => exact ends_cons (hcs c rfl)

theorem ends_append_of_ne_nil {cs : List Char} (hne : cs ≠ []) (hcs : Ends cs) (ds : List Char) :
    Ends (cs ++ ds) := by
  obtain ⟨c, cs, rfl⟩ := List.exists_cons_of_ne_nil hne
  exact ends_cons (hcs c rfl)

/-- A property of all texts, by their words and the characters between them. -/
theorem words_induction {P : List Char → Prop} (nil : P [])
    (other : ∀ c t, isIdentChar c = false → P t → P (c :: t))
    (word : ∀ w t, IsWord w → Ends t → P t → P (w ++ t)) : ∀ cs, P cs := by
  apply Text.runs_induction isIdentChar nil other
  intro w t hne hw ht ih
  exact word w t ⟨hne, hw⟩ ht ih

/-- A text falls apart into a word and the rest in one way. -/
theorem word_append_inj {v w s t : List Char} (hv : ∀ c ∈ v, isIdentChar c = true) (hs : Ends s)
    (hw : ∀ c ∈ w, isIdentChar c = true) (ht : Ends t) (h : v ++ s = w ++ t) : v = w ∧ s = t := by
  have hextra : ∀ {u x y : List Char}, (∀ c ∈ u, isIdentChar c = true) → Ends x → x = u ++ y →
      u = [] := by
    rintro (_ | ⟨c, u⟩) x y hu hx rfl
    · rfl
    · exact absurd (hu c List.mem_cons_self) (by simp [hx c rfl])
  rcases List.append_eq_append_iff.mp h with ⟨u, rfl, hu⟩ | ⟨u, rfl, hu⟩
  · obtain rfl := hextra (fun c hc => hw c (List.mem_append_right _ hc)) hs hu
    exact ⟨(List.append_nil v).symm, hu⟩
  · obtain rfl := hextra (fun c hc => hv c (List.mem_append_right _ hc)) ht hu
    exact ⟨List.append_nil w, hu.symm⟩

/-! ## Tokens -/

def tokens (cs : List Char) : List (List Char) :=
  cs.splitBy fun c d => isIdentChar c == isIdentChar d

/-- A run of characters of words, or a stretch without any. -/
structure IsToken (b : Bool) (w : List Char) : Prop where
  ne_nil : w ≠ []
  ident : ∀ c ∈ w, isIdentChar c = b

@[simp] theorem isToken_true {w : List Char} : IsToken true w ↔ IsWord w :=
  ⟨fun h => ⟨h.ne_nil, h.ident⟩, fun h => ⟨h.ne_nil, h.ident⟩⟩

theorem IsToken.ne_word {w v : List Char} (hw : IsToken false w) (hv : IsWord v) : w ≠ v := by
  rintro rfl
  obtain ⟨c, w, rfl⟩ := List.exists_cons_of_ne_nil hw.ne_nil
  have hc := hv.ident c List.mem_cons_self
  rw [hw.ident c List.mem_cons_self] at hc
  exact Bool.false_ne_true hc

theorem IsToken.not_mem {w : List Char} (hw : IsToken false w) {vs : List (List Char)}
    (hvs : ∀ v ∈ vs, IsWord v) : w ∉ vs := fun h => hw.ne_word (hvs w h) rfl

/-- A text in front of which a token of the other kind ends. -/
def Changes (b : Bool) (cs : List Char) : Prop := ∀ c ∈ cs.head?, isIdentChar c = !b

theorem IsToken.changes {b : Bool} {w : List Char} (hw : IsToken (!b) w) (t : List Char) :
    Changes b (w ++ t) := by
  obtain ⟨c, w, rfl⟩ := List.exists_cons_of_ne_nil hw.ne_nil
  intro d hd
  obtain rfl : c = d := by simpa using hd
  exact hw.ident c List.mem_cons_self

/-- A property of all texts, by their tokens. -/
theorem tokens_induction {P : List Char → Prop} (nil : P [])
    (token : ∀ b w t, IsToken b w → Changes b t → P t → P (w ++ t)) : ∀ cs, P cs :=
  Text.splits_induction isIdentChar nil fun b w t hne hw ht ih => token b w t ⟨hne, hw⟩ ht ih

theorem tokens_append {b : Bool} {w t : List Char} (hw : IsToken b w) (ht : Changes b t) :
    tokens (w ++ t) = w :: tokens t := Text.splitBy_run hw.ne_nil hw.ident ht

def replaced (name new : String) (w : List Char) : List Char :=
  if w = name.toList then new.toList else w

theorem isWord_replaced {new : String} (hnew : IsWord new.toList) (name : String) {w : List Char}
    (hw : IsWord w) : IsWord (replaced name new w) := by
  rw [replaced]
  split
  · exact hnew
  · exact hw

theorem replaced_of_ne {name : String} {w : List Char} (h : w ≠ name.toList) (new : String) :
    replaced name new w = w := if_neg h

section Name

variable {name : String} (hname : IsWord name.toList) (new : String)
include hname

/-- A renamed text is put together from its tokens, those replaced that are the name. -/
theorem rename_eq_tokens (cs : List Char) :
    rename name new cs = (tokens cs).flatMap (replaced name new) :=
  replaceWords_eq_runs hname.ne_nil hname.ident cs

@[simp] theorem rename_nil : rename name new [] = [] := rename_eq_tokens hname new []

theorem rename_other {c : Char} (hc : isIdentChar c = false) (t : List Char) :
    rename name new (c :: t) = c :: rename name new t := by
  rw [rename_eq_tokens hname, rename_eq_tokens hname]
  exact replacedRuns_cons_other hname.ident hc t

theorem rename_token {b : Bool} {w t : List Char} (hw : IsToken b w) (ht : Changes b t) :
    rename name new (w ++ t) = replaced name new w ++ rename name new t := by
  rw [rename_eq_tokens hname, rename_eq_tokens hname]
  exact replacedRuns_append hw.ne_nil hw.ident ht

theorem rename_word {w t : List Char} (hw : IsWord w) (ht : Ends t) :
    rename name new (w ++ t) = replaced name new w ++ rename name new t :=
  rename_token hname new (isToken_true.mpr hw) ht

theorem ends_rename {t : List Char} (ht : Ends t) : Ends (rename name new t) := by
  cases t with
  | nil => exact (rename_nil hname new).symm ▸ ht
  | cons c t =>
      rw [rename_other hname new (ht c rfl)]
      exact ends_cons (ht c rfl)

end Name

/-! ### Renaming bytes -/

def isIdentByte (b : UInt8) : Bool :=
  (48 ≤ b.toNat && b.toNat ≤ 57) || (65 ≤ b.toNat && b.toNat ≤ 90) ||
    (97 ≤ b.toNat && b.toNat ≤ 122) || b.toNat = 95

def utf8 (cs : List Char) : List UInt8 := cs.flatMap String.utf8EncodeChar

@[simp] theorem utf8_append (cs ds : List Char) : utf8 (cs ++ ds) = utf8 cs ++ utf8 ds :=
  List.flatMap_append

theorem isIdentChar_iff {c : Char} : isIdentChar c = true ↔
    (48 ≤ c.toNat ∧ c.toNat ≤ 57) ∨ (65 ≤ c.toNat ∧ c.toNat ≤ 90) ∨
      (97 ≤ c.toNat ∧ c.toNat ≤ 122) ∨ c.toNat = 95 := by
  have hunderscore : c = '_' ↔ c.toNat = 95 :=
    ⟨fun h => h ▸ rfl, fun h => Char.toNat_inj.mp h⟩
  simp only [isIdentChar, Char.isAlphanum, Char.isAlpha, Char.isUpper, Char.isLower, Char.isDigit,
    Bool.or_eq_true, Bool.and_eq_true, decide_eq_true_eq, UInt32.le_iff_toNat_le, ge_iff_le,
    hunderscore]
  change ((65 ≤ c.toNat ∧ c.toNat ≤ 90 ∨ 97 ≤ c.toNat ∧ c.toNat ≤ 122) ∨
    48 ≤ c.toNat ∧ c.toNat ≤ 57) ∨ c.toNat = 95 ↔ _
  tauto

theorem utf8EncodeChar_cases (c : Char) :
    (c.toNat ≤ 127 ∧ String.utf8EncodeChar c = [UInt8.ofNat c.toNat]) ∨
      (127 < c.toNat ∧ ∀ b ∈ String.utf8EncodeChar c, 128 ≤ b.toNat) := by
  by_cases hone : c.toNat ≤ 127
  · exact .inl ⟨hone, if_pos hone⟩
  · refine .inr ⟨Nat.lt_of_not_le hone, ?_⟩
    rw [show String.utf8EncodeChar c = _ from if_neg hone]
    split <;> try split
    all_goals
      simp only [List.forall_mem_cons, List.not_mem_nil, false_imp_iff, implies_true, and_true,
        UInt8.toNat_ofNat']
      omega

theorem isIdentByte_of_mem {c : Char} {b : UInt8} (hb : b ∈ String.utf8EncodeChar c) :
    isIdentByte b = isIdentChar c := by
  rw [Bool.eq_iff_iff, isIdentChar_iff]
  have hbyte : isIdentByte b = true ↔ (48 ≤ b.toNat ∧ b.toNat ≤ 57) ∨
      (65 ≤ b.toNat ∧ b.toNat ≤ 90) ∨ (97 ≤ b.toNat ∧ b.toNat ≤ 122) ∨ b.toNat = 95 := by
    simp only [isIdentByte, Bool.or_eq_true, Bool.and_eq_true, decide_eq_true_eq, or_assoc]
  rw [hbyte]
  rcases utf8EncodeChar_cases c with ⟨hc, hone⟩ | ⟨hc, hmore⟩
  · rw [hone, List.mem_singleton] at hb
    rw [hb, UInt8.toNat_ofNat', Nat.mod_eq_of_lt (by omega)]
  · have hrange := hmore b hb
    omega

theorem isIdentByte_of_mem_utf8 {w : List Char} {b : Bool} (hw : ∀ c ∈ w, isIdentChar c = b) :
    ∀ x ∈ utf8 w, isIdentByte x = b := by
  intro x hx
  obtain ⟨c, hc, hxc⟩ := List.mem_flatMap.mp hx
  rw [isIdentByte_of_mem hxc, hw c hc]

theorem utf8EncodeChar_ne_nil (c : Char) : String.utf8EncodeChar c ≠ [] := by
  rw [← List.length_pos_iff, String.length_utf8EncodeChar]
  exact Char.utf8Size_pos c

theorem utf8_ne_nil {w : List Char} (hw : w ≠ []) : utf8 w ≠ [] := by
  obtain ⟨c, w, rfl⟩ := List.exists_cons_of_ne_nil hw
  exact List.append_ne_nil_of_left_ne_nil (utf8EncodeChar_ne_nil c) _

theorem isIdentByte_head_utf8 {t : List Char} {b : Bool} (ht : ∀ c ∈ t.head?, isIdentChar c = b) :
    ∀ x ∈ (utf8 t).head?, isIdentByte x = b := by
  cases t with
  | nil => exact fun x hx => absurd hx (by simp [utf8])
  | cons c t =>
      intro x hx
      have hfirst : x ∈ (String.utf8EncodeChar c).head? := by
        rwa [utf8, List.flatMap_cons, List.head?_append_of_ne_nil _ (utf8EncodeChar_ne_nil c)] at hx
      rw [isIdentByte_of_mem (List.mem_of_head? hfirst), ht c rfl]

/-- The characters of a word are bytes. -/
theorem map_utf8 {w : List Char} (hw : ∀ c ∈ w, isIdentChar c = true) :
    (utf8 w).map (fun b => Char.ofNat b.toNat) = w := by
  induction w with
  | nil => rfl
  | cons c w ih =>
      have hc := isIdentChar_iff.mp (hw c List.mem_cons_self)
      rcases utf8EncodeChar_cases c with ⟨hsmall, hone⟩ | ⟨hlarge, -⟩
      · rw [utf8, List.flatMap_cons, List.map_append, ← utf8,
          ih fun d hd => hw d (List.mem_cons_of_mem c hd), hone, List.map_singleton,
          UInt8.toNat_ofNat', Nat.mod_eq_of_lt (by omega), Char.ofNat_toNat, List.singleton_append]
      · omega

theorem utf8_eq_iff {v w : List Char} (hv : IsWord v) {b : Bool} (hne : w ≠ [])
    (hw : ∀ c ∈ w, isIdentChar c = b) : utf8 w = utf8 v ↔ w = v := by
  refine ⟨fun h => ?_, fun h => h ▸ rfl⟩
  obtain ⟨x, hx⟩ := List.exists_mem_of_ne_nil _ (utf8_ne_nil hne)
  have hident := isIdentByte_of_mem_utf8 hv.ident x (h ▸ hx)
  rw [isIdentByte_of_mem_utf8 hw x hx] at hident
  subst hident
  rw [← map_utf8 hw, h, map_utf8 hv.ident]

/-- Renaming in the bytes of a text gives the bytes of the renamed text. -/
theorem utf8_rename {name : String} (hname : IsWord name.toList) (new : String) (cs : List Char) :
    utf8 (rename name new cs) =
      replaceWords isIdentByte (utf8 name.toList) (utf8 new.toList) (utf8 cs) := by
  rw [replaceWords_eq_runs (utf8_ne_nil hname.ne_nil) (isIdentByte_of_mem_utf8 hname.ident)]
  induction cs using tokens_induction with
  | nil =>
      rw [rename_nil hname]
      rfl
  | token b w t hw ht ih =>
      rw [rename_token hname new hw ht, utf8_append, ih, utf8_append,
        replacedRuns_append (utf8_ne_nil hw.ne_nil) (isIdentByte_of_mem_utf8 hw.ident)
          (isIdentByte_head_utf8 ht), replaced, apply_ite utf8]
      simp only [utf8_eq_iff hname hw.ne_nil hw.ident]

/-! ## All renamed words -/

/-- The names that are replaced and the new ones, in the order in which that is done. -/
def renames : List (String × String) :=
  [("texture2D", "texture"), ("gl_FragColor", "blendpack_FragColor"),
    ("gl_FragCoord", "blendpack_FragCoord"), ("main", "blendpack_main")]

def oldNames : List (List Char) := renames.map fun p => p.1.toList

def newNames : List (List Char) := renames.map fun p => p.2.toList

def newName (w : List Char) : List Char :=
  ((renames.find? fun p => p.1.toList = w).map fun p => p.2.toList).getD w

theorem newName_eq_self {w : List Char} (h : w ∉ oldNames) : newName w = w := by
  have hnone : (renames.find? fun p => p.1.toList = w) = none := by
    rw [List.find?_eq_none]
    intro p hp hw
    exact h (List.mem_map.mpr ⟨p, hp, of_decide_eq_true hw⟩)
  rw [newName, hnone]
  rfl

theorem eq_of_newName {v w : List Char} (hv : v ∉ newNames) (h : newName w = v) : w = v := by
  rw [newName] at h
  cases hfind : renames.find? fun p => p.1.toList = w with
  | none =>
      rw [hfind] at h
      exact h
  | some p =>
      rw [hfind] at h
      exact absurd (List.mem_map.mpr ⟨p, List.mem_of_find?_eq_some hfind, h⟩) hv

/-- A text and what becomes of it when each of its words gets its new name. -/
inductive Renamed : List Char → List Char → Prop
  | nil : Renamed [] []
  | other {c : Char} {t u : List Char} : isIdentChar c = false → Renamed t u →
      Renamed (c :: t) (c :: u)
  | word {w t u : List Char} : IsWord w → Ends t → Renamed t u → Renamed (w ++ t) (newName w ++ u)

section Pairs

variable {pairs : List (String × String)}

theorem foldl_rename_other (h : ∀ p ∈ pairs, IsWord p.1.toList) {c : Char}
    (hc : isIdentChar c = false) (t : List Char) :
    pairs.foldl (fun cs p => rename p.1 p.2 cs) (c :: t) =
      c :: pairs.foldl (fun cs p => rename p.1 p.2 cs) t := by
  induction pairs generalizing t with
  | nil => rfl
  | cons p ps ih =>
      rw [List.foldl_cons, rename_other (h p List.mem_cons_self) p.2 hc,
        ih fun q hq => h q (List.mem_cons_of_mem p hq), List.foldl_cons]

theorem foldl_rename_word (h : ∀ p ∈ pairs, IsWord p.1.toList ∧ IsWord p.2.toList)
    {w t : List Char} (hw : IsWord w) (ht : Ends t) :
    pairs.foldl (fun cs p => rename p.1 p.2 cs) (w ++ t) =
      pairs.foldl (fun w p => replaced p.1 p.2 w) w ++
        pairs.foldl (fun cs p => rename p.1 p.2 cs) t := by
  induction pairs generalizing w t with
  | nil => rfl
  | cons p ps ih =>
      obtain ⟨hold, hnew⟩ := h p List.mem_cons_self
      rw [List.foldl_cons, rename_word hold p.2 hw ht,
        ih (fun q hq => h q (List.mem_cons_of_mem p hq)) (isWord_replaced hnew p.1 hw)
          (ends_rename hold p.2 ht), List.foldl_cons, List.foldl_cons]

theorem foldl_replaced_of_not_mem {w : List Char} (h : ∀ p ∈ pairs, w ≠ p.1.toList) :
    pairs.foldl (fun w p => replaced p.1 p.2 w) w = w := by
  induction pairs with
  | nil => rfl
  | cons p ps ih =>
      rw [List.foldl_cons, replaced_of_ne (h p List.mem_cons_self),
        ih fun q hq => h q (List.mem_cons_of_mem p hq)]

/-- When no new name is an old one, a word is replaced once. -/
theorem foldl_replaced (h : ∀ p ∈ pairs, ∀ q ∈ pairs, p.2.toList ≠ q.1.toList) (w : List Char) :
    pairs.foldl (fun w p => replaced p.1 p.2 w) w =
      ((pairs.find? fun p => p.1.toList = w).map fun p => p.2.toList).getD w := by
  induction pairs with
  | nil => rfl
  | cons p ps ih =>
      have hrest := ih fun q hq r hr =>
        h q (List.mem_cons_of_mem p hq) r (List.mem_cons_of_mem p hr)
      rw [List.foldl_cons]
      by_cases hw : w = p.1.toList
      · have hstays : ∀ q ∈ ps, p.2.toList ≠ q.1.toList :=
          fun q hq => h p List.mem_cons_self q (List.mem_cons_of_mem p hq)
        -- the new name is no old one, so that the other pairs leave it
        rw [replaced, if_pos hw, foldl_replaced_of_not_mem hstays,
          List.find?_cons_of_pos (by simpa using hw.symm)]
        rfl
      · rw [replaced_of_ne hw, hrest, List.find?_cons_of_neg (by simpa using Ne.symm hw)]

end Pairs

theorem isWord_renames : ∀ p ∈ renames, IsWord p.1.toList ∧ IsWord p.2.toList := by decide

theorem renameAll_eq (cs : List Char) :
    renameAll cs = renames.foldl (fun cs p => rename p.1 p.2 cs) cs := rfl

theorem newName_eq (w : List Char) :
    renames.foldl (fun w p => replaced p.1 p.2 w) w = newName w :=
  foldl_replaced (by decide) w

@[simp] theorem renameAll_nil : renameAll [] = [] := rfl

theorem renameAll_other {c : Char} (hc : isIdentChar c = false) (t : List Char) :
    renameAll (c :: t) = c :: renameAll t :=
  foldl_rename_other (fun p hp => (isWord_renames p hp).1) hc t

theorem renameAll_word {w t : List Char} (hw : IsWord w) (ht : Ends t) :
    renameAll (w ++ t) = newName w ++ renameAll t := by
  rw [renameAll_eq, foldl_rename_word isWord_renames hw ht, newName_eq, ← renameAll_eq]

/-- Renaming gives each word its new name, and there is one way to do so. -/
theorem renamed_iff {cs out : List Char} : Renamed cs out ↔ out = renameAll cs := by
  constructor
  · intro h
    induction h with
    | nil => rfl
    | other hc _ ih => rw [renameAll_other hc, ih]
    | word hw ht _ ih => rw [renameAll_word hw ht, ih]
  · rintro rfl
    induction cs using words_induction with
    | nil => exact .nil
    | other c t hc ih =>
        rw [renameAll_other hc]
        exact .other hc ih
    | word w t hw ht ih =>
        rw [renameAll_word hw ht]
        exact .word hw ht ih

theorem renameAll_append {t : List Char} (ht : Ends t) (s : List Char) :
    renameAll (s ++ t) = renameAll s ++ renameAll t := by
  induction s using words_induction with
  | nil => rw [List.nil_append, renameAll_nil, List.nil_append]
  | other d s hd ih =>
      rw [List.cons_append, renameAll_other hd, renameAll_other hd, ih, List.cons_append]
  | word w s hw hs ih =>
      rw [List.append_assoc, renameAll_word hw (ends_append hs ht), renameAll_word hw hs, ih,
        List.append_assoc]

theorem renameAll_ended_append {c : Char} (hc : isIdentChar c = false)
    (pieces : List (List Char)) (t : List Char) :
    renameAll (Text.ended c pieces ++ t) =
      Text.ended c (pieces.map renameAll) ++ renameAll t := by
  induction pieces with
  | nil => rw [List.map_nil, Text.ended, List.flatMap_nil, List.nil_append, List.nil_append]
  | cons p ps ih =>
      rw [Text.ended_cons, List.append_assoc, List.cons_append, renameAll_append (ends_cons hc),
        renameAll_other hc, ih, List.map_cons, Text.ended_cons, List.append_assoc, List.cons_append]

theorem renameAll_ended {c : Char} (hc : isIdentChar c = false) (pieces : List (List Char)) :
    renameAll (Text.ended c pieces) = Text.ended c (pieces.map renameAll) := by
  have happend := renameAll_ended_append hc pieces []
  rwa [List.append_nil, renameAll_nil, List.append_nil] at happend

theorem isWord_newName {w : List Char} (hw : IsWord w) : IsWord (newName w) := by
  rw [newName]
  cases hfind : renames.find? fun p => p.1.toList = w with
  | none => exact hw
  | some p => exact (isWord_renames p (List.mem_of_find?_eq_some hfind)).2

theorem mem_renameAll {c : Char} (hc : isIdentChar c = false) {cs : List Char} :
    c ∈ renameAll cs ↔ c ∈ cs := by
  have hword : ∀ w, IsWord w → c ∉ w := fun w hw h => absurd (hw.ident c h) (by simp [hc])
  induction cs using words_induction with
  | nil => rfl
  | other d t hd ih =>
      rw [renameAll_other hd, List.mem_cons, List.mem_cons]
      exact or_congr_right ih
  | word w t hw ht ih =>
      rw [renameAll_word hw ht, List.mem_append, List.mem_append,
        or_iff_right (hword _ (isWord_newName hw)), or_iff_right (hword w hw)]
      exact ih

theorem ends_renameAll {t : List Char} (ht : Ends t) : Ends (renameAll t) := by
  cases t with
  | nil => exact ht
  | cons c t =>
      rw [renameAll_other (ht c rfl)]
      exact ends_cons (ht c rfl)

/-- A text has a word: it stands in it with no character of a word before or behind. -/
def HasWord (cs w : List Char) : Prop :=
  IsWord w ∧ ∃ a b, cs = a ++ w ++ b ∧ Ends a.reverse ∧ Ends b

theorem renameAll_eq_self {cs : List Char} (h : ∀ w, HasWord cs w → newName w = w) :
    renameAll cs = cs := by
  induction cs using words_induction with
  | nil => rfl
  | other c t hc ih =>
      rw [renameAll_other hc, ih]
      rintro w ⟨hw, a, b, rfl, ha, hb⟩
      refine h w ⟨hw, c :: a, b, rfl, ?_, hb⟩
      rw [List.reverse_cons]
      exact ends_append ha (ends_cons hc)
  | word v t hv ht ih =>
      rw [renameAll_word hv ht, h v ⟨hv, [], t, rfl, ?_, ht⟩, ih]
      · rintro w ⟨hw, a, b, rfl, ha, hb⟩
        refine h w ⟨hw, v ++ a, b, by simp, ?_, hb⟩
        -- a word at the start of the rest would go on with the word before it
        have ha' : a ≠ [] := by
          rintro rfl
          obtain ⟨c, w, rfl⟩ := List.exists_cons_of_ne_nil hw.ne_nil
          exact absurd (hw.ident c List.mem_cons_self) (by simp [ht c rfl])
        rw [List.reverse_append]
        exact ends_append_of_ne_nil (by simpa using ha') ha _
      · exact fun c hc => absurd hc (by simp)

/-! ## What a renamed text comes from -/

theorem eq_nil_of_renameAll {cs : List Char} (h : renameAll cs = []) : cs = [] := by
  induction cs using words_induction with
  | nil => rfl
  | other c t hc _ =>
      rw [renameAll_other hc] at h
      exact absurd h (List.cons_ne_nil _ _)
  | word w t hw ht _ =>
      rw [renameAll_word hw ht] at h
      exact absurd (List.append_eq_nil_iff.mp h).1 (isWord_newName hw).ne_nil

theorem exists_of_renameAll_cons {c : Char} (hc : isIdentChar c = false) {cs u : List Char}
    (h : renameAll cs = c :: u) : ∃ t, cs = c :: t ∧ renameAll t = u := by
  induction cs using words_induction with
  | nil => exact absurd h.symm (List.cons_ne_nil _ _)
  | other d t hd _ =>
      rw [renameAll_other hd] at h
      obtain ⟨rfl, htail⟩ := List.cons.inj h
      exact ⟨t, rfl, htail⟩
  | word w t hw ht _ =>
      rw [renameAll_word hw ht] at h
      obtain ⟨d, v, hv⟩ := List.exists_cons_of_ne_nil (isWord_newName hw).ne_nil
      have hd := (isWord_newName hw).ident d (by rw [hv]; exact List.mem_cons_self)
      rw [hv, List.cons_append] at h
      rw [(List.cons.inj h).1, hc] at hd
      exact absurd hd Bool.false_ne_true

theorem exists_of_renameAll_word {v : List Char} (hv : IsWord v) (hnew : v ∉ newNames)
    {cs u : List Char} (hu : Ends u) (h : renameAll cs = v ++ u) :
    ∃ t, cs = v ++ t ∧ renameAll t = u := by
  obtain ⟨d, v', hv'⟩ := List.exists_cons_of_ne_nil hv.ne_nil
  induction cs using words_induction with
  | nil => exact absurd (List.append_eq_nil_iff.mp h.symm).1 hv.ne_nil
  | other c t hc _ =>
      have hd := hv.ident d (by rw [hv']; exact List.mem_cons_self)
      rw [renameAll_other hc, hv', List.cons_append] at h
      rw [← (List.cons.inj h).1, hc] at hd
      exact absurd hd Bool.false_ne_true
  | word w t hw ht _ =>
      rw [renameAll_word hw ht] at h
      obtain ⟨hword, hrest⟩ :=
        word_append_inj (isWord_newName hw).ident (ends_renameAll ht) hv.ident hu h
      exact ⟨t, by rw [eq_of_newName hnew hword], hrest⟩

theorem renameAll_eq_word {v : List Char} (hv : IsWord v) (hold : v ∉ oldNames)
    (hnew : v ∉ newNames) {cs : List Char} : renameAll cs = v ↔ cs = v := by
  constructor
  · intro h
    rw [← List.append_nil v] at h
    obtain ⟨t, rfl, ht⟩ := exists_of_renameAll_word hv hnew ends_nil h
    rw [eq_nil_of_renameAll ht, List.append_nil]
  · rintro rfl
    have hword := renameAll_word hv ends_nil
    rwa [List.append_nil, newName_eq_self hold, renameAll_nil, List.append_nil] at hword

/-! ## Tokens of renamed texts -/

section Pairs

variable {pairs : List (String × String)}

/-- The new name of a word, if it has one. -/
def substituted (pairs : List (String × String)) (w : List Char) : List Char :=
  ((pairs.find? fun p => p.1.toList = w).map fun p => p.2.toList).getD w

theorem find?_name_eq_some (hnodup : (pairs.map Prod.fst).Nodup) {w : List Char}
    {p : String × String} :
    pairs.find? (fun q => q.1.toList = w) = some p ↔ p ∈ pairs ∧ p.1.toList = w := by
  constructor
  · intro h
    exact ⟨List.mem_of_find?_eq_some h, by simpa using List.find?_some h⟩
  · rintro ⟨hp, hw⟩
    cases hfind : pairs.find? fun q => q.1.toList = w with
    | none => exact absurd hw (by simpa using List.find?_eq_none.mp hfind p hp)
    | some q =>
        have hq : q.1.toList = w := by simpa using List.find?_some hfind
        have hfst : q.1 = p.1 := String.toList_injective (hq.trans hw.symm)
        rw [List.inj_on_of_nodup_map hnodup (List.mem_of_find?_eq_some hfind) hp hfst]

/-- The order of the pairs does not matter when no name is replaced twice. -/
theorem substituted_perm {order : List (String × String)} (hnodup : (pairs.map Prod.fst).Nodup)
    (h : order.Perm pairs) (w : List Char) : substituted order w = substituted pairs w := by
  have horder : (order.map Prod.fst).Nodup := (h.map Prod.fst).nodup_iff.mpr hnodup
  have hfind : order.find? (fun p => p.1.toList = w) = pairs.find? fun p => p.1.toList = w := by
    apply Option.ext
    intro p
    rw [find?_name_eq_some horder, find?_name_eq_some hnodup, h.mem_iff]
  rw [substituted, hfind, substituted]

theorem foldl_rename_token (h : ∀ p ∈ pairs, IsWord p.1.toList ∧ IsWord p.2.toList) {b : Bool}
    {w t : List Char} (hw : IsToken b w) (ht : Changes b t) :
    pairs.foldl (fun cs p => rename p.1 p.2 cs) (w ++ t) =
      pairs.foldl (fun w p => replaced p.1 p.2 w) w ++
        pairs.foldl (fun cs p => rename p.1 p.2 cs) t := by
  cases b with
  | true => exact foldl_rename_word h (isToken_true.mp hw) ht
  | false =>
      rw [foldl_replaced_of_not_mem fun p hp => hw.ne_word (h p hp).1]
      clear ht
      obtain ⟨-, hident⟩ := hw
      induction w with
      | nil => rfl
      | cons c w ih =>
          rw [List.cons_append, foldl_rename_other (fun p hp => (h p hp).1)
            (hident c List.mem_cons_self), ih fun d hd => hident d (List.mem_cons_of_mem c hd),
            List.cons_append]

/-- Names replaced one after the other are replaced at once, if no new name is an old one. -/
theorem foldl_rename_eq_tokens (h : ∀ p ∈ pairs, IsWord p.1.toList ∧ IsWord p.2.toList)
    (hnew : ∀ p ∈ pairs, ∀ q ∈ pairs, p.2.toList ≠ q.1.toList) (cs : List Char) :
    pairs.foldl (fun cs p => rename p.1 p.2 cs) cs = (tokens cs).flatMap (substituted pairs) := by
  induction cs using tokens_induction with
  | nil =>
      clear hnew
      induction pairs with
      | nil => rfl
      | cons p ps ih =>
          rw [List.foldl_cons, rename_nil (h p List.mem_cons_self).1]
          exact ih fun q hq => h q (List.mem_cons_of_mem p hq)
  | token b w t hw ht ih =>
      rw [foldl_rename_token h hw ht, foldl_replaced hnew, ih, tokens_append hw ht,
        List.flatMap_cons, substituted]

end Pairs

theorem renameAll_eq_tokens (cs : List Char) : renameAll cs = (tokens cs).flatMap newName :=
  foldl_rename_eq_tokens isWord_renames (by decide) cs

theorem isWord_oldNames : ∀ w ∈ oldNames, IsWord w := by decide

theorem isToken_newName {b : Bool} {w : List Char} (hw : IsToken b w) : IsToken b (newName w) := by
  cases b with
  | true => exact isToken_true.mpr (isWord_newName (isToken_true.mp hw))
  | false => rwa [newName_eq_self (hw.not_mem isWord_oldNames)]

theorem newName_not_mem (w : List Char) : newName w ∉ oldNames := by
  intro h
  rw [newName] at h
  cases hfind : renames.find? fun p => p.1.toList = w with
  | none =>
      rw [hfind] at h
      obtain ⟨p, hp, hw⟩ := List.mem_map.mp h
      exact absurd hw (by simpa using List.find?_eq_none.mp hfind p hp)
  | some p =>
      rw [hfind] at h
      have hfresh : ∀ p ∈ renames, p.2.toList ∉ oldNames := by decide
      exact hfresh p (List.mem_of_find?_eq_some hfind) h

/-- The tokens of a renamed text are those of the text, each with its new name. -/
theorem tokens_renameAll (cs : List Char) : tokens (renameAll cs) = (tokens cs).map newName := by
  have hchanges : ∀ {b : Bool} {t : List Char}, Changes b t → Changes b (renameAll t) := by
    intro b t ht
    induction t using tokens_induction with
    | nil => exact ht
    | token d w t hw hrest _ =>
        obtain rfl : d = !b := by
          obtain ⟨c, w, rfl⟩ := List.exists_cons_of_ne_nil hw.ne_nil
          rw [← hw.ident c List.mem_cons_self, ht c rfl]
        rw [renameAll_eq, foldl_rename_token isWord_renames hw hrest, newName_eq]
        exact (isToken_newName hw).changes _
  induction cs using tokens_induction with
  | nil => rfl
  | token b w t hw ht ih =>
      rw [renameAll_eq, foldl_rename_token isWord_renames hw ht, newName_eq, ← renameAll_eq,
        tokens_append (isToken_newName hw) (hchanges ht), ih, tokens_append hw ht, List.map_cons]

/-- Renaming replaces the tokens that are the name and nothing else, in the bytes of a text as in
its characters. The renames of a fragment replace their names at once, in whatever order they come;
none of the names is left, so that there is nothing to do a second time. -/
theorem rename_tokenwise :
    (∀ name new text : List UInt8, name ≠ [] → (∀ b ∈ name, isIdentByte b = true) →
      replaceWords isIdentByte name new text =
        (text.splitBy fun b c => isIdentByte b == isIdentByte c).flatMap
          fun w => if w = name then new else w) ∧
    (∀ name new, IsWord name.toList → ∀ cs,
      utf8 (rename name new cs) =
        replaceWords isIdentByte (utf8 name.toList) (utf8 new.toList) (utf8 cs) ∧
      rename name new cs =
        (tokens cs).flatMap fun w => if w = name.toList then new.toList else w) ∧
    (∀ cs, renameAll cs = (tokens cs).flatMap (substituted renames)) ∧
    (∀ order : List (String × String), order.Perm renames → ∀ cs,
      order.foldl (fun cs p => rename p.1 p.2 cs) cs = renameAll cs) ∧
    (∀ cs, renameAll (renameAll cs) = renameAll cs) ∧
    ∀ cs, ∀ name ∈ ["texture2D", "gl_FragColor", "gl_FragCoord", "main"],
      name.toList ∉ tokens (renameAll cs) := by
  refine ⟨fun name new text hne hname => replaceWords_eq_runs hne hname text,
    fun name new hname cs => ⟨utf8_rename hname new cs, rename_eq_tokens hname new cs⟩,
    renameAll_eq_tokens, ?_, ?_, ?_⟩
  · intro order horder cs
    have hwords : ∀ p ∈ order, IsWord p.1.toList ∧ IsWord p.2.toList :=
      fun p hp => isWord_renames p (horder.mem_iff.mp hp)
    have hfresh : ∀ p ∈ renames, ∀ q ∈ renames, p.2.toList ≠ q.1.toList := by decide
    rw [foldl_rename_eq_tokens hwords fun p hp q hq =>
      hfresh p (horder.mem_iff.mp hp) q (horder.mem_iff.mp hq), renameAll_eq_tokens]
    exact List.flatMap_congr fun w _ => substituted_perm (by decide) horder w
  · intro cs
    have hself : ∀ w, newName (newName w) = newName w :=
      fun w => newName_eq_self (newName_not_mem w)
    rw [renameAll_eq_tokens (renameAll cs), tokens_renameAll, List.flatMap_map,
      renameAll_eq_tokens]
    exact List.flatMap_congr fun w _ => hself w
  · intro cs name hname hmem
    have hold : ∀ name ∈ ["texture2D", "gl_FragColor", "gl_FragCoord", "main"],
        name.toList ∈ oldNames := by decide
    rw [tokens_renameAll] at hmem
    obtain ⟨w, -, hw⟩ := List.mem_map.mp hmem
    exact newName_not_mem w (hw ▸ hold name hname)

/-- A name is replaced where it stands alone, and the names may be replaced in reverse. -/
theorem rename_tokenwise_main :
    IsWord "main".toList ∧
      replaceWords isIdentByte (utf8 "main".toList) (utf8 "run".toList)
        (utf8 "é main maine".toList) = utf8 "é run maine".toList ∧
      rename "main" "run" "main(main2, domain.main)".toList = "run(main2, domain.run)".toList ∧
      renames.reverse.Perm renames ∧
      renames.reverse.foldl (fun cs p => rename p.1 p.2 cs) "void main() \x7b\x7d".toList =
        renameAll "void main() \x7b\x7d".toList ∧
      "main".toList ∉ tokens (renameAll "void main() \x7b\x7d".toList) := by
  have hmain : IsWord "main".toList := by decide
  have hreverse := List.reverse_perm renames
  obtain ⟨hbytes, hname, -, horder, -, hnone⟩ := rename_tokenwise
  exact ⟨hmain, (hbytes _ _ _ (by decide +kernel) (by decide +kernel)).trans (by decide +kernel),
    (hname "main" "run" hmain _).2.trans (by decide +kernel), hreverse, horder _ hreverse _,
    hnone _ "main" (by decide)⟩

end Segue.Shader
