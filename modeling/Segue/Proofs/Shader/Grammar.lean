import Segue.Proofs.Shader.Agreement
import Segue.Proofs.Decimal.Digits

/-!
# Declarations as they are written

Sources are written line by line: declarations of uniforms with blanks at will, other statements and
comments. The scan of what is written gives the declarations, in their order and with their lines.
-/

namespace Segue.Written

open Text (Blank isBlank ended words trimChars splitChars squeeze)
open UniformDecl (keyword precisions maxLength codeOf)

/-! ## The grammar -/

/-- Blanks within a line. -/
structure Gap where
  chars : List Char
  blank : Blank chars
  inLine : '\n' ∉ chars

/-- Blanks within a line, one at least. -/
structure Space extends Gap where
  ne_nil : chars ≠ []

def marks : List Char := [',', ';', '/', '[', ']']

/-- A type or a name. -/
structure Word where
  chars : List Char
  ne_nil : chars ≠ []
  notBlank : ∀ c ∈ chars, isBlank c = false
  unmarked : ∀ c ∈ chars, c ∉ marks

/-- A number in brackets: `[ 4 ]`. -/
structure Brackets where
  outside : Gap
  before : Gap
  digits : List Char
  ne_nil : digits ≠ []
  isDigit : ∀ c ∈ digits, c.isDigit = true
  le : Decimal.ofDigits digits ≤ maxLength
  after : Gap

/-- A name, with brackets or without. -/
structure Declarator where
  before : Gap
  name : Word
  brackets : Option Brackets
  after : Gap

structure Precision where
  chars : List Char
  mem : chars ∈ precisions
  apart : Space

/-- A statement that declares uniforms. -/
structure Declaration where
  before : Gap
  behind : Gap
  precision : Option Precision
  type : Word
  type_notMem : type.chars ∉ precisions
  apart : Space
  first : Declarator
  others : List Declarator

/-- A text without a semicolon or a comment that does not begin as declarations do. -/
structure Other where
  chars : List Char
  unended : ';' ∉ chars
  inLine : '\n' ∉ chars
  uncommented : ¬"//".toList <:+: chars
  undeclared : ¬keyword <+: trimChars chars

inductive Statement where
  | declaration (d : Declaration)
  | other (o : Other)

/-- Statements with semicolons, what is left behind them, and a comment or none. -/
structure Line where
  statements : List Statement
  left : Other
  comment : Option (List Char)
  comment_inLine : ∀ c ∈ comment, '\n' ∉ c
  left_apart : comment.isSome → left.chars.getLast? ≠ some '/'

/-! ## What is written -/

def Brackets.chars (b : Brackets) : List Char :=
  b.outside.chars ++ '[' :: (b.before.chars ++ b.digits ++ b.after.chars ++ [']'])

def Declarator.chars (d : Declarator) : List Char :=
  d.before.chars ++ (d.name.chars ++ d.brackets.elim [] Brackets.chars) ++ d.after.chars

namespace Declaration

def declarators (d : Declaration) : List Declarator := d.first :: d.others

def names (d : Declaration) : List Char := [','].intercalate (d.declarators.map Declarator.chars)

def typeAndNames (d : Declaration) : List Char := d.type.chars ++ (d.apart.chars ++ d.names)

def rest (d : Declaration) : List Char := d.behind.chars ++
  d.precision.elim d.typeAndNames fun p => p.chars ++ (p.apart.chars ++ d.typeAndNames)

def chars (d : Declaration) : List Char := d.before.chars ++ keyword ++ d.rest

end Declaration

def Statement.chars : Statement → List Char
  | .declaration d => d.chars
  | .other o => o.chars

def Line.chars (l : Line) : List Char :=
  ended ';' (l.statements.map Statement.chars) ++ l.left.chars ++
    l.comment.elim [] ("//".toList ++ ·)

def source (lines : List Line) : String := String.ofList (['\n'].intercalate (lines.map Line.chars))

/-! ## What is declared -/

def Declarator.declared (type : Word) (line : Nat) (d : Declarator) : UniformDecl where
  type := String.ofList type.chars
  name := String.ofList d.name.chars
  arrayLength := d.brackets.map fun b => Decimal.ofDigits b.digits
  line := line

def Declaration.declared (line : Nat) (d : Declaration) : List UniformDecl :=
  d.declarators.map (Declarator.declared d.type line)

def Statement.declared (line : Nat) : Statement → List UniformDecl
  | .declaration d => d.declared line
  | .other _ => []

def Line.declared (line : Nat) (l : Line) : List UniformDecl :=
  l.statements.flatMap (Statement.declared line)

/-! ## What separates -/

/-- What stands between names, between statements, before a comment and between lines. -/
def separators : List Char := [',', ';', '/', '\n']

theorem notBlank_of_isWord {w : List Char} (hw : Shader.IsWord w) :
    ∀ c ∈ w, isBlank c = false := by
  intro c hc
  by_contra hblank
  have hident := Shader.isIdentChar_of_blank (Bool.of_not_eq_false hblank)
  rw [hw.ident c hc] at hident
  exact absurd hident (by decide)

def Word.ofIdent (w : List Char) (hw : Shader.IsWord w) : Word where
  chars := w
  ne_nil := hw.ne_nil
  notBlank := notBlank_of_isWord hw
  unmarked := by
    intro c hc hmark
    simp only [marks, List.mem_cons, List.not_mem_nil, or_false] at hmark
    rcases hmark with rfl | rfl | rfl | rfl | rfl <;> exact absurd (hw.ident _ hc) (by decide)

theorem Precision.isWord (p : Precision) : Shader.IsWord p.chars :=
  (by decide : ∀ w ∈ precisions, Shader.IsWord w) p.chars p.mem

section

variable {c : Char} (hc : c ∈ separators)

include hc

theorem separator_apart : Shader.isIdentChar c = false ∧ c ≠ ' ' ∧ c ≠ '[' ∧ c ≠ ']' := by
  simp only [separators, List.mem_cons, List.not_mem_nil, or_false] at hc
  rcases hc with rfl | rfl | rfl | rfl <;> decide

theorem not_mem_of_isWord {w : List Char} (hw : Shader.IsWord w) : c ∉ w :=
  fun h => absurd (hw.ident c h) (by simp [(separator_apart hc).1])

theorem Gap.not_mem (g : Gap) : c ∉ g.chars := by
  simp only [separators, List.mem_cons, List.not_mem_nil, or_false] at hc
  rcases hc with rfl | rfl | rfl | rfl
  · exact g.blank.not_mem (by decide)
  · exact g.blank.not_mem (by decide)
  · exact g.blank.not_mem (by decide)
  · exact g.inLine

theorem Word.not_mem (w : Word) : c ∉ w.chars := by
  simp only [separators, List.mem_cons, List.not_mem_nil, or_false] at hc
  intro h
  rcases hc with rfl | rfl | rfl | rfl
  · exact w.unmarked _ h (by decide)
  · exact w.unmarked _ h (by decide)
  · exact w.unmarked _ h (by decide)
  · exact absurd (w.notBlank _ h) (by decide)

theorem Brackets.not_mem (b : Brackets) : c ∉ b.chars := by
  obtain ⟨hident, -, hopen, hclose⟩ := separator_apart hc
  have hdigits : c ∉ b.digits := by
    intro h
    simp [Shader.isIdentChar, Char.isAlphanum, b.isDigit c h] at hident
  simp [Brackets.chars, b.outside.not_mem hc, b.before.not_mem hc, b.after.not_mem hc, hopen,
    hclose, hdigits]

theorem Declarator.not_mem (d : Declarator) : c ∉ d.chars := by
  have hbrackets : c ∉ d.brackets.elim [] Brackets.chars := by
    cases d.brackets with
    | none => exact List.not_mem_nil
    | some b => exact b.not_mem hc
  simp [Declarator.chars, d.before.not_mem hc, d.name.not_mem hc, d.after.not_mem hc, hbrackets]

theorem Declaration.not_mem (hcomma : c ≠ ',') (d : Declaration) : c ∉ d.chars := by
  have hkeyword : c ∉ keyword := by
    have huniform := not_mem_of_isWord hc Shader.isWord_uniform
    rw [← List.append_nil keyword, Shader.keyword_append, List.mem_append, List.mem_singleton]
    exact not_or.mpr ⟨huniform, (separator_apart hc).2.1⟩
  have hnames : c ∉ d.names := by
    rw [Declaration.names, Shader.mem_intercalate hcomma]
    rintro ⟨w, hw, hcw⟩
    obtain ⟨e, -, rfl⟩ := List.mem_map.mp hw
    exact e.not_mem hc hcw
  have htype : c ∉ d.typeAndNames := by
    simp [Declaration.typeAndNames, d.type.not_mem hc, d.apart.not_mem hc, hnames]
  have hprecision : c ∉ d.precision.elim d.typeAndNames fun p =>
      p.chars ++ (p.apart.chars ++ d.typeAndNames) := by
    cases d.precision with
    | none => exact htype
    | some p =>
        simp [not_mem_of_isWord hc p.isWord, p.apart.not_mem hc, htype]
  simp [Declaration.chars, Declaration.rest, d.before.not_mem hc, hkeyword, d.behind.not_mem hc,
    hprecision]

end

/-! ## Names -/

theorem Space.startsBlank (s : Space) (t : List Char) : Text.StartsBlank (s.chars ++ t) := by
  obtain ⟨c, cs, hs⟩ := List.exists_cons_of_ne_nil s.ne_nil
  rintro d hd
  rw [hs, List.cons_append, List.head?_cons] at hd
  obtain rfl : c = d := Option.some.inj hd
  exact s.blank c (hs ▸ List.mem_cons_self)

@[simp] theorem Word.squeeze_eq (w : Word) : squeeze w.chars = w.chars :=
  Text.squeeze_word w.ne_nil w.notBlank

@[simp] theorem Brackets.squeeze_digits (b : Brackets) :
    squeeze (b.before.chars ++ b.digits ++ b.after.chars) = b.digits := by
  rw [Text.squeeze_append_blank b.after.blank, Text.squeeze_blank_append b.before.blank,
    Text.squeeze_word b.ne_nil fun c hc => Text.isBlank_of_isDigit (b.isDigit c hc)]

/-- What stands in brackets is read when the words are joined again. -/
theorem Brackets.read_squeeze (b : Brackets) {gap : List Char} (hgap : Blank gap) :
    let rest := gap ++ squeeze (b.before.chars ++ b.digits ++ b.after.chars ++ [']'])
    Decimal.readCount? maxLength
        (String.ofList (trimChars (rest.reverse.dropWhile (· = ']')).reverse)) =
      some (Decimal.ofDigits b.digits) := by
  intro rest
  have hbracket : isBlank ']' = false := by decide
  obtain ⟨after, hafter, hsqueeze⟩ := Text.exists_squeeze_append hbracket
    (b.before.chars ++ b.digits ++ b.after.chars) []
  have hclose : squeeze [']'] = [']'] :=
    Text.squeeze_word (by simp) (List.forall_mem_singleton.mpr hbracket)
  rw [b.squeeze_digits, hclose] at hsqueeze
  have hdigits : ']' ∉ b.digits := fun h => absurd (b.isDigit ']' h) (by decide)
  have hinside : ∀ c ∈ (gap ++ b.digits ++ after).reverse, ¬(c = ']') := by
    rintro c hc rfl
    simp [hgap.not_mem hbracket, hafter.not_mem hbracket, hdigits] at hc
  have hrest : rest.reverse.dropWhile (· = ']') = (gap ++ b.digits ++ after).reverse := by
    have hreverse : rest.reverse = [']'] ++ (gap ++ b.digits ++ after).reverse := by
      rw [show rest = gap ++ (b.digits ++ after ++ [']']) from congrArg (gap ++ ·) hsqueeze]
      simp
    rw [hreverse, List.dropWhile_append_of_pos (by simp)]
    cases h : (gap ++ b.digits ++ after).reverse with
    | nil => rfl
    | cons c cs =>
        exact List.dropWhile_cons_of_neg (by simpa using hinside c (h ▸ List.mem_cons_self))
  have htrim : trimChars b.digits = b.digits := by
    conv_lhs => rw [← b.squeeze_digits, Text.trimChars_squeeze, b.squeeze_digits]
  rw [hrest, List.reverse_reverse, Text.trimChars_blanks hgap hafter, htrim]
  exact Decimal.readCount?_digits b.ne_nil b.isDigit b.le

@[simp] theorem Declarator.readName_squeeze (d : Declarator) :
    UniformDecl.readName (squeeze d.chars) =
      (String.ofList d.name.chars, d.brackets.map fun b => Decimal.ofDigits b.digits) := by
  have hends : squeeze d.chars = squeeze (d.name.chars ++ d.brackets.elim [] Brackets.chars) := by
    rw [Declarator.chars, Text.squeeze_append_blank d.after.blank,
      Text.squeeze_blank_append d.before.blank]
  rw [hends]
  cases d.brackets with
  | none =>
      have hname : Text.splitOnce? '[' d.name.chars = none :=
        Text.splitOnce?_of_not_mem fun h => d.name.unmarked '[' h (by decide)
      rw [Option.elim_none, List.append_nil, d.name.squeeze_eq, UniformDecl.readName, hname]
      rfl
  | some b =>
      have hbracket : isBlank '[' = false := by decide
      obtain ⟨before, hbefore, hsqueeze⟩ := Text.exists_squeeze_append hbracket
        (d.name.chars ++ b.outside.chars) (b.before.chars ++ b.digits ++ b.after.chars ++ [']'])
      obtain ⟨gap, hgap, hinside⟩ := Text.exists_squeeze_cons hbracket
        (b.before.chars ++ b.digits ++ b.after.chars ++ [']'])
      rw [Text.squeeze_append_blank b.outside.blank, d.name.squeeze_eq, hinside] at hsqueeze
      have hname : '[' ∉ d.name.chars ++ before := by
        have hword : '[' ∉ d.name.chars := fun h => d.name.unmarked '[' h (by decide)
        simp [hword, hbefore.not_mem hbracket]
      have htrim : trimChars (d.name.chars ++ before) = d.name.chars := by
        rw [Text.trimChars_append hbefore, ← d.name.squeeze_eq, Text.trimChars_squeeze]
      have hread := b.read_squeeze hgap
      rw [Option.elim_some, Brackets.chars, ← List.append_assoc, hsqueeze, UniformDecl.readName,
        Text.splitOnce?_append hname]
      dsimp only
      rw [htrim, hread]
      rfl

/-! ## Statements -/

theorem Declarator.squeeze_ne_nil (d : Declarator) : squeeze d.chars ≠ [] := by
  obtain ⟨c, cs, hname⟩ := List.exists_cons_of_ne_nil d.name.ne_nil
  have hc : c ∈ d.name.chars := hname ▸ List.mem_cons_self
  intro h
  have hblank := Text.words_eq_nil_iff.mp (Text.squeeze_eq_nil_iff.mp h) c
    (by simp [Declarator.chars, hc])
  exact absurd hblank (by simp [d.name.notBlank c hc])

namespace Declaration

variable (d : Declaration)

@[simp] theorem words_typeAndNames : words d.typeAndNames = d.type.chars :: words d.names := by
  rw [typeAndNames, Text.words_append d.type.ne_nil d.type.notBlank (d.apart.startsBlank _),
    Text.words_blank_append d.apart.blank]

theorem typeAndNames_rest :
    UniformDecl.typeAndNames? (words d.rest) = some (d.type.chars, words d.names) := by
  rw [rest, Text.words_blank_append d.behind.blank]
  cases d.precision with
  | none =>
      rw [Option.elim_none, d.words_typeAndNames]
      simp [UniformDecl.typeAndNames?, d.type_notMem]
  | some p =>
      rw [Option.elim_some,
        Text.words_append p.isWord.ne_nil (notBlank_of_isWord p.isWord) (p.apart.startsBlank _),
        Text.words_blank_append p.apart.blank, d.words_typeAndNames]
      simp [UniformDecl.typeAndNames?, p.mem]

@[simp] theorem splitChars_names :
    splitChars (· = ',') d.names = d.declarators.map Declarator.chars := by
  refine Text.splitChars_intercalate (fun p hp => ?_) (by simp [declarators])
  obtain ⟨e, -, rfl⟩ := List.mem_map.mp hp
  exact e.not_mem (by decide)

theorem ofStatement_chars (line : Nat) :
    UniformDecl.ofStatement line (trimChars d.chars) = d.declared line := by
  have hrest := d.typeAndNames_rest
  have hne : words d.rest ≠ [] := by
    intro h
    rw [h] at hrest
    exact absurd hrest nofun
  have htrim : trimChars d.chars = keyword ++ Text.trimRight d.rest := by
    have hblanks := Text.trimChars_blanks d.before.blank Text.blank_nil (keyword ++ d.rest)
    rw [List.append_nil, ← List.append_assoc] at hblanks
    exact hblanks.trans (Shader.trimChars_keyword hne)
  obtain ⟨after, hafter, hright⟩ := Text.exists_trimRight d.rest
  have hwords : words (Text.trimRight d.rest) = words d.rest := by
    conv_rhs => rw [hright, Text.words_append_blanks hafter]
  have hpieces : (splitChars (· = ',') ([' '].intercalate (words d.names))).map trimChars =
      d.declarators.map fun e => squeeze e.chars := by
    have hsqueeze := Text.map_trimChars_splitChars_squeeze (c := ',') (by decide) d.names
    rw [d.splitChars_names, List.map_map] at hsqueeze
    exact hsqueeze
  rw [UniformDecl.ofStatement, htrim, Text.dropStart?_append]
  dsimp only
  rw [hwords, hrest]
  dsimp only
  have hnamed : (d.declarators.map fun e => squeeze e.chars).filter (fun p => !p.isEmpty) =
      d.declarators.map fun e => squeeze e.chars := by
    refine List.filter_eq_self.mpr fun p hp => ?_
    obtain ⟨e, -, rfl⟩ := List.mem_map.mp hp
    simp [e.squeeze_ne_nil]
  rw [hpieces, hnamed, List.map_map, declared]
  refine List.map_congr_left fun e _ => ?_
  rw [Function.comp_apply, e.readName_squeeze]
  rfl

end Declaration

@[simp] theorem Other.ofStatement_chars (o : Other) (line : Nat) :
    UniformDecl.ofStatement line (trimChars o.chars) = [] := by
  have hnone : Text.dropStart? keyword (trimChars o.chars) = none := by
    rw [Option.eq_none_iff_forall_ne_some]
    exact fun rest h => o.undeclared ⟨rest, (Text.eq_append_of_dropStart? h).symm⟩
  rw [UniformDecl.ofStatement, hnone]

@[simp] theorem Statement.ofStatement_chars (s : Statement) (line : Nat) :
    UniformDecl.ofStatement line (trimChars s.chars) = s.declared line := by
  cases s with
  | declaration d => exact d.ofStatement_chars line
  | other o => exact o.ofStatement_chars line

theorem codeOf_eq_self {cs : List Char} (h : ¬"//".toList <:+: cs) : codeOf cs = cs := by
  induction cs with
  | nil => rfl
  | cons c cs ih =>
      rw [Shader.codeOf_cons fun hprefix => h hprefix.isInfix,
        ih fun hin => h (hin.trans (List.suffix_cons c cs).isInfix)]

@[simp] theorem Statement.codeOf_chars (s : Statement) : codeOf s.chars = s.chars := by
  cases s with
  | declaration d =>
      refine codeOf_eq_self fun h => ?_
      exact d.not_mem (c := '/') (by decide) (by decide) (h.subset List.mem_cons_self)
  | other o => exact codeOf_eq_self o.uncommented

theorem Statement.not_mem_semicolon (s : Statement) : ';' ∉ s.chars := by
  cases s with
  | declaration d => exact d.not_mem (by decide) (by decide)
  | other o => exact o.unended

theorem Statement.not_mem_newline (s : Statement) : '\n' ∉ s.chars := by
  cases s with
  | declaration d => exact d.not_mem (by decide) (by decide)
  | other o => exact o.inLine

/-! ## Lines -/

/-- A comment begins where the code ends. -/
theorem codeOf_append_slashes {cs : List Char} (h : ¬"//".toList <:+: cs)
    (hlast : cs.getLast? ≠ some '/') (comment : List Char) :
    codeOf (cs ++ ("//".toList ++ comment)) = cs := by
  induction cs with
  | nil => exact Shader.codeOf_of_slashes ⟨comment, rfl⟩
  | cons c cs ih =>
      have hslashes : ¬"//".toList <+: c :: (cs ++ ("//".toList ++ comment)) := by
        rintro ⟨rest, hrest⟩
        obtain ⟨rfl, hcs⟩ := List.cons.inj hrest
        cases cs with
        | nil => exact hlast rfl
        | cons d cs =>
            obtain ⟨rfl, -⟩ := List.cons.inj hcs
            exact h ⟨[], cs, rfl⟩
      rw [List.cons_append, Shader.codeOf_cons hslashes, ih]
      · exact fun hin => h (hin.trans (List.suffix_cons c cs).isInfix)
      · intro hend
        have hne : cs ≠ [] := by
          rintro rfl
          exact absurd hend nofun
        exact hlast (by rw [List.getLast?_cons_of_ne_nil hne, hend])

namespace Line

variable (l : Line)

theorem codeOf_chars :
    codeOf l.chars = ended ';' (l.statements.map Statement.chars) ++ l.left.chars := by
  have hpieces : ∀ p ∈ l.statements.map Statement.chars, codeOf p = p := by
    intro p hp
    obtain ⟨s, -, rfl⟩ := List.mem_map.mp hp
    exact s.codeOf_chars
  have hleft : codeOf (l.left.chars ++ l.comment.elim [] ("//".toList ++ ·)) = l.left.chars := by
    cases h : l.comment with
    | none => rw [Option.elim_none, List.append_nil, codeOf_eq_self l.left.uncommented]
    | some comment =>
        exact codeOf_append_slashes l.left.uncommented (l.left_apart (by rw [h]; rfl)) comment
  rw [chars, List.append_assoc]
  exact Shader.codeOf_ended.mpr ⟨hpieces, hleft⟩

@[simp] theorem ofLine_chars (line : Nat) : UniformDecl.ofLine line l.chars = l.declared line := by
  have hpieces : Shader.pieces l.chars = l.statements.map Statement.chars ++ [l.left.chars] := by
    rw [Shader.pieces, l.codeOf_chars]
    refine Text.splitChars_ended (fun p hp => ?_) l.left.unended
    obtain ⟨s, -, rfl⟩ := List.mem_map.mp hp
    exact s.not_mem_semicolon
  rw [UniformDecl.ofLine, Shader.statements_eq, hpieces, List.map_append, List.map_map,
    List.flatMap_append, List.flatMap_map, List.map_singleton, List.flatMap_singleton,
    l.left.ofStatement_chars, List.append_nil]
  exact List.flatMap_congr fun s _ => s.ofStatement_chars line

theorem not_mem_newline : '\n' ∉ l.chars := by
  have hstatements : '\n' ∉ ended ';' (l.statements.map Statement.chars) := by
    simp [ended, Statement.not_mem_newline]
  have hcomment : '\n' ∉ l.comment.elim [] ("//".toList ++ ·) := by
    cases h : l.comment with
    | none => exact List.not_mem_nil
    | some comment => simp [l.comment_inLine comment h]
  rw [chars, List.mem_append, List.mem_append]
  exact not_or.mpr ⟨not_or.mpr ⟨hstatements, l.left.inLine⟩, hcomment⟩

end Line

/-! ## Sources -/

/-- The scan goes from line feed to line feed. -/
theorem scan_eq (s : String) : UniformDecl.scan s =
    (splitChars (· = '\n') s.toList).zipIdx.flatMap fun (cs, i) => UniformDecl.ofLine i cs := by
  obtain ⟨pieces, left, hs, hpieces, hleft⟩ := Text.exists_ended '\n' s.toList
  have hclosed : (pieces.map Text.dropReturn).zipIdx.flatMap
      (fun (cs, i) => UniformDecl.ofLine i cs) =
        pieces.zipIdx.flatMap fun (cs, i) => UniformDecl.ofLine i cs := by
    rw [List.zipIdx_map, List.flatMap_map]
    exact List.flatMap_congr fun p _ => Shader.ofLine_dropReturn p.2 p.1
  rw [UniformDecl.scan, Text.linesOf, hs, Text.splitChars_ended hpieces hleft]
  dsimp only
  rw [List.getLastD_concat, List.dropLast_concat, List.zipIdx_append, List.flatMap_append]
  split
  · rename_i hempty
    have hnone : ∀ i, UniformDecl.ofLine i [] = [] := fun i => rfl
    rw [List.isEmpty_iff.mp hempty, hclosed, List.zipIdx_singleton, List.flatMap_singleton, hnone,
      List.append_nil]
  · rw [List.zipIdx_append, List.flatMap_append, hclosed, List.length_map]

theorem ofLine_shift (i k : Nat) (cs : List Char) : UniformDecl.ofLine (i + k) cs =
    (UniformDecl.ofLine i cs).map fun d => { d with line := d.line + k } := by
  have hstatement : ∀ statement, UniformDecl.ofStatement (i + k) statement =
      (UniformDecl.ofStatement i statement).map fun d => { d with line := d.line + k } := by
    intro statement
    unfold UniformDecl.ofStatement
    split
    · rfl
    · split
      · rfl
      · rw [List.map_map]
        rfl
  rw [UniformDecl.ofLine, UniformDecl.ofLine, List.map_flatMap]
  exact List.flatMap_congr fun statement _ => hstatement statement

theorem scan_lines (lines : List Line) : UniformDecl.scan (source lines) =
    lines.zipIdx.flatMap fun (l, i) => l.declared i := by
  cases lines with
  | nil => rfl
  | cons l ls =>
      have hpieces : ∀ p ∈ (l :: ls).map Line.chars, '\n' ∉ p := by
        intro p hp
        obtain ⟨m, -, rfl⟩ := List.mem_map.mp hp
        exact m.not_mem_newline
      rw [scan_eq, source, String.toList_ofList, Text.splitChars_intercalate hpieces (by simp),
        List.zipIdx_map, List.flatMap_map]
      exact List.flatMap_congr fun m _ => m.1.ofLine_chars m.2

theorem scan_append (a b : String) : UniformDecl.scan (a ++ "\n" ++ b) = UniformDecl.scan a ++
    (UniformDecl.scan b).map fun d => { d with line := d.line + (a.toList.count '\n' + 1) } := by
  have hlines : (a ++ "\n" ++ b).toList = a.toList ++ '\n' :: b.toList := by simp
  rw [scan_eq, scan_eq, scan_eq, hlines, Text.splitChars_append_cons, List.zipIdx_append,
    List.flatMap_append, Text.length_splitChars, Nat.zero_add]
  congr 1
  rw [List.zipIdx_eq_map_add, List.flatMap_map, List.map_flatMap]
  refine List.flatMap_congr fun p _ => ?_
  show UniformDecl.ofLine (a.toList.count '\n' + 1 + p.2) p.1 = _
  rw [Nat.add_comm]
  exact ofLine_shift p.2 _ p.1

/-- The scan of what is written gives what is declared. Sources with a line feed between them are
scanned as if they were alone. -/
theorem scan_source :
    (∀ lines, UniformDecl.scan (source lines) =
      lines.zipIdx.flatMap fun (l, i) => l.declared i) ∧
    ∀ a b : String, UniformDecl.scan (a ++ "\n" ++ b) = UniformDecl.scan a ++
      (UniformDecl.scan b).map fun d => { d with line := d.line + (a.toList.count '\n' + 1) } :=
  ⟨scan_lines, scan_append⟩

example : ∃ l : Line, l.chars = "uniform highp vec2 a , b[4]; // c".toList ∧
    l.declared 2 = [⟨"vec2", "a", none, 2⟩, ⟨"vec2", "b", some 4, 2⟩] := by
  let tight : Gap := ⟨[], Text.blank_nil, List.not_mem_nil⟩
  let space : Space :=
    ⟨⟨[' '], List.forall_mem_singleton.mpr (by decide), by decide⟩, List.cons_ne_nil _ _⟩
  let four : Brackets :=
    ⟨tight, tight, ['4'], by decide, List.forall_mem_singleton.mpr rfl, by decide, tight⟩
  let d : Declaration := {
    before := tight
    behind := tight
    precision := some ⟨"highp".toList, by decide, space⟩
    type := .ofIdent "vec2".toList (by decide)
    type_notMem := by decide
    apart := space
    first := ⟨tight, .ofIdent ['a'] (by decide), none, space.toGap⟩
    others := [⟨space.toGap, .ofIdent ['b'] (by decide), some four, tight⟩] }
  let blank : Other := ⟨[' '], by decide, by decide, by decide, by decide⟩
  exact ⟨⟨[.declaration d], blank, some " c".toList, by simp, by decide⟩, rfl, rfl⟩

end Segue.Written
