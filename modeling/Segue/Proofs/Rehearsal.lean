import Mathlib
import Segue.Proofs.Decimal.Digits
import Segue.Proofs.Export.Clocked
import Segue.Rehearsal.Exporting
import Segue.Report

/-!
# Rehearsals and reports

A rehearsed export is a run: what it reports is what a session says of one of its runs. Whatever is
reported is one line.
-/

namespace Segue

open Exporter

namespace Housing

variable {m : Type → Type} [Monad m] [MonadStateOf (Exporter Float) m] {S β γ : Type}
  {H : Housing m S} {heard : Event Float → Prop} {k : Nat}

theorem Causes.bind {x : m β} {f : β → m γ} (hx : H.Causes heard k x)
    (hf : ∀ b, H.Causes heard k (f b)) : H.Causes heard k (x >>= f) := by
  intro s c hc
  obtain ⟨s₁, hs₁, hc₁⟩ := hx s c hc
  obtain ⟨s₂, hs₂, hc₂⟩ := hf (H.exec x c).1 s₁ _ hc₁
  refine ⟨s₂, hs₁.trans hs₂, ?_⟩
  rw [H.exec_bind]
  exact hc₂

theorem Causes.ite {p : Prop} [Decidable p] {x y : m β} (hx : H.Causes heard k x)
    (hy : H.Causes heard k y) : H.Causes heard k (if p then x else y) := by
  split
  · exact hx
  · exact hy

theorem causes_event {change : Exporter Float → Exporter Float} (e : Event Float) (he : heard e)
    (helsewhere : e.Elsewhere k) (hchange : ∀ s : Session Float, (s.step e).exporter =
      change s.exporter) : H.Causes heard k (modifyThe (Exporter Float) change) := by
  intro s c hc
  refine ⟨s.step e, .step ⟨he, helsewhere⟩, ?_⟩
  rw [exec_modify, H.exporter_put, hchange, hc]

end Housing

namespace Rehearsal

/-- The exporter is on the stage. -/
def housing : Housing Play Stage where
  exec x c := x.run c
  exporter c := c.exporter
  put e c := { c with exporter := e }
  exporter_put _ _ := rfl
  exec_pure _ _ := rfl
  exec_bind _ _ _ := rfl
  exec_get _ := rfl
  exec_set _ _ := rfl
  exec_modifyGet _ _ := rfl

theorem housing_source : housing.SourceApart Player where
  seek _ _ _ := rfl
  duplicate a c := by
    show (StateT.run (a.duplicate) c).2.exporter = _
    unfold Player.duplicate
    split <;> rfl
  release _ _ := rfl

theorem housing_compositor : housing.CompositorApart Easel where
  useVariant a registry key c := by
    show (StateT.run (a.useVariant registry key) c).2.exporter = _
    unfold Easel.useVariant
    split <;> rfl
  updateImage _ _ _ _ := rfl
  pinTime _ _ _ := rfl
  render a shot c := by
    show (StateT.run (a.render shot) c).2.exporter = _
    unfold Easel.render
    split
    · rfl
    · dsimp only
      split <;> rfl
  readPixels a c := by
    show (StateT.run a.readPixels c).2.exporter = _
    unfold Easel.readPixels
    split <;> rfl
  dispose _ _ := rfl

theorem housing_uploader : housing.UploaderApart := fun _ _ => rfl

/-- The run is cut short, or what it has left is forgotten. -/
def Cut (e : Event Float) : Prop := e = .abort ∨ e = .clear

theorem causes_hearExport (k journal : Nat) (s : RunScript) (x : Float) :
    housing.Causes Cut k (hearExport journal s x) := by
  have hnothing : housing.Causes Cut k (pure () : Play Unit) :=
    Housing.Apart.causes (fun _ => rfl) Cut k
  have habort : housing.Causes Cut k (modifyThe (Exporter Float) (·.abort)) :=
    Housing.causes_event .abort (.inl rfl) nofun fun _ => rfl
  have hclear : housing.Causes Cut k (modifyThe (Exporter Float) (·.clear)) :=
    Housing.causes_event .clear (.inr rfl) nofun fun _ => rfl
  have hnoted : housing.Causes Cut k (noteProgress journal x) :=
    Housing.Apart.causes (fun _ => rfl) Cut k
  have hforgotten := hclear.ite hnothing (p := reached s.clearAt x = true)
  exact hnoted.bind fun _ => (habort.bind fun _ => hforgotten).ite hforgotten

/-- A rehearsed export is a run that is called in any session that has come to its exporter; its
report is taken where the session has come to. -/
theorem enacts_rehearseExport (g : ExportSetting) (script : RunScript) {s : Session Float}
    (now : Moment) {c : Stage} (hs : s.Sound) (hpolicy : s.policy = Export.policy g.config)
    (hsame : c.exporter = s.exporter) :
    ∃ fa fb, housing.Enacts Cut s.runs.length (rehearseExport g script)
      (fun report s' _ => s'.Sound ∧ report.exporter = s'.exporter ∧
        ∃ x, s'.runs[s.runs.length]? = some x ∧ x.run.job = script.job g ∧
          x.run.phase = .ended report.result)
      (s.step (.call (script.job g) fa fb)) now c := by
  have hopened : housing.exporter { c with journals := c.journals.push ⟨[], []⟩ } = s.exporter :=
    hsame
  have hmake (w h : Nat) : housing.Apart (makeEasel g.compositor c.journals.size w h) :=
    fun _ => rfl
  obtain ⟨fa, fb, hexport⟩ := Housing.enacts_exportFrames housing_source housing_compositor Cut now
    hmake (script.job g) (Player.make .a script.a c.journals.size true)
    (Player.make .b script.b c.journals.size true) hs hpolicy hopened
    (causes_hearExport _ c.journals.size script)
  refine ⟨fa, fb, Housing.enacts_act (Housing.enacts_millis ?_)⟩
  refine hexport.bind fun result s' now' c' ⟨x, hseated, hjob, hp⟩ => Housing.enacts_millis ?_
  refine Housing.enacts_act (Housing.enacts_act (Housing.enacts_pure ?_))
  exact ⟨hseated.sound, hseated.same, x, hseated.here, hjob, hp⟩

/-- Alone on a stage with a new exporter, a rehearsed export is the first run of a session. The
frames that it reports are in the order of their positions, and complete unless it was cut short. -/
theorem rehearse_export (g : ExportSetting) (script : RunScript) {c : Stage}
    (hnew : c.exporter = .make) :
    let report := (c.rehearse (rehearseExport g script)).1
    ∃ (events : List (Event Float)) (x : ExportCall Float),
      let s := (Session.start (Export.policy g.config)).run events
      s.runs[0]? = some x ∧ x.run.job = script.job g ∧ x.run.phase = .ended report.result ∧
        report.exporter = s.exporter ∧ ∀ frames, report.result = .ok frames →
          s.Delivered 0 x frames ∧ (s.exporter.isCancelled 1 = false → s.Complete 0 x) := by
  have hstart := Session.sound_start (α := Float) (Export.policy g.config)
  obtain ⟨fa, fb, henacts⟩ := enacts_rehearseExport g script Moment.start hstart rfl hnew
  obtain ⟨s, hreached, hsound, hsame, x, hk, hjob, hp⟩ :=
    henacts.run housing_uploader ((hstart.change _).sound hstart)
  obtain ⟨events, -, rfl⟩ := hreached
  refine ⟨.call (script.job g) fa fb :: events, x, hk, hjob, hp, hsame, fun frames hframes => ?_⟩
  have hended := hp.trans (congrArg _ hframes)
  exact ⟨hsound.delivered hk hended, fun hgoes => hsound.complete hk hgoes hended⟩

end Rehearsal

/-! ## Reports are lines -/

/-- There are no controls in a text, and so no ends of lines. -/
def Printable (cs : List Char) : Prop := ∀ c ∈ cs, 32 ≤ c.toNat

namespace Printable

variable {cs ds : List Char}

@[simp]
theorem nil : Printable [] := nofun

@[simp]
theorem cons {c : Char} : Printable (c :: cs) ↔ 32 ≤ c.toNat ∧ Printable cs := List.forall_mem_cons

@[simp]
theorem append : Printable (cs ++ ds) ↔ Printable cs ∧ Printable ds := List.forall_mem_append

theorem of_digits (h : ∀ c ∈ cs, c.isDigit = true) : Printable cs := by
  intro c hc
  have hrange := Text.toNat_of_isDigit (h c hc)
  omega

theorem take (h : Printable cs) (n : Nat) : Printable (cs.take n) :=
  fun c hc => h c (List.mem_of_mem_take hc)

theorem drop (h : Printable cs) (n : Nat) : Printable (cs.drop n) :=
  fun c hc => h c (List.mem_of_mem_drop hc)

theorem toDigits (n : Nat) : Printable (Nat.toDigits 10 n) :=
  of_digits fun _ => Decimal.isDigit_toDigits

theorem zeros (n : Nat) : Printable (Decimal.zeros n) := by
  intro c hc
  obtain rfl := List.eq_of_mem_replicate hc
  decide

end Printable

namespace Decimal

theorem printable_positional {ds : List Char} (h : Printable ds) (e : Int) (pointZero : Bool) :
    Printable (positional ds e pointZero) := by
  unfold positional
  split
  · simp [h, Printable.zeros]
  · dsimp only
    split
    · simp [h.take, h.drop]
    · cases pointZero <;> simp [h, Printable.zeros]

theorem printable_scientific {ds : List Char} (h : Printable ds) (e : Int) (signed : Bool) :
    Printable (scientific ds e signed) := by
  have hsign : Printable (if e < 0 then ['-'] else if signed then ['+'] else []) := by
    split
    · simp
    · cases signed <;> simp
  unfold scientific
  rcases ds with _ | ⟨c, _ | ⟨d, ds⟩⟩
  · simp [hsign, Printable.toDigits]
  · simpa [hsign, Printable.toDigits] using h
  · simpa [hsign, Printable.toDigits] using h

theorem printable_render (l : Layout) (x : Float) : Printable (l.render x).toList := by
  have hdigits : Printable (shortest l.tie x).leading.1 := Printable.toDigits _
  have hmagnitude : Printable (l.magnitude x) := by
    unfold Layout.magnitude
    dsimp only
    split
    · exact printable_positional hdigits _ _
    · exact printable_scientific hdigits _ _
  have hsign : Printable (if isNegative x then ['-'] else []) := by
    split <;> simp
  unfold Layout.render
  split
  · simp
  · dsimp only
    split
    · simp [hsign]
    · simp [hsign, hmagnitude]

end Decimal

namespace Json

theorem printable_hexDigit (n : Nat) : 32 ≤ (Quoted.hexDigit n).toNat := by
  have hall : ∀ k < 16, 32 ≤ ((Nat.toDigits 16 k).headD '0').toNat := by decide
  exact hall _ (Nat.mod_lt n (by decide))

theorem printable_escapeChar (c : Char) : Printable (Quoted.escapeChar c) := by
  unfold Quoted.escapeChar
  split
  case h_6 =>
    split
    · simp
    · split
      · simp
      · split
        · simp [printable_hexDigit]
        · rename_i hplain
          simpa using hplain
  all_goals simp

theorem printable_encode (cs : List Char) : Printable (Quoted.encode cs) := by
  have hbody : Printable (cs.flatMap Quoted.escapeChar) := by
    intro c hc
    obtain ⟨d, -, hd⟩ := List.mem_flatMap.mp hc
    exact printable_escapeChar d c hd
  simp [Quoted.encode, hbody]

mutual

theorem printable_write (depth : Nat) : (j : Json Float) → Printable (write .compact depth j)
  | .null => by simp [write]
  | .bool true => by simp [write]
  | .bool false => by simp [write]
  | .int n => by
      rw [write, Decimal.toList_toString_int]
      split <;> simp [Printable.toDigits]
  | .float x => by
      rw [write, numberText]
      split
      · exact Decimal.printable_render _ _
      · simp
  | .str s => printable_encode _
  | .arr [] => by simp [write]
  | .arr (v :: vs) => by
      simp [write, Style.line, printable_write (depth + 1) v, printable_writeItems depth vs]
  | .obj [] => by simp [write]
  | .obj ((k, v) :: ms) => by
      simp [write, Style.line, Style.colon, printable_encode, printable_write (depth + 1) v,
        printable_writeMembers depth ms]

theorem printable_writeItems (depth : Nat) :
    (vs : List (Json Float)) → Printable (writeItems .compact depth vs)
  | [] => by simp [writeItems, Style.line]
  | v :: vs => by
      simp [writeItems, Style.line, printable_write (depth + 1) v, printable_writeItems depth vs]

theorem printable_writeMembers (depth : Nat) :
    (ms : List (String × Json Float)) → Printable (writeMembers .compact depth ms)
  | [] => by simp [writeMembers, Style.line]
  | (k, v) :: ms => by
      simp [writeMembers, Style.line, Style.colon, printable_encode,
        printable_write (depth + 1) v, printable_writeMembers depth ms]

end

end Json

/-- Whatever is reported, its report is one line. -/
theorem Report.not_mem_line {α : Type} [Report α] (x : α) :
    '\n' ∉ (Report.line (Report.report x)).toList := by
  intro hend
  rw [Report.line, Json.render, String.toList_ofList] at hend
  exact absurd (Json.printable_write 0 _ _ hend) (by decide)

end Segue
