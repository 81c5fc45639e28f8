import DesignLint.Proofs.BrokenTexts
import DesignLint.Proofs.Results

/-! Which outputs of the scanner are read. The form of a report is said here field by field. An output that
is no JSON, or no object, is refused as unreadable; an object of this form gives a report whose positions all
count from zero; and every other object, like a text beyond the limits of the reader, ends in a fault that is
not the refusal of an unreadable output. -/

namespace DesignLint

open Result

namespace Scan

section Forms

/-- No infinite number, which stands for no position. -/
def Bounded (v : Value) : Prop :=
  ∀ x, v = .float x → ∀ negative, Decimal.Binary.ofFloat x ≠ .infinite negative

def Named (v : Value) : Prop := v.isPresent = true → ∃ name, v = .str name

/-- The fields of a part: an object, or none if the part is left out or counts as nothing. -/
inductive Part (fields : List (RawText × Value)) (name : RawText) : List (RawText × Value) → Prop
  | missing (h : ∀ v ∈ fields.lookup name, v.isPresent = false) : Part fields name []
  | object {parts : List (RawText × Value)} (h : fields.lookup name = some (.object parts)) :
      Part fields name parts

def Located (fields : List (RawText × Value)) (name : RawText) : Prop :=
  ∃ parts, Part fields name parts ∧
    (∀ v ∈ parts.lookup (.proper "line"), Bounded v) ∧ ∀ v ∈ parts.lookup (.proper "col"), Bounded v

structure FindingForm (fields : List (RawText × Value)) : Prop where
  start : Located fields "start"
  stop : Located fields "end"
  severity : ∃ parts, Part fields "extra" parts ∧ ∀ v ∈ parts.lookup (.proper "severity"), Named v

/-- A list of objects, which may also be left out; an empty object and an empty text have no items either. -/
inductive Objects (form : List (RawText × Value) → Prop) : Option Value → Prop
  | missing : Objects form none
  | list {items : List Value} (h : ∀ v ∈ items, ∃ fields, v = .object fields ∧ form fields) :
      Objects form (some (.list items))
  | noFields : Objects form (some (.object []))
  | noText : Objects form (some (.str ""))

structure ReportForm (fields : List (RawText × Value)) : Prop where
  results : Objects FindingForm (fields.lookup (.proper "results"))
  errors : Objects (fun _ => True) (fields.lookup (.proper "errors"))

end Forms

section Reading

variable {fields parts : List (RawText × Value)} {name : RawText} {v : Value}

theorem fieldsOf_eq_ok : fieldsOf v = .ok fields ↔ v = .object fields := by
  cases v <;> simp [fieldsOf]

theorem forall_lookup_iff {P : Value → Prop} (hnull : P .null) :
    P (field fields name .null) ↔ ∀ v ∈ fields.lookup name, P v := by
  unfold field
  cases fields.lookup name with
  | none => simpa using hnull
  | some v => simp

theorem part_eq_object : part fields name = .object parts ↔ Part fields name parts := by
  unfold part field
  constructor
  · intro h
    cases hlookup : fields.lookup name with
    | none =>
      simp only [hlookup, Option.getD_none, Value.isPresent, Bool.false_eq_true, if_false, Value.object.injEq] at h
      exact h ▸ .missing (by simp [hlookup])
    | some v =>
      simp only [hlookup, Option.getD_some] at h
      split_ifs at h with hpresent
      · exact .object (h ▸ hlookup)
      · exact Value.object.inj h ▸ .missing (by simpa [hlookup] using hpresent)
  · rintro (hmissing | hobject)
    · have hnull : ((fields.lookup name).getD .null).isPresent = false := by
        cases hlookup : fields.lookup name with
        | none => rfl
        | some v => exact hmissing v hlookup
      simp [hnull]
    · simp only [hobject, Option.getD_some]
      split_ifs with hpresent
      · rfl
      · have hnil : parts = [] := by simpa [Value.isPresent] using hpresent
        rw [hnil]

theorem partField_eq_ok {w absent : Value} :
    partField w name absent = .ok v ↔ ∃ parts, w = .object parts ∧ field parts name absent = v := by
  simp only [partField, bind_eq_ok, fieldsOf_eq_ok, pure_eq_ok]

/-- Only an infinite number has no position. -/
theorem exists_position_iff : (∃ n, position v = .ok n) ↔ Bounded v := by
  simp only [position, map_eq_ok]
  cases v with
  | float x =>
    have hbounded : Bounded (.float x) ↔ ∀ negative, Decimal.Binary.ofFloat x ≠ .infinite negative :=
      ⟨fun h => h x rfl, fun h y hy => Value.float.inj hy ▸ h⟩
    rw [hbounded]
    cases hx : Decimal.Binary.ofFloat x <;> simp [integer?, hx]
  | str t => cases t <;> simp [integer?, Bounded]
  | _ => simp [integer?, Bounded]

theorem position_nonneg {n : Int} (h : position v = .ok n) : 0 ≤ n := by
  obtain ⟨m, -, rfl⟩ := map_eq_ok.1 h
  cases m with
  | none => exact Int.le_refl 0
  | some m =>
    dsimp only
    split_ifs with hm
    · exact Int.le_refl 0
    · omega

theorem exists_severity_iff : (∃ s, Severity.ofValue v = .ok s) ↔ Named v := by
  cases v with
  | str t => cases t <;> simp [Severity.ofValue, Named]
  | _ =>
    unfold Severity.ofValue Named
    dsimp only
    split_ifs with hpresent <;> simp [hpresent]

/-- Both positions of a place are read together. -/
theorem located_iff : Located fields name ↔
    (∃ v, partField (part fields name) "line" .null = .ok v ∧ ∃ n, position v = .ok n) ∧
      ∃ v, partField (part fields name) "col" .null = .ok v ∧ ∃ n, position v = .ok n := by
  have hnull : Bounded .null := nofun
  simp only [partField_eq_ok, part_eq_object, exists_position_iff, Located, ← forall_lookup_iff hnull]
  constructor
  · rintro ⟨parts, hpart, hline, hcol⟩
    exact ⟨⟨_, ⟨parts, hpart, rfl⟩, hline⟩, _, ⟨parts, hpart, rfl⟩, hcol⟩
  · rintro ⟨⟨_, ⟨parts, hpart, rfl⟩, hline⟩, _, ⟨parts', hpart', rfl⟩, hcol⟩
    obtain rfl : parts = parts' :=
      Value.object.inj ((part_eq_object.2 hpart).symm.trans (part_eq_object.2 hpart'))
    exact ⟨parts, hpart, hline, hcol⟩

end Reading

end Scan

open Scan

namespace Finding

def FromZero (f : Finding) : Prop := 0 ≤ f.startLine ∧ 0 ≤ f.startCol ∧ 0 ≤ f.endLine ∧ 0 ≤ f.endCol

theorem exists_ofValue_iff {v : Value} :
    (∃ f, Finding.ofValue v = .ok f) ↔ ∃ fields, v = .object fields ∧ FindingForm fields := by
  have hnull : Named .null := nofun
  simp only [ofValue, bind_eq_ok, fieldsOf_eq_ok, pure_eq_ok, part_eq_object]
  constructor
  · rintro ⟨f, fields, rfl, v, hv, n, hn, v', hv', n', hn', w, hw, m, hm, w', hw', m', hm', extra, hextra, severity,
      hseverity, -⟩
    refine ⟨fields, rfl, located_iff.2 ⟨⟨v, hv, n, hn⟩, v', hv', n', hn'⟩,
      located_iff.2 ⟨⟨w, hw, m, hm⟩, w', hw', m', hm'⟩, extra, hextra, ?_⟩
    exact (forall_lookup_iff hnull).1 (exists_severity_iff.1 ⟨severity, hseverity⟩)
  · rintro ⟨fields, rfl, hform⟩
    obtain ⟨⟨v, hv, n, hn⟩, v', hv', n', hn'⟩ := located_iff.1 hform.start
    obtain ⟨⟨w, hw, m, hm⟩, w', hw', m', hm'⟩ := located_iff.1 hform.stop
    obtain ⟨extra, hextra, hnamed⟩ := hform.severity
    obtain ⟨severity, hseverity⟩ := exists_severity_iff.2 ((forall_lookup_iff hnull).2 hnamed)
    exact ⟨_, fields, rfl, v, hv, n, hn, v', hv', n', hn', w, hw, m, hm, w', hw', m', hm', extra, hextra, severity,
      hseverity, rfl⟩

theorem fromZero_of_ofValue {v : Value} {f : Finding} (h : Finding.ofValue v = .ok f) : f.FromZero := by
  simp only [ofValue, bind_eq_ok, pure_eq_ok] at h
  obtain ⟨_, -, _, -, _, hn, _, -, _, hn', _, -, _, hm, _, -, _, hm', _, -, _, -, rfl⟩ := h
  exact ⟨position_nonneg hn, position_nonneg hn', position_nonneg hm, position_nonneg hm'⟩

end Finding

namespace ScanReport

/-- A field whose items are all objects of some form. Names and characters are no objects. -/
theorem objects_iff {form : List (RawText × Value) → Prop} {found : Option Value} : Objects form found ↔
    ∃ items, itemsOf (found.getD (.list [])) = .ok items ∧ ∀ v ∈ items, ∃ fields, v = .object fields ∧ form fields := by
  constructor
  · intro h
    cases h with
    | missing => exact ⟨[], rfl, nofun⟩
    | noFields => exact ⟨[], rfl, nofun⟩
    | noText => exact ⟨[], rfl, nofun⟩
    | @list items h => exact ⟨items, rfl, h⟩
  · rintro ⟨items, hitems, hforms⟩
    have htext : ∀ t, Value.str t ∉ items := by
      intro t ht
      obtain ⟨fields, hfields, -⟩ := hforms _ ht
      cases hfields
    cases found with
    | none => exact .missing
    | some v =>
      cases v with
      | list values =>
        obtain rfl : values = items := Except.ok.inj hitems
        exact .list hforms
      | object fields =>
        cases fields with
        | nil => exact .noFields
        | cons f fields => exact absurd (Except.ok.inj hitems ▸ List.mem_cons_self) (htext f.1)
      | str t =>
        obtain rfl : t.glyphs.map (fun g => .str (.ofGlyphs [g])) = items := Except.ok.inj hitems
        cases ht : t.glyphs with
        | nil =>
          obtain rfl : t = "" := RawText.glyphs_eq_nil_iff.1 ht
          exact .noText
        | cons g glyphs => exact absurd (List.mem_map_of_mem (ht ▸ List.mem_cons_self)) (htext (.ofGlyphs [g]))
      | _ => cases hitems

theorem exists_ofFields_iff {fields : List (RawText × Value)} : (∃ r, ofFields fields = .ok r) ↔ ReportForm fields := by
  have herror : ∀ v, (∃ fields, fieldsOf v = .ok fields) ↔ ∃ fields, v = .object fields ∧ True := by
    simp only [fieldsOf_eq_ok, and_true, implies_true]
  simp only [ofFields, bind_eq_ok, pure_eq_ok]
  constructor
  · rintro ⟨r, results, hresults, findings, hfindings, errors, herrors, checked, hchecked, rfl⟩
    refine ⟨objects_iff.2 ⟨results, hresults, fun v hv => ?_⟩, objects_iff.2 ⟨errors, herrors, fun v hv => ?_⟩⟩
    · exact Finding.exists_ofValue_iff.1 (exists_mapM_eq_ok.1 ⟨findings, hfindings⟩ v hv)
    · exact (herror v).1 (exists_mapM_eq_ok.1 ⟨checked, hchecked⟩ v hv)
  · intro hform
    obtain ⟨results, hresults, hfindings⟩ := objects_iff.1 hform.results
    obtain ⟨errors, herrors, hchecked⟩ := objects_iff.1 hform.errors
    obtain ⟨findings, hfindings⟩ := exists_mapM_eq_ok.2 fun v hv => Finding.exists_ofValue_iff.2 (hfindings v hv)
    obtain ⟨checked, hchecked⟩ := exists_mapM_eq_ok.2 fun v hv => (herror v).2 (hchecked v hv)
    exact ⟨_, results, hresults, findings, hfindings, errors, herrors, checked, hchecked, rfl⟩

theorem fromZero_of_ofFields {fields : List (RawText × Value)} {r : ScanReport} (h : ofFields fields = .ok r) :
    ∀ f ∈ r.findings, f.FromZero := by
  simp only [ofFields, bind_eq_ok, pure_eq_ok] at h
  obtain ⟨results, -, findings, hfindings, _, -, _, -, rfl⟩ := h
  intro f hf
  obtain ⟨v, -, hv⟩ := exists_of_mem_mapM hfindings hf
  exact Finding.fromZero_of_ofValue hv

inductive Departs (depth : Nat) (text : String) : Prop
  | tooLong (h : Json.parse depth text = .error .integerTooLong)
  | tooDeep (h : Json.parse depth text = .error .tooDeep)
  | form {fields : List (RawText × Value)} (h : Json.parse depth text = .ok (.object fields))
      (hform : ¬ ReportForm fields)

inductive Unreadable (depth : Nat) (o : ProcessOutput) : Prop
  | noJson (h : Json.parse depth (o.stdout.getD "") = .error .malformed)
      (hloud : o.exitCode ≠ 0 ∨ Text.trim (o.stdout.getD "").toList ≠ [])
  | noObject {v : Value} (h : Json.parse depth (o.stdout.getD "") = .ok v) (hv : ∀ fields, v ≠ .object fields)

variable {depth : Nat} {o : ProcessOutput}

theorem Departs.malformed (h : Departs depth (o.stdout.getD "")) : ∃ m, ofOutput depth o = .error (.malformed m) := by
  cases h with
  | tooLong h => exact ⟨.integerTooLong, by simp only [ofOutput, h]⟩
  | tooDeep h => exact ⟨.tooDeep, by simp only [ofOutput, h]⟩
  | @form fields h hform =>
    cases hread : ofFields fields with
    | error m => exact ⟨m, by simp only [ofOutput, h, hread, Except.mapError]⟩
    | ok r => exact absurd (exists_ofFields_iff.1 ⟨r, hread⟩) hform

theorem Unreadable.failed (h : Unreadable depth o) : ∃ e, ofOutput depth o = .error (.failed e) := by
  cases h with
  | noJson h hloud =>
    have hblank : (o.exitCode == 0 && (Text.trim (o.stdout.getD "").toList).isEmpty) = false := by
      simpa [imp_iff_not_or] using hloud
    exact ⟨.unreadable o.exitCode, by simp only [ofOutput, h, hblank, Bool.false_eq_true, if_false]⟩
  | @noObject v h hv =>
    refine ⟨.unexpected o.exitCode, ?_⟩
    cases v with
    | object fields => exact absurd rfl (hv fields)
    | _ => simp only [ofOutput, h]

theorem exists_report (hform : ¬ Departs depth (o.stdout.getD "")) (hreadable : ¬ Unreadable depth o) :
    ∃ r, ofOutput depth o = .ok r ∧ ∀ f ∈ r.findings, f.FromZero := by
  cases hparse : Json.parse depth (o.stdout.getD "") with
  | error e =>
    cases e with
    | integerTooLong => exact absurd (.tooLong hparse) hform
    | tooDeep => exact absurd (.tooDeep hparse) hform
    | malformed =>
      have hblank : (o.exitCode == 0 && (Text.trim (o.stdout.getD "").toList).isEmpty) = true := by
        by_contra hloud
        exact hreadable (.noJson hparse (by simpa [imp_iff_not_or] using hloud))
      exact ⟨{}, by simp only [ofOutput, hparse, hblank, if_true], nofun⟩
  | ok v =>
    cases v with
    | object fields =>
      have hfields : ReportForm fields := by
        by_contra hnot
        exact hform (.form hparse hnot)
      obtain ⟨r, hr⟩ := exists_ofFields_iff.2 hfields
      exact ⟨r, by simp only [ofOutput, hparse, hr, Except.mapError], fromZero_of_ofFields hr⟩
    | _ => exact absurd (.noObject hparse nofun) hreadable

def Reported (depth : Nat) (o : ProcessOutput) : Prop :=
  (∃ r, ofOutput depth o = .ok r ∧ ∀ f ∈ r.findings, f.FromZero) ∨ ∃ e, ofOutput depth o = .error (.failed e)

theorem not_reported_of_malformed (h : ∃ m, ofOutput depth o = .error (.malformed m)) : ¬ Reported depth o := by
  obtain ⟨m, hm⟩ := h
  rintro (⟨r, hr, -⟩ | ⟨e, he⟩)
  · cases hm.symm.trans hr
  · cases hm.symm.trans he

/-- Whatever depth the reader is given: an output gives a report with positions from zero or a refused scan,
unless it is an object of another form or beyond the limits of the reader; and the scan is refused exactly if
the output is unreadable. -/
theorem output_reported_iff (depth : Nat) (o : ProcessOutput) :
    (Reported depth o ↔ ¬ Departs depth (o.stdout.getD "")) ∧
      ((∃ e, ofOutput depth o = .error (.failed e)) ↔ Unreadable depth o) := by
  have hother : Departs depth (o.stdout.getD "") → ¬ Reported depth o := fun h => not_reported_of_malformed h.malformed
  refine ⟨⟨fun h hdeparts => hother hdeparts h, fun hform => ?_⟩, fun hfailed => ?_, Unreadable.failed⟩
  · by_cases hreadable : Unreadable depth o
    · exact Or.inr hreadable.failed
    · exact Or.inl (exists_report hform hreadable)
  · by_contra hreadable
    obtain ⟨r, hr, -⟩ := exists_report (fun hdeparts => hother hdeparts (Or.inr hfailed)) hreadable
    obtain ⟨e, he⟩ := hfailed
    cases hr.symm.trans he

/-- Did reading the output come upon something that has no place in a report? -/
def isMalformed (depth : Nat) (o : ProcessOutput) : Bool :=
  match ofOutput depth o with
  | .error (.malformed _) => true
  | _ => false

theorem not_reported_of_isMalformed (h : isMalformed depth o = true) : ¬ Reported depth o := by
  refine not_reported_of_malformed ?_
  unfold isMalformed at h
  split at h
  next m hm => exact ⟨m, hm⟩
  next => cases h

/-- Results that are nothing, a result that is a number, a start that is a list, a severity that is a number, and
an error that is a text: each gives neither a report nor a refused scan. -/
theorem malformed_object_not_reported :
    ¬ Reported Json.usualDepth ⟨some "\x7b\"results\": null\x7d", 0⟩ ∧
    ¬ Reported Json.usualDepth ⟨some "\x7b\"results\": [5]\x7d", 0⟩ ∧
    ¬ Reported Json.usualDepth ⟨some "\x7b\"results\": [\x7b\"start\": [1]\x7d]\x7d", 0⟩ ∧
    ¬ Reported Json.usualDepth ⟨some "\x7b\"results\": [\x7b\"extra\": \x7b\"severity\": 3\x7d\x7d]\x7d", 0⟩ ∧
    ¬ Reported Json.usualDepth ⟨some "\x7b\"errors\": [\"timeout\"]\x7d", 0⟩ := by
  refine ⟨?_, ?_, ?_, ?_, ?_⟩
  all_goals exact not_reported_of_isMalformed (by decide +kernel)

end ScanReport

end DesignLint
