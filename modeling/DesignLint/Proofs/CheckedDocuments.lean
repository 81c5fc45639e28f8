import DesignLint.Proofs.SessionSteps

/-! The check of a document without a scan. It replaces what the principles have published about the
document by what its report says, and it leaves everything else in the session as it is. -/

namespace DesignLint

namespace Check

theorem foldl_run_frame (s : Settings) (m : SourceModel) (ps : List Principle) (r : CheckReport) :
    (ps.foldl (run s m) r).path = r.path ∧ (ps.foldl (run s m) r).skipped = r.skipped := by
  induction ps generalizing r with
  | nil => exact ⟨rfl, rfl⟩
  | cons p ps ih =>
    have hrun : (run s m r p).path = r.path ∧ (run s m r p).skipped = r.skipped := by
      cases p <;> exact ⟨rfl, rfl⟩
    rw [List.foldl_cons, (ih _).1, (ih _).2]
    exact hrun

section Text

variable (s : Settings) (path content : String) (languageName : Option String) (asked : List String)

theorem text_path : (text s path content languageName asked).path = path := by
  unfold text
  dsimp only
  split_ifs with hsupported
  · rw [(foldl_run_frame _ _ _ _).1]
  · rfl

/-- No principle reports twice. -/
theorem text_nodup : ((text s path content languageName asked).diagnostics.map (·.1)).Nodup := by
  have hall : (Principle.all.map Principle.source).Nodup := by decide
  unfold text
  dsimp only
  split_ifs with hsupported
  · rw [foldl_run_names]
    exact hall.sublist (List.filter_sublist.map _)
  · exact List.nodup_nil

theorem text_of_skipped (h : (text s path content languageName asked).skipped = true) :
    (text s path content languageName asked).diagnostics = [] := by
  unfold text at h ⊢
  dsimp only at h ⊢
  split_ifs at h ⊢ with hsupported
  · rw [(foldl_run_frame _ _ _ _).2] at h
    cases h
  · rfl

end Text

end Check

namespace Store

variable {α : Type} (s : Store α) (document d source : String) {published : List (String × List α)}

/-- Sources that publish once each have what they published. -/
theorem getSource_foldl_replace_of_nodup (hnodup : (published.map (·.1)).Nodup) :
    (published.foldl (fun store p => store.replace document p.1 p.2) s).getSource d source =
      if d = document then (published.lookup source).getD (s.getSource d source)
      else s.getSource d source := by
  induction published generalizing s with
  | nil =>
    simp only [List.foldl_nil, List.lookup_nil, Option.getD_none, ite_self]
  | cons p published ih =>
    obtain ⟨hp, hnodup⟩ := List.nodup_cons.1 hnodup
    rw [List.foldl_cons, ih _ hnodup, getSource_replace, Assoc.lookup_cons]
    rw [Assoc.mem_names_iff, Option.not_isSome_iff_eq_none] at hp
    by_cases hd : d = document
    · by_cases hs : source = p.1
      · rw [hs, hp]
        simp [hd]
      · simp [hd, hs]
    · simp [hd]

theorem sources_foldl_replace (published : List (String × List α)) (hd : d ≠ document) :
    (published.foldl (fun store p => store.replace document p.1 p.2) s).sources d = s.sources d := by
  induction published generalizing s with
  | nil => rfl
  | cons p published ih => rw [List.foldl_cons, ih, replace, sources_setSources, if_neg hd]

end Store

namespace Workspace

variable (w : Workspace) (r : CheckReport) (d source : String)

theorem publish_sources (hd : d ≠ r.path) :
    (w.publish r).diagnostics.sources d = w.diagnostics.sources d := by
  rw [publish, Store.sources_foldl_replace _ _ _ _ hd, Store.clearSources, Store.sources_setSources,
    if_neg hd]

/-- A report replaces what the principles have published about its document, and nothing else. -/
theorem publish_getSource (hnodup : (r.diagnostics.map (·.1)).Nodup)
    (hsources : r.diagnostics.map (·.1) ⊆ Diagnostic.principleSources) :
    (w.publish r).diagnostics.getSource d source =
      if d = r.path ∧ source ∈ Diagnostic.principleSources then
        (r.diagnostics.lookup source).getD []
      else w.diagnostics.getSource d source := by
  rw [publish, Store.getSource_foldl_replace_of_nodup _ _ _ _ hnodup, Store.getSource_clearSources]
  by_cases hd : d = r.path
  · by_cases hs : source ∈ Diagnostic.principleSources
    · cases hfound : r.diagnostics.lookup source with
      | some entries => simp [hd, hs]
      | none => simp [hd, hs, Assoc.has_eq_isSome, hfound]
    · have hnone : r.diagnostics.lookup source = none := by
        rw [← Option.not_isSome_iff_eq_none, ← Assoc.mem_names_iff]
        exact fun hmem => hs (hsources hmem)
      simp [hd, hs, hnone]
  · simp [hd]

/-- A report that is published once more changes nothing. -/
theorem publish_again (hnodup : (r.diagnostics.map (·.1)).Nodup)
    (hsources : r.diagnostics.map (·.1) ⊆ Diagnostic.principleSources) :
    ((w.publish r).publish r).diagnostics.getSource d source =
      (w.publish r).diagnostics.getSource d source := by
  rw [publish_getSource _ _ _ _ hnodup hsources]
  split_ifs with hpublished
  · rw [publish_getSource _ _ _ _ hnodup hsources, if_pos hpublished]
  · rfl

end Workspace

namespace Session

section Analyze

variable {launch : Launcher} {path : String} {text : Option String} {force : Bool} {s : Session}
  {key content : String} {report : CheckReport}

/-- An analysis without a scan publishes the report of the check. -/
theorem exec_analyze (hkey : s.workspace.key path = .ok key) (htext : s.textOf key text = .ok content)
    (hreport : report = Check.text s.workspace.checks key content none []) :
    exec (analyze launch path text force false) s =
      (.ok report, { s with workspace := s.workspace.publish report }) := by
  unfold analyze
  rw [hreport]
  simp only [exec_bind, exec_get, exec_ofExcept, exec_documentText, hkey, htext, Except.mapError,
    exec_lift, run_setWorkspace, Workspace.check, Bool.false_and, Bool.false_eq_true,
    if_false, exec_pure]

theorem analyze_ok {s' : Session}
    (h : exec (analyze launch path text force false) s = (.ok report, s')) :
    ∃ key content, s.workspace.key path = .ok key ∧ s.textOf key text = .ok content ∧
      report = Check.text s.workspace.checks key content none [] ∧
      s' = { s with workspace := s.workspace.publish report } := by
  cases hkey : s.workspace.key path with
  | error e =>
    unfold analyze at h
    simp [hkey, Except.mapError] at h
  | ok key =>
    cases htext : s.textOf key text with
    | error e =>
      unfold analyze at h
      simp [hkey, htext, Except.mapError] at h
    | ok content =>
      rw [exec_analyze hkey htext rfl, Prod.mk.injEq, Except.ok.injEq] at h
      obtain ⟨hreport, hs'⟩ := h
      rw [hreport] at hs'
      exact ⟨key, content, rfl, htext, hreport.symm, hs'.symm⟩

end Analyze

/-- The session `s'` has the diagnostics of `report` about the document `key` in place of those that
the principles had in `s`. -/
structure Publishes (key : String) (report : CheckReport) (s s' : Session) : Prop where
  principles : ∀ source ∈ Diagnostic.principleSources,
    s'.workspace.diagnostics.getSource key source = (report.diagnostics.lookup source).getD []
  skipped : report.skipped = true → ∀ source ∈ Diagnostic.principleSources,
    s'.workspace.diagnostics.getSource key source = []
  scanner : s'.workspace.diagnostics.getSource key Diagnostic.scannerSource =
    s.workspace.diagnostics.getSource key Diagnostic.scannerSource
  others : ∀ d, d ≠ key → s'.workspace.diagnostics.sources d = s.workspace.diagnostics.sources d
  scheduler : s'.workspace.scheduler = s.workspace.scheduler
  status : s'.workspace.status = s.workspace.status
  lastError : s'.workspace.lastError = s.workspace.lastError

theorem publishes_text {s : Session} {key content : String} {report : CheckReport}
    (h : report = Check.text s.workspace.checks key content none []) :
    Publishes key report s { s with workspace := s.workspace.publish report } := by
  have hnodup : (report.diagnostics.map (·.1)).Nodup := h ▸ Check.text_nodup _ _ _ _ _
  have hsources : report.diagnostics.map (·.1) ⊆ Diagnostic.principleSources :=
    h ▸ Check.text_sources _ _ _ _ _
  have hpath : report.path = key := h ▸ Check.text_path _ _ _ _ _
  have hpublished : ∀ source ∈ Diagnostic.principleSources,
      (s.workspace.publish report).diagnostics.getSource key source =
        (report.diagnostics.lookup source).getD [] := by
    intro source hs
    rw [Workspace.publish_getSource _ _ _ _ hnodup hsources, if_pos ⟨hpath.symm, hs⟩]
  refine ⟨hpublished, fun hskipped source hs => ?_, ?_, fun d hd => ?_, rfl, rfl, rfl⟩
  · have hnone : report.diagnostics = [] := by
      rw [h] at hskipped ⊢
      exact Check.text_of_skipped _ _ _ _ _ hskipped
    rw [hpublished source hs, hnone]
    rfl
  · exact s.workspace.publish_scanned report hsources key
  · exact s.workspace.publish_sources report d (hpath ▸ hd)

/-- An analysis without a scan that returns a report publishes just that, and the same analysis
once more returns the same report and leaves all that is published as it is. -/
theorem analyze_publishes (launch : Launcher) (path : String) (text : Option String) (force : Bool)
    (s s' : Session) (report : CheckReport)
    (h : exec (analyze launch path text force false) s = (.ok report, s')) :
    ∃ key, s.workspace.key path = .ok key ∧ Publishes key report s s' ∧
      ∃ s'', exec (analyze launch path text force false) s' = (.ok report, s'') ∧
        ∀ d source, s''.workspace.diagnostics.getSource d source =
          s'.workspace.diagnostics.getSource d source := by
  obtain ⟨key, content, hkey, htext, hreport, rfl⟩ := analyze_ok h
  have hagain : exec (analyze launch path text force false)
      { s with workspace := s.workspace.publish report } =
        (.ok report, { s with workspace := (s.workspace.publish report).publish report }) :=
    exec_analyze hkey htext hreport
  refine ⟨key, hkey, publishes_text hreport, _, hagain, ?_⟩
  intro d source
  rw [hreport]
  exact s.workspace.publish_again _ d source (Check.text_nodup _ _ _ _ _) (Check.text_sources _ _ _ _ _)

/-- A document about which the scanner has a finding is checked: the finding stays. -/
theorem analyze_publishes_scanned :
    let start : Session :=
      { files := { cwd := .ofString "/w" }, workspace := .ofSettings (.ofString "/w") {},
        replies := [{ output := .ok ⟨some "\x7b\"results\": [\x7b\"path\": \"a.py\"\x7d]\x7d", 0⟩ }] }
    let s := (run start [.scanFile "a.py" (some "x = 1") false none]).2
    s.workspace.diagnostics.size = 1 ∧
      ∃ report s', exec (analyze (launcher 0) "a.py" (some "x = 2") false false) s = (.ok report, s') ∧
        ∃ key, s.workspace.key "a.py" = .ok key ∧ Publishes key report s s' ∧
          ∃ s'', exec (analyze (launcher 0) "a.py" (some "x = 2") false false) s' = (.ok report, s'') ∧
            ∀ d source, s''.workspace.diagnostics.getSource d source =
              s'.workspace.diagnostics.getSource d source := by
  intro start s
  have hsize : s.workspace.diagnostics.size = 1 := by decide +kernel
  have hroot : (s.workspace.key "a.py").toOption = some "/w/a.py" := by decide +kernel
  generalize s = s at hsize hroot ⊢
  have hkey : s.workspace.key "a.py" = .ok "/w/a.py" := by
    cases h : s.workspace.key "a.py" with
    | error e =>
      rw [h] at hroot
      cases hroot
    | ok key =>
      rw [h] at hroot
      rw [Option.some.inj hroot]
  generalize hreport : Check.text s.workspace.checks "/w/a.py" "x = 2" none [] = report
  have hexec : exec (analyze (launcher 0) "a.py" (some "x = 2") false false) s =
      (.ok report, { s with workspace := s.workspace.publish report }) :=
    exec_analyze hkey rfl hreport.symm
  exact ⟨hsize, report, _, hexec, analyze_publishes _ _ _ _ _ _ _ hexec⟩

end Session

end DesignLint
