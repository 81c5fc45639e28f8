import DesignLint.Proofs.BrokenTexts
import DesignLint.Proofs.NamedEntries
import DesignLint.Proofs.Results

/-! Findings by file. Asking for the findings of one file and grouping all of them go by the same absolute
paths: the findings of a file are its group, the groups stand in the order in which their files first occur,
and together they hold every finding of the report once. -/

namespace DesignLint

namespace Assoc

variable {α β : Type}

theorem lookup_map_values (f : α → β) (entries : List (String × α)) (key : String) :
    (entries.map fun e => (e.1, f e.2)).lookup key = (entries.lookup key).map f := by
  induction entries with
  | nil => rfl
  | cons e entries ih =>
    rw [List.map_cons, lookup_cons, lookup_cons, ih]
    split_ifs with hkey
    · rfl
    · rfl

/-- Values are put together from their parts by names that are all different. -/
theorem flatMap_filter_perm (key : α → String) {names : List String} (hnodup : names.Nodup) {values : List α}
    (hall : ∀ a ∈ values, key a ∈ names) : (names.flatMap fun name => values.filter (key · == name)).Perm values := by
  induction names generalizing values with
  | nil =>
    obtain rfl : values = [] := List.eq_nil_iff_forall_not_mem.2 fun a ha => List.not_mem_nil (hall a ha)
    rfl
  | cons name names ih =>
    obtain ⟨hname, hnodup⟩ := List.nodup_cons.1 hnodup
    -- the values of the other names are found among those that do not carry the first
    have hrest : (names.flatMap fun other => values.filter (key · == other)) =
        names.flatMap fun other => (values.filter fun a => !(key a == name)).filter (key · == other) := by
      refine List.flatMap_congr fun other hother => ?_
      rw [List.filter_filter]
      refine List.filter_congr fun a _ => ?_
      by_cases hkey : key a = other
      · have hne : key a ≠ name := fun h => hname (h ▸ hkey ▸ hother)
        simp [hkey, hkey ▸ hne]
      · simp [hkey]
    rw [List.flatMap_cons, hrest]
    refine ((ih hnodup fun a ha => ?_).append_left _).trans (List.filter_append_perm _ _)
    obtain ⟨ha, hne⟩ := List.mem_filter.1 ha
    exact (List.mem_cons.1 (hall a ha)).resolve_left (by simpa using hne)

theorem flatMap_groupBy_perm (key : α → String) (values : List α) :
    ((groupBy key values).flatMap (·.2)).Perm values := by
  have hgroups : (groupBy key values).flatMap (·.2) =
      ((groupBy key values).map (·.1)).flatMap fun name => values.filter (key · == name) := by
    rw [List.flatMap_map]
    exact List.flatMap_congr fun group hgroup => (of_mem_groupBy key values hgroup).2
  rw [hgroups]
  exact flatMap_filter_perm key (names_groupBy_nodup key values) fun a ha =>
    (mem_names_groupBy key values _).2 (List.mem_map_of_mem ha)

end Assoc

namespace Scanner

def isAbout (s : Scanner) (file : String) (f : Finding) : Bool :=
  (s.fileOf f).toOption == some file

variable {s : Scanner} {r : ScanReport}

theorem isAbout_of_fileOf {f : Finding} {file : String} (h : s.fileOf f = .ok file) (other : String) :
    s.isAbout other f = (file == other) := by
  rw [isAbout, h]
  rfl

/-- The file of a finding can be told if its path is a text that can be used. -/
theorem exists_fileOf_iff (hcwd : s.cwd.isUsable = true) (f : Finding) :
    (∃ file, s.fileOf f = .ok file) ↔ ∃ t, f.path = .str t ∧ ∀ g ∈ t.glyphs, IsNamable g := by
  unfold fileOf
  cases hpath : f.path with
  | str t =>
    simp only [Value.str.injEq, exists_eq_left']
    cases t with
    | proper p =>
      simp only [forall_isNamable_proper, Path.resolve?, Path.isUsable_join hcwd, ← Path.isUsable_ofString]
      split_ifs with husable
      · exact ⟨fun _ => husable, fun _ => ⟨_, rfl⟩⟩
      · exact ⟨nofun, fun h => absurd h husable⟩
    | broken t => exact exists_brokenFile_iff hcwd t
  | _ => exact ⟨nofun, nofun⟩

/-- Locating the findings puts each of them beside its file. -/
theorem located_eq_ok {found : List (String × Finding)} : s.located r = .ok found ↔
    found.map (·.2) = r.findings ∧ ∀ e ∈ found, s.fileOf e.2 = .ok e.1 := by
  unfold located
  induction r.findings generalizing found with
  | nil =>
    rw [List.mapM_nil, Result.pure_eq_ok]
    constructor
    · rintro rfl
      exact ⟨rfl, nofun⟩
    · rintro ⟨hnil, -⟩
      exact (List.map_eq_nil_iff.1 hnil).symm
  | cons f findings ih =>
    simp only [List.mapM_cons, Result.bind_eq_ok, Result.pure_eq_ok, ih]
    constructor
    · rintro ⟨_, ⟨file, hfile, rfl⟩, others, ⟨hothers, hfiles⟩, rfl⟩
      exact ⟨congrArg _ hothers, List.forall_mem_cons.2 ⟨hfile, hfiles⟩⟩
    · rintro ⟨hmap, hfiles⟩
      obtain ⟨e, others, rfl, rfl, hothers⟩ := List.map_eq_cons_iff.1 hmap
      obtain ⟨hfile, hfiles⟩ := List.forall_mem_cons.1 hfiles
      exact ⟨e, ⟨e.1, hfile, rfl⟩, others, ⟨hothers, hfiles⟩, rfl⟩

theorem exists_located_iff : (∃ found, s.located r = .ok found) ↔ ∀ f ∈ r.findings, ∃ file, s.fileOf f = .ok file := by
  rw [located, Result.exists_mapM_eq_ok]
  simp only [Result.bind_eq_ok, Result.pure_eq_ok]
  refine forall₂_congr fun f _ => ?_
  constructor
  · rintro ⟨_, file, hfile, -⟩
    exact ⟨file, hfile⟩
  · rintro ⟨file, hfile⟩
    exact ⟨_, file, hfile, rfl⟩

section Located

variable {found : List (String × Finding)} (h : s.located r = .ok found)

include h

theorem isAbout_found {e : String × Finding} (he : e ∈ found) (file : String) : s.isAbout file e.2 = (e.1 == file) :=
  isAbout_of_fileOf ((located_eq_ok.1 h).2 e he) file

theorem filter_isAbout (file : String) :
    r.findings.filter (s.isAbout file) = (found.filter (·.1 == file)).map (·.2) := by
  rw [← (located_eq_ok.1 h).1, List.filter_map]
  exact congrArg _ (List.filter_congr fun e he => isAbout_found h he file)

theorem findIdx_isAbout (file : String) : r.findings.findIdx (s.isAbout file) = (found.map (·.1)).idxOf file := by
  have hsame : found.map (fun e => s.isAbout file e.2) = found.map fun e => e.1 == file :=
    List.map_congr_left fun e he => isAbout_found h he file
  calc r.findings.findIdx (s.isAbout file)
      = (found.map fun e => s.isAbout file e.2).findIdx id := by
        rw [← (located_eq_ok.1 h).1, List.findIdx_map, List.findIdx_map]
        rfl
    _ = (found.map (·.1)).idxOf file := by
        rw [hsame, List.findIdx_map, List.idxOf, List.findIdx_map]
        rfl

end Located

/-- The findings of a file are its group; a file without a group has none. -/
theorem findingsFor_eq_lookup (s : Scanner) (r : ScanReport) (file : String) : s.findingsFor r file =
    (s.findingsByFile r).map fun groups => (groups.lookup file).getD [] := by
  unfold findingsFor findingsByFile
  cases s.located r with
  | error m => rfl
  | ok found =>
    simp only [Except.map, Assoc.lookup_map_values, Assoc.lookup_groupBy]
    split_ifs with hfile
    · rfl
    · have hnone : found.filter (·.1 == file) = [] := by
        rw [List.filter_eq_nil_iff]
        intro e he hname
        exact hfile (beq_iff_eq.1 hname ▸ List.mem_map_of_mem he)
      rw [hnone]
      rfl

theorem exists_groups_iff : (∃ groups, s.findingsByFile r = .ok groups) ↔ ∃ found, s.located r = .ok found := by
  unfold findingsByFile
  cases s.located r with
  | error m => exact ⟨nofun, nofun⟩
  | ok found => exact ⟨fun _ => ⟨found, rfl⟩, fun _ => ⟨_, rfl⟩⟩

section Groups

variable {groups : List (String × List Finding)} (h : s.findingsByFile r = .ok groups)

include h

theorem exists_located : ∃ found, s.located r = .ok found ∧
    groups = (Assoc.groupBy (·.1) found).map fun g => (g.1, g.2.map (·.2)) := by
  obtain ⟨found, hfound, hgroups⟩ := Result.map_eq_ok.1 h
  exact ⟨found, hfound, hgroups.symm⟩

theorem names_groups : ∃ found, s.located r = .ok found ∧
    groups.map (·.1) = (Assoc.groupBy (·.1) found).map (·.1) := by
  obtain ⟨found, hfound, rfl⟩ := exists_located h
  exact ⟨found, hfound, by rw [List.map_map]; rfl⟩

theorem groups_nodup : (groups.map (·.1)).Nodup := by
  obtain ⟨found, -, hnames⟩ := names_groups h
  rw [hnames]
  exact Assoc.names_groupBy_nodup _ _

/-- The groups stand in the order in which their files first occur in the report. -/
theorem groups_ordered : groups.Pairwise fun g g' =>
    r.findings.findIdx (s.isAbout g.1) < r.findings.findIdx (s.isAbout g'.1) := by
  obtain ⟨found, hfound, hnames⟩ := names_groups h
  have hordered := Assoc.names_groupBy_ordered (·.1) found
  rw [← hnames, List.pairwise_map] at hordered
  refine hordered.imp fun hlt => ?_
  rwa [findIdx_isAbout hfound, findIdx_isAbout hfound]

theorem group_eq_filter {g : String × List Finding} (hg : g ∈ groups) : g.2 = r.findings.filter (s.isAbout g.1) := by
  obtain ⟨found, hfound, rfl⟩ := exists_located h
  obtain ⟨group, hgroup, rfl⟩ := List.mem_map.1 hg
  rw [filter_isAbout hfound, (Assoc.of_mem_groupBy _ _ hgroup).2]

/-- Every finding belongs to the group of its file and to no other. -/
theorem exists_unique_group {f : Finding} (hf : f ∈ r.findings) : ∃! g, g ∈ groups ∧ s.isAbout g.1 f = true := by
  obtain ⟨found, hfound, hnames⟩ := names_groups h
  obtain ⟨e, he, rfl⟩ : ∃ e ∈ found, e.2 = f := List.mem_map.1 ((located_eq_ok.1 hfound).1 ▸ hf)
  have hmem : e.1 ∈ groups.map (·.1) := by
    rw [hnames, Assoc.mem_names_groupBy]
    exact List.mem_map_of_mem he
  obtain ⟨g, hg, hname⟩ := List.mem_map.1 hmem
  have habout (file : String) : s.isAbout file e.2 = true ↔ e.1 = file := by
    rw [isAbout_found hfound he, beq_iff_eq]
  refine ⟨g, ⟨hg, (habout g.1).2 hname.symm⟩, fun g' hg' => ?_⟩
  refine List.inj_on_of_nodup_map (groups_nodup h) hg'.1 hg ?_
  rw [hname, (habout g'.1).1 hg'.2]

theorem groups_perm : (groups.flatMap (·.2)).Perm r.findings := by
  obtain ⟨found, hfound, rfl⟩ := exists_located h
  have hperm := (Assoc.flatMap_groupBy_perm (·.1) found).map (·.2)
  rw [(located_eq_ok.1 hfound).1, List.map_flatMap] at hperm
  rwa [List.flatMap_map]

end Groups

/-- The findings of a file, whatever path it is given by, are the group of its absolute path. The groups stand
in the order in which their files first occur, keep the order of the report, and hold every finding once. -/
theorem findings_of_file_eq_group (s : Scanner) (r : ScanReport) :
    (∀ (cwd : Path) (file : String) (target : Path), Path.resolve? cwd (.ofString file) = some target →
      s.findingsFor r target.toString =
        (s.findingsByFile r).map fun groups => (groups.lookup target.toString).getD []) ∧
    (s.cwd.isUsable = true → ((∃ groups, s.findingsByFile r = .ok groups) ↔
      ∀ f ∈ r.findings, ∃ t, f.path = .str t ∧ ∀ g ∈ t.glyphs, IsNamable g)) ∧
    ∀ groups, s.findingsByFile r = .ok groups →
      (groups.map (·.1)).Nodup ∧
      groups.Pairwise (fun g g' =>
        r.findings.findIdx (s.isAbout g.1) < r.findings.findIdx (s.isAbout g'.1)) ∧
      (∀ g ∈ groups, g.2 = r.findings.filter (s.isAbout g.1)) ∧
      (∀ f ∈ r.findings, ∃! g, g ∈ groups ∧ s.isAbout g.1 f = true) ∧
      (groups.flatMap (·.2)).Perm r.findings := by
  refine ⟨fun _ _ target _ => findingsFor_eq_lookup s r target.toString, fun hcwd => ?_, fun groups h =>
    ⟨groups_nodup h, groups_ordered h, fun g => group_eq_filter h, fun f => exists_unique_group h, groups_perm h⟩⟩
  rw [exists_groups_iff, exists_located_iff]
  exact forall₂_congr fun f _ => exists_fileOf_iff hcwd f

/-- Three paths of one file in a report. -/
theorem findings_of_file_eq_group_dotted :
    let finding (path : String) (line : Int) : Finding :=
      ⟨.str "rule", .str path, line, 0, line, 0, .str "", .warning, .object [], .str ""⟩
    let s : Scanner := { program := "semgrep", rules := "rules.yaml", cwd := .ofString "/w/p" }
    let r : ScanReport := ⟨[finding "./a.py" 2, finding "../b.py" 0, finding "/w/p/x/../a.py" 8, finding "a.py" 9], []⟩
    let target : Path := .ofString "/w/p/a.py"
    (Path.resolve? (.ofString "/w") (.ofString "p/./a.py") = some target ∧
      (s.findingsFor r target.toString).map (·.map (·.startLine)) = .ok [2, 8, 9] ∧
      s.findingsFor r target.toString =
        (s.findingsByFile r).map fun groups => (groups.lookup target.toString).getD []) ∧
    s.cwd.isUsable = true ∧
    (s.findingsByFile r).map (·.map (·.1)) = .ok ["/w/p/a.py", "/w/b.py"] ∧
    ∃ groups, s.findingsByFile r = .ok groups ∧ (groups.map (·.1)).Nodup ∧
      (groups.flatMap (·.2)).Perm r.findings := by
  intro finding s r target
  have hresolve : Path.resolve? (.ofString "/w") (.ofString "p/./a.py") = some target := by decide +kernel
  have hcwd : s.cwd.isUsable = true := by decide +kernel
  have htexts : ∀ f ∈ r.findings, ∃ t, f.path = .str t ∧ ∀ g ∈ t.glyphs, IsNamable g := by
    have hproper : ∀ p line, '\x00' ∉ p.toList → ∃ t, (finding p line).path = .str t ∧ ∀ g ∈ t.glyphs, IsNamable g :=
      fun p _ hp => ⟨p, rfl, (forall_isNamable_proper p).2 hp⟩
    simp only [r, List.forall_mem_cons]
    exact ⟨hproper _ _ (by decide), hproper _ _ (by decide), hproper _ _ (by decide), hproper _ _ (by decide), nofun⟩
  obtain ⟨hfile, hsome, hgroups⟩ := findings_of_file_eq_group s r
  obtain ⟨groups, h⟩ := (hsome hcwd).2 htexts
  refine ⟨⟨hresolve, by decide +kernel, hfile _ _ target hresolve⟩, hcwd, by decide +kernel, groups, h, ?_, ?_⟩
  · exact (hgroups groups h).1
  · exact (hgroups groups h).2.2.2.2

end Scanner

end DesignLint
