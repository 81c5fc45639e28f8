import DesignLint.Proofs.NamedEntries

/-! The store as a map from documents and sources to entries. What it shows after any changes is told
by the changes alone: each source has about each document what it last published there, and its place
among the sources is that of the change with which it came to have entries. -/

namespace DesignLint

namespace Assoc

variable {α : Type} {entries : List (String × α)}

theorem mem_set {name : String} {a : α} {e : String × α} (he : e ∈ set entries name a) :
    e ∈ entries ∨ e = (name, a) := by
  unfold set at he
  split_ifs at he with hhas
  · obtain ⟨e', he', rfl⟩ := List.mem_map.1 he
    split_ifs with hname
    · exact .inr rfl
    · exact .inl he'
  · rcases List.mem_append.1 he with he | he
    · exact .inl he
    · exact .inr (List.mem_singleton.1 he)

theorem foldl_erase_sublist (names : List String) : (names.foldl erase entries).Sublist entries := by
  induction names generalizing entries with
  | nil => exact List.Sublist.refl _
  | cons name names ih => exact ih.trans List.filter_sublist

/-- Names in an order, none of them with an empty list. -/
structure Listed (order : String → String → Prop) (entries : List (String × List α)) : Prop where
  names : (entries.map (·.1)).Pairwise order
  nonempty : ∀ e ∈ entries, e.2 ≠ []

namespace Listed

variable {order : String → String → Prop} {entries : List (String × List α)}

theorem sublist (h : Listed order entries) {kept : List (String × List α)}
    (hkept : kept.Sublist entries) : Listed order kept :=
  ⟨h.names.sublist (hkept.map _), fun e he => h.nonempty e (hkept.subset he)⟩

theorem imp_of_mem (h : Listed order entries) {order' : String → String → Prop}
    (himp : ∀ a ∈ entries, ∀ b ∈ entries, order a.1 b.1 → order' a.1 b.1) : Listed order' entries := by
  refine ⟨List.pairwise_map.2 ((List.pairwise_map.1 h.names).imp_of_mem ?_), h.nonempty⟩
  intro a b ha hb hab
  exact himp a ha b hb hab

/-- A new name goes to the end, and one that is there keeps its place. -/
theorem set (h : Listed order entries) {name : String} {a : List α} (ha : a ≠ [])
    (hnew : has entries name = false → ∀ e ∈ entries, order e.1 name) :
    Listed order (set entries name a) := by
  constructor
  · rw [names_set]
    split_ifs with hhas
    · exact h.names
    · refine List.pairwise_append.2 ⟨h.names, List.pairwise_singleton _ _, ?_⟩
      intro b hb c hc
      obtain ⟨e, he, rfl⟩ := List.mem_map.1 hb
      rw [List.mem_singleton.1 hc]
      exact hnew (by simpa using hhas) e he
  · intro e he
    rcases mem_set he with he | rfl
    · exact h.nonempty e he
    · exact ha

end Listed

end Assoc

namespace Store

variable {α : Type}

inductive Op (α : Type)
  | replace (document source : String) (entries : List α)
  | clear (document : String)
  | clearAll
  | clearSources (document : String) (sources : List String)

namespace Op

def apply : Op α → Store α → Store α
  | .replace document source entries, s => s.replace document source entries
  | .clear document, s => s.clear document
  | .clearAll, s => s.clearAll
  | .clearSources document sources, s => s.clearSources document sources

def concerns (d source : String) : Op α → Bool
  | .replace document published _ => d = document ∧ source = published
  | .clear document => d = document
  | .clearAll => true
  | .clearSources document sources => d = document ∧ source ∈ sources

def entries : Op α → List α
  | .replace _ _ entries => entries
  | _ => []

end Op

def after (ops : List (Op α)) : Store α :=
  ops.foldl (fun s op => op.apply s) {}

/-- The entries that a source last published about a document, if they have not been removed. -/
def published (ops : List (Op α)) (d source : String) : List α :=
  ((latest (·.concerns d source) ops).map Op.entries).getD []

/-- The number of changes after which a source last had no entries about a document. -/
def emptyUntil (ops : List (Op α)) (d source : String) : Nat :=
  Nat.findGreatest (fun k => (published (ops.take k) d source).isEmpty) ops.length

theorem after_snoc (ops : List (Op α)) (op : Op α) : after (ops ++ [op]) = op.apply (after ops) := by
  simp [after]

theorem published_snoc (ops : List (Op α)) (op : Op α) (d source : String) :
    published (ops ++ [op]) d source =
      if op.concerns d source then op.entries else published ops d source := by
  unfold published
  rw [latest_snoc]
  split_ifs with h
  · rfl
  · rfl

section EmptyUntil

variable (ops : List (Op α)) (d source : String)

theorem emptyUntil_le : emptyUntil ops d source ≤ ops.length :=
  Nat.findGreatest_le _

theorem emptyUntil_of_empty (h : published ops d source = []) :
    emptyUntil ops d source = ops.length := by
  refine Nat.findGreatest_eq ?_
  rw [List.take_length, h]
  rfl

theorem published_emptyUntil : published (ops.take (emptyUntil ops d source)) d source = [] := by
  have hempty : (published (ops.take 0) d source).isEmpty = true := rfl
  exact List.isEmpty_iff.1 (Nat.findGreatest_spec
    (P := fun k => (published (ops.take k) d source).isEmpty = true) (Nat.zero_le _) hempty)

/-- A source that has entries came to have them with one of the changes. -/
theorem emptyUntil_lt (h : published ops d source ≠ []) : emptyUntil ops d source < ops.length := by
  refine lt_of_le_of_ne (emptyUntil_le ops d source) fun heq => h ?_
  have hempty := published_emptyUntil ops d source
  rwa [heq, List.take_length] at hempty

/-- A change that leaves a source with entries does not change since when it has some. -/
theorem emptyUntil_snoc {op : Op α} (h : published (ops ++ [op]) d source ≠ []) :
    emptyUntil (ops ++ [op]) d source = emptyUntil ops d source := by
  have hlast : ¬ (published ((ops ++ [op]).take (ops.length + 1)) d source).isEmpty = true := by
    rw [List.take_of_length_le (by simp), List.isEmpty_iff]
    exact h
  have htake : ∀ k ≤ ops.length, (ops ++ [op]).take k = ops.take k :=
    fun k hk => List.take_append_of_le_length hk
  rw [emptyUntil, List.length_append, List.length_singleton, Nat.findGreatest_of_not hlast]
  refine Nat.findGreatest_eq_iff.2 ⟨emptyUntil_le ops d source, fun _ => ?_, fun k hlt hle => ?_⟩
  · rw [htake _ (emptyUntil_le ops d source), published_emptyUntil]
    rfl
  · rw [htake k hle]
    exact Nat.findGreatest_is_greatest hlt hle

end EmptyUntil

def Op.edit (d : String) (sources : List (String × List α)) : Op α → List (String × List α)
  | .replace document source entries =>
    if d = document then
      if entries.isEmpty then Assoc.erase sources source else Assoc.set sources source entries
    else sources
  | .clear document => if d = document then [] else sources
  | .clearAll => []
  | .clearSources document cleared =>
    if d = document then cleared.foldl Assoc.erase sources else sources

theorem clear_eq (s : Store α) (document : String) : s.clear document = s.setSources document [] := rfl

theorem sources_apply (op : Op α) (s : Store α) (d : String) :
    (op.apply s).sources d = op.edit d (s.sources d) := by
  cases op with
  | replace document source entries =>
    rw [Op.apply, replace, sources_setSources, Op.edit]
    by_cases hd : d = document
    · rw [if_pos hd, if_pos hd, hd]
    · rw [if_neg hd, if_neg hd]
  | clear document => rw [Op.apply, clear_eq, sources_setSources, Op.edit]
  | clearAll => rfl
  | clearSources document cleared =>
    rw [Op.apply, clearSources, sources_setSources, Op.edit]
    by_cases hd : d = document
    · rw [if_pos hd, if_pos hd, hd]
    · rw [if_neg hd, if_neg hd]

/-- A change sets what it concerns and nothing else. -/
theorem getSource_apply (op : Op α) (s : Store α) (d source : String) :
    (op.apply s).getSource d source =
      if op.concerns d source then op.entries else s.getSource d source := by
  cases op with
  | replace document published entries =>
    rw [Op.apply, getSource_replace]
    simp only [Op.concerns, Op.entries, decide_eq_true_eq]
  | clear document =>
    rw [getSource, sources_apply, Op.edit]
    simp only [Op.concerns, Op.entries, decide_eq_true_eq]
    by_cases hd : d = document
    · rw [if_pos hd, if_pos hd]
      rfl
    · rw [if_neg hd, if_neg hd]
      rfl
  | clearAll => rfl
  | clearSources document cleared =>
    rw [Op.apply, getSource_clearSources]
    simp only [Op.concerns, Op.entries, decide_eq_true_eq]

theorem getSource_after (ops : List (Op α)) (d source : String) :
    (after ops).getSource d source = published ops d source := by
  induction ops using List.reverseRecOn with
  | nil => rfl
  | append_singleton ops op ih => rw [after_snoc, getSource_apply, published_snoc, ih]

/-- Source `a` came to have its entries about the document before source `b`. -/
def InOrder (ops : List (Op α)) (d a b : String) : Prop :=
  emptyUntil ops d a < emptyUntil ops d b

theorem InOrder.ne {ops : List (Op α)} {d a b : String} (h : InOrder ops d a b) : a ≠ b := by
  rintro rfl
  exact lt_irrefl _ h

theorem published_of_mem {ops : List (Op α)} {d : String}
    (hnodup : (((after ops).sources d).map (·.1)).Nodup) {e : String × List α}
    (he : e ∈ (after ops).sources d) : published ops d e.1 = e.2 := by
  rw [← getSource_after, getSource, Assoc.lookup_of_mem hnodup he]
  rfl

theorem published_of_not_has {ops : List (Op α)} {d source : String}
    (h : Assoc.has ((after ops).sources d) source = false) : published ops d source = [] := by
  rw [Assoc.has_eq_isSome, Option.isSome_eq_false_iff, Option.isNone_iff_eq_none] at h
  rw [← getSource_after, getSource, h]
  rfl

theorem listed_edit {order : String → String → Prop} {sources : List (String × List α)}
    (h : Assoc.Listed order sources) (d : String)
    (hnew : ∀ source, Assoc.has sources source = false → ∀ e ∈ sources, order e.1 source) (op : Op α) :
    Assoc.Listed order (op.edit d sources) := by
  cases op with
  | replace document source entries =>
    rw [Op.edit]
    split_ifs with hd hempty
    · exact h.sublist List.filter_sublist
    · exact h.set (by simpa using hempty) (hnew source)
    · exact h
  | clear document =>
    rw [Op.edit]
    split_ifs with hd
    · exact h.sublist (List.nil_sublist _)
    · exact h
  | clearAll => exact h.sublist (List.nil_sublist _)
  | clearSources document cleared =>
    rw [Op.edit]
    split_ifs with hd
    · exact h.sublist (Assoc.foldl_erase_sublist cleared)
    · exact h

/-- The induction is on the changes. The ranks before a change also order the sources behind it: one
that it adds had no entries and so has the greatest rank. -/
theorem listed_sources (ops : List (Op α)) (d : String) :
    Assoc.Listed (InOrder ops d) ((after ops).sources d) := by
  induction ops using List.reverseRecOn with
  | nil => exact ⟨List.Pairwise.nil, by simp [after, Store.sources]⟩
  | append_singleton ops op ih =>
    have hnew : ∀ source, Assoc.has ((after ops).sources d) source = false →
        ∀ e ∈ (after ops).sources d, InOrder ops d e.1 source := by
      intro source hsource e he
      have hentries := ih.nonempty e he
      rw [← published_of_mem (ih.names.imp InOrder.ne) he] at hentries
      rw [InOrder, emptyUntil_of_empty ops d source (published_of_not_has hsource)]
      exact emptyUntil_lt ops d e.1 hentries
    have hstep := listed_edit ih d hnew op
    rw [← sources_apply, ← after_snoc] at hstep
    have hrank : ∀ e ∈ (after (ops ++ [op])).sources d,
        emptyUntil (ops ++ [op]) d e.1 = emptyUntil ops d e.1 := by
      intro e he
      have hentries := hstep.nonempty e he
      rw [← published_of_mem (hstep.names.imp InOrder.ne) he] at hentries
      exact emptyUntil_snoc ops d e.1 hentries
    refine hstep.imp_of_mem fun a ha b hb hab => ?_
    rwa [InOrder, hrank a ha, hrank b hb]

theorem nodup_sources (ops : List (Op α)) (d : String) :
    (((after ops).sources d).map (·.1)).Nodup :=
  (listed_sources ops d).names.imp InOrder.ne

theorem listed_setSources {s : Store α} (h : Assoc.Listed (· ≠ ·) s.documents) (document : String)
    (sources : List (String × List α)) :
    Assoc.Listed (· ≠ ·) (s.setSources document sources).documents := by
  unfold setSources
  split_ifs with hempty
  · exact h.sublist List.filter_sublist
  · refine h.set (by simpa using hempty) fun hnew e he heq => ?_
    rw [Assoc.has, List.any_eq_false] at hnew
    exact hnew e he (by simpa using heq)

theorem listed_documents (ops : List (Op α)) : Assoc.Listed (· ≠ ·) (after ops).documents := by
  induction ops using List.reverseRecOn with
  | nil => exact ⟨List.Pairwise.nil, by simp [after]⟩
  | append_singleton ops op ih =>
    rw [after_snoc]
    cases op with
    | replace document source entries => exact listed_setSources ih document _
    | clear document => exact listed_setSources ih document []
    | clearAll => exact ih.sublist (List.nil_sublist _)
    | clearSources document cleared => exact listed_setSources ih document _

theorem sources_of_mem {ops : List (Op α)} {document : String × List (String × List α)}
    (h : document ∈ (after ops).documents) : (after ops).sources document.1 = document.2 := by
  rw [Store.sources, Assoc.lookup_of_mem (listed_documents ops).names h]
  rfl

/-- A source is listed while it has entries. -/
theorem mem_sources_iff (ops : List (Op α)) (d source : String) :
    source ∈ ((after ops).sources d).map (·.1) ↔ published ops d source ≠ [] := by
  constructor
  · intro hsource
    obtain ⟨e, he, rfl⟩ := List.mem_map.1 hsource
    rw [published_of_mem (nodup_sources ops d) he]
    exact (listed_sources ops d).nonempty e he
  · intro hsource
    rw [Assoc.mem_names_iff, ← Assoc.has_eq_isSome]
    by_contra hnot
    exact hsource (published_of_not_has (by simpa using hnot))

/-- A document is listed while some source has entries about it. -/
theorem mem_documentNames_iff (ops : List (Op α)) (d : String) :
    d ∈ (after ops).documentNames ↔ ∃ source, published ops d source ≠ [] := by
  constructor
  · intro hd
    obtain ⟨document, hmem, rfl⟩ := List.mem_map.1 hd
    obtain ⟨e, he⟩ := List.exists_mem_of_ne_nil _ ((listed_documents ops).nonempty document hmem)
    rw [← sources_of_mem hmem] at he
    exact ⟨e.1, (mem_sources_iff ops document.1 e.1).1 (List.mem_map_of_mem he)⟩
  · rintro ⟨source, hsource⟩
    rw [← getSource_after, getSource, Store.sources] at hsource
    rw [documentNames, Assoc.mem_names_iff]
    by_contra hnone
    rw [Option.not_isSome_iff_eq_none.1 hnone] at hsource
    exact hsource rfl

theorem get_after (ops : List (Op α)) (d : String) :
    (after ops).get d = (((after ops).sources d).map (·.1)).flatMap (published ops d) := by
  rw [get, List.flatMap_map]
  refine List.flatMap_congr fun e he => ?_
  rw [published_of_mem (nodup_sources ops d) he]

theorem all_after (ops : List (Op α)) :
    (after ops).all = (after ops).documentNames.map fun d => (d, (after ops).get d) := by
  rw [all, documentNames, List.map_map]
  refine List.map_congr_left fun document hmem => ?_
  simp only [Function.comp_def, get, sources_of_mem hmem]

theorem size_eq (s : Store α) : s.size = (s.all.map (·.2.length)).sum := by
  rw [size, all]
  induction s.documents with
  | nil => rfl
  | cons document documents ih => simp only [List.foldr_cons, List.map_cons, List.sum_cons, ih]

/-- After any changes the store shows what they say: for each source what it last published, source
after source in the order in which they came to have entries, and the documents with entries. -/
theorem shows_published (ops : List (Op α)) :
    (∀ d source, (after ops).getSource d source = published ops d source) ∧
    (∀ (op : Op α) d source, (op.apply (after ops)).getSource d source =
      if op.concerns d source then op.entries else (after ops).getSource d source) ∧
    (∀ d, ∃ order : List String, order.Nodup ∧
      (∀ source, source ∈ order ↔ published ops d source ≠ []) ∧
      order.Pairwise (fun a b => emptyUntil ops d a < emptyUntil ops d b) ∧
      (after ops).get d = order.flatMap (published ops d)) ∧
    (after ops).documentNames.Nodup ∧
    (∀ d, d ∈ (after ops).documentNames ↔ ∃ source, published ops d source ≠ []) ∧
    (after ops).all = (after ops).documentNames.map (fun d => (d, (after ops).get d)) ∧
    (after ops).size = ((after ops).all.map (·.2.length)).sum := by
  refine ⟨getSource_after ops, fun op => getSource_apply op (after ops), fun d => ?_,
    (listed_documents ops).names, mem_documentNames_iff ops, all_after ops, size_eq (after ops)⟩
  exact ⟨_, nodup_sources ops d, mem_sources_iff ops d, (listed_sources ops d).names, get_after ops d⟩

/-- A source keeps its place when it publishes again, and goes to the end when it had no entries. -/
example :
    let twice : List (Op Nat) := [.replace "d" "a" [1], .replace "d" "b" [2], .replace "d" "a" [3]]
    (after twice).get "d" = [3, 2] ∧
      (after (twice ++ [.replace "d" "a" [], .replace "d" "a" [4]])).get "d" = [2, 4] := by
  decide

end Store

end DesignLint
