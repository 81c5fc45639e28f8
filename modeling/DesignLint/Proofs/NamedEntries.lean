import DesignLint.Report.Store
import Mathlib.Tactic

/-! Lists of named entries as finite maps. Setting and removing an entry change what is found under its
name and nothing else, and so a source that publishes entries about a document changes what the store
holds of that source about that document and nothing else. Values that are grouped by a name are found
under it, and the names stand in the order in which they first occur. -/

namespace DesignLint

def latest {α : Type} (p : α → Bool) (items : List α) : Option α :=
  items.reverse.find? p

section Latest

variable {α : Type}

theorem latest_snoc (p : α → Bool) (items : List α) (a : α) :
    latest p (items ++ [a]) = if p a = true then some a else latest p items := by
  rw [latest, List.reverse_append, List.reverse_singleton, List.singleton_append, List.find?_cons]
  cases p a with
  | true => rfl
  | false => rfl

theorem latest_append_of_none {p : α → Bool} {after : List α} (before : List α)
    (h : ∀ a ∈ after, p a = false) : latest p (before ++ after) = latest p before := by
  have hnone : after.reverse.find? p = none := by
    rw [List.find?_eq_none]
    intro a ha
    rw [h a (List.mem_reverse.1 ha)]
    exact Bool.false_ne_true
  rw [latest, List.reverse_append, List.find?_append, hnone]
  rfl

end Latest

namespace Assoc

variable {α : Type} (entries : List (String × α)) (name key : String) (a : α)

theorem lookup_cons (e : String × α) : (e :: entries).lookup key =
    if key = e.1 then some e.2 else entries.lookup key := by
  obtain ⟨first, b⟩ := e
  rw [List.lookup_cons]
  by_cases hk : key = first
  · simp [hk]
  · have hbeq : (key == first) = false := by simpa using hk
    rw [hbeq, if_neg hk]

theorem has_eq_isSome : has entries key = (entries.lookup key).isSome := by
  induction entries with
  | nil => rfl
  | cons e entries ih =>
    rw [has] at ih
    rw [has, List.any_cons, lookup_cons, ih]
    by_cases hk : key = e.1
    · simp [hk]
    · simp [hk, Ne.symm hk]

theorem mem_names_iff : key ∈ entries.map (·.1) ↔ (entries.lookup key).isSome := by
  rw [← has_eq_isSome, has, List.any_eq_true, List.mem_map]
  simp only [beq_iff_eq]

/-- The values of one name are replaced. -/
theorem lookup_map_value :
    (entries.map fun e => if e.1 == name then (name, a) else e).lookup key =
      if key = name then (entries.lookup key).map fun _ => a else entries.lookup key := by
  induction entries with
  | nil => simp
  | cons e entries ih =>
    rw [List.map_cons, lookup_cons, lookup_cons, ih]
    by_cases he : e.1 = name
    · subst he
      by_cases hk : key = e.1
      · simp [hk]
      · simp [hk]
    · by_cases hk : key = e.1
      · subst hk
        simp [he]
      · simp [he, hk]

theorem lookup_set : (set entries name a).lookup key =
    if key = name then some a else entries.lookup key := by
  unfold set
  split_ifs with hhas hkey hkey
  · subst hkey
    rw [has_eq_isSome, Option.isSome_iff_exists] at hhas
    obtain ⟨b, hb⟩ := hhas
    rw [lookup_map_value, if_pos rfl, hb]
    rfl
  · rw [lookup_map_value, if_neg hkey]
  · subst hkey
    rw [has_eq_isSome] at hhas
    rw [List.lookup_append, Option.not_isSome_iff_eq_none.1 hhas, lookup_cons, if_pos rfl]
    rfl
  · rw [List.lookup_append, lookup_cons, if_neg hkey]
    simp

theorem lookup_erase : (erase entries name).lookup key =
    if key = name then none else entries.lookup key := by
  induction entries with
  | nil => simp [erase]
  | cons e entries ih =>
    rw [erase] at ih ⊢
    rw [lookup_cons]
    by_cases he : e.1 = name
    · subst he
      rw [List.filter_cons_of_neg (by simp), ih]
      by_cases hk : key = e.1
      · rw [if_pos hk, if_pos hk]
      · rw [if_neg hk, if_neg hk, if_neg hk]
    · rw [List.filter_cons_of_pos (by simpa using he), lookup_cons, ih]
      by_cases hk : key = e.1
      · subst hk
        simp [he]
      · simp [hk]

theorem lookup_foldl_erase (names : List String) : (names.foldl erase entries).lookup key =
    if key ∈ names then none else entries.lookup key := by
  induction names generalizing entries with
  | nil => simp
  | cons name names ih =>
    rw [List.foldl_cons, ih, lookup_erase]
    by_cases hk : key = name
    · simp [hk]
    · simp [hk]

end Assoc

namespace Assoc

section Names

variable {α : Type} {entries : List (String × α)}

theorem lookup_of_mem (hnodup : (entries.map (·.1)).Nodup) {e : String × α} (he : e ∈ entries) :
    entries.lookup e.1 = some e.2 := by
  induction entries with
  | nil => cases he
  | cons first entries ih =>
    obtain ⟨hfirst, hnodup⟩ := List.nodup_cons.1 hnodup
    rw [lookup_cons]
    rcases List.mem_cons.1 he with rfl | he
    · rw [if_pos rfl]
    · have hne : e.1 ≠ first.1 := fun h => hfirst (List.mem_map.2 ⟨e, he, h⟩)
      rw [if_neg hne, ih hnodup he]

theorem names_set (name : String) (a : α) : (set entries name a).map (·.1) =
    if has entries name then entries.map (·.1) else entries.map (·.1) ++ [name] := by
  unfold set
  split_ifs with hhas
  · rw [List.map_map]
    refine List.map_congr_left fun e he => ?_
    by_cases h : e.1 = name
    · simp [h]
    · simp [h]
  · rw [List.map_append]
    rfl

end Names

section GroupBy

variable {α : Type} (key : α → String) (values : List α)

theorem groupBy_snoc (a : α) : groupBy key (values ++ [a]) =
    set (groupBy key values) (key a) (((groupBy key values).lookup (key a)).getD [] ++ [a]) := by
  rw [groupBy, List.foldl_append]
  rfl

/-- The group of a name holds the values that carry it, in their order. -/
theorem lookup_groupBy (name : String) : (groupBy key values).lookup name =
    if name ∈ values.map key then some (values.filter (key · == name)) else none := by
  induction values using List.reverseRecOn with
  | nil => rfl
  | append_singleton values a ih =>
    rw [groupBy_snoc, lookup_set]
    by_cases hname : name = key a
    · subst hname
      rw [if_pos rfl, ih]
      by_cases hmem : key a ∈ values.map key
      · simp [hmem]
      · have hnone : values.filter (key · == key a) = [] := by
          rw [List.filter_eq_nil_iff]
          intro b hb hkey
          exact hmem (beq_iff_eq.1 hkey ▸ List.mem_map_of_mem hb)
        simp [hmem, hnone]
    · have hkey : (key a == name) = false := by simpa using Ne.symm hname
      rw [if_neg hname, ih]
      simp [hname, hkey]

theorem mem_names_groupBy (name : String) :
    name ∈ (groupBy key values).map (·.1) ↔ name ∈ values.map key := by
  rw [mem_names_iff, lookup_groupBy]
  split_ifs with hname <;> simp [hname]

/-- The names of the groups stand in the order in which they first occur. -/
theorem names_groupBy_ordered : ((groupBy key values).map (·.1)).Pairwise fun a b =>
    (values.map key).idxOf a < (values.map key).idxOf b := by
  induction values using List.reverseRecOn with
  | nil => exact .nil
  | append_singleton values a ih =>
    -- a further value moves no first occurrence
    have hkeep : ∀ name ∈ (groupBy key values).map (·.1),
        ((values ++ [a]).map key).idxOf name = (values.map key).idxOf name := by
      intro name hname
      rw [List.map_append]
      exact List.idxOf_append_of_mem ((mem_names_groupBy key values name).1 hname)
    have hold : ((groupBy key values).map (·.1)).Pairwise fun a' b =>
        ((values ++ [a]).map key).idxOf a' < ((values ++ [a]).map key).idxOf b := by
      refine ih.imp_of_mem fun hx hy hlt => ?_
      rw [hkeep _ hx, hkeep _ hy]
      exact hlt
    rw [groupBy_snoc, names_set, has_eq_isSome]
    split_ifs with hname
    · exact hold
    · rw [← mem_names_iff, mem_names_groupBy] at hname
      refine List.pairwise_append.2 ⟨hold, List.pairwise_singleton .., fun x hx y hy => ?_⟩
      obtain rfl := List.mem_singleton.1 hy
      rw [hkeep x hx, List.map_append, List.idxOf_append_of_notMem hname]
      have hlt := List.idxOf_lt_length_of_mem ((mem_names_groupBy key values x).1 hx)
      omega

theorem names_groupBy_nodup : ((groupBy key values).map (·.1)).Nodup := by
  refine (names_groupBy_ordered key values).imp ?_
  rintro name _ hlt rfl
  exact hlt.false

theorem of_mem_groupBy {group : String × List α} (h : group ∈ groupBy key values) :
    group.1 ∈ values.map key ∧ group.2 = values.filter (key · == group.1) := by
  have hlookup := lookup_of_mem (names_groupBy_nodup key values) h
  rw [lookup_groupBy] at hlookup
  split_ifs at hlookup with hname
  exact ⟨hname, (Option.some.inj hlookup).symm⟩

end GroupBy

end Assoc

namespace Store

variable {α : Type} (s : Store α) (document d source : String)

theorem sources_setSources (sources : List (String × List α)) :
    (s.setSources document sources).sources d = if d = document then sources else s.sources d := by
  unfold setSources Store.sources
  split_ifs with hempty hd hd
  · rw [List.isEmpty_iff.1 hempty, Assoc.lookup_erase, if_pos hd]
    rfl
  · rw [Assoc.lookup_erase, if_neg hd]
  · rw [Assoc.lookup_set, if_pos hd]
    rfl
  · rw [Assoc.lookup_set, if_neg hd]

theorem getSource_replace (published : String) (entries : List α) :
    (s.replace document published entries).getSource d source =
      if d = document ∧ source = published then entries else s.getSource d source := by
  unfold getSource replace
  rw [sources_setSources]
  by_cases hd : d = document
  · subst hd
    rw [if_pos rfl]
    split_ifs with hempty hs hs
    · rw [Assoc.lookup_erase, if_pos hs.2, List.isEmpty_iff.1 hempty]
      rfl
    · rw [Assoc.lookup_erase, if_neg fun h => hs ⟨rfl, h⟩]
    · rw [Assoc.lookup_set, if_pos hs.2]
      rfl
    · rw [Assoc.lookup_set, if_neg fun h => hs ⟨rfl, h⟩]
  · rw [if_neg hd, if_neg fun h => hd h.1]

theorem getSource_clearSources (cleared : List String) :
    (s.clearSources document cleared).getSource d source =
      if d = document ∧ source ∈ cleared then [] else s.getSource d source := by
  unfold getSource clearSources
  rw [sources_setSources]
  by_cases hd : d = document
  · subst hd
    rw [if_pos rfl, Assoc.lookup_foldl_erase]
    by_cases hs : source ∈ cleared
    · rw [if_pos hs, if_pos ⟨rfl, hs⟩]
      rfl
    · rw [if_neg hs, if_neg fun h => hs h.2]
  · rw [if_neg hd, if_neg fun h => hd h.1]

/-- What several sources publish leaves the others alone. -/
theorem getSource_foldl_replace (published : List (String × List α))
    (h : source ∉ published.map (·.1)) :
    (published.foldl (fun store p => store.replace document p.1 p.2) s).getSource d source =
      s.getSource d source := by
  induction published generalizing s with
  | nil => rfl
  | cons p published ih =>
    rw [List.map_cons, List.mem_cons, not_or] at h
    rw [List.foldl_cons, ih _ h.2, getSource_replace, if_neg fun hp => h.1 hp.2]

end Store

end DesignLint
