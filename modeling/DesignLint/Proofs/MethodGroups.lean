import DesignLint.Proofs.GraphSearch
import Mathlib.Data.List.Forall2

/-! The groups of the methods of a class are the connected components of its names. The graph of a class has
a name for all methods that carry it, and links two names if some two of their methods are related; so the
search of this graph finds the components. Methods that share more can only merge groups. -/

namespace DesignLint.Cohesion

open Relation

section Build

variable {g : Graph} {a b c x : String} {m n : MethodDecl}

theorem neighbours_set (others : List String) :
    neighbours (Assoc.set g a others) x = if x = a then others else neighbours g x := by
  rw [neighbours, Assoc.lookup_set]
  split_ifs with hx
  · rfl
  · rfl

theorem mem_neighbours_addNeighbour :
    c ∈ neighbours (addNeighbour g a b) x ↔ c ∈ neighbours g x ∨ x = a ∧ c = b := by
  unfold addNeighbour
  split_ifs with hthere
  · refine ⟨.inl, ?_⟩
    rintro (hc | ⟨rfl, rfl⟩)
    · exact hc
    · exact List.contains_iff_mem.1 hthere
  · rw [neighbours_set]
    split_ifs with hx
    · subst hx
      simp
    · simp [hx]

theorem names_addNeighbour (ha : a ∈ g.map (·.1)) : (addNeighbour g a b).map (·.1) = g.map (·.1) := by
  have hhas : Assoc.has g a = true := by rwa [Assoc.has_eq_isSome, ← Assoc.mem_names_iff]
  unfold addNeighbour
  split_ifs with hthere
  · rfl
  · rw [Assoc.names_set, if_pos hhas]

def Joins (m n : MethodDecl) (a b : String) : Prop :=
  related m n = true ∧ (a = m.name ∧ b = n.name ∨ a = n.name ∧ b = m.name)

theorem Joins.symm (h : Joins m n a b) : Joins m n b a :=
  ⟨h.1, h.2.symm.imp And.symm And.symm⟩

theorem mem_neighbours_link : c ∈ neighbours (link m g n) x ↔ c ∈ neighbours g x ∨ Joins m n x c := by
  unfold link Joins
  split_ifs with hrelated
  · rw [mem_neighbours_addNeighbour, mem_neighbours_addNeighbour, or_assoc]
    simp [hrelated]
  · simp [hrelated]

theorem names_link (hm : m.name ∈ g.map (·.1)) (hn : n.name ∈ g.map (·.1)) :
    (link m g n).map (·.1) = g.map (·.1) := by
  unfold link
  split_ifs with hrelated
  · rw [names_addNeighbour (names_addNeighbour hm ▸ hn), names_addNeighbour hm]
  · rfl

theorem mem_neighbours_foldl_link (methods : List MethodDecl) : c ∈ neighbours (methods.foldl (link m) g) x ↔
    c ∈ neighbours g x ∨ ∃ n ∈ methods, Joins m n x c := by
  induction methods generalizing g with
  | nil => simp
  | cons n methods ih => rw [List.foldl_cons, ih, mem_neighbours_link, List.exists_mem_cons_iff, or_assoc]

theorem names_foldl_link {methods : List MethodDecl} (hm : m.name ∈ g.map (·.1))
    (h : ∀ n ∈ methods, n.name ∈ g.map (·.1)) : (methods.foldl (link m) g).map (·.1) = g.map (·.1) := by
  induction methods generalizing g with
  | nil => rfl
  | cons n methods ih =>
    obtain ⟨hn, h⟩ := List.forall_mem_cons.1 h
    have hnames := names_link hm hn
    rw [List.foldl_cons, ih (hnames ▸ hm) (hnames ▸ h), hnames]

def Joined : List MethodDecl → String → String → Prop
  | [], _, _ => False
  | m :: methods, a, b => (∃ n ∈ methods, Joins m n a b) ∨ Joined methods a b

theorem Joined.symm {methods : List MethodDecl} (h : Joined methods a b) : Joined methods b a := by
  induction methods with
  | nil => exact h
  | cons m methods ih =>
    rcases h with ⟨n, hn, hjoins⟩ | h
    · exact Or.inl ⟨n, hn, hjoins.symm⟩
    · exact Or.inr (ih h)

theorem mem_neighbours_linkAll (methods : List MethodDecl) :
    c ∈ neighbours (linkAll g methods) x ↔ c ∈ neighbours g x ∨ Joined methods x c := by
  induction methods generalizing g with
  | nil => simp [linkAll, Joined]
  | cons m methods ih => rw [linkAll, ih, mem_neighbours_foldl_link, or_assoc, Joined]

theorem names_linkAll {methods : List MethodDecl} (h : ∀ m ∈ methods, m.name ∈ g.map (·.1)) :
    (linkAll g methods).map (·.1) = g.map (·.1) := by
  induction methods generalizing g with
  | nil => rfl
  | cons m methods ih =>
    obtain ⟨hm, h⟩ := List.forall_mem_cons.1 h
    have hnames := names_foldl_link hm h
    rw [linkAll, ih (hnames ▸ h), hnames]

theorem unlinked_snoc (methods : List MethodDecl) (m : MethodDecl) : unlinked (methods ++ [m]) =
    if Assoc.has (unlinked methods) m.name then unlinked methods
    else Assoc.set (unlinked methods) m.name [] := by
  rw [unlinked, List.foldl_append]
  rfl

theorem neighbours_unlinked (methods : List MethodDecl) (x : String) : neighbours (unlinked methods) x = [] := by
  induction methods using List.reverseRecOn with
  | nil => rfl
  | append_singleton methods m ih =>
    rw [unlinked_snoc]
    split_ifs with hhas
    · exact ih
    · rw [neighbours_set, ih, ite_self]

/-- The names are those of the methods, as when methods are grouped by name. -/
theorem names_unlinked (methods : List MethodDecl) :
    (unlinked methods).map (·.1) = (Assoc.groupBy (·.name) methods).map (·.1) := by
  induction methods using List.reverseRecOn with
  | nil => rfl
  | append_singleton methods m ih =>
    have hsame : Assoc.has (unlinked methods) m.name = Assoc.has (Assoc.groupBy (·.name) methods) m.name := by
      rw [Bool.eq_iff_iff, Assoc.has_eq_isSome, Assoc.has_eq_isSome, ← Assoc.mem_names_iff, ← Assoc.mem_names_iff, ih]
    rw [unlinked_snoc, Assoc.groupBy_snoc, Assoc.names_set, ← hsame, ← ih]
    split_ifs with hhas
    · rfl
    · rw [Assoc.names_set, if_neg hhas]

end Build

section Names

variable {methods : List MethodDecl} {a b : String}

theorem related_comm (m n : MethodDecl) : related m n = related n m := by
  have hshared : m.usedVariables.any (n.usedVariables.contains ·) =
      n.usedVariables.any (m.usedVariables.contains ·) := by
    rw [Bool.eq_iff_iff]
    simp only [List.any_eq_true, List.contains_iff_mem, and_comm]
  unfold related
  rw [hshared, Bool.or_assoc, Bool.or_comm (m.calledMethods.contains _), ← Bool.or_assoc]

/-- Two names are linked when some two of the methods that carry them use a variable in common, or one
calls the other. -/
def Linked (methods : List MethodDecl) (a b : String) : Prop :=
  ∃ m ∈ methods, ∃ n ∈ methods, m.name = a ∧ n.name = b ∧
    ((∃ v ∈ m.usedVariables, v ∈ n.usedVariables) ∨ b ∈ m.calledMethods ∨ a ∈ n.calledMethods)

theorem related_iff {m n : MethodDecl} : related m n = true ↔
    (∃ v ∈ m.usedVariables, v ∈ n.usedVariables) ∨ n.name ∈ m.calledMethods ∨
      m.name ∈ n.calledMethods := by
  simp only [related, Bool.or_eq_true, List.any_eq_true, List.contains_iff_mem, or_assoc]

theorem Joined.linked (h : Joined methods a b) : Linked methods a b := by
  induction methods with
  | nil => cases h
  | cons m methods ih =>
    rcases h with ⟨n, hn, hrelated, hnames⟩ | h
    · have hn := List.mem_cons_of_mem m hn
      rcases hnames with ⟨rfl, rfl⟩ | ⟨rfl, rfl⟩
      · exact ⟨m, List.mem_cons_self, n, hn, rfl, rfl, related_iff.1 hrelated⟩
      · exact ⟨n, hn, m, List.mem_cons_self, rfl, rfl, related_iff.1 (related_comm m n ▸ hrelated)⟩
    · obtain ⟨m', hm', n', hn', hlinked⟩ := ih h
      exact ⟨m', List.mem_cons_of_mem m hm', n', List.mem_cons_of_mem m hn', hlinked⟩

theorem joined_of_related {m n : MethodDecl} (hm : m ∈ methods) (hn : n ∈ methods) (h : related m n = true)
    (hne : m.name ≠ n.name) : Joined methods m.name n.name := by
  induction methods with
  | nil => cases hm
  | cons first methods ih =>
    rcases List.mem_cons.1 hm with rfl | hmlater
    · rcases List.mem_cons.1 hn with rfl | hnlater
      · exact absurd rfl hne
      · exact Or.inl ⟨n, hnlater, h, Or.inl ⟨rfl, rfl⟩⟩
    · rcases List.mem_cons.1 hn with rfl | hnlater
      · exact Or.inl ⟨m, hmlater, related_comm m n ▸ h, Or.inr ⟨rfl, rfl⟩⟩
      · exact Or.inr (ih hmlater hnlater)

/-- Only a link of a name with itself is not in the graph, and no chain needs that one. -/
theorem Linked.joined (h : Linked methods a b) : a = b ∨ Joined methods a b := by
  obtain ⟨m, hm, n, hn, rfl, rfl, hrelated⟩ := h
  by_cases hne : m.name = n.name
  · exact Or.inl hne
  · exact Or.inr (joined_of_related hm hn (related_iff.2 hrelated) hne)

theorem edge_buildGraph : Edge (buildGraph methods) a b ↔ Joined methods a b := by
  rw [Edge, buildGraph, mem_neighbours_linkAll, neighbours_unlinked]
  simp

theorem names_buildGraph (methods : List MethodDecl) :
    (buildGraph methods).map (·.1) = (Assoc.groupBy (·.name) methods).map (·.1) := by
  rw [buildGraph, names_linkAll, names_unlinked]
  intro m hm
  rw [names_unlinked, Assoc.mem_names_groupBy]
  exact List.mem_map_of_mem hm

theorem mem_names_buildGraph (name : String) :
    name ∈ (buildGraph methods).map (·.1) ↔ name ∈ methods.map (·.name) :=
  names_buildGraph methods ▸ Assoc.mem_names_groupBy _ _ name

theorem buildGraph_isLinkGraph (methods : List MethodDecl) : IsLinkGraph (buildGraph methods) where
  nodup := names_buildGraph methods ▸ Assoc.names_groupBy_nodup _ _
  symm a b h := edge_buildGraph.2 (edge_buildGraph.1 h).symm
  inside a b h := by
    obtain ⟨m, -, n, hn, -, rfl, -⟩ := (edge_buildGraph.1 h).linked
    exact (mem_names_buildGraph _).2 (List.mem_map_of_mem hn)

/-- Chains of links in the graph are chains of links between the names. -/
theorem chain_buildGraph_iff : ReflTransGen (Edge (buildGraph methods)) a b ↔ ReflTransGen (Linked methods) a b := by
  constructor
  · exact ReflTransGen.mono (fun x y hedge => (edge_buildGraph.1 hedge).linked) a b
  · intro hchain
    induction hchain with
    | refl => exact .refl
    | tail _ hlink ih =>
      rcases hlink.joined with rfl | hjoined
      · exact ih
      · exact ih.tail (edge_buildGraph.2 hjoined)

/-- Groups of names are the connected components of the names that some methods carry. -/
structure AreComponents (methods : List MethodDecl) (groups : List (List String)) : Prop where
  /-- No name stands twice, in one group or in two. -/
  nodup : groups.flatten.Nodup
  /-- Every name stands in a group, and nothing else does. -/
  mem_iff : ∀ name, name ∈ groups.flatten ↔ name ∈ methods.map (·.name)
  /-- Two names are in one group if and only if a chain of links leads from one to the other. -/
  together_iff : ∀ a ∈ methods.map (·.name), ∀ b ∈ methods.map (·.name),
    (∃ group ∈ groups, a ∈ group ∧ b ∈ group) ↔ ReflTransGen (Linked methods) a b
  /-- The members of a group stand in the order in which their names first occur. -/
  ordered : ∀ group ∈ groups, group.Pairwise fun a b =>
    (methods.map (·.name)).idxOf a < (methods.map (·.name)).idxOf b
  nonempty : ∀ group ∈ groups, group ≠ []
  /-- The groups stand in the order of their first members. -/
  heads_ordered : groups.Pairwise fun group later => ∀ a ∈ group.head?, ∀ b ∈ later.head?,
    (methods.map (·.name)).idxOf a < (methods.map (·.name)).idxOf b

theorem Found.together_iff {g : Graph} {groups : List (List String)} {done visited : List String}
    (h : Found g done visited groups) (ha : a ∈ visited) :
    (∃ group ∈ groups, a ∈ group ∧ b ∈ group) ↔ ReflTransGen (Edge g) a b := by
  constructor
  · rintro ⟨group, hgroup, hag, hbg⟩
    exact h.chained group hgroup a hag b hbg
  · intro hchain
    obtain ⟨group, hgroup, hag⟩ := List.mem_flatten.1 ((h.mem_iff a).2 ha)
    refine ⟨group, hgroup, hag, ?_⟩
    -- no link leads out of the group
    induction hchain with
    | refl => exact hag
    | tail _ hedge ih => exact h.closed group hgroup _ ih _ hedge

/-- What holds of the members of a list from left to right. -/
theorem rel_of_idxOf_lt {r : String → String → Prop} {names : List String} (h : names.Pairwise r) (ha : a ∈ names)
    (hb : b ∈ names) (hlt : names.idxOf a < names.idxOf b) : r a b := by
  have hrel := List.pairwise_iff_getElem.1 h _ _ (List.idxOf_lt_length_of_mem ha) (List.idxOf_lt_length_of_mem hb) hlt
  rwa [List.getElem_idxOf, List.getElem_idxOf] at hrel

theorem components_areComponents (methods : List MethodDecl) :
    AreComponents methods (components methods) := by
  have h : Found _ _ _ (components methods) := connectedComponents_found (buildGraph_isLinkGraph methods)
  have hordered : ((buildGraph methods).map (·.1)).Pairwise fun a b =>
      (methods.map (·.name)).idxOf a < (methods.map (·.name)).idxOf b :=
    names_buildGraph methods ▸ Assoc.names_groupBy_ordered _ _
  refine ⟨h.nodup, fun name => (h.mem_iff name).trans (mem_names_buildGraph name), fun a ha b _ => ?_, ?_, ?_, ?_⟩
  · rw [h.together_iff ((mem_names_buildGraph a).2 ha), chain_buildGraph_iff]
  · intro group hgroup
    refine (h.ordered group hgroup).imp_of_mem fun {a b} ha hb hlt => ?_
    exact rel_of_idxOf_lt hordered ((h.mem_iff a).1 (List.mem_flatten.2 ⟨group, hgroup, ha⟩))
      ((h.mem_iff b).1 (List.mem_flatten.2 ⟨group, hgroup, hb⟩)) hlt
  · rintro _ hgroup rfl
    obtain ⟨x, -, hx⟩ := List.mem_map.1 (h.heads.subset (List.mem_map_of_mem hgroup))
    cases hx
  · have hheads : (((buildGraph methods).map (·.1)).map some).Pairwise fun first later =>
        ∀ a ∈ first, ∀ b ∈ later, (methods.map (·.name)).idxOf a < (methods.map (·.name)).idxOf b := by
      rw [List.pairwise_map]
      refine hordered.imp fun hlt a ha b hb => ?_
      rwa [← Option.some.inj ha, ← Option.some.inj hb]
    exact List.pairwise_map.1 (hheads.sublist h.heads)

end Names

section Counts

variable {methods : List MethodDecl} (className : String) (startLine : Int)

theorem analyze_of_few (h : (methods.filter qualifies).length ≤ 1) :
    (analyze className startLine methods).components = [(methods.filter qualifies).map (·.name)] ∧
      (analyze className startLine methods).lcom4 = 1 := by
  unfold analyze
  rw [if_pos h]
  exact ⟨rfl, rfl⟩

theorem analyze_of_many (h : 1 < (methods.filter qualifies).length) :
    (analyze className startLine methods).components = components (methods.filter qualifies) ∧
      (analyze className startLine methods).lcom4 = (components (methods.filter qualifies)).length := by
  unfold analyze
  rw [if_neg (Nat.not_le.2 h)]
  exact ⟨rfl, rfl⟩

end Counts

/-- A class with two methods or more: its groups are the connected components of the names of its
methods, and what is counted are the groups. -/
theorem analyze_finds_components (className : String) (startLine : Int) (methods : List MethodDecl)
    (h : 2 ≤ (methods.filter qualifies).length) :
    AreComponents (methods.filter qualifies) (analyze className startLine methods).components ∧
      (analyze className startLine methods).lcom4 =
        (analyze className startLine methods).components.length ∧
      1 ≤ (analyze className startLine methods).lcom4 := by
  obtain ⟨hgroups, hcount⟩ := analyze_of_many className startLine h
  have hcomponents := components_areComponents (methods.filter qualifies)
  have hpos : 0 < (components (methods.filter qualifies)).length := by
    obtain ⟨m, hm⟩ := List.exists_mem_of_length_pos (Nat.lt_of_lt_of_le Nat.zero_lt_two h)
    obtain ⟨group, hgroup, -⟩ :=
      List.mem_flatten.1 ((hcomponents.mem_iff m.name).2 (List.mem_map_of_mem hm))
    exact List.length_pos_of_mem hgroup
  rw [hgroups, hcount]
  exact ⟨hcomponents, rfl, by omega⟩

/-- The second method of a name links it to a method that comes later, and a special method links
nothing. -/
theorem analyze_finds_components_overloaded :
    let methods : List MethodDecl :=
      [{ name := "load", startLine := 1, endLine := 1, headerEnd := 1, usedVariables := ["path"] },
        { name := "run", startLine := 2, endLine := 2, headerEnd := 2, calledMethods := ["stop"] },
        { name := "load", startLine := 3, endLine := 3, headerEnd := 3, usedVariables := ["cache"] },
        { name := "stop", startLine := 4, endLine := 4, headerEnd := 4 },
        { name := "__eq__", startLine := 5, endLine := 5, headerEnd := 5,
          calledMethods := ["load", "run"] },
        { name := "save", startLine := 6, endLine := 6, headerEnd := 6, usedVariables := ["cache"] }]
    2 ≤ (methods.filter qualifies).length ∧
      (analyze "Job" 0 methods).components = [["load", "save"], ["run", "stop"]] ∧
      AreComponents (methods.filter qualifies) (analyze "Job" 0 methods).components := by
  intro methods
  have hlength : 2 ≤ (methods.filter qualifies).length := by decide +kernel
  exact ⟨hlength, by decide +kernel, (analyze_finds_components "Job" 0 methods hlength).1⟩

section Sharing

/-- A name is in one group only. -/
theorem AreComponents.eq_of_mem {methods : List MethodDecl} {groups : List (List String)}
    (h : AreComponents methods groups) {group other : List String} (hgroup : group ∈ groups)
    (hother : other ∈ groups) {name : String} (hname : name ∈ group) (hname' : name ∈ other) : group = other := by
  by_contra hne
  have : Std.Symm (@List.Disjoint String) := ⟨fun _ _ => List.Disjoint.symm⟩
  exact (List.nodup_flatten.1 h.nodup).2.forall hgroup hother hne hname hname'

/-- The same method, which uses and calls at least as much of its own object. -/
structure SharesMore (m m' : MethodDecl) : Prop where
  name : m'.name = m.name
  usedVariables : m.usedVariables ⊆ m'.usedVariables
  calledMethods : m.calledMethods ⊆ m'.calledMethods

variable {methods methods' : List MethodDecl} (h : List.Forall₂ SharesMore methods methods')

include h

theorem names_sharesMore : methods'.map (·.name) = methods.map (·.name) := by
  induction h with
  | nil => rfl
  | cons hm _ ih => rw [List.map_cons, List.map_cons, hm.name, ih]

theorem exists_sharesMore {m : MethodDecl} (hm : m ∈ methods) : ∃ m' ∈ methods', SharesMore m m' := by
  induction h with
  | nil => cases hm
  | cons hfirst _ ih =>
    rcases List.mem_cons.1 hm with rfl | hm
    · exact ⟨_, List.mem_cons_self, hfirst⟩
    · obtain ⟨m', hm', hmore⟩ := ih hm
      exact ⟨m', List.mem_cons_of_mem _ hm', hmore⟩

theorem Linked.mono {a b : String} (hlink : Linked methods a b) : Linked methods' a b := by
  obtain ⟨m, hm, n, hn, rfl, rfl, hrelated⟩ := hlink
  obtain ⟨m', hm', hmore⟩ := exists_sharesMore h hm
  obtain ⟨n', hn', hmore'⟩ := exists_sharesMore h hn
  refine ⟨m', hm', n', hn', hmore.name, hmore'.name, ?_⟩
  rcases hrelated with ⟨v, hvm, hvn⟩ | hcall | hcall
  · exact Or.inl ⟨v, hmore.usedVariables hvm, hmore'.usedVariables hvn⟩
  · exact Or.inr (Or.inl (hmore.calledMethods hcall))
  · exact Or.inr (Or.inr (hmore'.calledMethods hcall))

/-- Whether a method counts is told by its name. -/
theorem qualifying_sharesMore :
    List.Forall₂ SharesMore (methods.filter qualifies) (methods'.filter qualifies) := by
  refine List.rel_filter (fun m m' hm => ?_) h
  simp only [qualifies, hm.name]

/-- Every chain of links is there as well when more is shared, so no group is torn apart. -/
theorem components_contained {group : List String} (hgroup : group ∈ components methods) :
    ∃ group' ∈ components methods', group ⊆ group' := by
  have hfew := components_areComponents methods
  have hmore := components_areComponents methods'
  have hnames : ∀ a ∈ group, a ∈ methods.map (·.name) := fun a ha =>
    (hfew.mem_iff a).1 (List.mem_flatten.2 ⟨group, hgroup, ha⟩)
  have hnames' : ∀ a ∈ group, a ∈ methods'.map (·.name) := fun a ha => names_sharesMore h ▸ hnames a ha
  obtain ⟨first, hfirst⟩ := List.exists_mem_of_ne_nil group (hfew.nonempty group hgroup)
  obtain ⟨group', hgroup', hin⟩ := List.mem_flatten.1 ((hmore.mem_iff first).2 (hnames' first hfirst))
  refine ⟨group', hgroup', fun a ha => ?_⟩
  have hchain : ReflTransGen (Linked methods) first a :=
    (hfew.together_iff first (hnames first hfirst) a (hnames a ha)).1 ⟨group, hgroup, hfirst, ha⟩
  have hchain' : ReflTransGen (Linked methods') first a :=
    ReflTransGen.mono (fun _ _ => Linked.mono h) _ _ hchain
  obtain ⟨other, hother, hfirst', ha'⟩ :=
    (hmore.together_iff first (hnames' first hfirst) a (hnames' a ha)).2 hchain'
  rwa [hmore.eq_of_mem hgroup' hother hin hfirst']

omit h in
/-- Groups that are apart are no more than groups of which each of them contains one. -/
theorem length_le_of_contain {groups groups' : List (List String)} (hnodup : groups'.flatten.Nodup)
    (hcontain : ∀ group' ∈ groups', ∃ group ∈ groups, group ≠ [] ∧ group ⊆ group') :
    groups'.length ≤ groups.length := by
  choose! pick hmem hne hsubset using hcontain
  have hapart : groups'.Pairwise List.Disjoint := (List.nodup_flatten.1 hnodup).2
  have hpicked : (groups'.map pick).Nodup := by
    refine List.pairwise_map.2 (hapart.imp_of_mem fun {a b} ha hb hdisjoint heq => ?_)
    obtain ⟨x, hx⟩ := List.exists_mem_of_ne_nil _ (hne a ha)
    exact hdisjoint (hsubset a ha hx) (hsubset b hb (heq ▸ hx))
  have hsub : groups'.map pick ⊆ groups := by
    intro group hgroup
    obtain ⟨group', hgroup', rfl⟩ := List.mem_map.1 hgroup
    exact hmem group' hgroup'
  have hle := (hpicked.subperm hsub).length_le
  rwa [List.length_map] at hle

theorem length_components_le : (components methods').length ≤ (components methods).length := by
  have hfew := components_areComponents methods
  have hmore := components_areComponents methods'
  refine length_le_of_contain hmore.nodup fun group' hgroup' => ?_
  -- the group of any of its names, before more was shared, lies in it
  obtain ⟨a, ha⟩ := List.exists_mem_of_ne_nil group' (hmore.nonempty group' hgroup')
  have hname : a ∈ methods'.map (·.name) := (hmore.mem_iff a).1 (List.mem_flatten.2 ⟨group', hgroup', ha⟩)
  obtain ⟨group, hgroup, hag⟩ := List.mem_flatten.1 ((hfew.mem_iff a).2 (names_sharesMore h ▸ hname))
  obtain ⟨other, hother, hsubset⟩ := components_contained h hgroup
  refine ⟨group, hgroup, hfew.nonempty group hgroup, ?_⟩
  rwa [hmore.eq_of_mem hgroup' hother ha (hsubset hag)]

end Sharing

/-- When the methods of a class use and call more of their own object, each of its groups becomes part of a
group, and there are no more groups than before. -/
theorem more_sharing_merges_groups (className className' : String) (startLine startLine' : Int)
    (methods methods' : List MethodDecl) (h : List.Forall₂ SharesMore methods methods') :
    (∀ group ∈ (analyze className startLine methods).components,
      ∃ group' ∈ (analyze className' startLine' methods').components, group ⊆ group') ∧
    (analyze className' startLine' methods').lcom4 ≤ (analyze className startLine methods).lcom4 := by
  have hmore := qualifying_sharesMore h
  have hlength : (methods.filter qualifies).length = (methods'.filter qualifies).length := hmore.length_eq
  rcases Nat.lt_or_ge 1 (methods.filter qualifies).length with hmany | hfew
  · obtain ⟨hgroups, hcount⟩ := analyze_of_many className startLine hmany
    obtain ⟨hgroups', hcount'⟩ := analyze_of_many className' startLine' (hlength ▸ hmany)
    rw [hgroups, hgroups', hcount, hcount', Int.ofNat_le]
    exact ⟨fun group hgroup => components_contained hmore hgroup, length_components_le hmore⟩
  · obtain ⟨hgroups, hcount⟩ := analyze_of_few className startLine hfew
    obtain ⟨hgroups', hcount'⟩ := analyze_of_few className' startLine' (hlength ▸ hfew)
    rw [hgroups, hgroups', hcount, hcount', names_sharesMore hmore]
    exact ⟨fun group hgroup => ⟨group, hgroup, List.Subset.refl _⟩, le_rfl⟩

/-- One more variable in the first of two methods of one name, and two groups become one. -/
theorem more_sharing_merges_groups_overloaded :
    let first : MethodDecl :=
      { name := "load", startLine := 1, endLine := 1, headerEnd := 1, usedVariables := ["path"] }
    let others : List MethodDecl :=
      [{ name := "save", startLine := 2, endLine := 2, headerEnd := 2, usedVariables := ["cache"] },
        { name := "load", startLine := 3, endLine := 3, headerEnd := 3, calledMethods := ["open"] },
        { name := "stop", startLine := 4, endLine := 4, headerEnd := 4, usedVariables := ["cache", "flag"] },
        { name := "wait", startLine := 5, endLine := 5, headerEnd := 5, calledMethods := ["load", "poll"] },
        { name := "poll", startLine := 6, endLine := 6, headerEnd := 6, usedVariables := ["clock"] }]
    let more : MethodDecl := { first with usedVariables := ["flag", "path"] }
    List.Forall₂ SharesMore (first :: others) (more :: others) ∧
      (analyze "Job" 0 (first :: others)).components = [["load", "wait", "poll"], ["save", "stop"]] ∧
      (analyze "Job" 0 (more :: others)).components = [["load", "save", "stop", "wait", "poll"]] ∧
      (∀ group ∈ (analyze "Job" 0 (first :: others)).components,
        ∃ group' ∈ (analyze "Job" 0 (more :: others)).components, group ⊆ group') ∧
      (analyze "Job" 0 (more :: others)).lcom4 ≤ (analyze "Job" 0 (first :: others)).lcom4 := by
  intro first others more
  have hmore : List.Forall₂ SharesMore (first :: others) (more :: others) :=
    .cons ⟨rfl, by decide, by decide⟩ (List.forall₂_same.2 fun m _ => ⟨rfl, .refl _, .refl _⟩)
  exact ⟨hmore, by decide +kernel, by decide +kernel,
    more_sharing_merges_groups "Job" "Job" 0 0 (first :: others) (more :: others) hmore⟩

end DesignLint.Cohesion
