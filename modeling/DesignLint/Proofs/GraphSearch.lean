import DesignLint.Analysis.Cohesion
import DesignLint.Proofs.NamedEntries
import Mathlib.Data.List.Sort
import Mathlib.Logic.Relation

/-! The search for the groups of a graph. From a name on its stack a search goes on to what the name is
linked to. At its end it has visited all that links lead to, and no link leads from what it found to what it
did not visit. In a graph whose links go both ways the groups found one after the other are therefore closed
under links, and the first member of each is the name that its search started from. -/

namespace DesignLint.Cohesion

open Relation

def Edge (g : Graph) (a b : String) : Prop := b ∈ neighbours g a

section Visit

variable {g : Graph} {visited stack new after : List String} {name : String}

/-- The end of a search: what it found, and what has been visited after it. -/
structure Visited (g : Graph) (visited stack new after : List String) : Prop where
  mem_iff : ∀ a, a ∈ after ↔ a ∈ visited ∨ a ∈ new
  nodup : new.Nodup
  unvisited : ∀ a ∈ new, a ∉ visited
  stack_subset : stack ⊆ after
  closed : ∀ a ∈ new, ∀ b, Edge g a b → b ∈ after
  chained : ∀ b ∈ new, ∃ a ∈ stack, ReflTransGen (Edge g) a b

theorem Visited.nil (g : Graph) (visited : List String) : Visited g visited [] [] visited where
  mem_iff := by simp
  nodup := .nil
  unvisited := nofun
  stack_subset := List.nil_subset visited
  closed := nofun
  chained := nofun

/-- A name that was visited is passed over. -/
theorem Visited.skip (h : Visited g visited stack new after) (hname : name ∈ visited) :
    Visited g visited (name :: stack) new after where
  mem_iff := h.mem_iff
  nodup := h.nodup
  unvisited := h.unvisited
  stack_subset := List.cons_subset.2 ⟨(h.mem_iff name).2 (.inl hname), h.stack_subset⟩
  closed := h.closed
  chained b hb := by
    obtain ⟨a, ha, hchain⟩ := h.chained b hb
    exact ⟨a, List.mem_cons_of_mem name ha, hchain⟩

/-- A name that was not is visited, and what it is linked to goes on the stack. -/
theorem Visited.step {fresh : List String} (hname : name ∉ visited)
    (hfresh : fresh = (neighbours g name).filter fun other => !(name :: visited).contains other)
    (h : Visited g (name :: visited) (fresh.reverse ++ stack) new after) :
    Visited g visited (name :: stack) (name :: new) after := by
  have hafter : name ∈ after := (h.mem_iff name).2 (.inl List.mem_cons_self)
  have hmem : ∀ other, other ∈ fresh ↔ Edge g name other ∧ other ∉ name :: visited := by
    intro other
    rw [hfresh, List.mem_filter, Bool.not_eq_true', ← Bool.not_eq_true, List.contains_iff_mem]
    rfl
  refine ⟨fun a => ?_, ?_, ?_, ?_, ?_, ?_⟩
  · rw [h.mem_iff, List.mem_cons, List.mem_cons]
    tauto
  · exact List.nodup_cons.2 ⟨fun hnew => h.unvisited name hnew List.mem_cons_self, h.nodup⟩
  · intro a ha hvisited
    rcases List.mem_cons.1 ha with rfl | ha
    · exact hname hvisited
    · exact h.unvisited a ha (List.mem_cons_of_mem name hvisited)
  · exact List.cons_subset.2 ⟨hafter, fun a ha => h.stack_subset (List.mem_append_right _ ha)⟩
  · intro a ha b hedge
    rcases List.mem_cons.1 ha with rfl | ha
    · by_cases hb : b ∈ a :: visited
      · exact (h.mem_iff b).2 (.inl hb)
      · have hstack : b ∈ fresh.reverse := List.mem_reverse.2 ((hmem b).2 ⟨hedge, hb⟩)
        exact h.stack_subset (List.mem_append_left _ hstack)
    · exact h.closed a ha b hedge
  · intro b hb
    rcases List.mem_cons.1 hb with rfl | hb
    · exact ⟨b, List.mem_cons_self, .refl⟩
    · obtain ⟨a, ha, hchain⟩ := h.chained b hb
      rcases List.mem_append.1 ha with ha | ha
      · have hedge : Edge g name a := ((hmem a).1 (List.mem_reverse.1 ha)).1
        exact ⟨name, List.mem_cons_self, .head hedge hchain⟩
      · exact ⟨a, List.mem_cons_of_mem name ha, hchain⟩

def linksLeft (g : Graph) (visited : List String) : Nat :=
  ((g.filter fun e => !visited.contains e.1).flatMap (·.2)).length

theorem linksLeft_cons (e : String × List String) (g : Graph) (visited : List String) : linksLeft (e :: g) visited =
    (if e.1 ∈ visited then 0 else e.2.length) + linksLeft g visited := by
  unfold linksLeft
  rw [List.filter_cons]
  split_ifs with hkept hvisited hvisited
  · simp [hvisited] at hkept
  · rw [List.flatMap_cons, List.length_append]
  · exact (Nat.zero_add _).symm
  · simp [hvisited] at hkept

theorem linksLeft_le (g : Graph) (visited : List String) : linksLeft g visited + 1 ≤ rounds g := by
  unfold rounds
  induction g with
  | nil => exact le_rfl
  | cons e g ih =>
    rw [linksLeft_cons, List.flatMap_cons, List.length_append]
    split_ifs with hvisited
    · omega
    · omega

/-- Visiting a name uses its links up. -/
theorem linksLeft_visit (g : Graph) (hname : name ∉ visited) :
    linksLeft g (name :: visited) + (neighbours g name).length ≤ linksLeft g visited := by
  induction g with
  | nil => exact le_rfl
  | cons e g ih =>
    have hneighbours : neighbours (e :: g) name = if name = e.1 then e.2 else neighbours g name := by
      rw [neighbours, Assoc.lookup_cons]
      split_ifs with hfirst
      · rfl
      · rfl
    rw [linksLeft_cons, linksLeft_cons, hneighbours]
    by_cases hfirst : name = e.1
    · subst hfirst
      simp only [List.mem_cons, true_or, if_true, hname, if_false]
      omega
    · simp only [List.mem_cons, Ne.symm hfirst, false_or, hfirst, if_false]
      omega

/-- With a round for everything on the stack and every link that is left, a search comes to its end. -/
theorem visit_visited (g : Graph) (n : Nat) (visited found stack : List String)
    (h : stack.length + linksLeft g visited ≤ n) : ∃ new, (visit g n visited found stack).2 = found ++ new ∧
      Visited g visited stack new (visit g n visited found stack).1 := by
  fun_induction visit g n visited found stack with
  | case1 n visited found name stack hvisited ih =>
    obtain ⟨new, hfound, hend⟩ := ih (by rw [List.length_cons] at h; omega)
    exact ⟨new, hfound, hend.skip (List.contains_iff_mem.1 hvisited)⟩
  | case2 n visited found name stack hvisited fresh ih =>
    have hname : name ∉ visited := fun hmem => hvisited (List.contains_iff_mem.2 hmem)
    have hlinks := linksLeft_visit g hname
    have hfresh : fresh.length ≤ (neighbours g name).length := List.length_filter_le ..
    obtain ⟨new, hfound, hend⟩ := ih (by
      rw [List.length_cons] at h
      rw [List.length_append, List.length_reverse]
      omega)
    refine ⟨name :: new, ?_, hend.step hname rfl⟩
    rw [hfound, List.append_assoc, List.singleton_append]
  | case3 n visited found stack hstop =>
    cases stack with
    | nil => exact ⟨[], (List.append_nil found).symm, .nil g visited⟩
    | cons name stack =>
      cases n with
      | zero => simp at h
      | succ n => exact absurd rfl (hstop n name stack rfl)

end Visit

section Order

variable (order : String → Nat) (names : List String)

theorem insertInOrder_eq (name : String) :
    insertInOrder order name names = names.orderedInsert (order · ≤ order ·) name := by
  induction names with
  | nil => rfl
  | cons other names ih => rw [insertInOrder, List.orderedInsert_cons, ih]

theorem inOrder_eq : inOrder order names = names.insertionSort (order · ≤ order ·) := by
  induction names with
  | nil => rfl
  | cons name names ih =>
    rw [List.insertionSort_cons, ← ih, ← insertInOrder_eq]
    rfl

theorem inOrder_perm : (inOrder order names).Perm names :=
  inOrder_eq order names ▸ List.perm_insertionSort _ names

theorem inOrder_pairwise : (inOrder order names).Pairwise (order · ≤ order ·) := by
  have : Std.Total (α := String) (order · ≤ order ·) := ⟨fun a b => le_total (order a) (order b)⟩
  have : IsTrans String (order · ≤ order ·) := ⟨fun a b c => le_trans⟩
  rw [inOrder_eq]
  exact List.pairwise_insertionSort _ names

end Order

section Groups

/-- What the searches from some names have found. -/
structure Found (g : Graph) (done visited : List String) (groups : List (List String)) : Prop where
  nodup : groups.flatten.Nodup
  mem_iff : ∀ a, a ∈ groups.flatten ↔ a ∈ visited
  done_subset : done ⊆ visited
  visited_subset : visited ⊆ g.map (·.1)
  closed : ∀ group ∈ groups, ∀ a ∈ group, ∀ b, Edge g a b → b ∈ group
  chained : ∀ group ∈ groups, ∀ a ∈ group, ∀ b ∈ group, ReflTransGen (Edge g) a b
  ordered : ∀ group ∈ groups, group.Pairwise fun a b => (g.map (·.1)).idxOf a < (g.map (·.1)).idxOf b
  heads : (groups.map List.head?).Sublist (done.map some)

theorem Found.nil (g : Graph) : Found g [] [] [] where
  nodup := .nil
  mem_iff := by simp
  done_subset := List.Subset.refl []
  visited_subset := List.nil_subset _
  closed := nofun
  chained := nofun
  ordered := nofun
  heads := .slnil

/-- The names of a graph are all different, and its links lead both ways between them. -/
structure IsLinkGraph (g : Graph) : Prop where
  nodup : (g.map (·.1)).Nodup
  symm : ∀ a b, Edge g a b → Edge g b a
  inside : ∀ a b, Edge g a b → b ∈ g.map (·.1)

variable {g : Graph} {done visited new after : List String} {groups : List (List String)} {start : String}

/-- What was visited is closed under links, and links lead both ways: no link leads into it. -/
theorem Found.no_edge (h : Found g done visited groups) (hg : IsLinkGraph g) {a b : String} (ha : a ∉ visited)
    (hedge : Edge g a b) : b ∉ visited := by
  intro hb
  obtain ⟨group, hgroup, hmem⟩ := List.mem_flatten.1 ((h.mem_iff b).2 hb)
  have hback : a ∈ group := h.closed group hgroup b hmem a (hg.symm a b hedge)
  exact ha ((h.mem_iff a).1 (List.mem_flatten.2 ⟨group, hgroup, hback⟩))

/-- A member that comes before no other is the first of those in order. -/
theorem head?_eq_of_le {order : String → Nat} {group : List String} (hordered : group.Pairwise (order · < order ·))
    (hstart : start ∈ group) (hle : ∀ a ∈ group, order start ≤ order a) : group.head? = some start := by
  cases group with
  | nil => cases hstart
  | cons a group =>
    rcases List.mem_cons.1 hstart with rfl | hmem
    · rfl
    · have hlt := (List.pairwise_cons.1 hordered).1 start hmem
      exact absurd hlt (Nat.not_lt.2 (hle a List.mem_cons_self))

/-- Names that were not visited come no sooner than the first of them. -/
theorem idxOf_start_le {names rest : List String} (hnames : names = done ++ start :: rest) (hstart : start ∉ done)
    {a : String} (ha : a ∉ done) : names.idxOf start ≤ names.idxOf a := by
  rw [hnames, List.idxOf_append_of_notMem hstart, List.idxOf_append_of_notMem ha, List.idxOf_cons_self]
  omega

section Component

variable (h : Found g done visited groups) (hvisit : Visited g visited [start] new after)
  {rest : List String} (hnames : g.map (·.1) = done ++ start :: rest)

include hvisit

/-- All that a search found hangs together, for links lead both ways. -/
theorem Visited.chain (hsymm : ∀ a b, Edge g a b → Edge g b a) {a b : String} (ha : a ∈ new) (hb : b ∈ new) :
    ReflTransGen (Edge g) a b := by
  obtain ⟨_, hfrom, hchain⟩ := hvisit.chained a ha
  obtain ⟨_, hto, hchain'⟩ := hvisit.chained b hb
  rw [List.mem_singleton.1 hfrom] at hchain
  rw [List.mem_singleton.1 hto] at hchain'
  have hback : ReflTransGen (Edge g) a start := ReflTransGen.mono (fun x y => hsymm y x) _ _ hchain.swap
  exact hback.trans hchain'

theorem Visited.start_mem (hstart : start ∉ visited) : start ∈ new :=
  ((hvisit.mem_iff start).1 (hvisit.stack_subset List.mem_cons_self)).resolve_left hstart

/-- What is found lies among the names. -/
theorem Visited.new_subset (hinside : ∀ a b, Edge g a b → b ∈ g.map (·.1)) (hstart : start ∈ g.map (·.1)) :
    new ⊆ g.map (·.1) := by
  intro b hb
  obtain ⟨a, ha, hchain⟩ := hvisit.chained b hb
  rw [List.mem_singleton.1 ha] at hchain
  rcases ReflTransGen.cases_tail hchain with rfl | ⟨c, -, hedge⟩
  · exact hstart
  · exact hinside c b hedge

theorem Visited.ordered (hsubset : new ⊆ g.map (·.1)) : (inOrder (g.map (·.1)).idxOf new).Pairwise fun a b =>
    (g.map (·.1)).idxOf a < (g.map (·.1)).idxOf b := by
  have hperm := inOrder_perm (g.map (·.1)).idxOf new
  refine ((inOrder_pairwise _ new).and (hperm.nodup_iff.2 hvisit.nodup)).imp_of_mem ?_
  intro a b ha hb hab
  refine lt_of_le_of_ne hab.1 fun heq => hab.2 ?_
  exact (List.idxOf_inj (hsubset (hperm.mem_iff.1 ha))).1 heq

include h

theorem Found.closed_new (hg : IsLinkGraph g) {a b : String} (ha : a ∈ new) (hedge : Edge g a b) : b ∈ new := by
  have hafter : b ∈ after := hvisit.closed a ha b hedge
  have hunvisited : b ∉ visited := h.no_edge hg (hvisit.unvisited a ha) hedge
  exact ((hvisit.mem_iff b).1 hafter).resolve_left hunvisited

include hnames

theorem Found.head_new (hstart : start ∉ visited) (hsubset : new ⊆ g.map (·.1)) :
    (inOrder (g.map (·.1)).idxOf new).head? = some start := by
  have hperm := inOrder_perm (g.map (·.1)).idxOf new
  have hundone : ∀ a ∈ new, a ∉ done := fun a ha hdone => hvisit.unvisited a ha (h.done_subset hdone)
  have hnew := hvisit.start_mem hstart
  refine head?_eq_of_le (hvisit.ordered hsubset) (hperm.mem_iff.2 hnew) fun a ha => ?_
  exact idxOf_start_le hnames (hundone start hnew) (hundone a (hperm.mem_iff.1 ha))

/-- The group of a name that was not visited yet is added to the groups. -/
theorem Found.add (hg : IsLinkGraph g) (hstart : start ∉ visited) : Found g (done ++ [start]) after
    (groups ++ [inOrder (g.map (·.1)).idxOf new]) := by
  have hperm := inOrder_perm (g.map (·.1)).idxOf new
  have hmem : start ∈ g.map (·.1) := hnames ▸ List.mem_append_right done List.mem_cons_self
  have hsubset := hvisit.new_subset hg.inside hmem
  have hflatten : (groups ++ [inOrder (g.map (·.1)).idxOf new]).flatten =
      groups.flatten ++ inOrder (g.map (·.1)).idxOf new := by
    rw [List.flatten_append, List.flatten_singleton]
  refine ⟨?_, fun a => ?_, ?_, ?_, ?_, ?_, ?_, ?_⟩
  · rw [hflatten, List.nodup_append]
    refine ⟨h.nodup, hperm.nodup_iff.2 hvisit.nodup, ?_⟩
    rintro a ha b hb rfl
    exact hvisit.unvisited a (hperm.mem_iff.1 hb) ((h.mem_iff a).1 ha)
  · rw [hflatten, List.mem_append, h.mem_iff, hperm.mem_iff, hvisit.mem_iff]
  · refine List.append_subset.2 ⟨fun a ha => (hvisit.mem_iff a).2 (.inl (h.done_subset ha)), ?_⟩
    exact hvisit.stack_subset
  · intro a ha
    exact ((hvisit.mem_iff a).1 ha).elim (fun ha => h.visited_subset ha) fun ha => hsubset ha
  · refine List.forall_mem_append.2 ⟨h.closed, List.forall_mem_singleton.2 fun a ha b hedge => ?_⟩
    exact hperm.mem_iff.2 (h.closed_new hvisit hg (hperm.mem_iff.1 ha) hedge)
  · refine List.forall_mem_append.2 ⟨h.chained, List.forall_mem_singleton.2 fun a ha b hb => ?_⟩
    exact hvisit.chain hg.symm (hperm.mem_iff.1 ha) (hperm.mem_iff.1 hb)
  · exact List.forall_mem_append.2 ⟨h.ordered, List.forall_mem_singleton.2 (hvisit.ordered hsubset)⟩
  · rw [List.map_append, List.map_append, List.map_singleton, List.map_singleton,
      h.head_new hvisit hnames hstart hsubset]
    exact h.heads.append (List.Sublist.refl _)

end Component

/-- What one name adds. -/
theorem Found.addComponent {state : List String × List (List String)} (h : Found g done state.1 state.2)
    (hg : IsLinkGraph g) {rest : List String} (hnames : g.map (·.1) = done ++ start :: rest) :
    Found g (done ++ [start]) (addComponent g state start).1 (addComponent g state start).2 := by
  unfold Cohesion.addComponent
  split_ifs with hstart
  · have hmem : start ∈ state.1 := List.contains_iff_mem.1 hstart
    refine ⟨h.nodup, h.mem_iff, ?_, h.visited_subset, h.closed, h.chained, h.ordered, ?_⟩
    · exact List.append_subset.2 ⟨h.done_subset, List.cons_subset.2 ⟨hmem, List.nil_subset _⟩⟩
    · rw [List.map_append]
      exact h.heads.trans (List.sublist_append_left _ _)
  · have hrounds : [start].length + linksLeft g state.1 ≤ rounds g := by
      have hlinks := linksLeft_le g state.1
      rw [List.length_singleton]
      omega
    obtain ⟨new, hfound, hvisit⟩ := visit_visited g (rounds g) state.1 [] [start] hrounds
    rw [List.nil_append] at hfound
    dsimp only
    rw [hfound]
    exact h.add hvisit hnames hg fun hmem => hstart (List.contains_iff_mem.2 hmem)

/-- What all the names add that are left. -/
theorem Found.run (hg : IsLinkGraph g) (rest : List String) (state : List String × List (List String))
    (h : Found g done state.1 state.2) (hnames : g.map (·.1) = done ++ rest) :
    Found g (g.map (·.1)) (rest.foldl (Cohesion.addComponent g) state).1
      (rest.foldl (Cohesion.addComponent g) state).2 := by
  induction rest generalizing done state with
  | nil => rwa [hnames, List.append_nil]
  | cons start rest ih =>
    refine ih _ (h.addComponent hg hnames) ?_
    rw [hnames, List.append_assoc, List.singleton_append]

/-- The groups of a graph hold every name once. -/
theorem connectedComponents_found (hg : IsLinkGraph g) :
    Found g (g.map (·.1)) (g.map (·.1)) (connectedComponents g) := by
  have h := Found.run hg (g.map (·.1)) ([], []) (.nil g) rfl
  refine ⟨h.nodup, fun a => ?_, List.Subset.refl _, List.Subset.refl _, h.closed, h.chained, h.ordered, h.heads⟩
  exact (h.mem_iff a).trans ⟨fun ha => h.visited_subset ha, fun ha => h.done_subset ha⟩

end Groups

end DesignLint.Cohesion
