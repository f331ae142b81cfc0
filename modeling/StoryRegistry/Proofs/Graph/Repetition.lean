import Mathlib.Data.List.Rotate
import StoryRegistry.Proofs.Graph.Cycles

/-!
# How often a cycle is reported

The search meets each node once, and what an edge closes lies in the order in which the nodes were
met. So a cycle has one way to be written: two reports of one cycle, wherever they begin, are the
same list (`exists_order_searchFrom`). While a node is on the path, the path up to it does not change,
and each of its edges is followed once. So a cycle is reported once for each edge that leads from its
last node to its first (`count_cycles`), and more than once only if such an edge is there more than
once.
-/

set_option autoImplicit false

namespace StoryRegistry.DependencyGraph

variable {g : DependencyGraph}

/-! ## The order in which nodes are met -/

/-- Two parts of a list without repetitions are the same if they have the same items. -/
theorem eq_of_sublist_of_perm {order c d : List String} (horder : order.Nodup)
    (hc : c.Sublist order) (hd : d.Sublist order) (hperm : c.Perm d) : c = d := by
  induction hc generalizing d with
  | slnil => exact hperm.nil_eq
  | @cons c order a hc ih =>
    obtain ⟨hnew, horder⟩ := List.nodup_cons.1 horder
    cases hd with
    | cons _ hd => exact ih horder hd hperm
    | cons_cons _ hd => exact absurd (hc.subset (hperm.mem_iff.2 List.mem_cons_self)) hnew
  | @cons_cons c order a hc ih =>
    obtain ⟨hnew, horder⟩ := List.nodup_cons.1 horder
    cases hd with
    | cons _ hd => exact absurd (hd.subset (hperm.mem_iff.1 List.mem_cons_self)) hnew
    | cons_cons _ hd => rw [ih horder hd (List.perm_cons a |>.1 hperm)]

/-- From a path on, the search meets fresh nodes, each once, and what it closes lies in the path and
then in the order in which it meets them. -/
structure Meets (g : DependencyGraph) (fresh : List String) (stack : List Frame)
    (met : List String) : Prop where
  distinct : met.Nodup
  fresh_of_mem : ∀ v ∈ met, v ∈ fresh
  left_of_mem : ∀ v ∈ (search g fresh stack).1, v ∈ fresh ∧ v ∉ met
  inOrder : ∀ c ∈ (search g fresh stack).2, c.Sublist ((stack.map Frame.node).reverse ++ met)

theorem exists_meets (g : DependencyGraph) (fresh : List String) (stack : List Frame) :
    ∃ met, Meets g fresh stack met := by
  induction fresh, stack using search.induct g with
  | case1 fresh =>
    refine ⟨[], List.nodup_nil, by simp, ?_, ?_⟩ <;> rw [search_over]
    · exact fun v hv => ⟨hv, List.not_mem_nil⟩
    · exact fun c hc => absurd hc List.not_mem_nil
  | case2 fresh node below ih =>
    obtain ⟨met, hdistinct, hfresh, hleft, horder⟩ := ih
    refine ⟨met, hdistinct, hfresh, ?_, ?_⟩ <;> rw [search_leave]
    · exact hleft
    · intro c hc
      rw [List.map_cons, List.reverse_cons, List.append_assoc]
      exact (horder c hc).trans ((List.sublist_cons_self _ _).append_left _)
  | case3 fresh node target pending below left found heq hon ih =>
    obtain ⟨met, hdistinct, hfresh, hleft, horder⟩ := ih
    refine ⟨met, hdistinct, hfresh, ?_, ?_⟩ <;> rw [search_close hon]
    · exact hleft
    · intro c hc
      rcases List.mem_cons.1 hc with rfl | hc
      · exact (closed_suffix _ _).sublist.trans (List.sublist_append_left _ _)
      · exact horder c hc
  | case4 fresh node target pending below hmem hoff ih =>
    obtain ⟨met, hdistinct, hfresh, hleft, horder⟩ := ih
    have hwithout {v : String} : v ∈ without target fresh ↔ v ∈ fresh ∧ v ≠ target := by
      simp [without]
    refine ⟨target :: met, List.nodup_cons.2 ⟨fun h => ?_, hdistinct⟩, ?_, ?_, ?_⟩
    · exact (hwithout.1 (hfresh target h)).2 rfl
    · intro v hv
      rcases List.mem_cons.1 hv with rfl | hv
      · exact hmem
      · exact (hwithout.1 (hfresh v hv)).1
    · rw [search_enter hoff hmem]
      intro v hv
      obtain ⟨hv, hnot⟩ := hleft v hv
      exact ⟨(hwithout.1 hv).1, by simpa using ⟨(hwithout.1 hv).2, hnot⟩⟩
    · rw [search_enter hoff hmem]
      intro c hc
      simpa using horder c hc
  | case5 fresh node target pending below hseen hoff ih =>
    obtain ⟨met, hdistinct, hfresh, hleft, horder⟩ := ih
    refine ⟨met, hdistinct, hfresh, ?_, ?_⟩ <;> rw [search_pass hoff hseen]
    · exact hleft
    · exact horder

/-- Whatever the starts, what the search closes lies in the order in which it meets fresh nodes. -/
theorem exists_order_searchFrom (g : DependencyGraph) (fresh starts : List String) :
    ∃ order : List String, order.Nodup ∧ (∀ v ∈ order, v ∈ fresh) ∧
      ∀ c ∈ searchFrom g fresh starts, c.Sublist order := by
  induction starts generalizing fresh with
  | nil => exact ⟨[], List.nodup_nil, by simp, fun c hc => absurd hc List.not_mem_nil⟩
  | cons start rest ih =>
    by_cases hfresh : start ∈ fresh
    · obtain ⟨met, h⟩ := exists_meets g (without start fresh) [⟨start, targets g start⟩]
      obtain ⟨order, hdistinct, hleft, horder⟩ :=
        ih (search g (without start fresh) [⟨start, targets g start⟩]).1
      have hwithout {v : String} (hv : v ∈ without start fresh) : v ∈ fresh ∧ v ≠ start := by
        simpa [without] using hv
      have hrest {v : String} (hv : v ∈ order) := h.left_of_mem v (hleft v hv)
      refine ⟨start :: (met ++ order), ?_, ?_, ?_⟩
      · refine List.nodup_cons.2 ⟨fun hmem => ?_, List.nodup_append.2 ⟨h.distinct, hdistinct, ?_⟩⟩
        · rcases List.mem_append.1 hmem with hmem | hmem
          · exact (hwithout (h.fresh_of_mem start hmem)).2 rfl
          · exact (hwithout (hrest hmem).1).2 rfl
        · rintro v hv w hw rfl
          exact (hrest hw).2 hv
      · intro v hv
        rcases List.mem_cons.1 hv with rfl | hv
        · exact hfresh
        · rcases List.mem_append.1 hv with hv | hv
          · exact (hwithout (h.fresh_of_mem v hv)).1
          · exact (hwithout (hrest hv).1).1
      · intro c hc
        rw [searchFrom, if_pos hfresh] at hc
        rcases List.mem_append.1 hc with hc | hc
        · have hsub : c.Sublist (start :: met) := h.inOrder c hc
          exact hsub.trans (List.sublist_append_left (start :: met) order)
        · exact (horder c hc).trans (List.sublist_append_right (start :: met) order)
    · rw [searchFrom, if_neg hfresh]
      exact ih fresh

/-! ## How often an edge closes a cycle -/

/-- The cycles that pending edges close, the edges of the top first. -/
def closable : List Frame → List (List String)
  | [] => []
  | f :: below =>
    (f.pending.filter (onPath (f :: below))).map (closed (f :: below)) ++ closable below

section

variable {node target : String} {pending other : List String} {below : List Frame}

/-- What is pending does not matter for what an edge closes. -/
theorem closed_pending :
    closed (⟨node, pending⟩ :: below) = closed (⟨node, other⟩ :: below) := by
  funext v
  simp [closed]

theorem closable_of_on (hon : onPath (⟨node, target :: pending⟩ :: below) target = true) :
    closable (⟨node, target :: pending⟩ :: below) =
      closed (⟨node, target :: pending⟩ :: below) target :: closable (⟨node, pending⟩ :: below) := by
  rw [closable, List.filter_cons_of_pos hon, @closed_pending node (target :: pending) pending]
  rfl

theorem closable_of_off (hoff : ¬onPath (⟨node, target :: pending⟩ :: below) target = true) :
    closable (⟨node, target :: pending⟩ :: below) = closable (⟨node, pending⟩ :: below) := by
  rw [closable, List.filter_cons_of_neg hoff, @closed_pending node (target :: pending) pending]
  rfl

end

/-- What pending edges close ends in a node of the path. -/
theorem exists_of_mem_closable {stack : List Frame} {c : List String} (h : c ∈ closable stack) :
    ∃ node ∈ stack.map Frame.node, c.getLast? = some node := by
  induction stack with
  | nil => cases h
  | cons f below ih =>
    rcases List.mem_append.1 h with h | h
    · obtain ⟨v, hv, rfl⟩ := List.mem_map.1 h
      exact ⟨f.node, List.mem_cons_self, getLast?_closed (List.mem_filter.1 hv).2⟩
    · obtain ⟨node, hnode, hlast⟩ := ih h
      exact ⟨node, List.mem_cons_of_mem _ hnode, hlast⟩

section

variable {c : List String} {first last : String}

/-- What does not end on the path is not closed by pending edges. -/
theorem count_closable_eq_zero {stack : List Frame} (hlast : c.getLast? = some last)
    (hoff : last ∉ stack.map Frame.node) : (closable stack).count c = 0 := by
  refine List.count_eq_zero.2 fun hmem => ?_
  obtain ⟨node, hnode, heq⟩ := exists_of_mem_closable hmem
  obtain rfl : last = node := Option.some.inj (hlast.symm.trans heq)
  exact hoff hnode

/-- A cycle that ends in the end of the path is closed by each pending edge to its first node, or it
is not closed there. -/
theorem count_closable_cons {f : Frame} {below : List Frame} (hfirst : c.head? = some first)
    (hlast : c.getLast? = some f.node) (hoff : f.node ∉ below.map Frame.node) :
    (closable (f :: below)).count c = 0 ∨
      (closable (f :: below)).count c = f.pending.count first := by
  rw [closable, List.count_append, count_closable_eq_zero hlast hoff, Nat.add_zero]
  -- what an edge closes begins where the edge leads to
  have hleads {v : String} (hon : onPath (f :: below) v = true) (heq : closed (f :: below) v = c) :
      v = first := by
    have hhead := head?_closed hon
    rw [heq, hfirst] at hhead
    exact (Option.some.inj hhead).symm
  by_cases hclosed : onPath (f :: below) first = true ∧ closed (f :: below) first = c
  · right
    rw [List.count, List.countP_map, List.countP_filter, List.count]
    refine List.countP_congr fun v _ => ?_
    have hsame : closed (f :: below) v = c ∧ onPath (f :: below) v = true ↔ v = first :=
      ⟨fun h => hleads h.2 h.1, fun heq => heq ▸ hclosed.symm⟩
    simpa using hsame
  · left
    refine List.count_eq_zero.2 fun hmem => hclosed ?_
    obtain ⟨v, hv, heq⟩ := List.mem_map.1 hmem
    have hon := (List.mem_filter.1 hv).2
    obtain rfl := hleads hon heq
    exact ⟨hon, heq⟩

/-- What ends in a node that is not fresh any more is closed by pending edges only. -/
theorem count_search {fresh : List String} {stack : List Frame} (hlast : c.getLast? = some last)
    (hseen : last ∉ fresh) : (search g fresh stack).2.count c = (closable stack).count c := by
  induction fresh, stack using search.induct g with
  | case1 fresh => rw [search_over]; rfl
  | case2 fresh node below ih => rw [search_leave, ih hseen]; rfl
  | case3 fresh node target pending below left found heq hon ih =>
    rw [search_close hon, closable_of_on hon, List.count_cons, List.count_cons, ih hseen]
  | case4 fresh node target pending below hmem hoff ih =>
    have hwithout : last ∉ without target fresh := fun h => hseen (List.mem_filter.1 h).1
    rw [search_enter hoff hmem, closable_of_off hoff, ih hwithout, closable, List.count_append]
    -- the edges of the fresh node close what ends in that node
    refine Nat.add_eq_right.2 (List.count_eq_zero.2 fun h => ?_)
    obtain ⟨v, hv, rfl⟩ := List.mem_map.1 h
    rw [getLast?_closed (List.mem_filter.1 hv).2] at hlast
    exact hseen (Option.some.inj hlast ▸ hmem)
  | case5 fresh node target pending below hunmet hoff ih =>
    rw [search_pass hoff hunmet, closable_of_off hoff, ih hseen]

/-- What ends in a fresh node is closed by each edge from there to its first node, or not at all. -/
theorem count_search_of_fresh {fresh : List String} {stack : List Frame}
    (hfirst : c.head? = some first) (hlast : c.getLast? = some last) (hfresh : last ∈ fresh)
    (hoff : ∀ node ∈ stack.map Frame.node, node ∉ fresh) :
    (search g fresh stack).2.count c = 0 ∨
      (search g fresh stack).2.count c = (targets g last).count first := by
  induction fresh, stack using search.induct g with
  | case1 fresh => rw [search_over]; exact Or.inl rfl
  | case2 fresh node below ih =>
    rw [search_leave]
    exact ih hfresh fun other hother => hoff other (List.mem_cons_of_mem _ hother)
  | case3 fresh node target pending below left found heq hon ih =>
    have hne : closed (⟨node, target :: pending⟩ :: below) target ≠ c := by
      rintro rfl
      rw [getLast?_closed hon] at hlast
      obtain rfl : node = last := Option.some.inj hlast
      exact hoff node List.mem_cons_self hfresh
    rw [search_close hon, List.count_cons_of_ne hne]
    exact ih hfresh hoff
  | case4 fresh node target pending below hmem hoffPath ih =>
    rw [search_enter hoffPath hmem]
    by_cases htarget : last = target
    · -- the node enters the path here, with all its edges pending
      subst htarget
      rw [count_search hlast (by simp [without])]
      exact count_closable_cons hfirst hlast fun hon => hoff last hon hfresh
    · refine ih (List.mem_filter.2 ⟨hfresh, by simpa using htarget⟩) fun other hother hleft => ?_
      obtain ⟨hleft, hne⟩ := List.mem_filter.1 hleft
      rcases List.mem_cons.1 hother with rfl | hother
      · exact of_decide_eq_true hne rfl
      · exact hoff other hother hleft
  | case5 fresh node target pending below hseen hoffPath ih =>
    rw [search_pass hoffPath hseen]
    exact ih hfresh hoff

/-- Whatever the starts, a cycle is closed by each edge from its last node to its first, or not at
all. -/
theorem count_searchFrom {fresh starts : List String} (hfirst : c.head? = some first)
    (hlast : c.getLast? = some last) :
    (searchFrom g fresh starts).count c = 0 ∨
      (searchFrom g fresh starts).count c = (targets g last).count first := by
  have hmem : last ∈ c := List.mem_of_getLast? hlast
  -- what ends in a node that is not fresh is not found
  have hnone (fresh starts : List String) (hseen : last ∉ fresh) :
      (searchFrom g fresh starts).count c = 0 := by
    obtain ⟨order, -, hfresh, horder⟩ := exists_order_searchFrom g fresh starts
    exact List.count_eq_zero.2 fun h => hseen (hfresh last ((horder c h).subset hmem))
  induction starts generalizing fresh with
  | nil => exact Or.inl rfl
  | cons start rest ih =>
    rw [searchFrom]
    by_cases hstart : start ∈ fresh
    · rw [if_pos hstart]
      obtain ⟨met, h⟩ := exists_meets g (without start fresh) [⟨start, targets g start⟩]
      dsimp only
      rw [List.count_append]
      by_cases hleft : last ∈ (search g (without start fresh) [⟨start, targets g start⟩]).1
      · -- the search from this start does not come to the last node
        obtain ⟨hfresh, hunmet⟩ := h.left_of_mem last hleft
        have hzero : (search g (without start fresh) [⟨start, targets g start⟩]).2.count c = 0 := by
          refine List.count_eq_zero.2 fun hc => ?_
          rcases List.mem_append.1 ((h.inOrder c hc).subset hmem) with hpath | hmet
          · obtain rfl : last = start := by simpa using hpath
            simp [without] at hfresh
          · exact hunmet hmet
        rw [hzero, Nat.zero_add]
        exact ih
      · rw [hnone _ rest hleft, Nat.add_zero]
        by_cases heq : last = start
        · subst heq
          rw [count_search hlast (by simp [without])]
          exact count_closable_cons hfirst hlast (by simp)
        · by_cases hfresh : last ∈ without start fresh
          · exact count_search_of_fresh hfirst hlast hfresh (by simp [without])
          · rw [count_search hlast hfresh, count_closable_eq_zero hlast (by simpa using heq)]
            exact Or.inl rfl
    · rw [if_neg hstart]
      exact ih

end

/-! ## Reports of one cycle -/

/-- A reported cycle is reported as often as there is an edge from its last node to its first. -/
theorem count_cycles {c : List String} (h : c ∈ cycles g) {first last : String}
    (hfirst : c.head? = some first) (hlast : c.getLast? = some last) :
    (cycles g).count c = (targets g last).count first := by
  refine (count_searchFrom hfirst hlast).resolve_left fun hzero => ?_
  exact List.count_eq_zero.1 hzero h

/-- Reports that are the same up to where they begin are the same. -/
theorem eq_of_isRotated {c d : List String} (hc : c ∈ cycles g) (hd : d ∈ cycles g)
    (h : List.IsRotated c d) : c = d := by
  obtain ⟨order, hdistinct, -, horder⟩ := exists_order_searchFrom g (nodes g) (Table.names g)
  exact eq_of_sublist_of_perm hdistinct (horder c hc) (horder d hd) h.perm

/-- Two reports of one cycle, wherever they begin, are the same list, and a cycle is reported as often
as there is an edge from its last node to its first. So each cycle is reported once exactly if no
edge that closes a reported cycle is there more than once. -/
theorem cycles_once_iff (g : DependencyGraph) :
    (∀ c ∈ cycles g, ∀ d ∈ cycles g, List.IsRotated c d → c = d) ∧
      (∀ c ∈ cycles g, ∀ first last, c.head? = some first → c.getLast? = some last →
        (cycles g).count c = (targets g last).count first) ∧
      ((cycles g).Pairwise (fun c d => ¬List.IsRotated c d) ↔
        ∀ u v, Closing (cycles g) u v → (targets g u).count v = 1) := by
  refine ⟨fun c hc d hd => eq_of_isRotated hc hd, fun c hc first last => count_cycles hc, ?_⟩
  have hpairwise : (cycles g).Pairwise (fun c d => ¬List.IsRotated c d) ↔ (cycles g).Nodup := by
    refine List.Pairwise.iff_of_mem fun {c d} hc hd => not_congr ?_
    exact ⟨eq_of_isRotated hc hd, fun heq => heq ▸ List.IsRotated.refl c⟩
  rw [hpairwise, List.nodup_iff_count_eq_one]
  constructor
  · rintro honce u v ⟨c, hc, hlast, hfirst⟩
    rw [← count_cycles hc hfirst hlast]
    exact honce c hc
  · intro hsingle c hc
    obtain ⟨first, last, hfirst, hlast, -⟩ := (isCycle_of_mem_searchFrom c hc).closes
    rw [count_cycles hc hfirst hlast]
    exact hsingle last first ⟨c, hc, hlast, hfirst⟩

/-- Two files that import each other, the second of them twice. -/
def parallel : DependencyGraph :=
  let edge (path : String) : Dependency :=
    { specifier := path, kind := .internal, path := some path }
  [("a", [edge "b"]), ("b", [edge "a", edge "a"])]

/-- A cycle that two edges close is reported twice. -/
theorem not_once_parallel : ¬(cycles parallel).Pairwise fun c d => ¬List.IsRotated c d := by
  have htwice : cycles parallel = [["a", "b"], ["a", "b"]] := by decide +kernel
  rw [htwice]
  intro honce
  exact (List.pairwise_cons.1 honce).1 _ List.mem_cons_self (List.IsRotated.refl _)

end StoryRegistry.DependencyGraph
