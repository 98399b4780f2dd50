import Mathlib.Data.List.Nodup
import Mathlib.Data.Nat.Find
import Mathlib.Logic.Relation
import SuiteSearch.Cluster.Members

/-!
# The walk to the supertypes

The names that the walk takes from its queue are the start and then the supertypes of the visited
classes, in the order of the visits.  A class is visited where its name is taken for the first time.
So the walk visits what the start reaches, each class once, and no class before a nearer one, whatever
circles there are among the declarations.

    c.Extends a b              a is declared with the direct supertype b
    c.AtDistance a n b         the shortest way up from a to b has n steps
    walk_eq_firsts             the visited classes are those of the names in the queue, each once
    mem_hierarchy_iff          a class is visited if it is declared and reached
    climb_of_before            what is visited earlier is no farther away
    Tour.rounds_walk           the loop over a queue and a set of names visits the same and ends
    hierarchy_exact            all of this, and what follows for the look-up of a method
-/

namespace SuiteSearch

open Relation

/-! ## Algorithm -/

/-- Whether a class declares a method with this name and these parameters. -/
def ClassDecl.Declares (d : ClassDecl) (name : String) (params : List Ty) : Prop :=
  ∃ m ∈ d.methods, m.name = name ∧ m.params = params

namespace Cluster

/-- Whether a class is declared with a direct supertype. -/
def Extends (c : Cluster) (a b : String) : Prop :=
  ∃ d ∈ c.classes, d.name = a ∧ b ∈ d.supertypes

/-- Whether the second name is the first one or lies above it. -/
abbrev Reaches (c : Cluster) : String → String → Prop := ReflTransGen c.Extends

/-- A way of some number of steps up. -/
inductive Climb (c : Cluster) (a : String) : Nat → String → Prop
  | stay : Climb c a 0 a
  | up {n : Nat} {b s : String} : Climb c a n b → c.Extends b s → Climb c a (n + 1) s

/-- Whether the shortest way up has this number of steps. -/
def AtDistance (c : Cluster) (a : String) (n : Nat) (b : String) : Prop :=
  c.Climb a n b ∧ ∀ m, c.Climb a m b → n ≤ m

/-- The classes of a list of names, each where its name is first. -/
def firsts (unvisited : List ClassDecl) : List String → List ClassDecl
  | [] => []
  | name :: rest =>
    match unvisited.find? (·.name == name) with
    | none => firsts unvisited rest
    | some d => d :: firsts (without name unvisited) rest

/-- A search that takes names from a queue and keeps those that it has taken. -/
structure Tour where
  seen : List String
  queue : List String
  visited : List ClassDecl

namespace Tour

/-- The search before the first name is taken. -/
def start (name : String) : Tour := ⟨[], [name], []⟩

/-- Takes one name from the queue.  A name that was taken before is passed over. -/
def round (c : Cluster) (t : Tour) : Tour :=
  match t.queue with
  | [] => t
  | name :: queue =>
    if name ∈ t.seen then ⟨t.seen, queue, t.visited⟩
    else match c.find? name with
      | none => ⟨name :: t.seen, queue, t.visited⟩
      | some d => ⟨name :: t.seen, queue ++ d.supertypes, t.visited ++ [d]⟩

/-- The search after a number of rounds. -/
def rounds (c : Cluster) (t : Tour) : Nat → Tour
  | 0 => t
  | k + 1 => (rounds c t k).round c

end Tour

/-! ## Declarations -/

section
variable {c : Cluster} {name : String} {d : ClassDecl}

theorem nodup_names (c : Cluster) : (c.classes.map (·.name)).Nodup := by
  refine List.pairwise_map.mpr (c.sorted.imp fun {d e} hlt heq => ?_)
  rw [heq] at hlt
  exact String.lt_irrefl _ hlt

/-- A name stands for one declaration at most. -/
theorem find?_eq_some_iff : c.find? name = some d ↔ d ∈ c.classes ∧ d.name = name := by
  constructor
  · intro h
    exact ⟨List.mem_of_find?_eq_some h, by simpa using List.find?_some h⟩
  · rintro ⟨hd, rfl⟩
    cases hfind : c.find? d.name with
    | none => exact absurd (beq_self_eq_true d.name) (List.find?_eq_none.mp hfind d hd)
    | some e =>
      have hname : e.name = d.name := by simpa using List.find?_some hfind
      have hmem := List.mem_of_find?_eq_some hfind
      rw [List.inj_on_of_nodup_map c.nodup_names hmem hd hname]

theorem find?_without (l : List ClassDecl) (name n : String) :
    (without name l).find? (·.name == n) =
      if n = name then none else l.find? (·.name == n) := by
  unfold without
  rw [List.find?_filter]
  split
  · next h =>
    refine List.find?_eq_none.mpr fun d _ => ?_
    simp [h]
  · next h =>
    congr 1
    funext d
    by_cases hd : d.name = n <;> simp [hd, h]

theorem walk_of_none {unvisited : List ClassDecl} (queue : List String)
    (h : unvisited.find? (·.name == name) = none) :
    walk unvisited (name :: queue) = walk unvisited queue := by
  rw [walk]
  split
  · rfl
  · next hsome => cases h.symm.trans hsome

theorem walk_of_some {unvisited : List ClassDecl} (queue : List String)
    (h : unvisited.find? (·.name == name) = some d) :
    walk unvisited (name :: queue) =
      d :: walk (without name unvisited) (queue ++ d.supertypes) := by
  rw [walk]
  split
  · next hnone => cases h.symm.trans hnone
  · next e hsome =>
    obtain rfl := Option.some.inj (h.symm.trans hsome)
    rfl

end

/-! ## First occurrences -/

section
variable {unvisited : List ClassDecl} {names : List String}

theorem mem_firsts (d : ClassDecl) : d ∈ firsts unvisited names ↔
    unvisited.find? (·.name == d.name) = some d ∧ d.name ∈ names := by
  induction names generalizing unvisited with
  | nil => simp [firsts]
  | cons name rest ih =>
    unfold firsts
    split
    · next hnone =>
      rw [ih, List.mem_cons]
      refine and_congr_right fun hfind => (or_iff_right fun hname => ?_).symm
      rw [hname, hnone] at hfind
      cases hfind
    · next e hsome =>
      have hname : e.name = name := by simpa using List.find?_some hsome
      rw [List.mem_cons, ih, find?_without, List.mem_cons]
      by_cases hd : d.name = name
      · simp only [hd, if_true, reduceCtorEq, false_and, or_false, true_or, and_true, hsome,
          Option.some.injEq]
        exact eq_comm
      · simp only [hd, if_false, false_or, or_iff_right_iff_imp]
        rintro rfl
        exact absurd hname hd

theorem nodup_firsts : ((firsts unvisited names).map (·.name)).Nodup := by
  induction names generalizing unvisited with
  | nil => exact List.nodup_nil
  | cons name rest ih =>
    unfold firsts
    split
    · exact ih
    · next e hsome =>
      have hname : e.name = name := by simpa using List.find?_some hsome
      refine List.nodup_cons.mpr ⟨fun hmem => ?_, ih⟩
      obtain ⟨d, hd, heq⟩ := List.mem_map.mp hmem
      have hfind := ((mem_firsts d).mp hd).1
      rw [find?_without, if_pos (heq.trans hname)] at hfind
      cases hfind

/-- Where the name of a class has occurred, the names of the classes before it have, too. -/
theorem firsts_inOrder : (firsts unvisited names).Pairwise fun d e =>
    ∀ before, before <+: names → e.name ∈ before → d.name ∈ before := by
  induction names generalizing unvisited with
  | nil => exact List.Pairwise.nil
  | cons name rest ih =>
    unfold firsts
    split
    · next hnone =>
      refine ih.imp_of_mem fun {d e} _ he hde before hbefore hmem => ?_
      have hne : e.name ≠ name := by
        intro h
        have hfind := ((mem_firsts e).mp he).1
        rw [h, hnone] at hfind
        cases hfind
      obtain rfl | ⟨before, rfl, hrest⟩ := List.prefix_cons_iff.mp hbefore
      · cases hmem
      · exact List.mem_cons_of_mem _ (hde before hrest ((List.mem_cons.mp hmem).resolve_left hne))
    · next d hsome =>
      have hname : d.name = name := by simpa using List.find?_some hsome
      refine List.pairwise_cons.mpr ⟨fun e _ before hbefore hmem => ?_, ?_⟩
      · obtain rfl | ⟨before, rfl, -⟩ := List.prefix_cons_iff.mp hbefore
        · cases hmem
        · exact hname ▸ List.mem_cons_self
      · refine ih.imp_of_mem fun {d e} _ he hde before hbefore hmem => ?_
        have hne : e.name ≠ name := by
          intro h
          have hfind := ((mem_firsts e).mp he).1
          rw [find?_without, if_pos h] at hfind
          cases hfind
        obtain rfl | ⟨before, rfl, hrest⟩ := List.prefix_cons_iff.mp hbefore
        · cases hmem
        · exact List.mem_cons_of_mem _
            (hde before hrest ((List.mem_cons.mp hmem).resolve_left hne))

/-- The walk takes the names of the queue and then the supertypes of what it visits. -/
theorem walk_eq_firsts (unvisited : List ClassDecl) (queue : List String) :
    walk unvisited queue =
      firsts unvisited (queue ++ (walk unvisited queue).flatMap (·.supertypes)) := by
  induction unvisited, queue using walk.induct with
  | case1 unvisited => simp [walk, firsts]
  | case2 unvisited name queue hfind ih =>
    rw [walk_of_none queue hfind]
    simpa [firsts, hfind] using ih
  | case3 unvisited name queue d hfind ih =>
    rw [walk_of_some queue hfind]
    simpa [firsts, hfind] using ih

end

/-! ## What is reached -/

section
variable {c : Cluster} {a b : String} {n : Nat}

theorem Climb.reaches (h : c.Climb a n b) : c.Reaches a b := by
  induction h with
  | stay => exact .refl
  | up _ hstep ih => exact ih.tail hstep

theorem exists_climb (h : c.Reaches a b) : ∃ n, c.Climb a n b := by
  induction h with
  | refl => exact ⟨0, .stay⟩
  | tail _ hstep ih =>
    obtain ⟨n, hn⟩ := ih
    exact ⟨n + 1, hn.up hstep⟩

theorem exists_atDistance (h : c.Reaches a b) : ∃ n, c.AtDistance a n b := by
  classical
  exact ⟨Nat.find (exists_climb h), Nat.find_spec (exists_climb h),
    fun _ hm => Nat.find_min' (exists_climb h) hm⟩

theorem walk_reaches (unvisited : List ClassDecl) (queue : List String)
    (hsub : unvisited ⊆ c.classes) (d : ClassDecl) (hd : d ∈ walk unvisited queue) :
    ∃ name ∈ queue, c.Reaches name d.name := by
  induction unvisited, queue using walk.induct with
  | case1 unvisited =>
    rw [walk] at hd
    cases hd
  | case2 unvisited name queue hfind ih =>
    rw [walk_of_none queue hfind] at hd
    obtain ⟨start, hstart, hreach⟩ := ih hsub hd
    exact ⟨start, List.mem_cons_of_mem name hstart, hreach⟩
  | case3 unvisited name queue e hfind ih =>
    have hname : e.name = name := by simpa using List.find?_some hfind
    rw [walk_of_some queue hfind] at hd
    rcases List.mem_cons.mp hd with rfl | hd
    · exact ⟨name, List.mem_cons_self, hname ▸ .refl⟩
    · obtain ⟨start, hstart, hreach⟩ := ih (List.Subset.trans (List.filter_subset_self _) hsub) hd
      rcases List.mem_append.mp hstart with hstart | hstart
      · exact ⟨start, List.mem_cons_of_mem name hstart, hreach⟩
      · have hstep : c.Extends name start :=
          ⟨e, hsub (List.mem_of_find?_eq_some hfind), hname, hstart⟩
        exact ⟨name, List.mem_cons_self, hreach.head hstep⟩

theorem hierarchy_eq_firsts (c : Cluster) (a : String) :
    c.hierarchy a = firsts c.classes (a :: (c.hierarchy a).flatMap (·.supertypes)) :=
  walk_eq_firsts c.classes [a]

/-- A class is visited if it is declared, and is the start or a direct supertype of a visited one. -/
theorem mem_hierarchy_cases (c : Cluster) (a : String) (d : ClassDecl) :
    d ∈ c.hierarchy a ↔ d ∈ c.classes ∧
      (d.name = a ∨ ∃ e ∈ c.hierarchy a, d.name ∈ e.supertypes) := by
  have hfind : c.classes.find? (·.name == d.name) = some d ↔ d ∈ c.classes := by
    exact find?_eq_some_iff.trans (and_iff_left rfl)
  rw [hierarchy_eq_firsts, mem_firsts, ← hierarchy_eq_firsts, hfind, List.mem_cons,
    List.mem_flatMap]

theorem mem_hierarchy_iff (c : Cluster) (a : String) (d : ClassDecl) :
    d ∈ c.hierarchy a ↔ d ∈ c.classes ∧ c.Reaches a d.name := by
  constructor
  · intro h
    obtain ⟨name, hname, hreach⟩ := walk_reaches c.classes [a] (List.Subset.refl _) d h
    obtain rfl := List.mem_singleton.mp hname
    exact ⟨((mem_hierarchy_cases c name d).mp h).1, hreach⟩
  · rintro ⟨hd, hreach⟩
    generalize hb : d.name = b at hreach
    induction hreach generalizing d with
    | refl => exact (mem_hierarchy_cases c a d).mpr ⟨hd, Or.inl hb⟩
    | tail _ hstep ih =>
      obtain ⟨e, he, hname, hsuper⟩ := hstep
      exact (mem_hierarchy_cases c a d).mpr ⟨hd, Or.inr ⟨e, ih e he hname, hb ▸ hsuper⟩⟩

theorem isSubclass_iff (c : Cluster) (a b : String) : c.isSubclass a b = true ↔ c.Reaches a b := by
  unfold isSubclass
  rw [Bool.or_eq_true, beq_iff_eq, List.any_eq_true]
  constructor
  · rintro (rfl | ⟨d, hd, hb⟩)
    · exact .refl
    · obtain ⟨hd, hreach⟩ := (mem_hierarchy_iff c a d).mp hd
      exact hreach.tail ⟨d, hd, rfl, List.contains_iff_mem.mp hb⟩
  · intro h
    rcases h.cases_tail with rfl | ⟨b', hreach, d, hd, rfl, hb⟩
    · exact Or.inl rfl
    · exact Or.inr ⟨d, (mem_hierarchy_iff c a d).mpr ⟨hd, hreach⟩, List.contains_iff_mem.mpr hb⟩

end

/-! ## Order -/

section
variable {c : Cluster} {a : String}

/-- Once the name of a class was taken from the queue, those of the classes before it were, too. -/
theorem taken_of_before {before after : List ClassDecl} {d e : ClassDecl} {taken : List String}
    (hsplit : c.hierarchy a = before ++ e :: after) (hd : d ∈ before)
    (htaken : taken <+: a :: (c.hierarchy a).flatMap (·.supertypes)) (he : e.name ∈ taken) :
    d.name ∈ taken := by
  have horder : (c.hierarchy a).Pairwise _ := hierarchy_eq_firsts c a ▸ firsts_inOrder
  rw [hsplit] at horder htaken
  exact (List.pairwise_append.mp horder).2.2 d hd e List.mem_cons_self taken htaken he

/-- What is visited earlier is no farther away. -/
theorem climb_of_before {before after : List ClassDecl} {d e : ClassDecl} {n : Nat}
    (hsplit : c.hierarchy a = before ++ e :: after) (hd : d ∈ before) (he : c.Climb a n e.name) :
    ∃ m ≤ n, c.Climb a m d.name := by
  -- The way to `e` goes through a visited class `p`.  What stands before `e` is the start, or a
  -- supertype of `p` or of a class before `p`, and these are no farther away than `p`.
  induction n generalizing before after d e with
  | zero =>
    have hname : e.name = a := by
      cases he
      rfl
    have htaken : d.name ∈ [a] :=
      taken_of_before hsplit hd ⟨_, rfl⟩ (List.mem_singleton.mpr hname)
    rw [List.mem_singleton.mp htaken]
    exact ⟨0, Nat.le_refl 0, .stay⟩
  | succ n ih =>
    obtain ⟨p, hp, hclimb, hsuper⟩ : ∃ p ∈ c.hierarchy a, c.Climb a n p.name ∧
        e.name ∈ p.supertypes := by
      cases he with
      | up hclimb hstep =>
        obtain ⟨p, hp, rfl, hsuper⟩ := hstep
        exact ⟨p, (mem_hierarchy_iff c a p).mpr ⟨hp, hclimb.reaches⟩, hclimb, hsuper⟩
    obtain ⟨earlier, later, hp⟩ := List.append_of_mem hp
    have htaken : d.name ∈ a :: (earlier ++ [p]).flatMap (·.supertypes) := by
      refine taken_of_before hsplit hd ⟨later.flatMap (·.supertypes), by simp [hp]⟩ ?_
      exact List.mem_cons_of_mem a (List.mem_flatMap.mpr ⟨p, by simp, hsuper⟩)
    rcases List.mem_cons.mp htaken with hstart | htaken
    · exact ⟨0, Nat.zero_le _, hstart ▸ .stay⟩
    · obtain ⟨q, hq, hd⟩ := List.mem_flatMap.mp htaken
      obtain ⟨m, hm, hclimb⟩ : ∃ m ≤ n, c.Climb a m q.name := by
        rcases List.mem_append.mp hq with hq | hq
        · exact ih hp hq hclimb
        · exact ⟨n, Nat.le_refl n, List.mem_singleton.mp hq ▸ hclimb⟩
      have hq : q ∈ c.hierarchy a := by
        rw [hp, List.append_cons]
        exact List.mem_append_left _ hq
      have hstep : c.Extends q.name d.name :=
        ⟨q, ((mem_hierarchy_iff c a q).mp hq).1, rfl, hd⟩
      exact ⟨m + 1, Nat.succ_le_succ hm, hclimb.up hstep⟩

theorem atDistance_le_of_before {before after : List ClassDecl} {d e : ClassDecl} {m n : Nat}
    (hsplit : c.hierarchy a = before ++ e :: after) (hd : d ∈ before)
    (hm : c.AtDistance a m d.name) (hn : c.AtDistance a n e.name) : m ≤ n := by
  obtain ⟨k, hk, hclimb⟩ := climb_of_before hsplit hd hn.1
  exact Nat.le_trans (hm.2 k hclimb) hk

theorem hierarchy_nearestFirst (c : Cluster) (a : String) : (c.hierarchy a).Pairwise fun d e =>
    ∀ m n, c.AtDistance a m d.name → c.AtDistance a n e.name → m ≤ n := by
  refine List.pairwise_iff_getElem.mpr fun i j hi hj hij m n hm hn => ?_
  have hsplit : c.hierarchy a =
      (c.hierarchy a).take j ++ (c.hierarchy a)[j] :: (c.hierarchy a).drop (j + 1) := by
    rw [List.getElem_cons_drop, List.take_append_drop]
  exact atDistance_le_of_before hsplit (List.mem_take_iff_getElem.mpr ⟨i, by omega, rfl⟩) hm hn

end

/-! ## Rounds -/

namespace Tour

/-- The classes with a name that has not been taken. -/
def unvisited (c : Cluster) (t : Tour) : List ClassDecl :=
  c.classes.filter fun d => d.name ∉ t.seen

/-- The classes that are still to be visited. -/
def ahead (c : Cluster) (t : Tour) : List ClassDecl := walk (t.unvisited c) t.queue

/-- The names that are still to be taken. -/
def namesAhead (c : Cluster) (t : Tour) : List String :=
  t.queue ++ (t.ahead c).flatMap (·.supertypes)

theorem find?_unvisited (c : Cluster) (t : Tour) (name : String) :
    (t.unvisited c).find? (·.name == name) = if name ∈ t.seen then none else c.find? name := by
  unfold unvisited Cluster.find?
  rw [List.find?_filter]
  split
  · next h =>
    refine List.find?_eq_none.mpr fun d _ => ?_
    by_cases hd : d.name = name <;> simp [hd, h]
  · next h =>
    congr 1
    funext d
    by_cases hd : d.name = name <;> simp [hd, h]

theorem without_unvisited (c : Cluster) (t : Tour) (name : String) (queue : List String)
    (visited : List ClassDecl) :
    without name (t.unvisited c) = (⟨name :: t.seen, queue, visited⟩ : Tour).unvisited c := by
  unfold unvisited without
  rw [List.filter_filter]
  refine List.filter_congr fun d _ => ?_
  by_cases hd : d.name = name <;> simp [hd]

/-- A name that no class declares can be taken from the unvisited ones at no loss. -/
theorem without_of_none {l : List ClassDecl} {name : String}
    (h : l.find? (·.name == name) = none) : without name l = l := by
  refine List.filter_eq_self.mpr fun d hd => ?_
  simpa using List.find?_eq_none.mp h d hd

/-- A round takes the first of the names that are ahead and visits its class if that is new. -/
theorem round_ahead (c : Cluster) (t : Tour) :
    (t.round c).visited ++ (t.round c).ahead c = t.visited ++ t.ahead c ∧
      (t.round c).namesAhead c = (t.namesAhead c).tail := by
  obtain ⟨seen, queue, visited⟩ := t
  cases queue with
  | nil => simp [round, namesAhead, ahead, walk]
  | cons name queue =>
    have hfind := find?_unvisited c ⟨seen, name :: queue, visited⟩ name
    by_cases hseen : name ∈ seen
    · rw [if_pos hseen] at hfind
      have hround : round c ⟨seen, name :: queue, visited⟩ = ⟨seen, queue, visited⟩ := if_pos hseen
      have hahead : ahead c ⟨seen, name :: queue, visited⟩ = ahead c ⟨seen, queue, visited⟩ :=
        walk_of_none queue hfind
      rw [hround, namesAhead, namesAhead, hahead]
      exact ⟨rfl, rfl⟩
    · rw [if_neg hseen] at hfind
      cases hd : c.find? name with
      | none =>
        rw [hd] at hfind
        have hround : round c ⟨seen, name :: queue, visited⟩ = ⟨name :: seen, queue, visited⟩ := by
          simp [round, hseen, hd]
        have hahead : ahead c ⟨seen, name :: queue, visited⟩ =
            ahead c ⟨name :: seen, queue, visited⟩ := by
          refine (walk_of_none queue hfind).trans ?_
          rw [ahead, ← without_unvisited c ⟨seen, name :: queue, visited⟩, without_of_none hfind]
        rw [hround, namesAhead, namesAhead, hahead]
        exact ⟨rfl, rfl⟩
      | some d =>
        rw [hd] at hfind
        have hround : round c ⟨seen, name :: queue, visited⟩ =
            ⟨name :: seen, queue ++ d.supertypes, visited ++ [d]⟩ := by
          simp [round, hseen, hd]
        have hahead : ahead c ⟨seen, name :: queue, visited⟩ =
            d :: ahead c ⟨name :: seen, queue ++ d.supertypes, visited ++ [d]⟩ := by
          refine (walk_of_some queue hfind).trans ?_
          rw [ahead, ← without_unvisited c ⟨seen, name :: queue, visited⟩]
        rw [hround, namesAhead, namesAhead, hahead]
        constructor
        · simp
        · simp

theorem rounds_ahead (c : Cluster) (t : Tour) (k : Nat) :
    (t.rounds c k).visited ++ (t.rounds c k).ahead c = t.visited ++ t.ahead c ∧
      (t.rounds c k).namesAhead c = (t.namesAhead c).drop k := by
  induction k with
  | zero => exact ⟨rfl, rfl⟩
  | succ k ih =>
    obtain ⟨hvisited, hnames⟩ := (t.rounds c k).round_ahead c
    exact ⟨hvisited.trans ih.1, hnames.trans (by rw [ih.2, List.tail_drop])⟩

theorem queue_eq_nil_iff (c : Cluster) (t : Tour) : t.queue = [] ↔ t.namesAhead c = [] := by
  unfold namesAhead ahead
  constructor
  · intro h
    simp [h, walk]
  · intro h
    exact (List.append_eq_nil_iff.mp h).1

theorem ahead_start (c : Cluster) (name : String) : (start name).ahead c = c.hierarchy name := by
  have hall : (start name).unvisited c = c.classes := List.filter_eq_self.mpr fun d _ => rfl
  rw [ahead, hall]
  rfl

/-- The queue is empty as soon as the start and the supertypes of all that is visited were taken,
and then the walk is complete. -/
theorem rounds_start (c : Cluster) (name : String) (k : Nat) :
    (((start name).rounds c k).queue = [] ↔
        1 + ((c.hierarchy name).flatMap (·.supertypes)).length ≤ k) ∧
      (((start name).rounds c k).queue = [] →
        ((start name).rounds c k).visited = c.hierarchy name) := by
  obtain ⟨hvisited, hnames⟩ := rounds_ahead c (start name) k
  rw [ahead_start] at hvisited
  constructor
  · rw [queue_eq_nil_iff c, hnames, List.drop_eq_nil_iff, namesAhead, ahead_start,
      List.length_append]
    rfl
  · intro hdone
    have hahead : ((start name).rounds c k).ahead c = [] := by rw [ahead, hdone, walk]
    rw [hahead, List.append_nil] at hvisited
    exact hvisited

end Tour

/-! ## Top theorems -/

/-- What the search for the supertypes of a name comes to. -/
structure Explored (c : Cluster) (a : String) : Prop where
  /-- The loop ends once the start and all direct supertypes of what it lists were taken. -/
  ends : ∀ k, ((Tour.start a).rounds c k).queue = [] ↔
    1 + ((c.hierarchy a).flatMap (·.supertypes)).length ≤ k
  lists : ∀ k, ((Tour.start a).rounds c k).queue = [] →
    ((Tour.start a).rounds c k).visited = c.hierarchy a
  reached : ∀ d, d ∈ c.hierarchy a ↔ d ∈ c.classes ∧ c.Reaches a d.name
  once : ((c.hierarchy a).map (·.name)).Nodup
  nearestFirst : (c.hierarchy a).Pairwise fun d e =>
    ∀ m n, c.AtDistance a m d.name → c.AtDistance a n e.name → m ≤ n
  subclass : ∀ b, c.isSubclass a b = true ↔ c.Reaches a b
  /-- A method is found in a class that declares it, and no class that declares it is nearer. -/
  found : ∀ name params m, c.findMethod (.named a) name params = some m →
    ∃ d ∈ c.classes, ∃ n, c.AtDistance a n d.name ∧
      (∃ decl ∈ d.methods, decl.name = name ∧ decl.params = params ∧ m = d.methodOf decl) ∧
      ∀ e ∈ c.classes, ∀ k, c.AtDistance a k e.name → e.Declares name params → n ≤ k
  missing : ∀ name params, c.findMethod (.named a) name params = none ↔
    ∀ d ∈ c.classes, c.Reaches a d.name → ¬ d.Declares name params

section
variable (c : Cluster) (a name : String) (params : List Ty)

theorem findMethod_of_some (m : Method) (h : c.findMethod (.named a) name params = some m) :
    ∃ d ∈ c.classes, ∃ n, c.AtDistance a n d.name ∧
      (∃ decl ∈ d.methods, decl.name = name ∧ decl.params = params ∧ m = d.methodOf decl) ∧
      ∀ e ∈ c.classes, ∀ k, c.AtDistance a k e.name → e.Declares name params → n ≤ k := by
  obtain ⟨before, d, after, hsplit, hfind, hbefore⟩ := List.findSome?_eq_some_iff.mp h
  have hd : d ∈ c.hierarchy a := by
    rw [hsplit]
    exact List.mem_append_right _ List.mem_cons_self
  obtain ⟨hdeclared, hreach⟩ := (mem_hierarchy_iff c a d).mp hd
  obtain ⟨n, hn⟩ := exists_atDistance hreach
  obtain ⟨decl, hdecl, rfl⟩ := Option.map_eq_some_iff.mp hfind
  refine ⟨d, hdeclared, n, hn, ⟨decl, List.mem_of_find?_eq_some hdecl, ?_⟩, ?_⟩
  · simpa [and_assoc] using List.find?_some hdecl
  · rintro e he k hk ⟨m, hm, rfl, rfl⟩
    have hmem : e ∈ c.hierarchy a := (mem_hierarchy_iff c a e).mpr ⟨he, hk.1.reaches⟩
    rw [hsplit] at hmem
    rcases List.mem_append.mp hmem with hmem | hmem
    · have hnone := List.find?_eq_none.mp (Option.map_eq_none_iff.mp (hbefore e hmem)) m hm
      simp at hnone
    · rcases List.mem_cons.mp hmem with rfl | hmem
      · exact hn.2 k hk.1
      · obtain ⟨between, rest, rfl⟩ := List.append_of_mem hmem
        have hsplit' : c.hierarchy a = (before ++ d :: between) ++ e :: rest := by
          rw [hsplit, List.append_assoc, List.cons_append]
        exact atDistance_le_of_before hsplit' (by simp) hn hk

theorem findMethod_eq_none_iff : c.findMethod (.named a) name params = none ↔
    ∀ d ∈ c.classes, c.Reaches a d.name → ¬ d.Declares name params := by
  unfold findMethod
  rw [List.findSome?_eq_none_iff]
  constructor
  · rintro h d hd hreach ⟨m, hm, rfl, rfl⟩
    have hnone := h d ((mem_hierarchy_iff c a d).mpr ⟨hd, hreach⟩)
    simpa using List.find?_eq_none.mp (Option.map_eq_none_iff.mp hnone) m hm
  · intro h d hd
    obtain ⟨hdeclared, hreach⟩ := (mem_hierarchy_iff c a d).mp hd
    refine Option.map_eq_none_iff.mpr (List.find?_eq_none.mpr fun m hm hdecl => ?_)
    exact h d hdeclared hreach ⟨m, hm, by simpa using hdecl⟩

end

/-- The search visits what a name reaches, nearest first, and looks methods up there. -/
theorem hierarchy_exact (c : Cluster) (a : String) : c.Explored a where
  ends k := (Tour.rounds_start c a k).1
  lists k := (Tour.rounds_start c a k).2
  reached := mem_hierarchy_iff c a
  once := hierarchy_eq_firsts c a ▸ nodup_firsts
  nearestFirst := hierarchy_nearestFirst c a
  subclass := isSubclass_iff c a
  found name params m := findMethod_of_some c a name params m
  missing := findMethod_eq_none_iff c a

end Cluster

end SuiteSearch
