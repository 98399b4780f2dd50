import SuiteSearch.Proofs.Archive.Coverage
import SuiteSearch.Proofs.Random.Outcome

/-!
# Histories of an archive

An archive is asked for one thing after the other. Of all this a population sees only what is
offered for its goal, the draws from it, and the changes of the capacity; so what it comes to can be
studied without the other goals.

    offered g calls        what calls offer for a goal, in order
    Formed m l k p         a population that the offers `l` can come to
    formed_performAll      every population of an archive is one
-/

namespace SuiteSearch

variable {ω : Type}

/-! ## Calls -/

/-- What an archive is asked for. -/
inductive ArchiveCall (ω : Type)
  | update (c : Chromosome) (e : Evaluation)
  /-- A candidate, drawn with some words. -/
  | solution (words : ω)
  | solutions
  | shrink (n : Nat)

/-- What a call offers for a goal. Empty programs are not offered. -/
def ArchiveCall.offered (g : GoalId) : ArchiveCall ω → Option Entry
  | .update c e => if c.isEmpty then none else some ⟨e.value g, c.copy⟩
  | _ => none

/-- What calls offer for a goal, in order. -/
def offered (g : GoalId) (calls : List (ArchiveCall ω)) : List Entry :=
  calls.filterMap (ArchiveCall.offered g)

theorem offered_append (g : GoalId) (calls more : List (ArchiveCall ω)) :
    offered g (calls ++ more) = offered g calls ++ offered g more :=
  List.filterMap_append

namespace Archive

variable [WordSource ω]

/-- The archive after a call. -/
def perform (a : Archive) : ArchiveCall ω → Archive
  | .update c e => (a.update c e).1
  | .solution w => (a.solution w).1.2
  | .solutions => a.solutions.2
  | .shrink n => a.shrink n

def performAll (a : Archive) (calls : List (ArchiveCall ω)) : Archive := calls.foldl perform a

theorem performAll_append (a : Archive) (calls more : List (ArchiveCall ω)) :
    a.performAll (calls ++ more) = (a.performAll calls).performAll more :=
  List.foldl_append

/-- No capacity that is in force on the way is less than `m`. -/
def RoomFor (m : Nat) : Archive → List (ArchiveCall ω) → Prop
  | a, [] => m ≤ a.capacity
  | a, call :: rest => m ≤ a.capacity ∧ RoomFor m (a.perform call) rest

/-- The capacity never goes up. -/
def NeverRaised : Archive → List (ArchiveCall ω) → Prop
  | _, [] => True
  | a, call :: rest => (a.perform call).capacity ≤ a.capacity ∧ NeverRaised (a.perform call) rest

theorem RoomFor.le_capacity {m : Nat} {a : Archive} {calls : List (ArchiveCall ω)}
    (h : a.RoomFor m calls) : m ≤ a.capacity := by
  cases calls with
  | nil => exact h
  | cons call rest => exact h.1

/-- What is in force at the end is the least capacity of all. -/
theorem NeverRaised.roomFor {a : Archive} {calls : List (ArchiveCall ω)}
    (h : a.NeverRaised calls) : a.RoomFor (a.performAll calls).capacity calls := by
  induction calls generalizing a with
  | nil => exact Nat.le_refl _
  | cons call rest ih =>
    have hrest := ih h.2
    exact ⟨Nat.le_trans hrest.le_capacity h.1, hrest⟩

end Archive

/-! ## Populations -/

/-- A population that offers can come to, with the capacity in force; no capacity on the way is less
than `m`. -/
inductive Population.Formed (m : Nat) : List Entry → Nat → Population → Prop
  | empty (k : Nat) : m ≤ k → Formed m [] k .empty
  | offer {l : List Entry} {k : Nat} {p : Population} (c : Chromosome) (x : Float) :
      Formed m l k p → c.isEmpty = false → Formed m (l ++ [⟨x, c.copy⟩]) k (p.offer c x k).1
  | draw {l : List Entry} {k : Nat} {p : Population} (n : Nat) :
      Formed m l k p → Formed m l k { p with selections := n }
  | shrink {l : List Entry} {k : Nat} {p : Population} (n : Nat) :
      Formed m l k p → m ≤ n → Formed m l n (p.shrink n)

theorem Population.Formed.le_capacity {m k : Nat} {l : List Entry} {p : Population}
    (h : Formed m l k p) : m ≤ k := by
  induction h with
  | empty k hk => exact hk
  | offer c x _ _ ih => exact ih
  | draw n _ ih => exact ih
  | shrink n _ hn _ => exact hn

namespace Archive

/-! ## The goals of an archive -/

variable {a : Archive} {m : Nat}

/-- Goals are kept in order, each once. -/
theorem insert_pairwise (g : Nat) (l : List Nat) (h : l.Pairwise (· < ·)) :
    (Sorted.insert Sorted.below g l).Pairwise (· < ·) := by
  have hbelow : ∀ m n, Sorted.below m n = true ↔ m < n := fun _ _ => decide_eq_true_iff
  induction l with
  | nil => exact List.pairwise_singleton _ _
  | cons k rest ih =>
    obtain ⟨hk, hrest⟩ := List.pairwise_cons.mp h
    unfold Sorted.insert
    split
    · next hgk =>
      have hlt := (hbelow g k).mp hgk
      refine List.pairwise_cons.mpr ⟨?_, h⟩
      intro m hm
      rcases List.mem_cons.mp hm with rfl | hm
      · exact hlt
      · exact Nat.lt_trans hlt (hk m hm)
    · split
      · next hkg =>
        refine List.pairwise_cons.mpr ⟨?_, ih hrest⟩
        intro m hm
        rcases (Sorted.mem_insert Sorted.below_total).mp hm with rfl | hm
        · exact (hbelow k m).mp hkg
        · exact hk m hm
      · exact h

theorem ofList_pairwise (goals : List GoalId) :
    (Sorted.ofList Sorted.below goals).Pairwise (· < ·) := by
  have hall : ∀ l : List Nat, l.Pairwise (· < ·) →
      (Sorted.insertAll Sorted.below goals l).Pairwise (· < ·) := by
    induction goals with
    | nil => exact fun _ h => h
    | cons g rest ih => exact fun l h => ih _ (insert_pairwise g l h)
  exact hall [] List.Pairwise.nil

theorem keys_ofGoals (goals : List GoalId) (capacity : Nat) :
    (ofGoals goals capacity).populations.map (·.1) = Sorted.ofList Sorted.below goals := by
  unfold ofGoals
  rw [List.map_map]
  exact List.map_id _

variable [WordSource ω]

/-- A draw is counted at one goal, or not at all. -/
theorem solution_archive (a : Archive) (w : ω) :
    (a.solution w).1.2 = a ∨ ∃ g, (a.solution w).1.2 = a.countDraw g := by
  have hgives : Draw.Gives (a.solution : Draw ω (Option Chromosome × Archive)) fun x =>
      x.2 = a ∨ ∃ g, x.2 = a.countDraw g := by
    unfold solution
    split
    · next g p _ => exact .bind (.any _) fun _ _ => .pure (Or.inr ⟨g, rfl⟩)
    · exact .bind (.any _) fun _ _ => .pure (Or.inl rfl)
  exact hgives w

theorem keys_perform (a : Archive) (call : ArchiveCall ω) :
    (a.perform call).populations.map (·.1) = a.populations.map (·.1) := by
  cases call with
  | update c e =>
    show (a.update c e).1.populations.map (·.1) = _
    cases hempty : c.isEmpty with
    | true =>
      unfold update
      rw [hempty, if_pos rfl]
    | false => rw [populations_update c e hempty, List.map_map]; rfl
  | solution w =>
    show (a.solution w).1.2.populations.map (·.1) = _
    rcases a.solution_archive w with heq | ⟨g, heq⟩
    · rw [heq]
    · rw [heq]
      unfold countDraw
      rw [List.map_map]
      rfl
  | solutions => rfl
  | shrink n =>
    show (a.shrink n).populations.map (·.1) = _
    unfold shrink
    rw [List.map_map]
    rfl

theorem keys_performAll (goals : List GoalId) (capacity : Nat) (calls : List (ArchiveCall ω)) :
    ((ofGoals goals capacity).performAll calls).populations.map (·.1) =
      Sorted.ofList Sorted.below goals := by
  rw [← keys_ofGoals goals capacity]
  unfold performAll
  generalize ofGoals goals capacity = a
  induction calls generalizing a with
  | nil => rfl
  | cons call rest ih => exact (ih _).trans (a.keys_perform call)

/-- Every goal has its population. -/
theorem exists_population (goals : List GoalId) (capacity : Nat) (calls : List (ArchiveCall ω))
    {g : GoalId} (hg : g ∈ goals) :
    ∃ p, (g, p) ∈ ((ofGoals goals capacity).performAll calls).populations := by
  have hmem : g ∈ Sorted.ofList Sorted.below goals :=
    (Sorted.mem_insertAll Sorted.below_total).mpr (Or.inl hg)
  rw [← keys_performAll goals capacity calls] at hmem
  obtain ⟨⟨_, p⟩, hp, rfl⟩ := List.mem_map.mp hmem
  exact ⟨p, hp⟩

theorem population?_performAll (goals : List GoalId) (capacity : Nat)
    (calls : List (ArchiveCall ω)) {g : GoalId} {p : Population}
    (hp : (g, p) ∈ ((ofGoals goals capacity).performAll calls).populations) :
    ((ofGoals goals capacity).performAll calls).population? g = some p := by
  refine lookup_of_mem _ g p ?_ hp
  rw [keys_performAll]
  exact (ofList_pairwise goals).imp Nat.ne_of_lt

/-! ## What populations come to -/

theorem capacity_update (a : Archive) (c : Chromosome) (e : Evaluation) :
    (a.update c e).1.capacity = a.capacity := by
  unfold update
  split <;> rfl

/-- A call does to every population what it does to the population of that goal alone. -/
theorem formed_perform (l : GoalId → List Entry) (call : ArchiveCall ω)
    (h : ∀ g p, (g, p) ∈ a.populations → Population.Formed m (l g) a.capacity p)
    (hm : m ≤ (a.perform call).capacity) (g : GoalId) (p : Population)
    (hp : (g, p) ∈ (a.perform call).populations) :
    Population.Formed m (l g ++ offered g [call]) (a.perform call).capacity p := by
  have hnone : call.offered g = none → l g ++ offered g [call] = l g := by
    intro hcall
    unfold SuiteSearch.offered
    rw [List.filterMap_cons_none hcall, List.filterMap_nil, List.append_nil]
  cases call with
  | update c e =>
    change (g, p) ∈ (a.update c e).1.populations at hp
    show Population.Formed m _ (a.update c e).1.capacity p
    cases hempty : c.isEmpty with
    | true =>
      have hsame : (a.update c e).1 = a := by
        unfold update
        rw [hempty, if_pos rfl]
      rw [hsame] at hp ⊢
      rw [hnone (if_pos hempty)]
      exact h g p hp
    | false =>
      obtain ⟨q, hq, rfl⟩ := (mem_populations_map _ (populations_update c e hempty) g p).mp hp
      have hcall : ArchiveCall.offered g (.update c e : ArchiveCall ω) =
          some ⟨e.value g, c.copy⟩ :=
        if_neg (Bool.eq_false_iff.mp hempty)
      have hone : offered g [(.update c e : ArchiveCall ω)] = [⟨e.value g, c.copy⟩] := by
        unfold SuiteSearch.offered
        rw [List.filterMap_cons_some hcall, List.filterMap_nil]
      rw [capacity_update, hone]
      exact .offer c (e.value g) (h g q hq) hempty
  | solution w =>
    change (g, p) ∈ (a.solution w).1.2.populations at hp
    show Population.Formed m _ (a.solution w).1.2.capacity p
    rw [hnone rfl]
    rcases a.solution_archive w with heq | ⟨k, heq⟩
    · rw [heq] at hp ⊢
      exact h g p hp
    · rw [heq] at hp ⊢
      obtain ⟨q, hq, rfl⟩ := (mem_populations_map _ rfl g p).mp hp
      dsimp only
      split
      · exact .draw _ (h g q hq)
      · exact h g q hq
  | solutions =>
    rw [hnone rfl]
    exact h g p hp
  | shrink n =>
    rw [hnone rfl]
    obtain ⟨q, hq, rfl⟩ := (mem_populations_map (fun x => x.2.shrink (max n 1)) rfl g p).mp hp
    exact .shrink (max n 1) (h g q hq) hm

/-- Every population is what the offers for its goal come to. -/
theorem formed_performAll (goals : List GoalId) (capacity : Nat) (calls : List (ArchiveCall ω))
    (hm : (ofGoals goals capacity).RoomFor m calls) (g : GoalId) (p : Population)
    (hp : (g, p) ∈ ((ofGoals goals capacity).performAll calls).populations) :
    Population.Formed m (offered g calls) ((ofGoals goals capacity).performAll calls).capacity
      p := by
  -- The induction is on the calls that are left; `l` is what was offered by the ones before.
  have hfrom : ∀ (a : Archive) (l : GoalId → List Entry), a.RoomFor m calls →
      (∀ g p, (g, p) ∈ a.populations → Population.Formed m (l g) a.capacity p) →
      ∀ g p, (g, p) ∈ (a.performAll calls).populations →
        Population.Formed m (l g ++ offered g calls) (a.performAll calls).capacity p := by
    clear hp hm
    induction calls with
    | nil =>
      intro a l _ h g p hp
      rw [show offered g ([] : List (ArchiveCall ω)) = [] from rfl, List.append_nil]
      exact h g p hp
    | cons call rest ih =>
      intro a l hm h g p hp
      have hrest := ih (a.perform call) (fun k => l k ++ offered k [call]) hm.2
        (formed_perform l call h hm.2.le_capacity) g p hp
      rwa [List.append_assoc, ← offered_append] at hrest
  refine hfrom _ (fun _ => []) hm ?_ g p hp
  intro g p hp
  obtain ⟨k, -, heq⟩ := List.mem_map.mp hp
  cases heq
  exact .empty _ hm.le_capacity

/-- There is always room for one candidate. -/
theorem roomFor_one (goals : List GoalId) (capacity : Nat) (calls : List (ArchiveCall ω)) :
    (ofGoals goals capacity).RoomFor 1 calls := by
  have hfrom : ∀ a : Archive, 1 ≤ a.capacity → a.RoomFor 1 calls := by
    induction calls with
    | nil => exact fun _ h => h
    | cons call rest ih =>
      intro a h
      refine ⟨h, ih _ ?_⟩
      cases call with
      | update c e =>
        show 1 ≤ (a.update c e).1.capacity
        rwa [capacity_update]
      | solution w =>
        show 1 ≤ (a.solution w).1.2.capacity
        rcases a.solution_archive w with heq | ⟨g, heq⟩
        · rwa [heq]
        · rwa [heq]
      | solutions => exact h
      | shrink n => exact Nat.le_max_right n 1
  exact hfrom _ (Nat.le_max_right capacity 1)

end Archive

end SuiteSearch
