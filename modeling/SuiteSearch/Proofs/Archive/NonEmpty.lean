import SuiteSearch.Proofs.Archive.History

/-!
# Archives that hold something

What an archive has taken it never loses altogether: an entry makes way only for one that is put in
at once, and at least one stays. From an archive that holds something a candidate can be drawn, and
it is no empty one, since none was ever offered.

    performAll_isEmpty          something is there, and stays
    solution_of_not_isEmpty     something is drawn, a fresh copy of what is kept
-/

namespace SuiteSearch

/-! ## Populations -/

namespace Population

variable {m k : Nat} {l : List Entry} {p : Population}

theorem enter_isSome {e : Entry} (h : l.length < k) : (enter l e k).isSome = true := by
  unfold enter
  rw [decide_eq_true h, Bool.true_or, if_pos rfl]
  rfl

/-- An offer is refused, covers the goal, or is put in among entries that were there. An entry that
makes way leaves its place, so that the new one is not refused then. -/
theorem offer_cases (hroom : p.entries.length ≤ k) (c : Chromosome) (x : Float) :
    p.offer c x k = (p, false) ∨ p.offer c x k = (⟨some c.copy, [], 0⟩, true) ∨
      ∃ others entries, enter others ⟨x, c.copy⟩ k = some entries ∧
        p.offer c x k = (⟨p.covering, entries, 0⟩, true) := by
  unfold offer
  split
  · unfold offerCovering
    split
    · exact Or.inr (Or.inl rfl)
    · exact Or.inl rfl
  · unfold offerPartial
    split
    · exact Or.inl rfl
    · dsimp only
      split
      · next old hold =>
        split
        · exact Or.inl rfl
        · have hmem := List.mem_of_find?_eq_some hold
          have hshorter := List.length_eraseP_of_mem hmem (List.find?_some hold)
          have hpos := List.length_pos_of_mem hmem
          have hfree : (p.entries.eraseP fun f =>
              f.chromosome.program.sameStatements c.program).length < k := by omega
          obtain ⟨entries, henter⟩ :=
            Option.isSome_iff_exists.mp (enter_isSome (e := ⟨x, c.copy⟩) hfree)
          rw [henter]
          exact Or.inr (Or.inr ⟨_, entries, henter, rfl⟩)
      · split
        · next entries henter => exact Or.inr (Or.inr ⟨_, entries, henter, rfl⟩)
        · exact Or.inl rfl

theorem length_enter_le {entries : List Entry} {e : Entry} (h : enter l e k = some entries) :
    entries.length ≤ k := by
  unfold enter at h
  split at h
  · obtain rfl := Option.some.inj h
    exact List.length_take_le k _
  · cases h

theorem Formed.room (h : p.Formed m l k) : p.entries.length ≤ k := by
  induction h with
  | empty k _ => exact Nat.zero_le k
  | @offer l k p c x _ _ ih =>
    rcases offer_cases ih c x with heq | heq | ⟨others, entries, henter, heq⟩
    · rwa [heq]
    · rw [heq]
      exact Nat.zero_le k
    · rw [heq]
      exact length_enter_le henter
  | draw n _ ih => exact ih
  | shrink n _ _ _ => exact List.length_take_le n _

/-- The candidate is kept for the goal. -/
def Retains (p : Population) (c : Chromosome) : Prop :=
  p.covering = some c ∨ ∃ e ∈ p.entries, e.chromosome = c

/-- What is kept after an offer was kept before, or was offered. -/
theorem retains_offer {c d : Chromosome} {x : Float} (h : (p.offer d x k).1.Retains c) :
    p.Retains c ∨ c = d.copy := by
  rcases h with h | ⟨e, he, rfl⟩
  · rcases p.covering_offer d x k c h with hold | ⟨-, rfl⟩
    · exact Or.inl (Or.inl hold)
    · exact Or.inr rfl
  · rcases p.mem_entries_offer d x k e he with hold | ⟨-, rfl⟩
    · exact Or.inl (Or.inr ⟨e, hold, rfl⟩)
    · exact Or.inr rfl

theorem retains_shrink {c : Chromosome} {n : Nat} (h : (p.shrink n).Retains c) : p.Retains c := by
  refine h.imp id ?_
  rintro ⟨e, he, rfl⟩
  exact ⟨e, List.mem_of_mem_take he, rfl⟩

/-- No empty program is kept. -/
theorem Formed.retained (h : p.Formed m l k) {c : Chromosome} (hc : p.Retains c) :
    c.isEmpty = false := by
  induction h with
  | empty k _ =>
    rcases hc with hc | ⟨e, he, -⟩
    · cases hc
    · cases he
  | offer d x _ hd ih =>
    rcases retains_offer hc with hold | rfl
    · exact ih hold
    · exact hd
  | draw n _ ih => exact ih hc
  | shrink n _ _ ih => exact ih (retains_shrink hc)

theorem isEmpty_eq_false_iff : p.isEmpty = false ↔ p.covering.isSome = true ∨ p.entries ≠ [] := by
  unfold isEmpty
  cases p.covering <;> simp

theorem enter_ne_nil {entries : List Entry} {e : Entry} (h : enter l e k = some entries)
    (hk : 0 < k) : entries ≠ [] := by
  unfold enter at h
  split at h
  · obtain rfl := Option.some.inj h
    have hne : e.insert l ≠ [] := by
      cases l with
      | nil => exact List.cons_ne_nil _ _
      | cons f rest =>
        unfold Entry.insert
        split <;> exact List.cons_ne_nil _ _
    intro hnil
    rcases List.take_eq_nil_iff.mp hnil with hzero | hnil
    · omega
    · exact hne hnil
  · cases h

/-- Something is there after an offer if it was there before, or if the offer was taken. -/
theorem offer_isEmpty (hk : 0 < k) (hroom : p.entries.length ≤ k) (c : Chromosome) (x : Float)
    (h : p.isEmpty = false ∨ (p.offer c x k).2 = true) : (p.offer c x k).1.isEmpty = false := by
  rcases offer_cases hroom c x with heq | heq | ⟨others, entries, henter, heq⟩
  · rw [heq] at h ⊢
    exact h.elim id nofun
  · rw [heq]
    rfl
  · rw [heq]
    exact isEmpty_eq_false_iff.mpr (Or.inr (enter_ne_nil henter hk))

theorem shrink_isEmpty {n : Nat} (hn : 0 < n) (h : p.isEmpty = false) :
    (p.shrink n).isEmpty = false := by
  rw [isEmpty_eq_false_iff] at h ⊢
  refine h.imp id fun hne hnil => ?_
  rcases List.take_eq_nil_iff.mp hnil with hzero | hnil
  · omega
  · exact hne hnil

end Population

/-! ## Archives -/

namespace Archive

variable {ω : Type} [WordSource ω] {a : Archive}

/-- The candidate is kept for some goal. -/
def Retains (a : Archive) (c : Chromosome) : Prop :=
  ∃ g p, (g, p) ∈ a.populations ∧ p.Retains c

theorem isEmpty_eq_false_iff (a : Archive) :
    a.isEmpty = false ↔ ∃ g p, (g, p) ∈ a.populations ∧ p.isEmpty = false := by
  unfold isEmpty
  rw [List.all_eq_false]
  constructor
  · rintro ⟨⟨g, p⟩, hp, hne⟩
    exact ⟨g, p, hp, Bool.eq_false_iff.mpr hne⟩
  · rintro ⟨g, p, hp, hne⟩
    exact ⟨(g, p), hp, Bool.eq_false_iff.mp hne⟩

/-- A history of calls leads to the archive. -/
def HasHistory (ω : Type) [WordSource ω] (a : Archive) : Prop :=
  ∃ (goals : List GoalId) (capacity : Nat) (calls : List (ArchiveCall ω)),
    a = (ofGoals goals capacity).performAll calls

theorem HasHistory.perform (h : a.HasHistory ω) (call : ArchiveCall ω) :
    (a.perform call).HasHistory ω := by
  obtain ⟨goals, capacity, calls, rfl⟩ := h
  refine ⟨goals, capacity, calls ++ [call], ?_⟩
  rw [performAll_append]
  rfl

theorem HasHistory.formed (h : a.HasHistory ω) {g : GoalId} {p : Population}
    (hp : (g, p) ∈ a.populations) : ∃ l, p.Formed 1 l a.capacity := by
  obtain ⟨goals, capacity, calls, rfl⟩ := h
  exact ⟨_, formed_performAll goals capacity calls (roomFor_one goals capacity calls) g p hp⟩

/-- What has taken an offer, or held something before, holds something. -/
theorem HasHistory.update_isEmpty (h : a.HasHistory ω) (c : Chromosome) (e : Evaluation)
    (hbefore : a.isEmpty = false ∨ (a.update c e).2 = true) :
    (a.update c e).1.isEmpty = false := by
  cases hempty : c.isEmpty with
  | true =>
    unfold update at hbefore ⊢
    rw [hempty, if_pos rfl] at hbefore ⊢
    exact hbefore.elim id nofun
  | false =>
    rw [isEmpty_eq_false_iff]
    have hmem := mem_populations_map _ (populations_update (a := a) c e hempty)
    obtain ⟨g, p, hp, htaken⟩ : ∃ g p, (g, p) ∈ a.populations ∧
        (p.isEmpty = false ∨ (p.offer c (e.value g) a.capacity).2 = true) := by
      rcases hbefore with hbefore | htaken
      · obtain ⟨g, p, hp, hne⟩ := (a.isEmpty_eq_false_iff).mp hbefore
        exact ⟨g, p, hp, Or.inl hne⟩
      · unfold update at htaken
        rw [hempty, if_neg Bool.false_ne_true] at htaken
        obtain ⟨x, hx, hx2⟩ := List.any_eq_true.mp htaken
        obtain ⟨⟨g, p⟩, hp, rfl⟩ := List.mem_map.mp hx
        exact ⟨g, p, hp, Or.inr hx2⟩
    obtain ⟨l, hformed⟩ := h.formed hp
    exact ⟨g, _, (hmem g _).mpr ⟨p, hp, rfl⟩,
      Population.offer_isEmpty hformed.le_capacity hformed.room c (e.value g) htaken⟩

omit [WordSource ω] in
/-- Counting a draw takes nothing away. -/
theorem isEmpty_countDraw (a : Archive) (g : GoalId) : (a.countDraw g).isEmpty = a.isEmpty := by
  unfold countDraw isEmpty
  rw [List.all_map]
  congr 1
  funext x
  dsimp only [Function.comp_apply]
  split <;> rfl

theorem isEmpty_solution (a : Archive) (w : ω) : (a.solution w).1.2.isEmpty = a.isEmpty := by
  rcases a.solution_archive w with heq | ⟨g, heq⟩
  · rw [heq]
  · rw [heq, isEmpty_countDraw]

theorem HasHistory.perform_isEmpty (h : a.HasHistory ω) (call : ArchiveCall ω)
    (hbefore : a.isEmpty = false) : (a.perform call).isEmpty = false := by
  cases call with
  | update c e => exact h.update_isEmpty c e (Or.inl hbefore)
  | solution w => exact (a.isEmpty_solution w).trans hbefore
  | solutions => exact hbefore
  | shrink n =>
    obtain ⟨g, p, hp, hne⟩ := a.isEmpty_eq_false_iff.mp hbefore
    rw [isEmpty_eq_false_iff]
    refine ⟨g, _,
      (mem_populations_map (fun x => x.2.shrink (max n 1)) rfl g _).mpr ⟨p, hp, rfl⟩, ?_⟩
    exact Population.shrink_isEmpty (by omega) hne

/-- What an archive holds it never loses altogether. -/
theorem HasHistory.performAll_isEmpty (h : a.HasHistory ω) (calls : List (ArchiveCall ω))
    (hbefore : a.isEmpty = false) : (a.performAll calls).isEmpty = false := by
  induction calls generalizing a with
  | nil => exact hbefore
  | cons call rest ih => exact ih (h.perform call) (h.perform_isEmpty call hbefore)

/-! ## Draws -/

/-- A fold that keeps what it has or takes the element at hand ends with one of them. -/
theorem foldl_chooses {α : Type} (step : Option α → α → Option α)
    (hstep : ∀ o x, step o x = o ∨ step o x = some x) (l : List α) (o : Option α) (x : α)
    (h : l.foldl step o = some x) : o = some x ∨ x ∈ l := by
  induction l generalizing o with
  | nil => exact Or.inl h
  | cons y rest ih =>
    rcases ih _ h with h | h
    · rcases hstep o y with heq | heq
      · exact Or.inl (heq.symm.trans h)
      · obtain rfl := Option.some.inj (heq.symm.trans h)
        exact Or.inr List.mem_cons_self
    · exact Or.inr (List.mem_cons_of_mem y h)

/-- A fold that always has something after a step ends with something. -/
theorem foldl_isSome {α : Type} (step : Option α → α → Option α)
    (hstep : ∀ o x, (step o x).isSome = true) (l : List α) (o : Option α)
    (h : o.isSome = true ∨ l ≠ []) : (l.foldl step o).isSome = true := by
  induction l generalizing o with
  | nil => exact h.elim id fun hne => absurd rfl hne
  | cons y rest ih => exact ih _ (Or.inl (hstep o y))

/-- What is drawn from is open. -/
theorem mem_of_leastDrawn? (x : GoalId × Population) (h : a.leastDrawn? = some x) :
    x ∈ a.populations ∧ x.2.isOpen = true := by
  refine List.mem_filter.mp ((foldl_chooses _ ?_ _ none x h).elim nofun id)
  intro o y
  cases o with
  | none => exact Or.inr rfl
  | some z =>
    dsimp only
    split
    · exact Or.inr rfl
    · exact Or.inl rfl

/-- If nothing is drawn from, nothing is open. -/
theorem isOpen_of_leastDrawn?_eq_none (h : a.leastDrawn? = none) {g : GoalId} {p : Population}
    (hp : (g, p) ∈ a.populations) : p.isOpen = false := by
  rw [← Bool.not_eq_true]
  intro hopen
  have hsome : a.leastDrawn?.isSome = true := by
    refine foldl_isSome _ ?_ _ none (Or.inr ?_)
    · intro o x
      cases o with
      | none => rfl
      | some y =>
        dsimp only
        split <;> rfl
    · exact List.ne_nil_of_mem (List.mem_filter.mpr ⟨hp, hopen⟩)
  rw [h] at hsome
  cases hsome

theorem choose_isSome {α : Type} {l : List α} (h : l ≠ []) (w : ω) :
    ∃ x ∈ l, (Draw.choose l w).1 = some x := by
  cases hx : (Draw.choose l w).1 with
  | none => exact absurd ((Draw.choose_eq_none l w).mp hx) h
  | some x => exact ⟨x, Draw.mem_of_choose l w hx, rfl⟩

/-- From an archive that holds something a copy of what it keeps is drawn. -/
theorem exists_solution (h : a.isEmpty = false) (w : ω) :
    ∃ c, a.Retains c ∧ (a.solution w).1.1 = some c.freshCopy := by
  unfold solution
  cases hleast : a.leastDrawn? with
  | some x =>
    obtain ⟨g, p⟩ := x
    obtain ⟨hp, hopen⟩ := mem_of_leastDrawn? (g, p) hleast
    have hne : p.entries ≠ [] := by
      unfold Population.isOpen at hopen
      simp at hopen
      exact hopen.2
    obtain ⟨e, he, hdrawn⟩ := choose_isSome hne w
    refine ⟨e.chromosome, ⟨g, p, hp, Or.inr ⟨e, he, rfl⟩⟩, ?_⟩
    show Option.map (·.chromosome.freshCopy) (Draw.choose p.entries w).1 = _
    rw [hdrawn]
    rfl
  | none =>
    obtain ⟨g, p, hp, hne⟩ := a.isEmpty_eq_false_iff.mp h
    have hclosed := isOpen_of_leastDrawn?_eq_none hleast hp
    have hcovered : p.covering.isSome = true := by
      unfold Population.isEmpty at hne
      unfold Population.isOpen at hclosed
      cases hc : p.covering with
      | some c => rfl
      | none =>
        rw [hc] at hne hclosed
        rw [Option.isNone_none, Bool.true_and] at hne hclosed
        rw [hne] at hclosed
        cases hclosed
    obtain ⟨c, hc⟩ := Option.isSome_iff_exists.mp hcovered
    have hne : a.covering ≠ [] := List.ne_nil_of_mem ((mem_covering a c).mpr ⟨g, p, hp, hc⟩)
    obtain ⟨d, hd, hdrawn⟩ := choose_isSome hne w
    obtain ⟨g', p', hp', hd'⟩ := (mem_covering a d).mp hd
    refine ⟨d, ⟨g', p', hp', Or.inl hd'⟩, ?_⟩
    show Option.map (·.freshCopy) (Draw.choose a.covering w).1 = _
    rw [hdrawn]
    rfl

/-- What is drawn is a copy of what is kept. -/
theorem retains_of_solution {w : ω} {c : Chromosome} (h : (a.solution w).1.1 = some c) :
    ∃ old, a.Retains old ∧ c = old.freshCopy := by
  have hgives : Draw.Gives (a.solution : Draw ω (Option Chromosome × Archive)) fun x =>
      ∀ c, x.1 = some c → ∃ old, a.Retains old ∧ c = old.freshCopy := by
    unfold solution
    split
    · next g p hleast =>
      refine .bind (.choose p.entries) fun e? he => .pure ?_
      intro c hc
      obtain ⟨e, rfl, rfl⟩ := Option.map_eq_some_iff.mp hc
      have hp := (mem_of_leastDrawn? (g, p) hleast).1
      exact ⟨e.chromosome, ⟨g, p, hp, Or.inr ⟨e, he e rfl, rfl⟩⟩, rfl⟩
    · refine .bind (.choose a.covering) fun old? hold => .pure ?_
      intro c hc
      obtain ⟨old, rfl, rfl⟩ := Option.map_eq_some_iff.mp hc
      obtain ⟨g, p, hp, hcovering⟩ := (mem_covering a old).mp (hold old rfl)
      exact ⟨old, ⟨g, p, hp, Or.inl hcovering⟩, rfl⟩
  exact hgives w c h

/-- Whatever an archive is asked for, it keeps what it kept or what it is offered. -/
theorem retains_update {c d : Chromosome} {e : Evaluation} (h : (a.update d e).1.Retains c) :
    a.Retains c ∨ c = d.copy := by
  cases hempty : d.isEmpty with
  | true =>
    unfold update at h
    rw [hempty, if_pos rfl] at h
    exact Or.inl h
  | false =>
    obtain ⟨g, p, hp, hc⟩ := h
    obtain ⟨q, hq, rfl⟩ := (mem_populations_map _ (populations_update d e hempty) g p).mp hp
    exact (Population.retains_offer hc).imp (fun hold => ⟨g, q, hq, hold⟩) id

theorem retains_solution {c : Chromosome} {w : ω} (h : (a.solution w).1.2.Retains c) :
    a.Retains c := by
  rcases a.solution_archive w with heq | ⟨g, heq⟩
  · rwa [heq] at h
  · rw [heq] at h
    obtain ⟨k, p, hp, hc⟩ := h
    obtain ⟨q, hq, rfl⟩ := (mem_populations_map _ rfl k p).mp hp
    refine ⟨k, q, hq, ?_⟩
    dsimp only at hc
    split at hc
    · exact hc
    · exact hc

theorem retains_shrink {c : Chromosome} {n : Nat} (h : (a.shrink n).Retains c) : a.Retains c := by
  obtain ⟨g, p, hp, hc⟩ := h
  obtain ⟨q, hq, rfl⟩ := (mem_populations_map (fun x => x.2.shrink (max n 1)) rfl g p).mp hp
  exact ⟨g, q, hq, Population.retains_shrink hc⟩

theorem HasHistory.retained (h : a.HasHistory ω) {c : Chromosome} (hc : a.Retains c) :
    c.isEmpty = false := by
  obtain ⟨g, p, hp, hc⟩ := hc
  obtain ⟨l, hformed⟩ := h.formed hp
  exact hformed.retained hc

end Archive

end SuiteSearch
