import SuiteSearch.Generation.Selection
import SuiteSearch.Proofs.Random.Outcome

/-!
# Selectors stay in scope

The random and the guided selector only give what the search in scope offers, whatever the text
service answers.

    Offers c selector            every value that is given is offered for the type at the position
    OffersNonNull c selector     and so by the search that leaves out nulls
-/

namespace SuiteSearch

variable {ω : Type}

/-- Whatever an attempt gives, a retried attempt gives. -/
theorem RetryPolicy.run_gives {ε α : Type} (policy : RetryPolicy) (hooks : RetryHooks ω)
    (render : ε → String) (op : Nat → StateM ω (Except ε α)) (Q : α → Prop)
    (hop : ∀ attempt, Draw.Gives (op attempt) fun r => ∀ a, r = .ok a → Q a) :
    Draw.Gives (policy.run hooks render op) fun r => ∀ a, r = .ok a → Q a := by
  have hfrom : ∀ left attempt, Draw.Gives (policy.runFrom hooks render op left attempt)
      fun r => ∀ a, r = .ok a → Q a := by
    intro left
    induction left with
    | zero =>
      intro attempt
      unfold runFrom
      refine (hop attempt).bind fun r hr => ?_
      cases r with
      | ok a => exact .pure fun a' ha' => hr a' (by cases ha'; rfl)
      | error e => exact (Draw.Gives.any _).bind fun _ _ => .pure nofun
    | succ left ih =>
      intro attempt
      unfold runFrom
      refine (hop attempt).bind fun r hr => ?_
      cases r with
      | ok a => exact .pure fun a' ha' => hr a' (by cases ha'; rfl)
      | error e =>
        refine (Draw.Gives.any _).bind fun _ _ => ?_
        exact (Draw.Gives.any _).bind fun _ _ => ih (attempt + 1)
  exact hfrom _ 1

namespace Selector

/-- A selector that only gives values that are in scope. -/
def Offers (c : Cluster) (selector : Selector ω) : Prop :=
  ∀ (p : Program) (ty : Ty) (position : Nat),
    Draw.Gives (selector p ty position) fun r? =>
      ∀ r, r? = .ok r → ∃ f, r ∈ p.findCompatible c ty position f

/-- A selector that only gives values that are in scope and no nulls. -/
def OffersNonNull (c : Cluster) (selector : Selector ω) : Prop :=
  ∀ (p : Program) (ty : Ty) (position : Nat),
    Draw.Gives (selector p ty position) fun r? =>
      ∀ r, r? = .ok r → r ∈ p.findCompatible c ty position .nonNull

theorem OffersNonNull.offers {c : Cluster} {selector : Selector ω}
    (h : selector.OffersNonNull c) : selector.Offers c :=
  fun p ty position w r hr => ⟨.nonNull, h p ty position w r hr⟩

/-- A reply names a candidate by its number. -/
theorem candidateOf_eq_ok_iff {candidates : List Ref} {reply : String} {r : Ref} {i : Nat} :
    candidateOf candidates reply = .ok (r, i) ↔
      Prompt.parseIndex? reply = some i ∧ candidates[i]? = some r := by
  unfold candidateOf
  constructor
  · intro h
    split at h
    · cases h
    · next hindex =>
      split at h
      · cases h
      · next hget =>
        cases h
        exact ⟨hindex, hget⟩
  · rintro ⟨hindex, hget⟩
    rw [hindex]
    dsimp only
    rw [hget]

theorem ask_gives (service : TextService ω) (prompt : String) (candidates : List Ref)
    (attempt : Nat) : Draw.Gives (ask service prompt candidates attempt)
      fun r? => ∀ r, r? = .ok r → r ∈ candidates := by
  unfold ask
  refine (Draw.Gives.any _).bind fun reply _ => ?_
  cases reply with
  | error e => exact .pure nofun
  | ok reply =>
    dsimp only
    split
    · exact .pure nofun
    · next r i hcandidate =>
      refine (Draw.Gives.any _).bind fun _ _ => .pure ?_
      rintro _ ⟨⟩
      exact List.mem_of_getElem? (candidateOf_eq_ok_iff.mp hcandidate).2

variable [WordSource ω]

theorem chooseFrom_gives (candidates : List Ref) (ty : Ty) (position : Nat) :
    Draw.Gives (chooseFrom candidates ty position : StateM ω (Except Error Ref))
      fun r? => ∀ r, r? = .ok r → r ∈ candidates := by
  unfold chooseFrom
  refine (Draw.Gives.choose candidates).bind fun r? hr => ?_
  cases r? with
  | none => exact .pure nofun
  | some r =>
    refine .pure ?_
    rintro _ ⟨⟩
    exact hr r rfl

theorem filtered_offers (c : Cluster) (f : CandidateFilter) :
    (filtered c f : Selector ω).Offers c :=
  fun _ ty position w r hr => ⟨f, chooseFrom_gives _ ty position w r hr⟩

theorem random_offersNonNull (c : Cluster) : (random c : Selector ω).OffersNonNull c :=
  fun _ ty position => chooseFrom_gives _ ty position

theorem random_offers (c : Cluster) : (random c : Selector ω).Offers c := filtered_offers c .nonNull

/-- Whatever the service answers, a guided choice is one of the candidates. -/
theorem guided_offersNonNull (c : Cluster) (service : TextService ω) (policy : RetryPolicy) :
    (guided c service policy).OffersNonNull c := by
  intro p ty position
  unfold guided
  dsimp only
  split
  · exact .pure nofun
  · refine (policy.run_gives _ _ _ _ fun attempt => ask_gives service _ _ attempt).bind
      fun r? hr => ?_
    cases r? with
    | ok r =>
      refine .pure ?_
      rintro _ ⟨⟩
      exact hr r rfl
    | error exhausted =>
      exact (Draw.Gives.any _).bind fun _ _ => chooseFrom_gives _ ty position

theorem guided_offers (c : Cluster) (service : TextService ω) (policy : RetryPolicy) :
    (guided c service policy).Offers c :=
  (guided_offersNonNull c service policy).offers

end Selector

end SuiteSearch
