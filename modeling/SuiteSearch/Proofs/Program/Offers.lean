import SuiteSearch.Program.Scope

/-!
# What the search in scope offers

Every value that `findCompatible` offers is the result of an earlier statement that is no store, an
element of an array allocated and written earlier, or what is reached from such a result through
fields that its class declares; and its type can stand where the value is needed.

    Reached c s i r t        r, of type t, is reached from the result of s at i
    Offer c ty before r      r can be offered where a value of type ty is needed
    pushCompatible_cases     what one statement offers
    mem_findCompatible       everything that is offered is such a value
-/

namespace SuiteSearch

/-- What is reached from the result of a statement at a position, and with which type. No fields are
read from a null. -/
inductive Reached (c : Cluster) (s : Statement) (i : Nat) : Ref → Ty → Prop
  | output : Reached c s i (s.output i) s.ty
  | field {r : Ref} {t : Ty} {f : Field} : Reached c s i r t → r.isNull = false →
      f ∈ c.accessibleFields t → Reached c s i (.field r f) f.ty

/-- What can be offered where a value of a type is needed. -/
inductive Offer (c : Cluster) (ty : Ty) (before : List Statement) : Ref → Prop
  | reached {i : Nat} {s : Statement} {r : Ref} {t : Ty} : before[i]? = some s →
      s.op.isStore = false → Reached c s i r t → c.isAssignable t ty = true → Offer c ty before r
  | element {i k n : Nat} {s : Statement} {component : Ty} : before[i]? = some s →
      s.op = .allocate n → s.ty = .array component → c.isAssignable component ty = true →
      Program.isInitialized before (.value i) k = true → Offer c ty before (.element (.value i) k)

namespace Program

/-- A fold that only adds what has a property. -/
theorem mem_foldl_of_push {α β : Type} {push : List β → α → List β} {P : β → Prop} (l : List α)
    (hpush : ∀ a ∈ l, ∀ out b, b ∈ push out a → b ∈ out ∨ P b) (out : List β) (b : β)
    (h : b ∈ l.foldl push out) : b ∈ out ∨ P b := by
  induction l generalizing out with
  | nil => exact Or.inl h
  | cons a rest ih =>
    rcases ih (fun a' ha' => hpush a' (List.mem_cons_of_mem a ha')) (push out a) h with h | h
    · exact hpush a List.mem_cons_self out b h
    · exact Or.inr h

theorem mem_pushFields (c : Cluster) (s : Statement) (i : Nat) (wanted : Ty → Bool) (depth : Nat)
    (r : Ref) (t : Ty) (out : List Ref) (x : Ref) (hr : Reached c s i r t)
    (h : x ∈ pushFields c wanted depth r t out) :
    x ∈ out ∨ ∃ t', Reached c s i x t' ∧ wanted t' = true := by
  induction depth generalizing r t out x with
  | zero => exact Or.inl h
  | succ depth ih =>
    unfold pushFields at h
    split at h
    · exact Or.inl h
    · next hguard =>
      have hnull : r.isNull = false := by
        rw [Bool.or_eq_true, not_or] at hguard
        exact Bool.eq_false_iff.mpr hguard.2
      refine mem_foldl_of_push (P := fun x => ∃ t', Reached c s i x t' ∧ wanted t' = true) _ ?_
        out x h
      intro f hf out x hx
      have hnext : Reached c s i (.field r f) f.ty := hr.field hnull hf
      dsimp only at hx
      rcases ih _ _ _ _ hnext hx with hx | hx
      · split at hx
        · next hwanted =>
          rcases List.mem_append.mp hx with hx | hx
          · exact Or.inl hx
          · obtain rfl := List.mem_singleton.mp hx
            rw [Bool.and_eq_true] at hwanted
            exact Or.inr ⟨f.ty, hnext, hwanted.1⟩
        · exact Or.inl hx
      · exact Or.inr hx

/-- What a statement offers for a type: nothing, or its result, or the written elements of a new
array, or fields of its result. -/
theorem pushCompatible_cases (c : Cluster) (ty : Ty) (s : Statement) (i : Nat) :
    (∀ before out, pushCompatible c ty before out (s, i) = out) ∨ s.op.isStore = false ∧
      ((c.isAssignable s.ty ty = true ∧
          ∀ before out, pushCompatible c ty before out (s, i) = out ++ [s.output i]) ∨
        (∃ n component, s.op = .allocate n ∧ s.ty = .array component ∧
          c.isAssignable component ty = true ∧
          ∀ before out, pushCompatible c ty before out (s, i) = out ++
            ((List.range n).filter (isInitialized before (.value i))).map (.element (.value i))) ∨
        ∀ before out, pushCompatible c ty before out (s, i) =
          pushFields c (c.isAssignable · ty) maxFieldDepth (s.output i) s.ty out) := by
  unfold pushCompatible
  dsimp only
  split
  · exact Or.inl fun _ _ => rfl
  · next hoffers =>
    have hstore : s.op.isStore = false := by
      have hall : isHashCode s = false ∧ s.ty.isVoid = false ∧ s.op.isStore = false := by
        simpa [offersValue] using hoffers
      exact hall.2.2
    split
    · next component hty =>
      split
      · next hassign =>
        rw [Bool.and_eq_true] at hassign
        exact Or.inr ⟨hstore, Or.inl ⟨hassign.2, fun _ _ => rfl⟩⟩
      · split
        · next n hop =>
          split
          · next hassign =>
            have hvalue : s.output i = .value i := by
              rw [Statement.output, hop]
              rfl
            rw [hvalue]
            exact Or.inr ⟨hstore, Or.inr (Or.inl ⟨n, component, hop, hty, hassign, fun _ _ => rfl⟩)⟩
          · exact Or.inl fun _ _ => rfl
        · exact Or.inl fun _ _ => rfl
    · split
      · next hassign =>
        rw [Bool.and_eq_true] at hassign
        exact Or.inr ⟨hstore, Or.inl ⟨hassign.1, fun _ _ => rfl⟩⟩
      · exact Or.inr ⟨hstore, Or.inr (Or.inr fun _ _ => rfl)⟩

theorem mem_pushCompatible (c : Cluster) (ty : Ty) (before : List Statement) (s : Statement)
    (i : Nat) (out : List Ref) (x : Ref) (hs : before[i]? = some s)
    (h : x ∈ pushCompatible c ty before out (s, i)) : x ∈ out ∨ Offer c ty before x := by
  rcases pushCompatible_cases c ty s i with
    heq | ⟨hstore, ⟨hassign, heq⟩ | ⟨n, component, hop, hty, hassign, heq⟩ | heq⟩
  · rw [heq] at h
    exact Or.inl h
  · rw [heq] at h
    refine (List.mem_append.mp h).imp_right fun h => ?_
    rw [List.mem_singleton.mp h]
    exact .reached hs hstore .output hassign
  · rw [heq] at h
    refine (List.mem_append.mp h).imp_right fun h => ?_
    obtain ⟨k, hk, rfl⟩ := List.mem_map.mp h
    exact .element hs hop hty hassign (List.mem_filter.mp hk).2
  · rw [heq] at h
    refine (mem_pushFields c s i _ _ _ _ out x .output h).imp_right ?_
    rintro ⟨t, hr, ht⟩
    exact .reached hs hstore hr ht

/-- Everything that the search offers is a value that can be offered. -/
theorem mem_findCompatible (p : Program) (c : Cluster) (ty : Ty) (position : Nat)
    (f : CandidateFilter) (r : Ref) (h : r ∈ p.findCompatible c ty position f) :
    Offer c ty (p.statements.take position) r := by
  have h := (List.mem_filter.mp h).1
  refine (mem_foldl_of_push (P := Offer c ty (p.statements.take position)) _ ?_ [] r h).resolve_left
    List.not_mem_nil
  rintro ⟨s, i⟩ hsi out x hx
  exact mem_pushCompatible c ty _ s i out x (List.mk_mem_zipIdx_iff_getElem?.mp hsi) hx

end Program

end SuiteSearch
