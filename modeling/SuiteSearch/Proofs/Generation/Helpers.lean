import SuiteSearch.Proofs.Generation.Building

/-!
# Values made for a use

What the steps of an insertion come to, from the choice of one value up to the use of a member.
The bounds say how many statements a step puts in at most.

    width c              the greatest number of values that the use of a member takes
    reach c depth        the statements for one value, with new objects nested `depth` deep
-/

namespace SuiteSearch.Inserter

open Build

/-! ## Algorithm -/

/-- The greatest number of values that the use of a member takes. -/
def width (c : Cluster) : Nat := (c.members.map (·.needs.length)).foldr max 0

/-- The greatest number of statements that are put in for one value. -/
def reach (c : Cluster) : Nat → Nat
  | 0 => 1
  | depth + 1 => max (maxArrayLength * (reach c depth + 1)) (width c * reach c depth) + 2

/-- The last resort: a typed null, where one is allowed. -/
def lastResort {ω : Type} (ty : Ty) (allowNull : Bool) : Build ω Ref :=
  if allowNull && !ty.isPrimitive then place (.null ty)
  else do throw (.construction (.unsatisfied ty.render (← cursor)))

/-! ## Lemmas -/

theorem length_needs_le (c : Cluster) (m : Member) (h : m ∈ c.members) :
    m.needs.length ≤ width c := by
  unfold width
  generalize c.members = l at h
  induction l with
  | nil => cases h
  | cons m' rest ih =>
    rw [List.map_cons, List.foldr_cons]
    rcases List.mem_cons.mp h with rfl | h
    · omega
    · have := ih h
      omega

variable {c : Cluster} {ω : Type} {D : Discipline c} {reuse : Float} {before : List Statement}

section Uses
variable {satisfy : Ty → Bool → Build ω Ref} {n : Nat}
  (hsatisfy : ∀ before ty allowNull, D.asks ty →
    Meets D reuse n before (satisfy ty allowNull) fun l r => D.fits l ty r)
include hsatisfy

theorem meets_satisfyAll (types : List Ty) (hasks : ∀ ty ∈ types, D.asks ty)
    (before : List Statement) :
    Meets D reuse (types.length * n) before (satisfyAll satisfy types)
      fun l rs => List.Forall₂ (D.fits l) types rs := by
  induction types generalizing before with
  | nil => exact Meets.pure List.Forall₂.nil
  | cons ty rest ih =>
    rw [List.length_cons, Nat.succ_mul, Nat.add_comm]
    refine (hsatisfy before ty true (hasks ty List.mem_cons_self)).bind fun new r _ hr => ?_
    have hrest := ih (fun t ht => hasks t (List.mem_cons_of_mem ty ht)) (before ++ new)
    refine Meets.mono (m := rest.length * n + 0) (hrest.bind fun more rs _ hrs => ?_) (by omega)
    exact Meets.pure (List.Forall₂.cons (D.fits_append hr) hrs)

theorem meets_receiver (before : List Statement) (isStatic : Bool) (ty : Ty)
    (hasks : isStatic = false → D.asks ty) :
    Meets D reuse (if isStatic then 0 else n) before (receiver satisfy isStatic ty)
      fun l r => Member.Received (D.fits l) isStatic ty r := by
  cases isStatic with
  | true => exact Meets.pure rfl
  | false =>
    refine Meets.mono (m := n + 0) ?_ (Nat.le_refl n)
    refine (hsatisfy before ty false (hasks rfl)).bind fun new r _ hr => ?_
    exact Meets.pure ⟨rfl, hr⟩

/-- The use of a member comes last, with values that fit. -/
theorem meets_addMember (m : Member) (hm : m ∈ c.members) (before : List Statement) :
    Meets D reuse (m.needs.length * n + 1) before (addMember satisfy m)
      fun l r => ∃ new s, l = before ++ new ++ [s] ∧ m.Applied (D.fits (before ++ new)) s ∧
        r = s.output (before ++ new).length := by
  have hasks : ∀ ty ∈ m.needs, D.asks ty := fun ty hty => D.asks_need hm hty
  cases m with
  | constructor k =>
    refine (meets_satisfyAll hsatisfy k.params hasks before).bind fun new args _ hargs => ?_
    have happlied := Member.Applied.constructor (k := k) hargs
    exact Meets.place _ (.member hm happlied) ⟨_, _, rfl, happlied, rfl⟩
  | method m =>
    have hreceiver := meets_receiver hsatisfy before m.isStatic m.declaring
      fun h => hasks _ (by simp [Member.needs, h])
    have hparams : ∀ ty ∈ m.params, D.asks ty := fun ty h => hasks ty (List.mem_append_right _ h)
    refine Meets.mono (m := (if m.isStatic then 0 else n) + (m.params.length * n + 1)) ?_ ?_
    · refine hreceiver.bind fun new callee _ hcallee => ?_
      refine (meets_satisfyAll hsatisfy m.params hparams _).bind fun more args _ hargs => ?_
      have happlied := Member.Applied.method (hcallee.mono fun _ => D.fits_append) hargs
      rw [List.append_assoc] at happlied ⊢
      exact Meets.place _ (.member hm happlied) ⟨_, _, rfl, happlied, rfl⟩
    · cases h : m.isStatic with
      | false =>
        simp only [Member.needs, h, Bool.false_eq_true, if_false, List.singleton_append,
          List.length_cons, Nat.succ_mul]
        omega
      | true => simp [Member.needs, h]
  | field f =>
    have hreceiver := meets_receiver hsatisfy before f.isStatic f.declaring
      fun h => hasks _ (by simp [Member.needs, h])
    refine Meets.mono (m := (if f.isStatic then 0 else n) + 1) ?_ ?_
    · refine hreceiver.bind fun new source _ hsource => ?_
      have happlied := Member.Applied.field hsource
      exact Meets.place _ (.member hm happlied) ⟨_, _, rfl, happlied, rfl⟩
    · cases h : f.isStatic <;> simp [Member.needs, h]

theorem meets_fillElement (a : Nat) (t : Ty) (i : Nat) (s : Statement) (before : List Statement)
    (hget : before[a]? = some s) (hty : s.ty = .array t) (hstore : s.op.isStore = false)
    (hnull : s.op.isNullLiteral = false) (hasks : D.asks t) :
    Meets D reuse (n + 1) before (fillElement satisfy (.value a) t i) fun _ _ => True := by
  refine Meets.recover (pure ()) (hsatisfy before t true hasks) ?_ ?_ ?_
  · intro new r _ hr
    have hgood : D.Good (before ++ new) (.store (.value a) i r t) := by
      refine .store ?_ hty hstore hnull hr
      rw [List.getElem?_append_left (List.getElem?_eq_some_iff.mp hget).1]
      exact hget
    refine Meets.mono (m := 1 + 0) ?_ (Nat.le_refl 1)
    exact (Meets.place (Q := fun _ _ => True) _ hgood True.intro).bind fun _ _ _ _ =>
      Meets.pure True.intro
  · intro e
    refine Or.inl ?_
    funext d
    rw [step_bind]
    rfl
  · exact Meets.pure True.intro

theorem meets_fillElements (a : Nat) (t : Ty) (s : Statement) (hty : s.ty = .array t)
    (hstore : s.op.isStore = false) (hnull : s.op.isNullLiteral = false) (hasks : D.asks t)
    (indices : List Nat) (before : List Statement) (hget : before[a]? = some s) :
    Meets D reuse (indices.length * (n + 1)) before (fillElements satisfy (.value a) t indices)
      fun _ _ => True := by
  induction indices generalizing before with
  | nil => exact Meets.pure True.intro
  | cons i rest ih =>
    rw [List.length_cons, Nat.succ_mul, Nat.add_comm]
    refine (meets_fillElement hsatisfy a t i s before hget hty hstore hnull hasks).bind
      fun new _ _ _ => ih (before ++ new) ?_
    rw [List.getElem?_append_left (List.getElem?_eq_some_iff.mp hget).1]
    exact hget

end Uses

theorem meets_lastResort (ty : Ty) (hasks : D.asks ty) (allowNull : Bool)
    (before : List Statement) :
    Meets D reuse 1 before (lastResort ty allowNull : Build ω Ref) fun l r => D.fits l ty r := by
  unfold lastResort
  split
  · exact Meets.place _ (.literal .null ty) (D.fits_literal hasks)
  · rintro d hd rfl
    rw [step_bind]
    refine Outcome.nothing hd d.world ?_
    rintro _ ⟨⟩

section Values
variable [WordSource ω] {ins : Inserter ω} {D : Discipline ins.cluster}

theorem meets_construct {satisfy : Ty → Bool → Build ω Ref} {n : Nat}
    (hsatisfy : ∀ before ty allowNull, D.asks ty →
      Meets D reuse n before (satisfy ty allowNull) fun l r => D.fits l ty r)
    (ty : Ty) (hasks : D.asks ty) (before : List Statement) :
    Meets D reuse (max (maxArrayLength * (n + 1)) (width ins.cluster * n) + 1) before
      (ins.construct satisfy ty) fun l r => D.fits l ty r := by
  have harray : ∀ t, D.asks (.array t) → Meets D reuse (maxArrayLength * (n + 1) + 1) before
      (ins.construct satisfy (.array t)) fun l r => D.fits l (.array t) r := by
    intro t hasks
    refine Meets.mono (m := 0 + (1 + maxArrayLength * (n + 1))) ?_ (by omega)
    refine (Meets.draw (Q := fun _ length => length ≤ maxArrayLength) _ ?_).bind
      fun new length _ hlength => ?_
    · intro w
      exact Nat.le_of_lt_succ (Draw.below_lt (maxArrayLength + 1) (Nat.zero_lt_succ _) w)
    refine (Meets.place (Q := fun l r => l = before ++ new ++ [.allocate t length] ∧
      r = .value (before ++ new).length) _ (.allocate t length) ⟨rfl, rfl⟩).bind
      fun more array _ harray => ?_
    obtain ⟨hl, rfl⟩ := harray
    have hget : (before ++ new ++ more)[(before ++ new).length]? = some (.allocate t length) := by
      rw [hl]
      simp
    refine Meets.mono (m := length * (n + 1) + 0) ?_ (Nat.mul_le_mul_right _ hlength)
    have hfill := meets_fillElements hsatisfy _ t _ rfl rfl rfl
      (D.asks_component hasks) (List.range length) _ hget
    rw [List.length_range] at hfill
    refine hfill.bind fun _ _ _ _ => Meets.pure (D.fits_append ?_)
    rw [hl]
    exact D.fits_allocate hasks
  have hobject : ∀ ty (make : Option Constructor → Build ω Ref), (∃ e, make none = throw e) →
      (∀ k, make (some k) = addMember satisfy (.constructor k)) →
      Meets D reuse (width ins.cluster * n + 1) before
        (Build.draw (Draw.choose (makers ins.cluster ty)) >>= make) fun l r => D.fits l ty r := by
    rintro ty make ⟨e, hnone⟩ hsome
    refine Meets.mono (m := 0 + (width ins.cluster * n + 1)) ?_ (by omega)
    refine (Meets.choose (makers ins.cluster ty)).bind fun new k? _ hk => ?_
    cases k? with
    | none =>
      rw [hnone]
      exact Meets.throw e
    | some k =>
      have hmaker := hk k rfl
      have hmember := (mem_makers hmaker).1
      have hwidth := Nat.mul_le_mul_right n (length_needs_le ins.cluster _ hmember)
      rw [hsome]
      refine Meets.mono (m := (Member.constructor k).needs.length * n + 1) ?_ (by omega)
      refine (meets_addMember hsatisfy _ hmember _).imp ?_
      rintro l r ⟨more, s, rfl, happlied, rfl⟩
      cases happlied
      exact D.fits_maker hmaker
  cases ty with
  | array t => exact (harray t hasks).mono (by omega)
  | void => exact (hobject .void _ ⟨_, rfl⟩ fun _ => rfl).mono (by omega)
  | primitive p => exact (hobject (.primitive p) _ ⟨_, rfl⟩ fun _ => rfl).mono (by omega)
  | named name => exact (hobject (.named name) _ ⟨_, rfl⟩ fun _ => rfl).mono (by omega)

theorem meets_reuse? (hselect : D.Admits ins.selector) (ty : Ty) (before : List Statement) :
    Meets D ins.reuse 0 before (ins.reuse? ty) fun l r? => ∀ r, r? = some r → D.fits l ty r := by
  refine Meets.bind (m := 0) (n := 0) (Q := fun _ _ => True) (Meets.act ?_ ?_) ?_
  · intro w f hf size
    have hchance := Act.coin_error ins.reuse w f hf
    obtain rfl := Chance.eq_noProbability ins.reuse f hchance
    exact hchance
  · exact fun _ _ _ _ => True.intro
  · intro new coin _ _
    cases coin with
    | false => exact Meets.pure fun r hr => nomatch hr
    | true =>
      rintro d hd hbefore
      have hadmits := hselect d.program ty d.cursor d.world
      have hget : (MonadState.get : Build ω (Draft ω)) d = .ok (.ok d, d) := rfl
      rw [if_pos rfl, step_bind, hget]
      cases hpick : ins.selector d.program ty d.cursor d.world with
      | mk picked w =>
        simp only [hpick]
        cases picked with
        | ok r =>
          refine Outcome.nothing hd w ?_
          rintro _ ⟨⟩ _ ⟨⟩
          exact hadmits w r hpick
        | error e =>
          show Outcome D ins.reuse 0 d _
            ((if e.isConstruction then pure none else throw e : Build ω (Option Ref))
              { d with world := w })
          split
          · refine Outcome.nothing hd w ?_
            rintro _ ⟨⟩ _ ⟨⟩
          · refine Outcome.nothing hd w ?_
            rintro _ ⟨⟩

theorem meets_satisfyWith (hselect : D.Admits ins.selector) (make : Option (Build ω Ref)) (n : Nat)
    (ty : Ty) (hasks : D.asks ty) (allowNull : Bool) (before : List Statement)
    (hmake : ∀ b ∈ make, ∀ before, Meets D ins.reuse n before b fun l r => D.fits l ty r) :
    Meets D ins.reuse (n + 1) before (ins.satisfyWith make ty allowNull)
      fun l r => D.fits l ty r := by
  unfold satisfyWith
  refine Meets.mono (m := 0 + (0 + (n + 1))) ?_ (by omega)
  refine (meets_reuse? hselect ty before).bind fun new r? _ hr => ?_
  cases r? with
  | some r => exact Meets.pure (hr r rfl)
  | none =>
    refine (Meets.draw (Q := fun _ _ => True) _ fun _ => True.intro).bind
      fun more v? _ _ => ?_
    cases v? with
    | some v => exact Meets.place _ (.literal v ty) (D.fits_literal hasks)
    | none =>
      cases make with
      | none => exact (meets_lastResort ty hasks allowNull _).mono (by omega)
      | some b =>
        refine Meets.recover (lastResort ty allowNull) (hmake b rfl _) ?_ ?_
          (meets_lastResort ty hasks allowNull _)
        · exact fun _ _ _ hr => Meets.pure hr
        · intro e
          by_cases he : e.isConstruction = true
          · refine Or.inl ?_
            simp only [if_pos he]
            rfl
          · refine Or.inr ⟨e, ?_⟩
            simp only [if_neg he]
            funext d
            rw [step_bind]
            rfl

/-- A value for a parameter fits it, however deep new objects are nested. -/
theorem meets_satisfy (hselect : D.Admits ins.selector) (depth : Nat) :
    ∀ before ty allowNull, D.asks ty →
      Meets D ins.reuse (reach ins.cluster depth) before (ins.satisfy depth ty allowNull)
        fun l r => D.fits l ty r := by
  induction depth with
  | zero =>
    intro before ty allowNull hasks
    exact meets_satisfyWith hselect none 0 ty hasks allowNull before fun b hb => nomatch hb
  | succ depth ih =>
    intro before ty allowNull hasks
    refine meets_satisfyWith hselect _ _ ty hasks allowNull before fun b hb before => ?_
    obtain rfl := Option.some.inj hb
    exact meets_construct ih ty hasks before

end Values

end SuiteSearch.Inserter
