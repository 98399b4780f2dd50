import SuiteSearch.Mutation.Change
import SuiteSearch.Proofs.Generation.Mobility
import SuiteSearch.Proofs.Random.Outcome

/-!
# Change keeps programs in order

A perturbed constant keeps its type, and an input is bound only to a value that fits the type it
asks for.

    good_fill         another value that fits, in one input
    Changed c p i     what the change of statement i comes to
    change_holds      a program in order is left in order
-/

namespace SuiteSearch.Mutation

variable {c : Cluster} {D : Discipline c} {ω : Type}

/-! ## Inputs -/

theorem mem_argInputs (params : List Ty) (args : List Ref) (slot : Slot) (ty : Ty) (current : Ref)
    (h : (slot, ty, current) ∈ argInputs params args) :
    ∃ i, slot = .arg i ∧ params[i]? = some ty ∧ args[i]? = some current := by
  obtain ⟨⟨⟨ty', r⟩, i⟩, hmem, heq⟩ := List.mem_map.mp h
  cases heq
  have hget := List.mk_mem_zipIdx_iff_getElem?.mp hmem
  exact ⟨i, rfl, List.getElem?_zip_eq_some.mp hget⟩

theorem forall₂_set {fits : Ty → Ref → Prop} {types : List Ty} {args : List Ref}
    (h : List.Forall₂ fits types args) (i : Nat) (ty : Ty) (r : Ref) (hty : types[i]? = some ty)
    (hr : fits ty r) : List.Forall₂ fits types (args.set i r) := by
  induction h generalizing i with
  | nil => cases hty
  | cons hx hrest ih =>
    cases i with
    | zero =>
      cases hty
      exact .cons hr hrest
    | succ i => exact .cons hx (ih i hty)

theorem isNullLiteral_fill (slot : Slot) (r : Ref) (op : Operation) :
    (slot.fill r op).isNullLiteral = op.isNullLiteral := by
  cases slot <;> cases op <;> rfl

theorem isStore_fill (slot : Slot) (r : Ref) (op : Operation) :
    (slot.fill r op).isStore = op.isStore := by
  cases slot <;> cases op <;> rfl

/-- A statement stays in order with another value that fits in one of its inputs. -/
theorem good_fill (p : Program) (position : Nat) (s : Statement) (slot : Slot) (ty : Ty)
    (current r : Ref) (hs : D.Good (p.statements.take position) s)
    (hinput : (slot, ty, current) ∈ inputs p s.op) (hr : D.fits (p.statements.take position) ty r) :
    D.Good (p.statements.take position) { s with op := slot.fill r s.op } := by
  cases hs with
  | literal v t => cases hinput
  | allocate t n => cases hinput
  | @store a i t r₀ s₀ ha hty hstore hnull hfits =>
    have htype : p.typeOf? (.element (.value a) i) = some t := by
      simp [Program.typeOf?, (Program.getElem?_of_take ha).2, hty, Ty.component]
    have hone : inputs p (Statement.store (.value a) i r₀ t).op = [(.storedValue, t, r₀)] := by
      show ((p.typeOf? (.element (.value a) i)).map _).toList = _
      rw [htype]
      rfl
    rw [hone] at hinput
    cases List.mem_singleton.mp hinput
    exact .store ha hty hstore hnull hr
  | member hm happlied =>
    cases happlied with
    | constructor hargs =>
      obtain ⟨i, rfl, hty, -⟩ := mem_argInputs _ _ _ _ _ hinput
      exact .member hm (.constructor (forall₂_set hargs i ty r hty hr))
    | @method m callee args hcallee hargs =>
      rcases List.mem_append.mp hinput with h | h
      · obtain ⟨x, hx, heq⟩ := List.mem_map.mp h
        cases heq
        obtain rfl := Option.mem_toList.mp hx
        have hreceived : Member.Received (D.fits _) m.isStatic m.declaring (some r) :=
          ⟨hcallee.1, hr⟩
        exact .member hm (.method hreceived hargs)
      · obtain ⟨i, rfl, hty, -⟩ := mem_argInputs _ _ _ _ _ h
        exact .member hm (.method hcallee (forall₂_set hargs i ty r hty hr))
    | @field f source hsource =>
      cases source with
      | none => cases hinput
      | some x =>
        cases List.mem_singleton.mp hinput
        have hreceived : Member.Received (D.fits _) f.isStatic f.declaring (some r) :=
          ⟨hsource.1, hr⟩
        exact .member hm (.field hreceived)

/-- Any constant may stand for another one. -/
theorem good_literal {before : List Statement} {s : Statement} (v v' : Literal)
    (hs : D.Good before s) (hop : s.op = .literal v) :
    D.Good before { s with op := .literal v' } := by
  cases hs with
  | literal _ t => exact .literal v' t
  | allocate t n => cases hop
  | store _ _ _ _ _ => cases hop
  | member _ happlied => cases happlied <;> cases hop

/-! ## Changes -/

/-- What the change of one statement comes to: nothing, another constant in place of one, which is
a null only for a null, or another value from scope in one input. -/
inductive Changed (c : Cluster) (p : Program) (position : Nat) : Program → Prop
  | same : Changed c p position p
  | literal {s : Statement} {v v' : Literal} : p.statements[position]? = some s →
      s.op = .literal v → v'.isNull = v.isNull → Changed c p position
        { p with statements := p.statements.set position { s with op := .literal v' } }
  | bound {s : Statement} {slot : Slot} {ty : Ty} {current r : Ref} :
      p.statements[position]? = some s → (slot, ty, current) ∈ inputs p s.op →
      r ∈ p.findCompatible c ty position slot.filter → Changed c p position
        { p with statements := p.statements.set position { s with op := slot.fill r s.op } }

theorem Changed.holds {p p' : Program} {position : Nat} (h : Changed c p position p')
    (hD : D.Mobile) (hp : D.Holds p.statements) : D.Holds p'.statements := by
  cases h with
  | same => exact hp
  | @literal s v v' hs hop hnull =>
    refine hp.set hD position _ s hs ⟨rfl, by rw [hop]; rfl, ?_⟩ ?_
    · rw [hop]
      exact hnull
    exact good_literal v v' (hp position s hs) hop
  | @bound s slot ty current r hs hinput hr =>
    refine hp.set hD position _ s hs
      ⟨rfl, isStore_fill slot r s.op, isNullLiteral_fill slot r s.op⟩ ?_
    exact good_fill p position s slot ty current r (hp position s hs) hinput (D.fits_candidate hr)

variable [WordSource ω]

/-- A perturbed constant is a null exactly if it was one. -/
theorem perturb_isNull (t : Ty) (v : Literal) :
    Draw.Gives (v.perturb t : Draw ω Literal) fun v' => v'.isNull = v.isNull := by
  cases v with
  | null => exact .pure rfl
  | bool b => exact .pure rfl
  | int n => exact (Draw.Gives.any _).bind fun _ _ => .pure rfl
  | float bits => exact (Draw.Gives.any _).bind fun _ _ => .pure rfl
  | char c => exact (Draw.Gives.any _).bind fun _ _ => .pure rfl
  | text s => exact (Draw.Gives.any _).bind fun _ _ => .pure rfl

theorem changeAt_changed (p : Program) (position : Nat) :
    Draw.Gives (changeAt c p position : Draw ω (Program × Bool))
      fun x => Changed c p position x.1 := by
  unfold changeAt
  split
  · exact .pure .same
  · next s hs =>
    split
    · next v hop => exact (perturb_isNull s.ty v).bind fun v' hv' => .pure (.literal hs hop hv')
    · unfold rebind
      refine (Draw.Gives.choose (inputs p s.op)).bind fun input? hinput => ?_
      cases input? with
      | none => exact .pure .same
      | some input =>
        obtain ⟨slot, ty, current⟩ := input
        refine (Draw.Gives.choose _).bind fun r? hr => ?_
        cases r? with
        | none => exact .pure .same
        | some r => exact .pure (.bound hs (hinput _ rfl) (List.mem_filter.mp (hr r rfl)).1)

/-- What the change of one statement keeps, the change of some of them keeps. -/
theorem changeAll_gives {P : Program → Prop}
    (hchange : ∀ p position p', Changed c p position p' → P p → P p') (share : Nat)
    (positions : List Nat) (p : Program) (h : P p) :
    Draw.Gives (changeAll c share positions p : Draw ω (Program × Bool)) fun x => P x.1 := by
  induction positions generalizing p with
  | nil => exact .pure h
  | cons position rest ih =>
    unfold changeAll
    refine (Draw.Gives.any (oneIn share)).bind fun chosen _ => ?_
    split
    · refine (changeAt_changed p position).bind fun x hx => ?_
      exact (ih x.1 (hchange p position x.1 hx h)).bind fun y hy => .pure hy
    · exact ih p h

theorem change_gives {P : Program → Prop}
    (hchange : ∀ p position p', Changed c p position p' → P p → P p') (p : Program) (h : P p) :
    Draw.Gives (change c p : Draw ω (Program × Bool)) fun x => P x.1 :=
  changeAll_gives hchange p.length (List.range p.length) p h

theorem change_holds (hD : D.Mobile) (p : Program) (h : D.Holds p.statements) :
    Draw.Gives (change c p : Draw ω (Program × Bool)) fun x => D.Holds x.1.statements :=
  change_gives (P := fun p => D.Holds p.statements) (fun _ _ _ hx => hx.holds hD) p h

end SuiteSearch.Mutation
