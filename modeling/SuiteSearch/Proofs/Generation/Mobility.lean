import SuiteSearch.Proofs.Generation.Discipline
import SuiteSearch.Proofs.Program.Anchors
import SuiteSearch.Proofs.Program.Retention

/-!
# Mobile disciplines

In a mobile discipline, values stay fit when the statements that they come from move or are changed
to statements of the same type.  Programs then stay in order when a block is put in, when a
statement is changed, and when some statements are kept that read only one another.

    Good.isValid       what is in order is well formed
    Good.moved         what is in order stays so where everything that it reads has moved to
    Holds.splice       a block is put in
    Holds.set          a statement is changed
    Holds.kept         some statements are kept
-/

namespace SuiteSearch

/-- Where what a reference is based on has moved to. -/
def Ref.Carried (f : Nat → Option Nat) (l l' : List Statement) (r : Ref) : Prop :=
  ∀ i s, r.position = some i → l[i]? = some s →
    ∃ j s', f i = some j ∧ l'[j]? = some s' ∧ s'.Alike s

structure Discipline.Mobile {c : Cluster} (D : Discipline c) : Prop where
  anchored {l : List Statement} {t : Ty} {r : Ref} : D.fits l t r → r.Anchored l
  moved {l l' : List Statement} {t : Ty} {r : Ref} {f : Nat → Option Nat} {i j : Nat}
    {s s' : Statement} : D.fits l t r → r.position = some i → f i = some j → l[i]? = some s →
    l'[j]? = some s' → s'.Alike s → D.fits l' t (r.remap f)

/-! ## Members -/

namespace Member

theorem Received.remap {fits fits' : Ty → Ref → Prop} {isStatic : Bool} {ty : Ty} {r : Option Ref}
    (f : Nat → Option Nat) (h : Received fits isStatic ty r)
    (hfits : ∀ x ∈ r, ∀ t, fits t x → fits' t (x.remap f)) :
    Received fits' isStatic ty (r.map (·.remap f)) := by
  cases r with
  | none => exact h
  | some x => exact ⟨h.1, hfits x rfl ty h.2⟩

theorem forall₂_remap {fits fits' : Ty → Ref → Prop} {types : List Ty} {args : List Ref}
    (f : Nat → Option Nat) (h : List.Forall₂ fits types args)
    (hfits : ∀ x ∈ args, ∀ t, fits t x → fits' t (x.remap f)) :
    List.Forall₂ fits' types (args.map (·.remap f)) := by
  induction h with
  | nil => exact .nil
  | cons hx _ ih =>
    exact .cons (hfits _ List.mem_cons_self _ hx)
      (ih fun x hx => hfits x (List.mem_cons_of_mem _ hx))

theorem Applied.remap {fits fits' : Ty → Ref → Prop} {m : Member} {s : Statement}
    (f : Nat → Option Nat) (h : Applied fits m s)
    (hfits : ∀ x ∈ s.reads, ∀ t, fits t x → fits' t (x.remap f)) :
    Applied fits' m (s.remap f) := by
  cases h with
  | constructor hargs => exact .constructor (forall₂_remap f hargs hfits)
  | method hcallee hargs =>
    refine .method (hcallee.remap f fun x hx => hfits x ?_)
      (forall₂_remap f hargs fun x hx => hfits x ?_)
    · exact List.mem_append_left _ (Option.mem_toList.mpr hx)
    · exact List.mem_append_right _ hx
  | field hsource =>
    exact .field (hsource.remap f fun x hx => hfits x (Option.mem_toList.mpr hx))

theorem fits_of_mem {fits : Ty → Ref → Prop} {types : List Ty} {args : List Ref}
    (h : List.Forall₂ fits types args) : ∀ r ∈ args, ∃ t, fits t r := by
  induction h with
  | nil => nofun
  | cons hx _ ih =>
    intro r hr
    rcases List.mem_cons.mp hr with rfl | hr
    · exact ⟨_, hx⟩
    · exact ih r hr

theorem Received.fits {fits : Ty → Ref → Prop} {isStatic : Bool} {ty : Ty} {r : Option Ref}
    (h : Received fits isStatic ty r) : ∀ x ∈ r.toList, ∃ t, fits t x := by
  cases r with
  | none => nofun
  | some x =>
    intro y hy
    obtain rfl := List.mem_singleton.mp hy
    exact ⟨ty, h.2⟩

theorem Applied.fits {fits : Ty → Ref → Prop} {m : Member} {s : Statement} (h : Applied fits m s) :
    ∀ r ∈ s.reads, ∃ t, fits t r := by
  cases h with
  | constructor hargs => exact fits_of_mem hargs
  | method hcallee hargs =>
    intro r hr
    rcases List.mem_append.mp hr with hr | hr
    · exact hcallee.fits r hr
    · exact fits_of_mem hargs r hr
  | field hsource => exact hsource.fits

theorem Applied.isComplete {fits : Ty → Ref → Prop} {m : Member} {s : Statement}
    (h : Applied fits m s) : s.op.isComplete = true := by
  cases h with
  | constructor hargs =>
    simp [Statement.construct, Statement.ofOperation, Operation.isComplete, hargs.length_eq]
  | @method m callee args hcallee hargs =>
    cases callee with
    | none =>
      have hstatic : m.isStatic = true := hcallee
      simp [Statement.call, Statement.ofOperation, Operation.isComplete, hargs.length_eq, hstatic]
    | some x => simp [Statement.call, Statement.ofOperation, Operation.isComplete, hargs.length_eq]
  | @field f source hsource =>
    cases source with
    | none =>
      have hstatic : f.isStatic = true := hsource
      simp [Statement.read, Statement.ofOperation, Operation.isComplete, hstatic]
    | some x => simp [Statement.read, Statement.ofOperation, Operation.isComplete]

end Member

namespace Discipline

variable {c : Cluster} {D : Discipline c} {l l' before new : List Statement} {s : Statement}

/-! ## Statements in order -/

theorem Good.anchored (hD : D.Mobile) (h : D.Good l s) : ∀ r ∈ s.reads, r.Anchored l := by
  cases h with
  | literal v t => nofun
  | allocate t n => nofun
  | store ha hty hstore _ hfits =>
    intro r hr
    rcases List.mem_cons.mp hr with rfl | hr
    · exact ⟨_, _, ha, hstore, Or.inl rfl⟩
    · obtain rfl := List.mem_singleton.mp hr
      exact hD.anchored hfits
  | member _ happlied =>
    intro r hr
    obtain ⟨t, hfits⟩ := happlied.fits r hr
    exact hD.anchored hfits

theorem Good.isComplete (h : D.Good l s) : s.op.isComplete = true := by
  cases h with
  | literal v t => rfl
  | allocate t n => rfl
  | store _ _ _ _ _ => rfl
  | member _ happlied => exact happlied.isComplete

theorem Good.isValid (hD : D.Mobile) (h : D.Good l s) : s.isValid l.length = true := by
  rw [Statement.isValid_iff]
  refine ⟨fun r hr => ?_, h.isComplete⟩
  obtain ⟨i, t, ht, -, hpos, -⟩ := (h.anchored hD r hr).position
  exact ⟨i, (List.getElem?_eq_some_iff.mp ht).1, hpos⟩

theorem Mobile.fits_carried (hD : D.Mobile) {t : Ty} {r : Ref} {f : Nat → Option Nat}
    (h : D.fits l t r) (hcarried : r.Carried f l l') : D.fits l' t (r.remap f) := by
  obtain ⟨i, s, hs, -, hpos, -⟩ := (hD.anchored h).position
  obtain ⟨j, s', hf, hs', halike⟩ := hcarried i s hpos hs
  exact hD.moved h hpos hf hs hs' halike

/-- What is in order stays so where all that it reads has moved to. -/
theorem Good.moved (hD : D.Mobile) (f : Nat → Option Nat) (h : D.Good l s)
    (hcarried : ∀ r ∈ s.reads, r.Carried f l l') : D.Good l' (s.remap f) := by
  cases h with
  | literal v t => exact .literal v t
  | allocate t n => exact .allocate t n
  | @store a i t r s₀ ha hty hstore hnull hfits =>
    have htarget : (Ref.element (.value a) i).Carried f l l' := hcarried _ List.mem_cons_self
    have hvalue : r.Carried f l l' := hcarried r (List.mem_cons_of_mem _ List.mem_cons_self)
    obtain ⟨a', s', hf, hs', halike⟩ := htarget a s₀ rfl ha
    have hremap : (Statement.store (.value a) i r t).remap f =
        .store (.value a') i (r.remap f) t := by
      have hel : (Ref.element (.value a) i).remap f = .element (.value a') i := by
        rw [Ref.remap_element f (.value a) i a' hf]
        simp [Ref.remap, hf]
      simp only [Statement.store, Statement.ofOperation, Statement.remap, Statement.mapReads,
        Operation.mapReads, hel, List.map_nil]
    rw [hremap]
    exact .store hs' (halike.ty.trans hty) (halike.isStore.trans hstore)
      (halike.isNullLiteral.trans hnull) (hD.fits_carried hfits hvalue)
  | member hm happlied =>
    exact .member hm (happlied.remap f fun x hx t hfits => hD.fits_carried hfits (hcarried x hx))

/-! ## Programs in order -/

theorem Holds.assertions (h : D.Holds l) : ∀ s ∈ l, s.assertions = [] := by
  intro s hs
  obtain ⟨i, hi⟩ := List.mem_iff_getElem?.mp hs
  exact (h i s hi).assertions

theorem Holds.sound (hD : D.Mobile) {p : Program} (h : D.Holds p.statements) : p.Sound := by
  constructor
  · rw [Program.isValid_iff]
    intro i s hs
    have hvalid := (h i s hs).isValid hD
    rwa [List.length_take, Nat.min_eq_left (Nat.le_of_lt (List.getElem?_eq_some_iff.mp hs).1)]
      at hvalid
  · intro s hs a ha
    rw [h.assertions s hs] at ha
    cases ha

theorem holds_nil : D.Holds [] := by
  intro i s hs
  cases hs

theorem holds_concat (h : D.Holds l) (hs : D.Good l s) : D.Holds (l ++ [s]) := by
  intro i t ht
  by_cases hi : i < l.length
  · rw [List.getElem?_append_left hi] at ht
    rw [List.take_append_of_le_length (Nat.le_of_lt hi)]
    exact h i t ht
  · have hlen := (List.getElem?_eq_some_iff.mp ht).1
    rw [List.length_append, List.length_singleton] at hlen
    obtain rfl : i = l.length := by omega
    rw [List.getElem?_concat_length] at ht
    obtain rfl := Option.some.inj ht
    rwa [List.take_left]

theorem carried_take {f : Nat → Option Nat} {i n : Nat} {r : Ref}
    (h : ∀ b j s, b < i → l[b]? = some s → f b = some j →
      j < n ∧ ∃ s', l'[j]? = some s' ∧ s'.Alike s)
    (hf : ∀ b, b < i → r.position = some b → ∃ j, f b = some j) :
    r.Carried f (l.take i) (l'.take n) := by
  intro b s hb hs
  obtain ⟨hlt, hs⟩ := Program.getElem?_of_take hs
  obtain ⟨j, hj⟩ := hf b hlt hb
  obtain ⟨hn, s', hs', halike⟩ := h b j s hlt hs hj
  exact ⟨j, s', hj, by rwa [List.getElem?_take_of_lt hn], halike⟩

/-- A block is put in. -/
theorem Holds.splice (hD : D.Mobile) (h : D.Holds l) (start : Nat) (hstart : start ≤ l.length)
    (hnew : D.Block (l.take start) new) : D.Holds (Program.spliced l start new) := by
  intro j s hs
  rcases Program.getElem?_spliced_cases l start new hstart j s hs with
    ⟨hj, hs⟩ | ⟨i, rfl, hi, hs⟩ | ⟨i, t, hi, rfl, ht, rfl⟩
  · have htake := congrArg (List.take j) (Program.take_spliced l start new hstart 0 (Nat.zero_le _))
    rw [List.take_zero, List.append_nil, Nat.add_zero, List.take_take, List.take_take,
      Nat.min_eq_left (Nat.le_of_lt hj)] at htake
    rw [htake]
    exact h j s hs
  · rw [Program.take_spliced l start new hstart i (Nat.le_of_lt hi)]
    exact (hnew i s hs).2
  · refine (h i t ht).moved hD _ fun r _ => carried_take ?_ fun b _ _ => ⟨_, rfl⟩
    intro b k s₀ hb hs₀ hk
    by_cases hbs : start ≤ b
    · rw [Program.shiftBy_ge _ _ _ hbs, Option.some.injEq] at hk
      subst hk
      refine ⟨by omega, _, ?_, Statement.Alike.remap (Program.shiftBy start new.length) s₀⟩
      rw [Program.getElem?_spliced_ge l start new hstart b hbs, hs₀]
      rfl
    · rw [Program.shiftBy_lt _ _ _ (by omega), Option.some.injEq] at hk
      subst hk
      refine ⟨by omega, s₀, ?_, .refl s₀⟩
      rw [Program.getElem?_spliced_lt l start new hstart b (by omega), hs₀]

/-- A statement is changed. -/
theorem Holds.set (hD : D.Mobile) (h : D.Holds l) (position : Nat) (s s₀ : Statement)
    (hs₀ : l[position]? = some s₀) (halike : s.Alike s₀) (hs : D.Good (l.take position) s) :
    D.Holds (l.set position s) := by
  have hlen := (List.getElem?_eq_some_iff.mp hs₀).1
  intro j t ht
  rcases Nat.lt_trichotomy j position with hj | rfl | hj
  · rw [List.getElem?_set_ne (by omega)] at ht
    rw [List.take_set_of_le (by omega)]
    exact h j t ht
  · rw [List.getElem?_set_self hlen] at ht
    obtain rfl := Option.some.inj ht
    rw [List.take_set_of_le (Nat.le_refl j)]
    exact hs
  · rw [List.getElem?_set_ne (by omega)] at ht
    have hgood := h j t ht
    -- Nothing moves, so that the renumbering is the identity on what is read.
    have hid : t.remap some = t := by
      refine Statement.remap_id some t fun r hr => ?_
      rcases hr with hr | ⟨a, ha, -⟩
      · exact Ref.remap_some r (hgood.anchored hD r hr).plain
      · rw [hgood.assertions] at ha
        cases ha
    rw [← hid]
    refine hgood.moved hD some fun r _ => carried_take ?_ fun b _ _ => ⟨b, rfl⟩
    intro b k s₁ hb hs₁ hk
    cases hk
    refine ⟨hb, ?_⟩
    by_cases hbp : b = position
    · subst hbp
      obtain rfl := Option.some.inj (hs₀.symm.trans hs₁)
      exact ⟨s, List.getElem?_set_self hlen, halike⟩
    · exact ⟨s₁, by rwa [List.getElem?_set_ne (by omega)], .refl s₁⟩

/-- Some statements are kept, which read only one another. -/
theorem Holds.kept (hD : D.Mobile) (h : D.Holds l) (keep : List Nat) (f : Nat → Option Nat)
    (hf : ∀ i s, l[i]? = some s → keep.contains i = true → f i = some (Program.rank keep i))
    (hclosed : ∀ i s, l[i]? = some s → keep.contains i = true →
      ∀ r ∈ s.reads, ∀ b, r.position = some b → keep.contains b = true) :
    D.Holds (Program.kept keep f l) := by
  induction l using List.reverseRecOn with
  | nil => exact holds_nil
  | append_singleton l s ih =>
    have hleft : ∀ (i : Nat) (t : Statement), l[i]? = some t → (l ++ [s])[i]? = some t := by
      intro i t ht
      rwa [List.getElem?_append_left (List.getElem?_eq_some_iff.mp ht).1]
    have hinit : D.Holds l := by
      intro i t ht
      have hgood := h i t (hleft i t ht)
      rwa [List.take_append_of_le_length
        (Nat.le_of_lt (List.getElem?_eq_some_iff.mp ht).1)] at hgood
    have ih := ih hinit (fun i t ht => hf i t (hleft i t ht))
      fun i t ht => hclosed i t (hleft i t ht)
    have hlast : (l ++ [s])[l.length]? = some s := List.getElem?_concat_length
    have hgood := h l.length s hlast
    rw [List.take_left] at hgood
    rw [Program.kept_concat]
    split
    · next hkeep =>
      refine holds_concat ih ?_
      rw [Program.dropStaleAssertions_remap f s hgood.assertions]
      refine hgood.moved hD f fun r hr b t hb ht => ?_
      have hkb := hclosed l.length s hlast hkeep r hr b hb
      refine ⟨_, _, hf b t (hleft b t ht) hkb, Program.getElem?_kept keep f l b t ht hkb, ?_⟩
      rw [Program.dropStaleAssertions_remap f t (hinit b t ht).assertions]
      exact Statement.Alike.remap f t
    · rwa [List.append_nil]

end Discipline

end SuiteSearch
