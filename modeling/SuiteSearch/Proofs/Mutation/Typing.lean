import SuiteSearch.Proofs.Cluster.Subtyping
import SuiteSearch.Proofs.Mutation.Validity

/-!
# Grown programs are well typed

Every value that insertions and changes put in has a type that can stand where the value is needed,
and reads fields only of instances of their classes.  Types are those of the statements that made
the values, so they survive every renumbering.

    Typed c l r t          r has type t after the statements l, and its fields are there
    typed c h              the discipline: values are anchored and have assignable types
    Grown.wellTyped        every statement of a grown program is well typed
-/

namespace SuiteSearch

/-! ## Algorithm -/

/-- No constructor and no method takes a parameter without a value, or arrays of such. -/
def Cluster.NoVoidParams (c : Cluster) : Prop :=
  ∀ d ∈ c.classes, (∀ params ∈ d.constructors, ∀ t ∈ params, t.element ≠ .void) ∧
    ∀ m ∈ d.methods, ∀ t ∈ m.params, t.element ≠ .void

/-- The type of a reference whose fields are all read from instances of their classes. -/
inductive Typed (c : Cluster) (l : List Statement) : Ref → Ty → Prop
  | value {i : Nat} {s : Statement} : l[i]? = some s → Typed c l (.value i) s.ty
  | null {i : Nat} {s : Statement} : l[i]? = some s → Typed c l (.null i) s.ty
  | field {r : Ref} {t : Ty} {f : Field} : Typed c l r t → c.isAssignable t f.declaring = true →
      Typed c l (.field r f) f.ty
  | element {r : Ref} {t : Ty} {k : Nat} : Typed c l r (.array t) → Typed c l (.element r k) t

/-- Whether the type of a reference can stand where a type is needed. -/
def Program.Stands (c : Cluster) (p : Program) (ty : Ty) (r : Ref) : Prop :=
  ∃ t, p.typeOf? r = some t ∧ c.isAssignable t ty = true

/-- Whether every field in a reference is read from an instance of its class. -/
def Program.FieldsFit (c : Cluster) (p : Program) : Ref → Prop
  | .field source f => p.Stands c f.declaring source ∧ p.FieldsFit c source
  | .element array _ => p.FieldsFit c array
  | .value _ | .null _ | .dangling => True

/-- Whether everything that an operation reads has a type that can stand where it is used. -/
def Program.WellTyped (c : Cluster) (p : Program) : Operation → Prop
  | .construct k args _ => List.Forall₂ (p.Stands c) k.params args
  | .call m callee args =>
    (∀ r, callee = some r → p.Stands c m.declaring r) ∧ List.Forall₂ (p.Stands c) m.params args
  | .read f source => ∀ r, source = some r → p.Stands c f.declaring r
  | .store target value => ∃ array index component, target = .element array index ∧
      p.typeOf? array = some (.array component) ∧ p.Stands c component value
  | .allocate _ | .literal _ => True

/-! ## Types of references -/

namespace Typed

variable {c : Cluster} {l l' : List Statement} {r : Ref} {t : Ty}

theorem append (h : Typed c l r t) (more : List Statement) : Typed c (l ++ more) r t := by
  induction h with
  | value hs =>
    exact .value (by rwa [List.getElem?_append_left (List.getElem?_eq_some_iff.mp hs).1])
  | null hs =>
    exact .null (by rwa [List.getElem?_append_left (List.getElem?_eq_some_iff.mp hs).1])
  | field _ hassign ih => exact .field ih hassign
  | element _ ih => exact .element ih

theorem moved {f : Nat → Option Nat} {i j : Nat} {s s' : Statement} (h : Typed c l r t)
    (hr : r.position = some i) (hf : f i = some j) (hs : l[i]? = some s) (hs' : l'[j]? = some s')
    (halike : s'.Alike s) : Typed c l' (r.remap f) t := by
  induction h with
  | @value i' s₀ hs₀ =>
    obtain rfl := Option.some.inj hr
    obtain rfl := Option.some.inj (hs₀.symm.trans hs)
    rw [← halike.ty]
    simpa [Ref.remap, hf] using Typed.value hs'
  | @null i' s₀ hs₀ =>
    obtain rfl := Option.some.inj hr
    obtain rfl := Option.some.inj (hs₀.symm.trans hs)
    rw [← halike.ty]
    simpa [Ref.remap, hf] using Typed.null hs'
  | @field source t g _ hassign ih =>
    have hsource : source.position = some i := hr
    rw [Ref.remap_field f source g j (by rw [hsource]; exact hf)]
    exact .field (ih hsource) hassign
  | @element array t k _ ih =>
    have harray : array.position = some i := hr
    rw [Ref.remap_element f array k j (by rw [harray]; exact hf)]
    exact .element (ih harray)

/-- The result of the last statement has its type. -/
theorem output (l : List Statement) (s : Statement) (hstore : s.op.isStore = false) :
    Typed c (l ++ [s]) (s.output l.length) s.ty := by
  have hlast : (l ++ [s])[l.length]? = some s := List.getElem?_concat_length
  rcases s.output_resultOf l.length hstore with h | h
  · rw [h]
    exact .value hlast
  · rw [h]
    exact .null hlast

/-- The type is the one that the program tells. -/
theorem typeOf? {p : Program} {n : Nat} (h : Typed c (p.statements.take n) r t) :
    p.typeOf? r = some t := by
  induction h with
  | value hs => simp [Program.typeOf?, (Program.getElem?_of_take hs).2]
  | null hs => simp [Program.typeOf?, (Program.getElem?_of_take hs).2]
  | field _ _ _ => rfl
  | element _ ih => simp [Program.typeOf?, ih, Ty.component]

theorem fieldsFit {p : Program} {n : Nat} (h : Typed c (p.statements.take n) r t) :
    p.FieldsFit c r := by
  induction h with
  | value _ => exact True.intro
  | null _ => exact True.intro
  | field h hassign ih => exact ⟨⟨_, h.typeOf?, hassign⟩, ih⟩
  | element _ ih => exact ih

end Typed

theorem Reached.typed {c : Cluster} {l : List Statement} {s : Statement} {i : Nat} {r : Ref}
    {t : Ty} (h : Reached c s i r t) (hs : l[i]? = some s) (hstore : s.op.isStore = false) :
    Typed c l r t := by
  induction h with
  | output =>
    rcases s.output_resultOf i hstore with h | h
    · rw [h]
      exact .value hs
    · rw [h]
      exact .null hs
  | field _ _ hf ih => exact .field ih (c.isAssignable_declaring _ _ hf)

theorem Offer.typed {c : Cluster} {ty : Ty} {before : List Statement} {r : Ref}
    (h : Offer c ty before r) : ∃ t, Typed c before r t ∧ c.isAssignable t ty = true := by
  cases h with
  | reached hs hstore hr hassign => exact ⟨_, hr.typed hs hstore, hassign⟩
  | element hs hop hty hassign => exact ⟨_, .element (hty ▸ .value hs), hassign⟩

/-! ## The discipline -/

theorem Cluster.NoVoidParams.needs {c : Cluster} (h : c.NoVoidParams) (member : Member)
    (hmember : member ∈ c.members) : ∀ t ∈ member.needs, t.element ≠ .void := by
  obtain ⟨d, hd, hmember⟩ := List.mem_flatMap.mp hmember
  obtain ⟨hconstructors, hmethods⟩ := h d hd
  simp only [membersOf, List.append_assoc, List.mem_append, List.mem_map] at hmember
  rcases hmember with hk | ⟨m, hm, rfl⟩ | ⟨f, -, rfl⟩
  · split at hk
    · cases hk
    · obtain ⟨params, hparams, rfl⟩ := List.mem_map.mp hk
      exact hconstructors params hparams
  · intro t ht
    rcases List.mem_append.mp ht with ht | ht
    · split at ht
      · cases ht
      · rw [List.mem_singleton.mp ht]
        intro h
        cases h
    · exact hmethods m hm t ht
  · intro t ht
    simp only [Member.needs] at ht
    split at ht
    · cases ht
    · rw [List.mem_singleton.mp ht]
      intro h
      cases h

namespace Discipline

/-- Every value is anchored and has a type that can stand where it is used. -/
def typed (c : Cluster) (hc : c.NoVoidParams) : Discipline c where
  asks t := t.element ≠ .void
  fits l ty r := r.Anchored l ∧ ∃ t, Typed c l r t ∧ c.isAssignable t ty = true
  asks_component h := h
  asks_need hm ht := hc.needs _ hm _ ht
  fits_append h := ⟨h.1.append _, h.2.imp fun _ ht => ⟨ht.1.append _, ht.2⟩⟩
  fits_candidate h :=
    have hoffer := Program.mem_findCompatible _ _ _ _ _ _ h
    ⟨hoffer.anchored, hoffer.typed⟩
  fits_literal {l t v} ht :=
    ⟨Ref.anchored_output _ _ rfl, t, Typed.output l (.literal v t) rfl,
      c.isAssignable_self t fun h => ht (congrArg Ty.element h)⟩
  fits_allocate {l t n} _ :=
    ⟨Ref.anchored_output l (.allocate t n) rfl, .array t, Typed.output l (.allocate t n) rfl,
      c.isAssignable_self (.array t) nofun⟩
  fits_maker {l _ k args} hk :=
    ⟨Ref.anchored_output l (.construct k args) rfl, k.declaring,
      Typed.output l (.construct k args) rfl, (Inserter.mem_makers hk).2⟩

theorem typed_mobile (c : Cluster) (hc : c.NoVoidParams) : (typed c hc).Mobile where
  anchored h := h.1
  moved h hr hf hs hs' halike :=
    ⟨h.1.moved hr hf hs hs' halike,
      h.2.imp fun _ ht => ⟨ht.1.moved hr hf hs hs' halike, ht.2⟩⟩

end Discipline

/-! ## Top theorem -/

section
variable {c : Cluster} {hc : c.NoVoidParams} {p : Program} {n : Nat}

theorem Discipline.typed_stands (ty : Ty) (r : Ref)
    (h : (Discipline.typed c hc).fits (p.statements.take n) ty r) : p.Stands c ty r := by
  obtain ⟨-, t, ht, hassign⟩ := h
  exact ⟨t, ht.typeOf?, hassign⟩

theorem Discipline.typed_received {isStatic : Bool} {ty : Ty} {r : Option Ref}
    (h : Member.Received ((Discipline.typed c hc).fits (p.statements.take n)) isStatic ty r) :
    ∀ x, r = some x → p.Stands c ty x := by
  rintro x rfl
  exact typed_stands ty x h.2

theorem Discipline.Good.typesFit {s : Statement}
    (h : (Discipline.typed c hc).Good (p.statements.take n) s) : p.WellTyped c s.op := by
  cases h with
  | literal v t => exact True.intro
  | allocate t k => exact True.intro
  | @store a i t r s₀ ha hty hstore _ hfits =>
    have harray : Typed c (p.statements.take n) (.value a) (.array t) := hty ▸ .value ha
    exact ⟨.value a, i, t, rfl, harray.typeOf?, typed_stands t r hfits⟩
  | member _ happlied =>
    cases happlied with
    | constructor hargs => exact hargs.imp typed_stands
    | method hcallee hargs => exact ⟨typed_received hcallee, hargs.imp typed_stands⟩
    | field hsource => exact typed_received hsource

theorem Discipline.Good.fieldsFit {s : Statement}
    (h : (Discipline.typed c hc).Good (p.statements.take n) s) :
    ∀ r ∈ s.reads, p.FieldsFit c r := by
  cases h with
  | literal v t => nofun
  | allocate t k => nofun
  | store _ _ _ _ hfits =>
    intro r hr
    rcases List.mem_cons.mp hr with rfl | hr
    · exact True.intro
    · obtain rfl := List.mem_singleton.mp hr
      obtain ⟨-, t, ht, -⟩ := hfits
      exact ht.fieldsFit
  | member _ happlied =>
    intro r hr
    obtain ⟨ty, -, t, ht, -⟩ := happlied.fits r hr
    exact ht.fieldsFit

end

/-- Every statement of a grown program is well typed, down to the fields in what it reads. -/
theorem Grown.wellTyped {c : Cluster} (hc : c.NoVoidParams) {p : Program} (h : Grown c p) :
    ∀ s ∈ p.statements, p.WellTyped c s.op ∧ ∀ r ∈ s.reads, p.FieldsFit c r := by
  intro s hs
  obtain ⟨i, hi⟩ := List.mem_iff_getElem?.mp hs
  have hgood := h.holds (Discipline.typed_mobile c hc) i s hi
  exact ⟨hgood.typesFit, hgood.fieldsFit⟩

theorem noVoidParams_counters : Inserter.counters.NoVoidParams := by
  intro d hd
  obtain rfl := List.mem_singleton.mp hd
  refine ⟨?_, ?_⟩
  · intro params hparams t ht
    obtain rfl := List.mem_singleton.mp hparams
    obtain rfl := List.mem_singleton.mp ht
    nofun
  · intro m hm t ht
    obtain rfl := List.mem_singleton.mp hm
    obtain rfl := List.mem_singleton.mp ht
    nofun

theorem Grown.wellTyped_counterOfZero :
    Inserter.counters.NoVoidParams ∧ Grown Inserter.counters counterOfZero ∧
      ∀ s ∈ counterOfZero.statements, counterOfZero.WellTyped Inserter.counters s.op ∧
        ∀ r ∈ s.reads, counterOfZero.FieldsFit Inserter.counters r :=
  ⟨noVoidParams_counters, grown_counterOfZero,
    Grown.wellTyped noVoidParams_counters grown_counterOfZero⟩

end SuiteSearch
