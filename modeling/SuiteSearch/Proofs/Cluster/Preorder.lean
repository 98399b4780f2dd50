import SuiteSearch.Proofs.Cluster.Subtyping

/-!
# Assignability as an order

A class stands for what it reaches through declared supertypes.  Two rules are built in: every class
stands for the root, and a box of numbers for the class of all numbers.  A built-in step is taken to
the expected class only, and no declaration is followed from there; nor is it taken from a declared
supertype.  So a class that stands for a second one which stands for a third one need not stand for
the third one, where one of the steps is built in and the other is declared.  A third one that is a
root is always stood for.

    c.Mixed a b d            one step is built in, the other goes up through declarations
    isClassAssignable_iff    a class stands for another one by a built-in rule or by declarations
    RespectsBuiltIns c       no declaration goes on from a built-in step or leads to one
    isAssignable_preorder    reflexive; transitive but for mixed steps, and so for respectful clusters
    isAssignable_breaks      the class of all numbers with a supertype of its own
-/

namespace SuiteSearch

open Relation

/-! ## Algorithm -/

/-- Whether a type is a class or an array. -/
def Ty.IsReference : Ty → Prop
  | .named _ | .array _ => True
  | .void | .primitive _ => False

namespace Cluster

/-- Whether a class stands for another one by a built-in rule. -/
def BuiltIn (a b : String) : Prop :=
  simpleName b = "Object" ∨ simpleName b = "Number" ∧ boxesNumber a = true

/-- Whether of two steps between classes, which do not lead to a root, one is built in and the other
goes up through declarations. -/
def Mixed (c : Cluster) (a b d : String) : Prop :=
  a ≠ b ∧ b ≠ d ∧ simpleName d ≠ "Object" ∧
    (BuiltIn a b ∧ c.Reaches b d ∨
      c.Reaches a b ∧ simpleName d = "Number" ∧ boxesNumber b = true)

/-- The same of two steps between types.  Steps between arrays are those between their components,
and the step from an array to the root is built in. -/
def MixedTypes (c : Cluster) : Ty → Ty → Ty → Prop
  | .named a, .named b, .named d => c.Mixed a b d
  | .array _, .named b, .named d =>
    simpleName b = "Object" ∧ simpleName d ≠ "Object" ∧ c.Reaches b d
  | .array s, .array t, .array u => c.MixedTypes s t u
  | _, _, _ => False

/-- Declared supertypes add nothing to the built-in rules. -/
structure RespectsBuiltIns (c : Cluster) : Prop where
  /-- Nothing but a root stands above a root. -/
  root : ∀ a b, c.Extends a b → simpleName a = "Object" → simpleName b = "Object"
  /-- Nothing but a root or another such class stands above the class of all numbers. -/
  numbers : ∀ a b, c.Extends a b → simpleName a = "Number" →
    simpleName b = "Object" ∨ simpleName b = "Number"
  /-- Nothing but a box of numbers stands below a box of numbers. -/
  boxes : ∀ a b, c.Extends a b → boxesNumber b = true → boxesNumber a = true

/-- Whether assignability between classes and arrays is transitive. -/
def TransitiveOnReferences (c : Cluster) : Prop :=
  ∀ s t u : Ty, s.IsReference → t.IsReference → u.IsReference →
    c.isAssignable s t = true → c.isAssignable t u = true → c.isAssignable s u = true

/-! ## Classes -/

section
variable {c : Cluster} {a b d : String}

theorem isClassAssignable_iff :
    c.isClassAssignable a b = true ↔ BuiltIn a b ∨ c.Reaches a b := by
  unfold isClassAssignable BuiltIn
  rw [Bool.or_eq_true, Bool.or_eq_true, Bool.and_eq_true, beq_iff_eq, beq_iff_eq, isSubclass_iff]
  exact or_right_comm

/-- A root or a class of all numbers boxes no numbers. -/
theorem not_boxesNumber (h : simpleName a = "Object" ∨ simpleName a = "Number") :
    boxesNumber a = false := by
  unfold boxesNumber
  rcases h with h | h <;> rw [h] <;> rfl

/-- Two steps make one, unless they are of different kinds and do not lead to a root. -/
theorem isClassAssignable_trans (hab : c.isClassAssignable a b = true)
    (hbd : c.isClassAssignable b d = true) :
    c.isClassAssignable a d = true ∨ c.Mixed a b d := by
  by_cases hsame : a = b
  · exact Or.inl (hsame ▸ hbd)
  by_cases hsame' : b = d
  · exact Or.inl (hsame' ▸ hab)
  rw [isClassAssignable_iff] at hab hbd ⊢
  by_cases hroot : simpleName d = "Object"
  · exact Or.inl (Or.inl (Or.inl hroot))
  rcases hab with hab | hab <;> rcases hbd with hbd | hbd
  · -- What stands for a root or for the class of all numbers by a built-in rule boxes no numbers.
    obtain ⟨-, hboxes⟩ := hbd.resolve_left hroot
    rw [not_boxesNumber (hab.imp_right And.left)] at hboxes
    cases hboxes
  · exact Or.inr ⟨hsame, hsame', hroot, Or.inl ⟨hab, hbd⟩⟩
  · exact Or.inr ⟨hsame, hsame', hroot, Or.inr ⟨hab, hbd.resolve_left hroot⟩⟩
  · exact Or.inl (Or.inr (hab.trans hbd))

end

/-! ## Types -/

section
variable {c : Cluster} {s t u : Ty}

theorem isAssignable_array_iff : c.isAssignable (.array s) (.array t) = true ↔
    s = t ∨ s.IsReference ∧ t.IsReference ∧ c.isAssignable s t = true := by
  cases s <;> cases t <;> simp [isAssignable, Ty.isPrimitive, Ty.IsReference]

/-- Two steps make one, unless they are of different kinds and do not lead to a root. -/
theorem isAssignable_trans (s t u : Ty) (hs : s.IsReference) (ht : t.IsReference)
    (hu : u.IsReference) (hst : c.isAssignable s t = true) (htu : c.isAssignable t u = true) :
    c.isAssignable s u = true ∨ c.MixedTypes s t u := by
  induction s generalizing t u with
  | void | primitive p => exact hs.elim
  | named a =>
    cases t with
    | void | primitive p => exact ht.elim
    | array t => cases hst
    | named b =>
      cases u with
      | void | primitive p => exact hu.elim
      | array u => cases htu
      | named d => exact isClassAssignable_trans hst htu
  | array s ih =>
    cases t with
    | void | primitive p => exact ht.elim
    | named b =>
      cases u with
      | void | primitive p => exact hu.elim
      | array u => cases htu
      | named d =>
        have hb : simpleName b = "Object" := by simpa [isAssignable] using hst
        rcases isClassAssignable_iff.mp htu with (hroot | ⟨-, hboxes⟩) | hreach
        · exact Or.inl (by simpa [isAssignable] using hroot)
        · rw [not_boxesNumber (Or.inl hb)] at hboxes
          cases hboxes
        · by_cases hroot : simpleName d = "Object"
          · exact Or.inl (by simpa [isAssignable] using hroot)
          · exact Or.inr ⟨hb, hroot, hreach⟩
    | array t =>
      cases u with
      | void | primitive p => exact hu.elim
      | named d => exact Or.inl htu
      | array u =>
        rw [isAssignable_array_iff] at hst htu
        obtain rfl | ⟨hs, ht, hst⟩ := hst
        · exact Or.inl (isAssignable_array_iff.mpr htu)
        · obtain rfl | ⟨-, hu, htu⟩ := htu
          · exact Or.inl (isAssignable_array_iff.mpr (Or.inr ⟨hs, ht, hst⟩))
          · refine (ih t u hs ht hu hst htu).imp_left fun hsu => ?_
            exact isAssignable_array_iff.mpr (Or.inr ⟨hs, hu, hsu⟩)

end

/-! ## Respectful clusters -/

section
variable {c : Cluster}

theorem RespectsBuiltIns.reaches_root (h : c.RespectsBuiltIns) {a b : String}
    (hreach : c.Reaches a b) (ha : simpleName a = "Object") : simpleName b = "Object" := by
  induction hreach with
  | refl => exact ha
  | tail _ hstep ih => exact h.root _ _ hstep ih

theorem RespectsBuiltIns.reaches_numbers (h : c.RespectsBuiltIns) {a b : String}
    (hreach : c.Reaches a b) (ha : simpleName a = "Number") :
    simpleName b = "Object" ∨ simpleName b = "Number" := by
  induction hreach with
  | refl => exact Or.inr ha
  | tail _ hstep ih =>
    rcases ih with ih | ih
    · exact Or.inl (h.root _ _ hstep ih)
    · exact h.numbers _ _ hstep ih

theorem RespectsBuiltIns.boxes_of_reaches (h : c.RespectsBuiltIns) {a b : String}
    (hreach : c.Reaches a b) (hb : boxesNumber b = true) : boxesNumber a = true := by
  induction hreach using ReflTransGen.head_induction_on with
  | refl => exact hb
  | head hstep _ ih => exact h.boxes _ _ hstep ih

/-- Where declarations respect the built-in rules, mixed steps are built in. -/
theorem RespectsBuiltIns.builtIn_of_mixed (h : c.RespectsBuiltIns) {a b d : String}
    (hmixed : c.Mixed a b d) : BuiltIn a d := by
  obtain ⟨-, -, -, ⟨hroot | ⟨hnumbers, hboxes⟩, hreach⟩ | ⟨hreach, hd, hboxes⟩⟩ := hmixed
  · exact Or.inl (h.reaches_root hreach hroot)
  · exact (h.reaches_numbers hreach hnumbers).imp_right fun hd => ⟨hd, hboxes⟩
  · exact Or.inr ⟨hd, h.boxes_of_reaches hreach hboxes⟩

theorem RespectsBuiltIns.isAssignable_of_mixed (h : c.RespectsBuiltIns) (s t u : Ty)
    (hmixed : c.MixedTypes s t u) :
    s.IsReference ∧ u.IsReference ∧ c.isAssignable s u = true := by
  induction s generalizing t u with
  | void | primitive p => exact hmixed.elim
  | named a =>
    match t, u, hmixed with
    | .named b, .named d, hmixed =>
      have had : c.isClassAssignable a d = true :=
        isClassAssignable_iff.mpr (Or.inl (h.builtIn_of_mixed hmixed))
      exact ⟨True.intro, True.intro, had⟩
  | array s ih =>
    match t, u, hmixed with
    | .named b, .named d, ⟨hb, _, hreach⟩ =>
      exact ⟨True.intro, True.intro, by simpa [isAssignable] using h.reaches_root hreach hb⟩
    | .array t, .array u, hmixed =>
      exact ⟨True.intro, True.intro, isAssignable_array_iff.mpr (Or.inr (ih t u hmixed))⟩

end

/-! ## Clusters that do not respect the rules -/

theorem simpleName_qualified (qualifier : List Char) (simple : String)
    (h : '.' ∉ simple.toList) :
    simpleName (String.ofList (qualifier ++ '.' :: simple.toList)) = simple := by
  have hplain : ∀ ch ∈ simple.toList.reverse, decide (ch ≠ '.') = true := by
    intro ch hch
    rw [decide_eq_true_iff]
    rintro rfl
    exact h (List.mem_reverse.mp hch)
  unfold simpleName
  rw [String.toList_ofList, List.reverse_append, List.reverse_cons, List.append_assoc,
    List.takeWhile_append_of_pos hplain]
  simp

theorem exists_length_gt (names : List String) : ∃ n, ∀ name ∈ names, name.length < n := by
  induction names with
  | nil => exact ⟨0, nofun⟩
  | cons name rest ih =>
    obtain ⟨n, hn⟩ := ih
    refine ⟨max n (name.length + 1), fun other hmem => ?_⟩
    rcases List.mem_cons.mp hmem with rfl | hmem
    · omega
    · have hother := hn other hmem
      omega

/-- There are classes of every simple name outside a list. -/
theorem exists_fresh (names : List String) (simple : String) (h : '.' ∉ simple.toList) :
    ∃ name, simpleName name = simple ∧ name ∉ names := by
  obtain ⟨n, hn⟩ := exists_length_gt names
  refine ⟨String.ofList (List.replicate n 'a' ++ '.' :: simple.toList),
    simpleName_qualified _ simple h, fun hmem => ?_⟩
  have hlength := hn _ hmem
  simp only [String.length_ofList, List.length_append, List.length_replicate] at hlength
  omega

section
variable {c : Cluster}

/-- A way up between different names starts at a declared class and ends at a declared supertype. -/
theorem reaches_cases {a b : String} (h : c.Reaches a b) :
    a = b ∨ a ∈ c.classes.map (·.name) ∧ b ∈ c.classes.flatMap (·.supertypes) := by
  rcases h.cases_head with rfl | ⟨a', ⟨d, hd, rfl, -⟩, -⟩
  · exact Or.inl rfl
  · rcases h.cases_tail with hsame | ⟨b', -, e, he, -, hb⟩
    · exact Or.inl hsame.symm
    · exact Or.inr ⟨List.mem_map_of_mem hd, List.mem_flatMap.mpr ⟨e, he, hb⟩⟩

theorem TransitiveOnReferences.respects (h : c.TransitiveOnReferences) : c.RespectsBuiltIns where
  root a b hstep ha := by
    have hroot : c.isAssignable (.array .int) (.named a) = true := by
      simpa [isAssignable] using ha
    have hab : c.isClassAssignable a b = true := isClassAssignable_iff.mpr (Or.inr (.single hstep))
    have hb := h (.array .int) (.named a) (.named b) True.intro True.intro True.intro hroot hab
    simpa [isAssignable] using hb
  numbers a b hstep ha := by
    obtain ⟨box, hbox, hfresh⟩ :=
      exists_fresh (b :: c.classes.map (·.name)) "Integer" (by decide)
    have hboxes : boxesNumber box = true := by
      unfold boxesNumber
      rw [hbox]
      rfl
    have hin : c.isClassAssignable box a = true :=
      isClassAssignable_iff.mpr (Or.inl (Or.inr ⟨ha, hboxes⟩))
    have hab : c.isClassAssignable a b = true := isClassAssignable_iff.mpr (Or.inr (.single hstep))
    have hb := h (.named box) (.named a) (.named b) True.intro True.intro True.intro hin hab
    rcases isClassAssignable_iff.mp hb with hb | hreach
    · exact hb.imp_right And.left
    · rcases reaches_cases hreach with rfl | ⟨hdeclared, -⟩
      · exact absurd List.mem_cons_self hfresh
      · exact absurd (List.mem_cons_of_mem _ hdeclared) hfresh
  boxes a b hstep hb := by
    obtain ⟨numbers, hnumbers, hfresh⟩ :=
      exists_fresh (a :: c.classes.flatMap (·.supertypes)) "Number" (by decide)
    have hab : c.isClassAssignable a b = true := isClassAssignable_iff.mpr (Or.inr (.single hstep))
    have hout : c.isClassAssignable b numbers = true :=
      isClassAssignable_iff.mpr (Or.inl (Or.inr ⟨hnumbers, hb⟩))
    have ha := h (.named a) (.named b) (.named numbers) True.intro True.intro True.intro hab hout
    rcases isClassAssignable_iff.mp ha with (hroot | ⟨-, hboxes⟩) | hreach
    · rw [hnumbers] at hroot
      exact absurd hroot (by decide)
    · exact hboxes
    · rcases reaches_cases hreach with rfl | ⟨-, hsuper⟩
      · exact absurd List.mem_cons_self hfresh
      · exact absurd (List.mem_cons_of_mem _ hsuper) hfresh

end

/-! ## Top theorems -/

/-- Assignability between classes and arrays is reflexive.  Two steps make one unless one of them is
built in, the other declared, and the two lead to no root; they always make one if and only if the
declarations respect the built-in rules. -/
theorem isAssignable_preorder (c : Cluster) :
    (∀ t : Ty, t.IsReference → c.isAssignable t t = true) ∧
    (∀ s t u : Ty, s.IsReference → t.IsReference → u.IsReference →
      c.isAssignable s t = true → c.isAssignable t u = true →
      c.isAssignable s u = true ∨ c.MixedTypes s t u) ∧
    (c.TransitiveOnReferences ↔ c.RespectsBuiltIns) := by
  refine ⟨fun t ht => c.isAssignable_self t ?_, isAssignable_trans, ?_, ?_⟩
  · rintro rfl
    exact ht
  · exact TransitiveOnReferences.respects
  · intro h s t u hs ht hu hst htu
    rcases isAssignable_trans s t u hs ht hu hst htu with hsu | hmixed
    · exact hsu
    · exact (h.isAssignable_of_mixed s t u hmixed).2.2

/-! ### A supertype of the class of all numbers -/

/-- Numbers can be written down; the boxes of numbers are not declared. -/
def writtenNumbers : Cluster :=
  ⟨[{ ClassDecl.ofName "Number" with interfaces := ["Serializable"] }], by decide⟩

/-- A box of numbers stands for a number, and a number for what can be written down, but the box
does not. -/
theorem isAssignable_breaks :
    writtenNumbers.isAssignable (.named "Integer") (.named "Number") = true ∧
      writtenNumbers.isAssignable (.named "Number") (.named "Serializable") = true ∧
      writtenNumbers.isAssignable (.named "Integer") (.named "Serializable") = false := by
  refine ⟨?_, ?_, ?_⟩ <;> cbv

end Cluster

end SuiteSearch
