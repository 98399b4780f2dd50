import SuiteSearch.Proofs.Ty.Name

/-!
# What a type is read from

Blanks come off both ends of a text and then a pair of brackets off its end, until no pair is left.
What is left is the base.  The text names a type exactly if the base is not empty and holds no
blank: as many levels of arrays as pairs came off, around what the base names.

    Peels cs n base           n pairs of brackets come off cs, down to base
    Names name t              what a name without brackets stands for
    exists_peels, Peels.unique
                              every text comes down to one base
    Peels.parseChars_name     a base that is a name is read, with its levels
    Peels.parseChars_other    any other base is told in the error
    parse_consistent          reading and writing, for every text
-/

namespace SuiteSearch.Ty

/-! ## Algorithm -/

/-- Trimmed again and again, the text loses `n` pairs of brackets at its end, and then none is
left. -/
inductive Peels : List Char → Nat → List Char → Prop
  | base {cs base : List Char} : Text.Trimmed cs base → (∀ rest, base ≠ rest ++ ['[', ']']) →
      Peels cs 0 base
  | brackets {cs rest base : List Char} {n : Nat} : Text.Trimmed cs (rest ++ ['[', ']']) →
      Peels rest n base → Peels cs (n + 1) base

/-- A name stands for no value, for the primitive type with that keyword, or for a class. -/
inductive Names : String → Ty → Prop
  | void : Names "void" .void
  | primitive (p : Primitive) : Names p.keyword (.primitive p)
  | named {name : String} : name ≠ "void" → (∀ p : Primitive, p.keyword ≠ name) →
      Names name (.named name)

/-- The number of array levels. -/
def levels : Ty → Nat
  | .array component => component.levels + 1
  | _ => 0

/-! ## Names -/

/-- A name is read as what it stands for. -/
theorem names_ofBase (name : String) : Names name (ofBase name) := by
  unfold ofBase
  split
  · next hvoid =>
    rw [hvoid]
    exact .void
  · next hvoid =>
    cases hkeyword : Primitive.ofKeyword? name with
    | none =>
      refine .named hvoid ?_
      rintro p rfl
      rw [Primitive.ofKeyword?_keyword] at hkeyword
      cases hkeyword
    | some p =>
      have hname : p.keyword = name := by simpa using List.find?_some hkeyword
      rw [← hname]
      exact .primitive p

/-- What a name stands for is no array. -/
theorem Names.base {name : String} {t : Ty} (h : Names name t) : t.levels = 0 ∧ t.element = t := by
  cases h <;> exact ⟨rfl, rfl⟩

theorem isBaseName_iff (cs : List Char) :
    isBaseName cs = true ↔ cs ≠ [] ∧ ∀ c ∈ cs, Text.isBlank c = false := by
  simp [isBaseName]

/-! ## Brackets -/

theorem stripBrackets?_eq_some_iff (cs rest : List Char) :
    stripBrackets? cs = some rest ↔ cs = rest ++ ['[', ']'] := by
  constructor
  · intro h
    unfold stripBrackets? at h
    split at h
    · next init hcs =>
      obtain rfl := Option.some.inj h
      rw [List.reverse_eq_iff] at hcs
      simpa using hcs
    · cases h
  · rintro rfl
    exact stripBrackets?_append rest

theorem stripBrackets?_eq_none_iff (cs : List Char) :
    stripBrackets? cs = none ↔ ∀ rest, cs ≠ rest ++ ['[', ']'] := by
  constructor
  · rintro h rest rfl
    rw [stripBrackets?_append] at h
    cases h
  · intro h
    cases hstrip : stripBrackets? cs with
    | none => rfl
    | some rest => exact absurd ((stripBrackets?_eq_some_iff cs rest).mp hstrip) (h rest)

/-- Every text comes down to a base. -/
theorem exists_peels (cs : List Char) : ∃ n base, Peels cs n base := by
  fun_induction parseChars cs with
  | case1 cs rest hstrip ih =>
    obtain ⟨n, base, hpeels⟩ := ih
    refine ⟨n + 1, base, .brackets ?_ hpeels⟩
    rw [Text.trimmed_iff]
    exact (stripBrackets?_eq_some_iff _ rest).mp hstrip
  | case2 cs hstrip _ =>
    exact ⟨0, _, .base (Text.trimmed_trim cs) ((stripBrackets?_eq_none_iff _).mp hstrip)⟩
  | case3 cs hstrip _ =>
    exact ⟨0, _, .base (Text.trimmed_trim cs) ((stripBrackets?_eq_none_iff _).mp hstrip)⟩

/-- No text comes down to two bases. -/
theorem Peels.unique {cs base base' : List Char} {n n' : Nat} (h : Peels cs n base)
    (h' : Peels cs n' base') : n' = n ∧ base' = base := by
  induction h generalizing n' with
  | base htrim hnone =>
    cases h' with
    | base htrim' _ => exact ⟨rfl, htrim'.trim.symm.trans htrim.trim⟩
    | brackets htrim' _ => exact absurd (htrim.trim.symm.trans htrim'.trim) (hnone _)
  | brackets htrim _ ih =>
    cases h' with
    | base htrim' hnone => exact absurd (htrim'.trim.symm.trans htrim.trim) (hnone _)
    | brackets htrim' hpeels =>
      obtain rfl := List.append_cancel_right (htrim'.trim.symm.trans htrim.trim)
      obtain ⟨rfl, rfl⟩ := ih hpeels
      exact ⟨rfl, rfl⟩

/-! ## Reading -/

/-- A base that is a name is read as what it stands for, in as many levels of arrays as pairs of
brackets came off. -/
theorem Peels.parseChars_name {cs base : List Char} {n : Nat} (h : Peels cs n base)
    (hname : isBaseName base = true) :
    ∃ t, parseChars cs = .ok t ∧ t.levels = n ∧ Names (String.ofList base) t.element := by
  induction h with
  | @base cs base htrim hnone =>
    have hstrip := (stripBrackets?_eq_none_iff base).mpr hnone
    rw [← htrim.trim] at hstrip hname
    have hnames := names_ofBase (String.ofList base)
    refine ⟨ofBase (String.ofList base), ?_, hnames.base.1, ?_⟩
    · rw [parseChars_of_base hstrip, if_pos hname, htrim.trim]
    · rwa [hnames.base.2]
  | @brackets cs rest base n htrim _ ih =>
    obtain ⟨t, hread, hlevels, hnames⟩ := ih hname
    have hstrip := (stripBrackets?_eq_some_iff _ rest).mpr htrim.trim
    refine ⟨.array t, ?_, by rw [levels, hlevels], hnames⟩
    rw [parseChars_of_brackets hstrip, hread]
    rfl

/-- Any other base is told in the error. -/
theorem Peels.parseChars_other {cs base : List Char} {n : Nat} (h : Peels cs n base)
    (hname : isBaseName base = false) :
    parseChars cs = .error (.typeName (String.ofList base)) := by
  induction h with
  | @base cs base htrim hnone =>
    have hstrip := (stripBrackets?_eq_none_iff base).mpr hnone
    rw [← htrim.trim] at hstrip hname
    rw [parseChars_of_base hstrip, if_neg (by simp [hname]), htrim.trim]
  | @brackets cs rest base n htrim _ ih =>
    have hstrip := (stripBrackets?_eq_some_iff _ rest).mpr htrim.trim
    rw [parseChars_of_brackets hstrip, ih hname]
    rfl

/-! ## Top theorem -/

/-- Every text comes down to one base, off which one number of pairs of brackets came.  It is read
exactly if the base is not empty and holds no blank; then the type has as many levels of arrays as
pairs came off, around what the base names, and it is read back from its written form. -/
theorem parse_consistent (s : String) :
    ∃ n base, (∀ n' base', Peels s.toList n' base' ↔ n' = n ∧ base' = base) ∧
      ((∃ t, parse s = .ok t) ↔ base ≠ [] ∧ ∀ c ∈ base, Text.isBlank c = false) ∧
      (∀ t, parse s = .ok t →
        t.levels = n ∧ Names (String.ofList base) t.element ∧ parse t.render = .ok t) ∧
      ∀ e, parse s = .error e → e = .typeName (String.ofList base) := by
  obtain ⟨n, base, hpeels⟩ := exists_peels s.toList
  have hunique : ∀ n' base', Peels s.toList n' base' ↔ n' = n ∧ base' = base := by
    intro n' base'
    constructor
    · exact hpeels.unique
    · rintro ⟨rfl, rfl⟩
      exact hpeels
  refine ⟨n, base, hunique, ?_⟩
  rw [← isBaseName_iff]
  cases hname : isBaseName base with
  | true =>
    obtain ⟨t, hread, hlevels, hnames⟩ := hpeels.parseChars_name hname
    have hparse : parse s = .ok t := hread
    rw [hparse]
    refine ⟨iff_of_true ⟨t, rfl⟩ rfl, ?_, nofun⟩
    rintro _ ⟨⟩
    exact ⟨hlevels, hnames, parse_render (written_of_parse s t hparse)⟩
  | false =>
    have hparse : parse s = .error (.typeName (String.ofList base)) :=
      hpeels.parseChars_other hname
    rw [hparse]
    refine ⟨iff_of_false nofun Bool.false_ne_true, nofun, ?_⟩
    rintro _ ⟨⟩
    rfl

example : parse " int [] []" = .ok (.array (.array .int)) := by cbv

example : parse " []" = .error (.typeName "") := by cbv

end SuiteSearch.Ty
