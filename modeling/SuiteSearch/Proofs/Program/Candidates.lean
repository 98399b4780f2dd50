import Mathlib.Data.List.Nodup
import SuiteSearch.Proofs.Program.Anchors
import SuiteSearch.Proofs.Program.Offers
import SuiteSearch.Proofs.Program.Splicing
import SuiteSearch.Proofs.Program.Users

/-!
# Candidates in scope

The search in scope goes through the statements before a position and appends what each one offers.
What it appends for a statement is based on that statement and not listed yet, so that nothing is
listed twice; and a later search goes through the same statements first, with more elements written.

    p.InScope c ty position f r        r can stand at the position, and no exclusion of f is about it
    mem_pushNew                        a field is appended if it is wanted and not listed
    of_mem_pushCompatible              what is appended is based on the statement, two fields deep
    nodup_pushCompatible               and not listed yet
    pushCompatible_subset              more written elements offer more
    findCompatible_inScope             candidates are in scope, listed once, and stay candidates
-/

namespace SuiteSearch

/-! ## Algorithm -/

/-- What it means that a filter admits a reference. -/
structure CandidateFilter.Respects (f : CandidateFilter) (p : Program) (r : Ref) : Prop where
  null : f.excludeNull = true → r.isNull = false
  element : f.excludeElements = true → r.isElement = false
  literal : f.excludePrimitives = true → ∀ s ∈ baseStatement? p r, s.op.isLiteral = false
  primitive : f.excludePrimitives = true →
    ∀ t ∈ p.typeOf? r, t.isPrimitive = false ∧ t.isWrapper = false
  mock : f.mocks = .excludeAll → ∀ s ∈ baseStatement? p r, s.op.mock = none
  functionalMock : f.mocks = .excludeFunctional →
    ∀ s ∈ baseStatement? p r, s.op.mock ≠ some .functional

/-- What it means that a value can stand at a position, where one of a type is needed. -/
structure Program.InScope (p : Program) (c : Cluster) (ty : Ty) (position : Nat)
    (f : CandidateFilter) (r : Ref) : Prop where
  earlier : ∃ i, i < position ∧ i < p.length ∧ r.position = some i
  typed : ∃ t, p.typeOf? r = some t ∧ c.isAssignable t ty = true
  depth : r.depth ≤ 2
  respects : f.Respects p r
  /-- An element is written by a store before the position. -/
  written : ∀ array k, r = .element array k → ∃ j s target value, j < position ∧
    p.statements[j]? = some s ∧ s.op = .store target value ∧ target.sameValue r = true

/-! ## Lemmas -/

theorem CandidateFilter.respects_of_admits {f : CandidateFilter} {p : Program} {r : Ref}
    (h : f.admits p r = true) : f.Respects p r := by
  obtain ⟨⟨⟨hnull, helement⟩, hprimitive⟩, hmock⟩ :
      (((f.excludeNull = true → r.isNull = false) ∧ (f.excludeElements = true → r.isElement = false)) ∧
        (f.excludePrimitives = true → isPrimitiveValue p r = false)) ∧
      f.mocks.admits ((baseStatement? p r).bind (·.op.mock)) = true := by
    simpa only [admits, Bool.and_eq_true, Bool.not_eq_true', Bool.and_eq_false_imp] using h
  refine ⟨hnull, helement, fun hf s hs => ?_, fun hf t ht => ?_, fun hf s hs => ?_, fun hf s hs => ?_⟩
  · have hnone := (Bool.or_eq_false_iff.mp (hprimitive hf)).1
    rw [hs] at hnone
    exact hnone
  · have hnone := (Bool.or_eq_false_iff.mp (hprimitive hf)).2
    rw [ht] at hnone
    exact Bool.or_eq_false_iff.mp hnone
  · rw [hf, hs] at hmock
    exact Option.isNone_iff_eq_none.mp hmock
  · rw [hf, hs] at hmock
    exact bne_iff_ne.mp hmock

theorem Reached.position {c : Cluster} {s : Statement} {i : Nat} {r : Ref} {t : Ty}
    (h : Reached c s i r t) (hstore : s.op.isStore = false) : r.position = some i := by
  induction h with
  | output => exact (s.output_resultOf i hstore).position
  | field _ _ _ ih => exact ih

theorem Reached.typeOf? {p : Program} {c : Cluster} {s : Statement} {i : Nat} {r : Ref} {t : Ty}
    (h : Reached c s i r t) (hs : p.statements[i]? = some s) (hstore : s.op.isStore = false) :
    p.typeOf? r = some t := by
  cases h with
  | output =>
    rcases s.output_resultOf i hstore with h | h <;>
    · rw [h, Program.typeOf?, hs]
      rfl
  | field _ _ _ => rfl

theorem Reached.isElement {c : Cluster} {s : Statement} {i : Nat} {r : Ref} {t : Ty}
    (h : Reached c s i r t) (hstore : s.op.isStore = false) : r.isElement = false := by
  cases h with
  | output => rcases s.output_resultOf i hstore with h | h <;> rw [h] <;> rfl
  | field _ _ _ => rfl

namespace Program

section
variable {α β : Type} {push push' : List β → α → List β}

theorem subset_foldl (l : List α) (hpush : ∀ a ∈ l, ∀ out, out ⊆ push out a) (out : List β) :
    out ⊆ l.foldl push out := by
  induction l generalizing out with
  | nil => exact List.Subset.refl _
  | cons a rest ih =>
    refine List.Subset.trans (hpush a List.mem_cons_self out) (ih (fun b hb => ?_) _)
    exact hpush b (List.mem_cons_of_mem a hb)

theorem foldl_subset (l : List α)
    (hpush : ∀ a ∈ l, ∀ out out', out ⊆ out' → push out a ⊆ push' out' a) (out out' : List β)
    (h : out ⊆ out') : l.foldl push out ⊆ l.foldl push' out' := by
  induction l generalizing out out' with
  | nil => exact h
  | cons a rest ih =>
    refine ih (fun b hb => hpush b (List.mem_cons_of_mem a hb)) _ _ ?_
    exact hpush a List.mem_cons_self out out' h

end

/-! ## Fields -/

/-- A reference is appended if it is wanted and not listed yet. -/
theorem mem_pushNew (wanted : Bool) (next x : Ref) (out : List Ref) :
    x ∈ (if wanted && !out.contains next then out ++ [next] else out) ↔
      x ∈ out ∨ wanted = true ∧ x = next := by
  split
  · next h =>
    rw [Bool.and_eq_true] at h
    rw [List.mem_append, List.mem_singleton]
    exact or_congr_right (iff_and_self.mpr fun _ => h.1)
  · next h =>
    refine (or_iff_left_of_imp ?_).symm
    rintro ⟨rfl, rfl⟩
    simpa using h

theorem nodup_pushNew (wanted : Bool) (next : Ref) (out : List Ref) (h : out.Nodup) :
    (if wanted && !out.contains next then out ++ [next] else out).Nodup := by
  split
  · next hnew =>
    have hnot : next ∉ out := by
      simp only [Bool.and_eq_true, Bool.not_eq_true', List.contains_eq_mem,
        decide_eq_false_iff_not] at hnew
      exact hnew.2
    exact List.concat_eq_append ▸ (List.nodup_concat out next).mpr ⟨hnot, h⟩
  · exact h

section
variable (c : Cluster) (wanted : Ty → Bool) (depth : Nat) (r : Ref) (t : Ty) (out out' : List Ref)

theorem of_mem_pushFields (x : Ref) (h : x ∈ pushFields c wanted depth r t out) :
    x ∈ out ∨ x.position = r.position ∧ x.depth ≤ r.depth + depth := by
  induction depth generalizing r t out x with
  | zero => exact Or.inl h
  | succ depth ih =>
    unfold pushFields at h
    split at h
    · exact Or.inl h
    · refine mem_foldl_of_push
        (P := fun x => x.position = r.position ∧ x.depth ≤ r.depth + (depth + 1)) _ ?_ out x h
      intro f _ out x hx
      rcases ih _ _ _ _ hx with hx | ⟨hpos, hdepth⟩
      · rcases (mem_pushNew _ _ _ _).mp hx with hx | ⟨-, rfl⟩
        · exact Or.inl hx
        · refine Or.inr ⟨rfl, ?_⟩
          rw [Ref.depth]
          omega
      · rw [Ref.depth] at hdepth
        exact Or.inr ⟨hpos, by omega⟩

theorem subset_pushFields : out ⊆ pushFields c wanted depth r t out := by
  induction depth generalizing r t out with
  | zero => exact List.Subset.refl _
  | succ depth ih =>
    unfold pushFields
    split
    · exact List.Subset.refl _
    · refine subset_foldl _ (fun f _ out x hx => ?_) out
      exact ih _ _ _ ((mem_pushNew _ _ _ _).mpr (Or.inl hx))

theorem pushFields_subset (h : out ⊆ out') :
    pushFields c wanted depth r t out ⊆ pushFields c wanted depth r t out' := by
  induction depth generalizing r t out out' with
  | zero => exact h
  | succ depth ih =>
    unfold pushFields
    split
    · exact h
    · refine foldl_subset _ (fun f _ out out' h => ?_) out out' h
      refine ih _ _ _ _ fun x hx => ?_
      exact (mem_pushNew _ _ _ _).mpr (((mem_pushNew _ _ _ _).mp hx).imp_left (h ·))

theorem nodup_pushFields (h : out.Nodup) : (pushFields c wanted depth r t out).Nodup := by
  induction depth generalizing r t out with
  | zero => exact h
  | succ depth ih =>
    unfold pushFields
    split
    · exact h
    · refine List.foldlRecOn (motive := List.Nodup) _ _ h fun out hout f _ => ?_
      exact ih _ _ _ (nodup_pushNew _ _ out hout)

end

/-! ## Values of one statement -/

section
variable (c : Cluster) (ty : Ty) (before before' : List Statement) (s : Statement) (i : Nat)
  (out out' : List Ref)

/-- What a statement offers is based on it, at most two fields deep. -/
theorem of_mem_pushCompatible (x : Ref) (h : x ∈ pushCompatible c ty before out (s, i)) :
    x ∈ out ∨ x.position = some i ∧ x.depth ≤ 2 := by
  rcases pushCompatible_cases c ty s i with
    heq | ⟨hstore, ⟨-, heq⟩ | ⟨n, component, -, -, -, heq⟩ | heq⟩ <;> rw [heq] at h
  · exact Or.inl h
  · refine (List.mem_append.mp h).imp_right fun h => ?_
    rw [List.mem_singleton.mp h]
    rcases s.output_resultOf i hstore with hout | hout <;> rw [hout] <;>
      exact ⟨rfl, Nat.zero_le 2⟩
  · refine (List.mem_append.mp h).imp_right fun h => ?_
    obtain ⟨k, -, rfl⟩ := List.mem_map.mp h
    exact ⟨rfl, Nat.zero_le 2⟩
  · refine (of_mem_pushFields c _ _ _ _ out x h).imp_right ?_
    rintro ⟨hpos, hdepth⟩
    rcases s.output_resultOf i hstore with hout | hout <;> rw [hout] at hpos hdepth <;>
      exact ⟨hpos, hdepth⟩

theorem subset_pushCompatible : out ⊆ pushCompatible c ty before out (s, i) := by
  rcases pushCompatible_cases c ty s i with
    heq | ⟨-, ⟨-, heq⟩ | ⟨n, component, -, -, -, heq⟩ | heq⟩ <;> rw [heq]
  · exact List.Subset.refl _
  · exact List.subset_append_left _ _
  · exact List.subset_append_left _ _
  · exact subset_pushFields c _ _ _ _ out

/-- The more elements are written, the more is offered. -/
theorem pushCompatible_subset
    (hwritten : ∀ a k, isInitialized before a k = true → isInitialized before' a k = true)
    (h : out ⊆ out') :
    pushCompatible c ty before out (s, i) ⊆ pushCompatible c ty before' out' (s, i) := by
  rcases pushCompatible_cases c ty s i with
    heq | ⟨-, ⟨-, heq⟩ | ⟨n, component, -, -, -, heq⟩ | heq⟩ <;> rw [heq, heq]
  · exact h
  · exact List.append_subset.mpr
      ⟨List.subset_append_of_subset_left _ h, List.subset_append_right _ _⟩
  · refine List.append_subset.mpr ⟨List.subset_append_of_subset_left _ h,
      List.subset_append_of_subset_right _ (List.map_subset _ fun k hk => ?_)⟩
    obtain ⟨hk, hinit⟩ := List.mem_filter.mp hk
    exact List.mem_filter.mpr ⟨hk, hwritten _ _ hinit⟩
  · exact pushFields_subset c _ _ _ _ out out' h

/-- What a statement offers is not listed yet, if nothing that is listed is based on it. -/
theorem nodup_pushCompatible (h : out.Nodup) (hnew : ∀ x ∈ out, x.position ≠ some i) :
    (pushCompatible c ty before out (s, i)).Nodup := by
  rcases pushCompatible_cases c ty s i with
    heq | ⟨hstore, ⟨-, heq⟩ | ⟨n, component, -, -, -, heq⟩ | heq⟩ <;> rw [heq]
  · exact h
  · refine h.append (List.nodup_singleton _) fun x hx hvalue => hnew x hx ?_
    rw [List.mem_singleton.mp hvalue]
    exact (s.output_resultOf i hstore).position
  · have helements : Function.Injective (Ref.element (.value i)) := fun _ _ h => by cases h; rfl
    refine h.append ((List.nodup_range.filter _).map helements) fun x hx helement => hnew x hx ?_
    obtain ⟨k, -, rfl⟩ := List.mem_map.mp helement
    rfl
  · exact nodup_pushFields c _ _ _ _ out h

end

/-! ## Candidates -/

theorem nodup_foldl_pushCompatible (c : Cluster) (ty : Ty) (before : List Statement)
    (l : List (Statement × Nat)) (hl : l.Pairwise fun a b => a.2 < b.2) (out : List Ref)
    (hout : out.Nodup) (hnew : ∀ x ∈ out, ∀ a ∈ l, x.position ≠ some a.2) :
    (l.foldl (pushCompatible c ty before) out).Nodup := by
  induction l generalizing out with
  | nil => exact hout
  | cons a rest ih =>
    obtain ⟨s, i⟩ := a
    obtain ⟨hi, hrest⟩ := List.pairwise_cons.mp hl
    refine ih hrest _ ?_ fun x hx a ha => ?_
    · exact nodup_pushCompatible c ty before s i out hout fun x hx =>
        hnew x hx (s, i) List.mem_cons_self
    · rcases of_mem_pushCompatible c ty before s i out x hx with hx | ⟨hpos, -⟩
      · exact hnew x hx a (List.mem_cons_of_mem _ ha)
      · rw [hpos, Ne, Option.some.injEq]
        exact Nat.ne_of_lt (hi a ha)

section
variable (p : Program) (c : Cluster) (ty : Ty) (position : Nat) (f : CandidateFilter)

theorem nodup_findCompatible : (p.findCompatible c ty position f).Nodup := by
  refine List.Nodup.filter _ (nodup_foldl_pushCompatible c ty _ _ (zipIdx_sorted _ 0) [] ?_ ?_)
  · exact List.nodup_nil
  · exact fun _ hx => absurd hx List.not_mem_nil

theorem depth_of_mem_findCompatible (r : Ref) (h : r ∈ p.findCompatible c ty position f) :
    r.depth ≤ 2 := by
  refine (mem_foldl_of_push (P := fun r => r.depth ≤ 2) _ ?_ [] r
    (List.mem_filter.mp h).1).resolve_left List.not_mem_nil
  rintro ⟨s, i⟩ - out x hx
  exact (of_mem_pushCompatible c ty _ s i out x hx).imp_right And.right

theorem Offer.inScope {r : Ref} (h : Offer c ty (p.statements.take position) r)
    (hdepth : r.depth ≤ 2) (hadmits : f.admits p r = true) : p.InScope c ty position f r := by
  have hrespects := CandidateFilter.respects_of_admits hadmits
  cases h with
  | reached hs hstore hr hassign =>
    obtain ⟨hi, hs⟩ := getElem?_of_take hs
    refine ⟨⟨_, hi, (List.getElem?_eq_some_iff.mp hs).1, hr.position hstore⟩,
      ⟨_, hr.typeOf? hs hstore, hassign⟩, hdepth, hrespects, ?_⟩
    rintro array k rfl
    cases hr.isElement hstore
  | @element i k n s component hs hop hty hassign hwritten =>
    obtain ⟨hi, hs⟩ := getElem?_of_take hs
    refine ⟨⟨i, hi, (List.getElem?_eq_some_iff.mp hs).1, rfl⟩, ⟨component, ?_, hassign⟩, hdepth,
      hrespects, ?_⟩
    · rw [typeOf?, typeOf?, hs, Option.map_some, hty]
      rfl
    · rintro _ _ ⟨⟩
      obtain ⟨t, ht, hsame⟩ := List.any_eq_true.mp hwritten
      obtain ⟨j, hj⟩ := List.getElem?_of_mem ht
      obtain ⟨hlt, hj⟩ := getElem?_of_take hj
      split at hsame
      · next target value hop => exact ⟨j, t, target, value, hlt, hj, hop, hsame⟩
      · cases hsame

theorem findCompatible_subset (later : Nat) (h : position ≤ later) :
    p.findCompatible c ty position f ⊆ p.findCompatible c ty later f := by
  obtain ⟨rest, hrest⟩ := List.take_prefix_take_left (l := p.statements) h
  have hwritten : ∀ a k, isInitialized (p.statements.take position) a k = true →
      isInitialized (p.statements.take later) a k = true := by
    intro a k ha
    rw [isInitialized] at ha ⊢
    rw [← hrest, List.any_append, ha, Bool.true_or]
  refine List.filter_subset _ ?_
  rw [← hrest, List.zipIdx_append, List.foldl_append, hrest]
  refine List.Subset.trans (foldl_subset _ ?_ [] [] (List.Subset.refl _)) (subset_foldl _ ?_ _)
  · rintro ⟨s, i⟩ - out out' h
    exact pushCompatible_subset c ty _ _ s i out out' hwritten h
  · rintro ⟨s, i⟩ - out
    exact subset_pushCompatible c ty _ s i out

/-- What is offered at a position is in scope there; it is offered once, and at every later position,
too. -/
theorem findCompatible_inScope :
    (p.findCompatible c ty position f).Nodup ∧
    (∀ r ∈ p.findCompatible c ty position f, p.InScope c ty position f r) ∧
    ∀ later, position ≤ later →
      p.findCompatible c ty position f ⊆ p.findCompatible c ty later f := by
  refine ⟨nodup_findCompatible p c ty position f, fun r hr => ?_,
    findCompatible_subset p c ty position f⟩
  exact Offer.inScope p c ty position f (mem_findCompatible p c ty position f r hr)
    (depth_of_mem_findCompatible p c ty position f r hr) (List.mem_filter.mp hr).2

end

/-! ### Chains of links -/

namespace Chains

def link : ClassDecl :=
  { ClassDecl.ofName "Link" with
    constructors := [[]]
    fields := [⟨"next", .named "Link", false, true⟩, ⟨"weight", .int, false, true⟩] }

def links : Cluster := ⟨[link], by decide⟩

def next : Field := link.fieldOf ⟨"next", .named "Link", false, true⟩

def weight : Field := link.fieldOf ⟨"weight", .int, false, true⟩

/-- A link, and an array of two numbers of which the second one is written. -/
def weighed : Program :=
  { Program.empty with
    statements := [
      .construct ⟨link.ty, []⟩ [],
      .allocate .int 2,
      .literal (.int 7) .int,
      .store (.value 1) 1 (.value 2) .int] }

theorem accessibleFields_link : links.accessibleFields link.ty = [next, weight] := by cbv

theorem not_isAssignable_link : links.isAssignable link.ty .int = false := by cbv

theorem isAssignable_int : links.isAssignable .int .int = true := by decide

theorem pushFields_link :
    pushFields links (links.isAssignable · .int) maxFieldDepth (.value 0) link.ty [] =
      [.field (.field (.value 0) next) weight, .field (.value 0) weight] := by
  have hlink : link.ty.isPrimitive = false := rfl
  have hint : Ty.int.isPrimitive = true := rfl
  have hnext : next.ty = link.ty := rfl
  have hweight : weight.ty = .int := rfl
  simp [pushFields, maxFieldDepth, accessibleFields_link, hlink, hint, hnext, hweight,
    not_isAssignable_link, isAssignable_int, Ref.isNull]

theorem pushCompatible_link (before : List Statement) :
    pushCompatible links .int before [] (.construct ⟨link.ty, []⟩ [], 0) =
      [.field (.field (.value 0) next) weight, .field (.value 0) weight] := by
  have hlink : links.isAssignable (Statement.construct ⟨link.ty, []⟩ []).ty .int = false :=
    not_isAssignable_link
  refine Eq.trans ?_ pushFields_link
  unfold pushCompatible
  simp only [hlink]
  rfl

/-- All numbers in scope: the weights of the link and of the next one, the written element, and the
literal. -/
theorem findCompatible_weighed : weighed.findCompatible links .int 4 .nonNull =
    [.field (.field (.value 0) next) weight, .field (.value 0) weight, .element (.value 1) 1,
      .value 2] := by
  change ([(_, 0), (_, 1), (_, 2), (_, 3)].foldl _ []).filter _ = _
  rw [List.foldl_cons, pushCompatible_link]
  rfl

end Chains

open Chains in
/-- The weight of the next link and the written element are in scope after the last statement, and
stay so. -/
theorem findCompatible_inScope_weighed :
    weighed.InScope links .int 4 .nonNull (.field (.field (.value 0) next) weight) ∧
    weighed.InScope links .int 4 .nonNull (.element (.value 1) 1) ∧
    .element (.value 1) 1 ∈ weighed.findCompatible links .int 5 .nonNull := by
  obtain ⟨-, hscope, hlater⟩ := findCompatible_inScope weighed links .int 4 .nonNull
  have hlater := hlater 5 (by decide)
  rw [findCompatible_weighed] at hscope hlater
  exact ⟨hscope _ (by simp), hscope _ (by simp), hlater (by simp)⟩

end Program

end SuiteSearch
