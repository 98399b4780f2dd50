import Mathlib.Data.List.Forall2
import SuiteSearch.Generation.Insertion
import SuiteSearch.Proofs.Program.Anchors
import SuiteSearch.Proofs.Program.Splicing

/-!
# Disciplines

A discipline asks something of every statement, given the statements before it, and of every value
that is put where a type is needed.  Its laws say that the pieces of which insertions are made are
in order; they are all that the proofs about insertion need to know.

    members        what a member needs, and the statements that use it
    Discipline     the two conditions with their laws
    Block          statements that are well formed and in order one after the other
-/

namespace SuiteSearch

/-! ## Members -/

namespace Member

/-- The types of the values that the use of a member takes. -/
def needs : Member → List Ty
  | .constructor k => k.params
  | .method m => (if m.isStatic then [] else [m.declaring]) ++ m.params
  | .field f => if f.isStatic then [] else [f.declaring]

/-- A receiver is there exactly if one is needed, and it fits. -/
def Received (fits : Ty → Ref → Prop) (isStatic : Bool) (ty : Ty) : Option Ref → Prop
  | none => isStatic = true
  | some r => isStatic = false ∧ fits ty r

/-- The statements that use a member, with values that fit. -/
inductive Applied (fits : Ty → Ref → Prop) : Member → Statement → Prop
  | constructor {k : Constructor} {args : List Ref} :
      List.Forall₂ fits k.params args → Applied fits (.constructor k) (.construct k args)
  | method {m : Method} {callee : Option Ref} {args : List Ref} :
      Received fits m.isStatic m.declaring callee → List.Forall₂ fits m.params args →
      Applied fits (.method m) (.call m callee args)
  | field {f : Field} {source : Option Ref} :
      Received fits f.isStatic f.declaring source → Applied fits (.field f) (.read f source)

theorem Received.mono {fits fits' : Ty → Ref → Prop} {isStatic : Bool} {ty : Ty} {r : Option Ref}
    (h : Received fits isStatic ty r) (himp : ∀ r, fits ty r → fits' ty r) :
    Received fits' isStatic ty r := by
  cases r with
  | none => exact h
  | some r => exact ⟨h.1, himp r h.2⟩

theorem Applied.assertions {fits : Ty → Ref → Prop} {m : Member} {s : Statement}
    (h : Applied fits m s) : s.assertions = [] := by
  cases h <;> rfl

end Member

theorem Inserter.mem_makers {c : Cluster} {ty : Ty} {k : Constructor}
    (h : k ∈ Inserter.makers c ty) :
    Member.constructor k ∈ c.members ∧ c.isAssignable k.declaring ty = true := by
  obtain ⟨t, ht, hk⟩ := List.mem_flatMap.mp h
  obtain ⟨hmap, hassign⟩ := List.mem_filter.mp ht
  obtain ⟨d, -, rfl⟩ := List.mem_map.mp hmap
  simp only [ClassDecl.ty, Cluster.constructors] at hk
  split at hk
  · next d' hfind =>
    split at hk
    · cases hk
    · next habstract =>
      obtain ⟨params, hparams, rfl⟩ := List.mem_map.mp hk
      have hname : d'.name = d.name := by simpa using List.find?_some hfind
      refine ⟨List.mem_flatMap.mpr ⟨d', List.mem_of_find?_eq_some hfind, ?_⟩, ?_⟩
      · simp only [Cluster.membersOf, if_neg habstract, List.append_assoc]
        exact List.mem_append_left _ (List.mem_map.mpr ⟨params, hparams, rfl⟩)
      · simpa [ClassDecl.constructorOf, ClassDecl.ty, hname] using hassign
  · cases hk

/-! ## Disciplines -/

structure Discipline (c : Cluster) where
  /-- Types that values are asked for. -/
  asks : Ty → Prop
  /-- What a value has to be where a type is needed, given the statements before. -/
  fits : List Statement → Ty → Ref → Prop
  asks_component {t : Ty} : asks (.array t) → asks t
  asks_need {m : Member} {t : Ty} : m ∈ c.members → t ∈ m.needs → asks t
  fits_append {l more : List Statement} {t : Ty} {r : Ref} : fits l t r → fits (l ++ more) t r
  fits_candidate {p : Program} {t : Ty} {position : Nat} {f : CandidateFilter} {r : Ref} :
    r ∈ p.findCompatible c t position f → fits (p.statements.take position) t r
  fits_literal {l : List Statement} {t : Ty} {v : Literal} : asks t →
    fits (l ++ [.literal v t]) t ((Statement.literal v t).output l.length)
  fits_allocate {l : List Statement} {t : Ty} {n : Nat} : asks (.array t) →
    fits (l ++ [.allocate t n]) (.array t) (.value l.length)
  fits_maker {l : List Statement} {t : Ty} {k : Constructor} {args : List Ref} :
    k ∈ Inserter.makers c t → fits (l ++ [.construct k args]) t (.value l.length)

namespace Discipline

variable {c : Cluster}

/-- Asks for nothing. -/
def trivial (c : Cluster) : Discipline c where
  asks _ := True
  fits _ _ _ := True
  asks_component _ := True.intro
  asks_need _ _ := True.intro
  fits_append _ := True.intro
  fits_candidate _ := True.intro
  fits_literal _ := True.intro
  fits_allocate _ := True.intro
  fits_maker _ := True.intro

/-- The statements that are in order after others: literals, new arrays, stores into arrays, and
uses of the cluster's members, with values that fit. -/
inductive Good (D : Discipline c) (before : List Statement) : Statement → Prop
  | literal (v : Literal) (t : Ty) : D.Good before (.literal v t)
  | allocate (t : Ty) (n : Nat) : D.Good before (.allocate t n)
  | store {a i : Nat} {t : Ty} {r : Ref} {s : Statement} :
      before[a]? = some s → s.ty = .array t → s.op.isStore = false →
      s.op.isNullLiteral = false → D.fits before t r → D.Good before (.store (.value a) i r t)
  | member {m : Member} {s : Statement} :
      m ∈ c.members → m.Applied (D.fits before) s → D.Good before s

/-- A statement that is in order comes without assertions. -/
theorem Good.assertions {D : Discipline c} {before : List Statement} {s : Statement}
    (h : D.Good before s) : s.assertions = [] := by
  cases h with
  | literal v t => rfl
  | allocate t n => rfl
  | store _ _ _ _ _ => rfl
  | member _ h => exact h.assertions

/-- Statements that can follow those before them: well formed and in order. -/
def Block (D : Discipline c) (before new : List Statement) : Prop :=
  ∀ (i : Nat) (s : Statement), new[i]? = some s →
    s.isValid (before.length + i) = true ∧ D.Good (before ++ new.take i) s

/-- What a selector gives for a type fits. -/
def Admits {ω : Type} (D : Discipline c) (selector : Selector ω) : Prop :=
  ∀ (p : Program) (t : Ty) (position : Nat) (w w' : ω) (r : Ref),
    selector p t position w = (.ok r, w') → D.fits (p.statements.take position) t r

/-- Every statement is in order after those before it. -/
def Holds (D : Discipline c) (l : List Statement) : Prop :=
  ∀ (i : Nat) (s : Statement), l[i]? = some s → D.Good (l.take i) s

theorem block_nil (D : Discipline c) (before : List Statement) : D.Block before [] := by
  intro i s h
  cases h

theorem block_singleton (D : Discipline c) (before : List Statement) (s : Statement)
    (hvalid : s.isValid before.length = true) (hgood : D.Good before s) :
    D.Block before [s] := by
  intro i t h
  cases i with
  | zero =>
    cases h
    exact ⟨hvalid, by simpa using hgood⟩
  | succ i => cases h

theorem Block.append {D : Discipline c} {before new more : List Statement}
    (hnew : D.Block before new) (hmore : D.Block (before ++ new) more) :
    D.Block before (new ++ more) := by
  intro i s h
  by_cases hi : i < new.length
  · rw [List.getElem?_append_left hi] at h
    rw [List.take_append_of_le_length (Nat.le_of_lt hi)]
    exact hnew i s h
  · rw [List.getElem?_append_right (by omega)] at h
    obtain ⟨hvalid, hgood⟩ := hmore _ s h
    rw [List.length_append] at hvalid
    refine ⟨?_, ?_⟩
    · rw [show before.length + i = before.length + new.length + (i - new.length) by omega]
      exact hvalid
    · rw [List.take_append, List.take_of_length_le (by omega), ← List.append_assoc]
      exact hgood

theorem Block.placeable {D : Discipline c} {before new : List Statement}
    (h : D.Block before new) : Program.Placeable before.length new :=
  fun i s hs => ⟨(h i s hs).1, (h i s hs).2.assertions⟩

end Discipline

end SuiteSearch
