import SuiteSearch.Mutation.Step
import SuiteSearch.Proofs.Generation.Selection
import SuiteSearch.Proofs.Generation.Transaction
import SuiteSearch.Proofs.Mutation.Change
import SuiteSearch.Proofs.Mutation.Deletion

/-!
# Programs that grow by calls

A program grows from the empty one by guided insertions, by single kinds of mutation and by mutation
steps, in any order and with any draws.  What a mobile discipline asks for holds after every call.

    Grown c p             p is reached by calls over c whose selectors stay in scope
    Halts call f          what may stop a call; the program is never found malformed
    ins.Keeps P           single changes keep P, and so does every call
    Grown.holds           grown programs are in order, and so is what the next call gives
-/

namespace SuiteSearch

/-! ## Calls -/

/-- The mutator that inserts as an inserter does. -/
def Inserter.mutator {ω : Type} [WordSource ω] (ins : Inserter ω) (maxLength : Nat) : Mutator ω :=
  ⟨ins.cluster, ins.insertAfter, maxLength⟩

/-- A call that changes a program. -/
inductive Call
  | insert (after : Option Nat)
  | apply (maxLength : Nat) (kind : MutationKind)
  | mutate (maxLength : Nat)

namespace Call

variable {ω : Type} [WordSource ω]

/-- Carries out a call; gives the program that is left. -/
def run (ins : Inserter ω) : Call → Program → Act ω Program
  | .insert after, p => do return (← ins.insertAfter p after).1
  | .apply maxLength kind, p => do return (← (ins.mutator maxLength).apply kind p).1
  | .mutate maxLength, p => do return (← (ins.mutator maxLength).mutate p).1

/-- What may stop a call: an insertion after the last position, a reuse that is no probability, or
more statements than there are positions. -/
def Halts (ins : Inserter ω) (p : Program) : Call → Fault → Prop
  | .insert after, f => ins.Stops p after f
  | .apply maxLength _, f | .mutate maxLength, f =>
    Stopped ins.reuse (maxLength + Inserter.growth ins.cluster ins.maxDepth) f

omit [WordSource ω] in
theorem Halts.not_malformed {ins : Inserter ω} {p : Program} {call : Call} {f : Fault}
    (h : call.Halts ins p f) : f ≠ .malformedProgram := by
  cases call with
  | insert after => exact Inserter.Stops.not_malformed h
  | apply maxLength kind =>
    rintro rfl
    exact h
  | mutate maxLength =>
    rintro rfl
    exact h

end Call

/-- The programs that are reached from the empty one by calls over a cluster. -/
inductive Grown (c : Cluster) : Program → Prop
  | empty : Grown c .empty
  | call {ω : Type} [WordSource ω] {p p' : Program} {w w' : ω} (ins : Inserter ω) (call : Call) :
      Grown c p → ins.cluster = c → ins.selector.Offers c → call.run ins p w = .ok (p', w') →
      Grown c p'

/-! ## Mutation steps -/

namespace Mutator

variable {ω : Type} [WordSource ω] {m : Mutator ω} {stop : Fault → Prop} {P : Program → Prop}

/-- What a kind of mutation keeps, its application keeps if it implies validity. -/
theorem apply_yields (hvalid : ∀ p, P p → p.isValid = true) (kind : MutationKind) (p : Program)
    (hdelete : kind = .delete → Draw.Gives (Mutation.delete p : Draw ω _) fun x => P x.1)
    (hchange : kind = .change → Draw.Gives (Mutation.change m.cluster p : Draw ω _) fun x => P x.1)
    (hinsert : kind = .insert → (Mutation.insert m p).Yields stop fun x => P x.1) :
    (m.apply kind p).Yields stop fun x => P x.1 := by
  have hcheck : ∀ x : Program × Bool, P x.1 →
      Act.Yields (if x.1.isValid then return (x.1, x.2) else throw .malformedProgram : Act ω _)
        stop fun x => P x.1 := by
    intro x hx
    rw [if_pos (hvalid x.1 hx)]
    exact .pure hx
  cases kind with
  | delete => exact (Act.Yields.draw (hdelete rfl)).bind hcheck
  | change => exact (Act.Yields.draw (hchange rfl)).bind hcheck
  | insert => exact (hinsert rfl).bind hcheck

/-- What relates a program to itself, and is handed on by some kinds of mutation, relates it to what
they leave one after the other, and to their answers put together. -/
theorem applySome_relates {Q : Program → Program → Bool → Prop} (kinds : List MutationKind)
    (hnone : ∀ p, P p → Q p p false)
    (happly : ∀ kind ∈ kinds, ∀ p, P p → (m.apply kind p).Yields stop fun x =>
      P x.1 ∧ ∀ q later, Q x.1 q later → Q p q (x.2 || later))
    (p : Program) (h : P p) : (m.applySome kinds p).Yields stop fun x => Q p x.1 x.2 := by
  induction kinds generalizing p with
  | nil => exact .pure (hnone p h)
  | cons kind rest ih =>
    have ih := ih fun k hk => happly k (List.mem_cons_of_mem _ hk)
    unfold applySome
    refine (Act.Yields.draw (.any _)).bind fun chosen _ => ?_
    split
    · refine (happly kind List.mem_cons_self p h).bind fun x hx => ?_
      exact (ih x.1 hx.1).bind fun y hy => .pure (hx.2 y.1 y.2 hy)
    · exact ih p h

/-- What some kinds of mutation keep, they keep one after the other. -/
theorem applySome_yields (kinds : List MutationKind)
    (happly : ∀ kind ∈ kinds, ∀ p, P p → (m.apply kind p).Yields stop fun x => P x.1)
    (p : Program) (h : P p) : (m.applySome kinds p).Yields stop fun x => P x.1 := by
  refine applySome_relates (Q := fun _ q _ => P q) kinds (fun _ hp => hp) ?_ p h
  intro kind hkind p hp
  exact (happly kind hkind p hp).mono (fun _ hf => hf) fun x hx => ⟨hx, fun _ _ hq => hq⟩

theorem mutate_yields (happly : ∀ kind p, P p → (m.apply kind p).Yields stop fun x => P x.1)
    (p : Program) (h : P p) : (m.mutate p).Yields stop fun x => P x.1 := by
  unfold mutate
  split
  · exact happly .insert p h
  · exact applySome_yields MutationKind.all (fun kind _ => happly kind) p h

end Mutator

/-! ## What calls come to -/

section
variable {ω : Type} {ins : Inserter ω} {D : Discipline ins.cluster}

theorem Selector.Offers.admits (h : ins.selector.Offers ins.cluster) : D.Admits ins.selector := by
  intro p ty position w w' r hr
  obtain ⟨f, hf⟩ := h p ty position w r (by rw [hr])
  exact D.fits_candidate hf

variable [WordSource ω]

theorem Inserter.insertAfter_holds (hD : D.Mobile) (hselect : D.Admits ins.selector) (p : Program)
    (h : D.Holds p.statements) (after : Option Nat) :
    Act.Yields (ins.insertAfter p after) (ins.Stops p after) fun x => D.Holds x.1.statements := by
  intro w
  have hrun := Inserter.insertAfter_run hselect p (h.sound hD) after w
  generalize ins.insertAfter p after w = x at hrun ⊢
  cases hrun with
  | stopped f hf => exact hf
  | declined w' => exact h
  | inserted new s m w' hnew _ _ =>
    exact h.splice hD _ (Inserter.insertionPoint_le p after) hnew

namespace Mutation

theorem randomPosition_lt (p : Program) :
    Draw.Gives (randomPosition p : Draw ω (Option Nat)) fun i? =>
      ∀ i, i? = some i → i < p.length := by
  unfold randomPosition
  split
  · exact .pure nofun
  · next hne =>
    have hpos : 0 < p.length := by
      rw [Program.isEmpty, List.isEmpty_iff] at hne
      exact List.length_pos_iff.mpr hne
    refine Draw.Gives.bind (P := fun i => i < p.length) (Draw.below_lt p.length hpos) fun i hi => ?_
    refine .pure ?_
    rintro _ ⟨⟩
    exact hi

/-- What relates a program to itself, and is handed on by one insertion, relates it to what
insertions leave one after the other, and to their answers put together. -/
theorem insertFrom_relates {P : Program → Prop} {Q : Program → Program → Bool → Prop} (c : Cluster)
    (ins : Inserter ω) (maxLength left : Nat) (share : Float) (hnone : ∀ p, P p → Q p p false)
    (hinsert : ∀ p after, P p → p.length < maxLength →
      Act.Yields (ins.insertAfter p after) (ins.Stops p after) fun x =>
        P x.1 ∧ ∀ q later, Q x.1 q later → Q p q (x.2.isSome || later))
    (p : Program) (h : P p) :
    Act.Yields (insertFrom ⟨c, ins.insertAfter, maxLength⟩ left share p)
      (Stopped ins.reuse (maxLength + Inserter.growth ins.cluster ins.maxDepth))
      fun x => Q p x.1 x.2 := by
  induction left generalizing share p with
  | zero => exact .pure (hnone p h)
  | succ left ih =>
    unfold insertFrom
    by_cases hfull : maxLength ≤ p.length
    · rw [if_pos hfull]
      exact .pure (hnone p h)
    · rw [if_neg hfull]
      have hroom : p.length < maxLength := Nat.lt_of_not_le hfull
      refine (Act.Yields.draw (.any _)).bind fun x _ => ?_
      split
      · exact .pure (hnone p h)
      · refine (Act.Yields.draw (randomPosition_lt p)).bind fun after hafter => ?_
        refine ((hinsert p after h hroom).mono ?_ fun _ hx => hx).bind fun x hx => ?_
        · rintro f (⟨rfl, rfl⟩ | hf)
          · have hlast := hafter _ rfl
            show Program.lastPosition < _
            omega
          · exact hf.mono (by omega)
        · exact (ih _ x.1 hx.1).bind fun y hy => .pure (hx.2 y.1 y.2 hy)

/-- What one insertion keeps, insertions one after the other keep. -/
theorem insertFrom_yields {P : Program → Prop} (ins : Inserter ω)
    (hinsert : ∀ p after, P p → Act.Yields (ins.insertAfter p after) (ins.Stops p after)
      fun x => P x.1)
    (maxLength left : Nat) (share : Float) (p : Program) (h : P p) :
    Act.Yields (insertFrom (ins.mutator maxLength) left share p)
      (Stopped ins.reuse (maxLength + Inserter.growth ins.cluster ins.maxDepth))
      fun x => P x.1 := by
  refine insertFrom_relates (Q := fun _ q _ => P q) ins.cluster ins maxLength left share
    (fun _ hp => hp) (fun p after hp _ => ?_) p h
  exact (hinsert p after hp).mono (fun _ hf => hf) fun x hx => ⟨hx, fun _ _ hq => hq⟩

end Mutation

/-- What an inserter and the mutations that use it keep, change by change. -/
structure Inserter.Keeps (ins : Inserter ω) (P : Program → Prop) : Prop where
  valid (p : Program) : P p → p.isValid = true
  delete (p : Program) (i : Nat) : P p → P (Mutation.deleteWithReaders p i).1
  change (p : Program) (position : Nat) (p' : Program) :
    Mutation.Changed ins.cluster p position p' → P p → P p'
  insert (p : Program) (after : Option Nat) : P p →
    Act.Yields (ins.insertAfter p after) (ins.Stops p after) fun x => P x.1

namespace Inserter.Keeps

variable {P : Program → Prop} (maxLength : Nat)

theorem mutator_apply (hP : ins.Keeps P) (kind : MutationKind) (p : Program) (h : P p) :
    Act.Yields ((ins.mutator maxLength).apply kind p)
      (Stopped ins.reuse (maxLength + growth ins.cluster ins.maxDepth)) fun x => P x.1 :=
  Mutator.apply_yields hP.valid kind p (fun _ => Mutation.delete_gives hP.delete p h)
    (fun _ => Mutation.change_gives hP.change p h)
    fun _ => Mutation.insertFrom_yields ins hP.insert maxLength _ 1 p h

theorem mutator_mutate (hP : ins.Keeps P) (p : Program) (h : P p) :
    Act.Yields ((ins.mutator maxLength).mutate p)
      (Stopped ins.reuse (maxLength + growth ins.cluster ins.maxDepth)) fun x => P x.1 :=
  Mutator.mutate_yields (hP.mutator_apply maxLength) p h

/-- What single changes keep, a call keeps. -/
theorem run (hP : ins.Keeps P) (call : Call) (p : Program) (h : P p) :
    Act.Yields (call.run ins p) (call.Halts ins p) P := by
  cases call with
  | insert after => exact (hP.insert p after h).bind fun x hx => .pure hx
  | apply maxLength kind =>
    exact (hP.mutator_apply maxLength kind p h).bind fun x hx => .pure hx
  | mutate maxLength => exact (hP.mutator_mutate maxLength p h).bind fun x hx => .pure hx

end Inserter.Keeps

theorem Inserter.keeps_holds (hD : D.Mobile) (hselect : D.Admits ins.selector) :
    ins.Keeps fun p => D.Holds p.statements where
  valid _ hp := (hp.sound hD).valid
  delete p i hp := Mutation.deleteWithReaders_holds hD p hp i
  change _ _ _ hx hp := hx.holds hD hp
  insert p after hp := ins.insertAfter_holds hD hselect p hp after

/-- A call on a program in order leaves it in order. -/
theorem Call.run_holds (hD : D.Mobile) (hselect : D.Admits ins.selector) (call : Call)
    (p : Program) (h : D.Holds p.statements) :
    Act.Yields (call.run ins p) (call.Halts ins p) fun p' => D.Holds p'.statements :=
  (Inserter.keeps_holds hD hselect).run call p h

end

/-- A grown program is in order. -/
theorem Grown.holds {c : Cluster} {D : Discipline c} (hD : D.Mobile) {p : Program}
    (h : Grown c p) : D.Holds p.statements := by
  induction h with
  | empty => exact Discipline.holds_nil
  | @call _ _ p p' w w' ins call _ hc hoffers hrun ih =>
    subst hc
    have hcall := call.run_holds hD hoffers.admits p ih w
    rw [hrun] at hcall
    exact hcall

/-! ## A grown program -/

/-- An inserter that reuses values whenever there are any. -/
def reusing : Inserter Random.Scripted := ⟨Inserter.counters, .random Inserter.counters, 2, 1⟩

def counterOfZero : Program :=
  { Program.empty with statements :=
      [.literal (.int 0) .int, .construct ⟨.named "Counter", [.int]⟩ [.value 0]] }

theorem grown_counterOfZero : Grown Inserter.counters counterOfZero := by
  have hrun : (Call.insert none).run reusing .empty ⟨[0, 0, 0], 0⟩ =
      .ok (counterOfZero, ⟨[], 0⟩) := rfl
  exact .call reusing (.insert none) .empty rfl (Selector.random_offers Inserter.counters) hrun

end SuiteSearch
