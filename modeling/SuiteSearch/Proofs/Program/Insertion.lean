import SuiteSearch.Proofs.Program.Splicing

/-!
# Insertion is undone by removal

An insertion moves up every reference to a later statement, and the removal of what was inserted
moves them down again.  That gives the program back where every reference has a base: a path from a
statement that is gone would be left as such.

    p.Movable                        valid, and every position it names can be moved up
    insert_of_isValid                what is well formed at a position goes in there
    insert_of_not_isValid            everything else is refused
    remove_splice_singleton          to remove what was put in gives the program back
    insert_remove                    the three together
-/

namespace SuiteSearch.Program

/-- Valid, with every assertion about some statement, and with no reference to the last position,
which cannot be moved up. -/
structure Movable (p : Program) : Prop where
  valid : p.isValid = true
  live : ∀ t ∈ p.statements, ∀ a ∈ t.assertions, a.source.isDangling = false
  countable : ∀ t ∈ p.statements, reachesLast t = false

variable {p : Program} {s : Statement} {i : Nat}

/-! ## Insertion -/

/-- What is well formed at a position of the program goes in there. -/
theorem insert_of_isValid (hp : p.isValid = true) (hcount : ∀ t ∈ p.statements, reachesLast t = false)
    (hi : i ≤ p.length) (hs : s.isValid i = true) :
    p.insert s i = .ok (p.splice i [s], s.output i) ∧ (p.splice i [s]).isValid = true := by
  have hvalid : (p.splice i [s]).isValid = true := by
    refine isValid_splice hp i [s] hi fun k t ht => ?_
    obtain ⟨hk, rfl⟩ := List.getElem?_eq_some_iff.mp ht
    obtain rfl : k = 0 := by simpa using hk
    exact hs
  have hlast : (p.statements.drop i).any reachesLast = false := by
    rw [List.any_eq_false]
    intro t ht
    rw [hcount t (List.mem_of_mem_drop ht)]
    exact Bool.false_ne_true
  refine ⟨?_, hvalid⟩
  rw [insert, if_neg (by omega), if_neg (by simp [hs]), if_neg (by simp [hlast]), inserted_eq,
    checked, if_pos hvalid]

/-- The error of an insertion past the end, or of what is not well formed where it should go. -/
def refusal (p : Program) (s : Statement) (i : Nat) : Flaw :=
  if p.length < i then p.outOfRange i else .misplaced (s.code i) i

theorem insert_of_not_isValid (p : Program) (s : Statement) (i : Nat)
    (h : ¬(i ≤ p.length ∧ s.isValid i = true)) :
    p.insert s i = .error (.error (.invalidProgram (p.refusal s i))) := by
  by_cases hi : p.length < i
  · rw [insert, if_pos hi, refusal, if_pos hi]
  · have hs : s.isValid i = false := by
      rw [← Bool.not_eq_true]
      exact fun hs => h ⟨by omega, hs⟩
    rw [insert_misplaced p s i (by omega) hs, refusal, if_neg hi]

/-! ## Removal -/

theorem Movable.plain (hp : p.Movable) (r : Ref) {t : Statement} (ht : t ∈ p.statements)
    (hr : t.Mentions r) : r.Plain := by
  rcases hr with hr | ⟨a, ha, rfl⟩
  · obtain ⟨k, hk⟩ := List.getElem?_of_mem ht
    obtain ⟨b, -, hpos⟩ := base_of_isValid hp.valid hk hr
    exact Or.inr ⟨b, hpos⟩
  · have hlive := hp.live t ht a ha
    rw [Ref.isDangling_iff, Option.isNone_eq_false_iff, Option.isSome_iff_exists] at hlive
    exact Or.inr hlive

/-- To remove what was put in gives the program back. -/
theorem remove_splice_singleton (hp : p.Movable) (hi : i ≤ p.length) :
    (p.splice i [s]).remove i = (p, some s) := by
  rw [p.remove_splice_cons i hi s [], List.map_nil, p.splice_nil i]
  exact fun t ht r hr => hp.plain r (List.mem_of_mem_drop ht) hr

/-- A statement that is well formed at a position goes in there, and its removal gives the program
back, with its declared types and assertions.  Everything else is refused, and then there is no new
program: the old one stays as it is. -/
theorem insert_remove (p : Program) (s : Statement) (i : Nat) :
    (p.Movable → i ≤ p.length → s.isValid i = true →
      ∃ q, p.insert s i = .ok (q, s.output i) ∧ q.isValid = true ∧ q.remove i = (p, some s)) ∧
    (¬(i ≤ p.length ∧ s.isValid i = true) →
      p.insert s i = .error (.error (.invalidProgram (p.refusal s i)))) := by
  refine ⟨fun hp hi hs => ?_, insert_of_not_isValid p s i⟩
  obtain ⟨hinsert, hvalid⟩ := insert_of_isValid hp.valid hp.countable hi hs
  exact ⟨p.splice i [s], hinsert, hvalid, remove_splice_singleton hp hi⟩

/-! ### Lamps -/

namespace Lamps

def lamp : Ty := .named "Lamp"

def newLamp : Statement := .construct ⟨lamp, []⟩ []

def dim : Method := ⟨lamp, "dim", [.int], .void, false⟩

def level : Field := ⟨lamp, "level", .int, false⟩

/-- Dims the lamp in an array to its own level, and checks an element of the array. -/
def dimmed : Program :=
  { Program.empty with
    statements := [
      .allocate lamp 1,
      newLamp,
      .store (.value 0) 0 (.value 1) lamp,
      (Statement.call dim (some (.element (.value 0) 0)) [.field (.value 1) level]).addAssertion
        ⟨.field (.element (.value 0) 0) level, .equals (.int 5)⟩ |>.1] }

end Lamps

open Lamps in
theorem insert_remove_dimmed :
    (dimmed.Movable ∧ newLamp.isValid 1 = true ∧
      ∃ q, dimmed.insert newLamp 1 = .ok (q, newLamp.output 1) ∧ q.isValid = true ∧
        q.remove 1 = (dimmed, some newLamp)) ∧
    dimmed.insert (.call dim (some (.value 1)) [.value 1]) 1 =
      .error (.error (.invalidProgram
        (.misplaced "var1.dim(var1);" 1))) := by
  have hmovable : dimmed.Movable := ⟨rfl, by decide, by decide⟩
  refine ⟨⟨hmovable, rfl, (insert_remove dimmed newLamp 1).1 hmovable (by decide) rfl⟩, ?_⟩
  exact (insert_remove dimmed (.call dim (some (.value 1)) [.value 1]) 1).2 (by decide)

end SuiteSearch.Program
