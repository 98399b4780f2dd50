import SuiteSearch.Proofs.Generation.Helpers
import SuiteSearch.Random.Words

/-!
# Guided insertion is a transaction

Guided insertion puts a block of statements in at one place, or leaves the program as it was.  The
last statement of the block uses a member of the cluster, those before it make what it needs.

    insertionPoint p after     where the block goes in
    growth c depth             how many statements it has at most
    insertAfter_run            the block keeps to any discipline that the selector keeps to
    insertAfter_splices        the same for no discipline at all
    insertAfter_transaction    whatever the selector gives or fails with
-/

namespace SuiteSearch.Inserter

open Build

/-! ## Algorithm -/

/-- The position after another one, at most the end. -/
def insertionPoint (p : Program) : Option Nat → Nat
  | none => p.length
  | some i => min (i + 1) p.length

/-- The greatest number of statements that one insertion puts in. -/
def growth (c : Cluster) (depth : Nat) : Nat := width c * reach c depth + 1

/-- What may stop an insertion: a position that cannot be counted up, or what may stop the building
of the program. -/
def Stops {ω : Type} (ins : Inserter ω) (p : Program) (after : Option Nat) (f : Fault) : Prop :=
  (after = some Program.lastPosition ∧ f = .positionOverflow) ∨
    Stopped ins.reuse (p.length + growth ins.cluster ins.maxDepth) f

/-- What an insertion comes to: it is stopped, it declines, or it puts in no more than the growth. -/
inductive Inserted {ω : Type} (ins : Inserter ω) (D : Discipline ins.cluster) (p : Program)
    (after : Option Nat) : Except Fault ((Program × Option Nat) × ω) → Prop
  | stopped (f : Fault) : ins.Stops p after f → Inserted ins D p after (.error f)
  | declined (w : ω) : Inserted ins D p after (.ok ((p, none), w))
  | inserted (new : List Statement) (s : Statement) (m : Member) (w : ω) :
      D.Block (p.statements.take (insertionPoint p after)) (new ++ [s]) → m ∈ ins.cluster.members →
      m.Applied (D.fits (p.statements.take (insertionPoint p after) ++ new)) s →
      new.length < growth ins.cluster ins.maxDepth →
      Inserted ins D p after (.ok ((p.splice (insertionPoint p after) (new ++ [s]),
        some (insertionPoint p after + new.length)), w))

/-- What is left behind: the program as it was, or one in which `k` statements stand at the place
of insertion, the last of them with the use of a member, and nothing else has changed but for the
renumbering of later statements. -/
def Transacted {ω : Type} (ins : Inserter ω) (p : Program) (after : Option Nat) :
    Except Fault ((Program × Option Nat) × ω) → Prop
  | .error f => ins.Stops p after f
  | .ok ((p', none), _) => p' = p
  | .ok ((p', some i), _) => ∃ k, 0 < k ∧ i + 1 = insertionPoint p after + k ∧
      p' = { p with statements := p'.statements } ∧
      p'.length = p.length + k ∧
      p'.statements.take (insertionPoint p after) = p.statements.take (insertionPoint p after) ∧
      p'.statements.drop (insertionPoint p after + k) =
        (p.statements.drop (insertionPoint p after)).map
          (·.remap (Program.shiftBy (insertionPoint p after) k)) ∧
      ∃ m ∈ ins.cluster.members, ∃ s, p'.statements[i]? = some s ∧ m.Applied (fun _ _ => True) s

/-! ## Lemmas -/

theorem insertionPoint_le (p : Program) (after : Option Nat) :
    insertionPoint p after ≤ p.length := by
  cases after with
  | none => exact Nat.le_refl _
  | some i => exact Nat.min_le_right _ _

/-- Counting up the last position is refused; everywhere else there is a place to start. -/
theorem startAfter_cases (p : Program) (after : Option Nat) :
    startAfter p after = .ok (insertionPoint p after) ∨
      (startAfter p after = .error .positionOverflow ∧ after = some Program.lastPosition) := by
  cases after with
  | none => exact Or.inl rfl
  | some i =>
    by_cases h : i = Program.lastPosition
    · exact Or.inr ⟨by rw [startAfter, if_pos h], congrArg some h⟩
    · exact Or.inl (by rw [startAfter, if_neg h, insertionPoint])

theorem Stops.not_malformed {ω : Type} {ins : Inserter ω} {p : Program} {after : Option Nat}
    {f : Fault} (h : ins.Stops p after f) : f ≠ .malformedProgram := by
  rcases h with ⟨-, rfl⟩ | h
  · nofun
  · rintro rfl
    exact h

variable {ω : Type} [WordSource ω] {ins : Inserter ω} {D : Discipline ins.cluster}

theorem insertMember_run (hselect : D.Admits ins.selector) (p : Program) (hp : p.Sound)
    (after : Option Nat) (m : Member) (hm : m ∈ ins.cluster.members) (w : ω) :
    Inserted ins D p after (ins.insertMember p (insertionPoint p after) m w) := by
  have hstart := insertionPoint_le p after
  generalize hs : insertionPoint p after = start at hstart ⊢
  have hd : (Draft.mk p start w).Sound := ⟨hp, hstart⟩
  have hrun := meets_addMember (meets_satisfy hselect ins.maxDepth) m hm
    (p.statements.take start) ⟨p, start, w⟩ hd rfl
  have hneeds := Nat.mul_le_mul_right (reach ins.cluster ins.maxDepth) (length_needs_le _ m hm)
  unfold insertMember
  generalize addMember (ins.satisfy ins.maxDepth) m ⟨p, start, w⟩ = x at hrun ⊢
  cases hrun with
  | stopped f hf =>
    refine .stopped f (Or.inr (hf.mono ?_))
    simp only [growth]
    omega
  | failed e new w' _ _ =>
    have hlen := hd.length_extend new w'
    have hback : removeMany start
        (((Draft.mk p start w).extend new w').program.length - p.length)
        ((Draft.mk p start w).extend new w').program = p := by
      rw [hlen]
      refine removeMany_splice p start hstart (hp.plain start) _ new ?_
      show new.length = p.length + new.length - p.length
      omega
    show Inserted ins D p after (.ok ((removeMany start _ _, none), w'))
    rw [hback]
    exact .declined w'
  | gave r new w' hlen hnew hpost =>
    obtain ⟨more, s, hl, happlied, -⟩ := hpost
    have hsound := (hd.extend hnew w').program
    rw [List.append_assoc] at hl
    obtain rfl := List.append_cancel_left hl
    rw [List.length_append, List.length_singleton] at hlen
    have hmore : more.length < growth ins.cluster ins.maxDepth := by
      simp only [growth]
      omega
    have hlast : start + (more ++ [s]).length - 1 = start + more.length := by
      rw [List.length_append, List.length_singleton]
      omega
    simp only [bind, Except.bind]
    rw [if_pos hsound.valid]
    show Inserted ins D p after
      (.ok ((p.splice start (more ++ [s]), some (start + (more ++ [s]).length - 1)), w'))
    subst hs
    rw [hlast]
    exact .inserted more s m w' hnew hm happlied hmore

theorem insertAfter_run (hselect : D.Admits ins.selector) (p : Program) (hp : p.Sound)
    (after : Option Nat) (w : ω) : Inserted ins D p after (ins.insertAfter p after w) := by
  unfold insertAfter
  simp only [bind, StateT.bind, Act.draw, Except.bind]
  have hmem := fun m => Draw.mem_of_choose (x := m) ins.cluster.members w
  generalize Draw.choose ins.cluster.members w = x at hmem ⊢
  obtain ⟨m?, w'⟩ := x
  cases m? with
  | none => exact .declined w'
  | some m =>
    rcases startAfter_cases p after with h | ⟨h, hafter⟩
    · rw [h]
      exact insertMember_run hselect p hp after m (hmem m rfl) w'
    · rw [h]
      exact .stopped _ (Or.inl ⟨hafter, rfl⟩)

/-- Whatever the selector does, statements go in that are well formed where they come to stand, or
the program stays as it was. -/
theorem insertAfter_splices (ins : Inserter ω) (p : Program) (hp : p.Sound) (after : Option Nat) :
    Act.Yields (ins.insertAfter p after) (ins.Stops p after) fun x =>
      x = (p, none) ∨ ∃ new s, Program.Placeable (insertionPoint p after) (new ++ [s]) ∧
        new.length < growth ins.cluster ins.maxDepth ∧
        x = (p.splice (insertionPoint p after) (new ++ [s]),
          some (insertionPoint p after + new.length)) := by
  have hselect : (Discipline.trivial ins.cluster).Admits ins.selector :=
    fun _ _ _ _ _ _ _ => True.intro
  intro w
  have hrun := insertAfter_run hselect p hp after w
  generalize ins.insertAfter p after w = x at hrun ⊢
  cases hrun with
  | stopped f hf => exact hf
  | declined w' => exact Or.inl rfl
  | inserted new s m w' hnew _ _ hlen =>
    have hplace := hnew.placeable
    rw [Program.length_take p.statements _ (insertionPoint_le p after)] at hplace
    exact Or.inr ⟨new, s, hplace, hlen, rfl⟩

/-! ## Top theorem -/

/-- Whatever the selector does, guided insertion is a transaction. -/
theorem insertAfter_transaction (ins : Inserter ω) (p : Program) (hp : p.Sound)
    (after : Option Nat) (w : ω) : ins.Transacted p after (ins.insertAfter p after w) := by
  have hselect : (Discipline.trivial ins.cluster).Admits ins.selector :=
    fun _ _ _ _ _ _ _ => True.intro
  have hrun := insertAfter_run hselect p hp after w
  have hstart := insertionPoint_le p after
  generalize ins.insertAfter p after w = x at hrun ⊢
  cases hrun with
  | stopped f hf => exact hf
  | declined w' => exact rfl
  | inserted new s m w' hnew hm happlied =>
    have hlen : (new ++ [s]).length = new.length + 1 := List.length_append
    refine ⟨new.length + 1, Nat.succ_pos _, rfl, rfl, ?_, ?_, ?_, m, hm, s, ?_, happlied⟩
    · rw [← hlen]
      exact Program.length_spliced p.statements _ _ hstart
    · have htake := Program.take_spliced p.statements _ (new ++ [s]) hstart 0 (Nat.zero_le _)
      rwa [List.take_zero, List.append_nil] at htake
    · rw [← hlen]
      exact Program.drop_spliced p.statements _ _ hstart
    · have hget := Program.getElem?_spliced_new p.statements _ (new ++ [s]) hstart new.length
        (by omega)
      rwa [List.getElem?_concat_length] at hget

/-- A class that is made from a number and to which numbers can be added. -/
def counters : Cluster :=
  Cluster.ofList [{ ClassDecl.ofName "Counter" with
    constructors := [[.int]], methods := [⟨"add", [.int], .void, false⟩] }]

/-- A number and what was observed of it. -/
def seven : Program :=
  { Program.empty with statements :=
      [{ Statement.literal (.int 7) .int with assertions := [⟨.value 0, .equals (.int 7)⟩] }] }

/-- An inserter whose selector gives a value that is not there. -/
def misled : Inserter Random.Scripted := ⟨counters, fun _ _ _ w => (.ok (.value 3), w), 2, 1⟩

theorem insertAfter_transaction_misled :
    seven.Sound ∧ misled.Transacted seven none (misled.insertAfter seven none ⟨[], 0⟩) := by
  have hsound : seven.Sound := by
    refine ⟨by decide, ?_⟩
    intro s hs a ha
    obtain rfl := List.mem_singleton.mp hs
    obtain rfl := List.mem_singleton.mp ha
    exact Or.inr ⟨0, Nat.zero_lt_one, rfl⟩
  exact ⟨hsound, insertAfter_transaction misled seven hsound none ⟨[], 0⟩⟩

end SuiteSearch.Inserter
