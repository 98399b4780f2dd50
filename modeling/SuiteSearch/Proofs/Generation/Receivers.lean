import SuiteSearch.Proofs.Generation.Helpers
import SuiteSearch.Proofs.Generation.Selection
import SuiteSearch.Proofs.Program.Retention

/-!
# Receivers

A receiver is made with nulls ruled out: the selector leaves them out, neither a literal nor a new
object is one, and a typed null is no resort.  So no insertion puts in a call or a field read that
has a null for its receiver.

    ReceiversNonNull p       no receiver in a program is a null
    b.Clean Q                a building step puts in no null receivers, and what it gives has Q
    satisfy_clean            what is made for a receiver is no null
    insertAfter_clean        an insertion puts in no null receivers
-/

namespace SuiteSearch

open Step (Keeps)

/-! ## Receivers -/

/-- The receiver of a call or of a field read, if it has one. -/
def Operation.receiver? : Operation → Option Ref
  | .call _ callee _ => callee
  | .read _ source => source
  | _ => none

/-- The receiver of the statement, if it has one, is no null. -/
def Statement.ReceiverNonNull (s : Statement) : Prop :=
  ∀ r, s.op.receiver? = some r → r.isNull = false

/-- No receiver in the program is a null. -/
def Program.ReceiversNonNull (p : Program) : Prop := ∀ s ∈ p.statements, s.ReceiverNonNull

theorem Operation.receiver?_mapReads (f : Ref → Ref) (op : Operation) :
    (op.mapReads f).receiver? = op.receiver?.map f := by
  cases op <;> rfl

/-- No value becomes a null when it is renumbered. -/
theorem Ref.isNull_remap (f : Nat → Option Nat) (r : Ref) (h : r.isNull = false) :
    (r.remap f).isNull = false := by
  cases r with
  | value p => cases hp : f p <;> simp [remap, hp, isNull]
  | null p => cases h
  | field source g =>
    rw [remap]
    split <;> rfl
  | element array i =>
    rw [remap]
    split <;> rfl
  | dangling => rfl

theorem Statement.ReceiverNonNull.remap {s : Statement} (h : s.ReceiverNonNull)
    (f : Nat → Option Nat) : (s.remap f).ReceiverNonNull := by
  intro r hr
  have hreceiver : (s.op.mapReads (·.remap f)).receiver? = some r := hr
  rw [Operation.receiver?_mapReads, Option.map_eq_some_iff] at hreceiver
  obtain ⟨x, hx, rfl⟩ := hreceiver
  exact x.isNull_remap f (h x hx)

namespace Program

variable {p : Program}

theorem ReceiversNonNull.insert (h : p.ReceiversNonNull) {s : Statement} (hs : s.ReceiverNonNull)
    {position : Nat} {p' : Program} {r : Ref} (hinsert : p.insert s position = .ok (p', r)) :
    p'.ReceiversNonNull := by
  obtain ⟨rfl, -⟩ := of_insert_eq_ok hinsert
  intro t ht
  rcases List.mem_append.mp ht with ht | ht
  · exact h t (List.mem_of_mem_take ht)
  · rcases List.mem_cons.mp ht with rfl | ht
    · exact hs
    · obtain ⟨u, hu, rfl⟩ := List.mem_map.mp ht
      exact (h u (List.mem_of_mem_drop hu)).remap _

theorem ReceiversNonNull.remove (h : p.ReceiversNonNull) (position : Nat) :
    (p.remove position).1.ReceiversNonNull := by
  unfold Program.remove
  split
  · exact h
  · intro t ht
    rcases List.mem_append.mp ht with ht | ht
    · exact h t (List.mem_of_mem_take ht)
    · obtain ⟨u, hu, rfl⟩ := List.mem_map.mp ht
      exact (h u (List.mem_of_mem_drop hu)).remap _

theorem ReceiversNonNull.retain (h : p.ReceiversNonNull) (keep : List Nat) :
    (p.retain keep).ReceiversNonNull := by
  rw [retain_eq]
  intro t ht
  obtain ⟨⟨u, i⟩, hu, rfl⟩ := List.mem_map.mp ht
  have hmem := List.fst_mem_of_mem_zipIdx (List.mem_filter.mp hu).1
  exact (h u hmem).remap _

end Program

/-- The search that leaves out nulls offers none. -/
theorem Program.isNull_of_mem_findCompatible {c : Cluster} {p : Program} {ty : Ty} {position : Nat}
    {f : CandidateFilter} {r : Ref} (h : r ∈ p.findCompatible c ty position f)
    (hf : f.excludeNull = true) : r.isNull = false := by
  have hadmits := (List.mem_filter.mp h).2
  unfold CandidateFilter.admits at hadmits
  rw [hf] at hadmits
  simp only [Bool.and_eq_true, Bool.not_eq_true', Bool.true_and] at hadmits
  exact hadmits.1.1.1

/-! ## Building steps -/

namespace Build

variable {ω α β : Type} {Q : α → Prop}

/-- A building step puts in no null receivers, and what it gives has a property. -/
abbrev Clean (b : Build ω α) (Q : α → Prop) : Prop :=
  Keeps (fun d : Draft ω => d.program.ReceiversNonNull) (fun _ => True) b Q

theorem Clean.act {a : Act ω α} (h : a.Yields (fun _ => True) Q) : (Build.act a).Clean Q :=
  Keeps.act Draft.world (fun d w => { d with world := w }) (fun _ _ hd => hd) h

theorem Clean.draw {a : Draw ω α} (h : a.Gives Q) : (Build.draw a).Clean Q := .act (.draw h)

theorem Clean.attempt {b : Build ω α} (h : b.Clean Q) :
    b.attempt.Clean fun r => ∀ a, r = .ok a → Q a :=
  Keeps.attempt h

theorem Clean.cursor : (cursor : Build ω Nat).Clean fun _ => True :=
  fun _ hd => ⟨hd, fun _ _ => True.intro⟩

/-- A statement goes in whose receiver is no null. -/
theorem Clean.place {Q : Ref → Prop} (s : Statement) (hs : s.ReceiverNonNull)
    (h : ∀ i, Q (s.output i)) : (place s : Build ω Ref).Clean Q := by
  intro d hd
  unfold Build.place
  split
  · next p r hinsert =>
    refine ⟨hd.insert hs hinsert, ?_⟩
    rintro _ ⟨⟩
    obtain ⟨-, rfl⟩ := Program.of_insert_eq_ok hinsert
    exact h d.cursor
  · exact ⟨hd, nofun⟩
  · exact True.intro

theorem removeMany_receiversNonNull (position n : Nat) (p : Program) (h : p.ReceiversNonNull) :
    (removeMany position n p).ReceiversNonNull := by
  induction n generalizing p with
  | zero => exact h
  | succ n ih => exact ih _ (h.remove position)

theorem Clean.rollback (mark : Nat) : (rollback mark : Build ω Unit).Clean fun _ => True :=
  fun d hd => ⟨removeMany_receiversNonNull mark _ d.program hd, fun _ _ => True.intro⟩

end Build

namespace Inserter

open Build

variable {ω : Type}

/-! ## Uses of members -/

section Uses
variable {satisfy : Ty → Bool → Build ω Ref}
  (hsatisfy : ∀ ty allowNull, (satisfy ty allowNull).Clean fun r =>
    allowNull = false → r.isNull = false)
include hsatisfy

theorem satisfyAll_clean (types : List Ty) : (satisfyAll satisfy types).Clean fun _ => True := by
  induction types with
  | nil => exact .pure True.intro
  | cons ty rest ih =>
    exact (hsatisfy ty true).bind fun _ _ => ih.bind fun _ _ => .pure True.intro

theorem receiver_clean (isStatic : Bool) (ty : Ty) :
    (receiver satisfy isStatic ty).Clean fun r? => ∀ r, r? = some r → r.isNull = false := by
  unfold receiver
  split
  · exact .pure nofun
  · refine (hsatisfy ty false).bind fun r hr => .pure ?_
    rintro _ ⟨⟩
    exact hr rfl

/-- The result of a use is no null, whatever the method returns. -/
theorem addMember_clean (m : Member) : (addMember satisfy m).Clean fun r => r.isNull = false := by
  cases m with
  | constructor k =>
    refine (satisfyAll_clean hsatisfy k.params).bind fun args _ => ?_
    exact Clean.place _ nofun fun _ => rfl
  | method m =>
    refine (receiver_clean hsatisfy m.isStatic m.declaring).bind fun callee hcallee => ?_
    refine (satisfyAll_clean hsatisfy m.params).bind fun args _ => ?_
    exact Clean.place (.call m callee args) hcallee fun _ => rfl
  | field f =>
    refine (receiver_clean hsatisfy f.isStatic f.declaring).bind fun source hsource => ?_
    exact Clean.place (.read f source) hsource fun _ => rfl

theorem fillElements_clean (array : Ref) (component : Ty) (indices : List Nat) :
    (fillElements satisfy array component indices).Clean fun _ => True := by
  induction indices with
  | nil => exact .pure True.intro
  | cons i rest ih =>
    refine Keeps.bind (P := fun _ => True) ?_ fun _ _ => ih
    refine Clean.cursor.bind fun mark _ => ?_
    refine (Clean.attempt (hsatisfy component true)).bind fun r _ => ?_
    cases r with
    | ok value =>
      have hplace : (place (.store array i value component) : Build ω Ref).Clean fun _ => True :=
        Clean.place _ nofun fun _ => True.intro
      exact hplace.bind fun _ _ => .pure True.intro
    | error e => exact Clean.rollback mark

end Uses

/-! ## Values -/

theorem lastResort_clean (ty : Ty) (allowNull : Bool) :
    (lastResort ty allowNull : Build ω Ref).Clean fun r =>
      allowNull = false → r.isNull = false := by
  unfold lastResort
  split
  · next hallowed =>
    refine Clean.place _ nofun fun _ hnone => ?_
    rw [hnone] at hallowed
    cases hallowed
  · exact Clean.cursor.bind fun _ _ => .fail

variable [WordSource ω]

theorem randomInt_isNull (p : Primitive) :
    Draw.Gives (Literal.randomInt p : Draw ω Literal) fun v => v.isNull = false := by
  unfold Literal.randomInt
  refine (Draw.Gives.any _).bind fun _ _ => ?_
  split <;> exact (Draw.Gives.any _).bind fun _ _ => .pure rfl

theorem randomFloat_isNull :
    Draw.Gives (Literal.randomFloat : Draw ω Literal) fun v => v.isNull = false := by
  unfold Literal.randomFloat
  refine (Draw.Gives.any _).bind fun _ _ => ?_
  split <;> exact (Draw.Gives.any _).bind fun _ _ => .pure rfl

theorem randomOf_isNull (p : Primitive) :
    Draw.Gives (Literal.randomOf p : Draw ω Literal) fun v => v.isNull = false := by
  cases p with
  | boolean => exact (Draw.Gives.any _).bind fun _ _ => .pure rfl
  | char => exact (Draw.Gives.any _).bind fun _ _ => .pure rfl
  | float => exact randomFloat_isNull
  | double => exact randomFloat_isNull
  | byte => exact randomInt_isNull .byte
  | short => exact randomInt_isNull .short
  | int => exact randomInt_isNull .int
  | long => exact randomInt_isNull .long

/-- A literal that is drawn is no null. -/
theorem random?_isNull (t : Ty) :
    Draw.Gives (Literal.random? t : Draw ω (Option Literal)) fun v? =>
      ∀ v, v? = some v → v.isNull = false := by
  unfold Literal.random?
  split
  · next p _ =>
    refine (randomOf_isNull p).bind fun v hv => .pure ?_
    rintro _ ⟨⟩
    exact hv
  · split
    · refine (Draw.Gives.any _).bind fun text _ => .pure ?_
      rintro _ ⟨⟩
      rfl
    · exact .pure nofun

variable {ins : Inserter ω}

theorem construct_clean {satisfy : Ty → Bool → Build ω Ref}
    (hsatisfy : ∀ ty allowNull, (satisfy ty allowNull).Clean fun r =>
      allowNull = false → r.isNull = false) (ty : Ty) :
    (ins.construct satisfy ty).Clean fun r => r.isNull = false := by
  have hobject : ∀ ty (make : Option Constructor → Build ω Ref), (∃ e, make none = throw e) →
      (∀ k, make (some k) = addMember satisfy (.constructor k)) →
      (Build.draw (Draw.choose (makers ins.cluster ty)) >>= make : Build ω Ref).Clean
        fun r => r.isNull = false := by
    rintro ty make ⟨e, hnone⟩ hsome
    refine (Clean.draw (.any _)).bind fun k? _ => ?_
    cases k? with
    | none =>
      rw [hnone]
      exact .fail
    | some k =>
      rw [hsome]
      exact addMember_clean hsatisfy _
  cases ty with
  | array t =>
    refine (Clean.draw (.any _)).bind fun length _ => ?_
    have hplace : (place (.allocate t length) : Build ω Ref).Clean fun r => r.isNull = false :=
      Clean.place _ nofun fun _ => rfl
    refine hplace.bind fun array harray => ?_
    exact (fillElements_clean hsatisfy array t (List.range length)).bind fun _ _ => .pure harray
  | void => exact hobject .void _ ⟨_, rfl⟩ fun _ => rfl
  | primitive p => exact hobject (.primitive p) _ ⟨_, rfl⟩ fun _ => rfl
  | named name => exact hobject (.named name) _ ⟨_, rfl⟩ fun _ => rfl

theorem reuse?_clean (hselect : ins.selector.OffersNonNull ins.cluster) (ty : Ty) :
    (ins.reuse? ty).Clean fun r? => ∀ r, r? = some r → r.isNull = false := by
  refine (Clean.act (.any _)).bind fun coin _ => ?_
  cases coin with
  | false => exact .pure nofun
  | true =>
    refine .get fun d hd => ?_
    have hpick := hselect d.program ty d.cursor d.world
    generalize ins.selector d.program ty d.cursor d.world = x at hpick ⊢
    obtain ⟨picked, w⟩ := x
    refine .bind (.set hd) fun _ _ => ?_
    cases picked with
    | ok r =>
      refine .pure ?_
      rintro _ ⟨⟩
      exact Program.isNull_of_mem_findCompatible (hpick r rfl) rfl
    | error e =>
      dsimp only
      split
      · exact .pure nofun
      · exact .fail

theorem satisfyWith_clean (hselect : ins.selector.OffersNonNull ins.cluster)
    (make : Option (Build ω Ref)) (ty : Ty) (allowNull : Bool)
    (hmake : ∀ b ∈ make, b.Clean fun r => r.isNull = false) :
    (ins.satisfyWith make ty allowNull).Clean fun r => allowNull = false → r.isNull = false := by
  unfold satisfyWith
  refine (reuse?_clean hselect ty).bind fun r? hr => ?_
  cases r? with
  | some r => exact .pure fun _ => hr r rfl
  | none =>
    refine (Clean.draw (random?_isNull ty)).bind fun v? hv => ?_
    cases v? with
    | some v =>
      refine Clean.place _ nofun fun i _ => ?_
      have hnull : (Statement.literal v ty).op.isNullLiteral = false := hv v rfl
      rw [(Statement.literal v ty).output_eq i rfl, hnull]
      rfl
    | none =>
      cases make with
      | none => exact lastResort_clean ty allowNull
      | some b =>
        refine Clean.cursor.bind fun mark _ => ?_
        refine (Clean.attempt (hmake b rfl)).bind fun made hmade => ?_
        cases made with
        | ok r => exact .pure fun _ => hmade r rfl
        | error e =>
          dsimp only
          split
          · exact (Clean.rollback mark).bind fun _ _ => lastResort_clean ty allowNull
          · exact .bind (P := fun _ => False) .fail fun _ hfalse => hfalse.elim

/-- What is made for a receiver is no null, however deep new objects are nested. -/
theorem satisfy_clean (hselect : ins.selector.OffersNonNull ins.cluster) (depth : Nat) :
    ∀ ty allowNull, (ins.satisfy depth ty allowNull).Clean fun r =>
      allowNull = false → r.isNull = false := by
  induction depth with
  | zero => exact fun ty allowNull => satisfyWith_clean hselect none ty allowNull nofun
  | succ depth ih =>
    intro ty allowNull
    refine satisfyWith_clean hselect _ ty allowNull fun b hb => ?_
    obtain rfl := Option.some.inj hb
    exact construct_clean ih ty

/-! ## Insertions -/

theorem insertMember_clean (hselect : ins.selector.OffersNonNull ins.cluster) (p : Program)
    (h : p.ReceiversNonNull) (start : Nat) (m : Member) :
    (ins.insertMember p start m).Yields (fun _ => True) fun x => x.1.ReceiversNonNull := by
  intro w
  have hrun := addMember_clean (satisfy_clean hselect ins.maxDepth) m ⟨p, start, w⟩ h
  unfold insertMember
  generalize addMember (ins.satisfy ins.maxDepth) m ⟨p, start, w⟩ = x at hrun ⊢
  rcases x with f | ⟨e | r, d⟩
  · exact True.intro
  · exact removeMany_receiversNonNull start _ d.program hrun.1
  · by_cases hvalid : d.program.isValid = true
    · simp only [bind, Except.bind, if_pos hvalid]
      exact hrun.1
    · simp only [bind, Except.bind, if_neg hvalid]

/-- An insertion puts in no null receivers. -/
theorem insertAfter_clean (hselect : ins.selector.OffersNonNull ins.cluster) (p : Program)
    (h : p.ReceiversNonNull) (after : Option Nat) :
    (ins.insertAfter p after).Yields (fun _ => True) fun x => x.1.ReceiversNonNull := by
  unfold insertAfter
  refine (Act.Yields.any _).bind fun m? _ => ?_
  cases m? with
  | none => exact .pure h
  | some m =>
    cases startAfter p after with
    | error f => exact fun _ => True.intro
    | ok start => exact insertMember_clean hselect p h start m

end Inserter

end SuiteSearch
