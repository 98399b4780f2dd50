import SuiteSearch.Proofs.Generation.Receivers
import SuiteSearch.Proofs.Mutation.Validity

/-!
# Nulls are told apart

A reference says whether the statement at its base is a null, and so does the statement itself.  The
two agree in every grown program: a perturbed null stays one, the search in scope refers to every
result as its statement does, and no renumbering changes the mark.  Nothing is read from a null,
neither as a receiver nor through a field or an element.

    base r, owners r              what a reference starts from, and what it passes through
    told c                        the discipline: the mark at the base is that of the statement
    change_clean, delete_clean    changes and deletions leave no null receiver
    GrownNonNull.nullsTold        in programs that grow by selectors that leave out nulls
-/

namespace SuiteSearch

/-! ## Algorithm -/

namespace Ref

/-- What a reference starts from. -/
def base : Ref → Ref
  | field source _ => source.base
  | element array _ => array.base
  | r => r

/-- What the fields and elements of a reference are taken from. -/
def owners : Ref → List Ref
  | field source _ => source :: source.owners
  | element array _ => array :: array.owners
  | _ => []

end Ref

/-- Everything that is read tells whether it starts from a null, and nothing is read from one. -/
structure Program.NullsTold (p : Program) : Prop where
  null {q i : Nat} {s : Statement} {r : Ref} : p.statements[q]? = some s → r ∈ s.reads →
    r.base = .null i → ∃ t, p.statements[i]? = some t ∧ t.op = .literal .null
  value {q i : Nat} {s : Statement} {r : Ref} : p.statements[q]? = some s → r ∈ s.reads →
    r.base = .value i → ∃ t, p.statements[i]? = some t ∧ t.op ≠ .literal .null
  callee {q : Nat} {s : Statement} {m : Method} {r : Ref} {args : List Ref} :
    p.statements[q]? = some s → s.op = .call m (some r) args → r.isNull = false
  source {q : Nat} {s : Statement} {f : Field} {r : Ref} :
    p.statements[q]? = some s → s.op = .read f (some r) → r.isNull = false
  owner {q : Nat} {s : Statement} {r x : Ref} : p.statements[q]? = some s → r ∈ s.reads →
    x ∈ r.owners → x.isNull = false

/-- The programs that are reached from the empty one by calls over a cluster whose selectors leave
out nulls. -/
inductive GrownNonNull (c : Cluster) : Program → Prop
  | empty : GrownNonNull c .empty
  | call {ω : Type} [WordSource ω] {p p' : Program} {w w' : ω} (ins : Inserter ω) (call : Call) :
      GrownNonNull c p → ins.cluster = c → ins.selector.OffersNonNull c →
      call.run ins p w = .ok (p', w') → GrownNonNull c p'

/-! ## Marks at the base -/

namespace Ref

/-- The reference starts from the result of a statement, marked as the statement says, and passes
through no null. -/
structure Told (l : List Statement) (r : Ref) : Prop where
  root : ∃ (i : Nat) (s : Statement), l[i]? = some s ∧ s.op.isStore = false ∧ r.root = s.output i
  owners : ∀ x ∈ r.owners, x.isNull = false

theorem base_eq_root {r : Ref} {i : Nat} (h : r.root.ResultOf i) : r.base = r.root := by
  induction r with
  | value p | null p | dangling => rfl
  | field source f ih => exact ih h
  | element array k =>
    have harray : array.ResultOf i := h
    rcases harray with rfl | rfl <;> rfl

theorem ResultOf.owners {r : Ref} {i : Nat} (h : r.ResultOf i) : r.owners = [] := by
  rcases h with rfl | rfl <;> rfl

theorem owners_remap (f : Nat → Option Nat) (r : Ref) (j : Nat) (h : r.position.bind f = some j) :
    (r.remap f).owners = r.owners.map (·.remap f) := by
  induction r with
  | value p | null p =>
    have hp : f p = some j := h
    simp [remap, hp, owners]
  | field source g ih =>
    rw [remap_field f source g j h, owners, owners, ih h, List.map_cons]
  | element array k ih =>
    rw [remap_element f array k j h, owners, owners, ih h, List.map_cons]
  | dangling => cases h

namespace Told

variable {l l' : List Statement} {r : Ref}

theorem anchored (h : r.Told l) : r.Anchored l := by
  obtain ⟨i, s, hs, hstore, hroot⟩ := h.root
  refine ⟨i, s, hs, hstore, ?_⟩
  rw [hroot]
  exact s.output_resultOf i hstore

theorem append (h : r.Told l) (more : List Statement) : r.Told (l ++ more) := by
  obtain ⟨i, s, hs, hstore, hroot⟩ := h.root
  refine ⟨⟨i, s, ?_, hstore, hroot⟩, h.owners⟩
  rwa [List.getElem?_append_left (List.getElem?_eq_some_iff.mp hs).1]

/-- The result of the last statement. -/
theorem output (l : List Statement) (s : Statement) (hstore : s.op.isStore = false) :
    (s.output l.length).Told (l ++ [s]) := by
  have hout := s.output_resultOf l.length hstore
  refine ⟨⟨l.length, s, List.getElem?_concat_length, hstore, hout.root⟩, ?_⟩
  rw [hout.owners]
  nofun

/-- The mark is that of the statement wherever the two have moved to. -/
theorem moved {f : Nat → Option Nat} {i j : Nat} {s s' : Statement} (h : r.Told l)
    (hr : r.position = some i) (hf : f i = some j) (hs : l[i]? = some s) (hs' : l'[j]? = some s')
    (halike : s'.Alike s) : (r.remap f).Told l' := by
  have hposition : r.position.bind f = some j := by
    rw [hr]
    exact hf
  refine ⟨?_, ?_⟩
  · obtain ⟨i', t, ht, hstore, hroot⟩ := h.root
    have hpos : r.position = some i' := by
      rw [← position_root, hroot, (t.output_resultOf i' hstore).position]
    obtain rfl := Option.some.inj (hpos.symm.trans hr)
    obtain rfl := Option.some.inj (ht.symm.trans hs)
    have hstore' : s'.op.isStore = false := halike.isStore.trans hstore
    refine ⟨j, s', hs', hstore', ?_⟩
    rw [root_remap f r j hposition, hroot, t.output_eq i' hstore, s'.output_eq j hstore',
      halike.isNullLiteral]
    split <;> simp [remap, hf]
  · intro x hx
    rw [owners_remap f r j hposition] at hx
    obtain ⟨y, hy, rfl⟩ := List.mem_map.mp hx
    exact y.isNull_remap f (h.owners y hy)

end Told

end Ref

theorem Reached.told {c : Cluster} {s : Statement} {i : Nat} {r : Ref} {t : Ty}
    (h : Reached c s i r t) (hstore : s.op.isStore = false) :
    r.root = s.output i ∧ ∀ x ∈ r.owners, x.isNull = false := by
  have hout := s.output_resultOf i hstore
  induction h with
  | output =>
    refine ⟨hout.root, ?_⟩
    rw [hout.owners]
    nofun
  | field _ hnull _ ih =>
    refine ⟨ih.1, fun x hx => ?_⟩
    rcases List.mem_cons.mp hx with rfl | hx
    · exact hnull
    · exact ih.2 x hx

theorem Offer.told {c : Cluster} {ty : Ty} {before : List Statement} {r : Ref}
    (h : Offer c ty before r) : r.Told before := by
  cases h with
  | reached hs hstore hr _ =>
    obtain ⟨hroot, howners⟩ := hr.told hstore
    exact ⟨⟨_, _, hs, hstore, hroot⟩, howners⟩
  | @element i k n s component hs hop _ _ _ =>
    have hout : s.output i = .value i := by
      rw [Statement.output, hop]
      rfl
    refine ⟨⟨i, s, hs, by rw [hop]; rfl, hout.symm⟩, fun x hx => ?_⟩
    obtain rfl := List.mem_singleton.mp hx
    rfl

namespace Discipline

variable {c : Cluster}

/-- Every value tells whether it starts from a null, and is read from none. -/
def told (c : Cluster) : Discipline c where
  asks _ := True
  fits l _ r := r.Told l
  asks_component _ := True.intro
  asks_need _ _ := True.intro
  fits_append h := h.append _
  fits_candidate h := (Program.mem_findCompatible _ _ _ _ _ _ h).told
  fits_literal _ := Ref.Told.output _ _ rfl
  fits_allocate {l t n} _ := Ref.Told.output l (.allocate t n) rfl
  fits_maker {l _ k args} _ := Ref.Told.output l (.construct k args) rfl

theorem told_mobile (c : Cluster) : (told c).Mobile where
  anchored h := h.anchored
  moved h hr hf hs hs' halike := h.moved hr hf hs hs' halike

theorem Good.told {l : List Statement} {s : Statement} (h : (told c).Good l s) :
    ∀ r ∈ s.reads, r.Told l := by
  cases h with
  | literal v t => nofun
  | allocate t n => nofun
  | @store a k t r s₀ ha _ hstore hnull hfits =>
    intro x hx
    rcases List.mem_cons.mp hx with rfl | hx
    · have hout : s₀.output a = .value a := by
        rw [s₀.output_eq a hstore, hnull]
        rfl
      refine ⟨⟨a, s₀, ha, hstore, hout.symm⟩, fun y hy => ?_⟩
      obtain rfl := List.mem_singleton.mp hy
      rfl
    · obtain rfl := List.mem_singleton.mp hx
      exact hfits
  | member _ happlied =>
    intro r hr
    obtain ⟨_, hfits⟩ := happlied.fits r hr
    exact hfits

end Discipline

/-! ## Receivers -/

namespace Mutation

/-- A receiver stays what it was, or becomes a value that is no null. -/
theorem receiver?_fill (slot : Slot) (r : Ref) (op : Operation) :
    (slot.fill r op).receiver? = op.receiver? ∨
      (slot.filter.excludeNull = true ∧ (slot.fill r op).receiver? = some r) := by
  cases slot with
  | callee =>
    cases op with
    | call m callee args => exact Or.inr ⟨rfl, rfl⟩
    | _ => exact Or.inl rfl
  | source =>
    cases op with
    | read f source => exact Or.inr ⟨rfl, rfl⟩
    | _ => exact Or.inl rfl
  | arg i => cases op <;> exact Or.inl rfl
  | storedValue => cases op <;> exact Or.inl rfl

theorem Changed.receiversNonNull {c : Cluster} {p p' : Program} {position : Nat}
    (h : Changed c p position p') (hp : p.ReceiversNonNull) : p'.ReceiversNonNull := by
  cases h with
  | same => exact hp
  | literal _ _ _ =>
    intro t ht
    rcases List.mem_or_eq_of_mem_set ht with ht | rfl
    · exact hp t ht
    · nofun
  | @bound s slot ty current r hs _ hr =>
    intro t ht
    rcases List.mem_or_eq_of_mem_set ht with ht | rfl
    · exact hp t ht
    · intro x hx
      have hx : (slot.fill r s.op).receiver? = some x := hx
      rcases receiver?_fill slot r s.op with heq | ⟨hfilter, heq⟩
      · rw [heq] at hx
        exact hp s (List.mem_of_getElem? hs) x hx
      · rw [heq] at hx
        obtain rfl := Option.some.inj hx
        exact Program.isNull_of_mem_findCompatible hr hfilter

theorem deleteWithReaders_receiversNonNull (p : Program) (hp : p.ReceiversNonNull)
    (position : Nat) : (deleteWithReaders p position).1.ReceiversNonNull := by
  unfold deleteWithReaders
  split
  · exact hp
  · exact hp.retain _

end Mutation

/-! ## Top theorem -/

/-- Values tell whether they start from a null, and no receiver is one. -/
structure Program.Clean (c : Cluster) (p : Program) : Prop where
  told : (Discipline.told c).Holds p.statements
  receivers : p.ReceiversNonNull

theorem Inserter.keeps_clean {ω : Type} [WordSource ω] {ins : Inserter ω}
    (hselect : ins.selector.OffersNonNull ins.cluster) : ins.Keeps (Program.Clean ins.cluster) := by
  have hholds := Inserter.keeps_holds (Discipline.told_mobile ins.cluster) hselect.offers.admits
  refine ⟨?_, ?_, ?_, ?_⟩
  · exact fun p hp => hholds.valid p hp.told
  · exact fun p i hp => ⟨hholds.delete p i hp.told,
      Mutation.deleteWithReaders_receiversNonNull p hp.receivers i⟩
  · exact fun p i p' hx hp => ⟨hholds.change p i p' hx hp.told, hx.receiversNonNull hp.receivers⟩
  · intro p after hp
    have hinsert := (hholds.insert p after hp.told).and
      (Inserter.insertAfter_clean hselect p hp.receivers after)
    exact hinsert.mono (fun _ hf => hf.1) fun _ hx => ⟨hx.1, hx.2⟩

theorem GrownNonNull.clean {c : Cluster} {p : Program} (h : GrownNonNull c p) : p.Clean c := by
  induction h with
  | empty => exact ⟨Discipline.holds_nil, nofun⟩
  | call ins call _ hc hselect hrun ih =>
    subst hc
    exact ((Inserter.keeps_clean hselect).run call _ ih).of_ok hrun

/-- A reference starts from what a statement before gives, and both say whether it is a null. -/
theorem Ref.Told.base {p : Program} {n : Nat} {r : Ref} (h : r.Told (p.statements.take n)) :
    ∃ i t, p.statements[i]? = some t ∧
      r.base = if t.op.isNullLiteral then .null i else .value i := by
  obtain ⟨i, t, ht, hstore, hroot⟩ := h.root
  have hresult : r.root.ResultOf i := by
    rw [hroot]
    exact t.output_resultOf i hstore
  exact ⟨i, t, (Program.getElem?_of_take ht).2,
    by rw [base_eq_root hresult, hroot, t.output_eq i hstore]⟩

theorem Operation.isNullLiteral_iff (op : Operation) :
    op.isNullLiteral = true ↔ op = .literal .null := by
  cases op with
  | literal v => cases v <;> simp [isNullLiteral, Literal.isNull]
  | _ => simp [isNullLiteral]

/-- In programs that grow by selectors that leave out nulls, everything that is read tells whether
it starts from a null, and nothing is read from one. -/
theorem GrownNonNull.nullsTold {c : Cluster} {p : Program} (h : GrownNonNull c p) :
    p.NullsTold := by
  have hclean := h.clean
  have htold : ∀ {q : Nat} {s : Statement} {r : Ref}, p.statements[q]? = some s → r ∈ s.reads →
      r.Told (p.statements.take q) := fun hs hr => (hclean.told _ _ hs).told _ hr
  refine ⟨?_, ?_, ?_, ?_, ?_⟩
  · intro q i s r hs hr hbase
    obtain ⟨j, t, ht, heq⟩ := (htold hs hr).base
    rw [hbase] at heq
    split at heq
    · next hnull =>
      cases heq
      exact ⟨t, ht, t.op.isNullLiteral_iff.mp hnull⟩
    · cases heq
  · intro q i s r hs hr hbase
    obtain ⟨j, t, ht, heq⟩ := (htold hs hr).base
    rw [hbase] at heq
    split at heq
    · cases heq
    · next hnull =>
      cases heq
      exact ⟨t, ht, fun hop => hnull (t.op.isNullLiteral_iff.mpr hop)⟩
  · intro q s m r args hs hop
    exact hclean.receivers s (List.mem_of_getElem? hs) r (by rw [hop]; rfl)
  · intro q s f r hs hop
    exact hclean.receivers s (List.mem_of_getElem? hs) r (by rw [hop]; rfl)
  · intro q s r x hs hr hx
    exact (htold hs hr).owners x hx

/-- A class that is made from nothing, with a method for an array and one for an instance. -/
def nodes : Cluster :=
  Cluster.ofList [{ ClassDecl.ofName "Node" with
    constructors := [[]]
    methods := [⟨"of", [.array .int], .void, true⟩, ⟨"drop", [], .void, false⟩] }]

/-- An inserter that makes no new objects for the members that it uses. -/
def hosting : Inserter Random.Scripted := ⟨nodes, .random nodes, 0, 1⟩

/-- A null and its use, then whatever follows. -/
def afterNull (rest : List Statement) : Program :=
  { Program.empty with statements :=
      [.null (.array .int), .call ⟨.named "Node", "of", [.array .int], .void, true⟩ none [.null 0]]
        ++ rest }

def newNode : Statement := .construct ⟨.named "Node", []⟩ []

def dropNode : Statement := .call ⟨.named "Node", "drop", [], .void, false⟩ (some (.value 2)) []

/-- A null is used, an instance is made and is the receiver of a call. -/
theorem GrownNonNull.nullsTold_dropNode :
    GrownNonNull nodes (afterNull [newNode, dropNode]) ∧
      (afterNull [newNode, dropNode]).NullsTold := by
  have hselect : hosting.selector.OffersNonNull nodes := Selector.random_offersNonNull nodes
  have hruns : ((Call.insert none).run hosting .empty ⟨[0x60000000, 0], 0⟩).map (·.1) =
        .ok (afterNull []) ∧
      ((Call.insert none).run hosting (afterNull []) ⟨[0], 0⟩).map (·.1) =
        .ok (afterNull [newNode]) ∧
      ((Call.insert none).run hosting (afterNull [newNode]) ⟨[0xC0000000, 0, 0], 0⟩).map (·.1) =
        .ok (afterNull [newNode, dropNode]) := by
    decide +kernel
  obtain ⟨w₁, hone⟩ := Act.of_map_fst hruns.1
  obtain ⟨w₂, htwo⟩ := Act.of_map_fst hruns.2.1
  obtain ⟨w₃, hthree⟩ := Act.of_map_fst hruns.2.2
  have hone : GrownNonNull nodes (afterNull []) :=
    .call hosting (.insert none) .empty rfl hselect hone
  have htwo : GrownNonNull nodes (afterNull [newNode]) :=
    .call hosting (.insert none) hone rfl hselect htwo
  have hthree : GrownNonNull nodes (afterNull [newNode, dropNode]) :=
    .call hosting (.insert none) htwo rfl hselect hthree
  exact ⟨hthree, hthree.nullsTold⟩

end SuiteSearch
