import SuiteSearch.Cluster.Document
import SuiteSearch.Proofs.Json.Decoding
import SuiteSearch.Proofs.Json.Reading
import SuiteSearch.Proofs.Ty.Name

/-!
# Clusters survive their documents

A cluster that is written as a document is read back from it, whatever its names are, if its types
have names to be read from.  Those of a cluster that was read do.

    c.types                      all types in the declarations of c
    ofValue?_toValue             a declaration is read back from its record
    written_of_ofValue?          a declaration that is read has written types only
    ofDistinct?_classes          the classes of a cluster declare it again
    ofDocument?_document         the document of a cluster
-/

namespace SuiteSearch

open Json (Value of_required of_optional of_optional_list)

/-! ## Algorithm -/

def MethodDecl.types (m : MethodDecl) : List Ty := m.returns :: m.params

/-- All types in a declaration. -/
def ClassDecl.types (d : ClassDecl) : List Ty :=
  d.constructors.flatten ++ d.methods.flatMap MethodDecl.types ++ d.fields.map (·.ty)

/-- All types in the declarations of a cluster. -/
def Cluster.types (c : Cluster) : List Ty := c.classes.flatMap ClassDecl.types

/-! ## Declarations are plain values -/

theorem Ty.listValue_plain (types : List Ty) : (Ty.listValue types).Plain :=
  .list types fun _ _ => .text _

theorem MethodDecl.toValue_plain (m : MethodDecl) : m.toValue.Plain := by
  refine .record ?_
  simp only [List.forall_mem_cons]
  exact ⟨.text _, Ty.listValue_plain _, .text _, .bool _, List.forall_mem_nil _⟩

theorem FieldDecl.toValue_plain (f : FieldDecl) : f.toValue.Plain := by
  refine .record ?_
  simp only [List.forall_mem_cons]
  exact ⟨.text _, .text _, .bool _, .bool _, List.forall_mem_nil _⟩

theorem ClassDecl.toValue_plain (d : ClassDecl) : d.toValue.Plain := by
  refine .record ?_
  simp only [List.forall_mem_cons]
  refine ⟨.text _, ?_, .list _ fun _ _ => .text _, .bool _,
    .list _ fun params _ => Ty.listValue_plain params, .list _ fun m _ => m.toValue_plain,
    .list _ fun f _ => f.toValue_plain, List.forall_mem_nil _⟩
  cases d.superclass with
  | none => exact .null
  | some s => exact .text s

theorem Cluster.toValue_plain (c : Cluster) : c.toValue.Plain := by
  refine .record ?_
  simp only [List.forall_mem_cons]
  exact ⟨.list _ fun d _ => d.toValue_plain, List.forall_mem_nil _⟩

/-! ## Declarations are read back -/

theorem Ty.ofValue?_toValue {t : Ty} (h : t.Written) : Ty.ofValue? t.toValue = some t := by
  show (Ty.parse t.render).toOption = some t
  rw [Ty.parse_render h]
  rfl

theorem Ty.list?_listValue (types : List Ty) (h : ∀ t ∈ types, t.Written) :
    Value.list? Ty.ofValue? (Ty.listValue types) = some types :=
  Value.list?_map types fun t ht => Ty.ofValue?_toValue (h t ht)

theorem MethodDecl.ofValue?_toValue (m : MethodDecl) (h : ∀ t ∈ m.types, t.Written) :
    MethodDecl.ofValue? m.toValue = some m := by
  have hreturns := Ty.ofValue?_toValue (h m.returns List.mem_cons_self)
  have hparams := Ty.list?_listValue m.params fun t ht => h t (List.mem_cons_of_mem _ ht)
  unfold ofValue? toValue
  rw [Value.fields?_record]
  · simp only [List.map_cons, List.map_nil, Json.required, Json.optional, hparams, hreturns]
    rfl
  · rfl
  · decide

theorem FieldDecl.ofValue?_toValue (f : FieldDecl) (h : f.ty.Written) :
    FieldDecl.ofValue? f.toValue = some f := by
  unfold ofValue? toValue
  rw [Value.fields?_record]
  · simp only [List.map_cons, List.map_nil, Json.required, Json.optional, Ty.ofValue?_toValue h]
    rfl
  · rfl
  · decide

theorem ClassDecl.ofValue?_toValue (d : ClassDecl) (h : ∀ t ∈ d.types, t.Written) :
    ClassDecl.ofValue? d.toValue = some d := by
  have hconstructors : Value.list? (Value.list? Ty.ofValue?)
      (.array (d.constructors.map Ty.listValue)) = some d.constructors :=
    Value.list?_map _ fun params hparams => Ty.list?_listValue params fun t ht => h t <|
      List.mem_append_left _ (List.mem_append_left _ (List.mem_flatten.mpr ⟨params, hparams, ht⟩))
  have hmethods : Value.list? MethodDecl.ofValue?
      (.array (d.methods.map MethodDecl.toValue)) = some d.methods :=
    Value.list?_map _ fun m hm => m.ofValue?_toValue fun t ht => h t <|
      List.mem_append_left _ (List.mem_append_right _ (List.mem_flatMap.mpr ⟨m, hm, ht⟩))
  have hfields : Value.list? FieldDecl.ofValue?
      (.array (d.fields.map FieldDecl.toValue)) = some d.fields :=
    Value.list?_map _ fun f hf => f.ofValue?_toValue <| h f.ty <|
      List.mem_append_right _ (List.mem_map.mpr ⟨f, hf, rfl⟩)
  have hinterfaces : Value.list? Value.string? (.array (d.interfaces.map .ofString)) =
      some d.interfaces := Value.list?_map _ fun _ _ => rfl
  unfold ofValue? toValue
  rw [Value.fields?_record]
  · simp only [List.map_cons, List.map_nil, Json.required, Json.optional, hconstructors, hmethods,
      hfields, hinterfaces]
    obtain ⟨name, superclass, _⟩ := d
    cases superclass <;> rfl
  · rfl
  · decide

/-! ## Clusters are declared again -/

theorem ClassDecl.insertSorted_last {d : ClassDecl} {l : List ClassDecl}
    (h : ∀ e ∈ l, e.name < d.name) : insertSorted d l = l ++ [d] := by
  induction l with
  | nil => rfl
  | cons e rest ih =>
    have he := h e List.mem_cons_self
    unfold insertSorted
    rw [if_neg (String.lt_asymm he), if_pos he, ih fun x hx => h x (List.mem_cons_of_mem _ hx)]
    rfl

/-- Classes that come after those of a cluster are appended to it. -/
theorem Cluster.extend_append (before rest : List ClassDecl)
    (hbefore : before.Pairwise (·.name < ·.name))
    (h : (before ++ rest).Pairwise (·.name < ·.name)) :
    (Cluster.mk before hbefore).extend rest = .ok ⟨before ++ rest, h⟩ := by
  induction rest generalizing before with
  | nil => simp [extend]
  | cons d rest ih =>
    have hlt : ∀ e ∈ before, e.name < d.name := fun e he =>
      (List.pairwise_append.mp h).2.2 e he d List.mem_cons_self
    have hnew : (Cluster.mk before hbefore).find? d.name = none := by
      refine List.find?_eq_none.mpr fun e he heq => ?_
      have hname : e.name = d.name := by simpa using heq
      exact String.lt_irrefl _ (hname ▸ hlt e he)
    have hassoc : before ++ d :: rest = (before ++ [d]) ++ rest := by simp
    have hsorted : (before ++ [d] ++ rest).Pairwise (·.name < ·.name) := hassoc ▸ h
    have hinsert : (Cluster.mk before hbefore).insert d =
        ⟨before ++ [d], (List.pairwise_append.mp hsorted).1⟩ := by
      simp only [insert, ClassDecl.insertSorted_last hlt]
    rw [extend, hnew, if_neg (by simp), hinsert, ih _ _ hsorted]
    simp only [hassoc]

theorem Cluster.ofDistinct?_classes (c : Cluster) : ofDistinct? c.classes = .ok c :=
  extend_append [] c.classes List.Pairwise.nil c.sorted

/-! ## What is read has written types -/

theorem Ty.written_of_ofValue? (v : Value) (t : Ty) (h : Ty.ofValue? v = some t) : t.Written := by
  obtain ⟨s, -, hs⟩ := Option.bind_eq_some_iff.mp h
  cases hparse : Ty.parse s with
  | error e =>
    rw [hparse] at hs
    cases hs
  | ok t' =>
    rw [hparse] at hs
    cases hs
    exact Ty.written_of_parse s t hparse

theorem Ty.written_void : Ty.void.Written := .base (by decide) (by decide) (by decide)

theorem MethodDecl.written_of_ofValue? (v : Value) (m : MethodDecl)
    (h : MethodDecl.ofValue? v = some m) : ∀ t ∈ m.types, t.Written := by
  unfold ofValue? at h
  split at h
  · simp only [Option.bind_eq_bind, Option.bind_eq_some_iff, Option.pure_def] at h
    obtain ⟨name, -, params, hparams, returns, hreturns, isStatic, -, heq⟩ := h
    cases heq
    intro t ht
    rcases List.mem_cons.mp ht with rfl | ht
    · exact of_optional Ty.written_void Ty.written_of_ofValue? hreturns
    · exact of_optional_list Ty.written_of_ofValue? hparams t ht
  · cases h

theorem FieldDecl.written_of_ofValue? (v : Value) (f : FieldDecl)
    (h : FieldDecl.ofValue? v = some f) : f.ty.Written := by
  unfold ofValue? at h
  split at h
  · simp only [Option.bind_eq_bind, Option.bind_eq_some_iff, Option.pure_def] at h
    obtain ⟨name, -, ty, hty, isStatic, -, isPublic, -, heq⟩ := h
    cases heq
    exact of_required Ty.written_of_ofValue? hty
  · cases h

theorem ClassDecl.written_of_ofValue? (v : Value) (d : ClassDecl)
    (h : ClassDecl.ofValue? v = some d) : ∀ t ∈ d.types, t.Written := by
  unfold ofValue? at h
  split at h
  · simp only [Option.bind_eq_bind, Option.bind_eq_some_iff, Option.pure_def] at h
    obtain ⟨name, -, superclass, -, interfaces, -, isAbstract, -, constructors, hconstructors,
      methods, hmethods, fields, hfields, heq⟩ := h
    cases heq
    have hconstructors := of_optional_list (P := fun params : List Ty => ∀ t ∈ params, t.Written)
      (fun _ _ hl => Value.of_list? Ty.written_of_ofValue? hl) hconstructors
    have hmethods := of_optional_list MethodDecl.written_of_ofValue? hmethods
    have hfields := of_optional_list FieldDecl.written_of_ofValue? hfields
    simp only [types, List.mem_append, List.mem_flatten, List.mem_flatMap, List.mem_map]
    rintro t ((⟨params, hp, ht⟩ | ⟨m, hm, ht⟩) | ⟨f, hf, rfl⟩)
    · exact hconstructors params hp t ht
    · exact hmethods m hm t ht
    · exact hfields f hf
  · cases h

theorem ClassDecl.written_of_listOfValue? (v : Value) (classes : List ClassDecl)
    (h : ClassDecl.listOfValue? v = some classes) :
    ∀ d ∈ classes, ∀ t ∈ d.types, t.Written := by
  unfold listOfValue? at h
  split at h
  · exact of_required (P := fun l => ∀ d ∈ l, ∀ t ∈ ClassDecl.types d, t.Written)
      (fun _ _ hl => Value.of_list? ClassDecl.written_of_ofValue? hl) h
  · cases h

/-- A cluster that classes are declared in has no others. -/
theorem Cluster.mem_of_extend {c c' : Cluster} {l : List ClassDecl} (h : c.extend l = .ok c')
    (d : ClassDecl) (hd : d ∈ c'.classes) : d ∈ c.classes ∨ d ∈ l := by
  induction l generalizing c with
  | nil =>
    obtain rfl := Except.ok.inj h
    exact Or.inl hd
  | cons e rest ih =>
    unfold extend at h
    split at h
    · cases h
    · rcases ih h with hmem | hmem
      · rcases ClassDecl.mem_insertSorted hmem with rfl | hmem
        · exact Or.inr List.mem_cons_self
        · exact Or.inl hmem
      · exact Or.inr (List.mem_cons_of_mem _ hmem)

theorem Cluster.written_of_ofDocument? (text : String) (c : Cluster)
    (h : Cluster.ofDocument? text = .ok c) : ∀ t ∈ c.types, t.Written := by
  unfold ofDocument? ofValue? at h
  split at h
  · cases h
  · next v hparse =>
    split at h
    · cases h
    · next classes hclasses =>
      have hdistinct : empty.extend classes = .ok c := by
        cases hextend : empty.extend classes with
        | error e =>
          rw [ofDistinct?, hextend] at h
          cases h
        | ok c' =>
          rw [ofDistinct?, hextend] at h
          have hc : c' = c := Except.ok.inj h
          rw [hc]
      intro t ht
      obtain ⟨d, hd, ht⟩ := List.mem_flatMap.mp ht
      rcases mem_of_extend hdistinct d hd with hmem | hmem
      · cases hmem
      · exact ClassDecl.written_of_listOfValue? v classes hclasses d hmem t ht

/-! ## Top theorem -/

theorem Cluster.ofValue?_toValue (c : Cluster) (h : ∀ t ∈ c.types, t.Written) :
    Cluster.ofValue? c.toValue = .ok c := by
  have hclasses : Value.list? ClassDecl.ofValue? (.array (c.classes.map ClassDecl.toValue)) =
      some c.classes :=
    Value.list?_map _ fun d hd => d.ofValue?_toValue fun t ht =>
      h t (List.mem_flatMap.mpr ⟨d, hd, ht⟩)
  have hlist : ClassDecl.listOfValue? c.toValue = some c.classes := by
    unfold ClassDecl.listOfValue? toValue
    rw [Value.fields?_record]
    · exact hclasses
    · rfl
    · decide
  rw [ofValue?, hlist]
  dsimp only
  rw [ofDistinct?_classes]
  rfl

/-- A cluster is read back from its document if each of its types is read from some name, and
so is every cluster that was itself read from a document. -/
theorem Cluster.ofDocument?_document (c : Cluster)
    (h : (∀ t ∈ c.types, ∃ s, Ty.parse s = .ok t) ∨ ∃ text, Cluster.ofDocument? text = .ok c) :
    Cluster.ofDocument? c.document = .ok c := by
  have hwritten : ∀ t ∈ c.types, t.Written := by
    rcases h with h | ⟨text, h⟩
    · intro t ht
      obtain ⟨s, hs⟩ := h t ht
      exact Ty.written_of_parse s t hs
    · exact written_of_ofDocument? text c h
  rw [ofDocument?, document, c.toValue_plain.parse?_pretty]
  exact ofValue?_toValue c hwritten

/-- A class with quotes, breaks, controls and letters beyond the first alphabet in its names. -/
def Cluster.oddNames : Cluster :=
  ofList [{ ClassDecl.ofName "Größe \"\n" with
    superclass := some "\\", interfaces := ["\t"],
    constructors := [[.array .int, .named "日本"], []],
    methods := [⟨"\x01", [.string], .void, true⟩],
    fields := [⟨"😀", .array (.named "List<T>"), false, false⟩] }]

theorem Cluster.ofDocument?_document_oddNames :
    ((∀ t ∈ oddNames.types, ∃ s, Ty.parse s = .ok t) ∨
        ∃ text, Cluster.ofDocument? text = .ok oddNames) ∧
      Cluster.ofDocument? oddNames.document = .ok oddNames := by
  have htypes : oddNames.types = [.array .int, .named "日本", .void, .string,
    .array (.named "List<T>")] := by decide +kernel
  have hread : ∀ t ∈ oddNames.types, ∃ s, Ty.parse s = .ok t := by
    intro t ht
    refine ⟨t.render, Ty.parse_render ?_⟩
    simp only [htypes, List.mem_cons, List.not_mem_nil, or_false] at ht
    rcases ht with rfl | rfl | rfl | rfl | rfl
    · exact .array (.base (by decide) (by decide) (by decide))
    · exact .base (by decide) (by decide) (by decide)
    · exact Ty.written_void
    · exact .base (by decide) (by decide) (by decide)
    · exact .array (.base (by decide) (by decide) (by decide))
  exact ⟨Or.inl hread, ofDocument?_document oddNames (Or.inl hread)⟩

end SuiteSearch
