import SuiteSearch.Json.Reader
import SuiteSearch.Proofs.Json.Spelling

/-!
# Written values are read back

The tokens of a value are read as that value and nothing of what follows.  Every level of nesting
and every item takes one step, so that twice the number of tokens is enough.

    Plain.readOne        the tokens of v, with anything after them
    Plain.parse?_pretty  the document of v
-/

namespace SuiteSearch.Json.Value

/-! ## Tokens -/

theorem tokens_head (v : Value) : ∃ t ts, v.tokens = t :: ts ∧ t ≠ .closeBracket := by
  cases v with
  | null => exact ⟨_, _, rfl, nofun⟩
  | bool b => exact ⟨_, _, rfl, nofun⟩
  | number n => exact ⟨_, _, rfl, nofun⟩
  | text s => exact ⟨_, _, rfl, nofun⟩
  | array items => exact ⟨.openBracket, itemTokens items ++ [.closeBracket], rfl, nofun⟩
  | object members => exact ⟨.openBrace, memberTokens members ++ [.closeBrace], rfl, nofun⟩

theorem length_tokens_pos (v : Value) : 0 < v.tokens.length := by
  obtain ⟨t, ts, ht, -⟩ := v.tokens_head
  simp [ht]

theorem itemTokens_cons (v u : Value) (rest : List Value) :
    itemTokens (v :: u :: rest) = v.tokens ++ .comma :: itemTokens (u :: rest) := rfl

theorem memberTokens_cons (name : Option String) (v : Value) (m : Option String × Value)
    (rest : List (Option String × Value)) : memberTokens ((name, v) :: m :: rest) =
      .text name :: .colon :: v.tokens ++ .comma :: memberTokens (m :: rest) := rfl

theorem itemTokens_head (v : Value) (rest : List Value) :
    ∃ t ts, itemTokens (v :: rest) = t :: ts ∧ t ≠ .closeBracket := by
  obtain ⟨t, ts, ht, hne⟩ := v.tokens_head
  cases rest with
  | nil => exact ⟨t, ts, ht, hne⟩
  | cons u rest =>
    refine ⟨t, ts ++ .comma :: itemTokens (u :: rest), ?_, hne⟩
    rw [itemTokens_cons, ht, List.cons_append]

theorem memberTokens_head (m : Option String × Value) (rest : List (Option String × Value)) :
    ∃ ts, memberTokens (m :: rest) = .text m.1 :: ts := by
  cases rest with
  | nil => exact ⟨_, rfl⟩
  | cons m' rest => exact ⟨_, rfl⟩

/-! ## Items and members -/

/-- Whether the tokens of a value are read as it, in steps bounded by their number. -/
def Reads (v : Value) : Prop :=
  ∀ fuel rest, 2 * v.tokens.length ≤ fuel + 1 → readOne fuel (v.tokens ++ rest) = some (v, rest)

theorem readItems_itemTokens (v : Value) (rest : List Value) (h : ∀ u ∈ v :: rest, Reads u)
    (fuel : Nat) (after : List Token) (hfuel : 2 * (itemTokens (v :: rest)).length ≤ fuel) :
    readItems fuel (itemTokens (v :: rest) ++ .closeBracket :: after) =
      some (v :: rest, after) := by
  induction rest generalizing v fuel with
  | nil =>
    have hpos := v.length_tokens_pos
    rw [itemTokens] at hfuel ⊢
    obtain ⟨n, rfl⟩ : ∃ n, fuel = n + 1 := ⟨fuel - 1, by omega⟩
    have hv := h v List.mem_cons_self n (.closeBracket :: after) (by omega)
    rw [readItems, hv]
    rfl
  | cons u rest ih =>
    rw [itemTokens_cons] at hfuel ⊢
    simp only [List.length_append, List.length_cons] at hfuel
    obtain ⟨n, rfl⟩ : ∃ n, fuel = n + 1 := ⟨fuel - 1, by omega⟩
    have hv := h v List.mem_cons_self n
      (.comma :: itemTokens (u :: rest) ++ .closeBracket :: after) (by omega)
    have hrest := ih u (fun x hx => h x (List.mem_cons_of_mem _ hx)) n (by omega)
    rw [List.append_assoc, readItems, hv]
    simp only [List.cons_append, Option.bind_eq_bind, Option.bind_some, hrest]
    rfl

theorem readMembers_memberTokens (m : Option String × Value) (rest : List (Option String × Value))
    (h : ∀ u ∈ m :: rest, Reads u.2) (fuel : Nat) (after : List Token)
    (hfuel : 2 * (memberTokens (m :: rest)).length ≤ fuel) :
    readMembers fuel (memberTokens (m :: rest) ++ .closeBrace :: after) =
      some (m :: rest, after) := by
  induction rest generalizing m fuel with
  | nil =>
    obtain ⟨name, v⟩ := m
    rw [memberTokens] at hfuel ⊢
    simp only [List.length_cons] at hfuel
    obtain ⟨n, rfl⟩ : ∃ n, fuel = n + 1 := ⟨fuel - 1, by omega⟩
    have hv := h _ List.mem_cons_self n (.closeBrace :: after) (by dsimp only; omega)
    simp only [List.cons_append, readMembers, hv]
    rfl
  | cons m' rest ih =>
    obtain ⟨name, v⟩ := m
    rw [memberTokens_cons] at hfuel ⊢
    simp only [List.length_append, List.length_cons] at hfuel
    obtain ⟨n, rfl⟩ : ∃ n, fuel = n + 1 := ⟨fuel - 1, by omega⟩
    have hv := h _ List.mem_cons_self n
      (.comma :: memberTokens (m' :: rest) ++ .closeBrace :: after) (by dsimp only; omega)
    have hrest := ih m' (fun x hx => h x (List.mem_cons_of_mem _ hx)) n (by omega)
    simp only [List.append_assoc, List.cons_append] at hv ⊢
    simp only [readMembers, hv, Option.bind_eq_bind, Option.bind_some, hrest]
    rfl

/-! ## Top theorem -/

theorem readOne_openBracket (fuel : Nat) (t : Token) (ts : List Token) (h : t ≠ .closeBracket) :
    readOne (fuel + 1) (.openBracket :: t :: ts) =
      (readItems fuel (t :: ts)).bind fun x => some (.array x.1, x.2) := by
  rw [readOne]
  · rfl
  · intro ts' hts
    exact absurd (List.cons.inj hts).1 h

theorem readOne_openBrace (fuel : Nat) (t : Token) (ts : List Token) (h : t ≠ .closeBrace) :
    readOne (fuel + 1) (.openBrace :: t :: ts) =
      (readMembers fuel (t :: ts)).bind fun x => some (.object x.1, x.2) := by
  rw [readOne]
  · rfl
  · intro ts' hts
    exact absurd (List.cons.inj hts).1 h

theorem Plain.reads {v : Value} (h : v.Plain) : v.Reads := by
  induction h with
  | null | bool b | text s =>
    intro fuel rest hfuel
    have hone : 2 ≤ fuel + 1 := hfuel
    obtain ⟨n, rfl⟩ : ∃ n, fuel = n + 1 := ⟨fuel - 1, by omega⟩
    rfl
  | @array items _ ih =>
    intro fuel after hfuel
    rw [tokens] at hfuel ⊢
    simp only [List.length_cons, List.length_append, List.length_nil] at hfuel
    obtain ⟨n, rfl⟩ : ∃ n, fuel = n + 1 := ⟨fuel - 1, by omega⟩
    cases items with
    | nil => rfl
    | cons v rest =>
      obtain ⟨t, ts, ht, hne⟩ := itemTokens_head v rest
      have hitems := readItems_itemTokens v rest ih n after (by omega)
      rw [ht] at hitems ⊢
      simp only [List.cons_append, List.append_assoc, List.nil_append] at hitems ⊢
      rw [readOne_openBracket n t _ hne, hitems]
      rfl
  | @object members _ _ ih =>
    intro fuel after hfuel
    rw [tokens] at hfuel ⊢
    simp only [List.length_cons, List.length_append, List.length_nil] at hfuel
    obtain ⟨n, rfl⟩ : ∃ n, fuel = n + 1 := ⟨fuel - 1, by omega⟩
    cases members with
    | nil => rfl
    | cons m rest =>
      obtain ⟨ts, ht⟩ := memberTokens_head m rest
      have hmembers := readMembers_memberTokens m rest ih n after (by omega)
      rw [ht] at hmembers ⊢
      simp only [List.cons_append, List.append_assoc, List.nil_append] at hmembers ⊢
      have hne : Token.text m.1 ≠ .closeBrace := by simp
      rw [readOne_openBrace n _ _ hne, hmembers]
      rfl

/-- The document of a plain value is read as that value. -/
theorem Plain.parse?_pretty {v : Value} (h : v.Plain) : parse? v.pretty = some v := by
  have hread := h.reads (2 * v.tokens.length + 1) [] (by omega)
  rw [List.append_nil] at hread
  rw [parse?, pretty, String.toList_ofList, (h.spelled 0).scan, Option.bind_some, ofTokens?, hread]

end SuiteSearch.Json.Value
