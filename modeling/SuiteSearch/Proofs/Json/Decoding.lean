import SuiteSearch.Json.Decoder

/-!
# Decoders and what they accept

What a list or a record is written as is taken apart into what it was made of; and what a decoder
gives has whatever its parts promise.

    list?_map              the items that a list was made of
    fields?_record         the members that a record was made of
    of_list?               the elements of a decoded list have what their decoder promises
    of_required            so has a decoded field
    of_optional            or it has what its default promises
-/

namespace SuiteSearch.Json

variable {α : Type} {f : Value → Option α}

theorem mapM_map {β γ : Type} {k : γ → Option α} {e : β → γ} {g : β → α} (l : List β)
    (h : ∀ b ∈ l, k (e b) = some (g b)) : (l.map e).mapM k = some (l.map g) := by
  induction l with
  | nil => rfl
  | cons b rest ih =>
    have hb := h b List.mem_cons_self
    have hrest := ih fun x hx => h x (List.mem_cons_of_mem _ hx)
    simp [List.mapM_cons, hb, hrest]

theorem mem_of_mapM {β : Type} {k : β → Option α} {l : List β} {as : List α}
    (h : l.mapM k = some as) : ∀ a ∈ as, ∃ b ∈ l, k b = some a := by
  induction l generalizing as with
  | nil =>
    obtain rfl : [] = as := by simpa using h
    nofun
  | cons b rest ih =>
    obtain ⟨a, ha, as', has, rfl⟩ : ∃ a, k b = some a ∧ ∃ as', rest.mapM k = some as' ∧
        a :: as' = as := by simpa [List.mapM_cons, Option.bind_eq_some_iff] using h
    intro x hx
    rcases List.mem_cons.mp hx with rfl | hx
    · exact ⟨b, List.mem_cons_self, ha⟩
    · obtain ⟨b', hb', hk⟩ := ih has x hx
      exact ⟨b', List.mem_cons_of_mem _ hb', hk⟩

namespace Value

/-! ## Lists -/

theorem list?_map {g : α → Value} (l : List α) (h : ∀ a ∈ l, f (g a) = some a) :
    list? f (.array (l.map g)) = some l := by
  rw [list?, mapM_map (g := id) l h, List.map_id]

theorem of_list? {P : α → Prop} (hf : ∀ v a, f v = some a → P a) {v : Value} {l : List α}
    (h : list? f v = some l) : ∀ a ∈ l, P a := by
  unfold list? at h
  split at h
  · intro a ha
    obtain ⟨u, -, hu⟩ := mem_of_mapM h a ha
    exact hf u a hu
  · cases h

/-! ## Records -/

theorem filter_name (members : List (String × Value)) (h : (members.map (·.1)).Nodup)
    (m : String × Value) (hm : m ∈ members) : members.filter (·.1 == m.1) = [m] := by
  induction members with
  | nil => cases hm
  | cons x rest ih =>
    rw [List.map_cons, List.nodup_cons] at h
    rcases List.mem_cons.mp hm with rfl | hm
    · have hrest : rest.filter (·.1 == m.1) = [] := by
        rw [List.filter_eq_nil_iff]
        intro y hy heq
        exact h.1 (List.mem_map.mpr ⟨y, hy, by simpa using heq⟩)
      rw [List.filter_cons_of_pos (by simp), hrest]
    · have hne : x.1 ≠ m.1 := fun heq => h.1 (heq ▸ List.mem_map.mpr ⟨m, hm, rfl⟩)
      rw [List.filter_cons_of_neg (by simpa using hne), ih h.2 hm]

/-- A record with different names has the value of every one of its members. -/
theorem fields?_record (members : List (String × Value)) (names : List String)
    (hmembers : members.map (·.1) = names) (hnames : names.Nodup) :
    (record members).fields? names = some (members.map fun m => some m.2) := by
  subst hmembers
  have htexts : (members.map fun m => (some m.1, m.2)).any (·.1.isNone) = false := by simp
  show (if (members.map fun m => (some m.1, m.2)).any (·.1.isNone) then none else _) = _
  rw [htexts, if_neg (by simp)]
  refine mapM_map members fun m hm => ?_
  have hfilter : ((fun x : Option String × Value => x.1 == some m.1) ∘ fun x : String × Value =>
      (some x.1, x.2)) = fun x => x.1 == m.1 := by
    funext x
    simp
  rw [onlyMember, List.filter_map, hfilter, filter_name members hnames m hm]
  rfl

end Value

/-! ## Fields -/

theorem of_required {P : α → Prop} (hf : ∀ v a, f v = some a → P a) {v? : Option Value} {a : α}
    (h : required f v? = some a) : P a := by
  cases v? with
  | none => cases h
  | some v => exact hf v a h

theorem of_optional {P : α → Prop} {default : α} (hdefault : P default)
    (hf : ∀ v a, f v = some a → P a) {v? : Option Value} {a : α}
    (h : optional default f v? = some a) : P a := by
  cases v? with
  | none =>
    obtain rfl := Option.some.inj h
    exact hdefault
  | some v => exact hf v a h

theorem of_optional_list {P : α → Prop} (hf : ∀ v a, f v = some a → P a) {v? : Option Value}
    {l : List α} (h : optional [] (Value.list? f) v? = some l) : ∀ a ∈ l, P a :=
  of_optional (P := fun l => ∀ a ∈ l, P a) (List.forall_mem_nil _)
    (fun _ _ hl => Value.of_list? hf hl) h

end SuiteSearch.Json
