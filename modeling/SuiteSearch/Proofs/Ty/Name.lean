import SuiteSearch.Ty.Name

/-!
# Written types

The types that have a name to be read from.  All but some classes do: a class whose name is empty,
holds a blank, ends in brackets or is a keyword is written like something else.

    Trimmed cs text           text is what is left of cs without the blanks at its ends
    Written t                 a base type told by its own name, or an array of a written type
    trimmed_iff               to trim is to take off exactly the blanks at both ends
    written_of_parse          every type that is read is written
    parse_render              every written type is read back from its name
-/

namespace SuiteSearch

/-! ## Blanks -/

namespace Text

/-- The text without the blanks at its ends. -/
structure Trimmed (cs text : List Char) : Prop where
  split : ∃ before after, cs = before ++ text ++ after ∧ before.all isBlank = true ∧
    after.all isBlank = true
  head : ∀ c, text.head? = some c → isBlank c = false
  last : ∀ c, text.getLast? = some c → isBlank c = false

/-- Nothing is dropped from a text that starts with no blank. -/
theorem dropWhile_isBlank_of_head (l : List Char)
    (h : ∀ c, l.head? = some c → isBlank c = false) : l.dropWhile isBlank = l := by
  cases l with
  | nil => rfl
  | cons c rest => exact List.dropWhile_cons_of_neg (by simp [h c rfl])

theorem head?_dropWhile_isBlank (l : List Char) (c : Char)
    (h : (l.dropWhile isBlank).head? = some c) : isBlank c = false := by
  have hnot := List.head?_dropWhile_not isBlank l
  rwa [h] at hnot

theorem Trimmed.trim {cs text : List Char} (h : Trimmed cs text) : trim cs = text := by
  obtain ⟨before, after, rfl, hbefore, hafter⟩ := h.split
  rw [List.all_eq_true] at hbefore hafter
  have hreverse : ∀ c ∈ after.reverse, isBlank c = true :=
    fun c hc => hafter c (List.mem_reverse.mp hc)
  unfold Text.trim
  rw [List.append_assoc, List.dropWhile_append_of_pos hbefore]
  cases text with
  | nil =>
    rw [List.nil_append, ← List.append_nil after, List.dropWhile_append_of_pos hafter]
    rfl
  | cons c rest =>
    rw [List.cons_append, List.dropWhile_cons_of_neg (by simp [h.head c rfl]), ← List.cons_append,
      List.reverse_append, List.dropWhile_append_of_pos hreverse, dropWhile_isBlank_of_head,
      List.reverse_reverse]
    intro d hd
    rw [List.head?_reverse] at hd
    exact h.last d hd

theorem trimmed_trim (cs : List Char) : Trimmed cs (trim cs) := by
  -- `rest` still has the blanks at the end
  generalize hrest : cs.dropWhile isBlank = rest
  have hcs : cs.takeWhile isBlank ++ rest = cs := by
    rw [← hrest, List.takeWhile_append_dropWhile]
  have hsplit : trim cs ++ (rest.reverse.takeWhile isBlank).reverse = rest := by
    rw [trim, hrest, ← List.reverse_append, List.takeWhile_append_dropWhile, List.reverse_reverse]
  refine ⟨⟨cs.takeWhile isBlank, (rest.reverse.takeWhile isBlank).reverse, ?_, ?_, ?_⟩, ?_, ?_⟩
  · rw [List.append_assoc, hsplit, hcs]
  · exact List.all_takeWhile
  · rw [List.all_reverse]
    exact List.all_takeWhile
  · intro c hc
    refine head?_dropWhile_isBlank cs c ?_
    rw [hrest, ← hsplit, List.head?_append, hc, Option.some_or]
  · intro c hc
    rw [trim, List.getLast?_reverse] at hc
    exact head?_dropWhile_isBlank _ c hc

theorem trimmed_iff (cs text : List Char) : Trimmed cs text ↔ trim cs = text := by
  constructor
  · exact Trimmed.trim
  · rintro rfl
    exact trimmed_trim cs

/-- A text without blanks has none at its ends. -/
theorem trim_of_solid (cs : List Char) (h : cs.any isBlank = false) : trim cs = cs := by
  rw [List.any_eq_false] at h
  refine Trimmed.trim ⟨⟨[], [], by simp⟩, fun c hc => ?_, fun c hc => ?_⟩
  · exact Bool.eq_false_iff.mpr (h c (List.mem_of_head? hc))
  · exact Bool.eq_false_iff.mpr (h c (List.mem_of_getLast? hc))

end Text

namespace Ty

/-! ## Algorithm -/

/-- The types that are read from their written form. -/
inductive Written : Ty → Prop
  | base {t : Ty} : isBaseName t.render.toList = true → stripBrackets? t.render.toList = none →
      ofBase t.render = t → Written t
  | array {t : Ty} : Written t → Written (.array t)

/-! ## Lemmas -/

/-- A base type is written as the name that it is read from. -/
theorem render_ofBase (name : String) : (ofBase name).render = name := by
  unfold ofBase
  split
  · next h => rw [h, render]
  · cases hkeyword : Primitive.ofKeyword? name with
    | none => rfl
    | some p =>
      have hname : p.keyword = name := by simpa using List.find?_some hkeyword
      exact hname

theorem stripBrackets?_append (cs : List Char) : stripBrackets? (cs ++ ['[', ']']) = some cs := by
  simp [stripBrackets?]

theorem Written.solid {t : Ty} (h : Written t) : t.render.toList.any Text.isBlank = false := by
  induction h with
  | base hname _ _ =>
    rw [isBaseName, Bool.and_eq_true] at hname
    simpa using hname.2
  | @array t _ ih =>
    have hblank : ['[', ']'].any Text.isBlank = false := by decide
    rw [render, String.toList_append, List.any_append, ih, Bool.false_or]
    exact hblank

/-- Every type that is read is written. -/
theorem written_of_parse (s : String) (t : Ty) (h : parse s = .ok t) : Written t := by
  unfold parse at h
  generalize s.toList = cs at h
  fun_induction parseChars cs generalizing t with
  | case1 cs rest hstrip ih =>
    cases hrest : parseChars rest with
    | error e =>
      rw [hrest] at h
      cases h
    | ok component =>
      rw [hrest] at h
      cases h
      exact .array (ih component hrest)
  | case2 cs hstrip hname =>
    cases h
    refine .base ?_ ?_ ?_ <;> rw [render_ofBase]
    · rwa [String.toList_ofList]
    · rwa [String.toList_ofList]
  | case3 cs hstrip hname => cases h

theorem parseChars_of_brackets {cs rest : List Char}
    (h : stripBrackets? (Text.trim cs) = some rest) :
    parseChars cs = (parseChars rest).map .array := by
  rw [parseChars]
  split
  · next rest' hrest =>
    obtain rfl := Option.some.inj (h.symm.trans hrest)
    rfl
  · next hnone =>
    rw [h] at hnone
    cases hnone

theorem parseChars_of_base {cs : List Char} (h : stripBrackets? (Text.trim cs) = none) :
    parseChars cs =
      if isBaseName (Text.trim cs) then .ok (ofBase (String.ofList (Text.trim cs)))
      else .error (.typeName (String.ofList (Text.trim cs))) := by
  rw [parseChars]
  split
  · next rest hrest =>
    rw [h] at hrest
    cases hrest
  · rfl

/-- Every written type is read back from its name. -/
theorem parse_render {t : Ty} (h : Written t) : parse t.render = .ok t := by
  unfold parse
  induction h with
  | @base t hname hstrip hbase =>
    have htrim := Text.trim_of_solid _ (Written.base hname hstrip hbase).solid
    rw [parseChars_of_base (by rwa [htrim]), htrim, if_pos hname, String.ofList_toList, hbase]
  | @array t h ih =>
    have htrim := Text.trim_of_solid _ (Written.array h).solid
    have hchars : (Ty.array t).render.toList = t.render.toList ++ ['[', ']'] := by
      rw [render, String.toList_append]
      rfl
    rw [hchars] at htrim ⊢
    rw [parseChars_of_brackets (by rw [htrim, stripBrackets?_append]), ih]
    rfl

end Ty

end SuiteSearch
