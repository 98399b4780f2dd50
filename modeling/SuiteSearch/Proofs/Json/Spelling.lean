import SuiteSearch.Json.Token
import SuiteSearch.Json.Writer

/-!
# The tokens of a written value

A value that is written with one item a line is cut back into its tokens.  Tokens other than numbers
end by themselves, so that the blanks of the layout can stand anywhere between them.

    Plain v             v has no numbers, and all its texts have a value
    tokens v            the tokens of v
    Spelled cs ts       cs is the tokens ts, with blanks between them
    Plain.spelled       v is written as a text that spells its tokens
-/

namespace SuiteSearch.Json

open Token

/-! ## Algorithm -/

/-- Without numbers, and without texts that have no value. -/
inductive Value.Plain : Value → Prop
  | null : Plain .null
  | bool (b : Bool) : Plain (.bool b)
  | text (s : String) : Plain (.text (some s))
  | array {items : List Value} : (∀ v ∈ items, Plain v) → Plain (.array items)
  | object {members : List (Option String × Value)} :
      (∀ m ∈ members, m.1.isSome = true) → (∀ m ∈ members, Plain m.2) → Plain (.object members)

namespace Value

mutual

/-- The tokens of a value. -/
def tokens : Value → List Token
  | .null => [.null]
  | .bool b => [.bool b]
  | .number n => [.number n]
  | .text s => [.text s]
  | .array items => .openBracket :: itemTokens items ++ [.closeBracket]
  | .object members => .openBrace :: memberTokens members ++ [.closeBrace]

/-- The tokens of the items of an array, with commas between them. -/
def itemTokens : List Value → List Token
  | [] => []
  | [v] => v.tokens
  | v :: rest => v.tokens ++ .comma :: itemTokens rest

/-- The tokens of the members of an object, with commas between them. -/
def memberTokens : List (Option String × Value) → List Token
  | [] => []
  | [(name, v)] => .text name :: .colon :: v.tokens
  | (name, v) :: rest => .text name :: .colon :: v.tokens ++ .comma :: memberTokens rest

end

end Value

/-- Characters that are read as one token, whatever follows them. -/
structure Token.Word (cs : List Char) (t : Token) : Prop where
  scanned (rest : List Char) : scanOne (cs ++ rest) = some (t, rest)
  head : ∃ c cs', cs = c :: cs' ∧ isSpace c = false

/-- A text that is cut into tokens, with blanks between them. -/
inductive Spelled : List Char → List Token → Prop
  | nil : Spelled [] []
  | space {c : Char} {cs : List Char} {ts : List Token} : isSpace c = true → Spelled cs ts →
      Spelled (c :: cs) ts
  | word {cs rest : List Char} {t : Token} {ts : List Token} : Word cs t → Spelled rest ts →
      Spelled (cs ++ rest) (t :: ts)

/-! ## Texts -/

theorem hexUnit_control :
    ∀ n < 0x20, hexUnit '0' '0' (Nat.digitChar (n / 16)) (Nat.digitChar (n % 16)) = some n := by
  decide

/-- The characters that are escaped by another one. -/
def namedCharacters : List Char := ['"', '\\', '\n', '\r', '\t', '\x08', '\x0c']

theorem escapeChar_of_unnamed (c : Char) (h : c ∉ namedCharacters) :
    escapeChar c = if c.toNat < 0x20 then controlEscape c else [c] := by
  simp only [namedCharacters, List.mem_cons, not_or] at h
  simp [escapeChar, h]

theorem scanText_controlEscape (done : List Char) (c : Char) (hc : c.toNat < 0x20)
    (rest : List Char) :
    scanText (some done) (controlEscape c ++ rest) = scanText (some (c :: done)) rest := by
  have hunit := hexUnit_control c.toNat hc
  have hhigh : isHighUnit c.toNat = false := by simp [isHighUnit]; omega
  have hlow : isLowUnit c.toNat = false := by simp [isLowUnit]; omega
  simp only [controlEscape, List.cons_append, List.nil_append]
  rw [scanText]
  simp only [hunit, hhigh, hlow, Char.ofNat_toNat, Option.map_some]
  rfl

/-- An escaped character is read as that character. -/
theorem scanText_escapeChar (done : List Char) (c : Char) (rest : List Char) :
    scanText (some done) (escapeChar c ++ rest) = scanText (some (c :: done)) rest := by
  by_cases hnamed : c ∈ namedCharacters
  · simp only [namedCharacters, List.mem_cons, List.not_mem_nil, or_false] at hnamed
    rcases hnamed with rfl | rfl | rfl | rfl | rfl | rfl | rfl <;>
      simp [escapeChar, scanText, namedEscape]
  · rw [escapeChar_of_unnamed c hnamed]
    split
    · next hcontrol => exact scanText_controlEscape done c hcontrol rest
    · next hcontrol =>
      have hquote : c ≠ '"' := by rintro rfl; exact hnamed (by decide)
      have hslash : c ≠ '\\' := by rintro rfl; exact hnamed (by decide)
      rw [List.singleton_append, scanText]
      · rw [if_neg hcontrol]
        rfl
      · exact hquote
      · intro _ _ _ _ _ h
        exact absurd h hslash
      · intro _ _ h
        exact absurd h hslash

theorem scanText_escaped (done cs rest : List Char) :
    scanText (some done) (cs.flatMap escapeChar ++ '"' :: rest) =
      some (some (String.ofList (done.reverse ++ cs)), rest) := by
  induction cs generalizing done with
  | nil =>
    rw [List.flatMap_nil, List.nil_append, scanText, List.append_nil]
    rfl
  | cons c cs ih =>
    rw [List.flatMap_cons, List.append_assoc, scanText_escapeChar, ih, List.reverse_cons,
      List.append_assoc]
    rfl

/-! ## Words -/

namespace Token

theorem Word.punctuation {c : Char} {t : Token} (hspace : isSpace c = false)
    (hscan : ∀ rest, scanOne (c :: rest) = some (t, rest)) : Word [c] t :=
  ⟨hscan, c, [], rfl, hspace⟩

theorem word_null : Word ['n', 'u', 'l', 'l'] .null := ⟨fun _ => rfl, 'n', _, rfl, rfl⟩

theorem word_bool (b : Bool) : Word (toString b).toList (.bool b) := by
  cases b with
  | true => exact ⟨fun _ => rfl, 't', _, rfl, rfl⟩
  | false => exact ⟨fun _ => rfl, 'f', _, rfl, rfl⟩

theorem word_quote (s : String) : Word (quote s) (.text (some s)) := by
  refine ⟨fun rest => ?_, '"', _, rfl, rfl⟩
  have hscan := scanText_escaped [] s.toList rest
  rw [List.reverse_nil, List.nil_append, String.ofList_toList] at hscan
  have happend : quote s ++ rest = '"' :: (s.toList.flatMap escapeChar ++ '"' :: rest) := by
    simp [quote]
  rw [happend, scanOne, hscan]
  rfl

end Token

/-! ## Spelled texts -/

namespace Spelled

theorem append {as bs : List Char} {ts us : List Token} (ha : Spelled as ts) (hb : Spelled bs us) :
    Spelled (as ++ bs) (ts ++ us) := by
  induction ha with
  | nil => exact hb
  | space hc _ ih => exact .space hc ih
  | word hw _ ih =>
    rw [List.append_assoc]
    exact .word hw ih

theorem ofWord {cs : List Char} {t : Token} (h : Word cs t) : Spelled cs [t] := by
  have hspelled := Spelled.word h .nil
  rwa [List.append_nil] at hspelled

theorem newline (level : Nat) : Spelled (Value.newline level) [] := by
  have hblanks : ∀ n, Spelled (List.replicate n ' ') [] := by
    intro n
    induction n with
    | zero => exact .nil
    | succ n ih => exact .space rfl ih
  exact .space rfl (hblanks _)

/-- A spelled text is cut into what it spells. -/
theorem scanAll {cs : List Char} {ts : List Token} (h : Spelled cs ts) (fuel : Nat)
    (hfuel : cs.length < fuel) : Token.scanAll fuel cs = some ts := by
  induction h generalizing fuel with
  | nil =>
    obtain ⟨n, rfl⟩ := Nat.exists_eq_succ_of_ne_zero (Nat.ne_zero_of_lt hfuel)
    rfl
  | @space c cs ts hc _ ih =>
    obtain ⟨n, rfl⟩ := Nat.exists_eq_succ_of_ne_zero (Nat.ne_zero_of_lt hfuel)
    have hrest := ih (n + 1) (by rw [List.length_cons] at hfuel; omega)
    rw [Token.scanAll] at hrest ⊢
    rwa [List.dropWhile_cons_of_pos hc]
  | @word cs rest t ts hw _ ih =>
    obtain ⟨n, rfl⟩ := Nat.exists_eq_succ_of_ne_zero (Nat.ne_zero_of_lt hfuel)
    obtain ⟨c, cs', rfl, hc⟩ := hw.head
    have hrest := ih n (by simp at hfuel; omega)
    have hscan := hw.scanned rest
    rw [List.cons_append] at hscan ⊢
    rw [Token.scanAll, List.dropWhile_cons_of_neg (by simp [hc])]
    simp only [hscan, hrest, Option.map_some]

theorem scan {cs : List Char} {ts : List Token} (h : Spelled cs ts) : Token.scan cs = some ts :=
  h.scanAll _ (Nat.lt_succ_self _)

end Spelled

/-! ## Layout -/

namespace Value

theorem Plain.list {α : Type} {g : α → Value} (l : List α) (h : ∀ a ∈ l, (g a).Plain) :
    (Value.array (l.map g)).Plain := by
  refine .array fun v hv => ?_
  obtain ⟨a, ha, rfl⟩ := List.mem_map.mp hv
  exact h a ha

theorem Plain.record {members : List (String × Value)} (h : ∀ m ∈ members, m.2.Plain) :
    (record members).Plain := by
  refine .object (fun m hm => ?_) fun m hm => ?_
  · obtain ⟨m', -, rfl⟩ := List.mem_map.mp hm
    rfl
  · obtain ⟨m', hm', rfl⟩ := List.mem_map.mp hm
    exact h m' hm'

theorem spelled_text (s : Option String) (h : s.isSome = true) :
    Spelled (quoteText s) [.text s] := by
  obtain ⟨s, rfl⟩ := Option.isSome_iff_exists.mp h
  exact .ofWord (word_quote s)

theorem spelled_comma : Spelled [','] [.comma] := .ofWord (.punctuation rfl fun _ => rfl)

theorem spelled_items (items : List Value)
    (h : ∀ v ∈ items, ∀ level, Spelled (prettyChars level v) v.tokens) (level : Nat) :
    Spelled (prettyItems level items) (itemTokens items) := by
  induction items with
  | nil => exact .nil
  | cons v rest ih =>
    have hv := (Spelled.newline level).append (h v List.mem_cons_self level)
    cases rest with
    | nil => exact hv
    | cons u rest =>
      have hrest := ih fun x hx => h x (List.mem_cons_of_mem _ hx)
      have hall := (hv.append spelled_comma).append hrest
      simpa [prettyItems, itemTokens] using hall

theorem spelled_member (name : Option String) (v : Value) (level : Nat)
    (hname : name.isSome = true) (hv : Spelled (prettyChars level v) v.tokens) :
    Spelled (Value.newline level ++ quoteText name ++ [':', ' '] ++ prettyChars level v)
      (.text name :: .colon :: v.tokens) := by
  have hword : Word [':'] .colon := .punctuation rfl fun _ => rfl
  have hcolon : Spelled [':', ' '] [.colon] := .word hword (.space rfl .nil)
  have hhead := (Spelled.newline level).append (spelled_text name hname)
  exact (hhead.append hcolon).append hv

theorem spelled_members (members : List (Option String × Value))
    (hnames : ∀ m ∈ members, m.1.isSome = true)
    (h : ∀ m ∈ members, ∀ level, Spelled (prettyChars level m.2) m.2.tokens) (level : Nat) :
    Spelled (prettyMembers level members) (memberTokens members) := by
  induction members with
  | nil => exact .nil
  | cons m rest ih =>
    obtain ⟨name, v⟩ := m
    have hm := spelled_member name v level (hnames _ List.mem_cons_self)
      (h _ List.mem_cons_self level)
    cases rest with
    | nil => exact hm
    | cons m' rest =>
      have hrest := ih (fun x hx => hnames x (List.mem_cons_of_mem _ hx))
        fun x hx => h x (List.mem_cons_of_mem _ hx)
      have hall := (hm.append spelled_comma).append hrest
      simpa [prettyMembers, memberTokens] using hall

/-- What a plain value is written as spells its tokens. -/
theorem Plain.spelled {v : Value} (h : v.Plain) (level : Nat) :
    Spelled (prettyChars level v) v.tokens := by
  induction h generalizing level with
  | null => exact .ofWord word_null
  | bool b => exact .ofWord (word_bool b)
  | text s => exact .ofWord (word_quote s)
  | @array items _ ih =>
    have hopen : Spelled ['['] [.openBracket] := .ofWord (.punctuation rfl fun _ => rfl)
    have hclose : Spelled [']'] [.closeBracket] := .ofWord (.punctuation rfl fun _ => rfl)
    cases items with
    | nil => exact hopen.append hclose
    | cons v rest =>
      have hitems := (spelled_items (v :: rest) ih (level + 1)).append (.newline level)
      simpa [prettyChars, tokens] using (hopen.append hitems).append hclose
  | @object members hnames _ ih =>
    have hopen : Spelled ['{'] [.openBrace] := .ofWord (.punctuation rfl fun _ => rfl)
    have hclose : Spelled ['}'] [.closeBrace] := .ofWord (.punctuation rfl fun _ => rfl)
    cases members with
    | nil => exact hopen.append hclose
    | cons m rest =>
      have hmembers := (spelled_members (m :: rest) hnames ih (level + 1)).append (.newline level)
      simpa [prettyChars, tokens] using (hopen.append hmembers).append hclose

end Value

end SuiteSearch.Json
