import SuiteSearch.Proofs.Generation.Discipline
import SuiteSearch.Proofs.Random.Steps

/-!
# Building at a cursor

What a building step comes to.  A step that ends, with or without an error, has put a block of
statements in at the cursor and has touched nothing else of the program; a step that is stopped was
stopped by a bad probability or by a program of too many statements.

    Meets D reuse n before b Q       from the statements `before` the cursor, `b` puts in at most
                                     `n` statements that keep to `D`, and what it gives meets `Q`
    bind                             blocks one after the other
    recover                          what a failed step put in is taken back
-/

namespace SuiteSearch

/-! ## Algorithm -/

namespace Draft

variable {ω : Type}

/-- The statements before the cursor. -/
def before (d : Draft ω) : List Statement := d.program.statements.take d.cursor

/-- The draft after a block of statements is put in at the cursor. -/
def extend (d : Draft ω) (new : List Statement) (w : ω) : Draft ω :=
  ⟨d.program.splice d.cursor new, d.cursor + new.length, w⟩

structure Sound (d : Draft ω) : Prop where
  program : d.program.Sound
  cursor : d.cursor ≤ d.program.length

end Draft

/-- What may stop the building of a program of at most `size` statements. -/
def Stopped (reuse : Float) (size : Nat) : Fault → Prop
  | .positionOverflow => Program.lastPosition < size
  | .noProbability => Chance.ofFloat? reuse = .error .noProbability
  | .malformedProgram | .archiveNotEmpty => False

/-- What a run from a draft comes to: it is stopped, or it has put a block of statements in at the
cursor, whether it failed or gave a value. -/
inductive Build.Outcome {c : Cluster} {ω α : Type} (D : Discipline c) (reuse : Float) (n : Nat)
    (d : Draft ω) (Q : List Statement → α → Prop) : Except Fault (Except Error α × Draft ω) → Prop
  | stopped (f : Fault) : Stopped reuse (d.program.length + n) f → Outcome D reuse n d Q (.error f)
  | failed (e : Error) (new : List Statement) (w : ω) : new.length ≤ n → D.Block d.before new →
      Outcome D reuse n d Q (.ok (.error e, d.extend new w))
  | gave (a : α) (new : List Statement) (w : ω) : new.length ≤ n → D.Block d.before new →
      Q (d.before ++ new) a → Outcome D reuse n d Q (.ok (.ok a, d.extend new w))

/-- What a building step comes to, from the statements before the cursor. -/
def Build.Meets {c : Cluster} {ω α : Type} (D : Discipline c) (reuse : Float) (n : Nat)
    (before : List Statement) (b : Build ω α) (Q : List Statement → α → Prop) : Prop :=
  ∀ d : Draft ω, d.Sound → d.before = before → Outcome D reuse n d Q (b d)

/-! ## Drafts -/

theorem Stopped.mono {reuse : Float} {m n : Nat} {f : Fault} (h : Stopped reuse m f)
    (hmn : m ≤ n) : Stopped reuse n f := by
  cases f with
  | positionOverflow => exact Nat.lt_of_lt_of_le h hmn
  | noProbability => exact h
  | malformedProgram => exact h
  | archiveNotEmpty => exact h

namespace Draft

variable {c : Cluster} {ω : Type} {d : Draft ω}

theorem Sound.length_before (hd : d.Sound) : d.before.length = d.cursor :=
  Program.length_take d.program.statements d.cursor hd.cursor

theorem Sound.length_extend (hd : d.Sound) (new : List Statement) (w : ω) :
    (d.extend new w).program.length = d.program.length + new.length :=
  Program.length_spliced d.program.statements d.cursor new hd.cursor

theorem Sound.before_extend (hd : d.Sound) (new : List Statement) (w : ω) :
    (d.extend new w).before = d.before ++ new := by
  have h := Program.take_spliced d.program.statements d.cursor new hd.cursor new.length
    (Nat.le_refl _)
  rw [List.take_length] at h
  exact h

theorem Sound.extend_extend (hd : d.Sound) (new more : List Statement) (w w' : ω) :
    (d.extend new w).extend more w' = d.extend (new ++ more) w' := by
  have h := Program.spliced_spliced d.program.statements d.cursor new hd.cursor more
  simp only [extend, Program.splice, h, List.length_append, Nat.add_assoc]

/-- Putting nothing in only changes the world. -/
theorem Sound.extend_nil (hd : d.Sound) (w : ω) : d.extend [] w = { d with world := w } := by
  have h := Program.spliced_nil d.program.statements d.cursor (hd.program.plain d.cursor)
  simp only [extend, Program.splice, h, List.length_nil, Nat.add_zero]

theorem Sound.extend (hd : d.Sound) {D : Discipline c} {new : List Statement}
    (hnew : D.Block d.before new) (w : ω) : (d.extend new w).Sound := by
  have hplace : Program.Placeable d.cursor new := by
    rw [← hd.length_before]
    exact hnew.placeable
  refine ⟨hd.program.splice d.cursor new hd.cursor hplace, ?_⟩
  have hcursor := hd.cursor
  rw [hd.length_extend]
  show d.cursor + new.length ≤ d.program.length + new.length
  omega

end Draft

/-! ## Taking back -/

namespace Build

/-- Removing a block statement by statement takes it back. -/
theorem removeMany_splice (p : Program) (start : Nat) (hstart : start ≤ p.length)
    (hplain : ∀ s ∈ p.statements.drop start, ∀ r, s.Mentions r → r.Plain) (n : Nat) :
    ∀ new : List Statement, new.length = n → removeMany start n (p.splice start new) = p := by
  induction n with
  | zero =>
    intro new hn
    rw [List.eq_nil_of_length_eq_zero hn]
    exact p.splice_nil start hplain
  | succ n ih =>
    intro new hn
    cases new with
    | nil => cases hn
    | cons s rest =>
      rw [removeMany, p.remove_splice_cons start hstart s rest]
      refine ih _ ?_
      rw [List.length_map]
      exact Nat.succ.inj hn

variable {c : Cluster} {ω α β : Type} {D : Discipline c} {reuse : Float} {m n : Nat}
  {before : List Statement} {Q : List Statement → α → Prop} {Q' : List Statement → β → Prop}

theorem rollback_extend {d : Draft ω} (hd : d.Sound) (new : List Statement) (w : ω) :
    rollback d.cursor (d.extend new w) = .ok (.ok (), d.extend [] w) := by
  have h := removeMany_splice d.program d.cursor hd.cursor (hd.program.plain d.cursor) new.length
    new rfl
  have hlen : (d.extend new w).cursor - d.cursor = new.length := by
    show d.cursor + new.length - d.cursor = new.length
    omega
  rw [hd.extend_nil, rollback, hlen]
  simp only [Draft.extend, h]

/-! ## Steps one after the other -/

/-- A step that puts nothing in. -/
theorem Outcome.nothing {d : Draft ω} (hd : d.Sound) {r : Except Error α} (w : ω)
    (h : ∀ a, r = .ok a → Q d.before a) :
    Outcome D reuse n d Q (.ok (r, { d with world := w })) := by
  rw [← hd.extend_nil w]
  cases r with
  | error e => exact .failed e [] w (Nat.zero_le n) (D.block_nil _)
  | ok a =>
    refine .gave a [] w (Nat.zero_le n) (D.block_nil _) ?_
    rw [List.append_nil]
    exact h a rfl

/-- What follows a block comes to the block with what follows. -/
theorem Outcome.after {d : Draft ω} (hd : d.Sound) {new : List Statement} {w : ω}
    {x : Except Fault (Except Error α × Draft ω)} (hlen : new.length ≤ m)
    (hnew : D.Block d.before new) (h : Outcome D reuse n (d.extend new w) Q x) :
    Outcome D reuse (m + n) d Q x := by
  have hprogram := hd.length_extend new w
  have hbefore := hd.before_extend new w
  cases h with
  | stopped f hf => exact .stopped f (hf.mono (by omega))
  | failed e more w' hlen' hmore =>
    rw [hbefore] at hmore
    rw [hd.extend_extend]
    refine .failed e (new ++ more) w' ?_ (hnew.append hmore)
    rw [List.length_append]
    omega
  | gave a more w' hlen' hmore hpost =>
    rw [hbefore] at hmore hpost
    rw [hd.extend_extend]
    refine .gave a (new ++ more) w' ?_ (hnew.append hmore) ?_
    · rw [List.length_append]
      omega
    · rwa [← List.append_assoc]

theorem Meets.pure {a : α} (h : Q before a) :
    Meets D reuse n before (Pure.pure a : Build ω α) Q := by
  rintro d hd rfl
  refine Outcome.nothing hd d.world ?_
  rintro a' ⟨⟩
  exact h

theorem Meets.throw (e : Error) :
    Meets D reuse n before (MonadExcept.throw e : Build ω α) Q := by
  rintro d hd rfl
  refine Outcome.nothing hd d.world ?_
  rintro a ⟨⟩

theorem Meets.mono {b : Build ω α} (h : Meets D reuse m before b Q) (hmn : m ≤ n) :
    Meets D reuse n before b Q := by
  intro d hd hbefore
  have hrun := h d hd hbefore
  generalize b d = x at hrun ⊢
  cases hrun with
  | stopped f hf => exact .stopped f (hf.mono (by omega))
  | failed e new w hlen hnew => exact .failed e new w (by omega) hnew
  | gave a new w hlen hnew hpost => exact .gave a new w (by omega) hnew hpost

theorem Meets.imp {b : Build ω α} {Q' : List Statement → α → Prop}
    (h : Meets D reuse n before b Q) (himp : ∀ l a, Q l a → Q' l a) :
    Meets D reuse n before b Q' := by
  intro d hd hbefore
  have hrun := h d hd hbefore
  generalize b d = x at hrun ⊢
  cases hrun with
  | stopped f hf => exact .stopped f hf
  | failed e new w hlen hnew => exact .failed e new w hlen hnew
  | gave a new w hlen hnew hpost => exact .gave a new w hlen hnew (himp _ a hpost)

theorem Meets.bind {b : Build ω α} {k : α → Build ω β} (hb : Meets D reuse m before b Q)
    (hk : ∀ new a, D.Block before new → Q (before ++ new) a →
      Meets D reuse n (before ++ new) (k a) Q') :
    Meets D reuse (m + n) before (b >>= k) Q' := by
  rintro d hd rfl
  have hrun := hb d hd rfl
  rw [step_bind]
  generalize b d = x at hrun ⊢
  cases hrun with
  | stopped f hf => exact .stopped f (hf.mono (by omega))
  | failed e new w hlen hnew => exact .failed e new w (by omega) hnew
  | gave a new w hlen hnew hpost =>
    exact .after hd hlen hnew
      (hk new a hnew hpost (d.extend new w) (hd.extend hnew w) (hd.before_extend new w))

/-- After a failure, what was put in since the mark is taken back, unless the failure goes on. -/
theorem Meets.recover {b : Build ω α} {k : Nat → Except Error α → Build ω β} (other : Build ω β)
    (hb : Meets D reuse m before b Q)
    (hok : ∀ new a, D.Block before new → Q (before ++ new) a →
      Meets D reuse n (before ++ new) (k before.length (.ok a)) Q')
    (herror : ∀ e, k before.length (.error e) = (rollback before.length >>= fun _ => other) ∨
      ∃ e', k before.length (.error e) = MonadExcept.throw e')
    (hother : Meets D reuse n before other Q') :
    Meets D reuse (m + n) before (cursor >>= fun mark => attempt b >>= k mark) Q' := by
  rintro d hd rfl
  have hrun := hb d hd rfl
  rw [step_bind]
  show Outcome D reuse (m + n) d Q' ((attempt b >>= k d.cursor) d)
  rw [step_bind, attempt]
  rw [hd.length_before] at hok herror
  generalize b d = x at hrun ⊢
  cases hrun with
  | stopped f hf => exact .stopped f (hf.mono (by omega))
  | failed e new w hlen hnew =>
    show Outcome D reuse (m + n) d Q' (k d.cursor (.error e) (d.extend new w))
    rcases herror e with hk | ⟨e', hk⟩
    · rw [hk, step_bind, rollback_extend hd]
      have hnothing : D.Block d.before [] := D.block_nil d.before
      have hlength : ([] : List Statement).length ≤ m := Nat.zero_le m
      refine .after hd hlength hnothing (hother _ (hd.extend hnothing w) ?_)
      rw [hd.before_extend, List.append_nil]
    · rw [hk]
      exact .failed e' new w (by omega) hnew
  | gave a new w hlen hnew hpost =>
    exact .after hd hlen hnew
      (hok new a hnew hpost (d.extend new w) (hd.extend hnew w) (hd.before_extend new w))

/-! ## Elementary steps -/

theorem Meets.act {a : Act ω α}
    (herror : ∀ w f, a w = .error f → ∀ size, Stopped reuse size f)
    (hok : ∀ w w' r, a w = .ok (r, w') → Q before r) :
    Meets D reuse n before (Build.act a) Q := by
  rintro d hd rfl
  unfold Build.act
  cases ha : a d.world with
  | error f => exact .stopped f (herror _ f ha _)
  | ok x =>
    obtain ⟨r, w⟩ := x
    refine Outcome.nothing hd w ?_
    rintro r' ⟨⟩
    exact hok _ w r ha

theorem Meets.draw (a : Draw ω α) (h : ∀ w, Q before (a w).1) :
    Meets D reuse n before (Build.draw a) Q := by
  refine Meets.act ?_ ?_
  · rintro w f ⟨⟩
  · intro w w' r hr
    have hr : (a w).1 = r := congrArg Prod.fst (Except.ok.inj hr)
    rw [← hr]
    exact h w

theorem Meets.choose [WordSource ω] (l : List α) :
    Meets D reuse n before (Build.draw (Draw.choose l) : Build ω (Option α))
      fun _ a => ∀ x, a = some x → x ∈ l :=
  Meets.draw _ fun w _ hx => Draw.mem_of_choose l w hx

/-- A statement that is in order goes in, unless it is not well formed at the cursor. -/
theorem Meets.place {Q : List Statement → Ref → Prop} (s : Statement) (hs : D.Good before s)
    (h : Q (before ++ [s]) (s.output before.length)) :
    Meets D reuse (n + 1) before (place s : Build ω Ref) Q := by
  rintro d hd rfl
  unfold Build.place
  rw [hd.length_before] at h
  cases hvalid : s.isValid d.cursor with
  | false =>
    rw [Program.insert_misplaced d.program s d.cursor hd.cursor hvalid]
    refine Outcome.nothing hd d.world ?_
    rintro r ⟨⟩
  | true =>
    rcases hd.program.insert s d.cursor hd.cursor hvalid hs.assertions with hins | ⟨hins, hlast⟩
    · rw [hins]
      refine .gave _ [s] d.world (by simp) ?_ h
      refine D.block_singleton d.before s ?_ hs
      rwa [hd.length_before]
    · rw [hins]
      refine .stopped _ ?_
      show Program.lastPosition < d.program.length + (n + 1)
      have : Program.lastPosition < d.program.length := hlast
      omega

end Build

end SuiteSearch
