import SuiteSearch.Error
import SuiteSearch.Proofs.Random.Outcome

/-!
# Steps that may fail

A step works on a state. It gives a value or fails, and leaves a state either way, unless some fault
stops it.

    Keeps I stop b Q       b keeps I, every value that it gives has Q, every fault has stop
    Ended stop fail done   what a step that is stopped, fails, or gives a value comes with
    Keeps.bind             one step after the other
    bind_congr             what follows a step matters only for what the step may leave
-/

namespace SuiteSearch

/-- A step on a state, which may fail or be stopped. -/
abbrev Step (σ α : Type) := ExceptT Error (StateT σ (Except Fault)) α

/-- What follows a step works on the state that the step leaves, unless the step failed. -/
theorem step_bind {σ α β : Type} (b : Step σ α) (k : α → Step σ β) (s : σ) :
    (b >>= k) s = match b s with
      | .error f => .error f
      | .ok (.ok a, s') => k a s'
      | .ok (.error e, s') => .ok (.error e, s') := by
  show ExceptT.bind b k s = _
  simp only [ExceptT.bind, ExceptT.mk, bind, StateT.bind, Except.bind]
  cases b s with
  | error f => rfl
  | ok x =>
    obtain ⟨r, s'⟩ := x
    cases r <;> rfl

namespace Step

variable {σ ω α β : Type} {I : σ → Prop} {stop : Fault → Prop}

theorem get_bind (k : σ → Step σ α) (s : σ) : (MonadState.get >>= k) s = k s s :=
  rfl

/-! ## Invariants -/

/-- What is given has a property and the state an invariant, or some fault stopped the step. -/
def Kept (I : σ → Prop) (stop : Fault → Prop) (Q : α → Prop) :
    Except Fault (Except Error α × σ) → Prop
  | .error f => stop f
  | .ok (r, s) => I s ∧ ∀ a, r = .ok a → Q a

/-- Keeps an invariant; what is given has a property, and only some faults stop the step. -/
def Keeps (I : σ → Prop) (stop : Fault → Prop) (b : Step σ α) (Q : α → Prop) : Prop :=
  ∀ s, I s → Kept I stop Q (b s)

/-- The same invariant in other words. -/
theorem Keeps.congr {J : σ → Prop} {b : Step σ α} {Q : α → Prop}
    (h : b.Keeps I stop Q) (hJ : ∀ s, J s ↔ I s) : b.Keeps J stop Q := by
  intro s hs
  have hx := h s ((hJ s).mp hs)
  generalize b s = x at hx ⊢
  cases x with
  | error f => exact hx
  | ok x => exact ⟨(hJ x.2).mpr hx.1, hx.2⟩

theorem Keeps.pure {a : α} {Q : α → Prop} (h : Q a) : Keeps I stop (Pure.pure a) Q := by
  intro s hs
  refine ⟨hs, ?_⟩
  rintro _ ⟨⟩
  exact h

/-- What one step and then another come to is what the second comes to, unless the first is stopped
or fails. -/
theorem Keeps.leads {b : Step σ α} {k : α → Step σ β} {P : α → Prop}
    {R : Except Fault (Except Error β × σ) → Prop} (hb : b.Keeps I stop P)
    (hstop : ∀ f, stop f → R (.error f)) (hfail : ∀ e s', I s' → R (.ok (.error e, s')))
    (hk : ∀ a s', I s' → P a → R (k a s')) (s : σ) (hs : I s) : R ((b >>= k) s) := by
  have hx := hb s hs
  rw [step_bind]
  generalize b s = x at hx ⊢
  cases x with
  | error f => exact hstop f hx
  | ok y =>
    obtain ⟨r, s'⟩ := y
    obtain ⟨hs', hr⟩ := hx
    cases r with
    | error e => exact hfail e s' hs'
    | ok a => exact hk a s' hs' (hr a rfl)

theorem Keeps.bind {b : Step σ α} {k : α → Step σ β} {P : α → Prop} {Q : β → Prop}
    (hb : b.Keeps I stop P) (hk : ∀ a, P a → (k a).Keeps I stop Q) :
    Keeps I stop (b >>= k) Q := by
  intro s hs
  refine hb.leads (R := Kept I stop Q) (fun _ hf => hf) ?_ (fun a s' hs' ha => hk a ha s' hs') s hs
  intro e s' hs'
  refine ⟨hs', ?_⟩
  intro a ha
  cases ha

/-! ## Elementary steps -/

/-- What follows works on the state that is read. -/
theorem Keeps.get {k : σ → Step σ α} {Q : α → Prop}
    (h : ∀ s, I s → (k s).Keeps I stop Q) : Keeps I stop (MonadState.get >>= k) Q :=
  fun s hs => h s hs s hs

theorem Keeps.set {s : σ} (h : I s) :
    Keeps I stop (MonadStateOf.set s : Step σ PUnit) fun _ => True :=
  fun _ _ => ⟨h, fun _ _ => True.intro⟩

theorem Keeps.change {f : σ → σ} (h : ∀ s, I s → I (f s)) :
    Keeps I stop (modify f : Step σ PUnit) fun _ => True :=
  fun s hs => ⟨h s hs, fun _ _ => True.intro⟩

theorem Keeps.fail {e : Error} {Q : α → Prop} : Keeps I stop (throw e : Step σ α) Q := by
  intro s hs
  refine ⟨hs, ?_⟩
  intro a ha
  cases ha

theorem Keeps.halt {f : Fault} {Q : α → Prop} (h : stop f) :
    Keeps I stop (throwThe Fault f : Step σ α) Q :=
  fun _ _ => h

/-- An act touches the world only. -/
theorem Keeps.act {a : Act ω α} {Q : α → Prop} (world : σ → ω) (move : σ → ω → σ)
    (hmove : ∀ s w, I s → I (move s w)) (h : a.Yields stop Q) :
    Keeps I stop (fun s => (a (world s)).map fun x => (.ok x.1, move s x.2) : Step σ α) Q := by
  intro s hs
  have ha := h (world s)
  dsimp only
  generalize a (world s) = x at ha ⊢
  cases x with
  | error f => exact ha
  | ok x =>
    refine ⟨hmove s x.2 hs, ?_⟩
    rintro _ ⟨⟩
    exact ha

/-- A failure is handed over. -/
theorem Keeps.attempt {b : Step σ α} {Q : α → Prop} (h : b.Keeps I stop Q) :
    Keeps I stop (fun s => (b s).map fun x => (.ok x.1, x.2) : Step σ (Except Error α))
      fun r => ∀ a, r = .ok a → Q a := by
  intro s hs
  have hx := h s hs
  dsimp only
  generalize b s = x at hx ⊢
  cases x with
  | error f => exact hx
  | ok x =>
    obtain ⟨hs', hr⟩ := hx
    refine ⟨hs', ?_⟩
    rintro _ ⟨⟩
    exact hr

/-! ## Ends of steps -/

/-- A step is stopped by a fault, fails, or gives a value, and each of these has a property of what
it comes with. -/
def Ended (stop : Fault → Prop) (fail : Error → σ → Prop) (done : α → σ → Prop) :
    Except Fault (Except Error α × σ) → Prop
  | .error f => stop f
  | .ok (.error e, s) => fail e s
  | .ok (.ok a, s) => done a s

variable {fail fail' : Error → σ → Prop} {stop' : Fault → Prop}

theorem Ended.mono {done done' : α → σ → Prop}
    {x : Except Fault (Except Error α × σ)} (h : Ended stop fail done x)
    (hstop : ∀ f, stop f → stop' f) (hfail : ∀ e s, fail e s → fail' e s)
    (hdone : ∀ a s, done a s → done' a s) : Ended stop' fail' done' x := by
  rcases x with f | ⟨e | a, s⟩
  · exact hstop f h
  · exact hfail e s h
  · exact hdone a s h

/-- A step that never fails has any property asked of its failures. -/
theorem Ended.never {done : α → σ → Prop} {x : Except Fault (Except Error α × σ)}
    (h : Ended stop (fun _ _ => False) done x) : Ended stop fail done x :=
  h.mono (fun _ hf => hf) (fun _ _ hfail => hfail.elim) fun _ _ hx => hx

theorem Ended.bind {b : Step σ α} {k : α → Step σ β} {mid : α → σ → Prop}
    {done : β → σ → Prop} {s : σ} (h : Ended stop fail mid (b s))
    (hk : ∀ a s', mid a s' → Ended stop fail done (k a s')) :
    Ended stop fail done ((b >>= k) s) := by
  rw [step_bind]
  generalize b s = x at h ⊢
  rcases x with f | ⟨e | a, s'⟩
  · exact h
  · exact h
  · exact hk a s' h

/-- A step that does not fail has nothing to hand over but its value. -/
theorem Ended.attempt {b : Step σ α} {done : α → σ → Prop} {s : σ}
    (h : Ended stop (fun _ _ => False) done (b s)) :
    Ended stop fail (fun r s' => ∃ a, r = .ok a ∧ done a s')
      ((b s).map fun x => (.ok x.1, x.2)) := by
  generalize b s = x at h ⊢
  rcases x with f | ⟨e | a, s'⟩
  · exact h
  · exact h.elim
  · exact ⟨a, rfl, h⟩

/-- What is known of a value that was given. -/
theorem Ended.gave {done : α → σ → Prop} {x : Except Fault (Except Error α × σ)}
    (h : Ended stop fail done x) {f : α → β} {b : β}
    (hx : (x.toOption.bind fun y => y.1.toOption.map f) = some b) :
    ∃ a s, x = .ok (.ok a, s) ∧ f a = b ∧ done a s := by
  rcases x with e | ⟨e | a, s⟩
  · cases hx
  · cases hx
  · exact ⟨a, s, rfl, Option.some.inj hx, h⟩

/-- After a step that is the same, steps that agree on all that it leaves come to the same. -/
theorem bind_congr {b : Step σ α} {k l : α → Step σ β} {mid : α → σ → Prop}
    {s : σ} (h : Ended stop fail mid (b s)) (hk : ∀ a s', mid a s' → k a s' = l a s') :
    (b >>= k) s = (b >>= l) s := by
  rw [step_bind, step_bind]
  generalize b s = x at h ⊢
  rcases x with f | ⟨e | a, s'⟩
  · rfl
  · rfl
  · exact hk a s' h

end Step

end SuiteSearch
