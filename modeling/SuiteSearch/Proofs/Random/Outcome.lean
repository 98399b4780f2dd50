import SuiteSearch.Proofs.Random.Uniform

/-!
# What draws and acts come to

Properties of what is drawn, whatever the words are, and of what an act gives unless it is stopped.

    d.Gives Q              every value that d draws has Q
    a.Yields stop Q        every value that a gives has Q, every fault that stops it has stop
-/

namespace SuiteSearch

variable {ω α β : Type}

/-! ## Draws -/

namespace Draw

/-- One draw after the other, each from the world that the one before leaves. -/
theorem bind_apply (d : Draw ω α) (k : α → Draw ω β) (w : ω) :
    (d >>= k) w = k (d w).1 (d w).2 := rfl

/-- Every value that is drawn has the property. -/
def Gives (d : Draw ω α) (Q : α → Prop) : Prop := ∀ w, Q (d w).1

theorem Gives.pure {a : α} {Q : α → Prop} (h : Q a) : Gives (Pure.pure a : Draw ω α) Q :=
  fun _ => h

theorem Gives.bind {d : Draw ω α} {k : α → Draw ω β} {P : α → Prop} {Q : β → Prop}
    (hd : d.Gives P) (hk : ∀ a, P a → (k a).Gives Q) : Gives (d >>= k) Q :=
  fun w => hk (d w).1 (hd w) (d w).2

theorem Gives.mono {d : Draw ω α} {P Q : α → Prop} (h : d.Gives P) (hPQ : ∀ x, P x → Q x) :
    d.Gives Q := fun w => hPQ (d w).1 (h w)

theorem Gives.and {d : Draw ω α} {P Q : α → Prop} (h : d.Gives P) (h' : d.Gives Q) :
    d.Gives fun x => P x ∧ Q x := fun w => ⟨h w, h' w⟩

theorem Gives.any (d : Draw ω α) : d.Gives fun _ => True := fun _ => True.intro

section

variable [WordSource ω]

theorem Gives.choose (l : List α) :
    Gives (Draw.choose l : Draw ω (Option α)) fun a => ∀ x, a = some x → x ∈ l :=
  fun w _ hx => mem_of_choose l w hx

theorem Gives.below {n : Nat} (hn : 0 < n) : Gives (Draw.below n : Draw ω Nat) (· < n) :=
  below_lt n hn

theorem Gives.between {low high : Int} (h : low ≤ high) :
    Gives (Draw.between low high : Draw ω Int) fun n => low ≤ n ∧ n ≤ high := by
  refine (Gives.below (by omega)).bind fun x hx => .pure ?_
  omega

theorem Gives.letter :
    Gives (Draw.letter : Draw ω Char) fun c => ∃ x < 26, c = Char.ofNat (97 + x) := by
  intro w
  refine ⟨_, belowFrom_lt small 32 _ 26 (by decide) (fun w => ?_) redraws w, rfl⟩
  exact (WordSource.next32 w).1.toNat_lt

end

end Draw

/-! ## Acts -/

namespace Act

/-- Every value that is given has the property, and only some faults stop the act. -/
def Yields (a : Act ω α) (stop : Fault → Prop) (Q : α → Prop) : Prop :=
  ∀ w, match a w with
    | .error f => stop f
    | .ok (x, _) => Q x

variable {stop : Fault → Prop}

theorem Yields.pure {a : α} {Q : α → Prop} (h : Q a) : Yields (Pure.pure a : Act ω α) stop Q :=
  fun _ => h

theorem Yields.bind {a : Act ω α} {k : α → Act ω β} {P : α → Prop} {Q : β → Prop}
    (ha : Yields a stop P) (hk : ∀ x, P x → Yields (k x) stop Q) : Yields (a >>= k) stop Q := by
  intro w
  have hw := ha w
  show match (a w >>= fun x => k x.1 x.2) with
    | .error f => stop f
    | .ok (x, _) => Q x
  cases h : a w with
  | error f =>
    rw [h] at hw
    exact hw
  | ok x =>
    rw [h] at hw
    exact hk x.1 hw x.2

theorem Yields.draw {d : Draw ω α} {Q : α → Prop} (h : d.Gives Q) : Yields (Act.draw d) stop Q :=
  fun w => h w

theorem Yields.mono {a : Act ω α} {stop' : Fault → Prop} {P Q : α → Prop} (h : Yields a stop P)
    (hstop : ∀ f, stop f → stop' f) (hPQ : ∀ x, P x → Q x) : Yields a stop' Q := by
  intro w
  have hw := h w
  cases ha : a w with
  | error f =>
    rw [ha] at hw
    exact hstop f hw
  | ok x =>
    rw [ha] at hw
    exact hPQ x.1 hw

theorem Yields.and {a : Act ω α} {stop' : Fault → Prop} {P Q : α → Prop} (h : Yields a stop P)
    (h' : Yields a stop' Q) : Yields a (fun f => stop f ∧ stop' f) fun x => P x ∧ Q x := by
  intro w
  have hw := h w
  have hw' := h' w
  cases ha : a w with
  | error f =>
    rw [ha] at hw hw'
    exact ⟨hw, hw'⟩
  | ok x =>
    rw [ha] at hw hw'
    exact ⟨hw, hw'⟩

theorem Yields.of_ok {a : Act ω α} {Q : α → Prop} (h : Yields a stop Q) {w w' : ω} {x : α}
    (hx : a w = .ok (x, w')) : Q x := by
  have hw := h w
  rwa [hx] at hw

/-- Two acts give something only if the first one does, and the second one from there. -/
theorem of_bind {a : Act ω α} {k : α → Act ω β} {w w'' : ω} {y : β}
    (h : (a >>= k) w = .ok (y, w'')) : ∃ x w', a w = .ok (x, w') ∧ k x w' = .ok (y, w'') := by
  have h : (a w >>= fun x => k x.1 x.2) = .ok (y, w'') := h
  cases ha : a w with
  | error f =>
    rw [ha] at h
    cases h
  | ok x =>
    rw [ha] at h
    exact ⟨x.1, x.2, rfl, h⟩

theorem of_draw {d : Draw ω α} {w w' : ω} {x : α} (h : Act.draw d w = .ok (x, w')) :
    x = (d w).1 ∧ w' = (d w).2 := by
  have h : d w = (x, w') := Except.ok.inj h
  simp [h]

theorem of_map_fst {a : Act ω α} {w : ω} {x : α} (h : (a w).map (·.1) = .ok x) :
    ∃ w', a w = .ok (x, w') := by
  cases ha : a w with
  | error f =>
    rw [ha] at h
    cases h
  | ok y =>
    rw [ha] at h
    exact ⟨y.2, by rw [← Except.ok.inj h]⟩

theorem Yields.any (a : Act ω α) : Yields a (fun _ => True) fun _ => True := by
  intro w
  cases a w with
  | error f => exact True.intro
  | ok x => exact True.intro

end Act

end SuiteSearch
