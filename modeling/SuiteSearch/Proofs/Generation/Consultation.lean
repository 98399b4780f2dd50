import SuiteSearch.Proofs.Generation.Selection

/-!
# Consulting a text service

A record is kept of what goes on while a value is chosen: what was asked and answered, the pauses,
the lines that are logged, and the words that are drawn.  It shows that a failure of the service is
never handed on.  The candidate that the first usable reply names is chosen, and after as many
useless replies as there are attempts one is drawn.

    Mirrors P d d'      d does what d' does, and adds incidents with P to the record
    judged l reply      the candidate that a reply names, or why it names none
    Course              how attempts go, from one on, and what comes of them
    Consultation        how a guided choice goes once there are candidates
    Consulted           all that a guided choice does in a world
    guided_consults     it does so however the service answers and fails
-/

namespace SuiteSearch

variable {ω α β : Type}

/-! ## Records -/

/-- What goes on while a value is chosen. -/
inductive Incident
  | asked (prompt : String) (reply : Except OracleError String)
  | paused (d : Duration)
  | logged (line : LogLine)
  /-- A word was drawn. -/
  | drew

/-- Whether something was asked. -/
def Incident.isAsked : Incident → Bool
  | .asked _ _ => true
  | .paused _ | .logged _ | .drew => false

/-- A world, with what went on in it. -/
structure Recorded (ω : Type) where
  world : ω
  incidents : List Incident

namespace Recorded

/-- What is done to the world, with an incident that is added to the record. -/
def keep (d : StateM ω α) (incident : α → Incident) : StateM (Recorded ω) α := fun s =>
  ((d s.world).1, ⟨(d s.world).2, s.incidents ++ [incident (d s.world).1]⟩)

instance [WordSource ω] : WordSource (Recorded ω) where
  next32 := keep WordSource.next32 fun _ => .drew
  next64 := keep WordSource.next64 fun _ => .drew

/-- Does to the world what another one does, and adds incidents of a kind to the record. -/
def Mirrors (P : Incident → Prop) (d : StateM (Recorded ω) α) (d' : StateM ω α) : Prop :=
  ∀ s, ∃ new, (∀ x ∈ new, P x) ∧
    d s = ((d' s.world).1, ⟨(d' s.world).2, s.incidents ++ new⟩)

end Recorded

/-- The service, with a record of what is asked of it and goes on around it. -/
def TextService.recorded (service : TextService ω) : TextService (Recorded ω) where
  query prompt := Recorded.keep (service.query prompt) (.asked prompt)
  hooks := {
    pause := fun d => Recorded.keep (service.hooks.pause d) fun _ => .paused d
    log := fun line => Recorded.keep (service.hooks.log line) fun _ => .logged line }

namespace Recorded

variable {P : Incident → Prop}

theorem Mirrors.pure (a : α) :
    Mirrors P (Pure.pure a : StateM (Recorded ω) α) (Pure.pure a : StateM ω α) :=
  fun s => ⟨[], nofun, by rw [List.append_nil]; rfl⟩

theorem Mirrors.bind {d : StateM (Recorded ω) α} {d' : StateM ω α}
    {k : α → StateM (Recorded ω) β} {k' : α → StateM ω β} (hd : Mirrors P d d')
    (hk : ∀ a, Mirrors P (k a) (k' a)) : Mirrors P (d >>= k) (d' >>= k') := by
  intro s
  obtain ⟨new, hnew, hs⟩ := hd s
  obtain ⟨more, hmore, hs'⟩ := hk (d' s.world).1 ⟨(d' s.world).2, s.incidents ++ new⟩
  refine ⟨new ++ more, fun x hx => (List.mem_append.mp hx).elim (hnew x) (hmore x), ?_⟩
  rw [Draw.bind_apply, Draw.bind_apply, hs, hs', List.append_assoc]

theorem Mirrors.mono {Q : Incident → Prop} {d : StateM (Recorded ω) α} {d' : StateM ω α}
    (h : Mirrors P d d') (hPQ : ∀ x, P x → Q x) : Mirrors Q d d' := by
  intro s
  obtain ⟨new, hnew, hs⟩ := h s
  exact ⟨new, fun x hx => hPQ x (hnew x hx), hs⟩

theorem mirrors_keep (d : StateM ω α) (incident : α → Incident) (h : ∀ a, P (incident a)) :
    Mirrors P (keep d incident) d :=
  fun _ => ⟨[_], fun _ hx => List.mem_singleton.mp hx ▸ h _, rfl⟩

theorem mirrors_belowFrom {word : Draw (Recorded ω) Nat} {word' : Draw ω Nat}
    (h : Mirrors P word word') (bits zone n fuel : Nat) :
    Mirrors P (Draw.belowFrom word bits zone n fuel) (Draw.belowFrom word' bits zone n fuel) := by
  induction fuel with
  | zero => exact h.bind fun x => .pure _
  | succ fuel ih =>
    refine h.bind fun x => ?_
    split
    · exact .pure _
    · exact ih

section
variable [WordSource ω]

theorem mirrors_small : Mirrors (· = .drew) (Draw.small : Draw (Recorded ω) Nat) Draw.small :=
  fun _ => ⟨[.drew], fun _ hx => List.mem_singleton.mp hx, rfl⟩

theorem mirrors_choose (l : List α) :
    Mirrors (· = .drew) (Draw.choose l : Draw (Recorded ω) (Option α)) (Draw.choose l) := by
  unfold Draw.choose
  split
  · exact .pure _
  · exact (mirrors_belowFrom mirrors_small _ _ _ _).bind fun i => .pure _

end

end Recorded

/-! ## Retrying -/

namespace RetryPolicy

section
variable {ε : Type} {policy : RetryPolicy} {hooks : RetryHooks ω} {render : ε → String}
  {op : Nat → StateM ω (Except ε α)} {left attempt : Nat} {w w' : ω}

theorem runFrom_of_ok {a : α} (h : op attempt w = (.ok a, w')) :
    policy.runFrom hooks render op left attempt w = (.ok a, w') := by
  rw [runFrom, Draw.bind_apply, h]
  rfl

variable {e : ε}

theorem runFrom_zero (h : op attempt w = (.error e, w')) :
    policy.runFrom hooks render op 0 attempt w = (.error ⟨policy.attempts, e⟩,
      (hooks.log ⟨.debug, s!"attempt {attempt}/{policy.attempts} failed: {render e}"⟩ w').2) := by
  rw [runFrom, Draw.bind_apply, h]
  rfl

theorem runFrom_succ (h : op attempt w = (.error e, w')) :
    policy.runFrom hooks render op (left + 1) attempt w =
      policy.runFrom hooks render op left (attempt + 1)
        (hooks.pause (policy.backoff.delayAfter attempt) (hooks.log
          ⟨.debug, s!"attempt {attempt}/{policy.attempts} failed: {render e}"⟩ w').2).2 := by
  rw [runFrom, Draw.bind_apply, h]
  rfl

end

end RetryPolicy

namespace Selector

open Recorded

/-! ## Attempts -/

/-- What a reply comes to: the candidate that it names, with its number, or why it names none. -/
def judged (candidates : List Ref) (reply : Except OracleError String) :
    Except OracleError (Ref × Nat) := reply.bind (candidateOf candidates)

/-- A reply that names no candidate. -/
structure Failure (candidates : List Ref) where
  reply : Except OracleError String
  error : OracleError
  fails : judged candidates reply = .error error

def failedLine (policy : RetryPolicy) (attempt : Nat) (e : OracleError) : LogLine :=
  ⟨.debug, s!"attempt {attempt}/{policy.attempts} failed: {(Error.oracle e).message}"⟩

def selectedLine (i attempt : Nat) : LogLine :=
  ⟨.debug, s!"oracle selected index {i} on attempt {attempt}"⟩

/-- The attempts from one on, when `left` more may follow it. -/
def askFrom (policy : RetryPolicy) (prompt : String) (candidates : List Ref)
    (service : TextService ω) (left attempt : Nat) :
    StateM ω (Except (Exhausted OracleError) Ref) :=
  policy.runFrom service.hooks (fun e => (Error.oracle e).message)
    (ask service prompt candidates) left attempt

/-- All attempts that a policy allows. -/
def askAll (policy : RetryPolicy) (prompt : String) (candidates : List Ref)
    (service : TextService ω) : StateM ω (Except (Exhausted OracleError) Ref) :=
  askFrom policy prompt candidates service (policy.attempts - 1) 1

section
variable (policy : RetryPolicy) (prompt : String) {candidates : List Ref}

/-- What goes on in a failed attempt. -/
def Failure.incidents (f : Failure candidates) (attempt : Nat) : List Incident :=
  [.asked prompt f.reply, .logged (failedLine policy attempt f.error)]

/-- Failed attempts, counted from one on, each with the pause after it. -/
def retried (attempt : Nat) (failed : List (Failure candidates)) : List Incident :=
  (failed.zipIdx attempt).flatMap fun (f, k) =>
    f.incidents policy prompt k ++ [.paused (policy.backoff.delayAfter k)]

variable (candidates)

/-- How attempts go, counted from one on, and what comes of them. -/
inductive Course (attempt : Nat) : Except (Exhausted OracleError) Ref → List Incident → Prop
  /-- After some failures a reply names a candidate. -/
  | settled (failed : List (Failure candidates)) (reply : Except OracleError String) (r : Ref)
      (i : Nat) (hlast : attempt + failed.length ≤ policy.attempts)
      (hreply : judged candidates reply = .ok (r, i)) :
      Course attempt (.ok r) (retried policy prompt attempt failed ++
        [.asked prompt reply, .logged (selectedLine i (attempt + failed.length))])
  /-- All attempts fail, and no pause follows the last one. -/
  | exhausted (failed : List (Failure candidates)) (last : Failure candidates)
      (hlast : attempt + failed.length = policy.attempts) :
      Course attempt (.error ⟨policy.attempts, last.error⟩)
        (retried policy prompt attempt failed ++ last.incidents policy prompt policy.attempts)

end

section
variable {policy : RetryPolicy} {prompt : String} {candidates : List Ref}

theorem judged_eq_ok_iff (reply : Except OracleError String) (r : Ref) (i : Nat) :
    judged candidates reply = .ok (r, i) ↔
      ∃ text, reply = .ok text ∧ Prompt.parseIndex? text = some i ∧ candidates[i]? = some r := by
  constructor
  · intro h
    cases reply with
    | error e => cases h
    | ok text => exact ⟨text, rfl, candidateOf_eq_ok_iff.mp h⟩
  · rintro ⟨text, rfl, h⟩
    exact candidateOf_eq_ok_iff.mpr h

theorem retried_cons (attempt : Nat) (f : Failure candidates) (failed : List (Failure candidates)) :
    retried policy prompt attempt (f :: failed) =
      retried policy prompt attempt [f] ++ retried policy prompt (attempt + 1) failed := by
  simp only [retried, List.zipIdx_cons, List.zipIdx_nil, List.flatMap_cons, List.flatMap_nil,
    List.append_nil]

theorem countP_isAsked_retried (attempt : Nat) (failed : List (Failure candidates)) :
    (retried policy prompt attempt failed).countP Incident.isAsked = failed.length := by
  induction failed generalizing attempt with
  | nil => rfl
  | cons f failed ih =>
    rw [retried_cons, List.countP_append, ih, List.length_cons, Nat.add_comm]
    rfl

/-- Every attempt asks once. -/
theorem Course.countP_isAsked_le {attempt : Nat} {outcome : Except (Exhausted OracleError) Ref}
    {incidents : List Incident} (h : Course policy prompt candidates attempt outcome incidents) :
    attempt + incidents.countP Incident.isAsked ≤ policy.attempts + 1 := by
  cases h with
  | settled failed reply r i hlast hreply =>
    rw [List.countP_append, countP_isAsked_retried]
    exact Nat.add_le_add_right hlast 1
  | exhausted failed last hlast =>
    rw [List.countP_append, countP_isAsked_retried]
    exact Nat.add_le_add_right (Nat.le_of_eq hlast) 1

/-- A failure before attempts that go on somehow. -/
theorem Course.retry {attempt : Nat} {outcome : Except (Exhausted OracleError) Ref}
    {incidents : List Incident} (f : Failure candidates)
    (h : Course policy prompt candidates (attempt + 1) outcome incidents) :
    Course policy prompt candidates attempt outcome
      (retried policy prompt attempt [f] ++ incidents) := by
  have hlength : ∀ failed : List (Failure candidates),
      attempt + 1 + failed.length = attempt + (f :: failed).length := by
    intro failed
    rw [List.length_cons]
    omega
  cases h with
  | settled failed reply r i hlast hreply =>
    rw [hlength] at hlast ⊢
    rw [← List.append_assoc, ← retried_cons]
    exact .settled (f :: failed) reply r i hlast hreply
  | exhausted failed last hlast =>
    rw [hlength] at hlast
    rw [← List.append_assoc, ← retried_cons]
    exact .exhausted (f :: failed) last hlast

variable (service : TextService ω) {s : Recorded ω} {attempt : Nat}

theorem ask_of_error {e : OracleError}
    (h : judged candidates (service.query prompt s.world).1 = .error e) :
    ask service.recorded prompt candidates attempt s =
      (.error e, ⟨(service.query prompt s.world).2,
        s.incidents ++ [.asked prompt (service.query prompt s.world).1]⟩) := by
  unfold ask
  rw [Draw.bind_apply]
  dsimp only [TextService.recorded, keep]
  generalize (service.query prompt s.world).1 = reply at h
  cases reply with
  | error e' =>
    cases h
    rfl
  | ok text =>
    have h : candidateOf candidates text = .error e := h
    dsimp only
    rw [h]
    rfl

theorem ask_of_ok {r : Ref} {i : Nat}
    (h : judged candidates (service.query prompt s.world).1 = .ok (r, i)) :
    ask service.recorded prompt candidates attempt s =
      (.ok r, ⟨(service.hooks.log (selectedLine i attempt) (service.query prompt s.world).2).2,
        s.incidents ++ [.asked prompt (service.query prompt s.world).1] ++
          [.logged (selectedLine i attempt)]⟩) := by
  unfold ask
  rw [Draw.bind_apply]
  dsimp only [TextService.recorded, keep]
  generalize (service.query prompt s.world).1 = reply at h
  cases reply with
  | error e' => cases h
  | ok text =>
    have h : candidateOf candidates text = .ok (r, i) := h
    dsimp only
    rw [h]
    rfl

theorem course_of_ok {r : Ref} {i : Nat} (left : Nat) (hattempt : attempt ≤ policy.attempts)
    (h : judged candidates (service.query prompt s.world).1 = .ok (r, i)) :
    ∃ outcome incidents w, Course policy prompt candidates attempt outcome incidents ∧
      askFrom policy prompt candidates service.recorded left attempt s =
        (outcome, ⟨w, s.incidents ++ incidents⟩) := by
  have hrun : ∃ w, askFrom policy prompt candidates service.recorded left attempt s =
      (.ok r, ⟨w, s.incidents ++ [.asked prompt (service.query prompt s.world).1,
        .logged (selectedLine i attempt)]⟩) := by
    rw [askFrom, RetryPolicy.runFrom_of_ok (ask_of_ok service h), List.append_assoc]
    exact ⟨_, rfl⟩
  obtain ⟨w, hrun⟩ := hrun
  exact ⟨_, _, w, .settled [] _ r i hattempt h, hrun⟩

theorem askFrom_zero (f : Failure candidates) (h : (service.query prompt s.world).1 = f.reply) :
    ∃ w, askFrom policy prompt candidates service.recorded 0 attempt s =
      (.error ⟨policy.attempts, f.error⟩,
        ⟨w, s.incidents ++ f.incidents policy prompt attempt⟩) := by
  rw [askFrom, RetryPolicy.runFrom_zero (ask_of_error service (h ▸ f.fails)), h]
  dsimp only [TextService.recorded, keep]
  rw [List.append_assoc]
  exact ⟨_, rfl⟩

theorem askFrom_succ (f : Failure candidates) (left : Nat)
    (h : (service.query prompt s.world).1 = f.reply) :
    ∃ w, askFrom policy prompt candidates service.recorded (left + 1) attempt s =
      askFrom policy prompt candidates service.recorded left (attempt + 1)
        ⟨w, s.incidents ++ retried policy prompt attempt [f]⟩ := by
  rw [askFrom, RetryPolicy.runFrom_succ (ask_of_error service (h ▸ f.fails)), h]
  dsimp only [TextService.recorded, keep]
  rw [List.append_assoc, List.append_assoc]
  exact ⟨_, rfl⟩

theorem askFrom_course (left attempt : Nat) (hleft : attempt + left = policy.attempts)
    (s : Recorded ω) : ∃ outcome incidents w,
      Course policy prompt candidates attempt outcome incidents ∧
        askFrom policy prompt candidates service.recorded left attempt s =
          (outcome, ⟨w, s.incidents ++ incidents⟩) := by
  induction left generalizing attempt s with
  | zero =>
    cases hreply : judged candidates (service.query prompt s.world).1 with
    | ok x => exact course_of_ok service 0 (Nat.le_of_eq hleft) hreply
    | error e =>
      obtain ⟨w, hrun⟩ := askFrom_zero service ⟨_, e, hreply⟩ rfl
      obtain rfl : attempt = policy.attempts := hleft
      exact ⟨_, _, w, .exhausted [] ⟨_, e, hreply⟩ rfl, hrun⟩
  | succ left ih =>
    cases hreply : judged candidates (service.query prompt s.world).1 with
    | ok x => exact course_of_ok service (left + 1) (by omega) hreply
    | error e =>
      obtain ⟨w, hrun⟩ := askFrom_succ service ⟨_, e, hreply⟩ left rfl
      obtain ⟨outcome, incidents, w', hcourse, hrest⟩ := ih (attempt + 1) (by omega) ⟨w, _⟩
      refine ⟨outcome, _, w', hcourse.retry ⟨_, e, hreply⟩, ?_⟩
      rw [hrun, hrest, List.append_assoc]

/-! ## What the record changes -/

theorem mirrors_query (prompt : String) :
    Mirrors (fun _ => True) (service.recorded.query prompt) (service.query prompt) :=
  mirrors_keep _ _ fun _ => True.intro

theorem mirrors_pause (d : Duration) :
    Mirrors (fun _ => True) (service.recorded.hooks.pause d) (service.hooks.pause d) :=
  mirrors_keep _ (fun _ => .paused d) fun _ => True.intro

theorem mirrors_log (line : LogLine) :
    Mirrors (fun _ => True) (service.recorded.hooks.log line) (service.hooks.log line) :=
  mirrors_keep _ (fun _ => .logged line) fun _ => True.intro

theorem mirrors_ask :
    Mirrors (fun _ => True) (ask service.recorded prompt candidates attempt)
      (ask service prompt candidates attempt) := by
  refine (mirrors_query service prompt).bind fun reply => ?_
  cases reply with
  | error e => exact .pure _
  | ok text =>
    dsimp only
    split
    · exact .pure _
    · exact (mirrors_log service _).bind fun _ => .pure _

theorem mirrors_askFrom (left attempt : Nat) :
    Mirrors (fun _ => True) (askFrom policy prompt candidates service.recorded left attempt)
      (askFrom policy prompt candidates service left attempt) := by
  induction left generalizing attempt with
  | zero =>
    unfold askFrom RetryPolicy.runFrom
    refine (mirrors_ask service).bind fun r? => ?_
    cases r? with
    | ok r => exact .pure _
    | error e => exact (mirrors_log service _).bind fun _ => .pure _
  | succ left ih =>
    unfold askFrom RetryPolicy.runFrom
    refine (mirrors_ask service).bind fun r? => ?_
    cases r? with
    | ok r => exact .pure _
    | error e =>
      refine (mirrors_log service _).bind fun _ => ?_
      exact (mirrors_pause service _).bind fun _ => ih (attempt + 1)

theorem mirrors_askAll :
    Mirrors (fun _ => True) (askAll policy prompt candidates service.recorded)
      (askAll policy prompt candidates service) :=
  mirrors_askFrom service _ 1

/-- All attempts, with the world that they leave and the record of them. -/
theorem askAll_course (w : ω) : ∃ outcome incidents,
    Course policy prompt candidates 1 outcome incidents ∧
      askAll policy prompt candidates service.recorded ⟨w, []⟩ =
        (outcome, ⟨(askAll policy prompt candidates service w).2, incidents⟩) := by
  have hattempts : 1 + (policy.attempts - 1) = policy.attempts := by
    unfold RetryPolicy.attempts
    omega
  obtain ⟨outcome, incidents, w', hcourse, hrun⟩ := askFrom_course service _ 1 hattempts ⟨w, []⟩
  obtain ⟨new, -, hmirror⟩ := mirrors_askAll service ⟨w, []⟩
  obtain rfl : w' = (askAll policy prompt candidates service w).2 :=
    congrArg (fun x => x.2.world) (hrun.symm.trans hmirror)
  exact ⟨outcome, incidents, hcourse, hrun⟩

end

/-! ## Guided choices -/

section
variable [WordSource ω] (c : Cluster) (service : TextService ω) (policy : RetryPolicy)
  (p : Program) (ty : Ty) (position : Nat) (candidates : List Ref)

/-- How a guided choice goes once there are candidates: what is chosen, with the world and the
record that are left. -/
inductive Consultation (w : ω) : Except Error Ref × Recorded ω → Prop
  /-- A reply settles it. -/
  | settled (r : Ref) (incidents : List Incident) (w' : ω)
      (hcourse : Course policy (Prompt.render p ty position candidates) candidates 1 (.ok r)
        incidents)
      (hleft : w' =
        (askAll policy (Prompt.render p ty position candidates) candidates service w).2) :
      Consultation w (.ok r, ⟨w', incidents⟩)
  /-- All attempts fail, and the choice is that of the random selector in the world that is left. -/
  | drawn (e : Exhausted OracleError) (incidents : List Incident) (w' : ω) (n : Nat)
      (hcourse : Course policy (Prompt.render p ty position candidates) candidates 1 (.error e)
        incidents)
      (hleft : w' = (service.hooks.log (fallbackLine e)
        (askAll policy (Prompt.render p ty position candidates) candidates service w).2).2) :
      Consultation w ((random c p ty position w').1, ⟨(random c p ty position w').2,
        incidents ++ .logged (fallbackLine e) :: List.replicate n .drew⟩)

/-- All that a guided choice among candidates does in a world. -/
structure Consulted (w : ω) : Prop where
  /-- Keeping a record changes nothing. -/
  faithful : guided c service policy p ty position w =
    ((guided c service.recorded policy p ty position ⟨w, []⟩).1,
      (guided c service.recorded policy p ty position ⟨w, []⟩).2.world)
  /-- Without candidates, nothing is asked. -/
  unasked : candidates = [] → guided c service.recorded policy p ty position ⟨w, []⟩ =
    (.error (noneFits ty position), ⟨w, []⟩)
  consultation : candidates ≠ [] → Consultation c service policy p ty position candidates w
    (guided c service.recorded policy p ty position ⟨w, []⟩)
  /-- A reply names a candidate by its number. -/
  named : ∀ reply r i, judged candidates reply = .ok (r, i) ↔
    ∃ text, reply = .ok text ∧ Prompt.parseIndex? text = some i ∧ candidates[i]? = some r
  /-- The service is asked no more often than there are attempts. -/
  bounded : (guided c service.recorded policy p ty position ⟨w, []⟩).2.incidents.countP
    Incident.isAsked ≤ max 1 policy.maxAttempts
  chosen : candidates ≠ [] → ∃ r ∈ candidates, (guided c service policy p ty position w).1 = .ok r
  /-- There is a choice exactly if the random selector has one, whatever it draws. -/
  alike : ∀ w' : ω, (guided c service policy p ty position w).1.isOk =
    (random c p ty position w').1.isOk

theorem mirrors_random :
    Mirrors (· = .drew) (random c p ty position) (random c p ty position : StateM ω _) := by
  refine Mirrors.bind (mirrors_choose _) fun r? => ?_
  cases r? with
  | some r => exact .pure _
  | none => exact .pure _

theorem random_isOk (w : ω) : (random c p ty position w).1.isOk =
    !(p.findCompatible c ty position .nonNull).isEmpty := by
  have hnone := Draw.choose_eq_none (p.findCompatible c ty position .nonNull) w
  unfold random filtered chooseFrom
  rw [Draw.bind_apply]
  cases hchoice : (Draw.choose (p.findCompatible c ty position .nonNull) w).1 with
  | none =>
    rw [hnone.mp hchoice]
    rfl
  | some r =>
    have hne : p.findCompatible c ty position .nonNull ≠ [] :=
      fun h => by cases (hnone.mpr h).symm.trans hchoice
    rw [List.isEmpty_eq_false_iff.mpr hne]
    rfl

variable {c p ty position candidates}

theorem Consultation.countP_isAsked_le {w : ω} {x : Except Error Ref × Recorded ω}
    (h : Consultation c service policy p ty position candidates w x) :
    x.2.incidents.countP Incident.isAsked ≤ policy.attempts := by
  cases h with
  | settled r incidents w' hcourse hleft =>
    have hcount := hcourse.countP_isAsked_le
    dsimp only
    omega
  | drawn e incidents w' n hcourse hleft =>
    have hcount := hcourse.countP_isAsked_le
    have hdrawn : (.logged (fallbackLine e) :: List.replicate n .drew).countP
        Incident.isAsked = 0 := by simp [Incident.isAsked]
    rw [List.countP_append, hdrawn]
    omega

variable (hoffered : p.findCompatible c ty position .nonNull = candidates)

include hoffered

theorem guided_of_nil (hnil : candidates = []) :
    guided c service policy p ty position = pure (.error (noneFits ty position)) := by
  unfold guided
  dsimp only
  rw [hoffered, hnil]
  rfl

/-- Where there are candidates, the service is asked. -/
theorem guided_of_ne_nil (hne : candidates ≠ []) :
    guided c service policy p ty position = (do
      match ← askAll policy (Prompt.render p ty position candidates) candidates service with
      | .ok r => return .ok r
      | .error e =>
        service.hooks.log (fallbackLine e)
        random c p ty position) := by
  unfold guided random filtered
  dsimp only
  rw [hoffered, List.isEmpty_eq_false_iff.mpr hne]
  rfl

theorem mirrors_guided : Mirrors (fun _ => True) (guided c service.recorded policy p ty position)
    (guided c service policy p ty position) := by
  by_cases hnil : candidates = []
  · rw [guided_of_nil service.recorded policy hoffered hnil,
      guided_of_nil service policy hoffered hnil]
    exact .pure _
  · rw [guided_of_ne_nil service.recorded policy hoffered hnil,
      guided_of_ne_nil service policy hoffered hnil]
    refine (mirrors_askAll service).bind fun r? => ?_
    cases r? with
    | ok r => exact .pure _
    | error e =>
      refine (mirrors_log service _).bind fun _ => ?_
      exact Mirrors.mono (mirrors_random (ω := ω) c p ty position) fun _ _ => True.intro

/-- Keeping a record changes nothing. -/
theorem guided_recorded (w : ω) : guided c service policy p ty position w =
    ((guided c service.recorded policy p ty position ⟨w, []⟩).1,
      (guided c service.recorded policy p ty position ⟨w, []⟩).2.world) := by
  obtain ⟨new, -, hmirror⟩ := mirrors_guided service policy hoffered ⟨w, []⟩
  rw [hmirror]
  rfl

theorem guided_consultation (hne : candidates ≠ []) (w : ω) :
    Consultation c service policy p ty position candidates w
      (guided c service.recorded policy p ty position ⟨w, []⟩) := by
  obtain ⟨outcome, incidents, hcourse, hrun⟩ := askAll_course service w
  rw [guided_of_ne_nil service.recorded policy hoffered hne, Draw.bind_apply, hrun]
  cases outcome with
  | ok r => exact .settled r incidents _ hcourse rfl
  | error e =>
    -- From here on the record grows by words that the random selector draws, and by nothing else.
    let w' := (service.hooks.log (fallbackLine e)
      (askAll policy (Prompt.render p ty position candidates) candidates service w).2).2
    show Consultation c service policy p ty position candidates w
      (random c p ty position ⟨w', incidents ++ [.logged (fallbackLine e)]⟩)
    obtain ⟨new, hnew, hchoice⟩ :=
      mirrors_random c p ty position ⟨w', incidents ++ [.logged (fallbackLine e)]⟩
    rw [hchoice, List.eq_replicate_of_mem hnew, List.append_assoc]
    exact .drawn e incidents w' new.length hcourse rfl

/-- Whatever it comes from, there is a choice. -/
theorem Consultation.isOk {w : ω} {x : Except Error Ref × Recorded ω}
    (h : Consultation c service policy p ty position candidates w x) (hne : candidates ≠ []) :
    x.1.isOk = true := by
  cases h with
  | settled r incidents w' hcourse hleft => rfl
  | drawn e incidents w' n hcourse hleft =>
    have hok := random_isOk c p ty position w'
    rwa [hoffered, List.isEmpty_eq_false_iff.mpr hne] at hok

/-- There is a choice wherever there are candidates. -/
theorem guided_isOk (w : ω) :
    (guided c service policy p ty position w).1.isOk = !candidates.isEmpty := by
  rw [guided_recorded service policy hoffered]
  by_cases hnil : candidates = []
  · rw [guided_of_nil service.recorded policy hoffered hnil, hnil]
    rfl
  · rw [List.isEmpty_eq_false_iff.mpr hnil]
    have h := guided_consultation service policy hoffered hnil w
    exact h.isOk service policy hoffered hnil

theorem guided_chosen (hne : candidates ≠ []) (w : ω) :
    ∃ r ∈ candidates, (guided c service policy p ty position w).1 = .ok r := by
  have hok := guided_isOk service policy hoffered w
  rw [List.isEmpty_eq_false_iff.mpr hne] at hok
  have hmem := guided_offersNonNull c service policy p ty position w
  rw [hoffered] at hmem
  cases hr : (guided c service policy p ty position w).1 with
  | ok r => exact ⟨r, hmem r hr, rfl⟩
  | error e =>
    rw [hr] at hok
    cases hok

/-- The service is asked no more often than there are attempts. -/
theorem guided_bounded (w : ω) :
    (guided c service.recorded policy p ty position ⟨w, []⟩).2.incidents.countP Incident.isAsked ≤
      policy.attempts := by
  by_cases hnil : candidates = []
  · rw [guided_of_nil service.recorded policy hoffered hnil]
    exact Nat.zero_le _
  · exact (guided_consultation service policy hoffered hnil w).countP_isAsked_le

end

/-- However a text service answers and fails, a guided choice succeeds where a random one does.  It
asks no more often than the policy allows, settles for the first reply that names a candidate, and
draws one only when there is no such reply. -/
theorem guided_consults [WordSource ω] (c : Cluster) (service : TextService ω)
    (policy : RetryPolicy) (p : Program) (ty : Ty) (position : Nat) (w : ω) :
    Consulted c service policy p ty position (p.findCompatible c ty position .nonNull) w where
  faithful := guided_recorded service policy rfl w
  unasked hnil := congrFun (guided_of_nil service.recorded policy rfl hnil) _
  consultation hne := guided_consultation service policy rfl hne w
  named := judged_eq_ok_iff
  bounded := Nat.le_trans (guided_bounded service policy rfl w) (Nat.le_of_eq (Nat.max_comm _ _))
  chosen hne := guided_chosen service policy rfl hne w
  alike w' := (guided_isOk service policy rfl w).trans (random_isOk c p ty position w').symm

end Selector

end SuiteSearch
