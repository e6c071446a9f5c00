import FourRings.Proofs.BootOrder

/-!
# Earned resumes

A ring that is done hands its token back before the core goes on after it. `resumes_earned` is the
main statement: whatever is called on a new sequencer, the core goes on after the stage of an outer
ring only if the two calls granted last entered that ring and redeemed its token, so there are never
more resumes than redemptions. One call needs no token: to go on after the core, before anything
else was granted, starts the boot. `core_resumes_unearned` is a run in which this happens.

A `BootTrace` lists the calls that led to a phase, and everything about resumes is read off its last
calls.
-/

namespace FourRings

theorem OuterRing.outer?_stage (r : OuterRing) : r.stage.outer? = some r := by
  cases r <;> rfl

/-! ### Granted calls -/

/-- Calls that were granted, each with its answer. -/
abbrev GrantedCalls := List (BootCall × BootAnswer)

namespace BootHistory

/-- The calls of a history that were granted. -/
def granted (h : BootHistory) : GrantedCalls :=
  h.filterMap fun (c, outcome) => outcome.toOption.map (c, ·)

theorem granted_cons_ok (c : BootCall) (a : BootAnswer) (h : BootHistory) :
    granted ((c, .ok a) :: h) = (c, a) :: h.granted := rfl

theorem granted_cons_error (c : BootCall) (e : SequenceError) (h : BootHistory) :
    granted ((c, .error e) :: h) = h.granted := rfl

end BootHistory

namespace BootCall

/-- Whether the call goes on after the stage of an outer ring. -/
def isResume : BootCall → Bool
  | .proceed stage => stage.outer?.isSome
  | .start | .redeem _ => false

/-- Whether the call hands a token back. -/
def isRedemption : BootCall → Bool
  | .redeem _ => true
  | .start | .proceed _ => false

end BootCall

namespace GrantedCalls

/-- The number of resumes after the stages of outer rings. -/
def resumes (g : GrantedCalls) : Nat := g.countP (·.1.isResume)

/-- The number of tokens that were handed back. -/
def redemptions (g : GrantedCalls) : Nat := g.countP (·.1.isRedemption)

theorem resumes_concat (g : GrantedCalls) (c : BootCall) (a : BootAnswer) :
    resumes (g ++ [(c, a)]) = resumes g + if c.isResume then 1 else 0 := by
  rw [resumes, List.countP_append, List.countP_singleton, resumes]

theorem redemptions_concat (g : GrantedCalls) (c : BootCall) (a : BootAnswer) :
    redemptions (g ++ [(c, a)]) = redemptions g + if c.isRedemption then 1 else 0 := by
  rw [redemptions, List.countP_append, List.countP_singleton, redemptions]

/-- The last two calls entered ring `r` and redeemed the token that was issued then. -/
def Earned (route : BootRoute) (r : OuterRing) (g : GrantedCalls) : Prop :=
  ∃ earlier c, g = earlier ++ [(c, .step (route.entry r))] ++
    [(.redeem (route.continuations.get r), .goOnAt (route.continuations.get r))]

namespace Earned

variable {route : BootRoute} {r r' : OuterRing} {g : GrantedCalls}

theorem getLast?_eq (h : g.Earned route r) :
    g.getLast? =
      some (.redeem (route.continuations.get r), .goOnAt (route.continuations.get r)) := by
  obtain ⟨earlier, c, rfl⟩ := h
  exact List.getLast?_concat

/-- Rings may share a continuation, but the call before the redemption names the ring. -/
theorem unique (h : g.Earned route r) (h' : g.Earned route r') : r = r' := by
  obtain ⟨earlier, c, hg⟩ := h
  obtain ⟨earlier', c', hg'⟩ := h'
  obtain ⟨hbefore, -⟩ := List.append_inj' (hg.symm.trans hg') rfl
  obtain ⟨-, hentry⟩ := List.append_inj' hbefore rfl
  have hentry : route.entry r = route.entry r' := by
    injection List.singleton_inj.1 hentry with _ hstep
    injection hstep
  have hstage : r.stage = r'.stage := congrArg BootStep.stage hentry
  rw [← Option.some_inj, ← r.outer?_stage, hstage, r'.outer?_stage]

end Earned

end GrantedCalls

/-! ### Traces -/

/-- The number of tokens that were handed back and not used by a resume yet. -/
def BootPhase.unspent : BootPhase → Nat
  | .returned _ => 1
  | .fresh | .running _ | .ready => 0

/-- The calls that were granted on the way to a phase. -/
inductive BootTrace (route : BootRoute) : BootPhase → GrantedCalls → Prop
  | fresh : BootTrace route .fresh []
  | move {p p' : BootPhase} {g : GrantedCalls} {c : BootCall} {a : BootAnswer}
      (trace : BootTrace route p g) (move : BootPhase.Move route p c a p') :
      BootTrace route p' (g ++ [(c, a)])

namespace BootTrace

variable {route : BootRoute} {p : BootPhase} {r : OuterRing} {g : GrantedCalls}

theorem eq_nil (h : BootTrace route .fresh g) : g = [] := by
  cases h with
  | fresh => rfl
  | move trace move => cases move

/-- A ring that runs was entered by the last call. -/
theorem entered (h : BootTrace route (.running r) g) :
    ∃ earlier c, g = earlier ++ [(c, .step (route.entry r))] := by
  cases h with
  | @move _ _ g c a trace move => cases move <;> exact ⟨g, _, rfl⟩

/-- A ring that has handed its token back has earned its resume. -/
theorem earned (h : BootTrace route (.returned r) g) : g.Earned route r := by
  cases h with
  | move trace move =>
    cases move with
    | redeem r =>
      obtain ⟨earlier, c, rfl⟩ := trace.entered
      exact ⟨earlier, c, rfl⟩

/-- Every token that was handed back is used up by a resume, but for the one of a ring that has just
returned. -/
theorem redemptions_eq (h : BootTrace route p g) : g.redemptions = g.resumes + p.unspent := by
  induction h with
  | fresh => rfl
  | move trace move ih =>
    rw [GrantedCalls.redemptions_concat, GrantedCalls.resumes_concat, ih]
    cases move with
    | start => rfl
    | proceedCore => rfl
    | redeem r => rfl
    | @proceed r _ _ => cases r <;> rfl
    | finish => rfl

/-- The first ring is entered by a start, or by going on after the core. -/
theorem first_entry (h : BootTrace route p g) {c : BootCall}
    (hc : (c, .step (route.entry .devs)) ∈ g) : c = .start ∨ c = .proceed .core := by
  induction h with
  | fresh => cases hc
  | move trace move ih =>
    rcases List.mem_append.1 hc with hc | hc
    · exact ih hc
    · obtain ⟨rfl, ha⟩ := Prod.mk.inj (List.mem_singleton.1 hc)
      cases move with
      | start => exact Or.inl rfl
      | proceedCore => exact Or.inr rfl
      | redeem r => cases ha
      | @proceed r r' next =>
        -- no outer ring is followed by the first one
        cases r <;> cases next <;> cases ha
      | finish => cases ha

/-- **Every run leaves a trace.** -/
theorem exists_run_eq (h : BootTrace route p g) (calls : List BootCall) :
    ∃ p', (p.sequencer route).run calls = p'.sequencer route ∧
      BootTrace route p' (g ++ ((p.sequencer route).history calls).granted) := by
  induction calls generalizing p g with
  | nil => exact ⟨p, rfl, by simpa [Sequencer.history, BootHistory.granted] using h⟩
  | cons c calls ih =>
    have hcall := BootPhase.call_cases route p c
    rw [Sequencer.run_cons, Sequencer.history]
    generalize (p.sequencer route).call c = result at hcall ⊢
    cases hcall with
    | refused e _ =>
      rw [BootHistory.granted_cons_error]
      exact ih h
    | granted a p' move =>
      obtain ⟨p'', hrun, htrace⟩ := ih (h.move move)
      refine ⟨p'', hrun, ?_⟩
      rw [BootHistory.granted_cons_ok]
      simpa using htrace

/-- Only a new sequencer has granted nothing. -/
theorem eq_fresh (h : BootTrace route p g) (hg : g = []) : p = .fresh := by
  cases h with
  | fresh => rfl
  | move trace move => cases List.append_ne_nil_of_right_ne_nil _ (List.cons_ne_nil _ _) hg

/-- The last two calls tell the phase in which a resume is earned. -/
theorem eq_returned (h : BootTrace route p g) (he : g.Earned route r) : p = .returned r := by
  have hlast := he.getLast?_eq
  cases p with
  | fresh =>
    obtain rfl := h.eq_nil
    cases hlast
  | running r' =>
    obtain ⟨earlier, c, rfl⟩ := h.entered
    rw [List.getLast?_concat] at hlast
    cases hlast
  | returned r' => rw [h.earned.unique he]
  | ready =>
    cases h with
    | move trace move =>
      cases move
      rw [List.getLast?_concat] at hlast
      cases hlast

/-- In every phase, the core goes on after a ring if the ring has earned it, and after the core if
nothing was granted before. -/
theorem proceed_eq_ok_iff (h : BootTrace route p g) (stage : Stage) :
    (∃ a, ((p.sequencer route).call (.proceed stage)).1 = .ok a) ↔
      (∃ r : OuterRing, stage = r.stage ∧ g.Earned route r) ∨ (stage = .core ∧ g = []) := by
  constructor
  · rintro ⟨a, ha⟩
    have hcall := BootPhase.call_cases route p (.proceed stage)
    generalize (p.sequencer route).call (.proceed stage) = result at hcall ha
    cases hcall with
    | refused e _ => cases ha
    | granted a' p' move =>
      cases move with
      | proceedCore => exact Or.inr ⟨rfl, h.eq_nil⟩
      | @proceed r _ _ => exact Or.inl ⟨r, rfl, h.earned⟩
      | finish => exact Or.inl ⟨.users, rfl, h.earned⟩
  · rintro (⟨r, rfl, he⟩ | ⟨rfl, rfl⟩)
    · obtain rfl := h.eq_returned he
      cases r <;> exact ⟨_, rfl⟩
    · obtain rfl := h.eq_fresh rfl
      exact ⟨_, rfl⟩

end BootTrace

/-- A call to go on that is granted names the current stage. -/
theorem Sequencer.stage_of_proceed {s : Sequencer} {stage : Stage} {a : BootAnswer}
    (h : (s.call (.proceed stage)).1 = .ok a) : stage = s.stage := by
  rw [call, proceed] at h
  split at h
  · cases h
  · split at h
    · cases h
    · rename_i hbad
      exact Decidable.not_not.1 (not_or.1 hbad).1

/-- **Resumes are earned.** Whatever is called on a new sequencer, a call to go on after a stage is
granted only for the current stage. It is granted after an outer ring exactly if the last two
calls that were granted entered that ring and redeemed the token issued then, and after the core
exactly if no call was granted yet. So resumes after outer rings are never more than redemptions,
and the first ring is entered by a start, or by going on after the core. -/
theorem resumes_earned (route : BootRoute) (calls : List BootCall) :
    let s := Sequencer.run { route } calls
    let g := (Sequencer.history { route } calls).granted
    (∀ (stage : Stage) (a : BootAnswer), (s.call (.proceed stage)).1 = .ok a → stage = s.stage) ∧
      (∀ stage : Stage, (∃ a, (s.call (.proceed stage)).1 = .ok a) ↔
        (∃ r : OuterRing, stage = r.stage ∧ g.Earned route r) ∨ (stage = .core ∧ g = [])) ∧
      g.resumes ≤ g.redemptions ∧
      ∀ c : BootCall, (c, .step (route.entry .devs)) ∈ g → c = .start ∨ c = .proceed .core := by
  intro s g
  obtain ⟨p, hrun, htrace⟩ : ∃ p : BootPhase, s = p.sequencer route ∧ BootTrace route p g :=
    BootTrace.fresh.exists_run_eq calls
  rw [hrun]
  refine ⟨fun stage a ha => Sequencer.stage_of_proceed ha, htrace.proceed_eq_ok_iff, ?_,
    fun c hc => htrace.first_entry hc⟩
  rw [htrace.redemptions_eq]
  exact Nat.le_add_right _ _

/-- A route for runs on fixed calls. -/
def sampleRoute : BootRoute :=
  ⟨⟨0x101000, 0x102000, 0x103000⟩, ⟨0x10A000, 0x10B000, 0x10C000⟩⟩

/-- On a new sequencer, a call to go on after the core is granted. It enters the first ring without
a start, and no token was redeemed before. -/
theorem core_resumes_unearned :
    let g := (Sequencer.history { route := sampleRoute } [.proceed .core]).granted
    g = [(.proceed .core, .step (sampleRoute.entry .devs))] ∧ g.redemptions = 0 :=
  ⟨rfl, rfl⟩

end FourRings
