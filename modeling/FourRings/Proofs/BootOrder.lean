import FourRings.Boot.Sequencer

/-!
# The order of the boot

The sequencer can be called at any time, with any stage and any token. `BootRoute.script` lists what
the boot does, step by step, and `boot_in_order` is the main statement: whatever is called on a new
sequencer, the answers that it gives are the script up to some point, and what it refuses changes
nothing.

A `BootPhase` says how far the boot has come, and determines the sequencer. One call leaves the
phase or goes on to the next one (`call_cases`); everything about runs follows from that.
-/

namespace FourRings

/-! ### Calls and answers -/

/-- A call of the sequencer. -/
inductive BootCall where
  | start
  | redeem (token : Word)
  | proceed (stage : Stage)
deriving DecidableEq, Repr

/-- What a call is answered with, if it is not refused. -/
inductive BootAnswer where
  | step (s : BootStep)
  /-- The core goes on at the address. -/
  | goOnAt (address : Word)
deriving DecidableEq, Repr

/-- The step that an answer takes. -/
def BootAnswer.step? : BootAnswer → Option BootStep
  | .step s => some s
  | .goOnAt _ => none

/-- The stage that a step leads to. -/
def BootStep.stage : BootStep → Stage
  | .enterRing stage _ _ => stage
  | .enterMainTask _ => .ready

/-- Calls in the order in which they were made, each with what became of it. -/
abbrev BootHistory := List (BootCall × Except SequenceError BootAnswer)

namespace BootHistory

/-- The answers of the calls that were not refused. -/
def answers (h : BootHistory) : List BootAnswer := h.filterMap (·.2.toOption)

/-- The steps that were taken. -/
def steps (h : BootHistory) : List BootStep := h.answers.filterMap (·.step?)

end BootHistory

namespace Sequencer

/-- What becomes of a call, and the sequencer after it. -/
def call (s : Sequencer) : BootCall → Except SequenceError BootAnswer × Sequencer
  | .start => s.start.map (·.map .step) id
  | .redeem token => (s.redeem token).map (·.map .goOnAt) id
  | .proceed stage => (s.proceed stage).map (·.map .step) id

/-- The sequencer after a sequence of calls. -/
def run (s : Sequencer) (calls : List BootCall) : Sequencer :=
  calls.foldl (fun s c => (s.call c).2) s

/-- What becomes of a sequence of calls. -/
def history (s : Sequencer) : List BootCall → BootHistory
  | [] => []
  | c :: calls => (c, (s.call c).1) :: (s.call c).2.history calls

theorem run_cons (s : Sequencer) (c : BootCall) (calls : List BootCall) :
    s.run (c :: calls) = (s.call c).2.run calls := rfl

theorem answers_history_cons {s s' : Sequencer} {c : BootCall} {a : BootAnswer}
    {calls : List BootCall} (h : s.call c = (.ok a, s')) :
    (s.history (c :: calls)).answers = a :: (s'.history calls).answers := by
  rw [history, h]
  rfl

end Sequencer

/-! ### The script -/

namespace OuterRing

/-- The outer rings in the order in which they come up. -/
def all : List OuterRing := [.devs, .libs, .users]

/-- The rings that come up after `r`. -/
def later : OuterRing → List OuterRing
  | .devs => [.libs, .users]
  | .libs => [.users]
  | .users => []

/-- The rings up to `r`, the latest first. -/
def upTo : OuterRing → List OuterRing
  | .devs => [.devs]
  | .libs => [.libs, .devs]
  | .users => [.users, .libs, .devs]

end OuterRing

namespace BootRoute

variable (route : BootRoute)

/-- The entry of a ring: at its entry point, with its code and data segments and its stack,
interrupts off. -/
def entry (r : OuterRing) : BootStep :=
  .enterRing r.stage
    { eip := route.entries.get r
      cs := r.ring.codeSelector.toWord
      eflags := 0
      esp := BitVec.ofNat 32 r.ring.firstStack
      ss := r.ring.dataSelector.toWord }
    (route.continuations.get r)

/-- The steps of the boot. -/
def steps : List BootStep :=
  OuterRing.all.map route.entry ++ [.enterMainTask SelectorMap.mainTask]

/-- What is left to do when `rings` are still to come up: each is entered, and then the core goes on
at the continuation of that ring. -/
def remaining (rings : List OuterRing) : List BootAnswer :=
  rings.flatMap (fun r => [.step (route.entry r), .goOnAt (route.continuations.get r)]) ++
    [.step (.enterMainTask SelectorMap.mainTask)]

/-- The whole boot. -/
def script : List BootAnswer := route.remaining OuterRing.all

theorem steps_script : route.script.filterMap (·.step?) = route.steps := rfl

theorem stages_steps : route.steps.map (·.stage) = [.devs, .libs, .users, .ready] := rfl

end BootRoute

/-! ### Phases -/

/-- How far the boot has come. -/
inductive BootPhase where
  | fresh
  /-- The ring was entered and has not handed the token back. -/
  | running (r : OuterRing)
  /-- The ring has handed the token back. -/
  | returned (r : OuterRing)
  | ready
deriving DecidableEq, Repr

namespace BootPhase

variable {route : BootRoute}

/-- The sequencer in a phase. -/
def sequencer (route : BootRoute) : BootPhase → Sequencer
  | .fresh => { route }
  | .running r =>
    { route, stage := r.stage, entered := r.upTo, pending := some (route.continuations.get r) }
  | .returned r => { route, stage := r.stage, entered := r.upTo }
  | .ready => { route, stage := .ready, entered := OuterRing.users.upTo }

/-- What is left to do in a phase. -/
def rest (route : BootRoute) : BootPhase → List BootAnswer
  | .fresh => route.script
  | .running r => .goOnAt (route.continuations.get r) :: route.remaining r.later
  | .returned r => route.remaining r.later
  | .ready => []

/-- A call that is granted, with the phases before and after it and the answer. -/
inductive Move (route : BootRoute) : BootPhase → BootCall → BootAnswer → BootPhase → Prop
  | start : Move route .fresh .start (.step (route.entry .devs)) (.running .devs)
  /-- To go on after the core is to start. -/
  | proceedCore : Move route .fresh (.proceed .core) (.step (route.entry .devs)) (.running .devs)
  | redeem (r : OuterRing) :
      Move route (.running r) (.redeem (route.continuations.get r))
        (.goOnAt (route.continuations.get r)) (.returned r)
  | proceed {r r' : OuterRing} (next : r.stage.next? = some r') :
      Move route (.returned r) (.proceed r.stage) (.step (route.entry r')) (.running r')
  | finish :
      Move route (.returned .users) (.proceed .users)
        (.step (.enterMainTask SelectorMap.mainTask)) .ready

namespace Move

variable {p p' : BootPhase} {c : BootCall} {a : BootAnswer}

/-- A call that is granted does the next thing that is left to do. -/
theorem rest_eq (m : Move route p c a p') : p.rest route = a :: p'.rest route := by
  cases m with
  | start => rfl
  | proceedCore => rfl
  | redeem r => rfl
  | @proceed r r' next => cases r <;> cases next <;> rfl
  | finish => rfl

/-- The core goes on at the address that is presented. -/
theorem eq_redeem {address : Word} (m : Move route p c (.goOnAt address) p') :
    c = .redeem address := by
  cases m
  rfl

end Move

/-- What can become of a call: it is refused, or it moves on to another phase. -/
inductive Next (route : BootRoute) (p : BootPhase) (c : BootCall) :
    Except SequenceError BootAnswer × Sequencer → Prop
  | refused (e : SequenceError) (once : ∀ stage, e ≠ .ringReentered stage) :
      Next route p c (.error e, p.sequencer route)
  | granted (a : BootAnswer) (p' : BootPhase) (move : Move route p c a p') :
      Next route p c (.ok a, p'.sequencer route)

theorem next_start (p : BootPhase) : Next route p .start ((p.sequencer route).call .start) := by
  cases p with
  | fresh => exact .granted _ _ .start
  | running r => cases r <;> exact .refused .alreadyStarted nofun
  | returned r => cases r <;> exact .refused .alreadyStarted nofun
  | ready => exact .refused .alreadyStarted nofun

theorem call_redeem (route : BootRoute) (r : OuterRing) :
    ((running r).sequencer route).call (.redeem (route.continuations.get r)) =
      (.ok (.goOnAt (route.continuations.get r)), (returned r).sequencer route) := by
  have hpending : ((running r).sequencer route).pending = some (route.continuations.get r) := rfl
  rw [Sequencer.call, Sequencer.redeem, if_pos hpending]
  rfl

theorem next_redeem (p : BootPhase) (token : Word) :
    Next route p (.redeem token) ((p.sequencer route).call (.redeem token)) := by
  have hinvalid (h : (p.sequencer route).pending ≠ some token) :
      Next route p (.redeem token) ((p.sequencer route).call (.redeem token)) := by
    rw [Sequencer.call, Sequencer.redeem, if_neg h]
    exact .refused _ nofun
  cases p with
  | running r =>
    by_cases htoken : route.continuations.get r = token
    · subst htoken
      rw [call_redeem route r]
      exact .granted _ _ (.redeem r)
    · exact hinvalid fun h => htoken (Option.some.inj h)
  | fresh => exact hinvalid nofun
  | returned r => exact hinvalid nofun
  | ready => exact hinvalid nofun

theorem next_proceed (p : BootPhase) (stage : Stage) :
    Next route p (.proceed stage) ((p.sequencer route).call (.proceed stage)) := by
  by_cases hready : (p.sequencer route).stage = .ready
  · rw [Sequencer.call, Sequencer.proceed, if_pos hready]
    exact .refused _ nofun
  · by_cases hbad : stage ≠ (p.sequencer route).stage ∨ (p.sequencer route).pending.isSome
    · rw [Sequencer.call, Sequencer.proceed, if_neg hready, if_pos hbad]
      exact .refused _ nofun
    · obtain ⟨hstage, hpending⟩ := not_or.1 hbad
      obtain rfl := Decidable.not_not.1 hstage
      cases p with
      | fresh => exact .granted _ _ .proceedCore
      | running r => exact absurd rfl hpending
      | returned r =>
        cases r with
        | devs =>
          have next : OuterRing.devs.stage.next? = some .libs := rfl
          exact .granted _ _ (.proceed next)
        | libs =>
          have next : OuterRing.libs.stage.next? = some .users := rfl
          exact .granted _ _ (.proceed next)
        | users => exact .granted _ _ .finish
      | ready => exact absurd rfl hready

/-- **One call leaves the phase, or moves on to the next one.** -/
theorem call_cases (route : BootRoute) (p : BootPhase) (c : BootCall) :
    Next route p c ((p.sequencer route).call c) := by
  cases c with
  | start => exact next_start p
  | redeem token => exact next_redeem p token
  | proceed stage => exact next_proceed p stage

end BootPhase

/-! ### Runs -/

/-- What holds of the calls that were made on a new sequencer. -/
structure OrderlyBoot (route : BootRoute) (h : BootHistory) : Prop where
  /-- The steps are taken in their order. -/
  steps : h.steps <+: route.steps
  /-- No stage is reached twice. -/
  once : (h.steps.map (·.stage)).Nodup
  /-- Between two steps one token is redeemed, the one of the ring that was entered; none is
  redeemed before the first step and none after the last. -/
  answers : h.answers <+: route.script
  /-- The core goes on at the address that was presented. -/
  token (c : BootCall) (address : Word) : (c, .ok (.goOnAt address)) ∈ h → c = .redeem address
  /-- No ring is ever found to have been entered before. -/
  reentry (c : BootCall) (stage : Stage) : (c, .error (.ringReentered stage)) ∉ h

namespace BootPhase

variable {route : BootRoute}

/-- Every run ends in a phase. -/
theorem exists_run_eq (route : BootRoute) (p : BootPhase) (calls : List BootCall) :
    ∃ p' : BootPhase, (p.sequencer route).run calls = p'.sequencer route := by
  induction calls generalizing p with
  | nil => exact ⟨p, rfl⟩
  | cons c calls ih =>
    have hcall := call_cases route p c
    rw [Sequencer.run_cons]
    generalize (p.sequencer route).call c = result at hcall ⊢
    cases hcall with
    | refused e _ => exact ih p
    | granted a p' _ => exact ih p'

/-- A refused call leaves the sequencer. -/
theorem call_of_error {p : BootPhase} {c : BootCall} {e : SequenceError}
    (h : ((p.sequencer route).call c).1 = .error e) :
    ((p.sequencer route).call c).2 = p.sequencer route := by
  have hcall := call_cases route p c
  generalize (p.sequencer route).call c = result at hcall h ⊢
  cases hcall with
  | refused e _ => rfl
  | granted a p' _ => cases h

/-- The answers from a phase on are what is left to do, up to some point. -/
theorem answers_prefix (p : BootPhase) (calls : List BootCall) :
    ((p.sequencer route).history calls).answers <+: p.rest route := by
  induction calls generalizing p with
  | nil => exact List.nil_prefix
  | cons c calls ih =>
    have hcall := call_cases route p c
    rw [Sequencer.history, BootHistory.answers]
    generalize (p.sequencer route).call c = result at hcall ⊢
    cases hcall with
    | refused e _ => exact ih p
    | granted a p' move =>
      rw [move.rest_eq]
      exact List.cons_prefix_cons.2 ⟨rfl, ih p'⟩

/-- What every call from a phase on satisfies, whatever the calls before it. -/
theorem forall_mem_history (route : BootRoute) (p : BootPhase) (calls : List BootCall) :
    ∀ x ∈ (p.sequencer route).history calls,
      (∀ address, x.2 = .ok (.goOnAt address) → x.1 = .redeem address) ∧
        ∀ stage, x.2 ≠ .error (.ringReentered stage) := by
  induction calls generalizing p with
  | nil => exact fun x hx => absurd hx List.not_mem_nil
  | cons c calls ih =>
    have hcall := call_cases route p c
    rw [Sequencer.history]
    generalize (p.sequencer route).call c = result at hcall ⊢
    cases hcall with
    | refused e honce =>
      refine List.forall_mem_cons.2 ⟨⟨nofun, fun stage h => ?_⟩, ih p⟩
      exact honce stage (Except.error.inj h)
    | granted a p' move =>
      refine List.forall_mem_cons.2 ⟨⟨fun address h => ?_, nofun⟩, ih p'⟩
      obtain rfl := Except.ok.inj h
      exact move.eq_redeem

end BootPhase

/-- The calls of a boot in which every ring hands its token back. -/
def BootRoute.calls (route : BootRoute) : List BootCall :=
  .start :: OuterRing.all.flatMap fun r =>
    [.redeem (route.continuations.get r), .proceed r.stage]

/-- The boot comes to its end if every ring hands its token back. -/
theorem BootRoute.answers_calls (route : BootRoute) :
    (Sequencer.history { route } route.calls).answers = route.script := by
  have hstart : (BootPhase.fresh.sequencer route).call .start =
      (.ok (.step (route.entry .devs)), (BootPhase.running .devs).sequencer route) := rfl
  have hlibs : ((BootPhase.returned .devs).sequencer route).call (.proceed .devs) =
      (.ok (.step (route.entry .libs)), (BootPhase.running .libs).sequencer route) := rfl
  have husers : ((BootPhase.returned .libs).sequencer route).call (.proceed .libs) =
      (.ok (.step (route.entry .users)), (BootPhase.running .users).sequencer route) := rfl
  have hmain : ((BootPhase.returned .users).sequencer route).call (.proceed .users) =
      (.ok (.step (.enterMainTask SelectorMap.mainTask)), BootPhase.ready.sequencer route) := rfl
  have hredeem := BootPhase.call_redeem route
  change ((BootPhase.fresh.sequencer route).history (.start ::
    .redeem (route.continuations.get .devs) :: .proceed .devs ::
    .redeem (route.continuations.get .libs) :: .proceed .libs ::
    .redeem (route.continuations.get .users) :: [.proceed .users])).answers = _
  rw [Sequencer.answers_history_cons hstart, Sequencer.answers_history_cons (hredeem .devs),
    Sequencer.answers_history_cons hlibs, Sequencer.answers_history_cons (hredeem .libs),
    Sequencer.answers_history_cons husers, Sequencer.answers_history_cons (hredeem .users),
    Sequencer.answers_history_cons hmain]
  rfl

/-- **The boot goes through its script in order.** Whatever is called on a new sequencer, its
answers are the script up to some point, no ring is entered twice, and a refused call changes
nothing; and the whole script is gone through if every ring hands its token back. -/
theorem boot_in_order (route : BootRoute) (calls : List BootCall) :
    OrderlyBoot route (Sequencer.history { route } calls) ∧
      (∀ c e, ((Sequencer.run { route } calls).call c).1 = .error e →
        ((Sequencer.run { route } calls).call c).2 = Sequencer.run { route } calls) ∧
      (Sequencer.history { route } route.calls).answers = route.script := by
  have hanswers : (Sequencer.history { route } calls).answers <+: route.script :=
    BootPhase.answers_prefix .fresh calls
  have hsteps : (Sequencer.history { route } calls).steps <+: route.steps := by
    rw [← route.steps_script]
    exact hanswers.filterMap _
  have hall := BootPhase.forall_mem_history route .fresh calls
  obtain ⟨p, hp⟩ : ∃ p : BootPhase, Sequencer.run { route } calls = p.sequencer route :=
    BootPhase.exists_run_eq route .fresh calls
  have hrefused : ∀ c e, ((Sequencer.run { route } calls).call c).1 = .error e →
      ((Sequencer.run { route } calls).call c).2 = Sequencer.run { route } calls := by
    intro c e h
    rw [hp] at h ⊢
    exact BootPhase.call_of_error h
  refine ⟨⟨hsteps, ?_, hanswers, ?_, ?_⟩, hrefused, route.answers_calls⟩
  · have hstages := (hsteps.map (·.stage)).sublist
    rw [route.stages_steps] at hstages
    exact hstages.nodup (by decide)
  · exact fun c address h => (hall _ h).1 address rfl
  · exact fun c stage h => (hall _ h).2 stage rfl

end FourRings
