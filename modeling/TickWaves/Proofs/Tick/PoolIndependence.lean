import TickWaves.Proofs.Tick.Progress
import TickWaves.Proofs.Tick.RaceFreedom
import TickWaves.Proofs.Tick.Script

/-!
# The pool has no part in the report

If the bodies follow a script, then a tick reports what the script tells, on the thread
that runs it as well as on any number of workers, in whatever order the threads take their
steps and whichever systems are bound to the coordinating thread (`reportsAlike_of_follows`).
In the midst of a wave the token is set as soon as one of the finished bodies sets it, but
it is looked at between waves only, and then it is what the script tells
(`State.IsOnCourse`).
-/

namespace TickWaves

universe u v

/-- Bodies end as a script says, and nothing else sets the token. -/
def Conduct.ofScript (script : Nat → Ending × Bool) : Conduct where
  ends node ending cancels := script node = (ending, cancels)
  interrupts := False

def Event.IsIn (script : Nat → Ending × Bool) : Event Nat → Prop
  | .began _ => True
  | .ended node ending cancels => script node = (ending, cancels)

namespace Interleaving

variable {β : Type u} {plan : Plan β} {script : Nat → Ending × Bool} {start : Bool}
variable {state state' : State}

section Events

variable {event? : Option (Event Nat)}

theorem isIn_of_crewStep {crew crew' : Crew Nat}
    (hstep : Crew.Step (Conduct.ofScript script).ends crew event? crew') :
    ∀ event ∈ event?, event.IsIn script := by
  cases hstep with
  | finish _ hends =>
      rintro event ⟨⟩
      exact hends
  | begin _ =>
      rintro event ⟨⟩
      trivial
  | take _ _ => exact fun event hevent => nomatch hevent
  | reply _ => exact fun event hevent => nomatch hevent
  | leave _ _ _ => exact fun event hevent => nomatch hevent

/-- The token is set by what is seen, and by nothing else. -/
theorem Step.seen (hstep : Step plan (.ofScript script) state state') :
    ∃ event? : Option (Event Nat), state'.log = state.log ++ event?.toList ∧
      state'.token = (state.token || event?.any Event.cancels) ∧
        ∀ event ∈ event?, event.IsIn script := by
  have hsilent : ∀ {last : State}, last.log = state.log → last.token = state.token →
      ∃ event? : Option (Event Nat), last.log = state.log ++ event?.toList ∧
        last.token = (state.token || event?.any Event.cancels) ∧
          ∀ event ∈ event?, event.IsIn script :=
    fun hlog htoken => ⟨none, hlog.trans (List.append_nil _).symm,
      htoken.trans (Bool.or_false _).symm, fun _ hevent => nomatch hevent⟩
  cases hstep with
  | stop _ _ _ => exact hsilent rfl rfl
  | done _ _ => exact hsilent rfl rfl
  | start _ _ _ => exact hsilent rfl rfl
  | hand _ => exact hsilent rfl rfl
  | turn _ => exact hsilent rfl rfl
  | @enter node _ _ =>
      refine ⟨some (.began node), rfl, rfl, ?_⟩
      rintro event ⟨⟩
      trivial
  | @leave node _ ending cancels _ hends =>
      refine ⟨some (.ended node ending cancels), rfl, rfl, ?_⟩
      rintro event ⟨⟩
      exact hends
  | wait _ => exact hsilent rfl rfl
  | fetch _ _ _ _ => exact hsilent rfl rfl
  | settle _ _ => exact hsilent rfl rfl
  | work hcrew => exact ⟨_, rfl, rfl, isIn_of_crewStep hcrew⟩
  | interrupt hinterrupts => exact hinterrupts.elim

/-- A step within a wave or between two waves moves one system at most. -/
theorem Effect.exists_moves (heffect : Effect plan state state')
    (hopen : state'.phase.isOpen = state.phase.isOpen) :
    ∃ event? : Option (Event Nat), Tally.Moves event? state.tally state'.tally ∧
      state'.log = state.log ++ event?.toList ∧ State.Keeps state state' := by
  cases heffect with
  | moved event? hmoves hlog hkeeps => exact ⟨event?, hmoves, hlog, hkeeps⟩
  | opened hphase _ =>
      rw [hphase] at hopen
      exact absurd (hopen.symm.trans (Phase.isOpen_opening plan _)) Bool.false_ne_true
  | closed hphase _ =>
      rw [hphase] at hopen
      exact absurd hopen Bool.false_ne_true

theorem eq_none_of_moves {before after : Tally Nat} (hmoves : Tally.Moves event? before after)
    (hnone : before.total = 0) : event? = none := by
  rw [Tally.eq_zero_of_total_eq_zero hnone] at hmoves
  match event?, hmoves with
  | none, _ => rfl
  | some (.began unit), ⟨hunstarted, _, _⟩ =>
      exact absurd hunstarted (Multiset.zero_ne_cons)
  | some (.ended unit _ _), ⟨_, hunderway, _⟩ =>
      exact absurd hunderway (Multiset.zero_ne_cons)

theorem answered_of_moves {before after : Tally Nat} (hmoves : Tally.Moves event? before after)
    (hseen : ∀ event ∈ event?, event.IsIn script)
    (hanswered : ∀ answer ∈ before.answers, answer.2 = (script answer.1).1.result) :
    ∀ answer ∈ after.answers, answer.2 = (script answer.1).1.result := by
  match event?, hmoves with
  | none, hmoves =>
      rw [hmoves]
      exact hanswered
  | some (.began _), ⟨_, _, hanswers⟩ =>
      rw [hanswers]
      exact hanswered
  | some (.ended node ending cancels), ⟨_, _, hanswers⟩ =>
      have hscript : script node = (ending, cancels) := hseen _ rfl
      rw [hanswers]
      intro answer hanswer
      rcases Multiset.mem_cons.mp hanswer with rfl | hold
      · rw [hscript]
      · exact hanswered answer hold

/-- The token tells whether one of the bodies that ended sets it. -/
theorem token_of_moves {before after : Tally Nat} (hmoves : Tally.Moves event? before after)
    (hseen : ∀ event ∈ event?, event.IsIn script) {token : Bool}
    (htoken : token = true ↔ ∃ answer ∈ before.answers, (script answer.1).2 = true) :
    (token || event?.any Event.cancels) = true ↔
      ∃ answer ∈ after.answers, (script answer.1).2 = true := by
  match event?, hmoves with
  | none, hmoves => rw [hmoves, ← htoken, Option.any_none, Bool.or_false]
  | some (.began _), ⟨_, _, hanswers⟩ =>
      rw [hanswers, ← htoken, Option.any_some, Event.cancels, Bool.or_false]
  | some (.ended node ending cancels), ⟨_, _, hanswers⟩ =>
      have hscript : script node = (ending, cancels) := hseen _ rfl
      rw [hanswers, Option.any_some, Event.cancels, Bool.or_eq_true, htoken]
      simp only [Multiset.mem_cons, exists_eq_or_imp, hscript]
      exact or_comm

end Events

/-- Between two waves a tick stands where the script tells. -/
structure State.IsBetween (plan : Plan β) (script : Nat → Ending × Bool) (start : Bool)
    (state : State) : Prop where
  runnable : state.runnable = []
  fates : Settled.fates state.settled = plan.scriptedFates script state.wavesRun
  token : state.token = plan.scriptedToken script start state.wavesRun

/-- In the midst of a wave, what was decided before it is what the script tells, and the
token tells whether one of the bodies that ended sets it. -/
structure State.IsWithin (plan : Plan β) (script : Nat → Ending × Bool) (start : Bool)
    (wave : Wave) (earlier : List Settled) (state : State) : Prop where
  begun : plan.waves[state.wavesRun]? = some wave
  fates : Settled.fates earlier = plan.scriptedFates script state.wavesRun
  settled : state.settled = earlier ++ wave.nodes.filterMap (plan.skip? earlier)
  runnable : state.runnable = plan.scriptedRunnable script state.wavesRun wave
  clear : plan.scriptedToken script start state.wavesRun = false
  token : state.token = true ↔ ∃ answer ∈ state.tally.answers, (script answer.1).2 = true

structure State.IsOnCourse (plan : Plan β) (script : Nat → Ending × Bool) (start : Bool)
    (state : State) : Prop where
  accounted : (state.runnable : Multiset Nat) = state.tally.total
  answered : ∀ answer ∈ state.tally.answers, answer.2 = (script answer.1).1.result
  within : state.wavesRun ≤ plan.waves.length
  clear : ∀ index < state.wavesRun, plan.scriptedToken script start index = false
  between : state.phase.isOpen = false → state.IsBetween plan script start
  during : state.phase.isOpen = true →
    ∃ wave earlier, state.IsWithin plan script start wave earlier
  concluded : ∀ isCancelled, state.phase = .finished isCancelled →
    state.wavesRun = plan.scriptedCount script start ∧
      isCancelled = decide (state.wavesRun < plan.waves.length)

theorem State.isOnCourse_start (plan : Plan β) (script : Nat → Ending × Bool) (size : Nat)
    (start : Bool) : (State.start size start).IsOnCourse plan script start := by
  have htally := State.tally_start size start
  constructor
  · rw [htally]
    rfl
  · rw [htally]
    exact fun _ hanswer => absurd hanswer (Multiset.notMem_zero _)
  · exact Nat.zero_le _
  · exact fun index hlt => absurd hlt (Nat.not_lt_zero index)
  · exact fun _ => ⟨rfl, rfl, rfl⟩
  · exact fun hopen => absurd hopen Bool.false_ne_true
  · exact fun _ hphase => nomatch hphase

theorem fates_closed (state : State) (node : Nat) :
    Settled.fates state.closed.settled node =
      (Settled.fates state.settled node).or
        (if node ∈ state.runnable then
          (state.results.lookup node).map Plan.statusOf
        else none) := by
  rw [State.closed, Settled.fates_append]
  congr 1
  rw [← Settled.fates_filterMap state.runnable fun other =>
    (state.results.lookup other).map Plan.statusOf]
  congr 1
  apply List.filterMap_congr
  intro other _
  rw [Option.map_map]
  rfl

namespace State.IsOnCourse

variable (hcourse : state.IsOnCourse plan script start)
include hcourse

/-- A step that begins and ends no wave keeps to the course. -/
theorem moved {event? : Option (Event Nat)} (hmoves : Tally.Moves event? state.tally state'.tally)
    (htoken : state'.token = (state.token || event?.any Event.cancels))
    (hseen : ∀ event ∈ event?, event.IsIn script) (hkeeps : State.Keeps state state')
    (hover : ∀ isCancelled, state'.phase = .finished isCancelled →
      state.phase = .finished isCancelled) : state'.IsOnCourse plan script start := by
  obtain ⟨hsettled, hwavesRun, hrunnable, hopen⟩ := hkeeps
  constructor
  · rw [hrunnable, hcourse.accounted, hmoves.total_eq]
  · exact answered_of_moves hmoves hseen hcourse.answered
  · rw [hwavesRun]
    exact hcourse.within
  · rw [hwavesRun]
    exact hcourse.clear
  · intro hclosed
    have hbetween := hcourse.between (hopen.symm.trans hclosed)
    have hnone : event? = none := by
      apply eq_none_of_moves hmoves
      rw [← hcourse.accounted, hbetween.runnable]
      rfl
    rw [hnone, Option.any_none, Bool.or_false] at htoken
    constructor
    · rw [hrunnable, hbetween.runnable]
    · rw [hsettled, hwavesRun, hbetween.fates]
    · rw [htoken, hwavesRun, hbetween.token]
  · intro hopened
    obtain ⟨wave, earlier, hduring⟩ := hcourse.during (hopen.symm.trans hopened)
    refine ⟨wave, earlier, ?_⟩
    constructor
    · rw [hwavesRun, hduring.begun]
    · rw [hwavesRun, hduring.fates]
    · rw [hsettled, hduring.settled]
    · rw [hrunnable, hwavesRun, hduring.runnable]
    · rw [hwavesRun, hduring.clear]
    · rw [htoken]
      exact token_of_moves hmoves hseen hduring.token
  · intro isCancelled hphase
    rw [hwavesRun]
    exact hcourse.concluded isCancelled (hover isCancelled hphase)

theorem between_of_gate (hphase : state.phase = .gate) : state.IsBetween plan script start := by
  apply hcourse.between
  rw [hphase]
  rfl

/-- A tick ends where the script tells. -/
theorem finish {isCancelled : Bool} (hphase : state.phase = .gate)
    (hlast : isCancelled = false ∧ plan.waves[state.wavesRun]? = none ∨
      isCancelled = true ∧ state.token = true ∧ (plan.waves[state.wavesRun]?).isSome) :
    State.IsOnCourse plan script start { state with phase := .finished isCancelled } := by
  have hbetween := hcourse.between_of_gate hphase
  have htally : State.tally { state with phase := .finished isCancelled } = state.tally := by
    rw [State.tally, State.tally, hphase]
    rfl
  constructor
  · rw [htally]
    exact hcourse.accounted
  · rw [htally]
    exact hcourse.answered
  · exact hcourse.within
  · exact hcourse.clear
  · exact fun _ => ⟨hbetween.runnable, hbetween.fates, hbetween.token⟩
  · exact fun hopen => absurd hopen Bool.false_ne_true
  · rintro _ ⟨⟩
    change state.wavesRun = _ ∧ _ = decide (state.wavesRun < _)
    rcases hlast with ⟨rfl, hnone⟩ | ⟨rfl, htoken, hsome⟩
    · have hlength := Nat.le_antisymm hcourse.within (List.getElem?_eq_none_iff.mp hnone)
      refine ⟨Plan.eq_scriptedCount hcourse.clear (Or.inl hlength), ?_⟩
      rw [hlength, decide_eq_false (Nat.lt_irrefl _)]
    · have hlt : state.wavesRun < plan.waves.length := by
        simpa using hsome
      rw [hbetween.token] at htoken
      exact ⟨Plan.eq_scriptedCount hcourse.clear (Or.inr ⟨hlt, htoken⟩),
        (decide_eq_true hlt).symm⟩

/-- A wave begins with the systems that the script lets run. -/
theorem opened {wave : Wave} (hphase : state.phase = .gate)
    (hwave : plan.waves[state.wavesRun]? = some wave) (htoken : state.token = false) :
    (state.opened plan wave.nodes).IsOnCourse plan script start := by
  have hbetween := hcourse.between_of_gate hphase
  have hnone : state.tally = 0 := by
    apply Tally.eq_zero_of_total_eq_zero
    rw [← hcourse.accounted, hbetween.runnable]
    rfl
  have htally := tally_opened plan hphase wave.nodes
  rw [hnone, zero_add] at htally
  have hopen : (state.opened plan wave.nodes).phase.isOpen = true := Phase.isOpen_opening plan _
  have hanswers : (state.opened plan wave.nodes).tally.answers = 0 := by
    rw [htally]
    rfl
  constructor
  · rw [htally]
    simp [Tally.total, Tally.ofUnstarted]
  · rw [hanswers]
    exact fun _ hanswer => absurd hanswer (Multiset.notMem_zero _)
  · exact hcourse.within
  · exact hcourse.clear
  · intro hclosed
    exact absurd (hclosed.symm.trans hopen) Bool.false_ne_true
  · refine fun _ => ⟨wave, state.settled, hwave, hbetween.fates, rfl, ?_, ?_, ?_⟩
    · simp only [State.opened, Plan.scriptedRunnable, Plan.blocker?_eq_blockerBy, hbetween.fates]
    · exact hbetween.token.symm.trans htoken
    · rw [hanswers]
      simpa [State.opened] using htoken
  · intro isCancelled hfinished
    rw [hfinished] at hopen
    exact absurd hopen Bool.false_ne_true

/-- A wave ends with the decisions of the script, and with the token as the script sets it. -/
theorem closed (hlinked : state.IsLinked) (hphase : state.phase = .waiting)
    (hhandles : state.handles = []) : state.closed.IsOnCourse plan script start := by
  obtain ⟨htally, hclosed⟩ := hlinked.tally_of_waiting hphase hhandles
  obtain ⟨wave, earlier, hduring⟩ := hcourse.during (by rw [hphase]; rfl)
  have hresults : (state.runnable : Multiset Nat) = (state.results.map Prod.fst : List Nat) := by
    rw [hcourse.accounted, htally]
    simp [Tally.total, Tally.ofAnswers]
  have hkeys : ∀ node, node ∈ state.results.map Prod.fst ↔ node ∈ state.runnable := by
    intro node
    rw [← Multiset.mem_coe, ← hresults, Multiset.mem_coe]
  have hanswered : ∀ answer ∈ state.results, answer.2 = (script answer.1).1.result := by
    have hanswered := hcourse.answered
    rw [htally] at hanswered
    exact hanswered
  have hlookup : ∀ node ∈ state.runnable,
      state.results.lookup node = some (script node).1.result := by
    intro node hnode
    obtain ⟨result, hresult⟩ := exists_lookup_eq_some ((hkeys node).mpr hnode)
    exact hresult.trans (congrArg some (hanswered _ (mem_of_lookup_eq_some hresult)))
  have htoken : state.token = true ↔ ∃ node ∈ state.runnable, (script node).2 = true := by
    rw [hduring.token, htally]
    simp only [← hkeys, List.mem_map, exists_exists_and_eq_and]
    rfl
  constructor
  · rw [hclosed]
    rfl
  · rw [hclosed]
    exact fun _ hanswer => absurd hanswer (Multiset.notMem_zero _)
  · exact (List.getElem?_eq_some_iff.mp hduring.begun).1
  · intro index hlt
    rcases Nat.lt_succ_iff_lt_or_eq.mp hlt with hearlier | rfl
    · exact hcourse.clear index hearlier
    · exact hduring.clear
  · intro _
    constructor
    · rfl
    · funext node
      have hpass := plan.pass_eq_or (fun node => (script node).1.result) wave.nodes earlier node
      change _ = plan.fatesAfter _ (state.wavesRun + 1) node
      rw [Plan.fatesAfter_succ hduring.begun]
      change _ = plan.pass _ _ (plan.scriptedFates script state.wavesRun) node
      have hrunnable : state.runnable =
          wave.nodes.filter fun other => (plan.blocker? earlier other).isNone := by
        simp only [hduring.runnable, Plan.scriptedRunnable, ← hduring.fates]
        rfl
      rw [← hduring.fates, hpass, fates_closed, hduring.settled, Settled.fates_append,
        ← hrunnable]
      congr 1
      split
      case isTrue hnode => rw [hlookup node hnode, Option.map_some]
      case isFalse => rfl
    · change state.token = plan.scriptedToken script start (state.wavesRun + 1)
      rw [Plan.scriptedToken_succ hduring.begun, hduring.clear, Bool.false_or,
        ← hduring.runnable, Bool.eq_iff_iff, htoken, List.any_eq_true]
  · exact fun hopen => absurd hopen Bool.false_ne_true
  · intro _ hphase
    cases hphase

/-- Every step keeps to the course. -/
theorem step (hstep : Step plan (.ofScript script) state state') (hlinked : state.IsLinked) :
    state'.IsOnCourse plan script start := by
  have hmoved : state'.phase.isOpen = state.phase.isOpen →
      (∀ isCancelled, state'.phase = .finished isCancelled →
        state.phase = .finished isCancelled) → state'.IsOnCourse plan script start := by
    intro hopen hover
    obtain ⟨event?, hlog, htoken, hseen⟩ := hstep.seen
    obtain ⟨moved?, hmoves, hlog', hkeeps⟩ := (hstep.effect hlinked).exists_moves hopen
    have hsame := congrArg List.head? (List.append_cancel_left (hlog'.symm.trans hlog))
    rw [Option.head?_toList, Option.head?_toList] at hsame
    obtain rfl : moved? = event? := hsame
    exact hcourse.moved hmoves htoken hseen hkeeps hover
  have hsame : ∀ {phase : Phase}, state.phase = phase → phase.isOpen = true →
      true = state.phase.isOpen := by
    rintro phase rfl hopen
    exact hopen.symm
  cases hstep with
  | stop hphase hwave htoken =>
      refine hcourse.finish hphase (Or.inr ⟨rfl, htoken, ?_⟩)
      rw [hwave]
      rfl
  | done hphase hnone => exact hcourse.finish hphase (Or.inl ⟨rfl, hnone⟩)
  | start hphase hwave htoken => exact hcourse.opened hphase hwave htoken
  | hand hphase => exact hmoved (hsame hphase rfl) fun _ hfinished => nomatch hfinished
  | turn hphase => exact hmoved (hsame hphase rfl) fun _ hfinished => nomatch hfinished
  | enter hphase => exact hmoved (hsame hphase rfl) fun _ hfinished => nomatch hfinished
  | leave hphase _ => exact hmoved (hsame hphase rfl) fun _ hfinished => nomatch hfinished
  | wait hphase => exact hmoved (hsame hphase rfl) fun _ hfinished => nomatch hfinished
  | fetch _ _ _ _ => exact hmoved rfl fun _ hfinished => hfinished
  | settle hphase hhandles => exact hcourse.closed hlinked hphase hhandles
  | work _ => exact hmoved rfl fun _ hfinished => hfinished
  | interrupt hinterrupts => exact hinterrupts.elim

end State.IsOnCourse

theorem Reachable.isOnCourse {size : Nat}
    (hreach : Reachable plan (.ofScript script) size start state) :
    state.IsOnCourse plan script start := by
  induction hreach with
  | refl => exact State.isOnCourse_start plan script size start
  | tail hreach hstep ih => exact ih.step hstep (Reachable.isLinked hreach)

def State.report (state : State) (plan : Plan β) (context : TickContext) (isCancelled : Bool) :
    Report where
  tick := context.tick
  generation := plan.generation
  outcomes := plan.outcomes state.settled
  wavesRun := state.wavesRun
  isCancelled := isCancelled

/-- However the threads take their steps, a tick that is over reports what the script
tells. -/
theorem State.IsOnCourse.untimed_report (hcourse : state.IsOnCourse plan script start)
    {isCancelled : Bool} (hphase : state.phase = .finished isCancelled) (context : TickContext) :
    (state.report plan context isCancelled).untimed =
      plan.scriptedReport script context start := by
  obtain ⟨hcount, hcancelled⟩ := hcourse.concluded isCancelled hphase
  have hfates := (hcourse.between (by rw [hphase]; rfl)).fates
  rw [Report.untimed, State.report, Plan.scriptedReport]
  simp only [Plan.map_untimed_outcomes, hfates, hcancelled, hcount]

end Interleaving

namespace Plan

open Interleaving

variable {β : Type u} {σ : Type v} [Behaviour β σ]

/-- A report is, apart from run times, what every tick with the given bodies and cancel
token ends with: on each pool that runs its units, with any number of workers, for every
order in which the threads take their steps, and whichever systems are bound to the
coordinating thread. -/
structure ReportsAlike (plan : Plan β) (context : TickContext) (token : σ → Bool)
    (act : β → Ending × Bool) (start : Bool) (report : Report) : Prop where
  execute : ∀ (flags : Nat → Bool) (pool : Pool) (workspace : Workspace σ), pool ≠ .closed →
    token workspace.shared = start →
      let actual := ((plan.flagged flags).execute pool context (fun _ => token) workspace).1
      actual.untimed = report ∧ actual.failures = report.failures
  interleaved : ∀ (flags : Nat → Bool) size state isCancelled,
    Reachable (plan.flagged flags) (.ofScript (plan.script act)) size start state →
      state.phase = .finished isCancelled →
        let actual := state.report (plan.flagged flags) context isCancelled
        actual.untimed = report ∧ actual.failures = report.failures
  proceeds : ∀ (flags : Nat → Bool) size state, 0 < size →
    Reachable (plan.flagged flags) (.ofScript (plan.script act)) size start state →
      (∀ isCancelled, state.phase ≠ .finished isCancelled) →
        ∃ state', Step (plan.flagged flags) (.ofScript (plan.script act)) state state'
  halts : ∀ (flags : Nat → Bool) size (run : Nat → State), 0 < size →
    run 0 = .start size start →
      ∃ moment, ¬ Step (plan.flagged flags) (.ofScript (plan.script act)) (run moment)
        (run (moment + 1))

/-- If how a body ends, and whether it sets the cancel token, depends on the tick alone,
then every tick reports what the script tells: neither the pool nor the order of the
threads' steps nor the binding of systems to the coordinating thread has a part in it. -/
theorem reportsAlike_of_follows {plan : Plan β}
    (hbound : ∀ wave ∈ plan.waves, ∀ node ∈ wave.nodes, node < plan.systems.length)
    {context : TickContext} {token : σ → Bool} {act : β → Ending × Bool}
    (hfollows : plan.Follows context token act) (start : Bool) :
    plan.ReportsAlike context token act start
      (plan.scriptedReport (plan.script act) context start) := by
  have hfailures : ∀ {actual report : Report}, actual.untimed = report →
      actual.untimed = report ∧ actual.failures = report.failures := by
    rintro actual report rfl
    exact ⟨rfl, actual.failures_untimed.symm⟩
  have hbound' : ∀ flags : Nat → Bool, ∀ wave ∈ (plan.flagged flags).waves,
      ∀ node ∈ wave.nodes, node < (plan.flagged flags).systems.length := by
    intro flags wave hwave node hnode
    rw [flagged, List.length_mapIdx]
    exact hbound wave hwave node hnode
  constructor
  · rintro flags pool workspace hopen rfl
    apply hfailures
    rw [untimed_execute_eq (hfollows.flagged flags) hopen (hbound' flags), script_flagged,
      scriptedReport_flagged]
  · intro flags size state isCancelled hreach hphase
    apply hfailures
    rw [hreach.isOnCourse.untimed_report hphase, scriptedReport_flagged]
  · intro flags size state hsize hreach hphase
    exact exists_step_of_reachable hsize (fun node => ⟨_, _, rfl⟩) hreach hphase
  · intro flags size run hsize hstart
    exact exists_not_step hsize (fun hinterrupts => hinterrupts) run hstart

/-- A body that ends as it is told, and may set the cancel token, which is all that the
systems share. -/
structure Errand where
  ending : Ending
  cancels : Bool

instance : Behaviour Errand Bool where
  run errand _ _ token := ⟨errand.ending, token || errand.cancels, .zero⟩

/-- A loader that fails and a guard that cancels the tick share the first wave; the systems
that wait for them are in the second one. -/
def errands : List (Descriptor Errand) :=
  [((Descriptor.ofBody "load" ⟨.failed ["no disk"], false⟩).withId ⟨1⟩).writing ⟨1⟩,
    (((Descriptor.ofBody "guard" ⟨.done, true⟩).withId ⟨2⟩).writing ⟨2⟩).mainThread,
    ((Descriptor.ofBody "show" ⟨.done, false⟩).withId ⟨3⟩).reading ⟨1⟩,
    ((Descriptor.ofBody "save" ⟨.panicked .other, false⟩).withId ⟨4⟩).reading ⟨2⟩]

def Errand.act (errand : Errand) : Ending × Bool := (errand.ending, errand.cancels)

theorem reportsAlike_of_follows_errands :
    ∃ plan report, build errands TagOrder.empty 1 = .ok plan ∧
      (∀ wave ∈ plan.waves, ∀ node ∈ wave.nodes, node < plan.systems.length) ∧
      plan.Follows ⟨1, 0⟩ (id : Bool → Bool) Errand.act ∧
      (report.wavesRun, report.outcomes.map fun outcome => (outcome.id, outcome.status)) =
        (1, [(⟨1⟩, .failed (.failed "no disk")), (⟨2⟩, .completed), (⟨3⟩, .cancelled),
          (⟨4⟩, .cancelled)]) ∧
      plan.ReportsAlike ⟨1, 0⟩ (id : Bool → Bool) Errand.act false report := by
  have hreport : (build errands TagOrder.empty 1).toOption.map (fun plan =>
      let report := plan.scriptedReport (plan.script Errand.act) ⟨1, 0⟩ false
      (report.wavesRun, report.outcomes.map fun outcome => (outcome.id, outcome.status))) =
        some (1, [(⟨1⟩, .failed (.failed "no disk")), (⟨2⟩, .completed), (⟨3⟩, .cancelled),
          (⟨4⟩, .cancelled)]) := by
    decide +kernel
  cases hbuild : build errands TagOrder.empty 1 with
  | error dependency =>
      rw [hbuild] at hreport
      cases hreport
  | ok plan =>
      rw [hbuild] at hreport
      have hbound : ∀ wave ∈ plan.waves, ∀ node ∈ wave.nodes, node < plan.systems.length :=
        fun _ hwave _ => node_lt_length_of_build hbuild hwave
      have hfollows : plan.Follows ⟨1, 0⟩ (id : Bool → Bool) Errand.act :=
        fun _ _ _ _ _ _ => ⟨rfl, rfl⟩
      exact ⟨plan, _, rfl, hbound, hfollows, Option.some.inj hreport,
        reportsAlike_of_follows hbound hfollows false⟩

end Plan

end TickWaves
