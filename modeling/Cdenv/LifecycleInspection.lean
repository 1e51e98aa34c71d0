import Cdenv.EventRun
import Cdenv.LifecycleDirectory

/-!
# Inspection beside a running lifecycle

An inspector reads the checkpoint and then probes the lock, two questions between which the
runner goes on. The runner is not killed, and its commands succeed.

Until it has loaded the checkpoint that it found, the runner writes nothing; from then on it
loads nothing and never writes a phase that says a group went wrong.
-/
namespace Cdenv.AgentLifecycle
open TextScan Fallible Interaction Program EventRun

inductive Side where
  | runner | inspector

/-- Both are programs over the same state directory, and an interleaving is the list of who asks
next. -/
structure Watch where
  runner : Runner LifecycleRunnerState
  inspector : Runner LifecycleInspection
  world : World
  /-- The checkpoint that the inspector has read. -/
  seen : Option LifecycleRunnerState

def noteLoaded (seen : Option LifecycleRunnerState) :
    (q : RunnerCall) → RunnerAnswer q → Option LifecycleRunnerState
  | .loadState, .ok state => some state
  | _, _ => seen

section
variable (course : Course)

namespace Watch
variable (c : Watch)

def answered (q : RunnerCall) (next : RunnerAnswer q → Runner LifecycleInspection) : Watch :=
  { c with
    inspector := next (c.world.reply course q).1
    world := (c.world.reply course q).2
    seen := noteLoaded c.seen q (c.world.reply course q).1 }

def step : Side → Option Watch
  | .runner =>
    match c.runner with
    | .done _ => none
    | .ask q next =>
      some { c with
        runner := next (c.world.reply course q).1, world := (c.world.reply course q).2 }
  | .inspector =>
    match c.inspector with
    | .done _ => none
    | .ask q next => some (c.answered course q next)

def probes : Prop :=
  match c.inspector with
  | .ask .tryLock _ => True
  | _ => False

/-- An inspector that has read a running checkpoint finds the lock taken. -/
def Heeds : Side → Prop
  | .runner => True
  | .inspector => c.probes → ∀ state, c.seen = some state → state.phase = .running →
      c.world.locked = true ∨ (course c.world.clock).lockTaken = true

end Watch

/-- A call of the runner and one of the inspector, before either has asked anything. -/
def Watch.start (agent : Agent) (pid : ℕ) (request : LifecycleRunRequest) (w : World) : Watch where
  runner := runLifecycle agent pid request
  inspector := inspectLifecycle agent request
  world := w
  seen := none

end

/-- The phase says that a group went wrong. -/
def LifecyclePhase.bad : LifecyclePhase → Bool
  | .failed | .indeterminate => true
  | .before | .running | .after | .cancelled | .complete => false

/-- The checkpoint, if there is one, says neither that a group went wrong nor that one runs. -/
def World.Calm (w : World) : Prop :=
  ∀ state, w.file = some state → state.phase.bad = false ∧ state.phase ≠ .running

def World.Steady (w : World) : Prop := ∀ state, w.file = some state → state.phase.bad = false

def Succeeds : (q : RunnerCall) → RunnerAnswer q → Prop
  | .executeCommand _ _ _, result => result = .ok ()
  | _, _ => True

def Harmless : RunnerCall → Prop
  | .loadState => False
  | .storeState state => state.phase.bad = false
  | _ => True

/-- With commands that succeed, the program loads nothing and writes no bad phase. -/
abbrev Careful {α : Type} (R : α → Prop) (m : Runner α) : Prop := Abides Succeeds Harmless R m

section
variable {req : LifecycleRunRequest} {state : LifecycleRunnerState}

theorem careful_storeState (h : state.phase.bad = false) :
    Careful (fun _ => True) (storeState state) :=
  abides_expect (abides_call h fun _ _ _ _ => trivial)

theorem careful_call (q : RunnerCall) (h : Harmless q) : Careful (fun _ => True) (call q) :=
  abides_call h fun _ _ => trivial

def Flow.Good : Flow → Prop
  | .finished _ => True
  | .through state => state.phase.bad = false

theorem careful_runCommands {stg : LifecycleStage} {cmds : List LifecycleCommand}
    (h : state.phase.bad = false) : Careful Flow.Good (runCommands stg cmds state) := by
  induction cmds generalizing state with
  | nil => exact h
  | cons cmd xs ih =>
    refine (careful_call .cancelExists trivial).bind fun can _ => ?_
    split
    · exact (careful_storeState rfl).bind fun _ _ => trivial
    · refine (careful_storeState rfl).bind fun _ _ => ?_
      refine Abides.bind (R := fun r : Except ExecutionFailure Unit => r = .ok ())
        (abides_call trivial fun _ hr => hr) ?_
      rintro _ rfl
      exact (careful_storeState rfl).bind fun _ _ => ih rfl

theorem careful_runStages {plans : List LifecycleStagePlan} (h : state.phase.bad = false) :
    Careful (fun _ => True) (runStages plans state) := by
  induction plans generalizing state with
  | nil =>
    refine (careful_storeState rfl).bind fun _ _ => ?_
    exact (careful_call .removeCancel trivial).bind fun _ _ => trivial
  | cons p xs ih =>
    unfold runStages
    refine (careful_runCommands h).bind ?_
    intro flow hf
    cases flow with
    | finished next => trivial
    | through next => exact (careful_storeState rfl).bind fun _ _ => ih rfl

theorem careful_resume {pid : ℕ} (h : state.phase.bad = false) (hr : state.phase ≠ .running) :
    Careful (fun _ => True) (resume pid req state) := by
  unfold resume
  split
  · exact abides_fail
  refine Abides.bind (R := fun next => next.phase.bad = false) ?_ ?_
  · unfold settleInterrupted
    rw [if_neg hr]
    exact h
  intro next hn
  split
  · exact abides_fail
  split
  · trivial
  refine (careful_storeState hn).bind fun _ _ => ?_
  refine Abides.bind (R := fun _ => True)
    (abides_expect (abides_call trivial fun _ _ _ _ => trivial)) fun _ _ => ?_
  exact careful_runStages hn

/-- The runner before it has its checkpoint: it writes none but the first, and after the
checkpoint is loaded or written it is careful. -/
def Opening {α : Type} : Runner α → Prop
  | .done _ => True
  | .ask q next =>
    match q, next with
    | .loadState, next => ∀ answer,
        (∀ state, answer = .ok state → state.phase.bad = false ∧ state.phase ≠ .running) →
          Careful (fun _ => True) (next answer)
    | .storeState state, next =>
      state.phase.bad = false ∧ ∀ answer, Careful (fun _ => True) (next answer)
    | .executeCommand _ _ _, _ => False
    | _, next => ∀ answer, Opening (next answer)

theorem opening_runLifecycle {agent : Agent} {pid : ℕ} : Opening (runLifecycle agent pid req) := by
  unfold runLifecycle checked
  cases validateRequest agent req with
  | error e => trivial
  | ok u =>
    rintro (fl | _)
    · trivial
    rintro (fl | _)
    · trivial
    rintro (_ | _)
    · trivial
    rintro (_ | _)
    · -- No checkpoint was there: the first one is written.
      refine ⟨rfl,?_⟩
      rintro (fl | _)
      · exact ⟨trivial,fun _ _ => trivial⟩
      · exact Abides.always (careful_resume rfl nofun) trivial
    · rintro (fl | state) hl
      · exact ⟨trivial,fun _ _ => trivial⟩
      · obtain ⟨hp,hr⟩ := hl state rfl
        exact Abides.always (careful_resume hp hr) trivial

/-- The checkpoint never says that a group went wrong, and the runner keeps it so. -/
structure Watch.Sound (c : Watch) : Prop where
  steady : c.world.Steady
  runner : Careful (fun _ => True) c.runner ∨ c.world.Calm ∧ Opening c.runner

variable {cs : Course} {c d : Watch} {w : World} {q : RunnerCall}

theorem World.Calm.steady (h : w.Calm) : w.Steady := fun state hf => (h state hf).1

theorem World.reply_file (h : ∀ state, q ≠ .storeState state) : (w.reply cs q).2.file = w.file := by
  cases q with
  | storeState state => exact absurd rfl (h state)
  | writeCancel =>
    simp only [World.reply,Moment.answer]
    split_ifs <;> rfl
  | _ => rfl

theorem World.steady_reply (h : w.Steady)
    (hs : ∀ state, q = .storeState state → state.phase.bad = false) :
    (w.reply cs q).2.Steady := by
  by_cases hq : ∀ state, q ≠ .storeState state
  · unfold World.Steady
    rw [World.reply_file hq]
    exact h
  · obtain ⟨state,hq⟩ := not_forall.mp hq
    cases not_not.mp hq
    simp only [World.reply,Moment.answer]
    split_ifs
    · intro fs hf
      cases hf
      exact hs state rfl
    · exact h

variable {schedule : List Side} {fin : Watch} {insp : LifecycleInspection}
variable {next : RunnerAnswer q → Runner LifecycleInspection}

section
variable (hru : run (Watch.step cs) c schedule = some fin)
include hru

/-- An inspector that has returned says no more. -/
theorem Watch.done_run {r : Except LifecycleError LifecycleInspection}
    (hdo : c.inspector = .done r) :
    fin.inspector = .done r ∧ Along (Watch.step cs) (Watch.Heeds cs) c schedule := by
  induction schedule generalizing c with
  | nil =>
    cases hru
    exact ⟨hdo,trivial⟩
  | cons side xs ih =>
    obtain ⟨d,hs,hr⟩ := run_cons.mp hru
    cases side with
    | inspector =>
      simp only [Watch.step,hdo] at hs
      cases hs
    | runner =>
      have hd : d.inspector = c.inspector := by
        simp only [Watch.step] at hs
        split at hs <;> cases hs
        rfl
      obtain ⟨hf,ha⟩ := ih hr (hd.trans hdo)
      refine ⟨hf,?_⟩
      rw [Along,hs]
      exact ⟨trivial,ha⟩

theorem Watch.not_failed (hdo : fin.inspector = .done (.ok insp)) {e : LifecycleError}
    (hfa : c.inspector = .done (.error e)) : False := by
  have hf := (Watch.done_run hru hfa).1
  rw [hdo] at hf
  cases hf

end

/-- A question of the inspector leaves the runner's side as it is. -/
theorem Watch.Sound.answered (h : c.Sound) (hq : ∀ state, q ≠ .storeState state) :
    (c.answered cs q next).Sound := by
  have hf := @World.reply_file cs c.world q hq
  refine ⟨?_,h.runner.imp id fun ho => ⟨?_,ho.2⟩⟩
  · unfold World.Steady
    rw [Watch.answered,hf]
    exact h.steady
  · unfold World.Calm
    rw [Watch.answered,hf]
    exact ho.1

theorem Watch.answered_inspector {answer : RunnerAnswer q} (h : (c.world.reply cs q).1 = answer) :
    (c.answered cs q next).inspector = next answer :=
  congrArg next h

theorem Watch.heeds_of_ne (ha : c.inspector = .ask q next) (hq : q ≠ .tryLock) :
    c.Heeds cs .inspector := by
  intro hp
  unfold Watch.probes at hp
  rw [ha] at hp
  split at hp
  · rename_i heq
    cases heq
    exact absurd rfl hq
  · exact hp.elim

/-- What the inspector makes of the checkpoint it has read and its probe. -/
def probing (state : LifecycleRunnerState) : Runner LifecycleInspection := do
  let runnerActive ← probeLock
  return ⟨visibleState state runnerActive,runnerActive⟩

def report (state : LifecycleRunnerState) (runnerActive : Bool) : LifecycleInspection :=
  ⟨visibleState state runnerActive,runnerActive⟩

/-- A probe that gets the lock has to drop it. -/
def afterProbe (state : LifecycleRunnerState) : Bool → Runner LifecycleInspection
  | true => .ask .unlock fun _ => .done (.ok (report state false))
  | false => .done (.ok (report state true))

theorem probing_eq : probing state = .ask .tryLock (afterProbe state) := by
  change Program.ask RunnerCall.tryLock _ = _
  congr 1
  funext locked
  cases locked <;> rfl

theorem visibleState_bad {runnerActive : Bool} (h : state.phase.bad = false) :
    (visibleState state runnerActive).phase.bad = true ↔
      state.phase = .running ∧ runnerActive = false := by
  unfold visibleState
  split
  · rename_i ha
    simp only [ha,and_self,iff_true]
    unfold abandonedPhase
    split <;> rfl
  · rename_i hk
    simp [h,hk]

/-- At its probe the inspector heeds the order unless it read a running checkpoint and now
gets the lock. -/
theorem Watch.heeds_probing {next : Bool → Runner LifecycleInspection}
    (ha : c.inspector = .ask .tryLock next) (hs : c.seen = some state) :
    c.Heeds cs .inspector ↔ ¬(state.phase = .running ∧ (c.world.reply cs .tryLock).1 = true) := by
  have hp : c.probes := by
    unfold Watch.probes
    rw [ha]
    trivial
  simp only [Watch.Heeds,hp,hs,true_imp_iff,Option.some.injEq,forall_eq']
  simp only [World.reply,Moment.answer,World.tick]
  cases c.world.locked <;> cases (cs c.world.clock).lockTaken <;> simp

def afterOpen (state : LifecycleRunnerState) : Except AccessFailure Unit → Runner LifecycleInspection
  | .ok () => probing state
  | .error failure => .done (.error failure.toError)

def afterLoad (request : LifecycleRunRequest) :
    Except AccessFailure LifecycleRunnerState → Runner LifecycleInspection
  | .ok state =>
    if state.plan ≠ request then .done (.error .planMismatch) else .ask .openLock (afterOpen state)
  | .error failure => .done (.error failure.toError)

def afterPrepare (request : LifecycleRunRequest) :
    Except AccessFailure Unit → Runner LifecycleInspection
  | .ok () => .ask .loadState (afterLoad request)
  | .error failure => .done (.error failure.toError)

/-- The questions of the inspector, one by one. -/
theorem inspectLifecycle_eq {agent : Agent} (h : validateRequest agent req = .ok ()) :
    inspectLifecycle agent req = .ask .prepareDirectory (afterPrepare req) := by
  unfold inspectLifecycle checked
  rw [h]
  change Program.ask RunnerCall.prepareDirectory _ = _
  congr 1
  funext a
  cases a with
  | error e => rfl
  | ok u =>
    change Program.ask RunnerCall.loadState _ = Program.ask RunnerCall.loadState _
    congr 1
    funext a
    cases a with
    | error e => rfl
    | ok state =>
      by_cases hp : state.plan = req
      · change (if state.plan ≠ req then _ else _) = if state.plan ≠ req then _ else _
        rw [if_neg (not_not.mpr hp),if_neg (not_not.mpr hp)]
        change Program.ask RunnerCall.openLock _ = _
        congr 1
        funext a
        cases a <;> rfl
      · change (if state.plan ≠ req then _ else _) = if state.plan ≠ req then _ else _
        rw [if_pos hp,if_pos hp]
        rfl

section succeeding
variable (hex : ∀ n, (cs n).execution = .ok ())
include hex

theorem World.reply_succeeds (q : RunnerCall) : Succeeds q (w.reply cs q).1 := by
  cases q with
  | executeCommand i j cmd => exact hex _
  | _ => trivial

theorem Watch.sound_runner (h : c.Sound) (hst : c.step cs .runner = some d) :
    d.Sound ∧ d.inspector = c.inspector ∧ d.seen = c.seen := by
  obtain ⟨hs,hr⟩ := h
  simp only [Watch.step] at hst
  split at hst
  · cases hst
  rename_i q next ha
  cases hst
  refine ⟨?_,rfl,rfl⟩
  rw [ha] at hr
  rcases hr with ⟨hh,hn⟩ | ⟨hc,ho⟩
  · refine ⟨World.steady_reply hs ?_,.inl (hn _ (World.reply_succeeds hex q))⟩
    rintro state rfl
    exact hh
  · by_cases hl : q = .loadState
    · cases hl
      refine ⟨hs,.inl (ho _ fun state hlo => ?_)⟩
      exact hc state (Moment.loadState_eq_ok hlo)
    by_cases hso : ∃ state, q = .storeState state
    · obtain ⟨state,rfl⟩ := hso
      refine ⟨World.steady_reply hs ?_,.inl (ho.2 _)⟩
      rintro wr hw
      cases hw
      exact ho.1
    · have hf := @World.reply_file cs c.world q fun state hq => hso ⟨state,hq⟩
      refine ⟨?_,.inr ⟨?_,?_⟩⟩
      · unfold World.Steady
        rw [hf]
        exact hs
      · unfold World.Calm
        rw [hf]
        exact hc
      · cases q with
        | loadState => exact absurd rfl hl
        | storeState state => exact absurd ⟨state,rfl⟩ hso
        | executeCommand i j cmd => exact ho.elim
        | _ => exact ho _

variable (h : c.Sound) (hru : run (Watch.step cs) c schedule = some fin)
variable (hdo : fin.inspector = .done (.ok insp))
include h hru hdo

/-- Up to its next question the inspector is left alone. -/
theorem Watch.exists_asked (ha : c.inspector = .ask q next) :
    ∃ (d : Watch) (xs : List Side), d.Sound ∧ d.inspector = .ask q next ∧ d.seen = c.seen ∧
      run (Watch.step cs) (d.answered cs q next) xs = some fin ∧
      (Along (Watch.step cs) (Watch.Heeds cs) c schedule ↔ d.Heeds cs .inspector ∧
        Along (Watch.step cs) (Watch.Heeds cs) (d.answered cs q next) xs) := by
  induction schedule generalizing c with
  | nil =>
    cases hru
    rw [ha] at hdo
    cases hdo
  | cons side xs ih =>
    obtain ⟨d,hs,hr⟩ := run_cons.mp hru
    cases side with
    | inspector =>
      have hd := hs
      simp only [Watch.step,ha] at hd
      cases hd
      refine ⟨c,xs,h,ha,rfl,hr,?_⟩
      rw [Along,hs]
    | runner =>
      obtain ⟨hso,hi,hse⟩ := Watch.sound_runner hex h hs
      obtain ⟨e,lt,heo,hea,hes,her,he⟩ := ih hso hr (hi.trans ha)
      refine ⟨e,lt,heo,hea,hes.trans hse,her,?_⟩
      rw [← he,Along,hs]
      simp [Watch.Heeds]

/-- From the probe on, the report is good exactly if the order is heeded. -/
theorem Watch.probing_iff (has : c.inspector = probing state) (hs : c.seen = some state)
    (hp : state.phase.bad = false) :
    insp.state.phase.bad = false ↔ Along (Watch.step cs) (Watch.Heeds cs) c schedule := by
  obtain ⟨d,xs,hso,hda,hds,hd,ha⟩ := Watch.exists_asked hex h hru hdo (has.trans probing_eq)
  rw [ha,Watch.heeds_probing hda (hds.trans hs)]
  have hre : ∀ active, insp = report state active →
      (insp.state.phase.bad = false ↔ ¬(state.phase = .running ∧ active = false)) := by
    rintro active rfl
    rw [← visibleState_bad hp,Bool.not_eq_true]
    rfl
  cases hl : (d.world.reply cs .tryLock).1 with
  | false =>
    obtain ⟨hf,hr⟩ := Watch.done_run hd (Watch.answered_inspector hl)
    cases hdo.symm.trans hf
    rw [hre true rfl]
    simp [hr]
  | true =>
    obtain ⟨e,lt,heo,hea,hes,her,he⟩ :=
      Watch.exists_asked hex (hso.answered (q := .tryLock) nofun) hd hdo
        (Watch.answered_inspector hl)
    obtain ⟨hf,hr⟩ := @Watch.done_run cs _ _ _ her (.ok (report state false)) rfl
    cases hdo.symm.trans hf
    have hu : e.Heeds cs .inspector := Watch.heeds_of_ne hea nofun
    rw [hre false rfl,he]
    simp [hu,hr]

/-- A question other than the probe does not decide anything. -/
theorem Watch.asked_iff {G : Prop} (has : c.inspector = .ask q next) (hp : q ≠ .tryLock)
    (hn : ∀ (d : Watch) (xs : List Side), d.Sound → d.seen = c.seen →
      run (Watch.step cs) (d.answered cs q next) xs = some fin →
      (G ↔ Along (Watch.step cs) (Watch.Heeds cs) (d.answered cs q next) xs)) :
    G ↔ Along (Watch.step cs) (Watch.Heeds cs) c schedule := by
  obtain ⟨d,xs,hs,hd,hds,hdr,ha⟩ := Watch.exists_asked hex h hru hdo has
  rw [ha,hn d xs hs hds hdr]
  simp [Watch.heeds_of_ne hd hp]

theorem Watch.openLock_iff (has : c.inspector = .ask .openLock (afterOpen state))
    (hs : c.seen = some state) (hp : state.phase.bad = false) :
    insp.state.phase.bad = false ↔ Along (Watch.step cs) (Watch.Heeds cs) c schedule := by
  refine Watch.asked_iff hex h hru hdo has nofun ?_
  intro d xs hso hds hd
  cases ha : (d.world.reply cs .openLock).1 with
  | error e =>
    exact (Watch.not_failed hd hdo (Watch.answered_inspector ha)).elim
  | ok u =>
    exact Watch.probing_iff hex (hso.answered (q := .openLock) nofun) hd hdo
      (Watch.answered_inspector ha) (hds.trans hs) hp

theorem Watch.loadState_iff (has : c.inspector = .ask .loadState (afterLoad req)) :
    insp.state.phase.bad = false ↔ Along (Watch.step cs) (Watch.Heeds cs) c schedule := by
  refine Watch.asked_iff hex h hru hdo has nofun ?_
  intro d xs hs _ hd
  cases ha : (d.world.reply cs .loadState).1 with
  | error e =>
    exact (Watch.not_failed hd hdo (Watch.answered_inspector ha)).elim
  | ok state =>
    have hn : (d.answered cs .loadState (afterLoad req)).inspector =
        afterLoad req (.ok state) := Watch.answered_inspector ha
    have hse : (d.answered cs .loadState (afterLoad req)).seen = some state := by
      rw [Watch.answered,ha]
      rfl
    have hph := hs.steady state (Moment.loadState_eq_ok ha)
    by_cases hp : state.plan = req
    · rw [afterLoad,if_neg (not_not.mpr hp)] at hn
      exact Watch.openLock_iff hex (hs.answered (q := .loadState) nofun) hd hdo hn hse hph
    · rw [afterLoad,if_pos hp] at hn
      exact (Watch.not_failed hd hdo hn).elim

end succeeding
end

/-- An inspection beside one run that is not killed and whose commands succeed says neither
that a group failed nor that its result is unknown, exactly if an inspector that has read a
running checkpoint still finds the lock taken at its probe. -/
theorem reports_well_iff {agent : Agent} {pid : ℕ} {request : LifecycleRunRequest}
    {course : Course} {w : World} {schedule : List Side} {final : Watch}
    {inspection : LifecycleInspection} (hcalm : w.Calm)
    (hexecution : ∀ n, (course n).execution = .ok ())
    (hrun : run (Watch.step course) (.start agent pid request w) schedule = some final)
    (hdone : final.inspector = .done (.ok inspection)) :
    (inspection.state.phase ≠ .indeterminate ∧ inspection.state.phase ≠ .failed) ↔
      Along (Watch.step course) (Watch.Heeds course) (.start agent pid request w) schedule := by
  have hg : (inspection.state.phase ≠ .indeterminate ∧ inspection.state.phase ≠ .failed) ↔
      inspection.state.phase.bad = false := by
    cases inspection.state.phase <;> simp [LifecyclePhase.bad]
  have hs : (Watch.start agent pid request w).Sound :=
    ⟨hcalm.steady,.inr ⟨hcalm,opening_runLifecycle⟩⟩
  rw [hg]
  cases hv : validateRequest agent request with
  | error e =>
    have hf : (Watch.start agent pid request w).inspector = .done (.error e) := by
      unfold Watch.start inspectLifecycle checked
      rw [hv]
      rfl
    exact (Watch.not_failed hrun hdone hf).elim
  | ok u =>
    refine Watch.asked_iff hexecution hs hrun hdone (inspectLifecycle_eq hv) nofun ?_
    intro c₁ xs₁ h₁ hs₁ hrun₁
    cases ha : (c₁.world.reply course .prepareDirectory).1 with
    | error fl =>
      exact (Watch.not_failed hrun₁ hdone (Watch.answered_inspector ha)).elim
    | ok u =>
      exact Watch.loadState_iff hexecution (h₁.answered (q := .prepareDirectory) nofun) hrun₁ hdone
        (Watch.answered_inspector ha)

section sample

/-- The runner writes its first checkpoint, then the inspector reads it and finds the lock taken. -/
def earlyInspection : List Side := List.replicate 5 .runner++List.replicate 4 .inspector

theorem reports_well_early :
    ∃ final inspection, run (Watch.step fun _ => {}) (.start sampleAgent 7 sampleRequest .fresh)
        earlyInspection = some final ∧ final.inspector = .done (.ok inspection) ∧
      ((inspection.state.phase ≠ .indeterminate ∧ inspection.state.phase ≠ .failed) ↔
        Along (Watch.step fun _ => {}) (Watch.Heeds fun _ => {})
          (.start sampleAgent 7 sampleRequest .fresh) earlyInspection) :=
  ⟨_,_,rfl,rfl,reports_well_iff nofun (fun _ => rfl) rfl rfl⟩

/-- The inspector reads a running checkpoint, the run goes through to its end, and the probe
gets the lock: the report says that the result is unknown. -/
theorem indeterminate_after_success :
    ∃ final inspection, run (Watch.step fun _ => {}) (.start sampleAgent 7 sampleRequest .fresh)
        (List.replicate 9 .runner++List.replicate 2 .inspector++List.replicate 6 .runner ++
          List.replicate 3 .inspector) = some final ∧
      (∃ state, final.runner = .done (.ok state) ∧ state.phase = .complete) ∧
      final.inspector = .done (.ok inspection) ∧ inspection.state.phase = .indeterminate :=
  ⟨_,_,rfl,⟨_,rfl,rfl⟩,rfl,rfl⟩

end sample
end Cdenv.AgentLifecycle
