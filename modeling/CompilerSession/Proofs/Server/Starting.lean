import CompilerSession.Proofs.Server.Beside
import CompilerSession.Proofs.Session.Processes
import CompilerSession.Proofs.Session.Starts

/-
What becomes of starts.

A start that finds everything stopped comes to a session if and only if all goes well that can fail
before, and it leaves no trace otherwise. What it is told on its way is anything in that law; here
it is also shown where that comes from. The settings and the host decide on the process, and its one
probe tells the answer as soon as there is one, or that the time for it is over.
-/

set_option autoImplicit false

namespace CompilerSession

namespace Supervisor

open Machine (outputs)

/-- **All is well** with a start: the settings were loaded, a process was spawned, and that answered
its probe and named this version, which is new enough. -/
def Log.Good (log : Log) (v : Version) : Prop :=
  ∃ launched r, log.launches = [.ok launched] ∧ log.probes = [.answered r] ∧ Probe.Names r v ∧
    v.atLeast ⟨3, 4, 0⟩ = true

/-- **What a start comes to** that found everything as in `b`. -/
structure Decided (b a : Affairs) (log : Log) (outcome : Except Failure Info) : Prop where
  ok_iff : (∃ info, outcome = .ok info) ↔ ∃ v, log.Good v
  /-- With all well there is a session on the new process. -/
  session : ∀ info, outcome = .ok info → ∃ l, info = l.info ∧ log.Good l.version ∧
    log.deeds = [.spawned l.process] ∧ b.Succeeds a l
  /-- Otherwise nothing is left, and a process that was spawned is killed. -/
  trace : ∀ failure, outcome = .error failure → b.NoTrace a ∧
    (log.launches = [.error failure] ∧ log.deeds = [] ∨
      ∃ launched p, log.launches = [.ok launched] ∧ log.deeds = [.spawned p, .killing p])
  /-- If launching fails as it should, it is told as the failure of a start. -/
  kind : ∀ failure, outcome = .error failure →
    (∀ f, log.launches = [.error f] →
      (∃ reason, f = .config reason) ∨ ∃ executable reason, f = .spawn executable reason) →
    failure.isStartFailure = true

/-- **What was concluded is decided** by what launching and probing came to. -/
theorem Concluded.decided {b a : Affairs} {log : Log} {outcome : Except Failure Info}
    (concluded : Concluded b a log outcome) : Decided b a log outcome := by
  cases concluded with
  | unlaunched failure noTrace =>
    refine ⟨⟨nofun, ?_⟩, nofun, ?_, ?_⟩
    · rintro ⟨_, _, _, ⟨⟩, _⟩
    · rintro _ ⟨⟩
      exact ⟨noTrace, .inl ⟨rfl, rfl⟩⟩
    · rintro _ ⟨⟩ proper
      obtain ⟨reason, rfl⟩ | ⟨executable, reason, rfl⟩ := proper failure rfl <;> rfl
  | unfit launched outcome failure unfit noTrace =>
    refine ⟨⟨nofun, ?_⟩, nofun, ?_, ?_⟩
    · rintro ⟨v, _, r, -, ⟨⟩, named, supported⟩
      cases unfit.symm.trans (Probe.verdict_ok_iff.mpr ⟨r, rfl, named, supported⟩)
    · rintro _ ⟨⟩
      exact ⟨noTrace, .inr ⟨launched, b.spawned, rfl, rfl⟩⟩
    · rintro _ ⟨⟩ -
      exact Probe.isStartFailure_of_verdict unfit
  | succeeds launched outcome l fit succeeds =>
    obtain ⟨r, rfl, named, supported⟩ := Probe.verdict_ok_iff.mp fit
    have good : Log.Good ⟨[.ok launched], [.answered r], [.spawned b.spawned]⟩ l.version :=
      ⟨launched, r, rfl, rfl, named, supported⟩
    refine ⟨⟨fun _ => ⟨_, good⟩, fun _ => ⟨_, rfl⟩⟩, ?_, nofun, nofun⟩
    rintro _ ⟨⟩
    exact ⟨l, rfl, good, congrArg (fun p => [Deed.spawned p]) succeeds.process.symm, succeeds⟩

section Attempt

variable {xs : List Move} {id : OperationId} {d e : machine.Event} {mid : List machine.Event}
  {result : Result}

/-- What is done to processes in an attempt is done in the run. -/
theorem Attempt.mem_deeds (attempt : Attempt (machine.history xs) id d mid e result) {deed : Deed}
    (h : deed ∈ (log id (mid ++ [e])).deeds) : deed ∈ deeds (outputs (machine.history xs)) := by
  obtain ⟨past, later, cut⟩ := attempt.during
  -- the deeds of an attempt are those after its turn
  have parts : machine.history xs = past ++ ([d] ++ ((mid ++ [e]) ++ later)) := by
    simpa only [List.singleton_append, List.append_assoc] using cut
  rw [parts]
  simp only [Machine.outputs_append (past), Machine.outputs_append [d],
    Machine.outputs_append (mid ++ [e]), deeds_append, List.mem_append]
  exact .inr (.inr (.inl (List.mem_of_mem_filter h)))

/-- A process that an attempt kills is killed once, then and later. -/
theorem Attempt.kills (attempt : Attempt (machine.history xs) id d mid e result)
    (orderly : OrderlyRun xs) {p : ProcessId} (h : .killing p ∈ (log id (mid ++ [e])).deeds) :
    kills p (machine.history xs) = 1 :=
  Nat.le_antisymm ((run_custody orderly.careful).once p)
    (List.one_le_count_iff.mpr (attempt.mem_deeds h))

end Attempt

end Supervisor

namespace Simulation

/-! ## Where it comes from -/

/-- **What a probe tells**: the answer or the fault when it is there, and that there is none when
the time is up and there is none. -/
inductive ProbeRun.Tells (r : ProbeRun) (w : World) : Probe.Outcome → Prop where
  | answered (response : Response) (ready : r.stage = .ready (.ok response)) :
      Tells r w (.answered response)
  | broken (fault : ChannelFault) (ready : r.stage = .ready (.error fault)) :
      Tells r w (.broken fault)
  | timedOut (unanswered : ∀ result, r.stage ≠ .ready result)
      (late : r.deadline ≤ w.supervisor.clock) : Tells r w .timedOut

namespace World

variable {w w' : World} {r : ProbeRun}

/-- **A process is launched** if the settings can be read and nothing stands against the toolchain
that they resolve to. -/
theorem launch_ok_iff {launched : Toolchain × UInt32} :
    w.launch = .ok launched ↔ ∃ settings, w.compilers.settings = .ok settings ∧
      w.spawnRefusal? (settings.resolve w.compilers.platform) = none ∧
      launched = (settings.resolve w.compilers.platform,
        UInt32.ofNat (firstPid + w.supervisor.processes.length)) := by
  unfold launch
  cases w.compilers.settings with
  | error failure => exact ⟨nofun, fun ⟨_, other, _⟩ => nomatch other⟩
  | ok settings =>
    cases refusal : w.spawnRefusal? (settings.resolve w.compilers.platform) with
    | some reason =>
      refine ⟨fun fails => ?_, ?_⟩
      · simp only [refusal] at fails
        cases fails
      · rintro ⟨_, ⟨⟩, free, -⟩
        cases refusal.symm.trans free
    | none =>
      simp only [refusal]
      constructor
      · rintro ⟨⟩
        exact ⟨settings, rfl, refusal, rfl⟩
      · rintro ⟨_, ⟨⟩, -, rfl⟩
        rfl

/-- A launch fails for the settings, or because the process cannot be spawned. -/
theorem launch_error {failure : Failure} (h : w.launch = .error failure) :
    w.compilers.settings = .error failure ∨
      ∃ executable reason, failure = .spawn executable reason := by
  unfold launch at h
  split at h
  · rename_i same
    cases h
    exact .inl same
  · simp only at h
    split at h <;> cases h
    exact .inr ⟨_, _, rfl⟩

/-- **A probe is one call**, and it has half a minute. -/
theorem startProbe_spec (w : World) (id : OperationId) (p : ProcessId) :
    ∃ r, (w.startProbe id p).probes = w.probes ++ [r] ∧ r.id = id ∧ r.process = p ∧
      r.deadline = w.supervisor.clock + 30 * 1000 ∧
      (w.startProbe id p).record.probes = w.record.probes + 1 := by
  have permit (w : World) (x : Waiter) :
      (w.askPermit x).probes = w.probes ∧ (w.askPermit x).record = w.record := by
    simp only [askPermit]
    split <;> exact ⟨rfl, rfl⟩
  have run (stage : ProbeStage) : ∃ r : ProbeRun,
      r = ⟨id, p, w.compilers.probe, stage, w.supervisor.clock + probePatience⟩ ∧ r.id = id ∧
        r.process = p ∧ r.deadline = w.supervisor.clock + 30 * 1000 :=
    ⟨_, rfl, rfl, rfl, rfl⟩
  simp only [startProbe, askChild]
  -- a program is asked at once, a scripted process may need a permit to answer
  split
  · obtain ⟨r, rfl, fits⟩ := run _
    exact ⟨_, rfl, fits.1, fits.2.1, fits.2.2, rfl⟩
  · obtain ⟨r, rfl, fits⟩ := run
      (if w.compilers.probe.gated = true then .waiting else probeStage w.compilers.probe)
    refine ⟨_, ?_, fits.1, fits.2.1, fits.2.2, ?_⟩ <;> split
    · exact (permit _ _).1
    · rfl
    · exact congrArg Record.probes (permit _ _).2
    · rfl

/-- Neither the supervisor nor the time that probes have is different. -/
def SameTime (w w' : World) : Prop :=
  w'.supervisor = w.supervisor ∧
    w'.probes.map (fun q => (q.id, q.deadline)) = w.probes.map fun q => (q.id, q.deadline)

theorem sameTime_forgoPermit (w : World) (x : Waiter) : SameTime w (w.forgoPermit x) := by
  have add (w : World) : SameTime w w.addPermit := by
    unfold addPermit
    split
    · rename_i y waiters _
      obtain ⟨ready, woken⟩ :=
        wakes_wakeWaiter { w with compilers := { w.compilers with waiters } } y
      rw [woken]
      exact ⟨rfl, rfl⟩
    · exact ⟨rfl, rfl⟩
  simp only [forgoPermit]
  split
  · exact add (w.leavePermits x)
  · exact ⟨rfl, rfl⟩

theorem sameTime_setProbe (w : World) (id : OperationId) (stage : ProbeStage) :
    SameTime w (w.setProbe id stage) := by
  refine ⟨rfl, ?_⟩
  simp only [setProbe, List.map_map]
  refine List.map_congr_left fun q _ => ?_
  simp only [Function.comp_apply]
  split <;> rfl

/-- **A probe that goes on** tells its operation something, or it keeps the time that it has. -/
theorem stepProbe_tells (h : w.stepProbe? r = some w') :
    (∃ v outcome, r.Tells w outcome ∧ SameTime w v ∧ w' = v.finishProbe r.id outcome) ∨
      SameTime w w' := by
  have keeps {v : World} (first : SameTime w v) (stage : ProbeStage) :
      SameTime w (v.setProbe r.id stage) :=
    have next := sameTime_setProbe v r.id stage
    ⟨next.1.trans first.1, next.2.trans first.2⟩
  simp only [stepProbe?] at h
  -- the stages of a probe: an answer, a fault, waiting for one of them, and silence
  split at h
  · rename_i response ready
    cases h
    exact .inl ⟨w, _, .answered response ready, ⟨rfl, rfl⟩, rfl⟩
  · rename_i fault ready
    cases h
    exact .inl ⟨w, _, .broken fault ready, ⟨rfl, rfl⟩, rfl⟩
  · rename_i waiting
    split at h
    · cases h
      exact .inr (keeps ⟨rfl, rfl⟩ _)
    · split at h
      · cases h
        exact .inr (keeps (sameTime_forgoPermit w _) _)
      · split at h <;> cases h
        rename_i late
        exact .inl ⟨_, _, .timedOut (by simp [waiting]) late, sameTime_forgoPermit w _, rfl⟩
  · rename_i silent
    split at h <;> cases h
    rename_i late
    exact .inl ⟨w, _, .timedOut (by simp [silent]) late, ⟨rfl, rfl⟩, rfl⟩

/-- A probe goes on when its answer is there, and when its time is up. -/
theorem stepProbe_isSome
    (due : (∃ result, r.stage = .ready result) ∨ r.deadline ≤ w.supervisor.clock) :
    (w.stepProbe? r).isSome = true := by
  unfold stepProbe?
  cases stage : r.stage with
  | ready result => cases result <;> rfl
  | waiting | silent =>
    have late := due.resolve_left (by simp [stage])
    simp only [late, if_true]
    repeat' split
    all_goals rfl

/-- **Where a start learns what it waits for.** -/
structure Informs (w : World) : Prop where
  /-- It launches what the settings say, unless they cannot be loaded or no process is spawned. -/
  launching : ∀ id, w.supervisor.stage? id = some .launching →
    w.stepOperation? id = some (w.move (.proceed id (.launched w.launch)))
  launched : ∀ launched, w.launch = .ok launched ↔
    ∃ settings, w.compilers.settings = .ok settings ∧
      w.spawnRefusal? (settings.resolve w.compilers.platform) = none ∧
      launched = (settings.resolve w.compilers.platform,
        UInt32.ofNat (firstPid + w.supervisor.processes.length))
  failed : ∀ failure, w.launch = .error failure → w.compilers.settings = .error failure ∨
    ∃ executable reason, failure = .spawn executable reason
  /-- The new process is probed by one call, and that has thirty seconds. -/
  asked : ∀ id p, ∃ r, (w.startProbe id p).probes = w.probes ++ [r] ∧ r.id = id ∧ r.process = p ∧
    r.deadline = w.supervisor.clock + 30 * 1000 ∧
    (w.startProbe id p).record.probes = w.record.probes + 1
  probing : ∀ id p toolchain, w.supervisor.stage? id = some (.probing p toolchain) →
    w.stepOperation? id = (w.probes.find? (·.id = id)).bind w.stepProbe?
  told : ∀ r w', w.stepProbe? r = some w' →
    (∃ v outcome, r.Tells w outcome ∧ SameTime w v ∧ w' = v.finishProbe r.id outcome) ∨
      SameTime w w'
  due : ∀ r : ProbeRun, (∃ result, r.stage = .ready result) ∨ r.deadline ≤ w.supervisor.clock →
    (w.stepProbe? r).isSome = true

/-- **Operations are told what the world comes to**: a launch that follows the settings, and a probe
that follows the process within its time. -/
theorem informs (w : World) : w.Informs where
  launching := fun id h => by simp only [stepOperation?, h]
  launched := fun _ => launch_ok_iff
  failed := fun _ => launch_error
  asked := w.startProbe_spec
  probing := fun id p toolchain h => by simp only [stepOperation?, h]
  told := fun _ _ => stepProbe_tells
  due := fun _ => stepProbe_isSome

end World

end Simulation

namespace Supervisor

open Machine (outputs)

/-! ## The law -/

/-- **A start comes to a session or leaves no trace.** Its end is decided by what it is told:

* A start that found everything stopped and is done has a session if and only if it was told of a
  process, and in answer to the one probe of a version, at least 3.4.0, in the body or else in the
  first print that has one. Otherwise the failure is that of a start, everything is stopped as
  before, nobody was told anything, and a process that was spawned is killed.
* Whatever launching and the probe come to, a start that has its turn can be told so and be done.
* If nobody gives up an operation, a start that finds no session finds everything stopped, and the
  process that it kills is killed once, then and later.
* What it is told is what the world says: of settings and processes, and of the answer to the probe
  or of the thirty seconds that passed without one. -/
theorem starts_succeed_or_leave_no_trace (xs : List Move) (careful : CarefulRun xs) :
    (∀ id d mid e result, Attempt (machine.history xs) id d mid e result →
      ∃ outcome, result = .launched outcome ∧
        Decided d.before.affairs e.after.affairs (log id (mid ++ [e])) outcome) ∧
    (∀ id, (machine.run xs).stage? id = some .entered →
      (machine.run xs).lock.purpose? id = some .start →
      (machine.run xs).affairs.Stopped → (machine.run xs).affairs.Running →
      ∀ launched outcome, ∃ ys d mid e result, CarefulRun (xs ++ ys) ∧
        machine.history (xs ++ ys) = machine.history xs ++ d :: (mid ++ [e]) ∧
        Attempt (machine.history (xs ++ ys)) id d mid e result ∧
        (log id (mid ++ [e])).launches = [launched] ∧
        (log id (mid ++ [e])).probes = if launched.isOk then [outcome] else []) ∧
    (OrderlyRun xs →
      (∀ id, (machine.run xs).stage? id = some .entered → (machine.run xs).session = none →
        (machine.run xs).affairs.Stopped) ∧
      ∀ id d mid e result, Attempt (machine.history xs) id d mid e result →
        ∀ p, .killing p ∈ (log id (mid ++ [e])).deeds → kills p (machine.history xs) = 1) ∧
    ∀ w : Simulation.World, w.Informs := by
  refine ⟨?_, ?_, ?_, Simulation.World.informs⟩
  · intro id d mid e result attempt
    obtain ⟨outcome, rfl, concluded⟩ := attempt.concluded careful
    exact ⟨outcome, rfl, concluded.decided⟩
  · intro id entered purpose stopped running launched outcome
    obtain ⟨ys, d, mid, e, result, careful', history, attempt, launches, probes⟩ :=
      can_start careful entered purpose stopped running launched outcome
    refine ⟨ys, d, mid, e, result, careful', history, attempt, ?_⟩
    obtain ⟨_, -, concluded⟩ := attempt.concluded careful'
    -- how it ended tells how often it was told something, and the way tells what
    generalize log id (mid ++ [e]) = log at launches probes concluded
    cases concluded with
    | unlaunched failure =>
      obtain rfl := launches _ List.mem_cons_self
      exact ⟨rfl, rfl⟩
    | unfit | succeeds =>
      obtain rfl := launches _ List.mem_cons_self
      obtain rfl := probes _ List.mem_cons_self
      exact ⟨rfl, rfl⟩
  · intro orderly
    refine ⟨fun id entered session => stopped_of_orderly orderly entered session, ?_⟩
    exact fun id d mid e result attempt p => attempt.kills orderly

/-- A compiler is too old, though its prints tell of a newer one. The next one reports an error,
and names its version in its second print. -/
def upgradedRun : List Move :=
  [.begin .start, .proceed 0 .nothing, .proceed 0 (.launched (.ok (.default, 7))),
    .proceed 0 (.probed (.answered ⟨"3.3.9", ["4.2.1"], false⟩)), .proceed 0 .killed,
    .begin .start, .proceed 1 .nothing, .proceed 1 (.launched (.ok (.default, 8))),
    .proceed 1 (.probed (.answered ⟨"no input", ["", "4.2.1"], true⟩)),
    .dispatch fun _ => false, .proceed 1 .nothing]

/-- The state after so many moves, and the move that follows. -/
def upgradedEvent (n : Nat) : machine.Event :=
  ⟨machine.run (upgradedRun.take n), upgradedRun.getD n .monitor⟩

/-- In this run the attempt of the first start comes to the end that the version is too old, and
that of the second one to a session. -/
theorem upgradedRun_attempts :
    Attempt (machine.history upgradedRun) 0 (upgradedEvent 1) [upgradedEvent 2, upgradedEvent 3]
        (upgradedEvent 4) (.launched (.error (.unsupported ⟨3, 3, 9⟩ ⟨3, 4, 0⟩))) ∧
      ∃ info, Attempt (machine.history upgradedRun) 1 (upgradedEvent 6)
        [upgradedEvent 7, upgradedEvent 8, upgradedEvent 9] (upgradedEvent 10)
        (.launched (.ok info)) := by
  have unfit := attempt_of_moves 0 [.begin .start] ((upgradedRun.drop 2).take 2)
    (upgradedRun.drop 5) .nothing (.proceed 0 .killed) rfl rfl ⟨rfl, rfl, rfl, rfl, rfl⟩
    (by simp [upgradedRun])
    (List.forall_mem_cons.mpr ⟨nofun, List.forall_mem_singleton.mpr nofun⟩) rfl rfl
  have fit := attempt_of_moves 1 (upgradedRun.take 6) ((upgradedRun.drop 7).take 3) [] .nothing
    (.proceed 1 .nothing) rfl rfl ⟨rfl, rfl, rfl, rfl, rfl⟩ (by simp [upgradedRun])
    (List.forall_mem_cons.mpr
      ⟨nofun, List.forall_mem_cons.mpr ⟨nofun, List.forall_mem_singleton.mpr nofun⟩⟩) rfl rfl
  exact ⟨unfit, _, fit⟩

/-- **The old compiler leaves no trace, and the new one has a session.** -/
theorem upgradedRun_succeeds_at_last :
    CarefulRun upgradedRun ∧
      (upgradedEvent 1).before.affairs.NoTrace (upgradedEvent 4).after.affairs ∧
      kills 0 (machine.history upgradedRun) = 1 ∧
      ∃ l, l.version = ⟨4, 2, 1⟩ ∧
        (upgradedEvent 6).before.affairs.Succeeds (upgradedEvent 10).after.affairs l := by
  have orderly : OrderlyRun upgradedRun := by
    refine orderlyRun_of_keeps ?_
    decide
  obtain ⟨unfit, info, fit⟩ := upgradedRun_attempts
  obtain ⟨decided, -, once, -⟩ := starts_succeed_or_leave_no_trace upgradedRun orderly.careful
  obtain ⟨_, ⟨⟩, failed⟩ := decided _ _ _ _ _ unfit
  obtain ⟨_, ⟨⟩, succeeded⟩ := decided _ _ _ _ _ fit
  obtain ⟨l, -, -, -, succeeds⟩ := succeeded.session info rfl
  have version : (upgradedEvent 10).after.affairs.session.map (·.version) = some ⟨4, 2, 1⟩ := rfl
  rw [succeeds.session] at version
  refine ⟨orderly.careful, (failed.trace _ rfl).1, ?_, l, Option.some.inj version, succeeds⟩
  refine (once orderly).2 _ _ _ _ _ unfit 0 ?_
  decide

end Supervisor

end CompilerSession
