import CombatTrials.Proofs.Trials.Explanation
import CombatTrials.Proofs.Trials.Finality
import CombatTrials.Proofs.Trials.Projection

/-!
# Jobs do not interfere

Jobs share the workers of one pool and one registry. What each of them sees is nevertheless what it
would see if it were the only one: whatever happened to a simulator, there is something that can
happen to a fresh one to which only this job was submitted, and to the job it looks the same
(`Reachable.exists_alone`). Its thread makes the same moves, its lane is the whole pool
(`Pool.only`), and while others go on, nothing happens.

This is said of everything that was stored and received so far, so it includes progress. How a job
ends is decided earlier. It is decided by the request and by whether a lane can be made
(`Job.verdict`), so all ways in which the job can run alone lead to one last snapshot, and that is
the one it ends with among others.
-/

namespace CombatTrials
namespace Trials

/-! ## How jobs end

The verdict asks for the request and for the one setting that matters, the capacity of lanes.
Whether it is passed among others or alone makes no difference to either. -/

namespace Job

/-- The last snapshot of a job whose thread started. -/
def verdict (settings : Settings) (request : Request Setup) : Snapshot :=
  match request.loadout with
  | .crashed => closing (.pending request.maxIterations) true
  | .failed fault => .setupFailed request.maxIterations fault.diagnosis
  | .built loadout =>
    if request.maxIterations = 1 then single loadout request.seed request.maxTurns
    else if Lane.canBeMade settings.channelCapacity.toNat then sequential request loadout
    else closing (.pending request.maxIterations) true

variable {settings : Settings} {request : Request Setup} {stored : List Snapshot}
  {received : List Report}

/-- Whatever the course of a job was, the last snapshot that is stored of it is its verdict. -/
theorem Course.verdict_eq {crashing : Bool} (h : Course settings request crashing stored received) :
    (closed request crashing stored).getLast? = some (verdict settings request) := by
  cases h with
  | crashed hl | failed hl =>
    simp only [verdict, hl]
    rfl
  | single hl hn =>
    simp only [verdict, hl, if_pos hn]
    rfl
  | laneless hl hn hm =>
    simp only [verdict, hl, if_neg hn, hm]
    rfl
  | many hl hn hm hr =>
    rw [← List.cons_append, getLast?_closed, finish_eq_sequential hr]
    simp only [verdict, hl, if_neg hn, hm, if_true]

end Job

/-! ## One job among others

Three things have to be shown of a move: if the job itself makes it, it can be made alone; if a
worker makes it, it is one for the lane of the job or none; and if another job makes it, the job
does not notice. `Mirrors` is what stays between the two chronicles. -/

/-- A phase, as it is when the job is the only one: its lane has the number zero. -/
def Phase.only : Phase → Phase
  | .collecting loadout _ collector => .collecting loadout 0 collector
  | .waiting => .waiting
  | .leaving crashing => .leaving crashing
  | .gone => .gone

/-- The job, as it is when it is the only one. -/
def Job.only (job : Job) : Job := ⟨⟨"A", 0⟩, job.request, job.phase.only⟩

/-- What a job in some phase sees of a pool is another pool. -/
def Phase.Sees (workers : Nat) (p alone : Pool) : Phase → Prop
  | .waiting => alone = .start workers
  | .collecting _ lane _ => alone = p.only lane
  | .leaving _ | .gone => True

/-- What a job sees of a pool stays when its lane is not touched. -/
theorem Phase.Sees.frame {workers : Nat} {p p' alone : Pool} {phase : Phase}
    (h : phase.Sees workers p alone)
    (honly : ∀ lane, phase.lane? = some lane → p'.only lane = p.only lane) :
    phase.Sees workers p' alone := by
  cases phase with
  | waiting => exact h
  | collecting loadout lane collector => exact Eq.trans h (honly lane rfl).symm
  | leaving | gone => trivial

namespace Job

/-- What a move changes for a job, and what it changes when the job is the only one. -/
structure Change.Only (workers : Nat) (change alone : Change) : Prop where
  published_eq : alone.published = change.published
  phase_eq : alone.phase = change.phase.only
  sees : change.phase.Sees workers change.pool alone.pool

/-- The thread of a job starts in one way, whatever other jobs there are. -/
theorem launch_only (settings : Settings) {p : Pool} {workers : Nat} (h : p.Wired)
    (hworkers : p.workers.length = max 1 workers) (request : Request Setup) :
    (launch settings p request).Only workers (launch settings (.start workers) request) := by
  cases hl : request.loadout with
  | crashed | failed =>
    simp only [launch, hl]
    exact ⟨rfl, rfl, trivial⟩
  | built loadout =>
    by_cases hn : request.maxIterations = 1
    · simp only [launch, hl, if_pos hn]
      exact ⟨rfl, rfl, trivial⟩
    · -- a lane that can be made is the only one when the job is alone
      cases hm : Lane.canBeMade settings.channelCapacity.toNat with
      | false =>
        simp only [launch, hl, if_neg hn, hm, Bool.not_false, if_true]
        exact ⟨rfl, rfl, trivial⟩
      | true =>
        simp only [launch, hl, if_neg hn, hm, Bool.not_true, Bool.false_eq_true, if_false]
        exact ⟨rfl, rfl, (Pool.only_withLane_self h hworkers).symm⟩

theorem receive_only {pool alone : Pool} {phase : Phase} {workers : Nat} {change : Change}
    (hc : receive? pool phase = some change) (hsees : phase.Sees workers pool alone) :
    ∃ change', receive? alone phase.only = some change' ∧ change.Only workers change' := by
  obtain ⟨loadout, lane, collector, report, pool', rfl, hwait, hr, rfl⟩ := receive?_eq_some hc
  obtain rfl : alone = pool.only lane := hsees
  have hreceived : receive? (pool.only lane) (.collecting loadout 0 collector) =
      some ⟨(collector.record report).2.toList, .collecting loadout 0 (collector.record report).1,
        pool'.only lane⟩ := by
    simp only [receive?, hwait, if_true, Pool.only_of_receive hr]
    rfl
  exact ⟨_, hreceived, rfl, rfl, rfl⟩

/-- A job that stops collecting among others stops alone: it was owed nothing, so its collector is
done. -/
theorem conclude_only {pool alone : Pool} {request : Request Setup} {phase : Phase}
    {settings : Settings} {lost : Prop} {stored : List Snapshot} {received : List Report}
    {change : Change}
    (h : Standing settings pool request lost phase stored received)
    (hc : conclude? pool request.maxTurns phase = some change) (workers : Nat) :
    ∃ change', conclude? alone request.maxTurns phase.only = some change' ∧
      change.Only workers change' := by
  obtain ⟨loadout, lane, collector, -, rfl, -⟩ := conclude?_eq_some hc
  obtain ⟨howed, rfl⟩ := conclude_spec h hc
  obtain ⟨-, -, -, -, hr, rfl, -⟩ := h.of_collecting
  -- the collector has all its reports, so it stops alone as well
  have hdone : (Collector.after request.maxIterations settings.updateInterval received).isWaiting =
      false := by
    rw [Bool.eq_false_iff]
    exact fun hwait => (isWaiting_after_iff_owed hr settings.updateInterval).mp hwait howed
  have hconcluded : conclude? alone request.maxTurns (.collecting loadout 0
      (.after request.maxIterations settings.updateInterval received)) =
      some ⟨[(Collector.after request.maxIterations settings.updateInterval received).finish loadout
        request.maxTurns], .leaving false, alone⟩ := by
    simp only [conclude?, hdone, Bool.false_eq_true, if_false]
  exact ⟨_, hconcluded, rfl, rfl, trivial⟩

end Job

namespace Simulator

/-- The number of the job that makes a move. -/
def Move.job? : Move → Option Nat
  | .work _ => none
  | .launch j | .lose j | .receive j | .conclude j | .leave j => some j

/-- What a move of the job of number `k` is to others: its own phase changes, it stores under its
own token, it receives reports for itself, and no lane changes that is not its own. -/
structure Turn (s : Simulator) (k : Nat) (job : Job) (m : Move) (after : Published × Simulator) :
    Prop where
  job_eq : s.jobs[k]? = some job
  jobs_eq : ∃ phase, after.2.jobs = s.jobs.set k { job with phase := phase }
  settings_eq : after.2.settings = s.settings
  stored_eq : ∃ published : List Snapshot,
    after.1 = published.map fun snapshot => (job.lease.token, snapshot)
  received_eq : ∃ reports : List Report,
    (s.delivery? m).toList = reports.map fun report => (k, report)
  only_eq : ∀ lane < s.pool.lanes.length, job.phase.lane? ≠ some lane →
    after.2.pool.only lane = s.pool.only lane

/-- Every move that a job makes is such a turn. -/
theorem turn_of_step {s : Simulator} {m : Move} {after : Published × Simulator}
    (h : Step s m after) {k : Nat} (hk : m.job? = some k) : ∃ job, Turn s k job m after := by
  cases h with
  | work hm => exact absurd hk (by simp [Move.job?])
  -- a new lane comes behind the others and is none of theirs
  | @launch j job hj hp =>
    obtain rfl := Option.some.inj hk
    refine ⟨job, hj, ⟨_, rfl⟩, rfl, ⟨_, rfl⟩, ⟨[], rfl⟩, fun lane hlt _ => ?_⟩
    rcases Job.launch_spec s.settings s.pool job.request with ⟨_, _, heq, -⟩ | ⟨_, -, -, -, heq⟩ <;>
      simp only [Simulator.apply, heq]
    exact Pool.only_withLane_of_lt hlt
  | @receive j job change hj hchange =>
    obtain rfl := Option.some.inj hk
    obtain ⟨loadout, lane, collector, report, pool, hp, -, hr, rfl⟩ := Job.receive?_eq_some hchange
    refine ⟨job, hj, ⟨_, rfl⟩, rfl, ⟨_, rfl⟩, ⟨[report], ?_⟩, fun lane' _ hne => ?_⟩
    · simp [delivery?, hj, hp, hr]
    · refine Pool.only_of_receive_ne hr fun heq => hne ?_
      rw [hp, ← heq]
      rfl
  | @conclude j job change hj hchange =>
    obtain rfl := Option.some.inj hk
    obtain ⟨_, _, _, _, -, rfl⟩ := Job.conclude?_eq_some hchange
    exact ⟨job, hj, ⟨_, rfl⟩, rfl, ⟨_, rfl⟩, ⟨[], rfl⟩, fun _ _ _ => rfl⟩
  | @lose j job hj hp | @leave j job _ hj hp =>
    obtain rfl := Option.some.inj hk
    exact ⟨job, hj, ⟨_, rfl⟩, rfl, ⟨_, rfl⟩, ⟨[], rfl⟩, fun _ _ _ => rfl⟩

end Simulator

namespace Chronicle

variable {settings : Settings} {workers : Nat} {c c' alone : Chronicle} {j : Nat} {job : Job}

/-- The workers of a simulator stay as many as they were. -/
theorem Reachable.length_workers (h : Reachable settings workers c) :
    c.now.pool.workers.length = max 1 workers := by
  induction h with
  | start => exact List.length_replicate
  | submit _ hs ih =>
    obtain ⟨-, -, -, hpool, -⟩ := submit?_eq_some hs
    rwa [hpool]
  | @move c c' m _ hm ih =>
    obtain ⟨after, hs, hc⟩ := Option.bind_eq_some_iff.mp hm
    obtain rfl := Option.some.inj hc
    refine Eq.trans ?_ ih
    cases Simulator.step_of_move hs with
    | work hmove =>
      -- workers change what they do and stay as many
      cases Pool.step_of_move hmove with
      | take | play | send => exact List.length_set
    | @launch j job hj hp =>
      rcases Job.launch_spec c.now.settings c.now.pool job.request with
        ⟨_, _, heq, -⟩ | ⟨_, -, -, -, heq⟩ <;>
        rw [heq] <;> rfl
    | receive hj hchange =>
      obtain ⟨_, _, _, _, _, -, -, hr, rfl⟩ := Job.receive?_eq_some hchange
      obtain ⟨_, _, -, -, rfl⟩ := Pool.receive?_eq_some hr
      rfl
    | conclude hj hchange =>
      obtain ⟨_, _, _, _, -, rfl⟩ := Job.conclude?_eq_some hchange
      rfl
    | lose | leave => rfl

theorem length_jobs_of_step {s : Simulator} {m : Simulator.Move} {after : Published × Simulator}
    (h : Simulator.Step s m after) : after.2.jobs.length = s.jobs.length := by
  simpa using congrArg List.length (requests_of_step h)

/-- A thread that could not be started is that of a job that was submitted. -/
theorem Reachable.lt_of_lost (h : Reachable settings workers c) (hlost : .lose j ∈ c.moves) :
    j < c.now.jobs.length := by
  induction h with
  | start => exact absurd hlost List.not_mem_nil
  | submit _ hs ih =>
    obtain ⟨_, -, -, -, hjobs, -, hmoves, -, -⟩ := submit?_eq_some hs
    rw [hjobs, List.length_append]
    exact Nat.lt_add_right _ (ih (hmoves ▸ hlost))
  | move _ hm ih =>
    obtain ⟨after, hs, hc⟩ := Option.bind_eq_some_iff.mp hm
    obtain rfl := Option.some.inj hc
    have hstep := Simulator.step_of_move hs
    rw [length_jobs_of_step hstep]
    rcases List.mem_append.mp hlost with hlost | hlost
    · exact ih hlost
    · obtain rfl := List.mem_singleton.mp hlost
      cases hstep with
      | lose hj => exact (List.getElem?_eq_some_iff.mp hj).1

/-- What happened to the job of number `j` is what happened to it where it is the only one. -/
structure Mirrors (workers : Nat) (c : Chronicle) (j : Nat) (job : Job) (alone : Chronicle) :
    Prop where
  settings_eq : alone.now.settings = c.now.settings
  jobs_eq : alone.now.jobs = [job.only]
  sees : job.phase.Sees workers c.now.pool alone.now.pool
  stored_eq : alone.storedUnder "A" = c.storedUnder job.lease.token
  received_eq : alone.receivedBy 0 = c.receivedBy j
  lost_iff : .lose 0 ∈ alone.moves ↔ .lose j ∈ c.moves

theorem Mirrors.first (h : Mirrors workers c j job alone) : alone.now.jobs[0]? = some job.only := by
  rw [h.jobs_eq]
  rfl

/-- The job goes on, and does so alone. -/
theorem Mirrors.turn (h : Mirrors workers c j job alone) {registry registry' : Registry}
    {pool pool' : Pool} {phase : Phase} {m m' : Simulator.Move} (published : List Snapshot)
    (reports : List Report)
    (hsees : phase.Sees workers pool pool') (hlost : m' = .lose 0 ↔ m = .lose j) :
    Mirrors workers
      ⟨{ c.now with
          registry := registry
          pool := pool
          jobs := c.now.jobs.set j { job with phase := phase } },
        c.moves ++ [m], c.stored ++ published.map (fun s => (job.lease.token, s)),
        c.received ++ reports.map (fun report => (j, report))⟩
      j { job with phase := phase }
      ⟨{ alone.now with
          registry := registry'
          pool := pool'
          jobs := alone.now.jobs.set 0 { job.only with phase := phase.only } },
        alone.moves ++ [m'], alone.stored ++ published.map (fun s => ("A", s)),
        alone.received ++ reports.map (fun report => (0, report))⟩ where
  settings_eq := h.settings_eq
  jobs_eq := by
    rw [h.jobs_eq]
    rfl
  sees := hsees
  stored_eq := by
    rw [storedUnder_self (c := alone) rfl, h.stored_eq]
    exact (storedUnder_self rfl).symm
  received_eq := by
    rw [receivedBy_self (c := alone) rfl, h.received_eq]
    exact (receivedBy_self rfl).symm
  lost_iff := by
    simp only [List.mem_append, List.mem_singleton, h.lost_iff, eq_comm, hlost]

/-- Something else happens. -/
theorem Mirrors.frame (h : Mirrors workers c j job alone)
    (hsettings : c'.now.settings = c.now.settings)
    (honly : ∀ lane, job.phase.lane? = some lane → c'.now.pool.only lane = c.now.pool.only lane)
    (hstored : c'.storedUnder job.lease.token = c.storedUnder job.lease.token)
    (hreceived : c'.receivedBy j = c.receivedBy j)
    (hlost : .lose j ∈ c'.moves ↔ .lose j ∈ c.moves) :
    Mirrors workers c' j job alone where
  settings_eq := h.settings_eq.trans hsettings.symm
  jobs_eq := h.jobs_eq
  sees := h.sees.frame honly
  stored_eq := h.stored_eq.trans hstored.symm
  received_eq := h.received_eq.trans hreceived.symm
  lost_iff := h.lost_iff.trans hlost.symm

/-- A job that was just submitted is alone at its own submission. -/
theorem exists_alone_of_submit (hreach : Reachable settings workers c) {drawn : List Token}
    {request : Request Setup} (hs : c.submit? drawn request = some c')
    (hj : c'.now.jobs[c.now.jobs.length]? = some job) :
    ∃ alone, ofJob? settings workers job.request [] = some alone ∧
      Mirrors workers c' c.now.jobs.length job alone := by
  have hsound := hreach.sound
  obtain ⟨lease, hfree, hsettings, hpool, hjobs, -, hmoves, hstored, hreceived⟩ :=
    submit?_eq_some hs
  obtain rfl : job = ⟨lease, request, .waiting⟩ := by
    rw [hjobs, List.getElem?_concat_length] at hj
    exact (Option.some.inj hj).symm
  -- a new token, under which nothing was stored before
  have hnothing : c.storedUnder lease.token = [] := by
    rw [hreach.lookup_eq] at hfree
    exact List.getLast?_eq_none_iff.mp hfree
  refine ⟨_, rfl, hsound.settings_eq.symm.trans hsettings.symm, rfl, rfl, ?_, ?_, ?_⟩
  · rw [storedUnder_self hstored, hnothing]
    rfl
  · unfold receivedBy
    rw [hreceived]
    exact hsound.receivedBy_length.symm
  · rw [hmoves]
    exact ⟨fun h => absurd h List.not_mem_nil,
      fun h => absurd (hreach.lt_of_lost h) (Nat.lt_irrefl _)⟩

/-- A submission stores nothing under the token of a job that is there. -/
theorem Reachable.storedUnder_submit (h : Reachable settings workers c)
    (hj : c.now.jobs[j]? = some job) {drawn : List Token} {request : Request Setup}
    (hs : c.submit? drawn request = some c') :
    c'.storedUnder job.lease.token = c.storedUnder job.lease.token := by
  obtain ⟨lease, hfree, -, -, -, -, -, hstored, -⟩ := submit?_eq_some hs
  refine storedUnder_ne hstored fun heq => ?_
  -- something was stored of every job, and nothing under the new token
  obtain ⟨rest, hrest⟩ := (h.sound.standing hj).head_eq
  rw [heq, h.lookup_eq, hrest] at hfree
  exact absurd hfree (by simp)

theorem Mirrors.submit (h : Mirrors workers c j job alone) (hreach : Reachable settings workers c)
    (hj : c.now.jobs[j]? = some job) {drawn : List Token} {request : Request Setup}
    (hs : c.submit? drawn request = some c') : Mirrors workers c' j job alone := by
  obtain ⟨_, -, hsettings, hpool, -, -, hmoves, -, hreceived⟩ := submit?_eq_some hs
  refine h.frame hsettings (fun lane _ => by rw [hpool]) (hreach.storedUnder_submit hj hs) ?_
    (by rw [hmoves])
  unfold receivedBy
  rw [hreceived]

theorem move?_of_step {m : Simulator.Move} {after : Published × Simulator}
    (h : Simulator.Step c.now m after) :
    c.move? m =
      some ⟨after.2, c.moves ++ [m], c.stored ++ after.1,
        c.received ++ (c.now.delivery? m).toList⟩ := by
  simp [Chronicle.move?, h.move]

/-- What a move does to a job: the phase it is in afterwards, and where it is then if it is
alone. -/
def Followed (workers : Nat) (c' : Chronicle) (j : Nat) (job : Job) (alone : Chronicle) : Prop :=
  ∃ phase alone', c'.now.jobs[j]? = some { job with phase := phase } ∧
    (alone' = alone ∨ ∃ m', alone.move? m' = some alone') ∧
      Mirrors workers c' j { job with phase := phase } alone'

/-- What the thread of the job does, it does alone as well. -/
theorem Mirrors.apply (h : Mirrors workers c j job alone) (hj : c.now.jobs[j]? = some job)
    {m m' : Simulator.Move} {change change' : Job.Change} (honly : change.Only workers change')
    (hstep : Simulator.Step alone.now m' (alone.now.apply 0 job.only change'))
    (hlost : m' = .lose 0 ↔ m = .lose j) (reports : List Report)
    (hd : (c.now.delivery? m).toList = reports.map fun report => (j, report))
    (hd' : (alone.now.delivery? m').toList = reports.map fun report => (0, report)) :
    Followed workers
      ⟨(c.now.apply j job change).2, c.moves ++ [m], c.stored ++ (c.now.apply j job change).1,
        c.received ++ (c.now.delivery? m).toList⟩ j job alone := by
  have hlt := (List.getElem?_eq_some_iff.mp hj).1
  refine ⟨change.phase, _, List.getElem?_set_self hlt, Or.inr ⟨m', move?_of_step hstep⟩, ?_⟩
  rw [hd, hd']
  simp only [Simulator.apply, honly.published_eq, honly.phase_eq]
  exact h.turn change.published reports honly.sees hlost

/-- The lease of the job is released, among others as alone. -/
theorem Mirrors.close (h : Mirrors workers c j job alone) (hreach : Reachable settings workers c)
    (halone : Reachable settings workers alone) (hj : c.now.jobs[j]? = some job)
    {m m' : Simulator.Move} {crashing : Bool}
    (hstep : Simulator.Step alone.now m' (alone.now.close 0 job.only crashing))
    (hlost : m' = .lose 0 ↔ m = .lose j) (hd : c.now.delivery? m = none)
    (hd' : alone.now.delivery? m' = none) :
    Followed workers
      ⟨(c.now.close j job crashing).2, c.moves ++ [m], c.stored ++ (c.now.close j job crashing).1,
        c.received ++ (c.now.delivery? m).toList⟩ j job alone := by
  have hlt := (List.getElem?_eq_some_iff.mp hj).1
  -- both look up what was stored last, and the same was
  have hclosing : alone.now.registry.closing? "A" crashing =
      c.now.registry.closing? job.lease.token crashing := by
    unfold Registry.closing?
    rw [halone.lookup_eq, hreach.lookup_eq, h.stored_eq]
  refine ⟨.gone, _, List.getElem?_set_self hlt, Or.inr ⟨m', move?_of_step hstep⟩, ?_⟩
  rw [hd, hd', Simulator.close, Simulator.close]
  simp only [Job.only, hclosing]
  exact h.turn _ [] trivial hlost

/-- Another job goes on. -/
theorem Mirrors.beside (h : Mirrors workers c j job alone) (hsound : Sound settings c)
    (hj : c.now.jobs[j]? = some job) {m : Simulator.Move} {after : Published × Simulator} {k : Nat}
    {other : Job} (ht : Simulator.Turn c.now k other m after) (hne : k ≠ j) (hm : m ≠ .lose j) :
    Followed workers
      ⟨after.2, c.moves ++ [m], c.stored ++ after.1, c.received ++ (c.now.delivery? m).toList⟩
      j job alone := by
  obtain ⟨hk, ⟨phase, hjobs⟩, hsettings, ⟨published, hstored⟩, ⟨reports, hreceived⟩, honly⟩ := ht
  refine ⟨job.phase, alone, ?_, Or.inl rfl, h.frame hsettings (fun lane hl => ?_) ?_ ?_ ?_⟩
  · rw [hjobs]
    exact (List.getElem?_set_ne hne).trans hj
  · exact honly lane ((hsound.standing hj).lane_lt hl) fun hl' => hne (hsound.lanes hk hj hl' hl)
  · rw [hstored]
    exact storedUnder_ne rfl fun heq => hne (hsound.tokens hk hj heq)
  · rw [hreceived]
    exact receivedBy_ne rfl hne
  · simp [hm.symm]

/-- A worker goes on. -/
theorem Mirrors.work (h : Mirrors workers c j job alone) (hj : c.now.jobs[j]? = some job)
    {m : Pool.Move} {pool : Pool} (hm : c.now.pool.move? m = some pool) :
    Followed workers
      ⟨{ c.now with pool := pool }, c.moves ++ [.work m], c.stored ++ [], c.received ++ []⟩
      j job alone := by
  have hstay : (∀ lane, job.phase.lane? = some lane → pool.only lane = c.now.pool.only lane) →
      Followed workers
        ⟨{ c.now with pool := pool }, c.moves ++ [.work m], c.stored ++ [], c.received ++ []⟩
        j job alone := fun honly =>
    ⟨job.phase, alone, hj, Or.inl rfl,
      h.frame rfl honly (by simp [storedUnder]) (by simp [receivedBy]) (by simp)⟩
  cases hp : job.phase with
  | waiting | leaving | gone => exact hstay (by simp [hp, Phase.lane?])
  | collecting loadout lane collector =>
    have hsees := h.sees
    rw [hp] at hsees
    -- to the lane of the job that was a move of its own, or nothing happened
    obtain hsame | ⟨m', hm'⟩ := Pool.only_of_move hm lane
    · refine hstay fun lane' hl => ?_
      obtain rfl : lane = lane' := by simpa [hp, Phase.lane?] using hl
      exact hsame
    · rw [← show alone.now.pool = c.now.pool.only lane from hsees] at hm'
      refine ⟨job.phase, _, hj, Or.inr ⟨.work m', move?_of_step (.work hm')⟩, ?_⟩
      refine ⟨h.settings_eq, h.jobs_eq, ?_, ?_, ?_, ?_⟩
      · rw [hp]
        rfl
      · simpa [storedUnder] using h.stored_eq
      · simpa [receivedBy, Simulator.delivery?] using h.received_eq
      · simp [h.lost_iff]

/-- **A move of a simulator is a move of each of its jobs, or none.** -/
theorem Mirrors.move (h : Mirrors workers c j job alone) (hreach : Reachable settings workers c)
    (halone : Reachable settings workers alone) (hj : c.now.jobs[j]? = some job)
    {m : Simulator.Move} (hm : c.move? m = some c') : Followed workers c' j job alone := by
  obtain ⟨after, hs, hc⟩ := Option.bind_eq_some_iff.mp hm
  obtain rfl := Option.some.inj hc
  have hsound := hreach.sound
  have hstep := Simulator.step_of_move hs
  by_cases hown : m.job? = some j
  · -- the job itself goes on, and alone it makes the same move under the number zero
    have hfirst := h.first
    have hsees := h.sees
    cases hstep with
    | work hmove => exact absurd hown (by simp [Simulator.Move.job?])
    | launch hk hp =>
      obtain rfl := Option.some.inj hown
      obtain rfl := Option.some.inj (hk.symm.trans hj)
      rw [hp] at hsees
      obtain rfl := hsound.settings_eq
      have hlaunch := Simulator.Step.launch hfirst (congrArg Phase.only hp)
      rw [h.settings_eq, show alone.now.pool = .start workers from hsees] at hlaunch
      exact h.apply hj (Job.launch_only _ hsound.wired hreach.length_workers _) hlaunch
        (by simp) [] rfl rfl
    | lose hk hp =>
      obtain rfl := Option.some.inj hown
      obtain rfl := Option.some.inj (hk.symm.trans hj)
      exact h.close hreach halone hj (.lose hfirst (congrArg Phase.only hp)) (by simp) rfl rfl
    | @receive k other change hk hchange =>
      obtain rfl := Option.some.inj hown
      obtain rfl := Option.some.inj (hk.symm.trans hj)
      obtain ⟨change', hchange', honly⟩ := Job.receive_only hchange hsees
      obtain ⟨_, lane, _, report, _, hp, -, hr, -⟩ := Job.receive?_eq_some hchange
      rw [hp] at hsees
      have hd : c.now.delivery? (.receive k) = some (k, report) := by
        simp [Simulator.delivery?, hj, hp, hr]
      have hd' : alone.now.delivery? (.receive 0) = some (0, report) := by
        rw [Simulator.delivery?, hfirst, Job.only, hp,
          show alone.now.pool = c.now.pool.only lane from hsees]
        simp [Phase.only, Pool.only_of_receive hr]
      refine h.apply hj honly (.receive hfirst hchange') (by simp) [report] ?_ ?_
      · rw [hd]
        rfl
      · rw [hd']
        rfl
    | conclude hk hchange =>
      obtain rfl := Option.some.inj hown
      obtain rfl := Option.some.inj (hk.symm.trans hj)
      obtain ⟨change', hchange', honly⟩ := Job.conclude_only (hsound.standing hj) hchange workers
      exact h.apply hj honly (.conclude hfirst hchange') (by simp) [] rfl rfl
    | leave hk hp =>
      obtain rfl := Option.some.inj hown
      obtain rfl := Option.some.inj (hk.symm.trans hj)
      exact h.close hreach halone hj (.leave hfirst (congrArg Phase.only hp)) (by simp) rfl rfl
  · -- a worker or another job goes on
    cases hk : m.job? with
    | none =>
      cases hstep with
      | work hmove => exact h.work hj hmove
      | launch | lose | receive | conclude | leave =>
        exact absurd hk (by simp [Simulator.Move.job?])
    | some k =>
      obtain ⟨other, hturn⟩ := Simulator.turn_of_step hstep hk
      refine h.beside hsound hj hturn ?_ ?_
      · rintro rfl
        exact hown hk
      · rintro rfl
        exact hown rfl

/-- One more move may follow. -/
theorem follow_concat {moves : List Simulator.Move} (h : c.follow moves = some c')
    {m : Simulator.Move} {next : Chronicle} (hm : c'.move? m = some next) :
    c.follow (moves ++ [m]) = some next := by
  induction moves generalizing c with
  | nil =>
    obtain rfl := Option.some.inj h
    simp [Chronicle.follow, hm]
  | cons first rest ih =>
    obtain ⟨after, hfirst, hrest⟩ := Option.bind_eq_some_iff.mp h
    simp [Chronicle.follow, hfirst, ih hrest]

/-- **What happens to a job among others can happen to it alone.** By induction on what happened:
each submission and each move is followed by at most one move of the job alone. -/
theorem Reachable.exists_alone (h : Reachable settings workers c) (hj : c.now.jobs[j]? = some job) :
    ∃ moves alone, ofJob? settings workers job.request moves = some alone ∧
      Mirrors workers c j job alone := by
  induction h generalizing job with
  | start => exact absurd hj (by simp [Chronicle.start, Simulator.start])
  | @submit c c' drawn request hreach hs ih =>
    obtain ⟨lease, -, -, -, hjobs, -⟩ := submit?_eq_some hs
    -- the job was there before, or it is the new one and starts alone
    rcases getElem?_append_job (hjobs ▸ hj) with hold | ⟨rfl, -⟩
    · obtain ⟨moves, alone, halone, hmirrors⟩ := ih hold
      exact ⟨moves, alone, halone, hmirrors.submit hreach hold hs⟩
    · obtain ⟨alone, halone, hmirrors⟩ := exists_alone_of_submit hreach hs hj
      exact ⟨[], alone, halone, hmirrors⟩
  | @move c c' m hreach hm ih =>
    have hlt : j < c.now.jobs.length := by
      obtain ⟨after, hs, hc⟩ := Option.bind_eq_some_iff.mp hm
      obtain rfl := Option.some.inj hc
      rw [← length_jobs_of_step (Simulator.step_of_move hs)]
      exact (List.getElem?_eq_some_iff.mp hj).1
    have hbefore := List.getElem?_eq_getElem hlt
    obtain ⟨moves, alone, halone, hmirrors⟩ := ih hbefore
    obtain ⟨phase, alone', hafter, hmoved, hmirrors'⟩ :=
      hmirrors.move hreach (ofJob?_eq_some halone).1 hbefore hm
    obtain rfl := Option.some.inj (hafter.symm.trans hj)
    -- nothing happened to it, or one more move did
    rcases hmoved with rfl | ⟨m', hm'⟩
    · exact ⟨moves, alone', halone, hmirrors'⟩
    · obtain ⟨first, hfirst, hfollow⟩ := Option.bind_eq_some_iff.mp halone
      exact ⟨moves ++ [m'], alone',
        Option.bind_eq_some_iff.mpr ⟨first, hfirst, follow_concat hfollow hm'⟩, hmirrors'⟩

/-- The last snapshot of a job that is over is decided by its request. -/
theorem Reachable.verdict_of_gone (h : Reachable settings workers c)
    (hj : c.now.jobs[j]? = some job) (hgone : job.phase = .gone)
    (hstarted : Simulator.Move.lose j ∉ c.moves) :
    (Job.verdict settings job.request).isFinal = true ∧
      c.now.registry.lookup job.lease.token = some (Job.verdict settings job.request) := by
  have hstand := h.sound.standing hj
  rw [hgone] at hstand
  obtain ⟨before, last, hlast, -, hfinal⟩ := hstand.isEnded_of_gone
  rcases hstand.of_gone with ⟨hlost, -, -⟩ | ⟨crashing, told, hcourse, hstored⟩
  · exact absurd hlost hstarted
  · -- what was stored last, by the form of its course
    have hverdict := hcourse.verdict_eq
    rw [← hstored] at hverdict
    obtain rfl : last = Job.verdict settings job.request := by
      rw [hlast, List.getLast?_concat] at hverdict
      exact Option.some.inj hverdict
    exact ⟨hfinal, (h.lookup_eq _).trans hverdict⟩

/-- Only a job itself stores anything under its token. -/
theorem Sound.token_ne (h : Sound settings c) (hj : c.now.jobs[j]? = some job) {m : Simulator.Move}
    {after : Published × Simulator} (hm : c.now.move? m = some after) (hother : m.job? ≠ some j) :
    ∀ entry ∈ after.1, entry.1 ≠ job.lease.token := by
  have hstep := Simulator.step_of_move hm
  cases hk : m.job? with
  | none =>
    cases hstep with
    | work => exact fun entry he => absurd he List.not_mem_nil
    | launch | lose | receive | conclude | leave => exact absurd hk (by simp [Simulator.Move.job?])
  | some k =>
    obtain ⟨other, hturn⟩ := Simulator.turn_of_step hstep hk
    obtain ⟨published, hpublished⟩ := hturn.stored_eq
    rw [hpublished]
    intro entry he heq
    obtain ⟨s, -, rfl⟩ := List.mem_map.mp he
    obtain rfl := h.tokens hturn.job_eq hj heq
    exact hother hk

/-- **Jobs do not interfere**, whatever they are and in whatever order threads and workers go on.
Their tokens are distinct, and nothing but a job itself stores anything under its token. What was
stored of a job so far, and what it received, is what a job with the same request stores and
receives in a run of its own, on a fresh simulator. And once it is over, its last snapshot is the
one that every such run ends with, with any number of workers. -/
theorem jobs_do_not_interfere (h : Reachable settings workers c) :
    (∀ {i j : Nat} {job job' : Job}, c.now.jobs[i]? = some job → c.now.jobs[j]? = some job' →
      job.lease.token = job'.lease.token → i = j) ∧
    ∀ {j : Nat} {job : Job}, c.now.jobs[j]? = some job →
      (∀ m after, c.now.move? m = some after → m.job? ≠ some j →
        ∀ entry ∈ after.1, entry.1 ≠ job.lease.token) ∧
      (∀ drawn request c', c.submit? drawn request = some c' →
        c'.storedUnder job.lease.token = c.storedUnder job.lease.token) ∧
      (∃ moves alone job', ofJob? settings workers job.request moves = some alone ∧
        alone.now.jobs = [job'] ∧
        alone.storedUnder job'.lease.token = c.storedUnder job.lease.token ∧
        alone.receivedBy 0 = c.receivedBy j ∧ (job'.phase = .gone ↔ job.phase = .gone) ∧
        (Simulator.Move.lose 0 ∈ alone.moves ↔ Simulator.Move.lose j ∈ c.moves)) ∧
      (job.phase = .gone → Simulator.Move.lose j ∉ c.moves → ∃ last, last.isFinal = true ∧
        c.now.registry.lookup job.lease.token = some last ∧
        ∀ {workers' alone job'}, Reachable settings workers' alone → alone.now.jobs = [job'] →
          job'.request = job.request → job'.phase = .gone → Simulator.Move.lose 0 ∉ alone.moves →
          alone.now.registry.lookup job'.lease.token = some last) := by
  have hsound := h.sound
  refine ⟨hsound.tokens, fun {j job} hj => ⟨?_, ?_, ?_, ?_⟩⟩
  · exact fun m after hm hother => hsound.token_ne hj hm hother
  · exact fun drawn request c' hs => h.storedUnder_submit hj hs
  · obtain ⟨moves, alone, halone, hmirrors⟩ := h.exists_alone hj
    refine ⟨moves, alone, job.only, halone, hmirrors.jobs_eq, hmirrors.stored_eq,
      hmirrors.received_eq, ?_, hmirrors.lost_iff⟩
    unfold Job.only Phase.only
    cases job.phase <;> simp
  · intro hgone hstarted
    obtain ⟨hfinal, hlookup⟩ := h.verdict_of_gone hj hgone hstarted
    refine ⟨_, hfinal, hlookup, ?_⟩
    intro workers' alone job' halone hjobs hrequest hgone' hstarted'
    have hfirst : alone.now.jobs[0]? = some job' := by
      rw [hjobs]
      rfl
    rw [← hrequest]
    exact (halone.verdict_of_gone hfirst hgone' hstarted').2

/-- Two iterations, which one worker plays for a lane of one place, and a job beside them that
crashes while its loadout is built. -/
theorem jobs_do_not_interfere_beside_a_crash :
    ∃ c first second, Reachable ⟨none, 2, 1, 1, 0⟩ 1 c ∧ c.now.jobs = [first, second] ∧
      first.phase = .gone ∧ second.phase = .gone ∧ first.lease.token ≠ second.lease.token ∧
      c.storedUnder second.lease.token = [.pending 7, closing (.pending 7) true] ∧
      ∃ last moves alone job', last.isFinal = true ∧
        c.now.registry.lookup first.lease.token = some last ∧
        ofJob? ⟨none, 2, 1, 1, 0⟩ 1 first.request moves = some alone ∧ alone.now.jobs = [job'] ∧
        alone.storedUnder job'.lease.token = c.storedUnder first.lease.token := by
  let moves : List Simulator.Move :=
    [.launch 0, .work (.take 0 1), .work (.play 0), .launch 1, .work (.send 0), .receive 0,
      .leave 1, .work (.take 0 0), .work (.play 0), .work (.send 0), .receive 0, .conclude 0,
      .leave 0]
  have hend : ((((start ⟨none, 2, 1, 1, 0⟩ 1).submit? ["A"]
      ⟨30, 2, 8, .built (Fixture.scripted none)⟩).bind fun c =>
        (c.submit? ["A", "B"] ⟨30, 7, 0, .crashed⟩).bind (·.follow moves)).map fun c =>
          (c.now.jobs.map fun job => (job.effort, job.lease.token), c.storedUnder "B",
            decide (Simulator.Move.lose 0 ∈ c.moves))) =
      some ([(0, "A"), (0, "B")], [.pending 7, closing (.pending 7) true], false) := by
    decide +kernel
  obtain ⟨c, hc, hstate⟩ := Option.map_eq_some_iff.mp hend
  obtain ⟨c₁, hfirst, hc⟩ := Option.bind_eq_some_iff.mp hc
  obtain ⟨c₂, hsecond, hfollow⟩ := Option.bind_eq_some_iff.mp hc
  have h : Reachable ⟨none, 2, 1, 1, 0⟩ 1 c :=
    ((Reachable.start.submit hfirst).submit hsecond).follow hfollow
  obtain ⟨hjobs, hstored, hstarted⟩ :
      c.now.jobs.map (fun job => (job.effort, job.lease.token)) = [(0, "A"), (0, "B")] ∧
        c.storedUnder "B" = [.pending 7, closing (.pending 7) true] ∧
        Simulator.Move.lose 0 ∉ c.moves := by
    simpa using hstate
  obtain ⟨first, rest, hlist, hfirst, hrest⟩ := List.map_eq_cons_iff.mp hjobs
  obtain ⟨second, nothing, rfl, hsecond, hnothing⟩ := List.map_eq_cons_iff.mp hrest
  obtain rfl := List.map_eq_nil_iff.mp hnothing
  simp only [Prod.mk.injEq] at hfirst hsecond
  obtain ⟨heffort, htoken⟩ := hfirst
  obtain ⟨heffort', htoken'⟩ := hsecond
  have hgone := Job.effort_eq_zero_iff.mp heffort
  obtain ⟨htokens, hisolated⟩ := jobs_do_not_interfere h
  have hj : c.now.jobs[0]? = some first := by
    rw [hlist]
    rfl
  have hj' : c.now.jobs[1]? = some second := by
    rw [hlist]
    rfl
  obtain ⟨-, -, ⟨moves, alone, job', halone, hjobs', hsame, -, -, -⟩, hlast⟩ := hisolated hj
  obtain ⟨last, hfinal, hlookup, -⟩ := hlast hgone hstarted
  have hne : first.lease.token ≠ second.lease.token := fun heq =>
    absurd (htokens hj hj' heq) (by decide)
  exact ⟨c, first, second, h, hlist, hgone, Job.effort_eq_zero_iff.mp heffort', hne,
    by rw [htoken', hstored], last, moves, alone, job', hfinal, hlookup, halone, hjobs', hsame⟩

end Chronicle
end Trials
end CombatTrials
