import CombatTrials.Proofs.Trials.Chronicle
import CombatTrials.Proofs.Trials.Collecting
import CombatTrials.Proofs.Trials.Delivery
import CombatTrials.Proofs.Trials.Schedule

/-!
# Where a job stands

Threads and workers go on in any order, and yet there is not much that can be seen of one job.
`Course` lists the ways in which the thread of a job can come to its end, each with everything that
was stored by then and everything that was received. `Standing` says the same of every phase: what
was stored and received so far, and what is still owed. Both are closed forms. They speak of one
request and of one lane, never of other jobs.

One way to end that the program provides for is not among those listed, the one with a `Shortfall`.
It does not occur: a job that finds its lane abandoned has received everything
(`Job.conclude_spec`).
-/

namespace CombatTrials
namespace Trials

open Data.Ledger (entriesOf entriesOf_append entriesOf_map_self entriesOf_map_ne)
open Stage (Loadout)
open List (Perm)

def Phase.lane? : Phase → Option Nat
  | .collecting _ lane _ => some lane
  | _ => none

namespace Job

/-! ## The reports of a job

What a job could receive is known from its request, before anything is played. -/

/-- One report of each iteration of a request, in the order of the iterations. -/
def reports (request : Request Setup) (loadout : Loadout) : List Report :=
  (Schedule.ofSeed request.seed request.maxIterations).toList.map fun trial =>
    ⟨trial, loadout.outcome trial.seed request.maxTurns⟩

theorem length_reports (request : Request Setup) (loadout : Loadout) :
    (reports request loadout).length = request.maxIterations.toNat := by
  simp only [reports, List.length_map, Schedule.length_toList_ofSeed]

theorem nodup_index_reports (request : Request Setup) (loadout : Loadout) :
    ((reports request loadout).map fun report => report.trial.index).Nodup := by
  simpa [reports, Function.comp_def] using
    Schedule.nodup_index_toList (Schedule.ofSeed request.seed request.maxIterations)

/-! ## Courses

Four of the courses come to their end without a lane, and the fifth with all that its lane
delivered. Which of them a job takes is settled by its request and by whether a lane can be made. -/

/-- The ways in which the thread of a job comes to its end: whether it crashes, what was stored by
then, and what it received. -/
inductive Course (settings : Settings) (request : Request Setup) :
    (crashing : Bool) → List Snapshot → List Report → Prop
  /-- Building the loadout crashes. -/
  | crashed (hl : request.loadout = .crashed) :
      Course settings request true [.pending request.maxIterations] []
  /-- Building the loadout fails. -/
  | failed {fault : SetupFault} (hl : request.loadout = .failed fault) :
      Course settings request false
        [.pending request.maxIterations, .setupFailed request.maxIterations fault.diagnosis] []
  /-- The only iteration is played with a log. -/
  | single {loadout : Loadout} (hl : request.loadout = .built loadout)
      (hn : request.maxIterations = 1) :
      Course settings request false
        [.pending request.maxIterations, Job.single loadout request.seed request.maxTurns] []
  /-- No lane can be made. -/
  | laneless {loadout : Loadout} (hl : request.loadout = .built loadout)
      (hn : request.maxIterations ≠ 1)
      (hm : Lane.canBeMade settings.channelCapacity.toNat = false) :
      Course settings request true [.pending request.maxIterations] []
  /-- Every report comes in, in some order. -/
  | many {loadout : Loadout} {received : List Report} (hl : request.loadout = .built loadout)
      (hn : request.maxIterations ≠ 1) (hm : Lane.canBeMade settings.channelCapacity.toNat = true)
      (hr : Perm received (reports request loadout)) :
      Course settings request false
        (.pending request.maxIterations ::
          (Collector.published request.maxIterations settings.updateInterval received ++
            [(Collector.after request.maxIterations settings.updateInterval received).finish loadout
              request.maxTurns]))
        received

/-- What is stored of a job in the end: a crash is answered by one more snapshot. -/
def closed (request : Request Setup) (crashing : Bool) (stored : List Snapshot) : List Snapshot :=
  stored ++ if crashing then [closing (.pending request.maxIterations) true] else []

/-- Where a job stands: what was stored and received in a phase. `lost` is whether its thread could
not be started. -/
inductive Standing (settings : Settings) (pool : Pool) (request : Request Setup) (lost : Prop) :
    Phase → List Snapshot → List Report → Prop
  | waiting : Standing settings pool request lost .waiting [.pending request.maxIterations] []
  | collecting {loadout : Loadout} {lane : Nat} {received : List Report}
      (hl : request.loadout = .built loadout) (hn : request.maxIterations ≠ 1)
      (hm : Lane.canBeMade settings.channelCapacity.toNat = true)
      (hs : pool.Serves lane loadout request.maxTurns)
      (hr : Perm (received ++ pool.owed lane) (reports request loadout)) :
      Standing settings pool request lost
        (.collecting loadout lane (.after request.maxIterations settings.updateInterval received))
        (.pending request.maxIterations ::
          Collector.published request.maxIterations settings.updateInterval received)
        received
  | leaving {crashing : Bool} {stored : List Snapshot} {received : List Report}
      (h : Course settings request crashing stored received) :
      Standing settings pool request lost (.leaving crashing) stored received
  | lost (h : lost) :
      Standing settings pool request lost .gone
        [.pending request.maxIterations, closing (.pending request.maxIterations) false] []
  | gone {crashing : Bool} {stored : List Snapshot} {received : List Report}
      (h : Course settings request crashing stored received) :
      Standing settings pool request lost .gone (closed request crashing stored) received

variable {settings : Settings} {pool pool' : Pool} {request : Request Setup} {lost lost' : Prop}
  {phase : Phase} {stored : List Snapshot} {received : List Report}

/-- A job stands where it stood as long as its lane is kept as it is. -/
theorem Standing.frame (h : Standing settings pool request lost phase stored received)
    (hlost : lost → lost')
    (hserves : ∀ lane, phase.lane? = some lane → ∀ loadout maxTurns,
      pool.Serves lane loadout maxTurns → pool'.Serves lane loadout maxTurns)
    (howed : ∀ lane, phase.lane? = some lane → Perm (pool'.owed lane) (pool.owed lane)) :
    Standing settings pool' request lost' phase stored received := by
  cases h with
  | waiting => exact .waiting
  | collecting hl hn hm hs hr =>
    exact .collecting hl hn hm (hserves _ rfl _ _ hs) (((howed _ rfl).append_left _).trans hr)
  | leaving h => exact .leaving h
  | lost h => exact .lost (hlost h)
  | gone h => exact .gone h

/-- A job that collects does so from a lane of the pool. -/
theorem Standing.lane_lt (h : Standing settings pool request lost phase stored received)
    {lane : Nat} (hlane : phase.lane? = some lane) : lane < pool.lanes.length := by
  cases h with
  | collecting hl hn hm hs hr =>
    obtain ⟨channel, hc, -⟩ := hs
    exact Option.some.inj hlane ▸ (List.getElem?_eq_some_iff.mp hc).1
  | waiting | leaving | lost | gone => exact absurd hlane (by simp [Phase.lane?])

theorem Course.head_eq {crashing : Bool} (h : Course settings request crashing stored received) :
    ∃ rest, stored = .pending request.maxIterations :: rest := by
  cases h <;> exact ⟨_, rfl⟩

theorem Standing.head_eq (h : Standing settings pool request lost phase stored received) :
    ∃ rest, stored = .pending request.maxIterations :: rest := by
  cases h with
  | waiting | collecting | lost => exact ⟨_, rfl⟩
  | leaving h => exact h.head_eq
  | gone h =>
    obtain ⟨rest, hrest⟩ := h.head_eq
    rw [closed, hrest]
    exact ⟨_, rfl⟩

/-! ## Reading a phase

Each phase has one standing, so the phase of a job gives away what was stored of it. -/

/-- There is no effort left for a job just when it is over. -/
theorem effort_eq_zero_iff {job : Job} : job.effort = 0 ↔ job.phase = .gone := by
  unfold effort
  cases job.phase <;> simp

-- the phase of a job tells which of the standings is its own

theorem Standing.of_waiting (h : Standing settings pool request lost .waiting stored received) :
    stored = [.pending request.maxIterations] ∧ received = [] := by
  cases h
  exact ⟨rfl, rfl⟩

theorem Standing.of_leaving {crashing : Bool}
    (h : Standing settings pool request lost (.leaving crashing) stored received) :
    Course settings request crashing stored received := by
  cases h with
  | leaving h => exact h

/-- A job that is over was lost, or its thread came to its end. -/
theorem Standing.of_gone (h : Standing settings pool request lost .gone stored received) :
    (lost ∧
      stored = [.pending request.maxIterations, closing (.pending request.maxIterations) false] ∧
      received = []) ∨
    ∃ crashing told, Course settings request crashing told received ∧
      stored = closed request crashing told := by
  cases h with
  | lost h => exact Or.inl ⟨h, rfl, rfl⟩
  | gone h => exact Or.inr ⟨_, _, h, rfl⟩

/-- A job that collects has stored the progress on what it received, and the rest of its reports is
owed to it by its lane. -/
theorem Standing.of_collecting {loadout : Loadout} {lane : Nat} {collector : Collector}
    (h : Standing settings pool request lost (.collecting loadout lane collector) stored received) :
    request.loadout = .built loadout ∧ request.maxIterations ≠ 1 ∧
      Lane.canBeMade settings.channelCapacity.toNat = true ∧
      pool.Serves lane loadout request.maxTurns ∧
      Perm (received ++ pool.owed lane) (reports request loadout) ∧
      collector = .after request.maxIterations settings.updateInterval received ∧
      stored = .pending request.maxIterations ::
        Collector.published request.maxIterations settings.updateInterval received := by
  cases h with
  | collecting hl hn hm hs hr => exact ⟨hl, hn, hm, hs, hr, rfl, rfl⟩

/-- What was received and what is owed are as many as were asked for. -/
theorem length_received_add {lane : Nat} {loadout : Loadout}
    (hr : Perm (received ++ pool.owed lane) (reports request loadout)) :
    received.length + (pool.owed lane).length = request.maxIterations.toNat := by
  rw [← length_reports request loadout, ← hr.length_eq, List.length_append]

/-- A job goes on waiting just as long as it is owed something. -/
theorem isWaiting_after_iff_owed {lane : Nat} {loadout : Loadout}
    (hr : Perm (received ++ pool.owed lane) (reports request loadout)) (interval : UInt32) :
    (Collector.after request.maxIterations interval received).isWaiting = true ↔
      pool.owed lane ≠ [] := by
  have hlength := length_received_add hr
  have hsize := request.maxIterations.toNat_lt_size
  rw [Collector.isWaiting_after_iff _ _ (by omega), ← List.length_pos_iff]
  omega

/-! ## Final snapshots

A course that does not crash ends with a final snapshot, and one that does has stored nothing but
the submission. -/

theorem isFinal_single (loadout : Loadout) (seed : UInt64) (maxTurns : UInt32) :
    (single loadout seed maxTurns).isFinal = true := by
  unfold single
  dsimp only
  split <;> simp [Snapshot.isFinal, Snapshot.withLog, Snapshot.withError]

/-- A thread that crashes stored nothing of its own. -/
theorem Course.eq_of_crashing (h : Course settings request true stored received) :
    stored = [.pending request.maxIterations] := by
  cases h <;> rfl

/-- A thread that does not crash leaves a final snapshot. -/
theorem Course.isFinal_getLast (h : Course settings request false stored received) :
    ∃ last, stored.getLast? = some last ∧ last.isFinal = true := by
  cases h with
  | failed => exact ⟨_, rfl, rfl⟩
  | single => exact ⟨_, rfl, isFinal_single _ _ _⟩
  | @many loadout =>
    refine ⟨(Collector.after request.maxIterations settings.updateInterval received).finish loadout
      request.maxTurns, ?_, Collector.isFinal_finish _ _ _⟩
    rw [← List.cons_append, List.getLast?_concat]

/-- Releasing the lease adds one more snapshot after a crash, and nothing otherwise. -/
theorem Course.closing?_eq {crashing : Bool} (h : Course settings request crashing stored received)
    {r : Registry} {token : Token} (hr : r.lookup token = stored.getLast?) :
    stored ++ (r.closing? token crashing).toList = closed request crashing stored := by
  unfold Registry.closing? closed
  cases crashing with
  | false =>
    obtain ⟨last, hlast, hfinal⟩ := h.isFinal_getLast
    simp [hr, hlast, hfinal]
  | true =>
    obtain rfl := h.eq_of_crashing
    simp [hr, Snapshot.isFinal, Snapshot.pending]

/-! ## What the thread does

The thread of a job makes three kinds of moves on the pool, and each is described by what it
publishes, in which phase the job is then, and what becomes of the pool. -/

/-- A thread that starts comes to its end at once, or it has a lane made on which it is owed its
reports. -/
theorem launch_spec (settings : Settings) (pool : Pool) (request : Request Setup) :
    (∃ crashing published, launch settings pool request = ⟨published, .leaving crashing, pool⟩ ∧
      Course settings request crashing (.pending request.maxIterations :: published) []) ∨
    (∃ loadout, request.loadout = .built loadout ∧ request.maxIterations ≠ 1 ∧
      Lane.canBeMade settings.channelCapacity.toNat = true ∧
      launch settings pool request =
        ⟨[], .collecting loadout pool.lanes.length
          (.after request.maxIterations settings.updateInterval []),
          pool.withLane (.empty loadout request.maxTurns settings.channelCapacity.toNat)
            (Schedule.ofSeed request.seed request.maxIterations).toList
            settings.chunkSize.toNat⟩) := by
  cases hl : request.loadout with
  | crashed =>
    refine Or.inl ⟨true, [], ?_, .crashed hl⟩
    simp only [launch, hl]
  | failed fault =>
    refine Or.inl ⟨false, [.setupFailed request.maxIterations fault.diagnosis], ?_, .failed hl⟩
    simp only [launch, hl]
  | built loadout =>
    -- a single iteration is played at once, and more of them need a lane
    by_cases hn : request.maxIterations = 1
    · refine Or.inl ⟨false, [Job.single loadout request.seed request.maxTurns], ?_, .single hl hn⟩
      simp only [launch, hl, if_pos hn]
    · cases hm : Lane.canBeMade settings.channelCapacity.toNat with
      | false =>
        refine Or.inl ⟨true, [], ?_, .laneless hl hn hm⟩
        simp only [launch, hl, if_neg hn, hm, Bool.not_false, if_true]
      | true =>
        refine Or.inr ⟨loadout, rfl, hn, rfl, ?_⟩
        simp only [launch, hl, if_neg hn, hm, Bool.not_true, Bool.false_eq_true, if_false]
        rfl

/-- A job receives a report while it waits for one, and records it. -/
theorem receive?_eq_some {change : Change} (h : receive? pool phase = some change) :
    ∃ loadout lane collector report pool', phase = .collecting loadout lane collector ∧
      collector.isWaiting = true ∧ pool.receive? lane = some (report, pool') ∧
      change = ⟨(collector.record report).2.toList,
        .collecting loadout lane (collector.record report).1, pool'⟩ := by
  cases phase with
  | waiting | leaving | gone => exact absurd h (by simp [receive?])
  | collecting loadout lane collector =>
    simp only [receive?] at h
    split at h
    · next hwait =>
      obtain ⟨⟨report, pool'⟩, hr, h⟩ := Option.bind_eq_some_iff.mp h
      exact ⟨loadout, lane, collector, report, pool', rfl, hwait, hr, (Option.some.inj h).symm⟩
    · exact absurd h (by simp)

/-- A job that stops collecting publishes one last snapshot, and leaves the pool as it is. -/
theorem conclude?_eq_some {maxTurns : UInt32} {change : Change}
    (h : conclude? pool maxTurns phase = some change) :
    ∃ loadout lane collector s, phase = .collecting loadout lane collector ∧
      change = ⟨[s], .leaving false, pool⟩ := by
  cases phase with
  | waiting | leaving | gone => exact absurd h (by simp [conclude?])
  | collecting loadout lane collector =>
    simp only [conclude?] at h
    split at h
    · split at h
      · exact ⟨loadout, lane, collector, _, rfl, (Option.some.inj h).symm⟩
      · exact absurd h (by simp)
    · exact ⟨loadout, lane, collector, _, rfl, (Option.some.inj h).symm⟩

/-- **There is no shortfall.** A thread that stops collecting has received all it was owed. -/
theorem conclude_spec {loadout : Loadout} {lane : Nat} {collector : Collector} {change : Change}
    (h : Standing settings pool request lost (.collecting loadout lane collector) stored received)
    (hc : conclude? pool request.maxTurns (.collecting loadout lane collector) = some change) :
    pool.owed lane = [] ∧
      change = ⟨[collector.finish loadout request.maxTurns], .leaving false, pool⟩ := by
  obtain ⟨-, -, -, -, hr, rfl, -⟩ := h.of_collecting
  have hiff := isWaiting_after_iff_owed hr settings.updateInterval
  simp only [conclude?] at hc
  split at hc
  · next hwait =>
    split at hc
    · next hnone =>
      -- the lane is empty and abandoned, so nothing is owed, and yet the job waits for a report
      simp only [Bool.and_eq_true, Option.isNone_iff_eq_none] at hnone
      exact absurd (Pool.owed_of_isAbandoned hnone.1 hnone.2) (hiff.mp hwait)
    · exact absurd hc (by simp)
  · next hwait =>
    exact ⟨not_not.mp (mt hiff.mpr hwait), (Option.some.inj hc).symm⟩

end Job
end Trials
end CombatTrials
