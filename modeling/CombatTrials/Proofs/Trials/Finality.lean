import CombatTrials.Fixture.Loadouts
import CombatTrials.Proofs.Trials.Progress

/-!
# One final snapshot, and nothing after it

Whoever waits for a job polls its token until a snapshot is final and then never looks again. That
is safe if two things hold of what is stored under the token: nothing follows a final snapshot, and
a job that is over left one. `IsOpen` and `IsEnded` are the two states that this allows. A job that
runs is in one or the other, because its own last snapshot may be stored before its lease is
released, and releasing the lease publishes just if the job is still open (`closing?_eq_none_iff`).

Whether a snapshot is final is read off its log, its error and whether it was cancelled, so progress
must have none of these, also when it happens to be complete.
-/

namespace CombatTrials
namespace Trials

namespace Job

/-- No snapshot so far is final. -/
def IsOpen (stored : List Snapshot) : Prop := ∀ s ∈ stored, s.isFinal = false

/-- The last snapshot is final, and it is the first one. -/
def IsEnded (stored : List Snapshot) : Prop :=
  ∃ before last, stored = before ++ [last] ∧ IsOpen before ∧ last.isFinal = true

variable {stored : List Snapshot}

theorem isOpen_pending (n : UInt32) : IsOpen [.pending n] := by
  intro s hs
  rw [List.mem_singleton.mp hs]
  rfl

/-- Progress is never final. -/
theorem isOpen_published (n interval : UInt32) (received : List Report) :
    IsOpen (.pending n :: Collector.published n interval received) := by
  intro s hs
  rcases List.mem_cons.mp hs with rfl | hs
  · rfl
  · obtain ⟨k, -, rfl⟩ := Collector.mem_published n interval hs
    exact Collector.isFinal_snapshot _

/-- A final snapshot ends what is stored. -/
theorem IsOpen.concat {s : Snapshot} (h : IsOpen stored) (hs : s.isFinal = true) :
    IsEnded (stored ++ [s]) :=
  ⟨stored, s, rfl, h, hs⟩

/-- What a lease publishes when it is released is final. -/
theorem isFinal_closing (s : Snapshot) (crashing : Bool) : (closing s crashing).isFinal = true := by
  unfold closing
  split <;> simp [Snapshot.isFinal, Snapshot.withError]

/-- Nothing follows a final snapshot. -/
theorem eq_nil_of_isFinal (h : IsOpen stored ∨ IsEnded stored) {before after : List Snapshot}
    {s : Snapshot} (hs : stored = before ++ s :: after) (hfinal : s.isFinal = true) :
    after = [] := by
  rcases h with hopen | ⟨first, last, hlast, hopen, -⟩
  · -- an open job has no final snapshot at all
    have hmem : s ∈ stored := hs ▸ List.mem_append_right _ List.mem_cons_self
    exact absurd ((hopen s hmem).symm.trans hfinal) (by simp)
  · rcases List.eq_nil_or_concat after with rfl | ⟨rest, final, rfl⟩
    · rfl
    · -- the snapshot stands before the last one, and those are not final
      have hfirst : first = before ++ s :: rest := by
        rw [hlast] at hs
        have hs' : first ++ [last] = (before ++ s :: rest) ++ [final] := by simpa using hs
        exact (List.append_inj' hs' rfl).1
      have hmem : s ∈ first := hfirst ▸ List.mem_append_right _ List.mem_cons_self
      exact absurd ((hopen s hmem).symm.trans hfinal) (by simp)

/-! ## Courses and standings

The two states are read off the forms that a course can have. A crash leaves a job open, and then it
is the release of the lease that ends it. -/

variable {settings : Settings} {pool : Pool} {request : Request Setup} {lost : Prop} {phase : Phase}
  {received : List Report}

theorem Course.isOpen (h : Course settings request true stored received) : IsOpen stored := by
  rw [h.eq_of_crashing]
  exact isOpen_pending _

theorem Course.isEnded (h : Course settings request false stored received) : IsEnded stored := by
  cases h with
  | failed => exact (isOpen_pending _).concat rfl
  | single => exact (isOpen_pending _).concat (isFinal_single _ _ _)
  | many => exact (isOpen_published _ _ _).concat (Collector.isFinal_finish _ _ _)

/-- Once the lease is released there is one in either case. -/
theorem Course.isEnded_closed {crashing : Bool}
    (h : Course settings request crashing stored received) :
    IsEnded (closed request crashing stored) := by
  cases crashing with
  | false =>
    rw [closed, if_neg Bool.false_ne_true, List.append_nil]
    exact h.isEnded
  | true => exact h.isOpen.concat (isFinal_closing _ _)

/-- A job that is over has ended, also if it was lost before its thread started. -/
theorem Standing.isEnded_of_gone (h : Standing settings pool request lost .gone stored received) :
    IsEnded stored := by
  cases h with
  | lost => exact (isOpen_pending _).concat (isFinal_closing _ _)
  | gone h => exact h.isEnded_closed

/-- At any time, a job is open or has ended. -/
theorem Standing.isOpen_or_isEnded (h : Standing settings pool request lost phase stored received) :
    IsOpen stored ∨ IsEnded stored := by
  cases h with
  | waiting => exact Or.inl (isOpen_pending _)
  | collecting => exact Or.inl (isOpen_published _ _ _)
  | @leaving crashing _ _ h =>
    cases crashing with
    | true => exact Or.inl h.isOpen
    | false => exact Or.inr h.isEnded
  | lost => exact Or.inr ((isOpen_pending _).concat (isFinal_closing _ _))
  | gone h => exact Or.inr h.isEnded_closed

/-- Releasing a lease publishes just if no final snapshot was stored. -/
theorem closing?_eq_none_iff {r : Registry} {token : Token} (hne : stored ≠ [])
    (h : IsOpen stored ∨ IsEnded stored) (hr : r.lookup token = stored.getLast?) (crashing : Bool) :
    r.closing? token crashing = none ↔ ∃ s ∈ stored, s.isFinal = true := by
  unfold Registry.closing?
  rw [hr, List.getLast?_eq_some_getLast hne]
  have hmem := List.getLast_mem hne
  cases hfinal : (stored.getLast hne).isFinal with
  | true => simpa [hfinal] using ⟨_, hmem, hfinal⟩
  | false =>
    -- a job that has ended has a final snapshot in the last place, so this one is open
    have hopen : IsOpen stored := by
      rcases h with h | ⟨before, last, rfl, -, hlast⟩
      · exact h
      · rw [List.getLast_concat] at hfinal
        exact absurd (hlast.symm.trans hfinal) (by simp)
    simpa [hfinal, IsOpen] using hopen

end Job

/-! ## All jobs

Who releases the lease of a job looks at what was stored last. Whether anything is left to publish
is therefore a matter of the job having ended. -/

/-- What the moves publish that release the lease of a job. -/
theorem Simulator.published_of_release {s : Simulator} {j : Nat} {job : Job}
    (hj : s.jobs[j]? = some job) {m : Move} {after : Published × Simulator}
    (hm : m = .leave j ∨ m = .lose j) (h : s.move? m = some after) :
    ∃ crashing, after.1 =
      (s.registry.closing? job.lease.token crashing).toList.map fun s => (job.lease.token, s) := by
  rcases hm with rfl | rfl
  · cases step_of_move h with
    | leave hj' =>
      obtain rfl := Option.some.inj (hj'.symm.trans hj)
      exact ⟨_, rfl⟩
  · cases step_of_move h with
    | lose hj' =>
      obtain rfl := Option.some.inj (hj'.symm.trans hj)
      exact ⟨_, rfl⟩

namespace Chronicle

/-- **Every job ends with one final snapshot**, whatever comes of its setup and its plays, also when
its thread could not be started, and in whatever order threads and workers go on.

What is stored of it starts with the snapshot of its submission, nothing follows a final snapshot,
and when the job is over the last one is final. Releasing its lease publishes nothing just if the
job stored a final snapshot itself. Every run ends, and not before the job is over. -/
theorem final_snapshot_is_last {settings : Settings} {workers : Nat} {c : Chronicle}
    {j : Nat} {job : Job} (h : Reachable settings workers c) (hj : c.now.jobs[j]? = some job) :
    (∃ rest, c.storedUnder job.lease.token = .pending job.request.maxIterations :: rest) ∧
    (∀ before s after, c.storedUnder job.lease.token = before ++ s :: after → s.isFinal = true →
      after = []) ∧
    (job.phase = .gone → ∃ last, (c.storedUnder job.lease.token).getLast? = some last ∧
      last.isFinal = true ∧ c.now.registry.lookup job.lease.token = some last) ∧
    (∀ m after, m = .leave j ∨ m = .lose j → c.now.move? m = some after →
      (after.1 = [] ↔ ∃ s ∈ c.storedUnder job.lease.token, s.isFinal = true)) ∧
    (∀ m after, c.now.move? m = some after → after.2.effort < c.now.effort) ∧
    ((∀ m, c.now.move? m = none) → job.phase = .gone) := by
  have hsound := h.sound
  have hstand := hsound.standing hj
  obtain ⟨rest, hhead⟩ := hstand.head_eq
  have hne : c.storedUnder job.lease.token ≠ [] := by rw [hhead]; simp
  refine ⟨⟨rest, hhead⟩, ?_, ?_, ?_, ?_, ?_⟩
  · intro before s after
    exact Job.eq_nil_of_isFinal hstand.isOpen_or_isEnded
  · intro hgone
    rw [hgone] at hstand
    -- what can be looked up is what was stored last
    obtain ⟨before, last, hlast, -, hfinal⟩ := hstand.isEnded_of_gone
    rw [h.lookup_eq, hlast, List.getLast?_concat]
    exact ⟨last, rfl, hfinal, rfl⟩
  · intro m after hm hmove
    obtain ⟨crashing, hpublished⟩ := Simulator.published_of_release hj hm hmove
    rw [hpublished, List.map_eq_nil_iff, Option.toList_eq_nil_iff]
    exact Job.closing?_eq_none_iff hne hstand.isOpen_or_isEnded (h.lookup_eq _) crashing
  · intro m after hm
    exact (Simulator.step_of_move hm).effort_lt
  · intro hstuck
    exact hsound.gone_of_stuck hstuck hj

/-- A job whose loadout crashes while it is built: the crash is answered when the lease is
released. -/
theorem final_snapshot_is_last_of_crash :
    ∃ c job, Reachable {} 4 c ∧ c.now.jobs[0]? = some job ∧ job.request = ⟨30, 7, 0, .crashed⟩ ∧
      job.phase = .gone ∧
      c.storedUnder job.lease.token = [.pending 7, closing (.pending 7) true] ∧
      ∃ last, (c.storedUnder job.lease.token).getLast? = some last ∧ last.isFinal = true := by
  have hend : ((ofJob? {} 4 ⟨30, 7, 0, .crashed⟩ [.launch 0, .leave 0]).map fun c =>
      c.now.jobs[0]?.map fun job => (job.effort, c.storedUnder job.lease.token)) =
      some (some (0, [.pending 7, closing (.pending 7) true])) := by decide +kernel
  obtain ⟨c, hc, hstate⟩ := Option.map_eq_some_iff.mp hend
  obtain ⟨h, -, job, hj, hrequest⟩ := ofJob?_eq_some hc
  obtain ⟨heffort, hstored⟩ : job.effort = 0 ∧
      c.storedUnder job.lease.token = [.pending 7, closing (.pending 7) true] := by
    simpa [hj] using hstate
  have hgone := Job.effort_eq_zero_iff.mp heffort
  obtain ⟨last, hlast, hfinal, -⟩ := (final_snapshot_is_last h hj).2.2.1 hgone
  exact ⟨c, job, h, hj, hrequest, hgone, hstored, last, hlast, hfinal⟩

end Chronicle
end Trials
end CombatTrials
