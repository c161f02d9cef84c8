import CombatTrials.Proofs.Trials.Standing

/-!
# Every job stands somewhere

`Reachable.sound` is the invariant that everything about whole jobs is read off: in every reachable
chronicle, every job stands where `Job.Standing` says.

A move concerns one job at most, and that job's own part is in `Standing`. What is left to show is
that the others stand where they stood (`Sound.turn`), so the invariant also says what keeps jobs
apart: no two of them have one token, and no two collect from one lane. It says the converse too,
that whatever is owed is owed to some job, because a lane that nobody collects from could hold up
the workers.
-/

namespace CombatTrials
namespace Trials

open Data.Ledger (entriesOf)
open List (Perm)

namespace Chronicle

/-- What holds of every reachable chronicle. -/
structure Sound (settings : Settings) (c : Chronicle) : Prop where
  settings_eq : c.now.settings = settings
  wired : c.now.pool.Wired
  /-- Every job stands somewhere. -/
  standing : ∀ {j : Nat} {job : Job}, c.now.jobs[j]? = some job →
    Job.Standing settings c.now.pool job.request (.lose j ∈ c.moves) job.phase
      (c.storedUnder job.lease.token) (c.receivedBy j)
  /-- No two jobs have one token. -/
  tokens : ∀ {i j : Nat} {job job' : Job}, c.now.jobs[i]? = some job → c.now.jobs[j]? = some job' →
    job.lease.token = job'.lease.token → i = j
  /-- No two jobs collect from one lane. -/
  lanes : ∀ {i j lane : Nat} {job job' : Job}, c.now.jobs[i]? = some job →
    c.now.jobs[j]? = some job' → job.phase.lane? = some lane → job'.phase.lane? = some lane →
    i = j
  /-- Where something is owed, a job collects it. -/
  claimed : ∀ {lane : Nat}, c.now.pool.owed lane ≠ [] →
    ∃ (j : Nat) (job : Job), c.now.jobs[j]? = some job ∧ job.phase.lane? = some lane
  /-- Only jobs receive reports. -/
  expected : ∀ entry ∈ c.received, entry.1 < c.now.jobs.length

variable {settings : Settings} {c : Chronicle}

theorem sound_start (settings : Settings) (workers : Nat) :
    Sound settings (start settings workers) where
  settings_eq := rfl
  wired := Pool.wired_start workers
  standing hj := absurd hj (by simp [start, Simulator.start])
  tokens hj := absurd hj (by simp [start, Simulator.start])
  lanes hj := absurd hj (by simp [start, Simulator.start])
  claimed h := absurd rfl h
  expected _ h := absurd h List.not_mem_nil

/-- A job that was not submitted yet has received nothing. -/
theorem Sound.receivedBy_length (h : Sound settings c) : c.receivedBy c.now.jobs.length = [] := by
  unfold receivedBy entriesOf
  rw [List.filterMap_eq_nil_iff]
  intro entry he
  have hlt := h.expected entry he
  rw [if_neg (Nat.ne_of_lt hlt)]

/-- A job after a submission was there before or is the new one. -/
theorem getElem?_append_job {jobs : List Job} {added job : Job} {j : Nat}
    (h : (jobs ++ [added])[j]? = some job) :
    jobs[j]? = some job ∨ (j = jobs.length ∧ job = added) := by
  rcases Nat.lt_trichotomy j jobs.length with hlt | heq | hgt
  · exact Or.inl (List.getElem?_append_left hlt ▸ h)
  · subst heq
    exact Or.inr ⟨rfl, by simpa using h.symm⟩
  · exact absurd h (by rw [List.getElem?_eq_none (by simp; omega)]; simp)

/-- **A submission** adds a job that waits, with a token of its own, and leaves the others alone. -/
theorem Sound.submit {workers : Nat} {c' : Chronicle} {drawn : List Token} {request : Request Setup}
    (h : Sound settings c) (hreach : Reachable settings workers c)
    (hs : c.submit? drawn request = some c') : Sound settings c' := by
  obtain ⟨lease, hfree, hsettings, hpool, hjobs, -, hmoves, hstored, hreceived⟩ :=
    submit?_eq_some hs
  have hnothing : c.storedUnder lease.token = [] := by
    rw [hreach.lookup_eq] at hfree
    exact List.getLast?_eq_none_iff.mp hfree
  -- what is known of a job is never nothing, so the token is new
  have hnew : ∀ {j : Nat} {job : Job}, c.now.jobs[j]? = some job →
      job.lease.token ≠ lease.token := by
    intro j job hj heq
    obtain ⟨rest, hrest⟩ := (h.standing hj).head_eq
    rw [heq, hnothing] at hrest
    exact absurd hrest (by simp)
  refine ⟨hsettings.trans h.settings_eq, hpool ▸ h.wired, ?_, ?_, ?_, ?_, ?_⟩
  · intro j job hj
    rw [hjobs] at hj
    rcases getElem?_append_job hj with hj | ⟨rfl, rfl⟩
    · have hreceived' : c'.receivedBy j = c.receivedBy j := by
        unfold receivedBy
        rw [hreceived]
      rw [hpool, hmoves, storedUnder_ne hstored (hnew hj).symm, hreceived']
      exact h.standing hj
    · have hreceived' : c'.receivedBy c.now.jobs.length = [] := by
        unfold receivedBy
        rw [hreceived]
        exact h.receivedBy_length
      have hstored' : c'.storedUnder lease.token = [.pending request.maxIterations] := by
        have hgrown := storedUnder_self hstored
        rwa [hnothing, List.nil_append] at hgrown
      rw [hstored', hreceived']
      exact .waiting
  · intro i j job job' hi hj heq
    rw [hjobs] at hi hj
    rcases getElem?_append_job hi with hi | ⟨rfl, rfl⟩ <;>
      rcases getElem?_append_job hj with hj | ⟨rfl, rfl⟩
    · exact h.tokens hi hj heq
    · exact absurd heq (hnew hi)
    · exact absurd heq.symm (hnew hj)
    · rfl
  · intro i j lane job job' hi hj hlane hlane'
    rw [hjobs] at hi hj
    rcases getElem?_append_job hi with hi | ⟨rfl, rfl⟩
    · rcases getElem?_append_job hj with hj | ⟨rfl, rfl⟩
      · exact h.lanes hi hj hlane hlane'
      · exact absurd hlane' (by simp [Phase.lane?])
    · exact absurd hlane (by simp [Phase.lane?])
  · intro lane howed
    rw [hpool] at howed
    obtain ⟨j, job, hj, hlane⟩ := h.claimed howed
    refine ⟨j, job, ?_, hlane⟩
    rw [hjobs, List.getElem?_append_left (List.getElem?_eq_some_iff.mp hj).1, hj]
  · intro entry he
    rw [hreceived] at he
    rw [hjobs, List.length_append]
    exact Nat.lt_of_lt_of_le (h.expected entry he) (Nat.le_add_right _ _)

/-! ## Moves

Each kind of move has its lemma. Those that do not touch the pool are turns of one job alone, and
the launch of a job is the one move that adds a lane. -/

/-- One job goes on: its own part is `hstanding`, and the lanes of others are kept as they are. -/
theorem Sound.turn (h : Sound settings c) {j : Nat} {job : Job} (hj : c.now.jobs[j]? = some job)
    {registry : Registry} {pool : Pool} {phase : Phase} {m : Simulator.Move}
    {published : List Snapshot} (received : List Report) (hwired : pool.Wired)
    (hserves : ∀ {lane loadout maxTurns}, c.now.pool.Serves lane loadout maxTurns →
      pool.Serves lane loadout maxTurns)
    (howed : ∀ {lane}, lane < c.now.pool.lanes.length → job.phase.lane? ≠ some lane →
      pool.owed lane = c.now.pool.owed lane)
    (hlane : ∀ {lane}, phase.lane? = some lane →
      job.phase.lane? = some lane ∨ lane = c.now.pool.lanes.length)
    (hclaimed : ∀ {lane}, pool.owed lane ≠ [] →
      phase.lane? = some lane ∨ (job.phase.lane? ≠ some lane ∧ c.now.pool.owed lane ≠ []))
    (hstanding : Job.Standing settings pool job.request (.lose j ∈ c.moves ++ [m]) phase
      (c.storedUnder job.lease.token ++ published) (c.receivedBy j ++ received)) :
    Sound settings
      ⟨{ c.now with
          registry := registry
          pool := pool
          jobs := c.now.jobs.set j { job with phase := phase } },
        c.moves ++ [m], c.stored ++ published.map (fun snapshot => (job.lease.token, snapshot)),
        c.received ++ received.map (fun report => (j, report))⟩ := by
  have hlt := (List.getElem?_eq_some_iff.mp hj).1
  -- the jobs after the move, by what they were before it
  have hjobs : ∀ {k : Nat} {job' : Job},
      (c.now.jobs.set j { job with phase := phase })[k]? = some job' →
      (k = j ∧ job' = { job with phase := phase }) ∨ (j ≠ k ∧ c.now.jobs[k]? = some job') := by
    intro k job' hk
    by_cases hjk : j = k
    · subst hjk
      rw [List.getElem?_set_self hlt] at hk
      exact Or.inl ⟨rfl, (Option.some.inj hk).symm⟩
    · rw [List.getElem?_set_ne hjk] at hk
      exact Or.inr ⟨hjk, hk⟩
  -- another job collects from a lane that was there before, and not from the one of this job
  have hother : ∀ {k : Nat} {job' : Job} {lane : Nat}, j ≠ k → c.now.jobs[k]? = some job' →
      job'.phase.lane? = some lane → lane < c.now.pool.lanes.length ∧ job.phase.lane? ≠ some lane :=
    fun hjk hk hl => ⟨(h.standing hk).lane_lt hl, fun hl' => hjk (h.lanes hj hk hl' hl)⟩
  refine ⟨h.settings_eq, hwired, ?_, ?_, ?_, ?_, ?_⟩
  · intro k job' hk
    rcases hjobs hk with ⟨rfl, rfl⟩ | ⟨hjk, hk⟩
    · rw [storedUnder_self (c := c) rfl, receivedBy_self (c := c) rfl]
      exact hstanding
    · have htoken : job.lease.token ≠ job'.lease.token := fun heq => hjk (h.tokens hj hk heq)
      rw [storedUnder_ne (c := c) rfl htoken, receivedBy_ne (c := c) rfl hjk]
      refine (h.standing hk).frame (fun hl => List.mem_append_left _ hl)
        (fun _ _ _ _ hs => hserves hs) ?_
      intro lane hl
      obtain ⟨hlt', hne⟩ := hother hjk hk hl
      rw [howed hlt' hne]
  · intro i k job' job'' hi hk heq
    rcases hjobs hi with ⟨rfl, rfl⟩ | ⟨-, hi'⟩ <;> rcases hjobs hk with ⟨rfl, rfl⟩ | ⟨-, hk'⟩
    · rfl
    · exact h.tokens hj hk' heq
    · exact h.tokens hi' hj heq
    · exact h.tokens hi' hk' heq
  · intro i k lane job' job'' hi hk hl hl'
    rcases hjobs hi with ⟨rfl, rfl⟩ | ⟨hji, hi'⟩ <;> rcases hjobs hk with ⟨rfl, rfl⟩ | ⟨hjk, hk'⟩
    · rfl
    · obtain ⟨hlt', hne⟩ := hother hjk hk' hl'
      rcases hlane hl with hsame | rfl
      · exact absurd hsame hne
      · exact absurd hlt' (Nat.lt_irrefl _)
    · obtain ⟨hlt', hne⟩ := hother hji hi' hl
      rcases hlane hl' with hsame | rfl
      · exact absurd hsame hne
      · exact absurd hlt' (Nat.lt_irrefl _)
    · exact h.lanes hi' hk' hl hl'
  · intro lane ho
    rcases hclaimed ho with hl | ⟨hne, ho⟩
    · exact ⟨j, { job with phase := phase }, List.getElem?_set_self hlt, hl⟩
    · obtain ⟨k, job', hk, hl⟩ := h.claimed ho
      have hjk : j ≠ k := by
        rintro rfl
        exact hne (Option.some.inj (hj.symm.trans hk) ▸ hl)
      exact ⟨k, job', (List.getElem?_set_ne hjk).trans hk, hl⟩
  · intro entry he
    rw [List.length_set]
    rcases List.mem_append.mp he with he | he
    · exact h.expected entry he
    · obtain ⟨report, -, rfl⟩ := List.mem_map.mp he
      exact hlt

/-- One job goes on and leaves the pool as it is, owed nothing before and without a lane after
it. -/
theorem Sound.turn_alone (h : Sound settings c) {j : Nat} {job : Job}
    (hj : c.now.jobs[j]? = some job) {registry : Registry} {phase : Phase} {m : Simulator.Move}
    {published : List Snapshot}
    (hdone : ∀ {lane}, job.phase.lane? = some lane → c.now.pool.owed lane = [])
    (hlane : phase.lane? = none)
    (hstanding : Job.Standing settings c.now.pool job.request (.lose j ∈ c.moves ++ [m]) phase
      (c.storedUnder job.lease.token ++ published) (c.receivedBy j)) :
    Sound settings
      ⟨{ c.now with registry := registry, jobs := c.now.jobs.set j { job with phase := phase } },
        c.moves ++ [m], c.stored ++ published.map (fun snapshot => (job.lease.token, snapshot)),
        c.received ++ []⟩ := by
  refine h.turn hj [] h.wired (fun hs => hs) (fun _ _ => rfl) ?_ ?_ ?_
  · intro lane hl
    exact absurd (hlane.symm.trans hl) (by simp)
  · intro lane ho
    exact Or.inr ⟨fun hl => ho (hdone hl), ho⟩
  · rwa [List.append_nil]

/-- A worker goes on: every lane is owed what it was owed. -/
theorem Sound.work (h : Sound settings c) {m : Pool.Move} {pool : Pool}
    (hm : c.now.pool.move? m = some pool) :
    Sound settings
      ⟨{ c.now with pool := pool }, c.moves ++ [.work m], c.stored ++ [], c.received ++ []⟩ := by
  have hstep := Pool.step_of_move hm
  rw [List.append_nil, List.append_nil]
  refine ⟨h.settings_eq, h.wired.step hstep, ?_, h.tokens, h.lanes, ?_, h.expected⟩
  · intro j job hj
    exact (h.standing hj).frame (fun hl => List.mem_append_left _ hl)
      (fun _ _ _ _ hs => Pool.serves_of_step hstep hs)
      (fun lane _ => Pool.owed_perm_of_step hstep lane)
  · intro lane ho
    exact h.claimed fun hnone => ho ((hnone ▸ Pool.owed_perm_of_step hstep lane).eq_nil)

/-- The thread of a job starts: it comes to its end at once, or all reports of the job are owed to
it by a new lane. -/
theorem Sound.launch (h : Sound settings c) {j : Nat} {job : Job} (hj : c.now.jobs[j]? = some job)
    (hp : job.phase = .waiting) :
    Sound settings
      ⟨(c.now.apply j job (Job.launch c.now.settings c.now.pool job.request)).2,
        c.moves ++ [.launch j],
        c.stored ++ (c.now.apply j job (Job.launch c.now.settings c.now.pool job.request)).1,
        c.received ++ []⟩ := by
  obtain rfl := h.settings_eq
  have hstand := h.standing hj
  rw [hp] at hstand
  obtain ⟨hstored, hreceived⟩ := hstand.of_waiting
  have hnolane : ∀ {lane}, job.phase.lane? ≠ some lane := by simp [hp, Phase.lane?]
  rcases Job.launch_spec c.now.settings c.now.pool job.request with
    ⟨crashing, published, hlaunch, hcourse⟩ | ⟨loadout, hl, hn, hm, hlaunch⟩
  · rw [hlaunch]
    refine h.turn_alone hj (fun hl => absurd hl hnolane) ?_ ?_
    · rfl
    · rw [hstored, hreceived]
      exact .leaving hcourse
  · rw [hlaunch]
    -- all its reports are owed on the lane that is new, and nothing changes on the others
    have howed : (c.now.pool.withLane
        (.empty loadout job.request.maxTurns c.now.settings.channelCapacity.toNat)
        (Schedule.ofSeed job.request.seed job.request.maxIterations).toList
        c.now.settings.chunkSize.toNat).owed c.now.pool.lanes.length =
          Job.reports job.request loadout :=
      Pool.owed_withLane_self h.wired rfl
    refine h.turn hj [] ?_ Pool.serves_withLane (fun hlt _ => Pool.owed_withLane_of_lt hlt) ?_ ?_ ?_
    · exact h.wired.withLane (Nat.le_max_left 1 _)
    · exact fun hl => Or.inr (Option.some.inj hl).symm
    · intro lane ho
      rcases Nat.lt_trichotomy lane c.now.pool.lanes.length with hlt | heq | hgt
      · exact Or.inr ⟨hnolane, by rwa [Pool.owed_withLane_of_lt hlt] at ho⟩
      · exact Or.inl (congrArg some heq.symm)
      · exact absurd (Pool.owed_withLane_of_gt hgt) ho
    · rw [hstored, hreceived]
      refine .collecting hl hn hm Pool.serves_withLane_self ?_
      rw [howed]
      exact .refl _

/-- The thread of a job cannot be started, so its lease is released over the snapshot of the
submission. -/
theorem Sound.lose {workers : Nat} (h : Sound settings c) (hreach : Reachable settings workers c)
    {j : Nat} {job : Job} (hj : c.now.jobs[j]? = some job) (hp : job.phase = .waiting) :
    Sound settings ⟨(c.now.close j job false).2, c.moves ++ [.lose j],
      c.stored ++ (c.now.close j job false).1, c.received ++ []⟩ := by
  have hstand := h.standing hj
  rw [hp] at hstand
  obtain ⟨hstored, hreceived⟩ := hstand.of_waiting
  -- nothing but the submission was stored, so there is a snapshot to publish
  have hclosing : c.now.registry.closing? job.lease.token false =
      some (closing (.pending job.request.maxIterations) false) := by
    unfold Registry.closing?
    rw [hreach.lookup_eq, hstored]
    rfl
  refine h.turn_alone hj (fun hl => absurd hl (by simp [hp, Phase.lane?])) ?_ ?_
  · rfl
  · rw [hstored, hreceived, hclosing]
    exact .lost (by simp)

theorem Sound.leave {workers : Nat} (h : Sound settings c) (hreach : Reachable settings workers c)
    {j : Nat} {job : Job} {crashing : Bool} (hj : c.now.jobs[j]? = some job)
    (hp : job.phase = .leaving crashing) :
    Sound settings ⟨(c.now.close j job crashing).2, c.moves ++ [.leave j],
      c.stored ++ (c.now.close j job crashing).1, c.received ++ []⟩ := by
  have hstand := h.standing hj
  rw [hp] at hstand
  have hcourse := hstand.of_leaving
  refine h.turn_alone hj (fun hl => absurd hl (by simp [hp, Phase.lane?])) ?_ ?_
  · rfl
  · rw [hcourse.closing?_eq (hreach.lookup_eq _)]
    exact .gone hcourse

theorem Sound.receive (h : Sound settings c) {j : Nat} {job : Job} {change : Job.Change}
    (hj : c.now.jobs[j]? = some job) (hc : Job.receive? c.now.pool job.phase = some change) :
    Sound settings ⟨(c.now.apply j job change).2, c.moves ++ [.receive j],
      c.stored ++ (c.now.apply j job change).1,
      c.received ++ (c.now.delivery? (.receive j)).toList⟩ := by
  obtain ⟨loadout, lane, collector, report, pool', hp, -, hr, rfl⟩ := Job.receive?_eq_some hc
  have hstand := h.standing hj
  rw [hp] at hstand
  obtain ⟨hl, hn, hm, hs, hperm, hcollector, hstored⟩ := hstand.of_collecting
  have hdelivery : c.now.delivery? (.receive j) = some (j, report) := by
    simp [Simulator.delivery?, hj, hp, hr]
  rw [hdelivery]
  refine h.turn hj [report] (h.wired.receive hr) (Pool.serves_of_receive hr) ?_ ?_ ?_ ?_
  · intro lane' _ hne
    refine Pool.owed_of_receive_ne hr fun heq => hne ?_
    rw [hp, ← heq]
    rfl
  · intro lane' hl'
    rw [hp]
    exact Or.inl hl'
  · intro lane' ho
    by_cases heq : lane = lane'
    · exact Or.inl (congrArg some heq)
    · rw [Pool.owed_of_receive_ne hr heq] at ho
      exact Or.inr ⟨by simpa [hp, Phase.lane?] using heq, ho⟩
  · rw [hstored, hcollector, List.cons_append, ← Collector.published_concat,
      ← Collector.after_concat]
    refine .collecting hl hn hm (Pool.serves_of_receive hr hs) ?_
    -- the report goes over from what is owed to what was received
    rw [List.append_assoc, List.singleton_append, ← Pool.owed_of_receive hr]
    exact hperm

/-- A job stops collecting: it was owed nothing any more, so its course is over with every report
received. -/
theorem Sound.conclude (h : Sound settings c) {j : Nat} {job : Job} {change : Job.Change}
    (hj : c.now.jobs[j]? = some job)
    (hc : Job.conclude? c.now.pool job.request.maxTurns job.phase = some change) :
    Sound settings ⟨(c.now.apply j job change).2, c.moves ++ [.conclude j],
      c.stored ++ (c.now.apply j job change).1, c.received ++ []⟩ := by
  cases hp : job.phase with
  | waiting | leaving | gone => exact absurd hc (by simp [hp, Job.conclude?])
  | collecting loadout lane collector =>
    have hstand := h.standing hj
    rw [hp] at hstand hc
    -- nothing is owed any more, so everything was received
    obtain ⟨howed, rfl⟩ := Job.conclude_spec hstand hc
    obtain ⟨hl, hn, hm, hs, hperm, hcollector, hstored⟩ := hstand.of_collecting
    refine h.turn_alone hj ?_ ?_ ?_
    · intro lane' hl'
      rw [hp] at hl'
      exact Option.some.inj hl' ▸ howed
    · rfl
    · rw [hstored, hcollector, List.cons_append]
      rw [howed, List.append_nil] at hperm
      exact .leaving (.many hl hn hm hperm)

/-- Every move keeps the invariant, each in its own way. -/
theorem Sound.move {workers : Nat} (h : Sound settings c) (hreach : Reachable settings workers c)
    {m : Simulator.Move} {after : Published × Simulator} (hs : Simulator.Step c.now m after) :
    Sound settings ⟨after.2, c.moves ++ [m], c.stored ++ after.1,
      c.received ++ (c.now.delivery? m).toList⟩ := by
  cases hs with
  | work hm => exact h.work hm
  | launch hj hp => exact h.launch hj hp
  | lose hj hp => exact h.lose hreach hj hp
  | receive hj hc => exact h.receive hj hc
  | conclude hj hc => exact h.conclude hj hc
  | leave hj hp => exact h.leave hreach hj hp

/-- **Every job stands somewhere**, whatever happened. -/
theorem Reachable.sound {workers : Nat} (h : Reachable settings workers c) : Sound settings c := by
  induction h with
  | start => exact sound_start settings workers
  | submit hreach hs ih => exact ih.submit hreach hs
  | move hreach hm ih =>
    obtain ⟨after, hs, hc⟩ := Option.bind_eq_some_iff.mp hm
    obtain rfl := Option.some.inj hc
    exact ih.move hreach (Simulator.step_of_move hs)

end Chronicle
end Trials
end CombatTrials
