import Mathlib.Logic.Relation
import CombatTrials.Proofs.Trials.Leases

/-!
# Waiting for a job

Anybody who has the token of a job may wait for it, at any time and together with others, while the
thread of the job publishes and in the end releases its lease. A `Desk` goes through the release
step by step, as it does through what a caller does: it asks for the lease, is blocked until the
lease is released, and reads the snapshot. Whoever is blocked may wake up at any time and finds out
only then whether it has to go on waiting.

Two orders make this safe. A lease is marked after the final snapshot was published, so whoever
finds it released reads that snapshot; and a token is handed out after its job was begun, so whoever
asks for the lease of a job gets it. What callers know is therefore said of the registry alone
(`Call.Informed`), and stays true whatever others do.
-/

namespace CombatTrials
namespace Trials

open Data (Ledger)
open Data.Ledger (entriesOf entriesOf_append entriesOf_map_ne ofList_append find?_ofList)

/-! ## Callers

A caller relies on what it has found out: that a job was begun, that it is over, or what its last
snapshot is. None of this is ever taken back. -/

/-- How far a caller is that waits for a job, or asks whether it is running. -/
inductive Call where
  /-- It is about to ask for the lease, in order to wait. -/
  | wait (token : Token)
  /-- It waits until the lease is released. -/
  | blocked (lease : Lease)
  | reading (token : Token)
  | returned (token : Token) (found : Option Snapshot)
  /-- It is about to ask for the lease, in order to see whether it is held. -/
  | ask (token : Token)
  | asking (lease : Lease)
  | told (token : Token) (running : Bool)

namespace Call

/-- The token of the job that somebody calls for. -/
def token : Call → Token
  | .wait token | .reading token | .returned token _ | .ask token | .told token _ => token
  | .blocked lease | .asking lease => lease.token

/-- What a caller does next. One that is blocked looks whether the lease is released, whatever woke
it up. -/
def next (r : Registry) : Call → Call
  | .wait token =>
    match r.lease? token with
    | some lease => .blocked lease
    | none => .reading token
  | .blocked lease => if r.isHeld lease then .blocked lease else .reading lease.token
  | .reading token => .returned token (r.lookup token)
  | .returned token found => .returned token found
  | .ask token =>
    match r.lease? token with
    | some lease => .asking lease
    | none => .told token false
  | .asking lease => .told lease.token (r.isHeld lease)
  | .told token running => .told token running

/-- How many steps a caller has left if it is never held up. -/
def left : Call → Nat
  | .wait _ => 3
  | .blocked _ | .ask _ => 2
  | .reading _ | .asking _ => 1
  | .returned .. | .told .. => 0

/-- What a caller relies on. -/
def Informed (r : Registry) : Call → Prop
  | .wait token | .ask token => ∃ lease, r.lease? token = some lease
  | .blocked lease | .asking lease => r.lease? lease.token = some lease
  | .reading token => r.Settled token
  | .returned token found => r.Settled token ∧ found = r.lookup token
  | .told token running => running = false → r.Settled token

variable {r r' : Registry} {call : Call}

/-- What callers rely on is kept by what they do themselves, if leases are marked only of jobs that
are over. -/
theorem Informed.next (h : call.Informed r)
    (hsettled : ∀ {lease}, r.lease? lease.token = some lease → r.isHeld lease = false →
      r.Settled lease.token) : (call.next r).Informed r := by
  cases call with
  | wait token | ask token =>
    obtain ⟨lease, hl⟩ := h
    simp only [Call.next, hl]
    show r.lease? lease.token = some lease
    rwa [Registry.token_of_lease? hl]
  -- woken up, it looks again, and goes on only if the lease was released
  | blocked lease =>
    simp only [Call.next]
    split
    · exact h
    · next hheld => exact hsettled h (Bool.eq_false_iff.mpr hheld)
  | reading token => exact ⟨h, rfl⟩
  | asking lease => exact hsettled h
  | returned | told => exact h

/-- What callers rely on stays when something changes about a job that is not over. -/
theorem Informed.frame (h : call.Informed r) {token : Token} (hc : r.Changes r' token)
    (hnot : ¬ r.Settled token) : call.Informed r' := by
  cases call with
  | wait | ask =>
    obtain ⟨lease, hl⟩ := h
    exact ⟨lease, hc.lease?_mono hl⟩
  | blocked | asking => exact hc.lease?_mono h
  | reading => exact (hc.settled hnot h).1
  -- the snapshot it has read is still the last one
  | returned token' found =>
    obtain ⟨hover, hfound⟩ := h
    obtain ⟨hover', hlookup⟩ := hc.settled hnot hover
    exact ⟨hover', hfound.trans hlookup.symm⟩
  | told => exact fun hidle => (hc.settled hnot (h hidle)).1

theorem Informed.left_next (h : call.Informed r) (hover : r.Settled call.token) :
    (call.next r).left = call.left - 1 := by
  obtain ⟨⟨lease, hl, hheld⟩, -⟩ := hover
  cases call with
  | wait token | ask token =>
    simp only [Call.next, show r.lease? token = some lease from hl, left]
  | blocked lease' =>
    obtain rfl := Option.some.inj (hl.symm.trans h)
    simp [Call.next, hheld, left]
  | reading | asking | returned | told => rfl

end Call

/-! ## The desk

The registry of a simulator is opened up here, so that others can come between the steps of a
release. -/

/-- A registry, the jobs that hold leases of it, and those who call. -/
structure Desk where
  registry : Registry
  keepers : List Keeper
  calls : List Call
  /-- Every snapshot that was stored, under its token. -/
  stored : Published

namespace Desk

/-- A desk to which nothing has happened. -/
def start : Desk := ⟨{}, [], [], []⟩

/-- The snapshots that were stored under a token, the earlier first. -/
def storedUnder (d : Desk) (token : Token) : List Snapshot := entriesOf token d.stored

/-- What can happen next. -/
inductive Step (d : Desk) : Desk → Prop
  | allocate {drawn : List Token} {maxIterations : UInt32} {token : Token} {registry : Registry}
      (h : d.registry.allocate? drawn maxIterations = some (token, registry)) :
      Step d { d with
        registry := registry
        keepers := d.keepers ++ [.submitting token]
        stored := d.stored ++ [(token, .pending maxIterations)] }
  | begin {k : Nat} {token : Token} (hk : d.keepers[k]? = some (.submitting token)) :
      Step d { d with
        registry := (d.registry.begin token).2
        keepers := d.keepers.set k (.running (d.registry.begin token).1) }
  /-- A job that runs may publish anything. -/
  | publish {k : Nat} {lease : Lease} (s : Snapshot) (hk : d.keepers[k]? = some (.running lease)) :
      Step d { d with
        registry := d.registry.publish lease.token s
        stored := d.stored ++ [(lease.token, s)] }
  /-- The release of a lease begins, perhaps in a crash and perhaps of a job that never started. -/
  | look {k : Nat} {lease : Lease} (crashing : Bool) (hk : d.keepers[k]? = some (.running lease)) :
      Step d { d with
        keepers := d.keepers.set k (.looked lease (d.registry.closing? lease.token crashing)) }
  | answer {k : Nat} {lease : Lease} {left : Option Snapshot}
      (hk : d.keepers[k]? = some (.looked lease left)) :
      Step d { d with
        registry := d.registry.answer lease.token left
        keepers := d.keepers.set k (.answered lease)
        stored := d.stored ++ left.toList.map fun s => (lease.token, s) }
  | finish {k : Nat} {lease : Lease} (hk : d.keepers[k]? = some (.answered lease)) :
      Step d { d with
        registry := d.registry.finish lease
        keepers := d.keepers.set k (.released lease) }
  /-- Somebody calls, with the token of a job that was begun. -/
  | enquire {k : Nat} {keeper : Keeper} {lease : Lease} {call : Call}
      (hk : d.keepers[k]? = some keeper) (hl : keeper.lease? = some lease)
      (hc : call = .wait lease.token ∨ call = .ask lease.token) :
      Step d { d with calls := d.calls ++ [call] }
  | go {i : Nat} {call : Call} (hi : d.calls[i]? = some call) :
      Step d { d with calls := d.calls.set i (call.next d.registry) }

/-- What comes of a desk, in whatever order jobs and callers go on. -/
abbrev Later : Desk → Desk → Prop := Relation.ReflTransGen Step

/-- What a desk can come to. -/
abbrev Reachable (d : Desk) : Prop := Later start d

variable {d d' : Desk} {token : Token}

theorem storedUnder_ne {stored : List Snapshot}
    (h : d'.stored = d.stored ++ stored.map fun s => (token, s)) {token' : Token}
    (hne : token' ≠ token) : d'.storedUnder token' = d.storedUnder token' := by
  unfold storedUnder
  rw [h, entriesOf_append, entriesOf_map_ne hne.symm, List.append_nil]

/-- What holds of every desk. -/
structure Orderly (d : Desk) : Prop where
  ordered : d.registry.Ordered
  /-- The registry is what was stored. -/
  snapshots_eq : d.registry.snapshots = Ledger.ofList d.stored
  /-- No two jobs have one token. -/
  tokens : ∀ {i j : Nat} {keeper keeper' : Keeper}, d.keepers[i]? = some keeper →
    d.keepers[j]? = some keeper' → keeper.token = keeper'.token → i = j
  stands : ∀ keeper ∈ d.keepers, keeper.Stands d.registry
  /-- Every lease is that of a job. -/
  claimed : ∀ {token lease}, d.registry.lease? token = some lease →
    ∃ keeper ∈ d.keepers, keeper.lease? = some lease
  informed : ∀ call ∈ d.calls, call.Informed d.registry

theorem orderly_start : Orderly start where
  ordered :=
    ⟨fun _ h => absurd h List.not_mem_nil,
      fun h => absurd h (by simp [start, Registry.lease?, Ledger.find?]),
      fun h => absurd h (by simp [start, Registry.lease?, Ledger.find?]),
      fun h => absurd h (by simp [start, Registry.lease?, Ledger.find?])⟩
  snapshots_eq := rfl
  tokens h := absurd h (by simp [start])
  stands _ h := absurd h List.not_mem_nil
  claimed h := absurd h (by simp [start, Registry.lease?, Ledger.find?])
  informed _ h := absurd h List.not_mem_nil

theorem Orderly.lookup_eq (h : Orderly d) (token : Token) :
    d.registry.lookup token = (d.storedUnder token).getLast? := by
  unfold Registry.lookup
  rw [h.snapshots_eq, find?_ofList]
  rfl

theorem Orderly.settled (h : Orderly d) {lease : Lease}
    (hl : d.registry.lease? lease.token = some lease) (hheld : d.registry.isHeld lease = false) :
    d.registry.Settled lease.token := by
  obtain ⟨keeper, hmem, hlease⟩ := h.claimed hl
  exact (h.stands keeper hmem).settled hlease hheld

/-! ## Steps

Most steps are turns of one job, and what holds of a desk is kept by a turn whatever it is. The
others are submissions, which bring a job, and what callers do. -/

theorem set_of_getElem?_eq_some {k : Nat} {keeper : Keeper} (hk : d.keepers[k]? = some keeper) :
    d.keepers.set k keeper = d.keepers := by
  obtain ⟨hlt, rfl⟩ := List.getElem?_eq_some_iff.mp hk
  exact List.set_getElem_self hlt

/-- The job of number `k` goes on: its keeper becomes another, and nothing changes but about its
token. -/
structure Turn (d : Desk) (k : Nat) (keeper keeper' : Keeper) (registry : Registry)
    (stored : List Snapshot) : Prop where
  keeper_eq : d.keepers[k]? = some keeper
  token_eq : keeper'.token = keeper.token
  held : ∀ lease, keeper.lease? = some lease → d.registry.isHeld lease = true
  ordered : registry.Ordered
  changes : d.registry.Changes registry keeper.token
  snapshots_eq : registry.snapshots =
    (stored.map fun s => (keeper.token, s)).foldl
      (fun l (token, s) => l.set token s) d.registry.snapshots
  stands : keeper'.Stands registry
  claimed : ∀ lease, registry.lease? keeper.token = some lease → keeper'.lease? = some lease

section Turns

variable {k : Nat} {keeper keeper' : Keeper} {registry : Registry} {stored : List Snapshot}

theorem Turn.not_settled (h : Turn d k keeper keeper' registry stored) (hd : Orderly d) :
    ¬ d.registry.Settled keeper.token :=
  (hd.stands keeper (List.mem_of_getElem? h.keeper_eq)).not_settled h.held

/-- A turn of one job keeps everything that holds of a desk: the others stand as they stood, for it
changes nothing but about its own token, and nobody relies on that while the job is not over. -/
theorem Orderly.turn (h : Orderly d) (ht : Turn d k keeper keeper' registry stored) :
    Orderly { d with
      registry := registry
      keepers := d.keepers.set k keeper'
      stored := d.stored ++ stored.map fun s => (keeper.token, s) } := by
  obtain ⟨hk, htoken, -, hordered, hchanges, hsnapshots, hstands, hclaimed⟩ := id ht
  have hlt := (List.getElem?_eq_some_iff.mp hk).1
  have hother : ∀ {j : Nat} {other : Keeper}, k ≠ j → d.keepers[j]? = some other →
      other.token ≠ keeper.token := fun hkj hj heq =>
    hkj (h.tokens hj hk heq).symm
  -- the keepers after the turn, by what they were before it
  have hkeepers : ∀ {j : Nat} {other : Keeper}, (d.keepers.set k keeper')[j]? = some other →
      (k = j ∧ other = keeper') ∨ (k ≠ j ∧ d.keepers[j]? = some other) := by
    intro j other hj
    by_cases hkj : k = j
    · subst hkj
      rw [List.getElem?_set_self hlt] at hj
      exact Or.inl ⟨rfl, (Option.some.inj hj).symm⟩
    · rw [List.getElem?_set_ne hkj] at hj
      exact Or.inr ⟨hkj, hj⟩
  refine ⟨hordered, ?_, ?_, ?_, ?_, ?_⟩
  · rw [hsnapshots, h.snapshots_eq, ofList_append]
  · intro i j first second hi hj heq
    rcases hkeepers hi with ⟨hki, rfl⟩ | ⟨hki, hi'⟩ <;>
      rcases hkeepers hj with ⟨hkj, rfl⟩ | ⟨hkj, hj'⟩
    · exact hki.symm.trans hkj
    · exact absurd (heq.symm.trans htoken) (hother hkj hj')
    · exact absurd (heq.trans htoken) (hother hki hi')
    · exact h.tokens hi' hj' heq
  · intro other hmem
    obtain ⟨j, hj⟩ := List.mem_iff_getElem?.mp hmem
    rcases hkeepers hj with ⟨-, rfl⟩ | ⟨hkj, hj'⟩
    · exact hstands
    · exact (h.stands other (List.mem_of_getElem? hj')).frame hchanges (hother hkj hj')
  · intro token lease hl
    by_cases hne : token = keeper.token
    · subst hne
      exact ⟨keeper', List.mem_set hlt keeper', hclaimed lease hl⟩
    · obtain ⟨other, hmem, hother'⟩ := h.claimed ((hchanges.lease?_eq hne).symm.trans hl)
      obtain ⟨j, hj⟩ := List.mem_iff_getElem?.mp hmem
      have hkj : k ≠ j := by
        rintro rfl
        obtain rfl := Option.some.inj (hj.symm.trans hk)
        have hown := Registry.token_of_lease? hl
        exact hne (hown.symm.trans (Keeper.token_of_lease? hother').symm)
      exact ⟨other, List.mem_of_getElem? ((List.getElem?_set_ne hkj).trans hj), hother'⟩
  · exact fun call hc => (h.informed call hc).frame hchanges (ht.not_settled h)

-- what a job does from its submission to its release are turns, one after the other

theorem Orderly.turn_begin (h : Orderly d) {token : Token}
    (hk : d.keepers[k]? = some (.submitting token)) :
    Turn d k (.submitting token) (.running (d.registry.begin token).1)
      (d.registry.begin token).2 [] := by
  obtain ⟨hknown, hnone⟩ := h.stands _ (List.mem_of_getElem? hk)
  refine ⟨hk, rfl, nofun, h.ordered.begin hknown, Registry.changes_begin hnone, rfl, ?_, ?_⟩
  · exact ⟨Registry.lease?_begin_self _ _, h.ordered.isHeld_begin token⟩
  · intro lease hl
    exact (Registry.lease?_begin_self _ _).symm.trans hl

theorem Orderly.turn_publish (h : Orderly d) {lease : Lease} (s : Snapshot)
    (hk : d.keepers[k]? = some (.running lease)) :
    Turn d k (.running lease) (.running lease) (d.registry.publish lease.token s) [s] := by
  obtain ⟨hl, hheld⟩ := h.stands _ (List.mem_of_getElem? hk)
  refine ⟨hk, rfl, ?_, h.ordered.publish _ s, Registry.changes_publish _ _ s, rfl, ⟨hl, hheld⟩, ?_⟩
  · intro lease' hl'
    exact Option.some.inj hl' ▸ hheld
  · intro lease' hl'
    exact hl.symm.trans hl'

theorem Orderly.turn_look (h : Orderly d) {lease : Lease} (crashing : Bool)
    (hk : d.keepers[k]? = some (.running lease)) :
    Turn d k (.running lease) (.looked lease (d.registry.closing? lease.token crashing))
      d.registry [] := by
  obtain ⟨hl, hheld⟩ := h.stands _ (List.mem_of_getElem? hk)
  refine ⟨hk, rfl, ?_, h.ordered, .refl _ _, rfl, ⟨hl, hheld, crashing, rfl⟩, ?_⟩
  · intro lease' hl'
    exact Option.some.inj hl' ▸ hheld
  · intro lease' hl'
    exact hl.symm.trans hl'

theorem Orderly.turn_answer (h : Orderly d) {lease : Lease} {left : Option Snapshot}
    (hk : d.keepers[k]? = some (.looked lease left)) :
    Turn d k (.looked lease left) (.answered lease) (d.registry.answer lease.token left)
      left.toList := by
  obtain ⟨hl, hheld, crashing, hleft⟩ := h.stands _ (List.mem_of_getElem? hk)
  have hchanges := Registry.changes_answer d.registry lease.token left
  refine ⟨hk, rfl, ?_, h.ordered.answer _ left, hchanges, ?_, ⟨hchanges.lease? hl, ?_, ?_⟩, ?_⟩
  · intro lease' hl'
    exact Option.some.inj hl' ▸ hheld
  · cases left <;> rfl
  · cases left <;> exact hheld
  · exact hleft ▸ Registry.concluded_answer (h.ordered.known hl) crashing
  · intro lease' hl'
    exact (hchanges.lease? hl).symm.trans hl'

theorem Orderly.turn_finish (h : Orderly d) {lease : Lease}
    (hk : d.keepers[k]? = some (.answered lease)) :
    Turn d k (.answered lease) (.released lease) (d.registry.finish lease) [] := by
  obtain ⟨hl, hheld, hconcluded⟩ := h.stands _ (List.mem_of_getElem? hk)
  refine ⟨hk, rfl, ?_, h.ordered.finish hl, h.ordered.changes_finish hl, rfl,
    ⟨hl, Registry.isHeld_finish_self _ _, hconcluded⟩, ?_⟩
  · intro lease' hl'
    exact Option.some.inj hl' ▸ hheld
  · intro lease' hl'
    exact hl.symm.trans hl'

end Turns

/-- A submission takes a token of which nothing is known. -/
theorem Orderly.submitting (h : Orderly d) {token : Token} (hnew : d.registry.lookup token = none)
    (s : Snapshot) :
    Orderly { d with
      registry := d.registry.publish token s
      keepers := d.keepers ++ [.submitting token]
      stored := d.stored ++ [(token, s)] } := by
  have hchanges := Registry.changes_publish d.registry token s
  have hnone : d.registry.lease? token = none := by
    by_contra hne
    obtain ⟨lease, hl⟩ := Option.ne_none_iff_exists'.mp hne
    exact h.ordered.known hl hnew
  -- a job has something stored under its token, and nothing is stored under this one
  have hother : ∀ keeper ∈ d.keepers, keeper.token ≠ token := by
    intro keeper hmem heq
    exact (h.stands keeper hmem).known h.ordered (heq ▸ hnew)
  -- the keepers are those of before and the new one behind them
  have hkeepers : ∀ {j : Nat} {keeper : Keeper},
      (d.keepers ++ [.submitting token])[j]? = some keeper →
      d.keepers[j]? = some keeper ∨ (j = d.keepers.length ∧ keeper = .submitting token) := by
    intro j keeper hj
    rcases Nat.lt_trichotomy j d.keepers.length with hlt | rfl | hgt
    · exact Or.inl ((List.getElem?_append_left hlt).symm.trans hj)
    · rw [List.getElem?_concat_length] at hj
      exact Or.inr ⟨rfl, (Option.some.inj hj).symm⟩
    · rw [List.getElem?_eq_none (by simp; omega)] at hj
      cases hj
  refine ⟨h.ordered.publish token s, ?_, ?_, ?_, ?_, ?_⟩
  · rw [ofList_append, ← h.snapshots_eq]
    rfl
  · intro i j first second hi hj heq
    rcases hkeepers hi with hi' | ⟨rfl, rfl⟩ <;> rcases hkeepers hj with hj' | ⟨rfl, rfl⟩
    · exact h.tokens hi' hj' heq
    · exact absurd heq (hother first (List.mem_of_getElem? hi'))
    · exact absurd heq.symm (hother second (List.mem_of_getElem? hj'))
    · rfl
  · intro keeper hmem
    rcases List.mem_append.mp hmem with hmem | hmem
    · exact (h.stands keeper hmem).frame hchanges (hother keeper hmem)
    · obtain rfl := List.mem_singleton.mp hmem
      exact ⟨by simp, hnone⟩
  · intro token' lease hl
    obtain ⟨keeper, hmem, hlease⟩ := h.claimed hl
    exact ⟨keeper, List.mem_append_left _ hmem, hlease⟩
  · exact fun call hc => (h.informed call hc).frame hchanges (Registry.not_settled_of_unknown hnew)

theorem Orderly.go (h : Orderly d) {i : Nat} {call : Call} (hi : d.calls[i]? = some call) :
    ∀ other ∈ d.calls.set i (call.next d.registry), other.Informed d.registry := by
  intro other hmem
  rcases List.mem_or_eq_of_mem_set hmem with hmem | rfl
  · exact h.informed other hmem
  · exact (h.informed call (List.mem_of_getElem? hi)).next h.settled

/-- Every step keeps it all. -/
theorem Orderly.step (h : Orderly d) (hs : Step d d') : Orderly d' := by
  cases hs with
  | allocate ha =>
    obtain ⟨hnew, rfl⟩ := Registry.allocate?_eq_some ha
    exact h.submitting hnew _
  | begin hk => simpa using h.turn (h.turn_begin hk)
  | @publish k lease s hk =>
    -- the keeper stays as it is
    have hturn := h.turn (h.turn_publish s hk)
    rwa [set_of_getElem?_eq_some hk] at hturn
  | look crashing hk => simpa using h.turn (h.turn_look crashing hk)
  | answer hk => exact h.turn (h.turn_answer hk)
  | finish hk => simpa using h.turn (h.turn_finish hk)
  | @enquire k keeper lease call hk hl hc =>
    have hlease := (h.stands keeper (List.mem_of_getElem? hk)).lease?_eq hl
    refine ⟨h.ordered, h.snapshots_eq, h.tokens, h.stands, h.claimed, ?_⟩
    intro other hmem
    rcases List.mem_append.mp hmem with hmem | hmem
    · exact h.informed other hmem
    · obtain rfl := List.mem_singleton.mp hmem
      rcases hc with rfl | rfl <;> exact ⟨lease, hlease⟩
  | go hi => exact ⟨h.ordered, h.snapshots_eq, h.tokens, h.stands, h.claimed, h.go hi⟩

theorem Orderly.later (h : Orderly d) (hl : Later d d') : Orderly d' := by
  induction hl with
  | refl => exact h
  | tail _ hs ih => exact ih.step hs

/-! ## Simulators

What was proved of desks is carried over to simulators. A move of a simulator is some steps of a
desk, between which nobody calls. -/

/-- A desk that is where a simulator is. Of its callers nothing is said. -/
structure Serves (d : Desk) (c : Chronicle) : Prop where
  registry_eq : d.registry = c.now.registry
  keepers_eq : d.keepers = c.now.jobs.map Keeper.ofJob
  stored_eq : d.stored = c.stored

section Simulators

variable {c c' : Chronicle} {k : Nat} {lease : Lease}

theorem later_publishAll (hk : d.keepers[k]? = some (.running lease)) (published : List Snapshot) :
    Later d { d with
      registry := d.registry.publishAll (published.map fun s => (lease.token, s))
      stored := d.stored ++ published.map fun s => (lease.token, s) } := by
  induction published generalizing d with
  | nil => simpa [Registry.publishAll] using Relation.ReflTransGen.refl
  | cons s rest ih =>
    have hfirst := Step.publish s hk
    have hrest := ih (d := { d with
      registry := d.registry.publish lease.token s
      stored := d.stored ++ [(lease.token, s)] }) hk
    simpa [Registry.publishAll] using hrest.head hfirst

/-- Releasing a lease is three of them: looking, answering and marking. -/
theorem later_release (hk : d.keepers[k]? = some (.running lease)) (crashing : Bool) :
    Later d { d with
      registry := d.registry.release lease crashing
      keepers := d.keepers.set k (.released lease)
      stored := d.stored ++ (d.registry.closing? lease.token crashing).toList.map fun s =>
        (lease.token, s) } := by
  have hlt := (List.getElem?_eq_some_iff.mp hk).1
  have hlooked := Relation.ReflTransGen.single (Step.look crashing hk)
  have hanswered := hlooked.tail (Step.answer (List.getElem?_set_self hlt))
  have hreleased := hanswered.tail (@Step.finish _ k lease (by simp [hlt]))
  simpa [List.set_set, Registry.release_eq] using hreleased

/-- A job of a simulator that is not over holds its lease at the desk. -/
theorem Serves.keeper (h : d.Serves c) {j : Nat} {job : Job} (hj : c.now.jobs[j]? = some job)
    (hp : job.phase ≠ .gone) : d.keepers[j]? = some (.running job.lease) := by
  rw [h.keepers_eq, List.getElem?_map, hj, Option.map_some, Keeper.ofJob_eq hp]

theorem Serves.submit (h : d.Serves c) {drawn : List Token} {request : Request Setup}
    (hs : c.submit? drawn request = some c') :
    ∃ d', Later d d' ∧ d'.calls = d.calls ∧ d'.Serves c' := by
  obtain ⟨⟨token, s⟩, hs, hc⟩ := Option.bind_eq_some_iff.mp hs
  obtain ⟨⟨token', registry⟩, ha, hs⟩ := Option.bind_eq_some_iff.mp hs
  obtain ⟨rfl, rfl⟩ := Prod.mk.inj (Option.some.inj hs)
  obtain rfl := Option.some.inj hc
  rw [← h.registry_eq] at ha
  have hallocated := Relation.ReflTransGen.single (Step.allocate ha)
  have hbegun := hallocated.tail (@Step.begin _ d.keepers.length token' (by simp))
  refine ⟨_, hbegun, rfl, rfl, ?_, ?_⟩
  · rw [List.set_append_right _ _ (Nat.le_refl _), Nat.sub_self, h.keepers_eq, List.map_append]
    rfl
  · simp [h.stored_eq]

theorem Serves.apply (h : d.Serves c) {j : Nat} {job : Job} {change : Job.Change}
    (hj : c.now.jobs[j]? = some job) (hp : job.phase ≠ .gone) (hp' : change.phase ≠ .gone)
    (moves : List Simulator.Move) (received : List (Nat × Report)) :
    ∃ d', Later d d' ∧ d'.calls = d.calls ∧ d'.Serves ⟨(c.now.apply j job change).2, moves,
      c.stored ++ (c.now.apply j job change).1, received⟩ := by
  have hk := h.keeper hj hp
  have hset := set_of_getElem?_eq_some hk
  rw [h.keepers_eq] at hset
  have hjob : Keeper.ofJob { job with phase := change.phase } = .running job.lease :=
    Keeper.ofJob_eq hp'
  refine ⟨_, later_publishAll hk change.published, rfl, ?_, ?_, ?_⟩
  · rw [h.registry_eq]
    rfl
  · simp only [Simulator.apply, List.map_set, hjob, hset, h.keepers_eq]
  · rw [h.stored_eq]
    rfl

/-- A lease that is released by a simulator is released at a desk in three steps. -/
theorem Serves.close (h : d.Serves c) {j : Nat} {job : Job} (hj : c.now.jobs[j]? = some job)
    (hp : job.phase ≠ .gone) (crashing : Bool) (moves : List Simulator.Move)
    (received : List (Nat × Report)) :
    ∃ d', Later d d' ∧ d'.calls = d.calls ∧ d'.Serves ⟨(c.now.close j job crashing).2, moves,
      c.stored ++ (c.now.close j job crashing).1, received⟩ := by
  refine ⟨_, later_release (h.keeper hj hp) crashing, rfl, ?_, ?_, ?_⟩
  · rw [h.registry_eq]
    rfl
  · simp only [Simulator.close, List.map_set, h.keepers_eq, Keeper.ofJob]
  · rw [h.stored_eq, h.registry_eq]
    rfl

/-- What a move does to the registry, a desk does as well, step after step. -/
theorem Serves.move (h : d.Serves c) {m : Simulator.Move} (hm : c.move? m = some c') :
    ∃ d', Later d d' ∧ d'.calls = d.calls ∧ d'.Serves c' := by
  obtain ⟨after, hs, hc⟩ := Option.bind_eq_some_iff.mp hm
  obtain rfl := Option.some.inj hc
  cases Simulator.step_of_move hs with
  -- a worker does nothing to the registry
  | work hm => exact ⟨d, .refl, rfl, h.registry_eq, h.keepers_eq, by simp [h.stored_eq]⟩
  | @launch j job hj hp =>
    refine h.apply hj (by simp [hp]) ?_ _ _
    rcases Job.launch_spec c.now.settings c.now.pool job.request with
      ⟨_, _, heq, -⟩ | ⟨_, -, -, -, heq⟩ <;>
      simp [heq]
  | receive hj hchange =>
    obtain ⟨_, _, _, _, _, hp, -, -, rfl⟩ := Job.receive?_eq_some hchange
    exact h.apply hj (by simp [hp]) (by simp) _ _
  | conclude hj hchange =>
    obtain ⟨_, _, _, _, hp, rfl⟩ := Job.conclude?_eq_some hchange
    exact h.apply hj (by simp [hp]) (by simp) _ _
  | lose hj hp => exact h.close hj (by simp [hp]) _ _ _
  | leave hj hp => exact h.close hj (by simp [hp]) _ _ _

/-- **Whatever can happen to a simulator, a desk can follow**, whoever calls in between. -/
theorem exists_serves {settings : Settings} {workers : Nat}
    (h : Chronicle.Reachable settings workers c) : ∃ d, Reachable d ∧ d.Serves c := by
  induction h with
  | start => exact ⟨start, .refl, rfl, rfl, rfl⟩
  | submit _ hs ih =>
    obtain ⟨d, hd, hserves⟩ := ih
    obtain ⟨d', hlater, -, hserves'⟩ := hserves.submit hs
    exact ⟨d', hd.trans hlater, hserves'⟩
  | move _ hm ih =>
    obtain ⟨d, hd, hserves⟩ := ih
    obtain ⟨d', hlater, -, hserves'⟩ := hserves.move hm
    exact ⟨d', hd.trans hlater, hserves'⟩

end Simulators

/-! ## Jobs that are over

Once a job is over no step concerns it: what changes something changes it about a job that is not.
-/

/-- A step changes something about one job that is not over, or about callers only. -/
theorem Step.changes (hs : Step d d') (h : Orderly d) :
    (∃ (token : Token) (stored : List Snapshot), ¬ d.registry.Settled token ∧
      d.registry.Changes d'.registry token ∧
      d'.stored = d.stored ++ stored.map fun s => (token, s)) ∨
    (d'.registry = d.registry ∧ d'.stored = d.stored) := by
  have hturn : ∀ {k keeper keeper' registry stored}, Turn d k keeper keeper' registry stored →
      ∃ (token : Token) (stored' : List Snapshot), ¬ d.registry.Settled token ∧
        d.registry.Changes registry token ∧
        d.stored ++ stored.map (fun s => (keeper.token, s)) =
          d.stored ++ stored'.map fun s => (token, s) :=
    fun ht => ⟨_, _, ht.not_settled h, ht.changes, rfl⟩
  cases hs with
  | allocate ha =>
    obtain ⟨hnew, rfl⟩ := Registry.allocate?_eq_some ha
    exact Or.inl ⟨_, [_], Registry.not_settled_of_unknown hnew, Registry.changes_publish _ _ _, rfl⟩
  | begin hk => simpa using Or.inl (hturn (h.turn_begin hk))
  | publish s hk => exact Or.inl (hturn (h.turn_publish s hk))
  | look crashing hk => exact Or.inr ⟨rfl, rfl⟩
  | answer hk => exact Or.inl (hturn (h.turn_answer hk))
  | finish hk => simpa using Or.inl (hturn (h.turn_finish hk))
  | enquire | go => exact Or.inr ⟨rfl, rfl⟩

/-- A job that is over stays so, and nothing more is stored of it. -/
theorem Step.settled (hs : Step d d') (h : Orderly d) (hover : d.registry.Settled token) :
    d'.registry.Settled token ∧ d'.storedUnder token = d.storedUnder token := by
  rcases hs.changes h with ⟨token', stored, hnot, hchanges, hstored⟩ | ⟨hregistry, hstored⟩
  · have hne : token ≠ token' := fun heq => hnot (heq ▸ hover)
    exact ⟨(hchanges.settled hnot hover).1, storedUnder_ne hstored hne⟩
  · exact ⟨hregistry ▸ hover, congrArg (entriesOf token) hstored⟩

theorem Later.settled (hl : Later d d') (h : Orderly d) (hover : d.registry.Settled token) :
    d'.registry.Settled token ∧ d'.storedUnder token = d.storedUnder token := by
  induction hl with
  | refl => exact ⟨hover, rfl⟩
  | tail hl hs ih =>
    obtain ⟨hover', hstored⟩ := ih
    obtain ⟨hover'', hstored'⟩ := hs.settled (h.later hl) hover'
    exact ⟨hover'', hstored'.trans hstored⟩

/-- Callers who have their answer know that the job is over. -/
theorem Orderly.settled_of_answered (h : Orderly d)
    (hseen : (∃ found, .returned token found ∈ d.calls) ∨ .told token false ∈ d.calls) :
    d.registry.Settled token := by
  rcases hseen with ⟨found, hmem⟩ | hmem
  · exact (h.informed _ hmem).1
  · exact h.informed _ hmem rfl

/-- **Whoever waits for a job sees its one final snapshot.** Once anybody came back from waiting, or
was told that the job is not running, nothing more is stored under its token, and the snapshot that
was stored last is final. It is what every lookup finds from then on, and what everybody who waits
has got or will get: no call is held up any more. This holds for any number of jobs and of callers,
whatever the jobs publish, whether they crash or not, and in whatever order all of them go on. -/
theorem waiters_see_one_final_snapshot (h : Reachable d)
    (hseen : (∃ found, .returned token found ∈ d.calls) ∨ .told token false ∈ d.calls) :
    ∃ last : Snapshot, last.isFinal = true ∧ ∀ d', Later d d' →
      d'.storedUnder token = d.storedUnder token ∧
      (d'.storedUnder token).getLast? = some last ∧
      d'.registry.lookup token = some last ∧
      (∀ found, .returned token found ∈ d'.calls → found = some last) ∧
      ∀ call ∈ d'.calls, call.token = token → (call.next d'.registry).left = call.left - 1 := by
  have hd := orderly_start.later h
  have hover := hd.settled_of_answered hseen
  obtain ⟨-, last, hlast, hfinal⟩ := id hover
  refine ⟨last, hfinal, ?_⟩
  intro d' hlater
  have hd' := hd.later hlater
  obtain ⟨hover', hstored⟩ := hlater.settled hd hover
  -- nothing was stored since, so the last is still the last
  have hlast' : (d'.storedUnder token).getLast? = some last := by
    rw [hstored, ← hd.lookup_eq, hlast]
  have hlookup : d'.registry.lookup token = some last := (hd'.lookup_eq token).trans hlast'
  refine ⟨hstored, hlast', hlookup, ?_, ?_⟩
  · intro found hmem
    exact (hd'.informed _ hmem).2.trans hlookup
  · intro call hmem htoken
    exact (hd'.informed call hmem).left_next (htoken ▸ hover')

/-- A job crashes after it published nothing but its submission. One caller has waited for it and
has the snapshot that answers the crash; another is still waiting. -/
theorem waiters_see_one_final_snapshot_of_crash :
    ∃ d, Reachable d ∧
      d.calls = [.returned "A" (some (closing (.pending 3) true)), .blocked ⟨"A", 0⟩] ∧
      d.storedUnder "A" = [.pending 3, closing (.pending 3) true] ∧
      ∃ last : Snapshot, last.isFinal = true ∧ ∀ d', Later d d' →
        d'.storedUnder "A" = d.storedUnder "A" ∧ d'.registry.lookup "A" = some last := by
  have hsubmitted : Reachable
      ⟨⟨[("A", .pending 3)], [], [], 0⟩, [.submitting "A"], [], [("A", .pending 3)]⟩ :=
    .tail .refl (@Step.allocate _ ["A"] 3 "A" _ rfl)
  have hbegun : Reachable
      ⟨⟨[("A", .pending 3)], [("A", 0)], [], 1⟩, [.running ⟨"A", 0⟩], [], [("A", .pending 3)]⟩ :=
    hsubmitted.tail (@Step.begin _ 0 "A" rfl)
  have hcalled : Reachable
      ⟨⟨[("A", .pending 3)], [("A", 0)], [], 1⟩, [.running ⟨"A", 0⟩], [.wait "A", .wait "A"],
        [("A", .pending 3)]⟩ :=
    (hbegun.tail (@Step.enquire _ 0 _ ⟨"A", 0⟩ _ rfl rfl (Or.inl rfl))).tail
      (@Step.enquire _ 0 _ ⟨"A", 0⟩ _ rfl rfl (Or.inl rfl))
  -- both callers wait when the job crashes
  have hblocked : Reachable
      ⟨⟨[("A", .pending 3)], [("A", 0)], [], 1⟩, [.running ⟨"A", 0⟩],
        [.blocked ⟨"A", 0⟩, .blocked ⟨"A", 0⟩], [("A", .pending 3)]⟩ :=
    (hcalled.tail (@Step.go _ 0 (.wait "A") rfl)).tail (@Step.go _ 1 (.wait "A") rfl)
  have hanswered : Reachable
      ⟨⟨[("A", closing (.pending 3) true)], [("A", 0)], [], 1⟩, [.answered ⟨"A", 0⟩],
        [.blocked ⟨"A", 0⟩, .blocked ⟨"A", 0⟩],
        [("A", .pending 3), ("A", closing (.pending 3) true)]⟩ :=
    (hblocked.tail (@Step.look _ 0 ⟨"A", 0⟩ true rfl)).tail
      (@Step.answer _ 0 ⟨"A", 0⟩ (some (closing (.pending 3) true)) rfl)
  have hreleased : Reachable
      ⟨⟨[("A", closing (.pending 3) true)], [("A", 0)], [0], 1⟩, [.released ⟨"A", 0⟩],
        [.returned "A" (some (closing (.pending 3) true)), .blocked ⟨"A", 0⟩],
        [("A", .pending 3), ("A", closing (.pending 3) true)]⟩ :=
    ((hanswered.tail (@Step.finish _ 0 ⟨"A", 0⟩ rfl)).tail
      (@Step.go _ 0 (.blocked ⟨"A", 0⟩) rfl)).tail (@Step.go _ 0 (.reading "A") rfl)
  obtain ⟨last, hfinal, hlast⟩ :=
    waiters_see_one_final_snapshot hreleased (Or.inl ⟨_, List.mem_cons_self⟩)
  refine ⟨_, hreleased, rfl, rfl, last, hfinal, ?_⟩
  intro d' hlater
  obtain ⟨hstored, -, hlookup, -⟩ := hlast d' hlater
  exact ⟨hstored, hlookup⟩

end Desk
end Trials
end CombatTrials
