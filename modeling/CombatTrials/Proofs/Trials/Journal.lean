import Mathlib.Data.String.Basic
import Mathlib.Logic.Relation
import CombatTrials.Proofs.Trials.Leases

/-!
# What a registry remembers

A registry keeps what is known of tokens and which leases are out, and neither waits for the other:
a token can be published that was never allocated, begun while an earlier lease of it is held, and
its leases come back in any order. What holds in all of this is said of a `Journal`, which is a
registry with everything that was done to it or asked of it.

There are two laws. What one event does to the snapshots depends on the registry before it alone
(`tells_of_step`). What is listed and what is running depends on all that happened, and for these
`Reflected` says that the registry is what the journal says: each step keeps it (`Reflected.step`).
Leases are told apart by their tickets, and these were handed out in order, so a lease that is begun
anew is none of those that came back before.
-/

namespace CombatTrials
namespace Trials

open Data.Ledger (Ascending ascending_nil mem_keys_iff)

/-! ## Snapshots

The release of a lease ends the snapshot of its token, if it has not ended. It keeps what was
counted and adds an error. -/

/-- What a lease that is given back leaves as the last snapshot of its token. -/
structure Concludes (crashing : Bool) (last next : Snapshot) : Prop where
  isFinal : next.isFinal = true
  maxIterations_eq : next.maxIterations = last.maxIterations
  completedIterations_eq : next.completedIterations = last.completedIterations
  histogram_eq : next.histogram = last.histogram
  fullLog_eq : next.fullLog = last.fullLog
  eq_of_isFinal : last.isFinal = true → next = last
  error_of_open : last.isFinal = false → last.error = none ∧ next.error.isSome = true
  cancelled_of_open : last.isFinal = false → next.cancelled = !crashing

theorem concludes_self {last : Snapshot} (h : last.isFinal = true) (crashing : Bool) :
    Concludes crashing last last where
  isFinal := h
  maxIterations_eq := rfl
  completedIterations_eq := rfl
  histogram_eq := rfl
  fullLog_eq := rfl
  eq_of_isFinal _ := rfl
  error_of_open hopen := absurd (h.symm.trans hopen) (by simp)
  cancelled_of_open hopen := absurd (h.symm.trans hopen) (by simp)

/-- One that is not final is given an error, and its counts and its log are kept. -/
theorem concludes_closing {last : Snapshot} (h : last.isFinal = false) (crashing : Bool) :
    Concludes crashing last (closing last crashing) := by
  -- an open snapshot was not cancelled and has no error
  obtain ⟨⟨hcancelled, -⟩, herror⟩ :
      (last.cancelled = false ∧ last.fullLog = none) ∧ last.error = none := by
    simpa [Snapshot.isFinal] using h
  have hfinal := Job.isFinal_closing last crashing
  have hnot : last.isFinal = true → closing last crashing = last :=
    fun hyes => absurd (h.symm.trans hyes) (by simp)
  cases crashing with
  | true => exact ⟨hfinal, rfl, rfl, rfl, rfl, hnot, fun _ => ⟨herror, rfl⟩, fun _ => hcancelled⟩
  | false => exact ⟨hfinal, rfl, rfl, rfl, rfl, hnot, fun _ => ⟨herror, rfl⟩, fun _ => rfl⟩

/-! ## Registries

For each operation, what it does to each part of a registry: to the snapshots, to the leases handed
out, and to those that came back. -/

namespace Registry

variable {r r' : Registry}

/-- The tokens that are listed are those that something is known of. -/
theorem mem_tokens_iff {token : Token} : token ∈ r.tokens ↔ r.lookup token ≠ none := by
  apply mem_keys_iff.trans
  show (r.lookup token).isSome = true ↔ _
  exact Option.isSome_iff_ne_none

theorem mem_tokens_publish {token token' : Token} {s : Snapshot} :
    token' ∈ (r.publish token s).tokens ↔ token' = token ∨ token' ∈ r.tokens := by
  rw [mem_tokens_iff, mem_tokens_iff]
  by_cases hne : token' = token
  · subst hne
    simp
  · simp [lookup_publish_ne hne, hne]

theorem allocate?_eq_none_iff {drawn : List Token} {n : UInt32} :
    r.allocate? drawn n = none ↔ ∀ token ∈ drawn, token ∈ r.tokens := by
  rw [allocate?_eq, Option.map_eq_none_iff, List.find?_eq_none]
  simp [tokens, mem_keys_iff]

@[simp]
theorem lease?_publish (r : Registry) (token token' : Token) (s : Snapshot) :
    (r.publish token s).lease? token' = r.lease? token' := rfl

@[simp]
theorem issued_publish (r : Registry) (token : Token) (s : Snapshot) :
    (r.publish token s).issued = r.issued := rfl

@[simp]
theorem released_publish (r : Registry) (token : Token) (s : Snapshot) :
    (r.publish token s).released = r.released := rfl

@[simp]
theorem tokens_begin (r : Registry) (token : Token) : (r.begin token).2.tokens = r.tokens := rfl

@[simp]
theorem released_begin (r : Registry) (token : Token) :
    (r.begin token).2.released = r.released := rfl

theorem lookup_release_ne {token : Token} {lease : Lease} (hne : token ≠ lease.token) (r : Registry)
    (crashing : Bool) : (r.release lease crashing).lookup token = r.lookup token := by
  rw [release_eq]
  exact (changes_answer r lease.token _).lookup_eq hne

theorem lookup_release_of_none {lease : Lease} (h : r.lookup lease.token = none) (crashing : Bool) :
    (r.release lease crashing).lookup lease.token = none := by
  rw [release_eq, closing?_of_none h]
  exact h

/-- Releasing a lease concludes the snapshot of its token. -/
theorem lookup_release_of_some {lease : Lease} {last : Snapshot}
    (h : r.lookup lease.token = some last) (crashing : Bool) :
    ∃ next, (r.release lease crashing).lookup lease.token = some next ∧
      Concludes crashing last next := by
  rw [release_eq]
  cases hfinal : last.isFinal with
  | true =>
    rw [closing?_of_isFinal h hfinal]
    exact ⟨last, h, concludes_self hfinal crashing⟩
  | false =>
    rw [closing?_of_open h hfinal]
    exact ⟨closing last crashing, lookup_publish_self _ _ _, concludes_closing hfinal crashing⟩

/-- Releasing a lease stores nothing under a token that has no snapshot. -/
@[simp]
theorem mem_tokens_release {token : Token} (lease : Lease) (crashing : Bool) :
    token ∈ (r.release lease crashing).tokens ↔ token ∈ r.tokens := by
  rw [release_eq]
  cases hclosing : r.closing? lease.token crashing with
  | none => rfl
  | some next =>
    -- something was left to be published, so there was a snapshot before it
    have hknown : lease.token ∈ r.tokens := by
      cases hlast : r.lookup lease.token with
      | none => exact absurd ((closing?_of_none hlast crashing).symm.trans hclosing) (by simp)
      | some last => simp [mem_tokens_iff, hlast]
    apply mem_tokens_publish.trans
    constructor
    · rintro (rfl | hmem)
      · exact hknown
      · exact hmem
    · exact Or.inr

theorem ascending_release (h : Ascending r.snapshots) (lease : Lease) (crashing : Bool) :
    Ascending (r.release lease crashing).snapshots := by
  rw [release_eq]
  cases r.closing? lease.token crashing with
  | none => exact h
  | some next => exact h.alter _ _

/-- But for the snapshots, a release marks the lease and that is all. -/
theorem release_eq_with (r : Registry) (lease : Lease) (crashing : Bool) :
    r.release lease crashing =
      { r with
        snapshots := (r.release lease crashing).snapshots
        released := lease.ticket :: r.released } := by
  rw [release_eq]
  cases r.closing? lease.token crashing <;> rfl

@[simp]
theorem released_release (r : Registry) (lease : Lease) (crashing : Bool) :
    (r.release lease crashing).released = lease.ticket :: r.released := by
  rw [release_eq_with]

@[simp]
theorem issued_release (r : Registry) (lease : Lease) (crashing : Bool) :
    (r.release lease crashing).issued = r.issued := by
  rw [release_eq_with]

@[simp]
theorem lease?_release (r : Registry) (lease : Lease) (crashing : Bool) (token : Token) :
    (r.release lease crashing).lease? token = r.lease? token := by
  rw [release_eq_with]
  rfl

end Registry

/-! ## Journals

Any operation may follow any other, but for one thing: a lease is given back by whoever was handed
it, and once. -/

/-- What is done to a registry, or asked of it and answered. -/
inductive Journal.Event where
  | allocated (token : Token) (maxIterations : UInt32)
  | published (token : Token) (snapshot : Snapshot)
  | begun (lease : Lease)
  | released (lease : Lease) (crashing : Bool)
  | looked (token : Token) (found : Option Snapshot)
  | asked (token : Token) (running : Bool)
  | listed (tokens : List Token)
  deriving DecidableEq, Repr

/-- A registry and what happened to it, the earlier first. -/
structure Journal where
  now : Registry := {}
  past : List Journal.Event := []
  deriving DecidableEq, Repr

namespace Journal

/-- The token that an event stores something under. -/
def Event.stored? : Event → Option Token
  | .allocated token _ | .published token _ => some token
  | _ => none

/-- The lease that an event hands out. -/
def Event.begun? : Event → Option Lease
  | .begun lease => some lease
  | _ => none

/-- The lease that an event gives back. -/
def Event.released? : Event → Option Lease
  | .released lease _ => some lease
  | _ => none

/-- The tokens that were allocated or published. -/
def stored (j : Journal) : List Token := j.past.filterMap Event.stored?

/-- The leases that were handed out. -/
def begun (j : Journal) : List Lease := j.past.filterMap Event.begun?

/-- The leases that were handed out for a token. -/
def begunFor (j : Journal) (token : Token) : List Lease := j.begun.filter (·.token = token)

/-- The leases that were given back. -/
def released (j : Journal) : List Lease := j.past.filterMap Event.released?

/-- The journal after one more event, and the registry that it led to. -/
def add (j : Journal) (event : Event) (r : Registry) : Journal := ⟨r, j.past ++ [event]⟩

/-- What can happen to a registry, and what it is then. A lease is given back once. -/
inductive Step (j : Journal) : Event → Registry → Prop
  | allocate {drawn : List Token} {n : UInt32} {token : Token} {r : Registry}
      (h : j.now.allocate? drawn n = some (token, r)) : Step j (.allocated token n) r
  | publish (token : Token) (s : Snapshot) : Step j (.published token s) (j.now.publish token s)
  | begin (token : Token) : Step j (.begun (j.now.begin token).1) (j.now.begin token).2
  | release {lease : Lease} (hbegun : lease ∈ j.begun) (hheld : lease ∉ j.released)
      (crashing : Bool) : Step j (.released lease crashing) (j.now.release lease crashing)
  | look (token : Token) : Step j (.looked token (j.now.lookup token)) j.now
  | ask (token : Token) : Step j (.asked token (j.now.isRunning token)) j.now
  | list : Step j (.listed j.now.tokens) j.now

/-- One event follows the others. -/
def Next (j j' : Journal) : Prop := ∃ event r, Step j event r ∧ j' = j.add event r

/-- Any number of events follow. -/
abbrev Later : Journal → Journal → Prop := Relation.ReflTransGen Next

variable {j j' : Journal} {event : Event} {r : Registry}

theorem Later.step (h : Later j j') (hs : Step j' event r) : Later j (j'.add event r) :=
  h.tail ⟨event, r, hs, rfl⟩

@[simp]
theorem now_add : (j.add event r).now = r := rfl

@[simp]
theorem stored_add : (j.add event r).stored = j.stored ++ event.stored?.toList := by
  cases h : event.stored? <;> simp [stored, add, h]

@[simp]
theorem begun_add : (j.add event r).begun = j.begun ++ event.begun?.toList := by
  cases h : event.begun? <;> simp [begun, add, h]

@[simp]
theorem begunFor_add (token : Token) :
    (j.add event r).begunFor token =
      j.begunFor token ++ event.begun?.toList.filter (·.token = token) := by
  simp [begunFor]

@[simp]
theorem released_add : (j.add event r).released = j.released ++ event.released?.toList := by
  cases h : event.released? <;> simp [released, add, h]

/-- Nothing that was stored is ever taken back. -/
theorem stored_subset_of_later (h : Later j j') : j.stored ⊆ j'.stored := by
  induction h with
  | refl => exact List.Subset.refl _
  | tail _ hnext ih =>
    obtain ⟨event, r, -, rfl⟩ := hnext
    rw [stored_add]
    exact List.Subset.trans ih (List.subset_append_left _ _)

/-! ## The registry is what its journal says

An invariant over histories. For each operation it says how the history has grown and that the
registry has followed. -/

/-- The registry is what its journal says: the tokens are those that something was stored under, the
lease of a token is the last that was handed out for it, tickets were handed out in order, and those
that came back are written down. -/
structure Reflected (j : Journal) : Prop where
  ascending : Ascending j.now.snapshots
  mem_tokens_iff : ∀ token, token ∈ j.now.tokens ↔ token ∈ j.stored
  lease?_eq : ∀ token, j.now.lease? token = (j.begunFor token).getLast?
  tickets_eq : j.begun.map Lease.ticket = List.range j.now.issued
  released_eq : j.now.released = (j.released.map Lease.ticket).reverse
  released_subset : j.released ⊆ j.begun

theorem reflected_nil : Reflected {} :=
  ⟨ascending_nil, fun _ => Iff.rfl, fun _ => rfl, rfl, rfl, List.Subset.refl _⟩

/-- Publishing keeps it, be it an allocation or not. -/
theorem Reflected.publish (h : j.Reflected) {token : Token} {s : Snapshot}
    (hstored : event.stored? = some token) (hbegun : event.begun? = none)
    (hreleased : event.released? = none) :
    (j.add event (j.now.publish token s)).Reflected where
  ascending := h.ascending.alter _ _
  mem_tokens_iff token' := by
    rw [stored_add, hstored, List.mem_append, ← h.mem_tokens_iff]
    apply Registry.mem_tokens_publish.trans
    simp [or_comm]
  lease?_eq token' := by simpa [hbegun] using h.lease?_eq token'
  tickets_eq := by simpa [hbegun] using h.tickets_eq
  released_eq := by simpa [hreleased] using h.released_eq
  released_subset := by simpa [hbegun, hreleased] using h.released_subset

/-- Handing out a lease keeps it: the lease is the last one of its token, and its ticket is the
next. -/
theorem Reflected.begin (h : j.Reflected) (token : Token) :
    (j.add (.begun (j.now.begin token).1) (j.now.begin token).2).Reflected where
  ascending := h.ascending
  mem_tokens_iff token' := by simpa [Event.stored?] using h.mem_tokens_iff token'
  lease?_eq token' := by
    rw [begunFor_add]
    by_cases hne : token' = token
    · subst hne
      have hself : ((j.now.begin token').1).token = token' := rfl
      simpa [Event.begun?, hself] using Registry.lease?_begin_self j.now token'
    · -- the latest lease of another token is what it was
      have hother : ((j.now.begin token).1).token ≠ token' := fun heq => hne heq.symm
      have hl := (Registry.lease?_begin_ne hne j.now).trans (h.lease?_eq token')
      simpa [Event.begun?, hother] using hl
  tickets_eq := by
    rw [begun_add, List.map_append, h.tickets_eq]
    exact List.range_succ.symm
  released_eq := by simpa [Event.released?] using h.released_eq
  released_subset := by
    rw [released_add, begun_add]
    simpa [Event.released?] using List.Subset.trans h.released_subset (List.subset_append_left _ _)

/-- Giving a lease back keeps it, and hands out nothing. -/
theorem Reflected.release (h : j.Reflected) {lease : Lease} (hbegun : lease ∈ j.begun)
    (crashing : Bool) :
    (j.add (.released lease crashing) (j.now.release lease crashing)).Reflected where
  ascending := Registry.ascending_release h.ascending lease crashing
  mem_tokens_iff token := by simpa [Event.stored?] using h.mem_tokens_iff token
  lease?_eq token := by simpa [Event.begun?] using h.lease?_eq token
  tickets_eq := by simpa [Event.begun?] using h.tickets_eq
  released_eq := by simp [Event.released?, h.released_eq]
  released_subset := by simpa [Event.begun?, Event.released?] using ⟨h.released_subset, hbegun⟩

theorem Reflected.question (h : j.Reflected) (hstored : event.stored? = none)
    (hbegun : event.begun? = none) (hreleased : event.released? = none) :
    (j.add event j.now).Reflected where
  ascending := h.ascending
  mem_tokens_iff token := by simpa [hstored] using h.mem_tokens_iff token
  lease?_eq token := by simpa [hbegun] using h.lease?_eq token
  tickets_eq := by simpa [hbegun] using h.tickets_eq
  released_eq := by simpa [hreleased] using h.released_eq
  released_subset := by simpa [hbegun, hreleased] using h.released_subset

/-- Every event keeps it. -/
theorem Reflected.step (h : j.Reflected) (hs : Step j event r) : (j.add event r).Reflected := by
  cases hs with
  | allocate ha =>
    obtain ⟨-, rfl⟩ := Registry.allocate?_eq_some ha
    exact h.publish rfl rfl rfl
  | publish token s => exact h.publish rfl rfl rfl
  | begin token => exact h.begin token
  | release hbegun _ crashing => exact h.release hbegun crashing
  | look | ask | list => exact h.question rfl rfl rfl

/-- The registry is what its journal says, whatever happened. -/
theorem reflected_of_later (h : Later {} j) : j.Reflected := by
  induction h with
  | refl => exact reflected_nil
  | tail _ hnext ih =>
    obtain ⟨event, r, hs, rfl⟩ := hnext
    exact ih.step hs

/-! ## What follows of tokens and leases

Tickets are handed out in order, so a lease is known by its ticket. -/

theorem Reflected.pairwise_tokens (h : j.Reflected) : j.now.tokens.Pairwise (· < ·) :=
  List.pairwise_map.mpr h.ascending

/-- No lease is handed out twice, for no two have one ticket. -/
theorem Reflected.nodup_begun (h : j.Reflected) : j.begun.Nodup := by
  apply List.Nodup.of_map Lease.ticket
  rw [h.tickets_eq]
  exact List.nodup_range

/-- No two leases have one ticket, so a lease is held until it is given back itself. -/
theorem Reflected.isHeld_iff (h : j.Reflected) {lease : Lease} (hmem : lease ∈ j.begun) :
    j.now.isHeld lease = true ↔ lease ∉ j.released := by
  have hnodup : (j.begun.map Lease.ticket).Nodup := by
    rw [h.tickets_eq]
    exact List.nodup_range
  have hticket : lease.ticket ∈ j.now.released ↔ lease ∈ j.released := by
    rw [h.released_eq, List.mem_reverse, List.mem_map]
    constructor
    · -- a ticket that came back is that of one lease only
      rintro ⟨lease', hmem', heq⟩
      obtain rfl := List.inj_on_of_nodup_map hnodup (h.released_subset hmem') hmem heq
      exact hmem'
    · intro hmem'
      exact ⟨lease, hmem', rfl⟩
  simp [Registry.isHeld, hticket]

/-- A job is running while the last lease of its token is out. -/
theorem Reflected.isRunning_iff (h : j.Reflected) (token : Token) :
    j.now.isRunning token = true ↔
      ∃ lease, (j.begunFor token).getLast? = some lease ∧ lease ∉ j.released := by
  rw [← h.lease?_eq]
  unfold Registry.isRunning
  cases hl : j.now.lease? token with
  | none => simp
  | some lease =>
    have hmem : lease ∈ j.begun := by
      rw [h.lease?_eq] at hl
      exact List.mem_of_mem_filter (List.mem_of_getLast? hl)
    simpa using h.isHeld_iff hmem

/-! ## What follows of snapshots

This law needs no history: what an event does to the snapshots is seen in the registries before and
after it. -/

/-- Nothing is stored under other tokens. -/
def OnlyAt (token : Token) (r r' : Registry) : Prop :=
  ∀ other, other ≠ token → r'.lookup other = r.lookup other

/-- What an event says of the snapshots before it and after it. -/
def Tells (r r' : Registry) : Event → Prop
  | .allocated token n => token ∉ r.tokens ∧ r'.lookup token = some (.pending n) ∧ OnlyAt token r r'
  | .published token s => r'.lookup token = some s ∧ OnlyAt token r r'
  | .begun _ => ∀ token, r'.lookup token = r.lookup token
  | .released lease crashing =>
    (r.lookup lease.token = none → r'.lookup lease.token = none) ∧
    (∀ last, r.lookup lease.token = some last →
      ∃ next, r'.lookup lease.token = some next ∧ Concludes crashing last next) ∧
    OnlyAt lease.token r r'
  | .looked token found => found = r.lookup token ∧ r' = r
  | .asked token running => running = r.isRunning token ∧ r' = r
  | .listed tokens => tokens = r.tokens ∧ r' = r

/-- Each event does to the snapshots what is told of it, whatever happened before. -/
theorem tells_of_step (hs : Step j event r) : Tells j.now r event := by
  cases hs with
  | @allocate _ _ token _ ha =>
    obtain ⟨hnew, rfl⟩ := Registry.allocate?_eq_some ha
    have hfree : token ∉ j.now.tokens := fun hmem => Registry.mem_tokens_iff.mp hmem hnew
    exact ⟨hfree, Registry.lookup_publish_self _ _ _,
      fun _ hne => Registry.lookup_publish_ne hne _ _⟩
  | publish token s =>
    exact ⟨Registry.lookup_publish_self _ _ _, fun _ hne => Registry.lookup_publish_ne hne _ _⟩
  -- a lease that is handed out touches no snapshot
  | begin token => exact fun _ => rfl
  | release _ _ crashing =>
    exact ⟨fun hnone => Registry.lookup_release_of_none hnone crashing,
      fun _ hlast => Registry.lookup_release_of_some hlast crashing,
      fun _ hne => Registry.lookup_release_ne hne _ crashing⟩
  | look | ask | list => exact ⟨rfl, rfl⟩

/-- **A registry is what was done to it.** Its tokens are those that something was stored under, in
ascending order, and none is lost. Each event changes what `Tells` says and no more. A job is
running while the last lease that was handed out for its token is out. -/
theorem registry_follows_journal {j : Journal} (h : Later {} j) :
    j.now.tokens.Pairwise (· < ·) ∧
    (∀ token, token ∈ j.now.tokens ↔ token ∈ j.stored) ∧
    (∀ j', Later j j' → j.now.tokens ⊆ j'.now.tokens) ∧
    (∀ drawn n, j.now.allocate? drawn n = none ↔ ∀ token ∈ drawn, token ∈ j.now.tokens) ∧
    (∀ event r, Step j event r → Tells j.now r event) ∧
    j.begun.Nodup ∧
    (∀ token, j.now.isRunning token = true ↔
      ∃ lease, (j.begunFor token).getLast? = some lease ∧ lease ∉ j.released) := by
  have hreflected := reflected_of_later h
  refine ⟨hreflected.pairwise_tokens, hreflected.mem_tokens_iff, ?_,
    fun _ _ => Registry.allocate?_eq_none_iff, fun _ _ => tells_of_step, hreflected.nodup_begun,
    hreflected.isRunning_iff⟩
  intro j' hlater token hmem
  have hreflected' := reflected_of_later (h.trans hlater)
  rw [hreflected'.mem_tokens_iff]
  rw [hreflected.mem_tokens_iff] at hmem
  exact stored_subset_of_later hlater hmem

/-- A token is begun twice, and the later lease comes back first. -/
def overlapping : Journal where
  now :=
    { snapshots := [("a", closing (.pending 3) true), ("c", .pending 7)]
      latest := [("a", 1)]
      released := [1]
      issued := 2 }
  past := [.allocated "a" 3, .begun ⟨"a", 0⟩, .published "c" (.pending 7), .begun ⟨"a", 1⟩,
    .released ⟨"a", 1⟩ true]

/-- That is a history of the registry, event by event. -/
theorem later_overlapping : Later {} overlapping := by
  have hfree :
    ({} : Registry).allocate? ["a"] 3 = some ("a", ({} : Registry).publish "a" (.pending 3)) := rfl
  have hstart : Later {} {} := .refl
  have hbegun := (hstart.step (.allocate hfree)).step (.begin "a")
  have hagain := (hbegun.step (.publish "c" (.pending 7))).step (.begin "a")
  exact hagain.step (.release (show (⟨"a", 1⟩ : Lease) ∈ begun _ by decide) (by decide) true)

/-- The earlier lease is still out, and when it comes back it leaves the snapshot that the later one
left. -/
theorem registry_follows_journal_overlapping :
    Later {} overlapping ∧ overlapping.now.tokens.Pairwise (· < ·) ∧ "c" ∈ overlapping.now.tokens ∧
    overlapping.now.isRunning "a" = false ∧
    (overlapping.now.release ⟨"a", 0⟩ false).lookup "a" = some (closing (.pending 3) true) := by
  obtain ⟨hsorted, hstored, -, -, htells, -, hrunning⟩ := registry_follows_journal later_overlapping
  refine ⟨later_overlapping, hsorted, ?_, ?_, ?_⟩
  · exact (hstored "c").mpr (by decide)
  · apply Bool.eq_false_of_not_eq_true
    rw [hrunning]
    rintro ⟨lease, hlast, hheld⟩
    have hlease : (⟨"a", 1⟩ : Lease) = lease := Option.some.inj hlast
    exact hheld (hlease ▸ by decide)
  · have hstep :
        Step overlapping (.released ⟨"a", 0⟩ false) (overlapping.now.release ⟨"a", 0⟩ false) :=
      .release (by decide) (by decide) false
    obtain ⟨-, hknown, -⟩ := htells _ _ hstep
    obtain ⟨next, hnext, hconcludes⟩ := hknown (closing (.pending 3) true) rfl
    rw [hnext, hconcludes.eq_of_isFinal rfl]

end Journal

end Trials
end CombatTrials
