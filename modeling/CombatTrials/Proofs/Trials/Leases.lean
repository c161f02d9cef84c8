import CombatTrials.Proofs.Trials.Finality

/-!
# Leases

A job is over when its lease was released and its last snapshot is final (`Registry.Settled`).
Releasing looks like one thing from outside and is three (`Registry.release_eq`): the last snapshot
is looked up, another is published if that one is not final, and only then the lease is marked as
released. While all of this goes on a job is not over, and what it does changes nothing but about
its own token (`Registry.Changes`). So what is over stays over (`Changes.settled`).

A `Keeper` is how far a job is in this, and `Keeper.Stands` is what the registry knows of it there.
-/

namespace CombatTrials
namespace Trials

open Data.Ledger (find?_set_self find?_set_ne)

/-! ## Registries

The steps of a release taken apart, and what each of them changes. A step that concerns one token is
not noticed at the others, which is all that callers rely on. -/

namespace Registry

variable {r r' : Registry}

/-- Marks a lease as released. -/
def finish (r : Registry) (lease : Lease) : Registry :=
  { r with released := lease.ticket :: r.released }

/-- The snapshot that a release left to be published is published. -/
def answer (r : Registry) (token : Token) (left : Option Snapshot) : Registry :=
  left.elim r (r.publish token)

/-- Releasing a lease is looking, answering and marking. -/
theorem release_eq (r : Registry) (lease : Lease) (crashing : Bool) :
    r.release lease crashing =
      (r.answer lease.token (r.closing? lease.token crashing)).finish lease := by
  unfold release
  cases r.closing? lease.token crashing <;> rfl

@[simp]
theorem lookup_publish_self (r : Registry) (token : Token) (s : Snapshot) :
    (r.publish token s).lookup token = some s :=
  find?_set_self _ _ _

theorem lookup_publish_ne {token token' : Token} (hne : token' ≠ token) (r : Registry)
    (s : Snapshot) : (r.publish token s).lookup token' = r.lookup token' :=
  find?_set_ne hne _ _

theorem allocate?_eq (r : Registry) (drawn : List Token) (n : UInt32) :
    r.allocate? drawn n =
      (drawn.find? fun token => !r.snapshots.contains token).map fun token =>
        (token, r.publish token (.pending n)) := by
  unfold allocate?
  cases drawn.find? fun token => !r.snapshots.contains token <;> rfl

theorem allocate?_eq_some {drawn : List Token} {n : UInt32} {token : Token}
    (h : r.allocate? drawn n = some (token, r')) :
    r.lookup token = none ∧ r' = r.publish token (.pending n) := by
  rw [allocate?_eq] at h
  obtain ⟨found, hfound, heq⟩ := Option.map_eq_some_iff.mp h
  obtain ⟨rfl, rfl⟩ := Prod.mk.inj heq
  exact ⟨by simpa [Data.Ledger.contains, lookup] using List.find?_some hfound, rfl⟩

/-- The lease of a token is for that token. -/
theorem token_of_lease? {token : Token} {lease : Lease} (h : r.lease? token = some lease) :
    lease.token = token := by
  obtain ⟨ticket, -, rfl⟩ := Option.map_eq_some_iff.mp h
  rfl

theorem lease?_begin_self (r : Registry) (token : Token) :
    (r.begin token).2.lease? token = some (r.begin token).1 :=
  congrArg (Option.map _) (find?_set_self _ _ _)

theorem lease?_begin_ne {token token' : Token} (hne : token' ≠ token) (r : Registry) :
    (r.begin token).2.lease? token' = r.lease? token' :=
  congrArg (Option.map _) (find?_set_ne hne _ _)

/-- Marking a lease leaves those with another ticket held as they are. -/
theorem isHeld_finish {lease lease' : Lease} (hne : lease'.ticket ≠ lease.ticket) (r : Registry) :
    (r.finish lease).isHeld lease' = r.isHeld lease' := by
  simp [isHeld, finish, hne]

theorem isHeld_finish_self (r : Registry) (lease : Lease) :
    (r.finish lease).isHeld lease = false := by
  simp [isHeld, finish]

/-- Leases are told apart by their tickets, and only known tokens have one. -/
structure Ordered (r : Registry) : Prop where
  released_lt : ∀ ticket ∈ r.released, ticket < r.issued
  lease_lt : ∀ {token lease}, r.lease? token = some lease → lease.ticket < r.issued
  ticket_inj : ∀ {token token' lease lease'}, r.lease? token = some lease →
    r.lease? token' = some lease' → lease.ticket = lease'.ticket → token = token'
  known : ∀ {token lease}, r.lease? token = some lease → r.lookup token ≠ none

-- publishing, answering, beginning and marking keep the order; only a token that is known may be
-- begun, and only a lease that was handed out may be marked

theorem Ordered.publish (h : r.Ordered) (token : Token) (s : Snapshot) :
    (r.publish token s).Ordered where
  released_lt := h.released_lt
  lease_lt := h.lease_lt
  ticket_inj := h.ticket_inj
  known {token' lease} hl := by
    by_cases hne : token' = token
    · subst hne
      simp
    · rw [lookup_publish_ne hne]
      exact h.known hl

theorem Ordered.answer (h : r.Ordered) (token : Token) (left : Option Snapshot) :
    (r.answer token left).Ordered := by
  cases left with
  | none => exact h
  | some s => exact h.publish token s

theorem Ordered.begin (h : r.Ordered) {token : Token} (hknown : r.lookup token ≠ none) :
    (r.begin token).2.Ordered := by
  have hlt : ∀ {token' lease}, (r.begin token).2.lease? token' = some lease → token' ≠ token →
      r.lease? token' = some lease := fun hl hne => (lease?_begin_ne hne r).symm.trans hl
  have hself : ∀ {lease}, (r.begin token).2.lease? token = some lease →
      lease.ticket = r.issued := by
    intro lease hl
    rw [lease?_begin_self] at hl
    exact congrArg Lease.ticket (Option.some.inj hl).symm
  refine ⟨?_, ?_, ?_, ?_⟩
  · exact fun ticket ht => Nat.lt_succ_of_lt (h.released_lt ticket ht)
  · intro token' lease hl
    by_cases hne : token' = token
    · subst hne
      exact hself hl ▸ Nat.lt_succ_self _
    · exact Nat.lt_succ_of_lt (h.lease_lt (hlt hl hne))
  · intro token₁ token₂ lease₁ lease₂ h₁ h₂ heq
    -- the new ticket is greater than all before it
    by_cases hne₁ : token₁ = token <;> by_cases hne₂ : token₂ = token
    · rw [hne₁, hne₂]
    · subst hne₁
      have hnew := hself h₁
      have hold := h.lease_lt (hlt h₂ hne₂)
      omega
    · subst hne₂
      have hnew := hself h₂
      have hold := h.lease_lt (hlt h₁ hne₁)
      omega
    · exact h.ticket_inj (hlt h₁ hne₁) (hlt h₂ hne₂) heq
  · intro token' lease hl
    by_cases hne : token' = token
    · exact hne ▸ hknown
    · exact h.known (hlt hl hne)

theorem Ordered.finish (h : r.Ordered) {token : Token} {lease : Lease}
    (hl : r.lease? token = some lease) : (r.finish lease).Ordered where
  released_lt ticket ht := by
    rcases List.mem_cons.mp ht with rfl | ht
    · exact h.lease_lt hl
    · exact h.released_lt ticket ht
  lease_lt := h.lease_lt
  ticket_inj := h.ticket_inj
  known := h.known

theorem Ordered.isHeld_begin (h : r.Ordered) (token : Token) :
    (r.begin token).2.isHeld (r.begin token).1 = true := by
  have hnot : r.issued ∉ r.released := fun hmem => Nat.lt_irrefl _ (h.released_lt _ hmem)
  simpa [isHeld, Registry.begin] using hnot

/-- The last snapshot of a token is final. -/
def Concluded (r : Registry) (token : Token) : Prop :=
  ∃ last, r.lookup token = some last ∧ last.isFinal = true

/-- A job is over: its lease was released, and its last snapshot is final. -/
def Settled (r : Registry) (token : Token) : Prop :=
  (∃ lease, r.lease? token = some lease ∧ r.isHeld lease = false) ∧ r.Concluded token

theorem not_settled_of_unknown {token : Token} (h : r.lookup token = none) : ¬ r.Settled token := by
  rintro ⟨-, last, hlast, -⟩
  exact absurd (h.symm.trans hlast) (by simp)

theorem closing?_of_none {token : Token} (h : r.lookup token = none) (crashing : Bool) :
    r.closing? token crashing = none := by
  simp [closing?, h]

theorem closing?_of_isFinal {token : Token} {last : Snapshot} (h : r.lookup token = some last)
    (hfinal : last.isFinal = true) (crashing : Bool) : r.closing? token crashing = none := by
  simp [closing?, h, hfinal]

/-- A snapshot that is not final is closed, and it shows whether its thread crashed. -/
theorem closing?_of_open {token : Token} {last : Snapshot} (h : r.lookup token = some last)
    (hopen : last.isFinal = false) (crashing : Bool) :
    r.closing? token crashing = some (closing last crashing) := by
  simp [closing?, h, hopen]

/-- What a release leaves, once it was published, is final. -/
theorem concluded_answer {token : Token} (hknown : r.lookup token ≠ none) (crashing : Bool) :
    (r.answer token (r.closing? token crashing)).Concluded token := by
  obtain ⟨last, hlast⟩ := Option.ne_none_iff_exists'.mp hknown
  cases hfinal : last.isFinal with
  | true =>
    rw [closing?_of_isFinal hlast hfinal]
    exact ⟨last, hlast, hfinal⟩
  | false =>
    rw [closing?_of_open hlast hfinal]
    exact ⟨closing last crashing, lookup_publish_self _ _ _, Job.isFinal_closing last crashing⟩

/-- Nothing changes but about one token, and its lease stays. -/
structure Changes (r r' : Registry) (token : Token) : Prop where
  lookup_eq : ∀ {token'}, token' ≠ token → r'.lookup token' = r.lookup token'
  lease?_eq : ∀ {token'}, token' ≠ token → r'.lease? token' = r.lease? token'
  lease? : ∀ {lease}, r.lease? token = some lease → r'.lease? token = some lease
  isHeld_eq : ∀ {lease}, r.lease? lease.token = some lease → lease.token ≠ token →
    r'.isHeld lease = r.isHeld lease

theorem Changes.refl (r : Registry) (token : Token) : Changes r r token :=
  ⟨fun _ => rfl, fun _ => rfl, id, fun _ _ => rfl⟩

theorem changes_publish (r : Registry) (token : Token) (s : Snapshot) :
    Changes r (r.publish token s) token :=
  ⟨fun hne => lookup_publish_ne hne r s, fun _ => rfl, id, fun _ _ => rfl⟩

theorem changes_answer (r : Registry) (token : Token) (left : Option Snapshot) :
    Changes r (r.answer token left) token := by
  cases left with
  | none => exact .refl r token
  | some s => exact changes_publish r token s

theorem changes_begin {token : Token} (h : r.lease? token = none) :
    Changes r (r.begin token).2 token :=
  ⟨fun _ => rfl, fun hne => lease?_begin_ne hne r, fun hl => absurd (h.symm.trans hl) (by simp),
    fun _ _ => rfl⟩

/-- Marking a lease is seen at its own token only: no other lease has its ticket. -/
theorem Ordered.changes_finish (h : r.Ordered) {lease : Lease}
    (hl : r.lease? lease.token = some lease) : Changes r (r.finish lease) lease.token :=
  ⟨fun _ => rfl, fun _ => rfl, id,
    fun hl' hne => isHeld_finish (fun hticket => hne (h.ticket_inj hl' hl hticket)) r⟩

theorem Changes.lease?_mono {token : Token} (h : Changes r r' token) {token' : Token}
    {lease : Lease} (hl : r.lease? token' = some lease) : r'.lease? token' = some lease := by
  by_cases hne : token' = token
  · subst hne
    exact h.lease? hl
  · exact (h.lease?_eq hne).trans hl

/-- Jobs that are over stay so, while something changes about one that is not. -/
theorem Changes.settled {token : Token} (h : Changes r r' token) (hnot : ¬ r.Settled token)
    {token' : Token} (hover : r.Settled token') :
    r'.Settled token' ∧ r'.lookup token' = r.lookup token' := by
  have hne : token' ≠ token := fun heq => hnot (heq ▸ hover)
  obtain ⟨⟨lease, hl, hheld⟩, last, hlast, hfinal⟩ := hover
  obtain rfl := token_of_lease? hl
  have hlookup := h.lookup_eq hne
  exact ⟨⟨⟨lease, h.lease?_mono hl, (h.isHeld_eq hl hne).trans hheld⟩, last, hlookup.trans hlast,
    hfinal⟩, hlookup⟩

end Registry

/-! ## Those who hold leases

A job goes through the steps of its lease in one order. Where it is in this says what the registry
knows of it, and what is left to be done. -/

/-- How far a job is, as its token and lease are concerned. -/
inductive Keeper where
  /-- The token was allocated, and the job is not begun yet. -/
  | submitting (token : Token)
  | running (lease : Lease)
  /-- The last snapshot was looked up, and `left` is to be published. -/
  | looked (lease : Lease) (left : Option Snapshot)
  | answered (lease : Lease)
  | released (lease : Lease)

namespace Keeper

/-- The lease of a job, once it is begun. -/
def lease? : Keeper → Option Lease
  | .submitting _ => none
  | .running lease | .looked lease _ | .answered lease | .released lease => some lease

/-- The token of a job. -/
def token : Keeper → Token
  | .submitting token => token
  | .running lease | .looked lease _ | .answered lease | .released lease => lease.token

/-- What a registry knows of a job. -/
def Stands (r : Registry) : Keeper → Prop
  | .submitting token => r.lookup token ≠ none ∧ r.lease? token = none
  | .running lease => r.lease? lease.token = some lease ∧ r.isHeld lease = true
  | .looked lease left => r.lease? lease.token = some lease ∧ r.isHeld lease = true ∧
      ∃ crashing, left = r.closing? lease.token crashing
  | .answered lease =>
    r.lease? lease.token = some lease ∧ r.isHeld lease = true ∧ r.Concluded lease.token
  | .released lease =>
    r.lease? lease.token = some lease ∧ r.isHeld lease = false ∧ r.Concluded lease.token

variable {r r' : Registry} {keeper : Keeper}

theorem token_of_lease? {lease : Lease} (h : keeper.lease? = some lease) :
    keeper.token = lease.token := by
  cases keeper <;> cases h <;> rfl

theorem Stands.lease?_eq (h : keeper.Stands r) {lease : Lease} (hl : keeper.lease? = some lease) :
    r.lease? lease.token = some lease := by
  cases keeper <;> cases hl <;> exact h.1

theorem Stands.known (h : keeper.Stands r) (hr : r.Ordered) : r.lookup keeper.token ≠ none := by
  cases keeper with
  | submitting => exact h.1
  | running | looked | answered | released => exact hr.known h.1

/-- A lease that is not held is that of a job that is over. -/
theorem Stands.settled (h : keeper.Stands r) {lease : Lease} (hl : keeper.lease? = some lease)
    (hheld : r.isHeld lease = false) : r.Settled lease.token := by
  cases keeper with
  | submitting => cases hl
  | running lease' =>
    cases hl
    exact absurd (h.2.symm.trans hheld) (by simp)
  | looked lease' left | answered lease' =>
    cases hl
    exact absurd (h.2.1.symm.trans hheld) (by simp)
  -- only the last step leaves a lease that is not held
  | released lease' =>
    cases hl
    exact ⟨⟨lease, h.1, hheld⟩, h.2.2⟩

/-- A job stands as it stood when something changes about another token. -/
theorem Stands.frame (h : keeper.Stands r) {token : Token} (hc : r.Changes r' token)
    (hne : keeper.token ≠ token) : keeper.Stands r' := by
  have hlookup := hc.lookup_eq hne
  cases keeper with
  | submitting token' =>
    obtain ⟨hknown, hnone⟩ := h
    exact ⟨fun hnothing => hknown (hlookup.symm.trans hnothing), (hc.lease?_eq hne).trans hnone⟩
  | running lease =>
    obtain ⟨hl, hup⟩ := h
    exact ⟨hc.lease?_mono hl, (hc.isHeld_eq hl hne).trans hup⟩
  | looked lease left =>
    -- what is left to be published was read off the token's own snapshot, which is the same
    obtain ⟨hl, hup, crashing, hleft⟩ := h
    refine ⟨hc.lease?_mono hl, (hc.isHeld_eq hl hne).trans hup, crashing, ?_⟩
    have hlookup : r'.lookup lease.token = r.lookup lease.token := hlookup
    rw [hleft, Registry.closing?, Registry.closing?, hlookup]
  | answered lease | released lease =>
    obtain ⟨hl, hup, last, hlast, hfinal⟩ := h
    exact ⟨hc.lease?_mono hl, (hc.isHeld_eq hl hne).trans hup, last, hlookup.trans hlast, hfinal⟩

/-- While the lease is not given back, the job is not over. -/
theorem Stands.not_settled (h : keeper.Stands r)
    (hheld : ∀ lease, keeper.lease? = some lease → r.isHeld lease = true) :
    ¬ r.Settled keeper.token := by
  rintro ⟨⟨lease, hl, hnot⟩, -⟩
  cases keeper with
  | submitting token => exact absurd (h.2.symm.trans hl) (by simp)
  | running lease' | looked lease' _ | answered lease' | released lease' =>
    obtain rfl := Option.some.inj (hl.symm.trans h.1)
    exact absurd ((hheld lease rfl).symm.trans hnot) (by simp)

/-- What a job of a simulator is to a registry. Its lease is released in one move. -/
def ofJob (job : Job) : Keeper :=
  match job.phase with
  | .waiting | .collecting .. | .leaving _ => .running job.lease
  | .gone => .released job.lease

theorem ofJob_eq {job : Job} (h : job.phase ≠ .gone) : ofJob job = .running job.lease := by
  unfold ofJob
  split
  · rfl
  · rfl
  · rfl
  · contradiction

end Keeper

end Trials
end CombatTrials
