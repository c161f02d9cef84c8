import CombatTrials.Data.Ledger
import CombatTrials.Chance.ChaCha
import CombatTrials.Trials.Snapshot

/-!
# The registry of jobs

A job is known by a `Token`. The `Registry` keeps the latest snapshot of every token and knows which
jobs are running: `begin` hands out a `Lease` for a token, and the job runs until that lease is
released. Releasing a lease makes sure that the last snapshot of its token is final, so whoever
waits for a job is never left without an answer.

Every lease has a ticket of its own. A token can be begun again; then the lease handed out last
decides whether the job is running, and the earlier ones are followed only by those who asked for
them.
-/

namespace CombatTrials
namespace Trials

open Chance (Stream)

/-- The name of a job. -/
abbrev Token := String

namespace Token

/-- How many characters a token has. -/
def size : Nat := 32

/-- The characters of tokens. -/
def alphabet : Vector Char 62 :=
  #v['A', 'B', 'C', 'D', 'E', 'F', 'G', 'H', 'I', 'J', 'K', 'L', 'M', 'N', 'O', 'P', 'Q', 'R',
    'S', 'T', 'U', 'V', 'W', 'X', 'Y', 'Z', 'a', 'b', 'c', 'd', 'e', 'f', 'g', 'h', 'i', 'j', 'k',
    'l', 'm', 'n', 'o', 'p', 'q', 'r', 's', 't', 'u', 'v', 'w', 'x', 'y', 'z', '0', '1', '2', '3',
    '4', '5', '6', '7', '8', '9']

/-- The character that a draw stands for. -/
def charOf (draw : UInt64) : Char :=
  alphabet.get ⟨draw.toNat % 62, Nat.mod_lt _ (by decide)⟩

/-- Draws characters. -/
def drawChars : (n : Nat) → Stream → List Char × Stream
  | 0, s => ([], s)
  | n + 1, s =>
    let (draw, s) := s.next
    let (chars, s) := drawChars n s
    (charOf draw :: chars, s)

/-- Draws a token. -/
def draw (s : Stream) : Token × Stream :=
  let (chars, s) := drawChars size s
  (String.ofList chars, s)

/-- Draws tokens. -/
def drawMany : (n : Nat) → Stream → List Token × Stream
  | 0, s => ([], s)
  | n + 1, s =>
    let (token, s) := draw s
    let (tokens, s) := drawMany n s
    (token :: tokens, s)

end Token

/-- What a running job holds. -/
structure Lease where
  token : Token
  /-- No two leases have the same. -/
  ticket : Nat
  deriving DecidableEq, Repr

/-- What is known of jobs. -/
structure Registry where
  snapshots : Data.Ledger Token Snapshot := []
  /-- The ticket of the lease that was handed out last for a token. -/
  latest : Data.Ledger Token Nat := []
  /-- The tickets of leases that were released. -/
  released : List Nat := []
  /-- How many leases were handed out. -/
  issued : Nat := 0
  deriving DecidableEq, Repr

/-- The last snapshot of a job that stopped without a final one. -/
def closing (last : Snapshot) (crashing : Bool) : Snapshot :=
  if crashing then last.withError "job thread panicked"
  else { last with cancelled := true }.withError "job stopped before publishing a result"

namespace Registry

/-- The snapshot of a token. -/
def lookup (r : Registry) (token : Token) : Option Snapshot := r.snapshots.find? token

/-- Replaces the snapshot of a token. -/
def publish (r : Registry) (token : Token) (snapshot : Snapshot) : Registry :=
  { r with snapshots := r.snapshots.set token snapshot }

/-- Gives a job that has not begun the first of the drawn tokens that is not taken. There is no
answer when all of them are. -/
def allocate? (r : Registry) (drawn : List Token) (maxIterations : UInt32) :
    Option (Token × Registry) := do
  let token ← drawn.find? fun token => !r.snapshots.contains token
  return (token, r.publish token (.pending maxIterations))

/-- All tokens, in ascending order. -/
def tokens (r : Registry) : List Token := r.snapshots.keys

/-- Marks a job as running until the lease is released. -/
def begin (r : Registry) (token : Token) : Lease × Registry :=
  (⟨token, r.issued⟩, { r with latest := r.latest.set token r.issued, issued := r.issued + 1 })

/-- The snapshot that releasing a lease leaves to be published: none when the last one is final. -/
def closing? (r : Registry) (token : Token) (crashing : Bool) : Option Snapshot :=
  match r.lookup token with
  | some last => if last.isFinal then none else some (closing last crashing)
  | none => none

/-- Releases a lease, perhaps because its job crashed. -/
def release (r : Registry) (lease : Lease) (crashing : Bool) : Registry :=
  let r := match r.closing? lease.token crashing with
    | some snapshot => r.publish lease.token snapshot
    | none => r
  { r with released := lease.ticket :: r.released }

/-- The lease that decides whether a job is running. -/
def lease? (r : Registry) (token : Token) : Option Lease := (r.latest.find? token).map (⟨token, ·⟩)

/-- Whether a lease is still held. -/
def isHeld (r : Registry) (lease : Lease) : Bool := !r.released.contains lease.ticket

/-- Whether a job is running. -/
def isRunning (r : Registry) (token : Token) : Bool :=
  match r.lease? token with
  | some lease => r.isHeld lease
  | none => false

end Registry
end Trials
end CombatTrials
