import CombatTrials.Arena.Play
import CombatTrials.Fixture.Loadouts
import CombatTrials.Fixture.Probe
import CombatTrials.Main
import CombatTrials.Chance.Dice
import CombatTrials.Script.Eval
import CombatTrials.Script.Form
import CombatTrials.Script.Inspect
import CombatTrials.Text.Json.Format
import CombatTrials.Text.Json.Printer
import CombatTrials.Text.Json.Reader
import CombatTrials.Text.Ron.Format
import CombatTrials.Trials.Consistency
import CombatTrials.Trials.Simulator
import CombatTrials.Proofs.Arena.Logging
import CombatTrials.Proofs.Arena.Moments
import CombatTrials.Proofs.Arena.Turns
import CombatTrials.Proofs.Arena.Endurance
import CombatTrials.Proofs.Arena.Verdict
import CombatTrials.Proofs.Arena.Horizon
import CombatTrials.Proofs.Trials.Conservation
import CombatTrials.Proofs.Trials.Finality
import CombatTrials.Proofs.Trials.Independence
import CombatTrials.Proofs.Trials.Explanation
import CombatTrials.Proofs.Script.Names
import CombatTrials.Proofs.Script.Parallel
import CombatTrials.Proofs.Script.World
import CombatTrials.Proofs.Script.Account
import CombatTrials.Proofs.Script.Dependence
import CombatTrials.Proofs.Script.Cases
import CombatTrials.Proofs.Script.Conditionals
import CombatTrials.Proofs.Script.Nodes
import CombatTrials.Proofs.Script.Invariant
import CombatTrials.Proofs.Script.Origins
import CombatTrials.Proofs.Script.Frame
import CombatTrials.Proofs.Script.Equivalence
import CombatTrials.Proofs.Script.Refactoring
import CombatTrials.Proofs.Script.Blocks
import CombatTrials.Proofs.Script.Calls
import CombatTrials.Proofs.Script.Plain
import CombatTrials.Proofs.Arena.Splitting
import CombatTrials.Proofs.Trials.Single
import CombatTrials.Proofs.Trials.Backpressure
import CombatTrials.Proofs.Trials.Waiting
import CombatTrials.Proofs.Trials.Isolation
import CombatTrials.Proofs.Arena.Guarded
import CombatTrials.Proofs.Arena.Safety
import CombatTrials.Proofs.Trials.Streaming
import CombatTrials.Proofs.Arena.Attrition
import CombatTrials.Proofs.Trials.Journal
import CombatTrials.Proofs.Arena.Bindings
import CombatTrials.Proofs.Arena.Requests
import CombatTrials.Proofs.Arena.Globals
import CombatTrials.Proofs.Arena.Admission
import CombatTrials.Proofs.Arena.View
import CombatTrials.Proofs.Trials.Draws
import CombatTrials.Proofs.Trials.Tallies
import CombatTrials.Proofs.Trials.Encoding
import CombatTrials.Proofs.Trials.DataFiles
import CombatTrials.Proofs.Arena.Onslaught
import CombatTrials.Proofs.Trials.Unanimity
