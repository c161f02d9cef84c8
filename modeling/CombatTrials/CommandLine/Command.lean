import CombatTrials.CommandLine.Manual
import CombatTrials.Text.Json.Printer
import CombatTrials.Text.Ron.Format
import CombatTrials.Trials.Simulator

/-!
# Commands

The program has two commands. `run` runs one job of a loadout file and prints its last snapshot as
JSON; `verify` runs the same job on pools of different sizes and says whether they came to the same.
`parse` makes a `Command` of the arguments, and `Command.execute` answers what the program prints
and its exit code. Files and the host come in as a `Host`, so both are plain functions.

Exit codes: zero for success, one for a command that failed, two for arguments that are not
accepted. Nothing is printed to the output by a command that failed.
-/

namespace CombatTrials
namespace CommandLine

open Data (File)
open Chance (Stream)
open Trials (Settings Setup Request Simulator Snapshot)

/-- The job that a command line asks for. -/
structure JobOptions where
  loadout : String
  iterations : UInt32
  seed : UInt64
  turns : UInt32
  deriving DecidableEq, Repr

/-- What help can be asked for about. -/
inductive Topic where
  | program
  | run
  | verify
  | help
  deriving DecidableEq, Repr

/-- What a command line asks for. -/
inductive Command where
  | help (topic : Topic)
  | version
  | run (job : JobOptions) (workers : Option UInt64) (config : Option String) (pretty : Bool)
  | verify (job : JobOptions)
  deriving DecidableEq, Repr

/-! ## Reading arguments -/

/-- A number of thirty-two bits. -/
def word32? (value : String) : Option UInt32 := do
  let n ← nonNegative? value
  if n < UInt32.size then some (UInt32.ofNat n) else none

/-- A number of sixty-four bits. -/
def word64? (value : String) : Option UInt64 := do
  let n ← unsigned? value
  if n < UInt64.size then some (UInt64.ofNat n) else none

/-- The option that makes the program say more of what it does. -/
def verboseOption : OptionSpec :=
  { long := "verbose", short := some 'v', about := "Enable verbose logging to stderr",
    takesValue := false }

/-- The option that asks for help. -/
def helpOption : OptionSpec :=
  { long := "help", short := some 'h', about := "Print help", takesValue := false }

/-- The options before the name of a command. -/
def programOptions : List OptionSpec := [
  verboseOption,
  helpOption,
  { long := "version", short := some 'V', about := "Print version", takesValue := false }]

/-- The options that describe a job. -/
def jobOptions : List OptionSpec := [
  { long := "loadout", short := some 'l', about := "Arena loadout file (RON)",
    accepts := (! ·.isEmpty) },
  verboseOption,
  { long := "iterations", short := some 'i', about := "Number of iterations",
    standard := some "1000",
    accepts := (word32? · |>.isSome) },
  { long := "seed", about := "Master seed", standard := some "0",
    accepts := (word64? · |>.isSome) },
  { long := "turns", short := some 't', about := "Turn limit per stage", standard := some "30",
    accepts := (word32? · |>.isSome) }]

/-- The options of `run`. -/
def runOptions : List OptionSpec :=
  jobOptions ++ [
    { long := "workers", short := some 'w'
      about := "Worker threads (default: available cores minus reserve)"
      accepts := (word64? · |>.isSome) },
    { long := "config", short := some 'c', about := "Simulator config file (RON)"
      accepts := (! ·.isEmpty) },
    { long := "pretty", about := "Pretty-print the JSON output", takesValue := false },
    helpOption]

/-- The options of `verify`. -/
def verifyOptions : List OptionSpec := jobOptions ++ [helpOption]

/-- The job of options that were given. -/
def Given.job (given : Given) : Except UsageError JobOptions :=
  match given.lookup "loadout" with
  | none => .error (.missingOption "loadout")
  | some loadout => .ok {
      loadout := loadout
      iterations := ((given.lookup "iterations").bind word32?).getD 1000
      seed := ((given.lookup "seed").bind word64?).getD 0
      turns := ((given.lookup "turns").bind word32?).getD 30 }

/-- Reads the options of a command, which end its arguments. Asking for help outweighs what is
missing. -/
def readCommand (topic : Topic) (specs : List OptionSpec)
    (command : Given → Except UsageError Command)
    (arguments : List String) : Except UsageError Command := do
  let scanned ← scan specs (· == "help") [] arguments
  if (scanned.given.lookup "help").isSome then return .help topic
  match scanned.rest with
  | [] => command scanned.given
  | argument :: _ => throw (.unexpectedArgument argument)

/-- The topic of a command. -/
def Topic.ofName? : String → Option Topic
  | "run" => some .run
  | "verify" => some .verify
  | "help" => some .help
  | _ => none

/-- A request for help on at most one command. -/
def readHelp : List String → Except UsageError Command
  | [] => .ok (.help .program)
  | name :: rest =>
    match Topic.ofName? name, rest with
    | none, _ => .error (.unknownCommand name)
    | some topic, [] => .ok (.help topic)
    | some _, next :: _ => .error (.unknownCommand next)

/-- Reads the arguments of the program. -/
def parse (arguments : List String) : Except UsageError Command := do
  let scanned ← scan programOptions (fun name => name == "help" || name == "version") [] arguments
  if (scanned.given.lookup "help").isSome then return .help .program
  if (scanned.given.lookup "version").isSome then return .version
  match scanned.rest with
  | [] => throw .missingCommand
  | "run" :: rest =>
    readCommand .run runOptions (fun given => do
      return .run (← given.job) ((given.lookup "workers").bind word64?) (given.lookup "config")
        (given.lookup "pretty").isSome) rest
  | "verify" :: rest =>
    readCommand .verify verifyOptions (fun given => do return .verify (← given.job)) rest
  | "help" :: rest => readHelp rest
  | name :: _ => throw (.unknownCommand name)

/-! ## Manuals -/

/-- What is said about `run`. -/
def aboutRun : String := "Run a simulation job and print its final snapshot"

/-- What is said about `verify`. -/
def aboutVerify : String := "Run the same job on pools of different sizes and compare histograms"

/-- What is said about `help`. -/
def aboutHelp : String := "Print this message or the help of the given subcommand(s)"

/-- The manual of a topic. -/
def Topic.manual : Topic → Manual
  | .program => {
      about := "Monte Carlo stage simulator"
      usage := "sim_server [OPTIONS] <COMMAND>"
      tables := [
        ("Commands", [("run", aboutRun), ("verify", aboutVerify), ("help", aboutHelp)]),
        ("Options", programOptions.map OptionSpec.row)] }
  | .run => {
      about := aboutRun
      usage := "sim_server run [OPTIONS] --loadout <LOADOUT>"
      tables := [("Options", runOptions.map OptionSpec.row)] }
  | .verify => {
      about := aboutVerify
      usage := "sim_server verify [OPTIONS] --loadout <LOADOUT>"
      tables := [("Options", verifyOptions.map OptionSpec.row)] }
  | .help => {
      about := aboutHelp
      usage := "sim_server help [COMMAND]..."
      tables := [("Arguments", [("[COMMAND]...", "Print help for the subcommand(s)")])] }

/-! ## Executing commands -/

/-- What commands need of the machine they run on. -/
structure Host where
  /-- What is found at a path. -/
  file : String → File
  /-- How many threads can run at a time. -/
  threads : Nat
  /-- Where the tokens of jobs are drawn from. -/
  tokens : Stream

/-- What the program does when it is run. -/
structure Response where
  exitCode : UInt32
  output : String
  /-- What is written for the user to read beside the output. -/
  complaint : String
  deriving DecidableEq, Repr

/-- The response of a command that succeeded. -/
def Response.success (output : String) : Response := ⟨0, output, ""⟩

/-- The response of a command that failed. -/
def Response.failure (complaint : String) : Response := ⟨1, "", complaint⟩

/-- The version of the program. -/
def versionText : String := "sim_server 0.1.0\n"

/-- The paths of the files that a command reads. -/
def Command.paths : Command → List String
  | .run job _ config _ => config.toList ++ [job.loadout]
  | .verify job => [job.loadout]
  | _ => []

/-- The encounter of a loadout file. -/
def loadEncounter (host : Host) (path : String) : Except String Arena.Encounter :=
  match (host.file path).load (Text.Ron.read? Arena.Encounter.read?) with
  | .ok e => .ok e
  | .error problem =>
    .error s!"Failed to load loadout {path}: {(Arena.Fault.file path problem).message}"

/-- The settings of a settings file, or the standard ones. -/
def loadSettings (host : Host) : Option String → Except String Settings
  | none => .ok {}
  | some path =>
    match (host.file path).load (Text.Ron.read? Settings.read?) with
    | .ok s => .ok s
    | .error problem =>
      .error s!"Failed to load config {path}: {Settings.problemMessage path problem}"

/-- The last snapshot of a job that is run by itself. -/
def lastSnapshot (host : Host) (settings : Settings) (job : JobOptions)
    (encounter : Arena.Encounter) : Except String Snapshot :=
  let request : Request Setup := {
    maxTurns := job.turns
    maxIterations := job.iterations
    seed := job.seed
    loadout := .ofEncounter encounter }
  let simulator := Simulator.start settings (settings.workerCount host.threads)
  match simulator.submitAll? host.tokens [request] with
  | some ([token], simulator) =>
    match simulator.run.registry.lookup token with
    | some snapshot => .ok snapshot
    | none => .error "Job disappeared from the registry"
  | _ => .error "Job disappeared from the registry"

/-- The sizes of the pools that `verify` compares, in ascending order. -/
def poolSizes (host : Host) : List Nat :=
  let own := ({} : Settings).workerCount host.threads
  if own ≤ 2 then [1, 2] else [1, 2, own]

/-- Whether every snapshot has the counts and the log of the next one. -/
def snapshotsAgree : List Snapshot → Bool
  | a :: b :: rest =>
    a.histogram == b.histogram && a.fullLog == b.fullLog && snapshotsAgree (b :: rest)
  | _ => true

/-- A list of numbers between square brackets. -/
def listText (numbers : List Nat) : String :=
  "[" ++ String.intercalate ", " (numbers.map toString) ++ "]"

/-- Runs one job. -/
def executeRun (host : Host) (job : JobOptions) (workers : Option UInt64) (config : Option String)
    (pretty : Bool) : Except String String := do
  let settings ← loadSettings host config
  let encounter ← loadEncounter host job.loadout
  let settings := match workers with
    | some n => { settings with workers := some n }
    | none => settings
  let snapshot ← lastSnapshot host settings job encounter
  return (if pretty then snapshot.toJson.pretty else snapshot.toJson.compact) ++ "\n"

/-- Runs one job on pools of different sizes. -/
def executeVerify (host : Host) (job : JobOptions) : Except String String := do
  let encounter ← loadEncounter host job.loadout
  let sizes := poolSizes host
  let snapshots ← sizes.mapM fun size =>
    lastSnapshot host { workers := some (UInt64.ofNat size) } job encounter
  if snapshotsAgree snapshots then
    return "Deterministic across pool sizes " ++ listText sizes ++ "\n"
  else throw ("Results differ across pool sizes " ++ listText sizes)

/-- What the program does on a command. -/
def Command.execute (host : Host) : Command → Response
  | .help topic => .success topic.manual.text
  | .version => .success versionText
  | .run job workers config pretty => respond (executeRun host job workers config pretty)
  | .verify job => respond (executeVerify host job)
where
  /-- The response to what a command comes to. -/
  respond : Except String String → Response
    | .ok output => .success output
    | .error complaint => .failure complaint

/-- What the program does on arguments that are not accepted. -/
def UsageError.response (e : UsageError) : Response := ⟨2, "", "error: " ++ e.message⟩

/-- What the program does on its arguments. -/
def respond (host : Host) (arguments : List String) : Response :=
  match parse arguments with
  | .ok command => command.execute host
  | .error e => e.response

end CommandLine
end CombatTrials
