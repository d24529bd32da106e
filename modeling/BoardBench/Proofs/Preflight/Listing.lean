import BoardBench.Preflight
import BoardBench.Host.Station
import BoardBench.Proofs.Sweep.Conduct
import BoardBench.Proofs.Sweep.Invariant

/-!
# What a check foretells

A check goes over the pairs of a board on its own, with nothing but the files to look at.

Main result: it lists the pairs that an uninterrupted sweep reports, in the same order, and what it
says of a pair is what the sweep does with it, as long as no command makes or removes an environment
directory. How the name of the board is spelled makes no difference to either of them.

Proof strategy: both lists are brought to the flat list of the pairs. What the state of a pair
foretells then follows from the events that belong to its status.
-/
namespace BoardBench.Preflight

open Sweep

variable {σ : Type}

/-! ### Both lists -/

def Listing.labelled? : Listing → Option ((String × String) × PairState)
  | pair benchmark environment state => some ((benchmark, environment), state)
  | noEnvironments _ => none

/-- The pairs that are listed, with their states. -/
def Findings.pairs (findings : Findings) : List ((String × String) × PairState) :=
  findings.listing.filterMap Listing.labelled?

/-- What a check looks at for a sweep. -/
def checkTarget (settings : Settings) : Target where
  board := settings.target.board
  workdir := settings.target.workdir

theorem entries_listingOf (files : Files) (target : Target) (benchmark : Benchmark) :
    (listingOf files target benchmark).filterMap Listing.labelled? =
      (benchmark.environments.map fun environment => (benchmark, environment)).map
        fun pair : Pair => (pair.labels, stateOf files target pair.2) := by
  unfold listingOf
  split
  next empty =>
    rw [List.isEmpty_iff.mp empty]
    rfl
  next =>
    rw [List.filterMap_map, List.map_map, ← List.filterMap_eq_map]
    rfl

theorem pairs_inspect (files : Files) (search? : Option String) (config : Config)
    (settings : Settings) :
    (inspect files search? config (checkTarget settings)).pairs =
      (settings.pairs config).map fun pair =>
        (pair.labels, stateOf files settings.target pair.2) := by
  -- Both sides go over the entries for the board, and over the environments of each entry.
  simp only [Findings.pairs, inspect, Settings.pairs, List.filterMap_flatMap, List.map_flatMap,
    entries_listingOf]
  rfl

/-! ### What a status says about its events -/

theorem isSkipped_settles {request : Supervision.Request} {maxAttempts number : UInt32}
    {events : List Event} {status : PairStatus}
    (settles : Settles request maxAttempts number events status) : status.isSkipped = false := by
  cases settles <;> rfl

theorem isSkipped_collects {request : Supervision.Request} {maxAttempts : UInt32}
    {events : List Event} {status : PairStatus}
    (collects : Collects request maxAttempts events status) : status.isSkipped = false := by
  cases collects with
  | after _ _ _ _ settles => exact isSkipped_settles settles

theorem isSkipped_prepares {request : Supervision.Request} {failure : Option Int → Failure}
    {next : List Event → PairStatus → Prop} {events : List Event} {status : PairStatus}
    (proceeds : ∀ events status, next events status → status.isSkipped = false)
    (prepares : Prepares request failure next events status) : status.isSkipped = false := by
  cases prepares with
  | fault => rfl
  | failed => rfl
  | passed _ rest => exact proceeds _ _ rest

theorem isSkipped_builds {settings : Settings} {pair : Pair} {events : List Event}
    {status : PairStatus} (builds : settings.Builds pair events status) :
    status.isSkipped = false := by
  refine isSkipped_prepares ?_ builds
  intro events status flashes
  unfold Settings.Flashes at flashes
  split at flashes
  · exact isSkipped_collects flashes
  · exact isSkipped_prepares (fun _ _ => isSkipped_collects) flashes

theorem head_prepares {request : Supervision.Request} {failure : Option Int → Failure}
    {next : List Event → PairStatus → Prop} {events : List Event} {status : PairStatus}
    (prepares : Prepares request failure next events status) :
    (commands events).head? = some request := by
  cases prepares <;> rfl

/-- The state that a check lists for a pair foretells what the sweep does with it. -/
structure Foretells (settings : Settings) (pair : Pair) (state : PairState) (events : List Event)
    (status : PairStatus) : Prop where
  disabled : state = .disabled ↔ status = .skipped .disabled
  missing : state = .missingDirectory ↔
    status = .skipped (.missingDirectory (settings.target.directory pair.2))
  ready : state = .ready ↔ status.isSkipped = false
  attempted : state = .ready → (commands events).head? = some (settings.buildRequest pair)
  idle : state ≠ .ready → events = []

theorem foretells_of_conducts {settings : Settings} {pair : Pair} {files : Files}
    {events : List Event} {status : PairStatus}
    (conducts : settings.Conducts pair (files.isDirectory (settings.target.directory pair.2)) events
      status) :
    Foretells settings pair (stateOf files settings.target pair.2) events status := by
  cases conducts with
  | disabled off =>
    have state : stateOf files settings.target pair.2 = .disabled := if_pos off
    rw [state]
    constructor <;> simp [PairStatus.isSkipped]
  | missing on absent =>
    have state : stateOf files settings.target pair.2 = .missingDirectory := by
      simp [stateOf, on, absent]
    rw [state]
    constructor <;> simp [PairStatus.isSkipped]
  | phased on present builds =>
    have state : stateOf files settings.target pair.2 = .ready := by simp [stateOf, on, present]
    have runs := isSkipped_builds builds
    rw [state]
    -- A status that is not skipped is neither of the two others.
    refine ⟨?_, ?_, ⟨fun _ => runs, fun _ => rfl⟩, fun _ => head_prepares builds, by simp⟩
    · refine ⟨fun same => (nomatch same), ?_⟩
      rintro rfl
      cases runs
    · refine ⟨fun same => (nomatch same), ?_⟩
      rintro rfl
      cases runs

/-! ### Environment directories stay as they are -/

/-- The world has the directories of the pairs exactly as the files have them. -/
def ShowsDirectories (settings : Settings) (workbench : Workbench σ) (config : Config)
    (files : Files) (world : σ) : Prop :=
  ∀ pair ∈ settings.pairs config,
    workbench.isDirectory (settings.target.directory pair.2) world =
      files.isDirectory (settings.target.directory pair.2)

/-- When its turn comes, each pair finds its directory as it was before the sweep. -/
def LeavesDirectories (settings : Settings) (workbench : Workbench σ) (config : Config)
    (world : σ) : Prop :=
  ∀ index pair, (settings.pairs config)[index]? = some pair →
    workbench.isDirectory (settings.target.directory pair.2)
        (settings.worldAfter workbench ((settings.pairs config).take index) world) =
      workbench.isDirectory (settings.target.directory pair.2) world

theorem leavesDirectories_of_keeps {settings : Settings} {workbench : Workbench σ} {config : Config}
    {world : σ} {invariant : σ → Prop} (keeps : workbench.Keeps invariant) (holds : invariant world)
    (tells : ∀ now, invariant now → ∀ path,
      workbench.isDirectory path now = workbench.isDirectory path world) :
    LeavesDirectories settings workbench config world := by
  intro index pair _
  apply tells
  exact keeps.worldAfter settings ((settings.pairs config).take index) holds

theorem files_launch (machine : Host.Machine) (request : Supervision.Request) :
    (machine.launch request).2.files = machine.files := by
  have start (program : String) (arguments location : List String) :
      (machine.start request program arguments location).2.files = machine.files := by
    unfold Host.Machine.start
    simp only
    split
    · rfl
    · split
      · rfl
      · split
        · rfl
        · split <;> rfl
  unfold Host.Machine.launch
  split
  · rfl
  -- A launch is a start from the place of the directory, if that is there.
  next program arguments _ =>
    split
    next location _ _ =>
      have kept := start program arguments location
      split
      next actions after started => rwa [started] at kept
      next cause after started => rwa [started] at kept
    · rfl

theorem keeps_files_station (raisesOn : Nat → Bool) (files : Files) :
    (Host.Station.workbench raisesOn).Keeps fun station => station.machine.files = files where
  execute request station same := by
    have kept := files_launch station.machine request
    simp only [Host.Station.workbench, Host.Station.run]
    split
    next fault machine launched => rwa [launched, same] at kept
    next child machine launched => rwa [launched, same] at kept
  decide attempt maxAttempts station same := same

theorem leavesDirectories_station (settings : Settings) (raisesOn : Nat → Bool) (config : Config)
    (station : Host.Station) :
    LeavesDirectories settings (Host.Station.workbench raisesOn) config station := by
  apply leavesDirectories_of_keeps (keeps_files_station raisesOn station.machine.files) rfl
  intro now same path
  exact congrArg (Files.isDirectory · path) same

/-! ### The spelling of the board -/

/-- The same sweep with another spelling of its board. -/
def onBoard (settings : Settings) (board : String) : Settings :=
  { settings with target := { settings.target with board } }

theorem forBoard_of_same (config : Config) {one other : String}
    (same : sameIgnoringCase one other = true) : config.forBoard one = config.forBoard other := by
  rw [sameIgnoringCase, beq_iff_eq] at same
  simp only [Config.forBoard, sameIgnoringCase, same]

theorem pairs_onBoard (settings : Settings) (config : Config) {board : String}
    (same : sameIgnoringCase board settings.target.board = true) :
    (onBoard settings board).pairs config = settings.pairs config := by
  have entries : config.forBoard (onBoard settings board).target.board =
      config.forBoard settings.target.board := forBoard_of_same config same
  rw [Settings.pairs, Settings.pairs, entries]

theorem listing_onBoard (files : Files) (search? : Option String) (config : Config)
    (settings : Settings) {board : String}
    (same : sameIgnoringCase board settings.target.board = true) :
    (inspect files search? config (checkTarget (onBoard settings board))).listing =
      (inspect files search? config (checkTarget settings)).listing := by
  have entries : config.forBoard (checkTarget (onBoard settings board)).board =
      config.forBoard (checkTarget settings).board := forBoard_of_same config same
  simp only [inspect, entries]
  rfl

/-! ### The sweep -/

section Sweep

variable {settings : Settings} {workbench : Workbench σ} {config : Config} {files : Files}
  {world : σ}

theorem labels_reported
    (through : (settings.sweep workbench config world).report.interrupted = false) :
    (settings.sweep workbench config world).report.pairs.map PairReport.labels =
      (settings.pairs config).map Pair.labels := by
  obtain ⟨runs, covered, written⟩ :=
    (hasWalked_sweep settings workbench config world).hasDone through
  rw [written]
  exact labels_reportOn covered.length_eq

theorem foretells_reported
    (shows : ShowsDirectories settings workbench config files world)
    (leaves : LeavesDirectories settings workbench config world) {index : Nat}
    {account : PairReport}
    (found : (settings.sweep workbench config world).report.pairs[index]? = some account) :
    ∃ pair, (settings.pairs config)[index]? = some pair ∧ account.labels = pair.labels ∧
      Foretells settings pair (stateOf files settings.target pair.2)
        (settings.events workbench pair
          (settings.worldAfter workbench ((settings.pairs config).take index) world))
        account.status := by
  obtain ⟨-, accounted⟩ := sweep_reports settings workbench config world
  obtain ⟨pair, run, among, ended, rfl, -⟩ := accounted index account found
  refine ⟨pair, among, rfl, ?_⟩
  have conducts := conducts_events settings workbench ended
  -- Neither the start of the sweep nor its other pairs make a difference to the directory.
  rw [leaves index pair among, shows pair (List.mem_of_getElem? among)] at conducts
  exact foretells_of_conducts conducts

/-- Why a pair is to be skipped, given its directory. -/
def PairState.skip? (directory : String) : PairState → Option SkipReason
  | .disabled => some .disabled
  | .ready => none
  | .missingDirectory => some (.missingDirectory directory)

def skipOf : PairStatus → Option SkipReason
  | .skipped reason => some reason
  | _ => none

theorem Foretells.skipOf_eq {pair : Pair} {state : PairState} {events : List Event}
    {status : PairStatus} (foretells : Foretells settings pair state events status) :
    skipOf status = state.skip? (settings.target.directory pair.2) := by
  cases state with
  | disabled =>
    rw [foretells.disabled.mp rfl]
    rfl
  | missingDirectory =>
    rw [foretells.missing.mp rfl]
    rfl
  | ready =>
    have runs := foretells.ready.mp rfl
    cases status with
    | skipped => cases runs
    | collected => rfl
    | failed => rfl

theorem skips_reported (shows : ShowsDirectories settings workbench config files world)
    (leaves : LeavesDirectories settings workbench config world)
    (through : (settings.sweep workbench config world).report.interrupted = false) :
    (settings.sweep workbench config world).report.pairs.map
        (fun account => (account.labels, skipOf account.status)) =
      (settings.pairs config).map fun pair =>
        (pair.labels, (stateOf files settings.target pair.2).skip?
          (settings.target.directory pair.2)) := by
  have lengths := congrArg List.length (labels_reported through)
  rw [List.length_map, List.length_map] at lengths
  apply List.ext_getElem
  · rw [List.length_map, List.length_map, lengths]
  intro index within _
  rw [List.length_map] at within
  obtain ⟨pair, among, labels, foretells⟩ :=
    foretells_reported shows leaves (List.getElem?_eq_getElem within)
  obtain ⟨_, same⟩ := List.getElem?_eq_some_iff.mp among
  rw [List.getElem_map, List.getElem_map, same, labels, foretells.skipOf_eq]

variable (search? : Option String)

/-- A check lists the pairs that an uninterrupted sweep reports, as many and in the same order. A
pair is listed as disabled, as missing its directory or as ready exactly if the sweep skips it for
the one reason, for the other or not at all, and only for a pair that is ready a command is
attempted, first the one that builds it. Another spelling of the board in upper and lower case
changes neither what is listed nor which pairs are reported and skipped. -/
theorem listing_foretells_sweep
    (shows : ShowsDirectories settings workbench config files world)
    (leaves : LeavesDirectories settings workbench config world)
    (through : (settings.sweep workbench config world).report.interrupted = false) :
    let findings := inspect files search? config (checkTarget settings)
    let reported := (settings.sweep workbench config world).report.pairs
    findings.pairs.map Prod.fst = reported.map PairReport.labels ∧
    (∀ index entry account, findings.pairs[index]? = some entry →
      reported[index]? = some account → ∃ pair, (settings.pairs config)[index]? = some pair ∧
        Foretells settings pair entry.2
          (settings.events workbench pair
            (settings.worldAfter workbench ((settings.pairs config).take index) world))
          account.status) ∧
    ∀ board, sameIgnoringCase board settings.target.board = true →
      let respelled := onBoard settings board
      (inspect files search? config (checkTarget respelled)).listing = findings.listing ∧
      (LeavesDirectories respelled workbench config world →
        (respelled.sweep workbench config world).report.interrupted = false →
        (respelled.sweep workbench config world).report.pairs.map
            (fun account => (account.labels, skipOf account.status)) =
          reported.map fun account => (account.labels, skipOf account.status)) := by
  intro findings reported
  have listed : findings.pairs = (settings.pairs config).map fun pair =>
      (pair.labels, stateOf files settings.target pair.2) :=
    pairs_inspect files search? config settings
  refine ⟨?_, ?_, ?_⟩
  · rw [listed, List.map_map]
    exact (labels_reported through).symm
  · intro index entry account there found
    obtain ⟨pair, among, -, foretells⟩ := foretells_reported shows leaves found
    rw [listed, List.getElem?_map, among, Option.map_some, Option.some.injEq] at there
    rw [← there]
    exact ⟨pair, among, foretells⟩
  · intro board same respelled
    have pairs : respelled.pairs config = settings.pairs config :=
      pairs_onBoard settings config same
    refine ⟨listing_onBoard files search? config settings same, ?_⟩
    intro leaves' through'
    -- The directories are the same ones, whatever the spelling.
    have shows' : ShowsDirectories respelled workbench config files world := by
      rw [ShowsDirectories, pairs]
      exact shows
    rw [skips_reported shows' leaves' through', skips_reported shows leaves through, pairs]
    rfl

end Sweep

/-- Every command yields a row and leaves the files as they are. -/
def obliging : Workbench Files where
  isDirectory path files := files.isDirectory path
  execute _ files :=
    ({ seen := []
       result := .ok { exit := .ended (.code 0), transcript := [], rows := [Telemetry.Row.empty] }
       unconfigured := by simp }, files)
  decide _ _ files := ({ answer := true }, files)

theorem keeps_obliging (files : Files) : obliging.Keeps (· = files) where
  execute _ _ same := same
  decide _ _ _ same := same

def mixedConfig : Config where
  -- One environment that is there, one that is not, and one that is disabled.
  benchmarks :=
    [{ name := "sum", filename := "sum.c", scaleFactor := 1, iterations := 1, board := "Native"
       environments :=
        [{ name := "wasm" }, { name := "rbpf" }, { name := "mp", disabled := true }] }]
  commands := counterSettings.commands

def mixedFiles : Files where
  entries := [("/wasm", .directory)]

theorem mixed_foretold :
    (inspect mixedFiles none mixedConfig (checkTarget counterSettings)).pairs =
      [(("sum", "wasm"), .ready), (("sum", "rbpf"), .missingDirectory),
        (("sum", "mp"), .disabled)] ∧
    (inspect mixedFiles none mixedConfig (checkTarget counterSettings)).pairs.map Prod.fst =
      (counterSettings.sweep obliging mixedConfig mixedFiles).report.pairs.map
        PairReport.labels := by
  have leaves : LeavesDirectories counterSettings obliging mixedConfig mixedFiles := by
    apply leavesDirectories_of_keeps (keeps_obliging mixedFiles) rfl
    rintro now rfl path
    rfl
  refine ⟨by decide +kernel, ?_⟩
  exact (listing_foretells_sweep none (fun _ _ => rfl) leaves (by decide +kernel)).1

end BoardBench.Preflight
