import CCNxFileRepo.System.OutputFile
import CCNxFileRepo.System.Programs

/-!
# Exit statuses

What a status should tell: a wrong use of the program, a call for help, or whether the program did
its work.  Both programs get the options right but for those that go on behind `-h`.  The client
and the server convert the value of their run function the wrong way round, so that they leave with
a failure whenever they come to the end of their work, and the server leaves with a success when it
was called with a wrong number of arguments.
-/

namespace CCNxFileRepo

open Foundations CCNxFileRepoCommon CCNxFileRepoManifestFetcher

def helpOption : CString := ['-', 'h']

/-- The status tells the truth about a program with `count` arguments that `worked` or did not. -/
structure TellsTruth (count : ℕ) (arguments : List CString) (worked : Prop) (status : ℕ) :
    Prop where
  unknownOption : (∃ arg ∈ arguments, isOption arg = true ∧ arg ≠ helpOption) →
    status = exitFailure
  wrongCount : (∀ arg ∈ arguments, isOption arg = false) → arguments.length ≠ count →
    status = exitFailure
  helpOnly : (∃ arg ∈ arguments, isOption arg = true) →
    (∀ arg ∈ arguments, isOption arg = true → arg = helpOption) → status = exitSuccess
  work : (∀ arg ∈ arguments, isOption arg = false) → arguments.length = count →
    (status = exitSuccess ↔ worked)

/-- Every option starts as `-h`, but not all of them end there. -/
def PassesForHelp (arguments : List CString) : Prop :=
  (∀ arg ∈ arguments, isOption arg = true → startsAsHelp arg = true) ∧
    ∃ arg ∈ arguments, isOption arg = true ∧ arg ≠ helpOption

variable {count : ℕ} {arguments : List CString} {worked : Prop} {status : ℕ}

theorem not_exists_option (h : ∀ arg ∈ arguments, isOption arg = false) :
    ¬ ∃ arg ∈ arguments, isOption arg = true := by
  rintro ⟨arg, harg, hoption⟩
  rw [h arg harg] at hoption
  cases hoption

/-- On options both programs leave with the status of the scan, which takes whatever starts as `-h`
for a call for help. -/
theorem tellsTruth_option_iff (h : ∃ arg ∈ arguments, isOption arg = true) :
    TellsTruth count arguments worked (processCommandLineArguments arguments).status ↔
      ¬ PassesForHelp arguments := by
  have hnone : ¬ ∀ arg ∈ arguments, isOption arg = false := fun hno ↦ not_exists_option hno h
  rw [status_of_scan]
  constructor
  · rintro htruth ⟨hhelp, hlonger⟩
    have hfailure := htruth.unknownOption hlonger
    rw [if_pos hhelp] at hfailure
    cases hfailure
  · intro hpasses
    refine ⟨fun hunknown ↦ if_neg fun hhelp ↦ hpasses ⟨hhelp, hunknown⟩,
      fun hno ↦ absurd hno hnone, fun _ hall ↦ if_pos fun arg harg hyes ↦ ?_,
      fun hno ↦ absurd hno hnone⟩
    rw [hall arg harg hyes]
    rfl

/-- Without options and with a wrong number of arguments only a failure tells the truth. -/
theorem tellsTruth_wrongCount_iff (h : ∀ arg ∈ arguments, isOption arg = false)
    (hcount : arguments.length ≠ count) :
    TellsTruth count arguments worked status ↔ status = exitFailure := by
  refine ⟨fun htruth ↦ htruth.wrongCount h hcount, fun hstatus ↦ ⟨?_, fun _ _ ↦ hstatus, ?_, ?_⟩⟩
  · exact fun _ ↦ hstatus
  · exact fun hoption ↦ absurd hoption (not_exists_option h)
  · exact fun _ hsame ↦ absurd hsame hcount

theorem not_passesForHelp (h : ∀ arg ∈ arguments, isOption arg = false) :
    ¬ PassesForHelp arguments := by
  rintro ⟨-, arg, harg, hoption, -⟩
  exact not_exists_option h ⟨arg, harg, hoption⟩

/-! ## The client -/

variable {createName : NameReader}

/-- What a network has under a name: the payload of a content object, or the payloads below a
manifest. -/
def Publishes (respond : CCNxInterest → Option CCNxMetaMessage) (target : CCNxName)
    (data : Bytes) : Prop :=
  (∃ object : CCNxContentObject, respond ⟨target, none⟩ = some (.contentObject object) ∧
    object.payload = data) ∨
  ∃ root pointers, respond ⟨target, none⟩ = some (.manifest root) ∧
    root.allGroups = some pointers ∧
    ∃ t : GroupTree (resolver respond root.name) pointers, t.leaves.flatten = data

/-- The output file holds all the data that the network has under the target name. -/
def OutputComplete (createName : NameReader) (respond : CCNxInterest → Option CCNxMetaMessage)
    (arguments : List CString) (fs : FileSystem) : Prop :=
  ∃ target outFile name data, arguments = [target, outFile] ∧ createName target = some name ∧
    Publishes respond name data ∧ fs outFile = some (.regular data)

/-- The portal to a network on which any exchange can fail, and which can be in error any time. -/
def clientPortal (respond : CCNxInterest → Option CCNxMetaMessage)
    (isError : ScriptedState → Bool) : CCNxPortal ScriptedState :=
  { scriptedPortal respond with isError := isError }

/-- Whatever the network, the disk and the writes do, the client leaves with a status that tells the
truth, if it leaves. -/
def ClientTruthful (createName : NameReader) (arguments : List CString) : Prop :=
  ∀ (respond : CCNxInterest → Option CCNxMetaMessage) (isError : ScriptedState → Bool)
    (schedule : ℕ → FetchOutcome) (fs : FileSystem) (outcomes : ℕ → WriteOutcome) (fuel : ℕ)
    (exit : ProcessExit FileSystem),
    CCNxFileRepoClient.main createName (clientPortal respond isError) fuel arguments fs
      (.start schedule) outcomes = some exit →
    TellsTruth 2 arguments (OutputComplete createName respond arguments exit.world) exit.status

/-- Arguments on which the client runs: no option, a name it can read and an output file. -/
def RunsClient (createName : NameReader) (arguments : List CString) : Prop :=
  (∀ arg ∈ arguments, isOption arg = false) ∧
    ∃ target outFile name, arguments = [target, outFile] ∧ createName target = some name

section Client

variable {σ : Type} {portal : CCNxPortal σ} {fuel : ℕ} {fs : FileSystem} {network : σ}
  {outcomes : ℕ → WriteOutcome}

theorem client_main_of_option (h : ∃ arg ∈ arguments, isOption arg = true) :
    CCNxFileRepoClient.main createName portal fuel arguments fs network outcomes =
      some ⟨(processCommandLineArguments arguments).status, true, fs⟩ := by
  have hany : arguments.any isOption = true := List.any_eq_true.mpr h
  simp [CCNxFileRepoClient.main, processCommandLineArguments_eq, hany]

theorem client_main_of_wrongCount (h : ∀ arg ∈ arguments, isOption arg = false)
    (hcount : arguments.length ≠ 2) :
    CCNxFileRepoClient.main createName portal fuel arguments fs network outcomes =
      some ⟨exitFailure, true, fs⟩ := by
  simp only [CCNxFileRepoClient.main, processCommandLineArguments_of_no_option h]
  match arguments, hcount with
  | [], _ => rfl
  | [_], _ => rfl
  | _ :: _ :: _ :: _, _ => rfl
  | [_, _], hcount => exact absurd rfl hcount

/-- Whatever a run of the client has done, it leaves with a failure. -/
theorem client_main_of_run {target outFile : CString} {name : CCNxName}
    {result : CCNxFileRepoClient.RunResult σ}
    (h : ∀ arg ∈ [target, outFile], isOption arg = false) (hname : createName target = some name)
    (hrun : CCNxFileRepoClient.run portal clientBufferSize fuel name outFile fs network outcomes =
      .ok result) :
    CCNxFileRepoClient.main createName portal fuel [target, outFile] fs network outcomes =
      some ⟨exitFailure, false, result.fs⟩ := by
  simp only [CCNxFileRepoClient.main, processCommandLineArguments_of_no_option h]
  simp [hname, hrun, CCNxFileRepoClient.RunResult.returnValue]

theorem client_main_of_no_name {target outFile : CString}
    (h : ∀ arg ∈ [target, outFile], isOption arg = false) (hname : createName target = none) :
    CCNxFileRepoClient.main createName portal fuel [target, outFile] fs network outcomes =
      none := by
  simp only [CCNxFileRepoClient.main, processCommandLineArguments_of_no_option h]
  simp [hname]

end Client

/-- A run that leaves the complete data in the output file ends with a lie. -/
theorem not_clientTruthful_of_run {respond : CCNxInterest → Option CCNxMetaMessage}
    {schedule : ℕ → FetchOutcome} {fs : FileSystem} {outcomes : ℕ → WriteOutcome} {fuel : ℕ}
    {target outFile : CString} {name : CCNxName} {data : Bytes}
    {result : CCNxFileRepoClient.RunResult ScriptedState}
    (h : ∀ arg ∈ [target, outFile], isOption arg = false) (hname : createName target = some name)
    (hrun : CCNxFileRepoClient.run (scriptedPortal respond) clientBufferSize fuel name outFile fs
      (.start schedule) outcomes = .ok result)
    (hpublishes : Publishes respond name data)
    (hfile : result.fs outFile = some (.regular data)) :
    ¬ ClientTruthful createName [target, outFile] := by
  intro htruthful
  have htruth := htruthful respond (fun _ ↦ false) schedule fs outcomes fuel _
    (client_main_of_run h hname hrun)
  have hsuccess : exitFailure = exitSuccess := (htruth.work h rfl).mpr
    ⟨target, outFile, name, data, rfl, hname, hpublishes, hfile⟩
  cases hsuccess

/-- A network with one byte under `name`. -/
def byteNetwork (name : CCNxName) (interest : CCNxInterest) : Option CCNxMetaMessage :=
  if interest = ⟨name, none⟩ then some (.contentObject ⟨name, [7]⟩) else none

/-- The client lies at the end of a run without any failure. -/
theorem RunsClient.not_truthful (h : RunsClient createName arguments) :
    ¬ ClientTruthful createName arguments := by
  obtain ⟨hoptions, target, outFile, name, rfl, hname⟩ := h
  let fs : FileSystem := fun _ ↦ none
  have hresponds : byteNetwork name ⟨name, none⟩ = some (.contentObject ⟨name, [7]⟩) := if_pos rfl
  have hrun : CCNxFileRepoClient.run (scriptedPortal (byteNetwork name)) clientBufferSize 1 name
      outFile fs (.start fun _ ↦ .arrives) noFailures = .ok _ :=
    run_contentObject hresponds (by simp [fs])
  have hpublishes : Publishes (byteNetwork name) name [7] := Or.inl ⟨_, hresponds, rfl⟩
  apply not_clientTruthful_of_run hoptions hname hrun hpublishes
  exact (update_overlay_apply_iff fs outFile [7]).mpr (Nat.zero_le _)

/-- The client's status tells the truth in every run on an argument vector if and only if the
options do not all start as `-h` with one of them going on, and the client does not get to run. -/
theorem clientTruthful_iff (createName : NameReader) (arguments : List CString) :
    ClientTruthful createName arguments ↔
      ¬ PassesForHelp arguments ∧ ¬ RunsClient createName arguments := by
  by_cases hoption : ∃ arg ∈ arguments, isOption arg = true
  · have hruns : ¬ RunsClient createName arguments :=
      fun hruns ↦ not_exists_option hruns.1 hoption
    rw [and_iff_left hruns]
    constructor
    · intro htruthful
      exact (tellsTruth_option_iff hoption).mp (htruthful (fun _ ↦ none) (fun _ ↦ false)
        (fun _ ↦ .arrives) (fun _ ↦ none) noFailures 0 _ (client_main_of_option hoption))
    · intro hpasses respond isError schedule fs outcomes fuel exit hexit
      rw [client_main_of_option hoption, Option.some.injEq] at hexit
      subst hexit
      exact (tellsTruth_option_iff hoption).mpr hpasses
  · have hnone : ∀ arg ∈ arguments, isOption arg = false := by simpa using hoption
    rw [and_iff_right (not_passesForHelp hnone)]
    refine ⟨fun htruthful hruns ↦ hruns.not_truthful htruthful, fun hruns ↦ ?_⟩
    intro respond isError schedule fs outcomes fuel exit hexit
    by_cases hcount : arguments.length = 2
    · obtain ⟨target, outFile, rfl⟩ := List.length_eq_two.mp hcount
      have hname : createName target = none := by
        by_contra hname
        obtain ⟨name, hname⟩ := Option.ne_none_iff_exists'.mp hname
        exact hruns ⟨hnone, target, outFile, name, rfl, hname⟩
      rw [client_main_of_no_name hnone hname] at hexit
      cases hexit
    · rw [client_main_of_wrongCount hnone hcount, Option.some.injEq] at hexit
      subst hexit
      exact (tellsTruth_wrongCount_iff hnone hcount).mpr rfl

/-! ## The server -/

variable {lib : CCNxLibrary} {capacity : ℕ} {around : CCNxFileRepoServer.Surroundings}

/-- `_runProducer` came to its end on the arguments and returned 0. -/
def ProducerReturned (lib : CCNxLibrary) (capacity : ℕ) (createName : NameReader)
    (arguments : List CString) (around : CCNxFileRepoServer.Surroundings) : Prop :=
  ∃ fileName repoBase contentName fs, arguments = [fileName, repoBase, contentName] ∧
    CCNxFileRepoServer.runProducer lib capacity createName fileName repoBase contentName around =
      some (0, fs)

/-- Whatever the server meets, it leaves with a status that tells the truth, if it leaves. -/
def ServerTruthful (lib : CCNxLibrary) (capacity : ℕ) (createName : NameReader)
    (arguments : List CString) : Prop :=
  ∀ (around : CCNxFileRepoServer.Surroundings) (exit : ProcessExit FileSystem),
    CCNxFileRepoServer.main lib capacity createName arguments around = some exit →
    TellsTruth 3 arguments (ProducerReturned lib capacity createName arguments around) exit.status

/-- Arguments without an option that are too few, too many, or fit for the server to run. -/
def MissesServerStatus (createName : NameReader) (arguments : List CString) : Prop :=
  (∀ arg ∈ arguments, isOption arg = false) ∧
    (arguments.length ≠ 3 ∨ ∃ fileName repoBase contentName name,
      arguments = [fileName, repoBase, contentName] ∧ createName contentName = some name)

theorem server_main_of_option (h : ∃ arg ∈ arguments, isOption arg = true) :
    CCNxFileRepoServer.main lib capacity createName arguments around =
      some ⟨(processCommandLineArguments arguments).status, true, around.fs⟩ := by
  have hany : arguments.any isOption = true := List.any_eq_true.mpr h
  simp [CCNxFileRepoServer.main, processCommandLineArguments_eq, hany]

/-- With a wrong number of arguments the server leaves through the end of `main`. -/
theorem server_main_of_wrongCount (h : ∀ arg ∈ arguments, isOption arg = false)
    (hcount : arguments.length ≠ 3) :
    CCNxFileRepoServer.main lib capacity createName arguments around =
      some ⟨exitSuccess, true, around.fs⟩ := by
  simp only [CCNxFileRepoServer.main, processCommandLineArguments_of_no_option h]
  match arguments, hcount with
  | [], _ => rfl
  | [_], _ => rfl
  | [_, _], _ => rfl
  | _ :: _ :: _ :: _ :: _, _ => rfl
  | [_, _, _], hcount => exact absurd rfl hcount

theorem server_main_of_return {fileName repoBase contentName : CString} {fs : FileSystem}
    (h : ∀ arg ∈ [fileName, repoBase, contentName], isOption arg = false)
    (hreturn : CCNxFileRepoServer.runProducer lib capacity createName fileName repoBase contentName
      around = some (0, fs)) :
    CCNxFileRepoServer.main lib capacity createName [fileName, repoBase, contentName] around =
      some ⟨exitFailure, false, fs⟩ := by
  simp only [CCNxFileRepoServer.main, processCommandLineArguments_of_no_option h]
  simp [hreturn]

theorem server_main_of_no_name {fileName repoBase contentName : CString}
    (h : ∀ arg ∈ [fileName, repoBase, contentName], isOption arg = false)
    (hname : createName contentName = none) :
    CCNxFileRepoServer.main lib capacity createName [fileName, repoBase, contentName] around =
      none := by
  simp only [CCNxFileRepoServer.main, processCommandLineArguments_of_no_option h]
  simp [CCNxFileRepoServer.runProducer, hname]

/-- A server that loads an empty file and then finds no request returns from `_runProducer`. -/
theorem exists_return (lib : CCNxLibrary) (capacity : ℕ) (fileName repoBase : CString)
    {contentName : CString} {name : CCNxName} (hname : createName contentName = some name) :
    ∃ around fs, CCNxFileRepoServer.runProducer lib capacity createName fileName repoBase
      contentName around = some (0, fs) := by
  let cache : CCNxFileRepoCache := { directory := repoBase, chunkSize := 4096 }
  let disk : FileSystem := Function.update cache.freshDisk fileName (some (.regular []))
  have hpaths : ∀ object, disk (cache.objectPath lib object) ≠ some .directory := by
    intro object
    by_cases hpath : cache.objectPath lib object = fileName
    · simp [disk, hpath]
    · have hfree : cache.freshDisk (cache.objectPath lib object) = none :=
        (CCNxFileRepoCache.emptyRepository_freshDisk cache).no_entries _
          (CCNxFileRepoCache.isEntryName_hex object)
      simp [disk, Function.update_of_ne hpath, hfree]
  obtain ⟨saved, hload⟩ := CCNxFileRepoCache.exists_load ⟨[], name, 4096, capacity⟩ hpaths
    noFailures
  have hfile : disk fileName = some (.regular []) := Function.update_self _ _ _
  refine ⟨⟨disk, noFailures, true, []⟩, saved, ?_⟩
  simp only [CCNxFileRepoServer.runProducer, hname, hfile]
  simp [cache, hload, Producer.requestLoop]

/-- The server lies when it leaves through the end of `main`, and when `_runProducer` returns. -/
theorem MissesServerStatus.not_truthful (h : MissesServerStatus createName arguments) :
    ¬ ServerTruthful lib capacity createName arguments := by
  obtain ⟨hoptions, hcount⟩ := h
  intro htruthful
  by_cases hthree : arguments.length = 3
  · obtain ⟨fileName, repoBase, contentName, name, rfl, hname⟩ :=
      hcount.resolve_left (not_not_intro hthree)
    obtain ⟨around, fs, hreturn⟩ := exists_return lib capacity fileName repoBase hname
    have htruth := htruthful around _ (server_main_of_return hoptions hreturn)
    have hsuccess : exitFailure = exitSuccess := (htruth.work hoptions rfl).mpr
      ⟨fileName, repoBase, contentName, fs, rfl, hreturn⟩
    cases hsuccess
  · have htruth := htruthful ⟨fun _ ↦ none, noFailures, true, []⟩ _
      (server_main_of_wrongCount hoptions hthree)
    have hfailure : exitSuccess = exitFailure := htruth.wrongCount hoptions hthree
    cases hfailure

/-- The server's status tells the truth in every run on an argument vector if and only if the
options do not all start as `-h` with one of them going on, and there is an option, or three
arguments of which the last is not a name. -/
theorem serverTruthful_iff (lib : CCNxLibrary) (capacity : ℕ) (createName : NameReader)
    (arguments : List CString) :
    ServerTruthful lib capacity createName arguments ↔
      ¬ PassesForHelp arguments ∧ ¬ MissesServerStatus createName arguments := by
  by_cases hoption : ∃ arg ∈ arguments, isOption arg = true
  · have hmisses : ¬ MissesServerStatus createName arguments :=
      fun hmisses ↦ not_exists_option hmisses.1 hoption
    rw [and_iff_left hmisses]
    constructor
    · intro htruthful
      exact (tellsTruth_option_iff hoption).mp (htruthful ⟨fun _ ↦ none, noFailures, true, []⟩ _
        (server_main_of_option hoption))
    · intro hpasses around exit hexit
      rw [server_main_of_option hoption, Option.some.injEq] at hexit
      subst hexit
      exact (tellsTruth_option_iff hoption).mpr hpasses
  · have hnone : ∀ arg ∈ arguments, isOption arg = false := by simpa using hoption
    rw [and_iff_right (not_passesForHelp hnone)]
    refine ⟨fun htruthful hmisses ↦ hmisses.not_truthful htruthful, fun hmisses ↦ ?_⟩
    have hcount : arguments.length = 3 := by
      by_contra hcount
      exact hmisses ⟨hnone, Or.inl hcount⟩
    obtain ⟨fileName, repoBase, contentName, rfl⟩ := List.length_eq_three.mp hcount
    have hname : createName contentName = none := by
      by_contra hname
      obtain ⟨name, hname⟩ := Option.ne_none_iff_exists'.mp hname
      exact hmisses ⟨hnone, Or.inr ⟨fileName, repoBase, contentName, name, rfl, hname⟩⟩
    intro around exit hexit
    rw [server_main_of_no_name hnone hname] at hexit
    cases hexit

/-! ## Both programs -/

/-- On which argument vectors the exit statuses of the two programs tell the truth. -/
theorem exitStatus_truthful_iff (lib : CCNxLibrary) (capacity : ℕ) (createName : NameReader)
    (arguments : List CString) :
    (ClientTruthful createName arguments ↔
      ¬ PassesForHelp arguments ∧ ¬ RunsClient createName arguments) ∧
    (ServerTruthful lib capacity createName arguments ↔
      ¬ PassesForHelp arguments ∧ ¬ MissesServerStatus createName arguments) :=
  ⟨clientTruthful_iff createName arguments,
    serverTruthful_iff lib capacity createName arguments⟩

/-- Reads `ccnx:/` and one segment. -/
def sampleNameReader : NameReader
  | 'c' :: 'c' :: 'n' :: 'x' :: ':' :: '/' :: segment =>
      some ⟨[segment.map fun letter ↦ UInt8.ofNat letter.toNat]⟩
  | _ => none

open ReferenceLibrary in
/-- A client that has downloaded all three bytes of a published file leaves with a failure, and a
server that was called without arguments leaves with a success. -/
theorem exitStatus_lies :
    let repo : CCNxFileRepoCache := ⟨['r'], 2⟩
    let request : LoadRequest := ⟨[1, 2, 3], ⟨[[102]]⟩, 2, 2⟩
    let target : CString := ['c', 'c', 'n', 'x', ':', '/', 'f']
    (∃ saved, repo.load referenceLibrary request repo.freshDisk noFailures =
        .ok (some (request.root referenceLibrary), saved) ∧
      ∃ fuel exit,
        CCNxFileRepoClient.main sampleNameReader (scriptedPortal ((request.producer
          referenceLibrary repo saved).respond referenceLibrary)) fuel [target, ['o']]
          (fun _ ↦ none) (.start fun _ ↦ .arrives) noFailures = some exit ∧
        exit.world ['o'] = some (.regular [1, 2, 3]) ∧ exit.status = exitFailure) ∧
    ¬ ClientTruthful sampleNameReader [target, ['o']] ∧
    ¬ ServerTruthful referenceLibrary 2 sampleNameReader [] := by
  intro repo request target
  obtain ⟨saved, hload, hserves⟩ := exists_complete_load request
    (CCNxFileRepoCache.emptyRepository_freshDisk repo) (collisionFreeOn _)
  have hchunk : 1 ≤ request.chunkSize := by decide
  have hcapacity : 2 ≤ request.capacity := le_rfl
  have hbuffer : request.chunkSize ≤ clientBufferSize := by decide
  have hname : sampleNameReader target = some request.name := by decide
  have hoptions : ∀ arg ∈ [target, ['o']], isOption arg = false := by decide
  let disk : FileSystem := fun _ ↦ none
  obtain ⟨rounds, hrounds⟩ :=
    run_published disk ['o'] hchunk hcapacity hserves hbuffer (by simp [disk])
  obtain ⟨result, hrun, -, hfs⟩ := hrounds (rounds + 1) (by omega)
  have hfile : result.fs ['o'] = some (.regular [1, 2, 3]) := by
    rw [hfs]
    exact (update_overlay_apply_iff disk ['o'] [1, 2, 3]).mpr (Nat.zero_le _)
  obtain ⟨pointers, hroot, t, -, ht⟩ := exists_publishedTree hchunk hcapacity hserves
  have hpublishes : Publishes ((request.producer referenceLibrary repo saved).respond
      referenceLibrary) request.name [1, 2, 3] :=
    Or.inr ⟨_, pointers, Producer.respond_root, CCNxManifest.allGroups_of_onlyGroup hroot,
      t.toAllGroups, (congrArg List.flatten (Unfolding.leaves_mono _ t)).trans ht⟩
  refine ⟨⟨saved, hload, rounds + 1, _, client_main_of_run hoptions hname hrun, hfile, rfl⟩,
    not_clientTruthful_of_run hoptions hname hrun hpublishes hfile, ?_⟩
  exact MissesServerStatus.not_truthful ⟨by simp, Or.inl (by decide)⟩

end CCNxFileRepo
