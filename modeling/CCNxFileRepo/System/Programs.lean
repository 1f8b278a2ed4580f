import CCNxFileRepo.Client.Download
import CCNxFileRepo.Server.RequestLoop

/-!
# The two programs

Both programs scan their arguments in the same way and leave when there is an option among them.
Otherwise the client runs on two arguments and the server on three.  A name that the library cannot
read is `NULL`, and neither program gets past it.  `none` stands for a process that does not leave
by itself, as it was stopped or is still running.
-/

namespace CCNxFileRepo

open Foundations

def exitSuccess : ℕ := 0

def exitFailure : ℕ := 1

/-- `ccnxName_CreateFromCString`; `none` is `NULL`. -/
abbrev NameReader := CString → Option CCNxName

/-- How a process left: with which status, whether it displayed its usage, and in which state. -/
structure ProcessExit (α : Type) where
  status : ℕ
  usage : Bool
  world : α

namespace CCNxFileRepoCommon

/-- What `ccnxFileRepoCommon_ProcessCommandLineArguments` returns and stores. -/
structure CommandLine where
  status : ℕ
  commandArgs : List CString
  needToShowUsage : Bool
  shouldExit : Bool
  deriving DecidableEq, Repr

/-- One round of the loop over the arguments, which looks at their first two characters. -/
def processArgument (line : CommandLine) (arg : CString) : CommandLine :=
  match arg with
  | '-' :: 'h' :: _ => { line with needToShowUsage := true, shouldExit := true }
  | '-' :: _ =>
      { line with needToShowUsage := true, shouldExit := true, status := exitFailure }
  | _ => { line with commandArgs := line.commandArgs ++ [arg] }

/-- `ccnxFileRepoCommon_ProcessCommandLineArguments` on the arguments after the program name. -/
def processCommandLineArguments (arguments : List CString) : CommandLine :=
  arguments.foldl processArgument {
    status := exitSuccess
    commandArgs := []
    needToShowUsage := false
    shouldExit := false }

def clientBufferSize : ℕ := 16384

end CCNxFileRepoCommon

open CCNxFileRepoCommon

/-! ## The client -/

namespace CCNxFileRepoClient

/-- The value `_ccnxFileRepoClient_Run` returns, the same at all its ends. -/
def RunResult.returnValue {σ : Type} (_ : RunResult σ) : ℕ := 0

/-- `main` of the client, with a bound on the rounds of its loops. -/
def main {σ : Type} (createName : NameReader) (portal : CCNxPortal σ) (fuel : ℕ)
    (arguments : List CString) (fs : FileSystem) (network : σ) (outcomes : ℕ → WriteOutcome) :
    Option (ProcessExit FileSystem) :=
  let line := processCommandLineArguments arguments
  if line.shouldExit then some ⟨line.status, line.needToShowUsage, fs⟩
  else
    match line.commandArgs with
    | [target, outFile] => do
        let name ← createName target
        match run portal clientBufferSize fuel name outFile fs network outcomes with
        | .ok result =>
            let status := if result.returnValue ≠ 0 then exitSuccess else exitFailure
            return ⟨status, line.needToShowUsage, result.fs⟩
        | .error _ => none
    | _ => some ⟨exitFailure, true, fs⟩

end CCNxFileRepoClient

/-! ## The server -/

namespace CCNxFileRepoServer

/-- What the server meets: the disk, how its writes end, whether the portal listens, and the
messages that come in before the portal has no more. -/
structure Surroundings where
  fs : FileSystem
  outcomes : ℕ → WriteOutcome
  listens : Bool
  requests : List CCNxMetaMessage

/-- `_runProducer`, with hash groups of `capacity` pointers. -/
def runProducer (lib : CCNxLibrary) (capacity : ℕ) (createName : NameReader)
    (fileName repoBase contentName : CString) (around : Surroundings) :
    Option (ℕ × FileSystem) := do
  let cache : CCNxFileRepoCache := { directory := repoBase, chunkSize := 4096 }
  let name ← createName contentName
  match around.fs fileName with
  | some (.regular file) =>
      match cache.load lib ⟨file, name, 4096, capacity⟩ around.fs around.outcomes with
      | .ok (some manifest, fs) =>
          let producer : Producer := {
            cache := cache
            name := name
            manifest := manifest
            fs := fs }
          if around.listens then
            match (producer.requestLoop lib around.requests).stop with
            | none => return (0, fs)
            | some _ => none
          else return (0, fs)
      | _ => none
  | _ => none

/-- `main` of the server. -/
def main (lib : CCNxLibrary) (capacity : ℕ) (createName : NameReader) (arguments : List CString)
    (around : Surroundings) : Option (ProcessExit FileSystem) :=
  let line := processCommandLineArguments arguments
  if line.shouldExit then some ⟨line.status, line.needToShowUsage, around.fs⟩
  else
    match line.commandArgs with
    | [fileName, repoBase, contentName] => do
        let (returned, fs) ←
          runProducer lib capacity createName fileName repoBase contentName around
        let status := if returned ≠ 0 then exitSuccess else exitFailure
        return ⟨status, line.needToShowUsage, fs⟩
    -- the status is set to `EXIT_FAILURE` here, but `main` ends without returning it
    | _ => some ⟨0, true, around.fs⟩

end CCNxFileRepoServer

/-! ## The scan of the arguments -/

namespace CCNxFileRepoCommon

def isOption : CString → Bool
  | '-' :: _ => true
  | _ => false

/-- Arguments that start with `-h`. -/
def startsAsHelp : CString → Bool
  | '-' :: 'h' :: _ => true
  | _ => false

theorem processArgument_eq (line : CommandLine) (arg : CString) :
    processArgument line arg = {
      status := if isOption arg && !startsAsHelp arg then exitFailure else line.status
      commandArgs := line.commandArgs ++ if isOption arg then [] else [arg]
      needToShowUsage := line.needToShowUsage || isOption arg
      shouldExit := line.shouldExit || isOption arg } := by
  unfold processArgument
  split
  · simp [isOption, startsAsHelp]
  · simp_all [isOption, startsAsHelp]
  · simp_all [isOption]

/-- The scan fails on an option that does not start as `-h`, wants to leave when there is any
option, and keeps the other arguments in their order. -/
theorem processCommandLineArguments_eq (arguments : List CString) :
    processCommandLineArguments arguments = {
      status := if arguments.any (fun arg ↦ isOption arg && !startsAsHelp arg) then exitFailure
        else exitSuccess
      commandArgs := arguments.filter fun arg ↦ !isOption arg
      needToShowUsage := arguments.any isOption
      shouldExit := arguments.any isOption } := by
  induction arguments using List.reverseRecOn with
  | nil => rfl
  | append_singleton arguments arg ih =>
      unfold processCommandLineArguments at ih ⊢
      rw [List.foldl_append, ih, List.foldl_cons, List.foldl_nil, processArgument_eq]
      simp only [List.any_append, List.any_cons, List.any_nil, Bool.or_false, List.filter_append,
        CommandLine.mk.injEq, and_true]
      constructor
      · cases isOption arg && !startsAsHelp arg <;> simp
      · cases hoption : isOption arg <;> simp [hoption]

/-- The scan succeeds if and only if every option starts as `-h`. -/
theorem status_of_scan (arguments : List CString) :
    (processCommandLineArguments arguments).status =
      if ∀ arg ∈ arguments, isOption arg = true → startsAsHelp arg = true then exitSuccess
      else exitFailure := by
  rw [processCommandLineArguments_eq]
  by_cases h : ∀ arg ∈ arguments, isOption arg = true → startsAsHelp arg = true
  · rw [if_pos h, if_neg]
    simpa using h
  · rw [if_neg h, if_pos]
    simpa using h

/-- Without options the arguments are kept as they are. -/
theorem processCommandLineArguments_of_no_option {arguments : List CString}
    (h : ∀ arg ∈ arguments, isOption arg = false) :
    processCommandLineArguments arguments = ⟨exitSuccess, arguments, false, false⟩ := by
  have hany : arguments.any isOption = false := by simpa using h
  have hunknown : arguments.any (fun arg ↦ isOption arg && !startsAsHelp arg) = false := by
    simp only [List.any_eq_false]
    intro arg harg
    simp [h arg harg]
  have hkept : (arguments.filter fun arg ↦ !isOption arg) = arguments :=
    List.filter_eq_self.mpr fun arg harg ↦ by simp [h arg harg]
  rw [processCommandLineArguments_eq, hany, hunknown, hkept]
  rfl

end CCNxFileRepoCommon

end CCNxFileRepo
