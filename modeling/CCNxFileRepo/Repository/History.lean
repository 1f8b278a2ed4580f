import CCNxFileRepo.CCNx.ReferenceLibrary
import CCNxFileRepo.Repository.ContentStore

/-!
# Histories of loads

A repository lives through any number of loads of any files, names and chunk sizes.  A complete
history is one long sequence of saves, and after each of them the directory holds exactly the
complete objects saved so far under the digests they are asked for by.

A load looks at no write, so it always returns its root.  Whether the objects below the root are
there depends on the writes alone: an object is complete when it was before the load or when one
of the writes made for it stores all its bytes.
-/

namespace CCNxFileRepo

open Foundations

/-- The arguments of one `ccnxFileRepoCache_LoadFile` and of the cache it is called on, with the
capacity of the library's hash groups. -/
structure LoadRequest where
  file : Bytes
  name : CCNxName
  chunkSize : ℕ
  capacity : ℕ
  deriving DecidableEq, Repr

namespace LoadRequest

variable (lib : CCNxLibrary) (request : LoadRequest)

/-- The cache on the repository directory with the chunk size of the request. -/
def cache (repo : CCNxFileRepoCache) : CCNxFileRepoCache :=
  { repo with chunkSize := request.chunkSize }

def chunker : ManifestBuilder.PARCChunker where
  chunkSize := request.chunkSize
  reverseIterator := lib.reverseChunks request.file request.chunkSize

/-- The objects of the build, in the order they are saved. -/
def messages : List CCNxMetaMessage :=
  ManifestBuilder.buildSkewedManifest lib request.capacity (request.chunker lib) request.name

def root : CCNxManifest :=
  ManifestBuilder.rootManifest lib request.capacity (request.chunker lib) request.name

end LoadRequest

def builds {κ : Type} (lib : CCNxLibrary) (request : κ → LoadRequest) : Set CCNxMetaMessage :=
  {object | ∃ server, object ∈ (request server).messages lib}

theorem mem_builds {κ : Type} {lib : CCNxLibrary} {request : κ → LoadRequest} {server : κ}
    {object : CCNxMetaMessage} (h : object ∈ (request server).messages lib) :
    object ∈ builds lib request := ⟨server, h⟩

namespace CCNxFileRepoCache

variable (lib : CCNxLibrary)

/-- One `ccnxFileRepoCache_LoadFile` for a request. -/
def load (repo : CCNxFileRepoCache) (request : LoadRequest) (fs : FileSystem)
    (outcomes : ℕ → WriteOutcome) : Except Stop (Option CCNxManifest × FileSystem) :=
  loadFile lib request.capacity (request.cache repo) request.name request.file fs outcomes

/-- Loads one after the other, each with its own write outcomes. -/
def runLoads (repo : CCNxFileRepoCache) :
    List (LoadRequest × (ℕ → WriteOutcome)) → FileSystem →
      Except Stop (List (Option CCNxManifest) × FileSystem)
  | [], fs => .ok ([], fs)
  | (request, outcomes) :: later, fs => do
      let (root, fs) ← load lib repo request fs outcomes
      let (roots, fs) ← runLoads repo later fs
      return (root :: roots, fs)

/-- Every object saved in a history, in the order of the saves. -/
def historyMessages (requests : List LoadRequest) : List CCNxMetaMessage :=
  requests.flatMap (·.messages lib)

variable {lib} {repo : CCNxFileRepoCache} {objects : Set CCNxMetaMessage} {fs : FileSystem}
  {progress : Progress}

theorem mem_historyMessages {requests : List LoadRequest} {request : LoadRequest}
    (hrequest : request ∈ requests) :
    ∀ message ∈ request.messages lib, message ∈ historyMessages lib requests :=
  fun _ hmessage ↦ List.mem_flatMap.mpr ⟨request, hrequest, hmessage⟩

/-- The chunk size of a cache plays no role in its saves. -/
theorem saveAll_cache (request : LoadRequest) (fs : FileSystem) (messages : List CCNxMetaMessage)
    (outcomes : ℕ → WriteOutcome) :
    saveAll lib (request.cache repo) fs messages outcomes =
      saveAll lib repo fs messages outcomes := by
  have hsave : ∀ (fs : FileSystem) (message : CCNxMetaMessage) (outcome : WriteOutcome),
      saveToRepo lib (request.cache repo) fs message outcome =
        saveToRepo lib repo fs message outcome := fun _ _ _ ↦ rfl
  induction messages generalizing fs outcomes with
  | nil => rfl
  | cons message messages ih => simp only [saveAll, hsave, ih]

/-- A load saves the objects of its build and returns the root whatever the writes did. -/
theorem load_eq (request : LoadRequest) (fs : FileSystem) (outcomes : ℕ → WriteOutcome) :
    load lib repo request fs outcomes =
      (saveAll lib repo fs (request.messages lib) outcomes).map
        fun saved ↦ (some (request.root lib), saved) := by
  have hlist : ManifestBuilder.buildSkewedManifest lib request.capacity
      ((request.cache repo).fileChunker lib request.file) request.name =
        request.messages lib := rfl
  have hroot : ManifestBuilder.lastManifest (request.messages lib) = some (request.root lib) :=
    ManifestBuilder.lastManifest_buildSkewedManifest _ _ _ _
  unfold load loadFile buildFile
  dsimp only
  rw [hlist, saveAll_cache, hroot]
  cases saveAll lib repo fs (request.messages lib) outcomes <;> rfl

/-- A load that comes back has made all its saves. -/
theorem saveAll_of_load {request : LoadRequest} {saved : FileSystem} {outcomes : ℕ → WriteOutcome}
    {root : Option CCNxManifest} (h : load lib repo request fs outcomes = .ok (root, saved)) :
    root = some (request.root lib) ∧
      saveAll lib repo fs (request.messages lib) outcomes = .ok saved := by
  rw [load_eq] at h
  cases hsaves : saveAll lib repo fs (request.messages lib) outcomes with
  | error stop => simp [hsaves, Except.map] at h
  | ok final =>
      simp only [hsaves, Except.map, Except.ok.injEq, Prod.mk.injEq] at h
      exact ⟨h.1.symm, congrArg Except.ok h.2⟩

theorem root_of_load {request : LoadRequest} {saved : FileSystem} {outcomes : ℕ → WriteOutcome}
    {root : CCNxManifest} (h : load lib repo request fs outcomes = .ok (some root, saved)) :
    root = request.root lib := Option.some.inj (saveAll_of_load h).1

theorem saveAll_append (fs : FileSystem) (first second : List CCNxMetaMessage)
    (outcomes : ℕ → WriteOutcome) :
    saveAll lib repo fs (first ++ second) outcomes =
      (saveAll lib repo fs first outcomes).bind fun saved ↦
        saveAll lib repo saved second fun index ↦ outcomes (index + first.length) := by
  induction first generalizing fs outcomes with
  | nil => rfl
  | cons message first ih =>
      rw [List.cons_append, saveAll, saveAll]
      cases hsave : saveToRepo lib repo fs message (outcomes 0) with
      | error stop => rfl
      | ok result =>
          change saveAll lib repo result.2 (first ++ second) _ =
            (saveAll lib repo result.2 first _).bind _
          rw [ih]
          rfl

/-- A complete history is the sequence of its saves. -/
theorem runLoads_noFailures (requests : List LoadRequest) (fs : FileSystem) :
    runLoads lib repo (requests.map (·, noFailures)) fs =
      (saveAll lib repo fs (historyMessages lib requests) noFailures).map
        fun saved ↦ (requests.map fun request ↦ some (request.root lib), saved) := by
  induction requests generalizing fs with
  | nil => rfl
  | cons request requests ih =>
      rw [historyMessages, List.flatMap_cons, saveAll_append, List.map_cons, runLoads, load_eq]
      cases saveAll lib repo fs (request.messages lib) noFailures with
      | error stop => rfl
      | ok saved =>
          have := ih saved
          unfold historyMessages at this
          simp only [Except.map, bind, Except.bind, this]
          change _ = Except.map _ (saveAll lib repo saved _ noFailures)
          cases saveAll lib repo saved (requests.flatMap (·.messages lib)) noFailures <;> rfl

section Induction

variable {motive : List CCNxMetaMessage → FileSystem → Prop}
  (hsave : ∀ saved fs message outcome, motive saved fs → ∃ next,
    saveToRepo lib repo fs message outcome = .ok (lib.computeContentObjectHash message, next) ∧
      motive (saved ++ [message]) next)

include hsave

/-- What every save preserves holds after the loop of saves. -/
theorem saveAll_induction {saved : List CCNxMetaMessage} (h : motive saved fs)
    (messages : List CCNxMetaMessage) (outcomes : ℕ → WriteOutcome) :
    ∃ final, saveAll lib repo fs messages outcomes = .ok final ∧
      motive (saved ++ messages) final := by
  induction messages generalizing saved fs outcomes with
  | nil => exact ⟨fs, rfl, by rwa [List.append_nil]⟩
  | cons message messages ih =>
      obtain ⟨next, hnext, hmotive⟩ := hsave saved fs message (outcomes 0) h
      obtain ⟨final, hfinal, hend⟩ := ih hmotive fun index ↦ outcomes (index + 1)
      refine ⟨final, ?_, by simpa using hend⟩
      rw [saveAll, hnext]
      exact hfinal

/-- What every save preserves holds after any history of loads. -/
theorem runLoads_induction {saved : List CCNxMetaMessage} (h : motive saved fs)
    (attempts : List (LoadRequest × (ℕ → WriteOutcome))) :
    ∃ roots final, runLoads lib repo attempts fs = .ok (roots, final) ∧
      motive (saved ++ historyMessages lib (attempts.map Prod.fst)) final := by
  induction attempts generalizing saved fs with
  | nil => exact ⟨[], fs, rfl, by simpa [historyMessages] using h⟩
  | cons attempt attempts ih =>
      obtain ⟨next, hnext, hmotive⟩ :=
        saveAll_induction hsave h (attempt.1.messages lib) attempt.2
      obtain ⟨roots, final, hruns, hend⟩ := ih hmotive
      refine ⟨some (attempt.1.root lib) :: roots, final, ?_,
        by simpa [historyMessages] using hend⟩
      rw [runLoads, load_eq, hnext]
      simp only [Except.map, bind, Except.bind, hruns]
      rfl

end Induction

/-- Where no directory is in the way of an object, a load comes to its end. -/
theorem exists_load (request : LoadRequest)
    (h : ∀ object, fs (repo.objectPath lib object) ≠ some .directory)
    (outcomes : ℕ → WriteOutcome) :
    ∃ saved, load lib repo request fs outcomes = .ok (some (request.root lib), saved) := by
  have hkept (fs : FileSystem) (message : CCNxMetaMessage) (outcome : WriteOutcome)
      (hfree : ∀ object, fs (repo.objectPath lib object) ≠ some .directory) :
      ∃ next, saveToRepo lib repo fs message outcome =
          .ok (lib.computeContentObjectHash message, next) ∧
        ∀ object, next (repo.objectPath lib object) ≠ some .directory := by
    refine ⟨_, saveToRepo_eq (hfree message) outcome, fun object ↦ ?_⟩
    by_cases hpath : repo.objectPath lib object = repo.objectPath lib message
    · rw [hpath]
      exact FileSystem.update_regular_ne_directory fs _ _
    · rw [Function.update_of_ne hpath]
      exact hfree object
  obtain ⟨saved, hsaved, -⟩ := @saveAll_induction lib repo fs
    (fun _ fs ↦ ∀ object, fs (repo.objectPath lib object) ≠ some .directory)
    (fun _ ↦ hkept) [] h (request.messages lib) outcomes
  exact ⟨saved, by rw [load_eq, hsaved]; rfl⟩

/-- One load raises the progress of the objects it saves. -/
theorem Represents.load (hfree : lib.CollisionFreeOn objects)
    (h : Represents lib repo objects fs progress) {request : LoadRequest}
    (hrequest : ∀ message ∈ request.messages lib, message ∈ objects)
    (outcomes : ℕ → WriteOutcome) :
    ∃ saved, CCNxFileRepoCache.load lib repo request fs outcomes =
        .ok (some (request.root lib), saved) ∧
      Represents lib repo objects saved
        (raiseAll progress (savedEntries lib (request.messages lib) outcomes)) := by
  obtain ⟨saved, hsaved, hrepresents⟩ := h.saveAll hfree hrequest outcomes
  exact ⟨saved, by rw [load_eq, hsaved]; rfl, hrepresents⟩

variable (lib) in
/-- The bytes that a history of loads brings to the disk. -/
def historyEntries (attempts : List (LoadRequest × (ℕ → WriteOutcome))) :
    List (CCNxMetaMessage × WithBot ℕ) :=
  attempts.flatMap fun attempt ↦ savedEntries lib (attempt.1.messages lib) attempt.2

variable (lib) in
/-- The progress after a history that began with an empty repository: of each object the most bytes
that one of its writes stored. -/
def historyProgress (attempts : List (LoadRequest × (ℕ → WriteOutcome))) : Progress :=
  raiseAll (fun _ ↦ ⊥) (historyEntries lib attempts)

theorem mem_historyEntries {attempts : List (LoadRequest × (ℕ → WriteOutcome))}
    {entry : CCNxMetaMessage × WithBot ℕ} :
    entry ∈ historyEntries lib attempts ↔
      ∃ attempt ∈ attempts, entry ∈ savedEntries lib (attempt.1.messages lib) attempt.2 :=
  List.mem_flatMap

/-- A history of loads raises the progress of what it saves. -/
theorem Represents.runLoads_entries (hfree : lib.CollisionFreeOn objects)
    (h : Represents lib repo objects fs progress)
    {attempts : List (LoadRequest × (ℕ → WriteOutcome))}
    (hattempts : ∀ attempt ∈ attempts, ∀ message ∈ attempt.1.messages lib, message ∈ objects) :
    ∃ final, CCNxFileRepoCache.runLoads lib repo attempts fs =
        .ok (attempts.map fun attempt ↦ some (attempt.1.root lib), final) ∧
      Represents lib repo objects final (raiseAll progress (historyEntries lib attempts)) := by
  induction attempts generalizing fs progress with
  | nil => exact ⟨fs, rfl, h⟩
  | cons attempt attempts ih =>
      obtain ⟨saved, hload, hnext⟩ :=
        h.load hfree (hattempts attempt (List.mem_cons_self ..)) attempt.2
      obtain ⟨final, hruns, hrepresents⟩ := ih hnext
        fun later hlater ↦ hattempts later (List.mem_cons_of_mem _ hlater)
      refine ⟨final, ?_, ?_⟩
      · rw [CCNxFileRepoCache.runLoads, hload]
        simp only [bind, Except.bind, hruns]
        rfl
      · rw [historyEntries, List.flatMap_cons, raiseAll_append]
        exact hrepresents

theorem EmptyRepository.runLoads (hempty : EmptyRepository repo fs)
    {attempts : List (LoadRequest × (ℕ → WriteOutcome))}
    (hfree : lib.CollisionFreeOn
      {object | object ∈ historyMessages lib (attempts.map Prod.fst)}) :
    ∃ final, CCNxFileRepoCache.runLoads lib repo attempts fs =
        .ok (attempts.map fun attempt ↦ some (attempt.1.root lib), final) ∧
      Represents lib repo {object | object ∈ historyMessages lib (attempts.map Prod.fst)} final
        (historyProgress lib attempts) :=
  (hempty.represents _).runLoads_entries hfree fun _ hattempt ↦
    mem_historyMessages (List.mem_map_of_mem hattempt)

/-- Any history of loads leaves a directory that represents some progress, none of it lost. -/
theorem Represents.runLoads (hfree : lib.CollisionFreeOn objects)
    (h : Represents lib repo objects fs progress)
    {attempts : List (LoadRequest × (ℕ → WriteOutcome))}
    (hattempts : ∀ attempt ∈ attempts, ∀ message ∈ attempt.1.messages lib, message ∈ objects) :
    ∃ roots final reached, CCNxFileRepoCache.runLoads lib repo attempts fs = .ok (roots, final) ∧
      Represents lib repo objects final reached ∧ progress ≤ reached := by
  obtain ⟨final, hruns, hrepresents⟩ := h.runLoads_entries hfree hattempts
  exact ⟨_, final, _, hruns, hrepresents, le_raiseAll _ _⟩

/-! ## Complete histories -/

variable (lib) in
/-- The progress after complete saves of `saved` into an empty repository. -/
def completeProgress (saved : List CCNxMetaMessage) : Progress :=
  raiseAll (fun _ ↦ ⊥) (saved.map fun object ↦ (object, WithBot.some (wireLength lib object)))

theorem savedEntries_noFailures (saved : List CCNxMetaMessage) :
    savedEntries lib saved noFailures =
      saved.map fun object ↦ (object, WithBot.some (wireLength lib object)) := by
  induction saved with
  | nil => rfl
  | cons object saved ih =>
      rw [List.map_cons, ← ih]
      rfl

/-- A history with a complete load of `request` has all bytes of its objects on the disk. -/
theorem wireLength_le_of_load {request : LoadRequest}
    {attempts : List (LoadRequest × (ℕ → WriteOutcome))}
    (hrequest : (request, noFailures) ∈ attempts) {message : CCNxMetaMessage}
    (hmessage : message ∈ request.messages lib) :
    WithBot.some (wireLength lib message) ≤
      raiseAll progress (historyEntries lib attempts) message := by
  rw [le_raiseAll_iff]
  refine Or.inr ⟨(message, WithBot.some (wireLength lib message)), ?_, rfl, le_rfl⟩
  refine mem_historyEntries.mpr ⟨_, hrequest, ?_⟩
  rw [savedEntries_noFailures]
  exact List.mem_map_of_mem hmessage

theorem wireLength_le_completeProgress_iff {saved : List CCNxMetaMessage}
    {object : CCNxMetaMessage} :
    WithBot.some (wireLength lib object) ≤ completeProgress lib saved object ↔
      object ∈ saved := by
  rw [completeProgress, le_raiseAll_iff]
  simp only [WithBot.not_coe_le_bot, false_or, List.mem_map, exists_exists_and_eq_and]
  exact ⟨fun ⟨_, hmem, heq, _⟩ ↦ heq ▸ hmem, fun h ↦ ⟨object, h, rfl, le_rfl⟩⟩

theorem completeProgress_eq_bot {saved : List CCNxMetaMessage} {object : CCNxMetaMessage}
    (h : object ∉ saved) : completeProgress lib saved object = ⊥ := by
  by_contra hne
  obtain ⟨count, hcount⟩ := WithBot.ne_bot_iff_exists.mp hne
  have hle : WithBot.some count ≤ completeProgress lib saved object := hcount.le
  rw [completeProgress, le_raiseAll_iff] at hle
  simp only [WithBot.not_coe_le_bot, false_or, List.mem_map, exists_exists_and_eq_and] at hle
  obtain ⟨other, hother, rfl, -⟩ := hle
  exact h hother

/-- Where all bytes are on the disk the file is the wire format. -/
theorem storedFile_of_wireLength_le {object : CCNxMetaMessage} {count : WithBot ℕ}
    (h : WithBot.some (wireLength lib object) ≤ count) :
    storedFile lib object count = some (.regular (lib.createWireFormatBuffer object)) := by
  cases count using WithBot.recBotCoe with
  | bot => exact absurd h (WithBot.not_coe_le_bot _)
  | coe count => rw [storedFile_coe, List.take_of_length_le (WithBot.coe_le_coe.mp h)]

/-- The directory after the first saves of a complete history. -/
theorem exists_saveAll_take (hempty : EmptyRepository repo fs) {messages : List CCNxMetaMessage}
    (hfree : lib.CollisionFreeOn {object | object ∈ messages}) (count : ℕ) :
    ∃ saved, saveAll lib repo fs (messages.take count) noFailures = .ok saved ∧
      Represents lib repo {object | object ∈ messages} saved
        (completeProgress lib (messages.take count)) := by
  obtain ⟨saved, hsaved, hrepresents⟩ := (hempty.represents _).saveAll hfree
    (fun message hmessage ↦ List.mem_of_mem_take hmessage) noFailures
  rw [savedEntries_noFailures] at hrepresents
  exact ⟨saved, hsaved, hrepresents⟩

variable (lib) in
/-- The directory holds exactly the wire formats of `saved`, each under its own digest. -/
structure ContentAddressed (repo : CCNxFileRepoCache) (fs : FileSystem)
    (saved : List CCNxMetaMessage) : Prop where
  entries : ∀ name, IsEntryName name → ∀ node, fs (repo.joinPath name) = some node →
    ∃ object ∈ saved, name = lib.toHexString (lib.computeContentObjectHash object) ∧
      node = .regular (lib.createWireFormatBuffer object)
  lookups : ∀ object ∈ saved,
    createWireEncodedMessageWithDigest lib repo fs (lib.computeContentObjectHash object) =
      .ok (some (lib.createWireFormatBuffer object))

theorem Represents.contentAddressed {saved : List CCNxMetaMessage}
    (h : Represents lib repo objects fs (completeProgress lib saved))
    (hsaved : ∀ object ∈ saved, object ∈ objects) : ContentAddressed lib repo fs saved where
  entries name hname node hnode := by
    obtain ⟨object, hobject, rfl⟩ := h.entries name hname (by simp [hnode])
    have hfile : storedFile lib object (completeProgress lib saved object) = some node :=
      (h.files object hobject).symm.trans hnode
    have hmem : object ∈ saved := by
      by_contra hmem
      simp [completeProgress_eq_bot hmem] at hfile
    rw [storedFile_of_wireLength_le (wireLength_le_completeProgress_iff.mpr hmem),
      Option.some.injEq] at hfile
    exact ⟨object, hmem, rfl, hfile.symm⟩
  lookups object hobject :=
    (h.lookup_eq_complete_iff (hsaved object hobject)).mpr
      (wireLength_le_completeProgress_iff.mpr hobject)

/-- What a lookup in a content-addressed directory can answer. -/
theorem Represents.wire_of_lookup {saved : List CCNxMetaMessage}
    (h : Represents lib repo objects fs (completeProgress lib saved)) {digest wire : Bytes}
    (hlookup : createWireEncodedMessageWithDigest lib repo fs digest = .ok (some wire)) :
    ∃ object ∈ saved, lib.computeContentObjectHash object = digest ∧
      lib.createWireFormatBuffer object = wire := by
  obtain ⟨object, hobject, count, rfl, hcount, -⟩ := h.exists_part_of_lookup hlookup
  have hmem : object ∈ saved := by
    by_contra hmem
    simp [completeProgress_eq_bot hmem] at hcount
  have hcomplete := (h.lookup_eq_complete_iff hobject).mpr
    (wireLength_le_completeProgress_iff.mpr hmem)
  rw [hcomplete] at hlookup
  exact ⟨object, hmem, rfl, by simpa using hlookup⟩

/-- Over a whole history of complete loads, and after every single save in it, the directory is
addressed by content, and what a digest resolves to never changes again. -/
theorem contentAddressed_history (lib : CCNxLibrary) (repo : CCNxFileRepoCache) (fs : FileSystem)
    (hempty : EmptyRepository repo fs) (requests : List LoadRequest)
    (hfree : lib.CollisionFreeOn {object | object ∈ historyMessages lib requests}) :
    (∃ final, saveAll lib repo fs (historyMessages lib requests) noFailures = .ok final ∧
      runLoads lib repo (requests.map (·, noFailures)) fs =
        .ok (requests.map fun request ↦ some (request.root lib), final)) ∧
    ∀ count, ∃ saved,
      saveAll lib repo fs ((historyMessages lib requests).take count) noFailures = .ok saved ∧
      ContentAddressed lib repo saved ((historyMessages lib requests).take count) ∧
      ∀ digest wire later,
        createWireEncodedMessageWithDigest lib repo saved digest = .ok (some wire) →
        count ≤ later →
        ∃ further, saveAll lib repo fs ((historyMessages lib requests).take later) noFailures =
            .ok further ∧
          createWireEncodedMessageWithDigest lib repo further digest = .ok (some wire) := by
  have hsubset (count : ℕ) : ∀ object ∈ (historyMessages lib requests).take count,
      object ∈ {object | object ∈ historyMessages lib requests} :=
    fun _ hobject ↦ List.mem_of_mem_take hobject
  constructor
  · obtain ⟨final, hfinal, -⟩ :=
      exists_saveAll_take hempty hfree (historyMessages lib requests).length
    rw [List.take_length] at hfinal
    exact ⟨final, hfinal, by rw [runLoads_noFailures, hfinal]; rfl⟩
  · intro count
    obtain ⟨saved, hsaved, hrepresents⟩ := exists_saveAll_take hempty hfree count
    refine ⟨saved, hsaved, hrepresents.contentAddressed (hsubset count), ?_⟩
    intro digest wire later hlookup hlater
    obtain ⟨object, hobject, rfl, rfl⟩ := hrepresents.wire_of_lookup hlookup
    obtain ⟨further, hfurther, hlaterRepresents⟩ := exists_saveAll_take hempty hfree later
    have hobjectLater := List.take_subset_take_left _ hlater hobject
    exact ⟨further, hfurther,
      (hlaterRepresents.contentAddressed (hsubset later)).lookups object hobjectLater⟩

open ReferenceLibrary in
/-- Two files that share a chunk, loaded in chunks of one and of two bytes. -/
theorem contentAddressed_history_shared :
    let repo : CCNxFileRepoCache := ⟨['r'], 1⟩
    let requests : List LoadRequest := [⟨[7, 8], ⟨[[1]]⟩, 1, 2⟩, ⟨[7], ⟨[[1]]⟩, 2, 2⟩]
    let messages := historyMessages referenceLibrary requests
    (∃ final, saveAll referenceLibrary repo repo.freshDisk messages noFailures = .ok final ∧
      runLoads referenceLibrary repo (requests.map (·, noFailures)) repo.freshDisk =
        .ok (requests.map fun request ↦ some (request.root referenceLibrary), final)) ∧
    ∀ count, ∃ saved,
      saveAll referenceLibrary repo repo.freshDisk (messages.take count) noFailures = .ok saved ∧
      ContentAddressed referenceLibrary repo saved (messages.take count) ∧
      ∀ digest wire later,
        createWireEncodedMessageWithDigest referenceLibrary repo saved digest = .ok (some wire) →
        count ≤ later →
        ∃ further, saveAll referenceLibrary repo repo.freshDisk (messages.take later) noFailures =
            .ok further ∧
          createWireEncodedMessageWithDigest referenceLibrary repo further digest =
            .ok (some wire) :=
  contentAddressed_history referenceLibrary ⟨['r'], 1⟩ _ (emptyRepository_freshDisk _) _
    (collisionFreeOn _)

/-! ## Loads with short writes -/

variable (lib) in
/-- A load told the truth: below a root it returned everything is stored completely, and when
some object of the build is not, it returned no root. -/
structure StoresWhatItReturns (repo : CCNxFileRepoCache) (messages : List CCNxMetaMessage)
    (result : Option CCNxManifest × FileSystem) : Prop where
  stored : ∀ root, result.1 = some root → ∀ digest, Reachable lib messages root digest →
    ∃ object ∈ messages, lib.computeContentObjectHash object = digest ∧
      createWireEncodedMessageWithDigest lib repo result.2 digest =
        .ok (some (lib.createWireFormatBuffer object))
  reported : ∀ object ∈ messages,
    createWireEncodedMessageWithDigest lib repo result.2 (lib.computeContentObjectHash object) ≠
      .ok (some (lib.createWireFormatBuffer object)) → result.1 = none

/-- A file is the whole wire format if and only if all its bytes are on the disk. -/
theorem storedFile_eq_complete_iff {object : CCNxMetaMessage} {count : WithBot ℕ} :
    storedFile lib object count = some (.regular (lib.createWireFormatBuffer object)) ↔
      WithBot.some (wireLength lib object) ≤ count := by
  refine ⟨fun h ↦ ?_, storedFile_of_wireLength_le⟩
  cases count using WithBot.recBotCoe with
  | bot => simp at h
  | coe count =>
      rw [storedFile_coe, Option.some.injEq, FileNode.regular.injEq, List.take_eq_self_iff] at h
      exact WithBot.coe_le_coe.mpr h

/-- A load that starts anywhere in a history tells the truth if and only if every object of its
build was complete before or is stored completely by one of its writes. -/
theorem Represents.storesWhatItReturns_iff (hfree : lib.CollisionFreeOn objects)
    (h : Represents lib repo objects fs progress) (request : LoadRequest)
    (hrequest : ∀ message ∈ request.messages lib, message ∈ objects)
    (outcomes : ℕ → WriteOutcome) :
    ∃ saved, CCNxFileRepoCache.load lib repo request fs outcomes =
        .ok (some (request.root lib), saved) ∧
      (StoresWhatItReturns lib repo (request.messages lib) (some (request.root lib), saved) ↔
        ∀ object ∈ request.messages lib,
          fs (repo.objectPath lib object) =
              some (.regular (lib.createWireFormatBuffer object)) ∨
            ∃ index, (request.messages lib)[index]? = some object ∧
              (outcomes index).stored (lib.createWireFormatBuffer object) =
                lib.createWireFormatBuffer object) := by
  obtain ⟨saved, hload, hrepresents⟩ := h.load hfree hrequest outcomes
  refine ⟨saved, hload, ?_⟩
  have hobjects : StoresWhatItReturns lib repo (request.messages lib)
      (some (request.root lib), saved) ↔ ∀ object ∈ request.messages lib,
        createWireEncodedMessageWithDigest lib repo saved (lib.computeContentObjectHash object) =
          .ok (some (lib.createWireFormatBuffer object)) := by
    constructor
    · intro htruth object hobject
      by_contra hmissing
      cases htruth.reported object hobject hmissing
    · intro hcomplete
      refine ⟨?_, fun object hobject hmissing ↦ absurd (hcomplete object hobject) hmissing⟩
      rintro root hroot digest hreachable
      obtain rfl : request.root lib = root := by simpa using hroot
      obtain ⟨object, hobject, rfl⟩ := ManifestBuilder.exists_object_of_reachable hreachable
      exact ⟨object, hobject, rfl, hcomplete object hobject⟩
  rw [hobjects]
  apply forall₂_congr
  intro object hobject
  rw [hrepresents.lookup_eq_complete_iff (hrequest object hobject), le_raiseAll_iff,
    h.files object (hrequest object hobject), storedFile_eq_complete_iff]
  apply or_congr_right
  constructor
  · rintro ⟨entry, hentry, rfl, hle⟩
    obtain ⟨index, hindex, hcount⟩ := mem_savedEntries.mp hentry
    rw [hcount, WithBot.coe_le_coe] at hle
    exact ⟨index, hindex, ((outcomes index).stored_eq_iff _).mpr hle⟩
  · rintro ⟨index, hindex, hstored⟩
    let count := ((outcomes index).stored (lib.createWireFormatBuffer object)).length
    have hentry : (object, WithBot.some count) ∈
        savedEntries lib (request.messages lib) outcomes :=
      mem_savedEntries.mpr ⟨index, hindex, rfl⟩
    exact ⟨_, hentry, rfl, WithBot.coe_le_coe.mpr (((outcomes index).stored_eq_iff _).mp hstored)⟩

/-- After any history of loads, with writes of any outcome, a load returns its root, and it told
the truth if and only if every object of its build was complete before or is stored completely
by one of the writes made for it. -/
theorem load_storesWhatItReturns_iff (lib : CCNxLibrary) (repo : CCNxFileRepoCache)
    (fs : FileSystem) (hempty : EmptyRepository repo fs)
    (earlier : List (LoadRequest × (ℕ → WriteOutcome))) (request : LoadRequest)
    (outcomes : ℕ → WriteOutcome)
    (hfree : lib.CollisionFreeOn
      {object | object ∈ historyMessages lib (request :: earlier.map Prod.fst)}) :
    ∃ roots start result, runLoads lib repo earlier fs = .ok (roots, start) ∧
      load lib repo request start outcomes = .ok result ∧
      (StoresWhatItReturns lib repo (request.messages lib) result ↔
        ∀ object ∈ request.messages lib,
          start (repo.objectPath lib object) =
              some (.regular (lib.createWireFormatBuffer object)) ∨
            ∃ index, (request.messages lib)[index]? = some object ∧
              (outcomes index).stored (lib.createWireFormatBuffer object) =
                lib.createWireFormatBuffer object) := by
  obtain ⟨roots, start, reached, hruns, hrepresents, -⟩ :=
    (hempty.represents _).runLoads hfree fun attempt hattempt ↦
      mem_historyMessages (List.mem_cons_of_mem _ (List.mem_map_of_mem hattempt))
  obtain ⟨saved, hload, hiff⟩ := hrepresents.storesWhatItReturns_iff hfree request
    (mem_historyMessages (List.mem_cons_self ..)) outcomes
  exact ⟨roots, start, _, hruns, hload, hiff⟩

open ReferenceLibrary in
/-- A load whose writes store three bytes each, after a complete load of the same file. -/
theorem load_storesWhatItReturns_iff_again :
    let repo : CCNxFileRepoCache := ⟨['r'], 1⟩
    let request : LoadRequest := ⟨[7, 8], ⟨[[1]]⟩, 1, 2⟩
    ∃ roots start result,
      runLoads referenceLibrary repo [(request, noFailures)] repo.freshDisk =
        .ok (roots, start) ∧
      load referenceLibrary repo request start (fun _ ↦ .short 3) = .ok result ∧
      (StoresWhatItReturns referenceLibrary repo (request.messages referenceLibrary) result ↔
        ∀ object ∈ request.messages referenceLibrary,
          start (repo.objectPath referenceLibrary object) =
              some (.regular (referenceLibrary.createWireFormatBuffer object)) ∨
            ∃ index : ℕ, (request.messages referenceLibrary)[index]? = some object ∧
              (WriteOutcome.short 3).stored (referenceLibrary.createWireFormatBuffer object) =
                referenceLibrary.createWireFormatBuffer object) :=
  load_storesWhatItReturns_iff referenceLibrary ⟨['r'], 1⟩ _ (emptyRepository_freshDisk _) _ _ _
    (collisionFreeOn _)

open ReferenceLibrary in
/-- On a full disk, where no write stores a byte, a load returns its root all the same. -/
theorem load_fullDisk_returns_root :
    let repo : CCNxFileRepoCache := ⟨['r'], 1⟩
    let request : LoadRequest := ⟨[7], ⟨[[1]]⟩, 1, 2⟩
    ∃ saved, load referenceLibrary repo request repo.freshDisk (fun _ ↦ .short 0) =
        .ok (some (request.root referenceLibrary), saved) ∧
      ¬ StoresWhatItReturns referenceLibrary repo (request.messages referenceLibrary)
        (some (request.root referenceLibrary), saved) := by
  intro repo request
  obtain ⟨saved, hload, hiff⟩ := ((emptyRepository_freshDisk repo).represents
    Set.univ).storesWhatItReturns_iff (collisionFreeOn _) request
    (fun _ _ ↦ Set.mem_univ _) (fun _ ↦ .short 0)
  refine ⟨saved, hload, ?_⟩
  rw [hiff]
  intro hcomplete
  rcases hcomplete _ ManifestBuilder.rootManifest_mem with hold | ⟨index, -, hstored⟩
  · rw [objectPath, (emptyRepository_freshDisk repo).no_entries _ (isEntryName_hex _)] at hold
    cases hold
  · exact referenceLibrary.contentObjectHash_ne_nil _ hstored.symm

end CCNxFileRepoCache

end CCNxFileRepo
