import CCNxFileRepo.Repository.History

/-!
# What a lookup touches

The path of a lookup is put together from bytes that a remote party chose.  As the hex form of a
digest is injective and has no separators in it, the path is that of an entry of the directory,
and entries are made by saves only.  The one exception is the digest without bytes: its hex form is
empty, so its path is the directory itself, which exists.
-/

namespace CCNxFileRepo.CCNxFileRepoCache

variable (lib : CCNxLibrary)

/-- A lookup with the paths that it opened and read on its way. -/
structure LookupTrace where
  opened : List CString
  read : List CString
  result : Except Stop (Option Bytes)

/-- `ccnxFileRepoCache_CreateWireEncodedMessageWithDigest`, observed at the file system. -/
def traceLookup (repo : CCNxFileRepoCache) (fs : FileSystem) (digest : Bytes) : LookupTrace :=
  let fullName := repo.joinPath (lib.toHexString digest)
  if fs.fileExists fullName then
    let fileSize := fs.getFileSize fullName
    match fs.openRandomAccess fullName with
    | none => { opened := [fullName], read := [], result := .error .nullFileHandle }
    | some fhandle =>
        { opened := [fullName]
          read := [fhandle.path]
          result := .ok (some (fs.read fhandle fileSize)) }
  else { opened := [], read := [], result := .ok none }

variable {lib} {repo : CCNxFileRepoCache} {fs : FileSystem} {digest : Bytes}

theorem traceLookup_result (repo : CCNxFileRepoCache) (fs : FileSystem) (digest : Bytes) :
    (traceLookup lib repo fs digest).result =
      createWireEncodedMessageWithDigest lib repo fs digest := by
  unfold traceLookup createWireEncodedMessageWithDigest
  dsimp only
  split
  · cases fs.openRandomAccess (repo.joinPath (lib.toHexString digest)) <;> rfl
  · rfl

/-- Where there is nothing at the path of a digest, nothing is opened. -/
theorem traceLookup_absent (h : fs (repo.joinPath (lib.toHexString digest)) = none) :
    traceLookup lib repo fs digest = { opened := [], read := [], result := .ok none } := by
  simp [traceLookup, FileSystem.fileExists, h]

/-- A file at the path of a digest is opened and read, and nothing else is. -/
theorem traceLookup_regular {contents : Bytes}
    (h : fs (repo.joinPath (lib.toHexString digest)) = some (.regular contents)) :
    (traceLookup lib repo fs digest).opened = [repo.joinPath (lib.toHexString digest)] ∧
      (traceLookup lib repo fs digest).read = [repo.joinPath (lib.toHexString digest)] := by
  have hopen := FileSystem.openRandomAccess_regular h
  simp [traceLookup, FileSystem.fileExists, h, hopen]

theorem traceLookup_directory (h : fs (repo.joinPath (lib.toHexString digest)) = some .directory) :
    (traceLookup lib repo fs digest).opened = [repo.joinPath (lib.toHexString digest)] := by
  simp [traceLookup, FileSystem.fileExists, FileSystem.openRandomAccess, h]

/-! ## The entries of a repository directory -/

variable (lib) in
/-- The entries of the directory are the files that the saves of `saved` made. -/
structure HoldsSaved (repo : CCNxFileRepoCache) (saved : List CCNxMetaMessage)
    (fs : FileSystem) : Prop where
  directory : fs (repo.joinPath []) = some .directory
  files : ∀ object ∈ saved, ∃ contents, fs (repo.objectPath lib object) = some (.regular contents)
  entries : ∀ name, IsEntryName name → fs (repo.joinPath name) ≠ none →
    ∃ object ∈ saved, name = lib.toHexString (lib.computeContentObjectHash object)

variable {saved : List CCNxMetaMessage}

theorem EmptyRepository.holdsSaved (h : EmptyRepository repo fs) : HoldsSaved lib repo [] fs where
  directory := h.directory
  files object hobject := by cases hobject
  entries name hname hentry := absurd (h.no_entries name hname) hentry

theorem HoldsSaved.ne_directory (h : HoldsSaved lib repo saved fs) (object : CCNxMetaMessage) :
    fs (repo.objectPath lib object) ≠ some .directory := by
  by_cases hnone : fs (repo.objectPath lib object) = none
  · exact FileSystem.ne_directory_of_none hnone
  · obtain ⟨other, hother, hname⟩ := h.entries _ (isEntryName_hex object) hnone
    obtain ⟨contents, hcontents⟩ := h.files other hother
    rw [objectPath, hname, ← objectPath, hcontents]
    simp

/-- A save adds its object to the entries, whatever its write stores. -/
theorem HoldsSaved.saveToRepo (h : HoldsSaved lib repo saved fs) (message : CCNxMetaMessage)
    (outcome : WriteOutcome) :
    ∃ next, CCNxFileRepoCache.saveToRepo lib repo fs message outcome =
        .ok (lib.computeContentObjectHash message, next) ∧
      HoldsSaved lib repo (saved ++ [message]) next := by
  refine ⟨_, saveToRepo_eq (h.ne_directory message) outcome, ?_, ?_, ?_⟩
  · have hpath : repo.joinPath [] ≠ repo.objectPath lib message :=
      fun hpath ↦ (isEntryName_hex message).1 (joinPath_injective repo hpath).symm
    rw [Function.update_of_ne hpath]
    exact h.directory
  · intro object hobject
    by_cases hpath : repo.objectPath lib object = repo.objectPath lib message
    · rw [hpath, Function.update_self]
      exact ⟨_, rfl⟩
    · rw [Function.update_of_ne hpath]
      rcases List.mem_append.mp hobject with hobject | hobject
      · exact h.files object hobject
      · exact absurd (congrArg (repo.objectPath lib) (List.mem_singleton.mp hobject)) hpath
  · intro name hname hentry
    by_cases hpath : repo.joinPath name = repo.objectPath lib message
    · exact ⟨message, by simp, joinPath_injective repo hpath⟩
    · rw [Function.update_of_ne hpath] at hentry
      obtain ⟨object, hobject, hhex⟩ := h.entries name hname hentry
      exact ⟨object, List.mem_append_left _ hobject, hhex⟩

/-- After any history of loads, with writes of any outcome, the directory holds what was saved. -/
theorem HoldsSaved.runLoads (h : HoldsSaved lib repo [] fs)
    (attempts : List (LoadRequest × (ℕ → WriteOutcome))) :
    ∃ roots final, CCNxFileRepoCache.runLoads lib repo attempts fs = .ok (roots, final) ∧
      HoldsSaved lib repo (historyMessages lib (attempts.map Prod.fst)) final :=
  runLoads_induction (motive := HoldsSaved lib repo)
    (fun _ _ message outcome h ↦ h.saveToRepo message outcome) h attempts

/-! ## Confinement -/

variable (lib) in
/-- The lookup opens and reads only the file that a save made for this very digest, an entry of the
directory, and opens nothing when there was no such save. -/
structure Confined (repo : CCNxFileRepoCache) (saved : List CCNxMetaMessage) (fs : FileSystem)
    (digest : Bytes) : Prop where
  ownFile : ∀ path, path ∈ (traceLookup lib repo fs digest).opened ∨
      path ∈ (traceLookup lib repo fs digest).read →
    (∃ object ∈ saved, lib.computeContentObjectHash object = digest ∧
      path = repo.objectPath lib object) ∧
    (∃ contents, fs path = some (.regular contents)) ∧
    ∃ name, IsEntryName name ∧ path = repo.joinPath name
  absent : (∀ object ∈ saved, lib.computeContentObjectHash object ≠ digest) →
    (traceLookup lib repo fs digest).opened = [] ∧
      createWireEncodedMessageWithDigest lib repo fs digest = .ok none

theorem HoldsSaved.confined (h : HoldsSaved lib repo saved fs) (hdigest : digest ≠ []) :
    Confined lib repo saved fs digest := by
  have hname := lib.isEntryName_toHexString hdigest
  by_cases hsaved : ∃ object ∈ saved, lib.computeContentObjectHash object = digest
  · obtain ⟨object, hobject, rfl⟩ := hsaved
    obtain ⟨contents, hcontents⟩ := h.files object hobject
    obtain ⟨hopened, hread⟩ := traceLookup_regular hcontents
    refine ⟨?_, fun habsent ↦ absurd rfl (habsent object hobject)⟩
    intro path hpath
    rw [hopened, hread, or_self, List.mem_singleton] at hpath
    subst hpath
    exact ⟨⟨object, hobject, rfl, rfl⟩, ⟨contents, hcontents⟩, _, hname, rfl⟩
  · have hnone : fs (repo.joinPath (lib.toHexString digest)) = none := by
      by_contra hentry
      obtain ⟨object, hobject, hhex⟩ := h.entries _ hname hentry
      exact hsaved ⟨object, hobject, (lib.toHexString_injective hhex).symm⟩
    have htrace := traceLookup_absent hnone
    refine ⟨by simp [htrace], fun _ ↦ ⟨by rw [htrace], ?_⟩⟩
    rw [← traceLookup_result, htrace]

/-- The digest without bytes makes the lookup open the directory. -/
theorem HoldsSaved.not_confined_nil (h : HoldsSaved lib repo saved fs) :
    ¬ Confined lib repo saved fs [] := by
  intro hconfined
  obtain ⟨hopened, -⟩ := hconfined.absent fun object _ ↦ lib.contentObjectHash_ne_nil object
  rw [traceLookup_directory h.directory] at hopened
  cases hopened

/-- After any history of loads, a lookup is confined to the stored object that it is for if and
only if the digest has a byte. -/
theorem lookup_confined_iff (lib : CCNxLibrary) (repo : CCNxFileRepoCache) (fs : FileSystem)
    (hempty : EmptyRepository repo fs) (attempts : List (LoadRequest × (ℕ → WriteOutcome))) :
    ∃ roots final, runLoads lib repo attempts fs = .ok (roots, final) ∧
      ∀ digest, Confined lib repo (historyMessages lib (attempts.map Prod.fst)) final digest ↔
        digest ≠ [] := by
  obtain ⟨roots, final, hruns, hholds⟩ := (EmptyRepository.holdsSaved hempty).runLoads attempts
  refine ⟨roots, final, hruns, fun digest ↦ ⟨?_, hholds.confined⟩⟩
  rintro hconfined rfl
  exact hholds.not_confined_nil hconfined

open ReferenceLibrary in
/-- After a load of two bytes of which one write stores nothing. -/
theorem lookup_confined_iff_short :
    let repo : CCNxFileRepoCache := ⟨['r'], 1⟩
    let attempts : List (LoadRequest × (ℕ → WriteOutcome)) :=
      [(⟨[7, 8], ⟨[[1]]⟩, 1, 2⟩, fun index ↦ if index = 1 then .short 0 else .complete)]
    ∃ roots final, runLoads referenceLibrary repo attempts repo.freshDisk = .ok (roots, final) ∧
      ∀ digest, Confined referenceLibrary repo
        (historyMessages referenceLibrary (attempts.map Prod.fst)) final digest ↔ digest ≠ [] :=
  lookup_confined_iff referenceLibrary ⟨['r'], 1⟩ _ (emptyRepository_freshDisk _) _

open ReferenceLibrary in
/-- Asked for the digest without bytes, a server that has loaded a file opens its directory. -/
theorem lookup_opens_directory :
    let repo : CCNxFileRepoCache := ⟨['r'], 4096⟩
    let request : LoadRequest := ⟨[7], ⟨[[1]]⟩, 4096, 2⟩
    ∃ roots final, runLoads referenceLibrary repo [(request, noFailures)] repo.freshDisk =
        .ok (roots, final) ∧
      final (repo.joinPath []) = some .directory ∧
      (traceLookup referenceLibrary repo final []).opened = [repo.joinPath []] ∧
      ¬ Confined referenceLibrary repo (historyMessages referenceLibrary [request]) final [] := by
  intro repo request
  obtain ⟨roots, final, hruns, hholds⟩ :=
    (EmptyRepository.holdsSaved (emptyRepository_freshDisk repo)).runLoads
      [(request, noFailures)]
  exact ⟨roots, final, hruns, hholds.directory, traceLookup_directory hholds.directory,
    hholds.not_confined_nil⟩

end CCNxFileRepo.CCNxFileRepoCache
