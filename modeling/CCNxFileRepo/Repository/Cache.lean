import CCNxFileRepo.Repository.ManifestBuilder

/-!
# The file repository cache

Every object of a build is saved in the repository directory under the hex form of its content
object hash.  A save creates the file unless it is there, opens it without truncating and writes
the wire format from the start; the count the write reports is not looked at.  A lookup reads
the whole file named by a digest.
-/

namespace CCNxFileRepo

/-- `struct ccnx_file_repo_cache`, less its log. -/
structure CCNxFileRepoCache where
  directory : CString
  chunkSize : ℕ
  deriving DecidableEq, Repr

namespace CCNxFileRepoCache

variable (lib : CCNxLibrary)

/-- `_ccnxFileRepoCache_JoinPath`. -/
def joinPath (repo : CCNxFileRepoCache) (suffix : CString) : CString :=
  repo.directory ++ ['/'] ++ suffix

/-- `_ccnxFileRepoCache_SaveToRepo`. -/
def saveToRepo (repo : CCNxFileRepoCache) (fs : FileSystem) (message : CCNxMetaMessage)
    (outcome : WriteOutcome) : Except Stop (Bytes × FileSystem) :=
  let digest := lib.computeContentObjectHash (lib.reparse message)
  let fullName := repo.joinPath (lib.toHexString digest)
  let wireBuffer := lib.createWireFormatBuffer message
  let fs := if fs.fileExists fullName then fs else fs.createNewFile fullName
  match fs.openRandomAccess fullName with
  | none => .error .nullFileHandle
  | some raf => .ok (digest, fs.write raf outcome wireBuffer)

/-- `ccnxFileRepoCache_CreateWireEncodedMessageWithDigest`; `none` is `NULL`. -/
def createWireEncodedMessageWithDigest (repo : CCNxFileRepoCache) (fs : FileSystem)
    (digest : Bytes) : Except Stop (Option Bytes) :=
  let fullName := repo.joinPath (lib.toHexString digest)
  if fs.fileExists fullName then
    let fileSize := fs.getFileSize fullName
    match fs.openRandomAccess fullName with
    | none => .error .nullFileHandle
    | some fhandle => .ok (some (fs.read fhandle fileSize))
  else .ok none

/-- The loop of `_ccnxFileRepoCache_BuildFile` over the objects of a build.  `outcomes` says how
much each write stores; the digest a save returns is dropped. -/
def saveAll (repo : CCNxFileRepoCache) :
    FileSystem → List CCNxMetaMessage → (ℕ → WriteOutcome) → Except Stop FileSystem
  | fs, [], _ => .ok fs
  | fs, message :: messages, outcomes => do
      let (_, fs) ← saveToRepo lib repo fs message (outcomes 0)
      saveAll repo fs messages fun index ↦ outcomes (index + 1)

/-- The chunker that `_ccnxFileRepoCache_BuildFile` creates for a file. -/
def fileChunker (repo : CCNxFileRepoCache) (file : Bytes) : ManifestBuilder.PARCChunker where
  chunkSize := repo.chunkSize
  reverseIterator := lib.reverseChunks file repo.chunkSize

/-- `_ccnxFileRepoCache_BuildFile`, with hash groups of `capacity` pointers. -/
def buildFile (capacity : ℕ) (cache : CCNxFileRepoCache) (name : CCNxName) (file : Bytes)
    (fs : FileSystem) (outcomes : ℕ → WriteOutcome) :
    Except Stop (Option CCNxManifest × FileSystem) := do
  let chunks := ManifestBuilder.buildSkewedManifest lib capacity (cache.fileChunker lib file) name
  let fs ← saveAll lib cache fs chunks outcomes
  return (ManifestBuilder.lastManifest chunks, fs)

/-- `ccnxFileRepoCache_LoadFile`; a `none` root is `NULL`. -/
def loadFile (capacity : ℕ) (cache : CCNxFileRepoCache) (name : CCNxName) (file : Bytes)
    (fs : FileSystem) (outcomes : ℕ → WriteOutcome) :
    Except Stop (Option CCNxManifest × FileSystem) :=
  buildFile lib capacity cache name file fs outcomes

end CCNxFileRepoCache

end CCNxFileRepo
